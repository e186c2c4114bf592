import MoqLiveCast.Rtmp.Amf0Bounds
/-!
# Amf0RoundTrip — which values are decoded as they were encoded

Scalars are, as long as the number of bytes left is a positive `int` before each.  An object never is: its end is left when it was
decoded, and the last byte of it is no value.
-/
namespace MoqLiveCast

open List

/-! ## Values -/

inductive AmfScalar where
  | number (v : BitVec 64)
  | bool (b : Bool)
  | string (s : List Byte)
  | null
  | undefined

inductive AmfTerm where
  | scalar (v : AmfScalar)
  | object (members : List (List Byte × AmfScalar))

namespace AmfScalar

def item : AmfScalar → AmfItem
  | number v => { amfType := .number, number := v }
  | bool b => { amfType := .bool, enable := b }
  | string s => { amfType := .string, descStr := s }
  | null => { amfType := .null }
  | undefined => { amfType := .undefined }

def encode : AmfScalar → List Byte
  | number v => encodeNumber v
  | bool b => encodeBool b
  | string s => encodeString s true
  | null => encodeNull
  | undefined => encodeUndefined

def Valid : AmfScalar → Prop
  | string s => s.length < 2 ^ 32
  | _ => True

def size : AmfScalar → Nat
  | number _ => 9
  | bool _ => 2
  | string s => if 0xffff < s.length then 5 + s.length else 3 + s.length
  | null => 1
  | undefined => 1

def read : AmfScalar → AmfItem
  | string s => if 0xffff < s.length then { amfType := .longString, descStr := s } else { amfType := .string, descStr := s }
  | v => v.item

end AmfScalar

namespace AmfTerm

def encode : AmfTerm → Option (List Byte)
  | scalar v => some v.encode
  | object members => encodeObject (members.map fun e => (e.1, e.2.item))

/-- The strings have lengths of 32 bits, and the members of an object are a map with keys that are not empty. -/
def Valid : AmfTerm → Prop
  | scalar v => v.Valid
  | object members => OrdMap.Ordered members ∧ ∀ e ∈ members, e.1 ≠ [] ∧ e.2.Valid

end AmfTerm

def encodeTerms (terms : List AmfTerm) : Option (List Byte) := (terms.mapM AmfTerm.encode).map flatten

def scalarOf (item : AmfItem) : Option AmfScalar :=
  match item.amfType with
  | .number => some (.number item.number)
  | .bool => some (.bool item.enable)
  | .string | .longString => some (.string item.descStr)
  | .null => some .null
  | .undefined => some .undefined
  | _ => none

def termOf (item : AmfItem) : Option AmfTerm :=
  match item.amfType with
  | .object => (item.amfObj.mapM fun e => (scalarOf e.2).map (e.1, ·)).map .object
  | _ => (scalarOf item).map .scalar

/-- `Decode` until nothing is left; there is no result where it is an error, or not done in `fuel` turns. -/
def decodeTerms : Nat → List AmfItem → List Byte → Option (List AmfItem)
  | fuel, items, data =>
    if 0 < leftLen data then
      match fuel with
      | 0 => none
      | fuel + 1 =>
        match decodeItem {} data {} with
        | .done true item rest _ => decodeTerms fuel (items ++ [item]) rest
        | _ => none
    else if leftLen data = 0 then some items
    else none

/-- **What is encoded is decoded**: the same values, and nothing is left. -/
def AmfRoundTrips (terms : List AmfTerm) : Prop :=
  ∀ bytes, encodeTerms terms = some bytes → ∃ fuel items, decodeTerms fuel [] bytes = some items ∧
    items.map termOf = terms.map some

def scalarSize : List AmfTerm → Nat
  | [] => 0
  | .scalar v :: ts => v.size + scalarSize ts
  | .object _ :: ts => scalarSize ts

/-- **The condition**: no value is an object, and before each the number of bytes that the rest takes is positive as an `int`. -/
def Plainly (terms : List AmfTerm) : Prop :=
  (∀ t ∈ terms, ∃ v, t = .scalar v) ∧ ∀ k < terms.length, 0 < (BitVec.ofNat 32 (scalarSize (terms.drop k))).toInt

/-! ## A scalar -/

theorem AmfScalar.decode {v : AmfScalar} (hv : v.Valid) (depth : Nat) (rest : List Byte) (log : AmfLog) :
    amfDecode (depth + 1) {} (v.encode ++ rest) log = .done true v.read rest log.begin := by
  cases v with
  | number v =>
    have hlt := v.isLt
    unfold amfDecode encode encodeNumber
    dsimp only [cons_append]
    rw [takeBytes_append (beBytes_length 8 _)]
    dsimp only
    rw [readNBytes_beBytes, Nat.mod_eq_of_lt (by omega), BitVec.ofNat_toNat, BitVec.setWidth_eq]
    rfl
  | bool b => cases b <;> rfl
  | string s =>
    have hlen : s.length < 2 ^ 32 := hv
    by_cases hlong : 0xffff < s.length
    · have henc : (string s).encode = 12 :: (beBytes 4 s.length ++ s) := by simp [encode, encodeString, hlong]
      have hitem : (string s).read = { amfType := .longString, descStr := s } := if_pos hlong
      have hread : readNBytes (beBytes 4 s.length) = s.length := by
        rw [readNBytes_beBytes, Nat.mod_eq_of_lt (by omega)]
      rw [henc, hitem]
      unfold amfDecode
      simp only [cons_append, append_assoc]
      rw [takeBytes_append (beBytes_length 4 _)]
      dsimp only
      rw [hread, takeBytes_append rfl]
      rfl
    · have henc : (string s).encode = 2 :: (beBytes 2 s.length ++ s) := by simp [encode, encodeString, hlong]
      have hitem : (string s).read = { amfType := .string, descStr := s } := if_neg hlong
      have hread : readNBytes (beBytes 2 s.length) = s.length := by
        rw [readNBytes_beBytes, Nat.mod_eq_of_lt (by omega)]
      rw [henc, hitem]
      unfold amfDecode
      simp only [cons_append, append_assoc]
      rw [takeBytes_append (beBytes_length 2 _)]
      dsimp only
      rw [hread, takeBytes_append rfl]
      rfl
  | null => rfl
  | undefined => rfl

variable (v : AmfScalar)

theorem AmfScalar.termOf_read : termOf v.read = some (.scalar v) := by
  cases v with
  | string s =>
    by_cases hlong : 0xffff < s.length
    · have hitem : (string s).read = { amfType := .longString, descStr := s } := if_pos hlong
      rw [hitem]
      rfl
    · have hitem : (string s).read = { amfType := .string, descStr := s } := if_neg hlong
      rw [hitem]
      rfl
  | _ => rfl

theorem AmfScalar.encode_member : encodeMember v.item = some v.encode := by
  cases v <;> rfl

/-! ## Values one behind another -/

theorem encodeTerms_nil : encodeTerms [] = some [] := rfl

variable {terms : List AmfTerm}

theorem encodeTerms_cons {t : AmfTerm} {bytes : List Byte} (h : encodeTerms (t :: terms) = some bytes) :
    ∃ b bs, t.encode = some b ∧ encodeTerms terms = some bs ∧ bytes = b ++ bs := by
  unfold encodeTerms at h ⊢
  rw [mapM_cons] at h
  cases hb : t.encode with
  | none =>
    rw [hb] at h
    cases h
  | some b =>
    cases hbs : terms.mapM AmfTerm.encode with
    | none =>
      rw [hb, hbs] at h
      cases h
    | some bs =>
      rw [hb, hbs] at h
      cases h
      exact ⟨b, bs.flatten, rfl, rfl, rfl⟩

theorem encodeTerms_scalar {bytes : List Byte} (h : encodeTerms terms = some bytes) :
    encodeTerms (.scalar v :: terms) = some (v.encode ++ bytes) := by
  unfold encodeTerms at h ⊢
  obtain ⟨bs, hbs, rfl⟩ := Option.map_eq_some_iff.1 h
  have hv : (AmfTerm.scalar v).encode = some v.encode := rfl
  rw [mapM_cons, hv, hbs]
  rfl

theorem AmfScalar.encode_length : v.encode.length = v.size := by
  cases v with
  | number v => simp [encode, size, encodeNumber]
  | string s =>
    by_cases hlong : 0xffff < s.length
    · simp [encode, size, encodeString, hlong]
      omega
    · simp [encode, size, encodeString, hlong]
      omega
  | _ => rfl

theorem encodeTerms_length : ∀ (terms : List AmfTerm) {bytes : List Byte}, (∀ t ∈ terms, ∃ v, t = .scalar v) →
    encodeTerms terms = some bytes → bytes.length = scalarSize terms
  | [], bytes, _, h => by
    cases h
    rfl
  | t :: terms, bytes, hscalar, h => by
    obtain ⟨v, rfl⟩ := hscalar t mem_cons_self
    obtain ⟨b, bs, hb, hbs, rfl⟩ := encodeTerms_cons h
    cases hb
    rw [length_append, v.encode_length, encodeTerms_length terms (fun t ht => hscalar t (mem_cons_of_mem _ ht)) hbs]
    rfl

theorem leftLen_encodeTerms {bytes : List Byte} (hscalar : ∀ t ∈ terms, ∃ v, t = .scalar v)
    (h : encodeTerms terms = some bytes) : leftLen bytes = (BitVec.ofNat 32 (scalarSize terms)).toInt := by
  unfold leftLen
  rw [encodeTerms_length terms hscalar h]

variable {fuel : Nat}

theorem decodeTerms_stop {items : List AmfItem} : decodeTerms fuel items [] = some items := by
  unfold decodeTerms
  rw [if_neg (by decide), if_pos (by decide)]

theorem decodeTerms_next {items : List AmfItem} {data rest : List Byte} {item : AmfItem} {log : AmfLog}
    (hgo : 0 < leftLen data) (hread : decodeItem {} data {} = .done true item rest log) :
    decodeTerms (fuel + 1) items data = decodeTerms fuel (items ++ [item]) rest := by
  conv_lhs => unfold decodeTerms
  rw [if_pos hgo]
  dsimp only
  rw [hread]

theorem Plainly.decode : ∀ (terms : List AmfTerm) (items : List AmfItem) (bytes : List Byte), Plainly terms →
    (∀ t ∈ terms, t.Valid) → encodeTerms terms = some bytes →
    ∃ items', decodeTerms terms.length items bytes = some (items ++ items') ∧ items'.map termOf = terms.map some
  | [], items, bytes, _, _, hbytes => by
    cases hbytes
    exact ⟨[], by rw [append_nil]; exact decodeTerms_stop, rfl⟩
  | t :: terms, items, bytes, hplain, hvalid, hbytes => by
    obtain ⟨v, rfl⟩ := hplain.1 t mem_cons_self
    have hgo : 0 < leftLen bytes := by
      rw [leftLen_encodeTerms hplain.1 hbytes]
      exact hplain.2 0 (Nat.succ_pos _)
    obtain ⟨b, bs, hb, hbs, rfl⟩ := encodeTerms_cons hbytes
    cases hb
    have hv : v.Valid := hvalid _ mem_cons_self
    have hread : decodeItem {} (v.encode ++ bs) {} = .done true v.read bs {} := v.decode hv _ _ _
    have hrest : Plainly terms :=
      ⟨fun t ht => hplain.1 t (mem_cons_of_mem _ ht), fun k hk => hplain.2 (k + 1) (Nat.succ_lt_succ hk)⟩
    obtain ⟨items', hdecode, hterms⟩ := Plainly.decode terms (items ++ [v.read]) bs hrest
      (fun t ht => hvalid t (mem_cons_of_mem _ ht)) hbs
    refine ⟨v.read :: items', ?_, ?_⟩
    · rw [length_cons, decodeTerms_next hgo hread, hdecode, append_assoc, singleton_append]
    · rw [map_cons, map_cons, v.termOf_read, hterms]

/-! ## An object -/

def memberBytes (members : List (List Byte × AmfScalar)) : List Byte :=
  (members.map fun e => encodeString e.1 false ++ e.2.encode).flatten

theorem encodeObject_scalars (members : List (List Byte × AmfScalar)) :
    encodeObject (members.map fun e => (e.1, e.2.item)) = some (3 :: (memberBytes members ++ [0, 0, 9])) := by
  have hmembers : ∀ members : List (List Byte × AmfScalar),
      (members.map fun e => (e.1, e.2.item)).mapM (fun e => (encodeMember e.2).map (encodeString e.1 false ++ ·)) =
        some (members.map fun e => encodeString e.1 false ++ e.2.encode) := by
    intro members
    induction members with
    | nil => rfl
    | cons e members ih =>
      rw [map_cons, mapM_cons, ih, e.2.encode_member]
      rfl
  unfold encodeObject
  rw [hmembers]
  simp [memberBytes, encodeString, beBytes]

theorem insertItem_length (obj : List (List Byte × AmfItem)) (key : List Byte) (item : AmfItem) :
    (insertItem obj key item).length ≤ obj.length + 1 := by
  have hput : (OrdMap.put obj key item).length ≤ obj.length + 1 := by
    unfold OrdMap.put
    rw [length_append, length_cons]
    induction obj with
    | nil => simp
    | cons e obj ih =>
      by_cases hlt : e.1 < key
      · have hgt : ¬key < e.1 := fun h => List.lt_irrefl _ (List.lt_trans hlt h)
        simp [hlt, hgt] at ih ⊢
        omega
      · by_cases hgt : key < e.1 <;> simp [hlt, hgt] at ih ⊢ <;> omega
  unfold insertItem
  split
  · omega
  · exact hput

theorem mem_insertItem {obj : List (List Byte × AmfItem)} {key : List Byte} {item : AmfItem} {e : List Byte × AmfItem}
    (he : e ∈ insertItem obj key item) : e ∈ obj ∨ e.1 = key := by
  unfold insertItem OrdMap.put at he
  split at he
  · exact Or.inl he
  · rcases List.mem_append.1 he with he | he
    · exact Or.inl (List.mem_filter.1 he).1
    · rcases List.mem_cons.1 he with rfl | he
      · exact Or.inr rfl
      · exact Or.inl (List.mem_filter.1 he).1

theorem decodeAmfObject_keys {decode : AmfItem → List Byte → AmfLog → AmfRead AmfItem} :
    ∀ (fuel : Nat) {obj obj' : List (List Byte × AmfItem)} {data rest : List Byte} {log log' : AmfLog} {ok : Bool},
    decodeAmfObject decode fuel obj data log = .done ok obj' rest log' → (∀ e ∈ obj, e.1.length ≤ 0xffff) →
    ∀ e ∈ obj', e.1.length ≤ 0xffff
  | 0, obj, obj', data, rest, log, log', ok, h, hobj => by
    unfold decodeAmfObject at h
    split at h
    · cases h
    · cases h
      exact hobj
  | fuel + 1, obj, obj', data, rest, log, log', ok, h, hobj => by
    unfold decodeAmfObject at h
    split at h
    swap
    · cases h
      exact hobj
    split at h
    · cases h
    rename_i len data' hlen
    split at h
    · split at h
      · cases h
      · split at h
        · cases h
          exact hobj
        · cases h
    split at h
    · cases h
    rename_i key data'' hkey
    split at h
    · cases h
    split at h
    · cases h
      exact hobj
    split at h
    · cases h
    · cases h
      exact hobj
    · refine decodeAmfObject_keys fuel h fun e he => ?_
      rcases mem_insertItem he with he | he
      · exact hobj e he
      · have hlen2 : len.length = 2 := (takeBytes_eq hlen).2
        have hlt := readNBytes_lt len
        rw [hlen2] at hlt
        rw [he, (takeBytes_eq hkey).2]
        omega

theorem AmfScalar.encode_type : ∃ t tail, v.encode = t :: tail ∧ t.toNat ≤ 13 := by
  cases v with
  | number v => exact ⟨0, _, rfl, by decide⟩
  | bool b => exact ⟨1, _, rfl, by decide⟩
  | string s =>
    by_cases hlong : 0xffff < s.length
    · exact ⟨12, beBytes 4 s.length ++ s, by simp [encode, encodeString, hlong], by decide⟩
    · exact ⟨2, beBytes 2 s.length ++ s, by simp [encode, encodeString, hlong], by decide⟩
  | null => exact ⟨5, _, rfl, by decide⟩
  | undefined => exact ⟨6, _, rfl, by decide⟩

theorem decodeAmfObject_members (depth : Nat) (tail : List Byte) : ∀ (fuel : Nat) (members : List (List Byte × AmfScalar))
    {obj obj' : List (List Byte × AmfItem)} {rest : List Byte} {log log' : AmfLog},
    (∀ e ∈ members, e.1 ≠ [] ∧ e.1.length ≤ 0xffff ∧ e.2.Valid) →
    decodeAmfObject (amfDecode (depth + 1)) fuel obj (memberBytes members ++ 0 :: 0 :: 9 :: tail) log = .done true obj' rest log' →
    obj'.length < obj.length + members.length ∨ rest = 9 :: tail ∨ rest = 0 :: 0 :: 9 :: tail ∧ ¬0 < leftLen rest
  | fuel, [], obj, obj', rest, log, log', _, h => by
    have hnil : memberBytes [] = [] := rfl
    rw [hnil, nil_append] at h
    unfold decodeAmfObject at h
    by_cases hgo : 0 < leftLen (0 :: 0 :: 9 :: tail)
    · cases fuel with
      | zero =>
        dsimp only at h
        rw [if_pos hgo] at h
        cases h
      | succ fuel =>
        dsimp only at h
        have htake : takeBytes 2 (0 :: 0 :: 9 :: tail : List Byte) = some ([0, 0], 9 :: tail) :=
          takeBytes_append (b := [0, 0]) rfl _
        have hzero : readNBytes [0, 0] = 0 := rfl
        rw [if_pos hgo, htake] at h
        dsimp only at h
        rw [if_pos hzero, if_pos rfl] at h
        cases h
        exact Or.inr (Or.inl rfl)
    · have hdone : AmfRead.done true obj (0 :: 0 :: 9 :: tail) log = .done true obj' rest log' := by
        cases fuel with
        | zero =>
          dsimp only at h
          rwa [if_neg hgo] at h
        | succ fuel =>
          dsimp only at h
          rwa [if_neg hgo] at h
      cases hdone
      exact Or.inr (Or.inr ⟨rfl, hgo⟩)
  | fuel, (key, v) :: members, obj, obj', rest, log, log', hmembers, h => by
    have hlen : key.length ≤ 0xffff := (hmembers (key, v) mem_cons_self).2.1
    have hlong : ¬0xffff < key.length := by omega
    obtain ⟨hkey, -, hv⟩ := hmembers (key, v) mem_cons_self
    have hstop : ¬0 < leftLen (memberBytes ((key, v) :: members) ++ 0 :: 0 :: 9 :: tail) →
        obj'.length < obj.length + ((key, v) :: members).length := by
      intro hgo
      have hdone : obj' = obj := by
        cases fuel with
        | zero =>
          unfold decodeAmfObject at h
          rw [if_neg hgo] at h
          cases h
          rfl
        | succ fuel =>
          unfold decodeAmfObject at h
          rw [if_neg hgo] at h
          cases h
          rfl
      rw [hdone, length_cons]
      omega
    by_cases hgo : 0 < leftLen (memberBytes ((key, v) :: members) ++ 0 :: 0 :: 9 :: tail)
    swap
    · exact Or.inl (hstop hgo)
    cases fuel with
    | zero =>
      unfold decodeAmfObject at h
      rw [if_pos hgo] at h
      cases h
    | succ fuel =>
      unfold decodeAmfObject at h
      rw [if_pos hgo] at h
      have hbytes : memberBytes ((key, v) :: members) ++ 0 :: 0 :: 9 :: tail =
          beBytes 2 key.length ++ (key ++ (v.encode ++ (memberBytes members ++ 0 :: 0 :: 9 :: tail))) := by
        simp [memberBytes, encodeString, hlong]
      have hread : readNBytes (beBytes 2 key.length) = key.length := by
        rw [readNBytes_beBytes, Nat.mod_eq_of_lt (by omega)]
      have hpos : key.length ≠ 0 := fun h => hkey (List.length_eq_zero_iff.1 h)
      obtain ⟨t, vtail, hv13, ht⟩ := v.encode_type
      rw [hbytes, takeBytes_append (beBytes_length 2 _)] at h
      dsimp only at h
      rw [hread, if_neg hpos, takeBytes_append rfl] at h
      dsimp only at h
      rw [hv13] at h
      dsimp only [cons_append] at h
      rw [if_neg (by omega), ← cons_append, ← hv13, v.decode hv] at h
      dsimp only at h
      have hinsert := insertItem_length obj key v.read
      rcases decodeAmfObject_members depth tail fuel members (fun e he => hmembers e (mem_cons_of_mem _ he)) h with hlost | hend
      · rw [length_cons]
        omega
      · exact Or.inr hend

/-! ## The round trip -/

theorem decodeTerms_acc : ∀ (fuel : Nat) {items items' : List AmfItem} {data : List Byte},
    decodeTerms fuel items data = some items' → ∃ more, items' = items ++ more
  | fuel, items, items', data, h => by
    unfold decodeTerms at h
    split at h
    · split at h
      · cases h
      · rename_i fuel
        split at h
        · rename_i item rest log hread
          obtain ⟨more, hmore⟩ := decodeTerms_acc fuel h
          exact ⟨item :: more, by rw [hmore, append_assoc, singleton_append]⟩
        · cases h
    · split at h
      · cases h
        exact ⟨[], (append_nil _).symm⟩
      · cases h

theorem decodeTerms_end {items items' : List AmfItem} {data : List Byte} (hgo : ¬0 < leftLen data)
    (h : decodeTerms fuel items data = some items') : leftLen data = 0 ∧ items' = items := by
  unfold decodeTerms at h
  rw [if_neg hgo] at h
  split at h
  · rename_i hzero
    cases h
    exact ⟨hzero, rfl⟩
  · cases h

theorem termOf_object {obj : List (List Byte × AmfItem)} {members : List (List Byte × AmfScalar)}
    (h : termOf { amfType := .object, amfObj := obj } = some (.object members)) : members.map Prod.fst = obj.map Prod.fst := by
  have hmap : (obj.mapM fun e => (scalarOf e.2).map (e.1, ·)) = some members := by
    obtain ⟨members', hmembers, heq⟩ := Option.map_eq_some_iff.1 h
    cases heq
    exact hmembers
  clear h
  induction obj generalizing members with
  | nil =>
    cases hmap
    rfl
  | cons e obj ih =>
    rw [mapM_cons] at hmap
    cases hv : scalarOf e.2 with
    | none =>
      rw [hv] at hmap
      cases hmap
    | some v =>
      cases hobj : obj.mapM fun e => (scalarOf e.2).map (e.1, ·) with
      | none =>
        rw [hv, hobj] at hmap
        cases hmap
      | some vs =>
        rw [hv, hobj] at hmap
        cases hmap
        rw [map_cons, map_cons, ih hobj]

theorem object_lost {members : List (List Byte × AmfScalar)} {items more : List AmfItem}
    {bytes : List Byte} (hvalid : (AmfTerm.object members).Valid) (hbytes : encodeTerms (.object members :: terms) = some bytes)
    (h : decodeTerms fuel items bytes = some (items ++ more)) : more.map termOf ≠ some (.object members) :: terms.map some := by
  intro hterms
  obtain ⟨b, bs, hb, hbs, rfl⟩ := encodeTerms_cons hbytes
  have hobj : b = 3 :: (memberBytes members ++ [0, 0, 9]) :=
    (Option.some.inj ((encodeObject_scalars members).symm.trans hb)).symm
  by_cases hgo : 0 < leftLen (b ++ bs)
  swap
  · have hmore : items ++ more = items := (decodeTerms_end hgo h).2
    have hnil : more = [] := List.append_right_eq_self.1 hmore
    rw [hnil] at hterms
    cases hterms
  have hlast : ∀ {fuel : Nat} {item : AmfItem} {rest : List Byte}, decodeTerms fuel (items ++ [item]) rest = some (items ++ more) →
      ¬0 < leftLen rest → leftLen rest = 0 ∧ bs = [] := by
    intro fuel item rest h hstop
    obtain ⟨hzero, hmore⟩ := decodeTerms_end hstop h
    have hone : more = [item] := append_cancel_left hmore
    rw [hone] at hterms
    have htail : ([] : List (Option AmfTerm)) = terms.map some := (List.cons.inj hterms).2
    have hnil : terms = [] := List.map_eq_nil_iff.1 htail.symm
    rw [hnil, encodeTerms_nil] at hbs
    exact ⟨hzero, (Option.some.inj hbs).symm⟩
  cases fuel with
  | zero =>
    unfold decodeTerms at h
    rw [if_pos hgo] at h
    cases h
  | succ fuel =>
    cases hread : decodeItem {} (b ++ bs) {} with
    | fault f =>
      unfold decodeTerms at h
      rw [if_pos hgo] at h
      dsimp only at h
      rw [hread] at h
      cases h
    | done ok item rest log =>
      cases ok with
      | false =>
        unfold decodeTerms at h
        rw [if_pos hgo] at h
        dsimp only at h
        rw [hread] at h
        cases h
      | true =>
        rw [decodeTerms_next hgo hread] at h
        have hbytes' : b ++ bs = 3 :: (memberBytes members ++ 0 :: 0 :: 9 :: bs) := by
          rw [hobj]
          simp
        obtain ⟨depth, hdepth⟩ : ∃ depth, (b ++ bs).length + 1 = depth + 1 + 1 := ⟨_, by rw [hbytes']; rfl⟩
        unfold decodeItem at hread
        rw [hdepth, hbytes'] at hread
        unfold amfDecode at hread
        dsimp only at hread
        have htype : (3 : Byte).toNat = 3 := rfl
        rw [htype] at hread
        cases hdec : decodeAmfObject (amfDecode (depth + 1)) (memberBytes members ++ 0 :: 0 :: 9 :: bs).length []
            (memberBytes members ++ 0 :: 0 :: 9 :: bs) ({} : AmfLog).begin with
        | fault f =>
          rw [hdec] at hread
          cases hread
        | done ok obj rest' log' =>
          rw [hdec] at hread
          cases hread
          obtain ⟨items', hitems'⟩ := decodeTerms_acc fuel h
          have hmore : more = { amfType := .object, amfObj := obj } :: items' := by
            rw [append_assoc] at hitems'
            exact append_cancel_left hitems'
          rw [hmore, map_cons] at hterms
          have hkeys := termOf_object (List.cons.inj hterms).1
          have hshort : ∀ e ∈ members, e.1.length ≤ 0xffff := by
            intro e he
            have hmem : e.1 ∈ obj.map Prod.fst := hkeys ▸ mem_map_of_mem he
            obtain ⟨e', he', heq⟩ := List.mem_map.1 hmem
            rw [← heq]
            exact decodeAmfObject_keys _ hdec (by simp) e' he'
          have hcount : members.length = obj.length := by
            have hlen := congrArg List.length hkeys
            rwa [length_map, length_map] at hlen
          rcases decodeAmfObject_members depth bs _ members (fun e he => ⟨(hvalid.2 e he).1, hshort e he, (hvalid.2 e he).2⟩)
            hdec with hlost | hend | ⟨hend, hstop⟩
          · rw [length_nil] at hlost
            omega
          · -- the end byte is taken for a type
            rw [hend] at h
            by_cases hgo' : 0 < leftLen (9 :: bs)
            · unfold decodeTerms at h
              rw [if_pos hgo'] at h
              cases fuel <;> cases h
            · obtain ⟨hzero, hnil⟩ := hlast h hgo'
              rw [hnil] at hzero
              exact absurd hzero (by decide)
          · obtain ⟨hzero, hnil⟩ := hlast h hstop
            rw [hend, hnil] at hzero
            exact absurd hzero (by decide)

theorem Plainly.of_decode : ∀ (terms : List AmfTerm) {fuel : Nat} {items more : List AmfItem} {bytes : List Byte},
    (∀ t ∈ terms, t.Valid) → encodeTerms terms = some bytes → decodeTerms fuel items bytes = some (items ++ more) →
    more.map termOf = terms.map some → Plainly terms
  | [], _, _, _, _, _, _, _, _ => ⟨by simp, by simp⟩
  | .object members :: terms, fuel, items, more, bytes, hvalid, hbytes, h, hterms =>
    absurd hterms (object_lost (hvalid _ mem_cons_self) hbytes h)
  | .scalar v :: terms, fuel, items, more, bytes, hvalid, hbytes, h, hterms => by
    by_cases hgo : 0 < leftLen bytes
    swap
    · have hmore : items ++ more = items := (decodeTerms_end hgo h).2
      rw [List.append_right_eq_self.1 hmore] at hterms
      cases hterms
    cases fuel with
    | zero =>
      unfold decodeTerms at h
      rw [if_pos hgo] at h
      cases h
    | succ fuel =>
      obtain ⟨b, bs, hb, hbs, hbytes'⟩ := encodeTerms_cons hbytes
      cases hb
      have hv : v.Valid := hvalid _ mem_cons_self
      have hread : decodeItem {} bytes {} = .done true v.read bs {} := by
        rw [hbytes']
        exact v.decode hv _ _ _
      rw [decodeTerms_next hgo hread] at h
      obtain ⟨items', hitems'⟩ := decodeTerms_acc fuel h
      have hmore : more = v.read :: items' := by
        rw [append_assoc] at hitems'
        exact append_cancel_left hitems'
      rw [hitems'] at h
      rw [hmore, map_cons, map_cons] at hterms
      have hrest := Plainly.of_decode terms (fun t ht => hvalid t (mem_cons_of_mem _ ht)) hbs h (List.cons.inj hterms).2
      have hscalar : ∀ t ∈ .scalar v :: terms, ∃ v, t = AmfTerm.scalar v := by
        intro t ht
        rcases List.mem_cons.1 ht with rfl | ht
        · exact ⟨v, rfl⟩
        · exact hrest.1 t ht
      refine ⟨hscalar, fun k hk => ?_⟩
      cases k with
      | zero =>
        rw [drop_zero, ← leftLen_encodeTerms hscalar hbytes]
        exact hgo
      | succ k => exact hrest.2 k (Nat.lt_of_succ_lt_succ hk)

theorem encodeTerms_isSome (terms : List AmfTerm) : ∃ bytes, encodeTerms terms = some bytes := by
  induction terms with
  | nil => exact ⟨[], rfl⟩
  | cons t terms ih =>
    obtain ⟨bs, hbs⟩ := ih
    cases t with
    | scalar v => exact ⟨_, encodeTerms_scalar v hbs⟩
    | object members =>
      unfold encodeTerms at hbs ⊢
      obtain ⟨bs', hbs', rfl⟩ := Option.map_eq_some_iff.1 hbs
      have hobj : (AmfTerm.object members).encode = some (3 :: (memberBytes members ++ [0, 0, 9])) := encodeObject_scalars members
      rw [mapM_cons, hobj, hbs']
      exact ⟨_, rfl⟩

def plainTerms : List AmfTerm := [.scalar (.string (amfText "createStream")), .scalar (.number 0)]

end MoqLiveCast
