import Mathlib.Data.Nat.Digits.Lemmas
import MoqLiveCast.Http3.QpackLines
import MoqLiveCast.Quic.Varint
/-!
# QpackWrite — blocks as they are written here (`webtransport_client_api.c`, `http3_server.c`, `http3_server_api.c`)

A client writes literal names; a server takes the name of a status from the static table, and writes the length of its value as a
QUIC varint.
-/
namespace MoqLiveCast

open List

/-- What is left of a number behind its first byte, seven bits in a byte, the lowest first. -/
def continueNumber : Nat → Nat → List Byte
  | 0, _ => []
  | fuel + 1, r =>
    if r < 128 then [BitVec.ofNat 8 r] else (BitVec.ofNat 8 (r % 128) ||| 0x80) :: continueNumber fuel (r / 128)

def nameLength (nlen : Nat) : List Byte :=
  if nlen < 7 then [BitVec.ofNat 8 nlen ||| 0x20] else 0x27 :: continueNumber nlen (nlen - 7)

/-- The length of a value fills its first byte with seven bits and goes on with the others, the eighth bit set: it is no number of
which seven bits are in the first byte. -/
def valueLength (vlen : Nat) : List Byte :=
  if vlen < 128 then [BitVec.ofNat 8 vlen] else (BitVec.ofNat 8 (vlen % 128) ||| 0x80) :: continueNumber vlen (vlen / 128)

def qpackWriteLiteralI (name val : List Byte) : List Byte :=
  nameLength name.length ++ (name ++ (valueLength val.length ++ val))

def connectFields (path authority : List Byte) : List (List Byte × List Byte) :=
  [(h3Text ":method", h3Text "CONNECT"), (h3Text ":protocol", h3Text "webtransport"), (h3Text ":scheme", h3Text "https"),
    (h3Text ":path", if path = [] then h3Text "/" else path),
    (h3Text ":authority", if authority = [] then h3Text "127.0.0.1:4433" else authority),
    (h3Text "sec-webtransport-http3-draft-02", h3Text "1")]

def sendWtConnectInternal (path authority : List Byte) : Option (List Byte) :=
  let hdr := 0 :: 0 :: (connectFields path authority).flatMap fun p => qpackWriteLiteralI p.1 p.2
  if 512 ≤ hdr.length then none else some hdr

def decimal (status : BitVec 32) : List Byte :=
  (if status.toInt < 0 then [0x2d] else []) ++
    if status = 0 then [0x30] else (Nat.digits 10 status.toInt.natAbs).reverse.map fun d => BitVec.ofNat 8 (0x30 + d)

/-- What `memcpy` takes of `sval[8]`, as many bytes as the whole text has; `beyond` is what is behind it. -/
def statusBytes (beyond : Nat → Byte) (status : BitVec 32) : List Byte :=
  (range (decimal status).length).map fun i => if i < 7 then (decimal status).getD i 0 else if i = 7 then 0 else beyond i

/-- A status under the name of the static index `15 + more`. -/
def statusBlock (beyond : Nat → Byte) (more : Byte) (status : BitVec 32) : List Byte :=
  0 :: 0 :: 0x5f :: more :: (varintBytes (decimal status).length ++ statusBytes beyond status)

def http3SendResponse (beyond : Nat → Byte) (status : BitVec 32) : List Byte := statusBlock beyond 0x09 status

def sendQpackHeaders (beyond : Nat → Byte) (status : BitVec 32) : List Byte := statusBlock beyond 0x0b status

def sendWtConnectResponse : List Byte :=
  0 :: 0 :: 0x5f :: 0x0b :: 0x03 :: (h3Text "200" ++ qpackWriteLiteralI (h3Text "sec-webtransport-http3-draft-02") (h3Text "1"))

inductive HeaderBlock where
  | connect (path authority : List Byte)
  | response (status : BitVec 32)
  | qpackHeaders (status : BitVec 32)
  | wtResponse

namespace HeaderBlock

def written (beyond : Nat → Byte) : HeaderBlock → Option (List Byte)
  | connect path authority => sendWtConnectInternal path authority
  | response status => some (http3SendResponse beyond status)
  | qpackHeaders status => some (sendQpackHeaders beyond status)
  | wtResponse => some sendWtConnectResponse

def pairs : HeaderBlock → List (List Byte × List Byte)
  | connect path authority => connectFields path authority
  | response status        => [(h3Text ":status", decimal status)]
  | qpackHeaders status    => [(h3Text ":status", decimal status)]
  | wtResponse             => [(h3Text ":status", h3Text "200"), (h3Text "sec-webtransport-http3-draft-02", h3Text "1")]

def Admitted : HeaderBlock → Prop
  | connect path authority => path.length ≤ 191 ∧ authority.length ≤ 95 ∧ 0 ∉ path ∧ 0 ∉ authority
  | _ => True

/-- **A block is read back**, whatever is in the buffers. -/
def ReadBack (beyond : Nat → Byte) (st : QpackStatics) (b : HeaderBlock) : Prop :=
  ∃ data, b.written beyond = some data ∧ (qpackDecode data QPACK_MAX_FIELDS st).ret = (b.pairs.length : Int) ∧
    (qpackDecode data QPACK_MAX_FIELDS st).fields.map (QpackHeaderField.pair data) = b.pairs

/-- **The condition**: a path fits seven bits, and not all of them are ones; a status is written under its own index, and its text
fits `sval`. -/
def Short : HeaderBlock → Prop
  | connect path _ => path.length ≤ 126
  | response _ => False
  | qpackHeaders status => (decimal status).length ≤ 7
  | wtResponse => True

end HeaderBlock

/-! ## A literal is read -/

variable (rest : List Byte)

theorem vd_small {b : Byte} {bits n : Nat} (h : b.toNat % 2 ^ bits = n) (hn : n < 2 ^ bits - 1) :
    vd (b :: rest) bits = some (n, 1) := by
  unfold vd
  dsimp only
  rw [h]
  exact if_pos hn

theorem vd_more {b : Byte} {bits : Nat} (h : b.toNat % 2 ^ bits = 2 ^ bits - 1) :
    vd (b :: rest) bits = vdMore (rest.take 9) (2 ^ bits - 1) 0 1 := by
  unfold vd
  dsimp only
  rw [h]
  exact if_neg (Nat.lt_irrefl _)

theorem vd_next {b : Byte} (bits r : Nat) (rest : List Byte) (h : b.toNat % 2 ^ bits = 2 ^ bits - 1) (hr : r < 128) :
    vd (b :: BitVec.ofNat 8 r :: rest) bits = some (2 ^ bits - 1 + r, 2) := by
  have hbyte : (BitVec.ofNat 8 r).toNat = r := by
    rw [BitVec.toNat_ofNat]
    omega
  rw [vd_more _ h, take_succ_cons]
  unfold vdMore
  dsimp only
  rw [hbyte, if_pos hr, Nat.mod_eq_of_lt hr]
  simp

theorem nameLength_read {nlen : Nat} (hn : nlen < 135) (tail : List Byte) : vd (nameLength nlen ++ tail) 3 =
    some (nlen, (nameLength nlen).length) ∧ ∃ b rest, nameLength nlen = b :: rest ∧ b.getLsbD 3 = false ∧ 32 ≤ b.toNat ∧
    b.toNat < 64 := by
  have hsmall : ∀ n < 7, (BitVec.ofNat 8 n ||| 0x20).toNat % 2 ^ 3 = n ∧ (BitVec.ofNat 8 n ||| 0x20).getLsbD 3 = false ∧
      32 ≤ (BitVec.ofNat 8 n ||| 0x20).toNat ∧ (BitVec.ofNat 8 n ||| 0x20).toNat < 64 := by decide
  unfold nameLength
  by_cases h : nlen < 7
  · rw [if_pos h]
    obtain ⟨hmod, hbit, hlow, hhigh⟩ := hsmall nlen h
    exact ⟨vd_small _ hmod (by omega), _, _, rfl, hbit, hlow, hhigh⟩
  · rw [if_neg h]
    obtain ⟨k, rfl⟩ : ∃ k, nlen = k + 1 := ⟨nlen - 1, by omega⟩
    have hone : continueNumber (k + 1) (k + 1 - 7) = [BitVec.ofNat 8 (k + 1 - 7)] := if_pos (by omega)
    rw [hone]
    refine ⟨?_, 0x27, [BitVec.ofNat 8 (k + 1 - 7)], rfl, by decide, by decide, by decide⟩
    have hread := vd_next (b := 0x27) 3 (k + 1 - 7) tail (by decide) (by omega)
    simp only [cons_append, nil_append, length_cons, length_nil]
    rw [hread]
    simp only [Option.some.injEq, Prod.mk.injEq, and_true]
    omega

theorem parseOne_name {name tail : List Byte} (hn : name.length < 135) (hne : tail ≠ []) (off : Nat) (st : QpackStatics) :
    parseOne (nameLength name.length ++ (name ++ tail)) off st =
      let st' := { st with ns := (st.ns + 1) % 8 }
      let pos := (nameLength name.length).length + name.length
      match vd tail 7 with
      | none => (none, st')
      | some (vlen, v2) =>
        if tail.length < v2 + vlen then (none, st')
        else
          let h := (tail.getD 0 0).getLsbD 7
          let r := readValue (nameLength name.length ++ (name ++ tail)) off (.litValue st.litSlot) h (pos + v2) vlen
          (some (toInt32 (pos + v2) + toInt32 vlen, ⟨.input (off + (nameLength name.length).length), name.length, r.1.1, r.1.2⟩),
            if h then { st' with litSlot := (st.litSlot + 1) % 16, writes := st.writes ++ r.2 } else st') := by
  obtain ⟨hvd, b, rest, hhead, hbit, hlow, hhigh⟩ := nameLength_read hn (name ++ tail)
  have hpos := List.length_pos_iff.2 hne
  have hsize : sizeOf32 (toInt32 name.length) = name.length := by
    rw [toInt32_of_le (by unfold INT_MAX; omega)]
    unfold sizeOf32
    omega
  have hdrop : (nameLength name.length ++ (name ++ tail)).drop ((nameLength name.length).length + name.length) = tail := by
    rw [← append_assoc, ← length_append, drop_left]
  have hfirst : (nameLength name.length ++ (name ++ tail)).getD ((nameLength name.length).length + name.length) 0 =
      tail.getD 0 0 := by
    rw [← getD_drop, hdrop]
  have hlong : ∀ n, (nameLength name.length ++ (name ++ tail)).length <
      (nameLength name.length).length + name.length + n ↔ tail.length < n := by
    intro n
    simp only [length_append]
    omega
  have hdata : nameLength name.length ++ (name ++ tail) = b :: (rest ++ (name ++ tail)) := by
    rw [hhead, cons_append]
  have hparse : parseOne (nameLength name.length ++ (name ++ tail)) off st =
      parseLiteralName (nameLength name.length ++ (name ++ tail)) off st b := by
    rw [hdata]
    unfold parseOne
    dsimp only
    rw [if_neg (by omega), if_neg (by omega), if_pos hlow]
  rw [hparse]
  unfold parseLiteralName
  have hroom : ¬(nameLength name.length ++ (name ++ tail)).length < (nameLength name.length).length + name.length := by
    simp only [length_append]
    omega
  have hmore : ¬(nameLength name.length ++ (name ++ tail)).length ≤ (nameLength name.length).length + name.length := by
    simp only [length_append]
    omega
  rw [hvd]
  dsimp only
  rw [if_neg hroom, if_neg hmore, hdrop, hbit]
  cases vd tail 7 with
  | none => simp [readName]
  | some r =>
    obtain ⟨vlen, v2⟩ := r
    simp only [Nat.add_assoc] at hlong
    simp only [readName, Bool.false_eq_true, if_false, append_nil, hfirst, hsize, Nat.add_assoc, hlong]

variable {off : Nat}

theorem drop_value {data name tail : List Byte} (hdata : data.drop off = nameLength name.length ++ (name ++ tail))
    (k : Nat) : data.drop (off + ((nameLength name.length).length + name.length + k)) = tail.drop k := by
  rw [← drop_drop, hdata, ← drop_drop, ← append_assoc, ← length_append, drop_left]

theorem bytes_name {data name tail : List Byte} (hdata : data.drop off = nameLength name.length ++ (name ++ tail)) :
    (QpackPtr.input (off + (nameLength name.length).length)).bytes data name.length = name := by
  unfold QpackPtr.bytes
  dsimp only
  rw [← drop_drop, hdata, drop_left, take_left]

theorem parseOne_literal {data name val rest : List Byte} (hlen : data.length < 2 ^ 31)
    (hdata : data.drop off = qpackWriteLiteralI name val ++ rest) (hn : name.length < 135) (hv : val.length < 127)
    (st : QpackStatics) : ∃ f : QpackHeaderField, f.pair data = (name, val) ∧ parseOne (data.drop off) off st =
      (some (((qpackWriteLiteralI name val).length : Int), f), { st with ns := (st.ns + 1) % 8 }) := by
  have hone : valueLength val.length = [BitVec.ofNat 8 val.length] := if_pos (by omega)
  have hbyte : (BitVec.ofNat 8 val.length : Byte).toNat = val.length := by
    rw [BitVec.toNat_ofNat]
    omega
  have hvd : vd (BitVec.ofNat 8 val.length :: (val ++ rest)) 7 = some (val.length, 1) :=
    vd_small _ (by rw [hbyte]; exact Nat.mod_eq_of_lt (by omega)) (by omega)
  have hbit : (BitVec.ofNat 8 val.length : Byte).getLsbD 7 = false := by
    have hall : ∀ n < 127, (BitVec.ofNat 8 n : Byte).getLsbD 7 = false := by decide +kernel
    exact hall _ hv
  unfold qpackWriteLiteralI at hdata ⊢
  rw [hone] at hdata ⊢
  simp only [append_assoc, cons_append, nil_append] at hdata
  have hwhole := congrArg List.length hdata
  simp only [length_drop, length_append, length_cons] at hwhole
  have hvalue : (QpackPtr.input (off + ((nameLength name.length).length + name.length + 1))).bytes data val.length = val := by
    unfold QpackPtr.bytes
    dsimp only
    rw [drop_value hdata, drop_succ_cons, drop_zero, take_left]
  rw [hdata, parseOne_name hn (cons_ne_nil _ _), hvd]
  dsimp only
  rw [if_neg (by simp only [length_cons, length_append]; omega), getD_cons_zero, hbit, readValue_eq]
  have hret : toInt32 ((nameLength name.length).length + name.length + 1) + toInt32 val.length =
      (((nameLength name.length ++ (name ++ ([BitVec.ofNat 8 val.length] ++ val))).length : Nat) : Int) := by
    rw [toInt32_of_le (by unfold INT_MAX; omega), toInt32_of_le (by unfold INT_MAX; omega)]
    simp only [length_append, length_cons, length_nil]
    omega
  simp only [Bool.false_eq_true, if_false]
  rw [hret]
  refine ⟨_, ?_, rfl⟩
  exact Prod.ext (bytes_name hdata) hvalue

theorem parseFields_literals {data : List Byte} (hlen : data.length < 2 ^ 31) : ∀ (ps : List (List Byte × List Byte))
    (n pos : Nat) (st : QpackStatics) (rest : List Byte), data.drop pos = ps.flatMap (fun p => qpackWriteLiteralI p.1 p.2) ++ rest →
    (∀ p ∈ ps, p.1.length < 135 ∧ p.2.length < 127) → ∃ pos' st', data.drop pos' = rest ∧
      (parseFields data (ps.length + n) pos st).1.map (QpackHeaderField.pair data) =
        ps ++ (parseFields data n pos' st').1.map (QpackHeaderField.pair data)
  | [], n, pos, st, rest, hdata, _ => ⟨pos, st, hdata, by rw [length_nil, Nat.zero_add]; rfl⟩
  | p :: ps, n, pos, st, rest, hdata, hps => by
    rw [flatMap_cons, append_assoc] at hdata
    obtain ⟨hn, hv⟩ := hps p mem_cons_self
    obtain ⟨f, hf, hone⟩ := parseOne_literal hlen hdata hn hv st
    have hnext : data.drop (pos + (qpackWriteLiteralI p.1 p.2).length) =
        ps.flatMap (fun p => qpackWriteLiteralI p.1 p.2) ++ rest := by
      rw [← drop_drop, hdata, drop_left]
    obtain ⟨pos', st', hrest, hrun⟩ := parseFields_literals hlen ps n _ { st with ns := (st.ns + 1) % 8 } rest hnext
      fun q hq => hps q (mem_cons_of_mem _ hq)
    have hpos : 0 < (qpackWriteLiteralI p.1 p.2).length := by
      unfold qpackWriteLiteralI nameLength
      rw [length_append]
      split <;> simp
    have hmore : ¬data.length ≤ pos := by
      intro hle
      rw [drop_of_length_le hle] at hdata
      have hwhole := congrArg List.length hdata
      rw [length_nil, length_append] at hwhole
      omega
    refine ⟨pos', st', hrest, ?_⟩
    rw [length_cons, Nat.succ_add, parseFields, if_neg hmore, hone]
    dsimp only
    rw [if_pos (by omega), Int.toNat_natCast, map_cons, hrun, hf, cons_append]

theorem parseFields_end {data : List Byte} {pos : Nat} (h : data.drop pos = []) (n : Nat) (st : QpackStatics) :
    parseFields data n pos st = ([], st) := by
  cases n with
  | zero => rfl
  | succ n => exact if_pos (List.drop_eq_nil_iff.1 h)

/-! ## A value that is too long -/

theorem vdMore_lt : ∀ (l : List Byte) (val m pos n v : Nat), 0 ∉ l → vdMore l val m pos = some (n, v) → val < n
  | [], _, _, _, _, _, _, h => nomatch h
  | b :: l, val, m, pos, n, v, hnz, h => by
    have hb : b.toNat ≠ 0 := fun h0 => hnz (List.mem_cons.2 (.inl (BitVec.eq_of_toNat_eq h0.symm)))
    unfold vdMore at h
    dsimp only at h
    split at h
    · simp only [Option.some.injEq, Prod.mk.injEq] at h
      have hpos : 0 < b.toNat % 128 * 2 ^ m := Nat.mul_pos (by omega) (Nat.two_pow_pos m)
      omega
    · have := vdMore_lt l _ _ _ n v (fun h0 => hnz (mem_cons_of_mem _ h0)) h
      omega

theorem huffValue_short (data : List Byte) (buf : QpackBuf) (src : List Byte) :
    ((huffValue buf src).1.bytes data (huffValue buf src).2).length ≤ 2 * src.length := by
  unfold huffValue
  split
  · exact Nat.le_trans (length_take_le' _ _) (huffmanDecodeStr_length src)
  · exact Nat.zero_le _

theorem parseOne_long {data name path rest : List Byte}
    (hdata : data.drop off = qpackWriteLiteralI name path ++ rest) (hn : name.length < 135) (hlow : 127 ≤ path.length)
    (hhigh : path.length ≤ 191) (hnz : 0 ∉ path) {st st' : QpackStatics} {c : Int} {f : QpackHeaderField}
    (hone : parseOne (data.drop off) off st = (some (c, f), st')) : f.value.bytes data f.valueLen ≠ path := by
  unfold qpackWriteLiteralI at hdata
  simp only [append_assoc] at hdata
  have hne : valueLength path.length ++ (path ++ rest) ≠ [] := by
    unfold valueLength
    split <;> simp
  rw [hdata, parseOne_name hn hne] at hone
  dsimp only at hone
  rcases Nat.lt_or_ge path.length 128 with hlt | hge
  · have hlast : path.length = 127 := by omega
    have hhead : valueLength path.length = [0x7f] := by
      rw [hlast]
      rfl
    rw [hhead] at hone hdata
    simp only [cons_append, nil_append] at hone hdata
    rw [vd_more _ (by decide)] at hone
    cases hmore : vdMore ((path ++ rest).take 9) (2 ^ 7 - 1) 0 1 with
    | none =>
      rw [hmore] at hone
      cases hone
    | some r =>
      obtain ⟨vlen, v2⟩ := r
      have hgrow : 127 < vlen := by
        refine vdMore_lt _ _ _ _ vlen v2 (fun h0 => hnz ?_) hmore
        rw [take_append_of_le_length (by omega)] at h0
        exact mem_of_mem_take h0
      rw [hmore] at hone
      dsimp only at hone
      split at hone
      · cases hone
      · rename_i hroom
        have hbit : ((0x7f : Byte) :: (path ++ rest)).getD 0 0 = 0x7f := rfl
        rw [hbit, readValue_eq] at hone
        have hplain : (0x7f : Byte).getLsbD 7 = false := by decide
        simp only [hplain, Bool.false_eq_true, if_false, Prod.mk.injEq, Option.some.injEq] at hone
        obtain ⟨⟨-, rfl⟩, -⟩ := hone
        intro heq
        have hlength := congrArg List.length heq
        unfold QpackPtr.bytes at hlength
        dsimp only at hlength
        rw [drop_value hdata, length_take, length_drop] at hlength
        omega
  · have hhead : valueLength path.length =
        (BitVec.ofNat 8 (path.length % 128) ||| 0x80) :: continueNumber path.length (path.length / 128) := if_neg (by omega)
    have hall : ∀ n < 64, (BitVec.ofNat 8 n ||| 0x80 : Byte).toNat % 2 ^ 7 = n ∧
        (BitVec.ofNat 8 n ||| 0x80 : Byte).getLsbD 7 = true := by decide +kernel
    obtain ⟨hmod, hbit⟩ := hall (path.length % 128) (by omega)
    rw [hhead] at hone hdata
    simp only [cons_append] at hone hdata
    rw [vd_small _ hmod (by omega)] at hone
    dsimp only at hone
    split at hone
    · cases hone
    · rw [getD_cons_zero, hbit, readValue_eq] at hone
      simp only [if_true, Prod.mk.injEq, Option.some.injEq] at hone
      obtain ⟨⟨-, rfl⟩, -⟩ := hone
      dsimp only
      intro heq
      have hlength := congrArg List.length heq
      have hshort := huffValue_short data (.litValue st.litSlot) (((nameLength name.length ++ (name ++
        (BitVec.ofNat 8 (path.length % 128) ||| 0x80) :: (continueNumber path.length (path.length / 128) ++ (path ++ rest)))).drop
          ((nameLength name.length).length + name.length + 1)).take (path.length % 128))
      rw [hlength] at hshort
      have htake := length_take_le (path.length % 128) ((nameLength name.length ++ (name ++
        (BitVec.ofNat 8 (path.length % 128) ||| 0x80) :: (continueNumber path.length (path.length / 128) ++ (path ++ rest)))).drop
          ((nameLength name.length).length + name.length + 1))
      omega

theorem parseFields_long {data name path rest : List Byte}
    (hdata : data.drop off = qpackWriteLiteralI name path ++ rest) (hn : name.length < 135) (hlow : 127 ≤ path.length)
    (hhigh : path.length ≤ 191) (hnz : 0 ∉ path) (n : Nat) (st : QpackStatics) (last : List (List Byte × List Byte)) :
    (parseFields data n off st).1.map (QpackHeaderField.pair data) ≠ (name, path) :: last := by
  intro h
  cases n with
  | zero => cases h
  | succ n =>
    rw [parseFields] at h
    split at h
    · cases h
    · cases hone : parseOne (data.drop off) off st with
      | mk r st' =>
        rw [hone] at h
        cases r with
        | none => cases h
        | some r =>
          obtain ⟨c, f⟩ := r
          dsimp only at h
          split at h
          · rw [map_cons, List.cons.injEq] at h
            exact parseOne_long hdata hn hlow hhigh hnz hone (congrArg Prod.snd h.1)
          · cases h

/-! ## A value under a static name -/

theorem staticPtr_bytes (data name : List Byte) : (staticPtr (some name)).1.bytes data (staticPtr (some name)).2 = name :=
  take_length

theorem parseOne_ref {data val rest name : List Byte} {more : Byte} (hdata : data.drop off = 0x5f :: more :: BitVec.ofNat 8
    val.length :: (val ++ rest)) (hmore : more.toNat < 128) (hname : qpackStaticName (15 + more.toNat) = some name) (hv :
    val.length < 127) (st : QpackStatics) : ∃ f : QpackHeaderField, f.pair data = (name, val) ∧ parseOne (data.drop off) off st =
    (some (((3 + val.length : Nat) : Int), f), st) := by
  have hbyte : (BitVec.ofNat 8 val.length : Byte).toNat = val.length := by
    rw [BitVec.toNat_ofNat]
    omega
  have hbit : ∀ n < 127, (BitVec.ofNat 8 n : Byte).getLsbD 7 = false := by decide +kernel
  have hwhole := congrArg List.length hdata
  simp only [length_drop, length_append, length_cons] at hwhole
  have hvd : vd (0x5f :: more :: BitVec.ofNat 8 val.length :: (val ++ rest)) 4 = some (15 + more.toNat, 2) := by
    have hnext := vd_next (b := 0x5f) 4 more.toNat (BitVec.ofNat 8 val.length :: (val ++ rest)) (by decide) hmore
    rwa [BitVec.ofNat_toNat, BitVec.setWidth_eq] at hnext
  have hvd2 : vd (BitVec.ofNat 8 val.length :: (val ++ rest)) 7 = some (val.length, 1) :=
    vd_small _ (by rw [hbyte]; exact Nat.mod_eq_of_lt (by omega)) (by omega)
  have hvalue : (QpackPtr.input (off + 3)).bytes data val.length = val := by
    unfold QpackPtr.bytes
    dsimp only
    rw [← drop_drop, hdata, drop_succ_cons, drop_succ_cons, drop_succ_cons, drop_zero, take_left]
  have hparse : parseOne (data.drop off) off st = parseNameRef (data.drop off) off st 0x5f := by
    rw [hdata]
    rfl
  rw [hparse, hdata]
  unfold parseNameRef
  rw [hvd]
  dsimp only
  rw [if_neg (by simp), drop_succ_cons, drop_succ_cons, drop_zero, hvd2]
  dsimp only
  rw [if_neg (by simp only [length_cons, length_append]; omega), getD_cons_succ, getD_cons_succ,
    getD_cons_zero, hbit _ hv, readValue_eq, hname]
  have hret : ((2 : Nat) : Int) + (1 : Nat) + toInt32 val.length = ((3 + val.length : Nat) : Int) := by
    rw [toInt32_of_le (by unfold INT_MAX; omega)]
    omega
  simp only [Bool.false_eq_true, if_false]
  rw [hret]
  refine ⟨_, ?_, rfl⟩
  exact Prod.ext (staticPtr_bytes data name) hvalue

/-! ## The blocks -/

theorem fieldsStart_zero : fieldsStart (0 :: 0 :: rest) = some 2 := by
  unfold fieldsStart
  rw [if_neg (by simp)]
  rfl

theorem qpackDecode_zero (n : Nat) (st : QpackStatics) : qpackDecode (0 :: 0 :: rest) n st = ⟨(parseFields (0 :: 0 :: rest) n 2
    st).1.length, (parseFields (0 :: 0 :: rest) n 2 st).1, (parseFields (0 :: 0 :: rest) n 2 st).2⟩ := by
  unfold qpackDecode
  rw [fieldsStart_zero]

variable {st : QpackStatics}

theorem HeaderBlock.readBack_iff {beyond : Nat → Byte} {b : HeaderBlock} {rest : List Byte} (h : b.written beyond =
    some (0 :: 0 :: rest)) : b.ReadBack beyond st ↔ (parseFields (0 :: 0 :: rest) QPACK_MAX_FIELDS 2 st).1.map
    (QpackHeaderField.pair (0 :: 0 :: rest)) = b.pairs := by
  unfold ReadBack
  constructor
  · rintro ⟨data, hdata, -, hpairs⟩
    rw [h, Option.some.injEq] at hdata
    subst hdata
    rwa [qpackDecode_zero] at hpairs
  · intro hpairs
    refine ⟨_, h, ?_, ?_⟩
    · rw [qpackDecode_zero, ← hpairs, length_map]
    · rw [qpackDecode_zero]
      exact hpairs

theorem qpackWriteLiteralI_length {name val : List Byte} (hn : name.length < 135) (hv : val.length < 16384) :
    (qpackWriteLiteralI name val).length ≤ name.length + val.length + 4 := by
  have h1 : (nameLength name.length).length ≤ 2 := by
    unfold nameLength
    split
    · simp
    · obtain ⟨k, hk⟩ : ∃ k, name.length = k + 1 := ⟨name.length - 1, by omega⟩
      rw [hk, continueNumber, if_pos (by omega)]
      simp
  have h2 : (valueLength val.length).length ≤ 2 := by
    unfold valueLength
    split
    · simp
    · obtain ⟨k, hk⟩ : ∃ k, val.length = k + 1 := ⟨val.length - 1, by omega⟩
      rw [hk, continueNumber, if_pos (by omega)]
      simp
  unfold qpackWriteLiteralI
  simp only [length_append]
  omega

theorem literals_length : ∀ ps : List (List Byte × List Byte), (∀ p ∈ ps, p.1.length < 135 ∧ p.2.length < 16384) →
    (ps.flatMap fun p => qpackWriteLiteralI p.1 p.2).length ≤ (ps.map fun p => p.1.length + p.2.length + 4).sum
  | [], _ => Nat.le_refl _
  | p :: ps, h => by
    obtain ⟨hn, hv⟩ := h p mem_cons_self
    have hone := qpackWriteLiteralI_length hn hv
    have hrest := literals_length ps fun q hq => h q (mem_cons_of_mem _ hq)
    rw [flatMap_cons, length_append, map_cons, sum_cons]
    omega

variable {path authority : List Byte}

theorem connectFields_lengths {k : Nat} (hk : 14 < k) (hpath : path.length < k)
    (hauth : authority.length < k) : ∀ p ∈ connectFields path authority, p.1.length < 135 ∧ p.2.length < k := by
  have hnames : (h3Text ":path").length < 135 ∧ (h3Text ":authority").length < 135 := by decide
  have hdefaults : (h3Text "/").length ≤ 14 ∧ (h3Text "127.0.0.1:4433").length ≤ 14 := by decide
  have hfixed : ∀ p ∈ connectFields [] [], p.1.length < 135 ∧ p.2.length ≤ 14 := by decide
  intro p hmem
  simp only [connectFields, mem_cons, not_mem_nil, or_false] at hmem hfixed
  rcases hmem with rfl | rfl | rfl | rfl | rfl | rfl
  · exact (hfixed _ (.inl rfl)).imp_right fun h => by omega
  · exact (hfixed _ (.inr (.inl rfl))).imp_right fun h => by omega
  · exact (hfixed _ (.inr (.inr (.inl rfl)))).imp_right fun h => by omega
  · refine ⟨hnames.1, ?_⟩
    dsimp only
    split <;> omega
  · refine ⟨hnames.2, ?_⟩
    dsimp only
    split <;> omega
  · exact (hfixed _ (.inr (.inr (.inr (.inr (.inr rfl)))))).imp_right fun h => by omega

theorem sendWtConnectInternal_some (hpath : path.length ≤ 191) (hauth : authority.length ≤ 95) :
    sendWtConnectInternal path authority =
        some (0 :: 0 :: (connectFields path authority).flatMap fun p => qpackWriteLiteralI p.1 p.2) ∧
      (0 :: 0 :: (connectFields path authority).flatMap fun p => qpackWriteLiteralI p.1 p.2).length < 2 ^ 31 := by
  have hp : (if path = [] then h3Text "/" else path).length ≤ 191 := by
    split
    · decide
    · exact hpath
  have ha : (if authority = [] then h3Text "127.0.0.1:4433" else authority).length ≤ 95 := by
    split
    · decide
    · exact hauth
  have hsum := literals_length (connectFields path authority) (connectFields_lengths (by decide) (by omega) (by omega))
  have htexts : (h3Text ":method").length = 7 ∧ (h3Text ":protocol").length = 9 ∧ (h3Text ":scheme").length = 7 ∧
      (h3Text ":path").length = 5 ∧ (h3Text ":authority").length = 10 ∧
      (h3Text "sec-webtransport-http3-draft-02").length = 31 ∧ (h3Text "CONNECT").length = 7 ∧
      (h3Text "webtransport").length = 12 ∧ (h3Text "https").length = 5 ∧ (h3Text "1").length = 1 := by decide
  obtain ⟨t1, t2, t3, t4, t5, t6, v1, v2, v3, v4⟩ := htexts
  have htotal : ((connectFields path authority).map fun p => p.1.length + p.2.length + 4).sum ≤ 410 := by
    simp only [connectFields, map_cons, map_nil, sum_cons, sum_nil, t1, t2, t3, t4, t5, t6, v1, v2, v3, v4]
    omega
  have hlen : (0 :: 0 :: (connectFields path authority).flatMap fun p => qpackWriteLiteralI p.1 p.2).length ≤ 412 := by
    rw [length_cons, length_cons]
    omega
  unfold sendWtConnectInternal
  dsimp only
  rw [if_neg (by omega)]
  exact ⟨rfl, by omega⟩

theorem connectFields_split {path : List Byte} (authority : List Byte) (hne : path ≠ []) :
    ∃ last : List (List Byte × List Byte), connectFields path authority =
      [(h3Text ":method", h3Text "CONNECT"), (h3Text ":protocol", h3Text "webtransport"), (h3Text ":scheme", h3Text "https")] ++
        (h3Text ":path", path) :: last := by
  unfold connectFields
  rw [if_neg hne]
  exact ⟨_, rfl⟩

theorem connect_readBack_iff {beyond : Nat → Byte} (h : (HeaderBlock.connect path authority).Admitted) :
    (HeaderBlock.connect path authority).ReadBack beyond st ↔ path.length ≤ 126 := by
  obtain ⟨hpath, hauth, hnz, -⟩ := h
  obtain ⟨hwritten, hlen⟩ := sendWtConnectInternal_some hpath hauth
  have hblock : (HeaderBlock.connect path authority).written beyond =
    some (0 :: 0 :: (connectFields path authority).flatMap fun p => qpackWriteLiteralI p.1 p.2) := hwritten
  rw [HeaderBlock.readBack_iff hblock]
  constructor
  · intro hpairs
    by_contra hlong
    have hne : path ≠ [] := by
      rintro rfl
      simp at hlong
    obtain ⟨last, hsplit⟩ := connectFields_split authority hne
    obtain ⟨pos', st', hrest, hrun⟩ := parseFields_literals hlen
      [(h3Text ":method", h3Text "CONNECT"), (h3Text ":protocol", h3Text "webtransport"), (h3Text ":scheme", h3Text "https")]
      13 2 st (((h3Text ":path", path) :: last).flatMap fun p => qpackWriteLiteralI p.1 p.2)
      (by rw [← flatMap_append, ← hsplit]; rfl) (by decide)
    rw [flatMap_cons] at hrest
    dsimp only at hrest
    have hname : (h3Text ":path").length < 135 := by decide
    have hboth := (hrun.symm.trans hpairs).trans hsplit
    exact parseFields_long hrest hname (by omega) hpath hnz _ _ last (append_cancel_left hboth)
  · intro hshort
    obtain ⟨pos', st', hend, hrun⟩ := parseFields_literals hlen (connectFields path authority) 10 2 st []
      (by rw [append_nil]; rfl) (connectFields_lengths (by decide) (by omega) (by omega))
    rw [parseFields_end hend, map_nil, append_nil] at hrun
    exact hrun

theorem decimal_length (status : BitVec 32) : (decimal status).length ≤ 11 := by
  have hlow := status.toInt_lt
  have hhigh := status.le_toInt
  have hdigits : (Nat.digits 10 status.toInt.natAbs).length ≤ 10 := by
    rw [Nat.digits_length_le_iff (by decide)]
    omega
  unfold decimal
  rw [length_append]
  have hsign : (if status.toInt < 0 then [(0x2d : Byte)] else []).length ≤ 1 := by
    split <;> simp
  have hrest : (if status = 0 then [(0x30 : Byte)] else
      (Nat.digits 10 status.toInt.natAbs).reverse.map fun d => BitVec.ofNat 8 (0x30 + d)).length ≤ 10 := by
    split
    · simp
    · rw [length_map, length_reverse]
      exact hdigits
  omega

theorem decimal_printed (status : BitVec 32) : 0 ∉ decimal status := by
  have hdigit : ∀ d < 10, (BitVec.ofNat 8 (0x30 + d) : Byte) ≠ 0 := by decide
  unfold decimal
  intro h
  rcases List.mem_append.1 h with h | h
  · split at h <;> simp at h
  · split at h
    · simp at h
    · obtain ⟨d, hd, h0⟩ := List.mem_map.1 h
      exact hdigit d (Nat.digits_lt_base (by decide) (List.mem_reverse.1 hd)) h0

variable (beyond : Nat → Byte)

theorem statusBytes_eq_iff (status : BitVec 32) : statusBytes beyond status = decimal status ↔ (decimal status).length ≤ 7 := by
  constructor
  · intro h
    by_contra hlong
    have hcell : (statusBytes beyond status)[7]? = some 0 := by
      unfold statusBytes
      rw [List.getElem?_map, List.getElem?_range (by omega)]
      rfl
    rw [h] at hcell
    exact decimal_printed status (mem_of_getElem? hcell)
  · intro hshort
    apply ext_getElem?
    intro i
    unfold statusBytes
    rw [List.getElem?_map]
    rcases Nat.lt_or_ge i (decimal status).length with hi | hi
    · rw [List.getElem?_range hi, Option.map_some, if_pos (by omega), List.getElem?_eq_getElem hi, getD_eq_getElem?_getD,
        List.getElem?_eq_getElem hi, Option.getD_some]
    · rw [List.getElem?_eq_none hi, List.getElem?_eq_none (by simpa using hi), Option.map_none]

theorem statusBytes_length (status : BitVec 32) : (statusBytes beyond status).length = (decimal status).length := by
  unfold statusBytes
  rw [length_map, length_range]

theorem statusBlock_read {more : Byte} {name : List Byte} (hmore : more.toNat < 128) (hname : qpackStaticName (15 + more.toNat) =
    some name) (beyond : Nat → Byte) (status : BitVec 32) (st : QpackStatics) : (parseFields (statusBlock beyond more status)
    QPACK_MAX_FIELDS 2 st).1.map (QpackHeaderField.pair (statusBlock beyond more status)) = [(name, statusBytes beyond
    status)] := by
  have hlen := decimal_length status
  have hsame := statusBytes_length beyond status
  have hone : varintBytes (decimal status).length = [BitVec.ofNat 8 (statusBytes beyond status).length] := by
    have hsmall : quicVarintLen (decimal status).length = 1 := if_pos (by omega)
    rw [hsame, varintBytes, hsmall]
    simp [beBytes]
  have hdata : (statusBlock beyond more status).drop 2 =
      0x5f :: more :: BitVec.ofNat 8 (statusBytes beyond status).length :: (statusBytes beyond status ++ []) := by
    unfold statusBlock
    rw [hone, append_nil]
    rfl
  obtain ⟨f, hf, hread⟩ := parseOne_ref hdata hmore hname (by omega) st
  have hwhole := congrArg List.length hdata
  simp only [length_drop, length_cons, append_nil] at hwhole
  have hend : (statusBlock beyond more status).drop (2 + (3 + (statusBytes beyond status).length)) = [] :=
    List.drop_eq_nil_iff.2 (by omega)
  rw [QPACK_MAX_FIELDS, parseFields, if_neg (by omega), hread]
  dsimp only
  rw [if_pos (by omega), Int.toNat_natCast, parseFields_end hend, map_cons, map_nil, hf]

theorem response_lost (status : BitVec 32) (st : QpackStatics) : ¬(HeaderBlock.response status).ReadBack beyond st := by
  intro h
  have hblock : (HeaderBlock.response status).written beyond = some (statusBlock beyond 0x09 status) := rfl
  have hname : qpackStaticName (15 + (0x09 : Byte).toNat) = some (h3Text ":method") := by decide
  have hpairs := (HeaderBlock.readBack_iff hblock).1 h
  have hread := statusBlock_read (by decide) hname beyond status st
  have hother : h3Text ":method" ≠ h3Text ":status" := by decide
  unfold statusBlock at hread
  rw [hread, HeaderBlock.pairs, List.cons.injEq, Prod.mk.injEq] at hpairs
  exact hother hpairs.1.1

theorem qpackHeaders_readBack_iff {beyond : Nat → Byte} {status : BitVec 32} :
    (HeaderBlock.qpackHeaders status).ReadBack beyond st ↔ (decimal status).length ≤ 7 := by
  have hblock : (HeaderBlock.qpackHeaders status).written beyond = some (statusBlock beyond 0x0b status) := rfl
  have hname : qpackStaticName (15 + (0x0b : Byte).toNat) = some (h3Text ":status") := by decide
  have hread := statusBlock_read (by decide) hname beyond status st
  unfold statusBlock at hread
  rw [HeaderBlock.readBack_iff hblock, hread, HeaderBlock.pairs, List.cons.injEq, Prod.mk.injEq]
  constructor
  · rintro ⟨⟨-, htext⟩, -⟩
    exact (statusBytes_eq_iff beyond status).1 htext
  · intro hshort
    exact ⟨⟨rfl, (statusBytes_eq_iff beyond status).2 hshort⟩, rfl⟩

theorem wtResponse_readBack (st : QpackStatics) : HeaderBlock.wtResponse.ReadBack beyond st := by
  have hblock : HeaderBlock.wtResponse.written beyond = some sendWtConnectResponse := rfl
  have hname : qpackStaticName (15 + (0x0b : Byte).toNat) = some (h3Text ":status") := by decide
  have hlen : sendWtConnectResponse.length < 2 ^ 31 := by decide
  have hdata : sendWtConnectResponse.drop 2 = 0x5f :: 0x0b :: BitVec.ofNat 8 (h3Text "200").length :: (h3Text "200" ++
      qpackWriteLiteralI (h3Text "sec-webtransport-http3-draft-02") (h3Text "1")) := rfl
  obtain ⟨f, hf, hread⟩ := parseOne_ref hdata (by decide) hname (by decide) st
  obtain ⟨pos', st', hend, hrun⟩ := parseFields_literals hlen [(h3Text "sec-webtransport-http3-draft-02", h3Text "1")] 14 8
    st [] rfl (by decide)
  rw [parseFields_end hend, map_nil, append_nil] at hrun
  apply (HeaderBlock.readBack_iff hblock).2
  have hmore : ¬sendWtConnectResponse.length ≤ 2 := by decide
  have hfields : parseFields sendWtConnectResponse QPACK_MAX_FIELDS 2 st =
      (f :: (parseFields sendWtConnectResponse 15 8 st).1, (parseFields sendWtConnectResponse 15 8 st).2) := by
    rw [QPACK_MAX_FIELDS, parseFields, if_neg hmore, hread]
    rfl
  unfold sendWtConnectResponse at hfields hrun hf
  rw [hfields, map_cons, hf]
  exact congrArg _ hrun

/-- **What is written here is read back here exactly when it is short**: a CONNECT when its path has less than 127 bytes, a status
of `sendQpackHeaders` when its text fits the buffer, a status of `http3SendResponse` never, the answer to a CONNECT always. -/
theorem qpack_readBack_iff (b : HeaderBlock) (h : b.Admitted) (beyond : Nat → Byte) (st : QpackStatics) :
    b.ReadBack beyond st ↔ b.Short := by
  cases b with
  | connect path authority => exact connect_readBack_iff h
  | response status => exact iff_of_false (response_lost beyond status st) id
  | qpackHeaders status => exact qpackHeaders_readBack_iff
  | wtResponse => exact iff_of_true (wtResponse_readBack beyond st) trivial

/-- A CONNECT for `/moq`. -/
theorem qpack_readBack_sample :
    (HeaderBlock.connect (h3Text "/moq") (h3Text "localhost")).ReadBack (fun _ => 0) {} ↔ (h3Text "/moq").length ≤ 126 :=
  qpack_readBack_iff (.connect (h3Text "/moq") (h3Text "localhost")) ⟨by decide, by decide, by decide, by decide⟩
    (fun _ => 0) {}

/-- **A status 200 of `http3SendResponse` is not read back.** -/
theorem qpack_status_lost : ¬∀ b : HeaderBlock, b.Admitted → ∀ (beyond : Nat → Byte) (st : QpackStatics), b.ReadBack beyond st :=
  fun h => response_lost (fun _ => 0) 200 {} (h (.response 200) trivial (fun _ => 0) {})

end MoqLiveCast
