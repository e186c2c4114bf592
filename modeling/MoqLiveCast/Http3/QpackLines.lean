import MoqLiveCast.Http3.Qpack
/-!
# QpackLines — what one field line does

`fieldLine` reads a line by its grammar: which Huffman-coded strings are decoded for it, and how long it is when it is
whole.
-/
namespace MoqLiveCast

open List

/-- A string: a length of `bits` bits or more, behind the bit that says whether it is Huffman-coded, and what follows it. -/
def qString (bits : Nat) (data : List Byte) : Option (Bool × List Byte × List Byte) :=
  (vd data bits).bind fun (n, v) =>
    if data.length < v + n then none else some ((data.getD 0 0).getLsbD bits, (data.drop v).take n, data.drop (v + n))

/-- The strings that are decoded for a line, whether it takes a buffer for a name, and its length when it is whole. -/
structure FieldLine where
  named : Bool := false
  huffName : Option (List Byte) := none
  huffRef : Option (List Byte) := none
  huffLit : Option (List Byte) := none
  size : Option Nat := none
deriving DecidableEq

/-- Indexed, `1 T Index(6+)`; literal with a static name reference, `01 N 1 NameIndex(4+)` and a value; or literal with a literal
name, `001 N H NameLength(3+)`, and a value. -/
def fieldLine (data : List Byte) : FieldLine :=
  let b := data.getD 0 0
  if data = [] then {}
  else if 128 ≤ b.toNat then { size := (vd data 6).map Prod.snd }
  else if 64 ≤ b.toNat then
    match (vd data 4).bind fun (_, v) => if b.getLsbD 4 then qString 7 (data.drop v) else none with
    | none => {}
    | some (h, src, rest) => { huffRef := if h then some src else none, size := some (data.length - rest.length) }
  else if 32 ≤ b.toNat then
    match qString 3 data with
    | none => {}
    | some (hn, name, rest) =>
      let huffName := if hn then some name else none
      match qString 7 rest with
      | none => { named := true, huffName }
      | some (h, src, left) =>
        { named := true, huffName, huffLit := if h then some src else none, size := some (data.length - left.length) }
  else {}

def nameWrites (buf : QpackBuf) (src : List Byte) : List QpackWrite :=
  (huffStr buf 255 src).2 ++ [⟨buf, (huffStr buf 255 src).1, 0⟩]

def valueWrites (buf : QpackBuf) (src : List Byte) : List QpackWrite := (huffStr buf 4095 src).2

def QpackStatics.written (st : QpackStatics) (l : FieldLine) : List QpackWrite :=
  l.huffName.elim [] (nameWrites (.nameRing st.ns)) ++ l.huffRef.elim [] (valueWrites (.refValue st.refSlot)) ++
    l.huffLit.elim [] (valueWrites (.litValue st.litSlot))

def QpackStatics.behind (st : QpackStatics) (l : FieldLine) : QpackStatics where
  ns := if l.named then (st.ns + 1) % 8 else st.ns
  refSlot := if l.huffRef.isSome then (st.refSlot + 1) % 16 else st.refSlot
  litSlot := if l.huffLit.isSome then (st.litSlot + 1) % 16 else st.litSlot
  writes := st.writes ++ st.written l

def huffValue (buf : QpackBuf) (src : List Byte) : QpackPtr × Nat :=
  if 0 < (huffStr buf 4095 src).1 then (.decoded buf (huffmanDecodeStr src).1, sizeOf32 (huffStr buf 4095 src).1) else (.null, 0)

/-- **A pointer that lies where it may**: in a block of `n` bytes, in the static table, or in a buffer that holds what was
decoded. -/
def QpackPtr.Lies (n : Nat) (held : QpackBuf → List Byte → Prop) (p : QpackPtr) (len : Nat) : Prop :=
  match p with
  | .null => len = 0
  | .input off => off + len ≤ n
  | .staticText text => len = text.length
  | .decoded buf own => len = own.length ∧ held buf own

/-! ## Numbers and strings -/

theorem vdMore_length : ∀ (l : List Byte) (val m pos n v : Nat), vdMore l val m pos = some (n, v) → pos < v ∧ v ≤ pos + l.length
  | [], _, _, _, _, _, h => nomatch h
  | b :: l, val, m, pos, n, v, h => by
    unfold vdMore at h
    dsimp only at h
    split at h
    · cases h
      rw [length_cons]
      omega
    · have := vdMore_length l _ _ _ n v h
      rw [length_cons]
      omega

theorem vd_length {data : List Byte} {bits n v : Nat} (h : vd data bits = some (n, v)) : 0 < v ∧ v ≤ data.length := by
  cases data with
  | nil => cases h
  | cons b rest =>
    unfold vd at h
    dsimp only at h
    rw [length_cons]
    split at h
    · cases h
      omega
    · have := vdMore_length _ _ _ _ _ _ h
      rw [length_take] at this
      omega

theorem qString_length {bits : Nat} {data src rest : List Byte} {h : Bool} (hq : qString bits data = some (h, src, rest)) :
    rest.length < data.length := by
  unfold qString at hq
  obtain ⟨⟨n, v⟩, hvd, hrest⟩ := Option.bind_eq_some_iff.1 hq
  obtain ⟨hpos, -⟩ := vd_length hvd
  dsimp only at hrest
  split at hrest
  · cases hrest
  · cases hrest
    rw [length_drop]
    omega

theorem fieldLine_size {data : List Byte} {n : Nat} (h : (fieldLine data).size = some n) : 0 < n ∧ n ≤ data.length := by
  unfold fieldLine at h
  dsimp only at h
  split at h
  · cases h
  rename_i hne
  have hpos := List.length_pos_iff.2 hne
  split at h
  · obtain ⟨⟨idx, v⟩, hvd, rfl⟩ := Option.map_eq_some_iff.1 h
    exact vd_length hvd
  split at h
  · split at h
    · cases h
    · rename_i hq
      obtain ⟨⟨idx, v⟩, -, hq⟩ := Option.bind_eq_some_iff.1 hq
      dsimp only at hq
      split at hq
      · have := qString_length hq
        rw [length_drop] at this
        cases h
        omega
      · cases hq
  split at h
  · split at h
    · cases h
    · rename_i hname
      have h1 := qString_length hname
      split at h
      · cases h
      · rename_i hvalue
        have h2 := qString_length hvalue
        cases h
        omega
  · cases h

/-! ## One line -/

/-- The field of a line: strings that were decoded are in the next buffers, the others where they were. -/
structure FieldAt (n : Nat) (st : QpackStatics) (l : FieldLine) (f : QpackHeaderField) : Prop where
  name : ∀ src, l.huffName = some src → f.name = .decoded (.nameRing st.ns) (huffmanDecodeStr src).1 ∧
    f.nameLen = sizeOf32 (huffStr (.nameRing st.ns) 255 src).1
  ref : ∀ src, l.huffRef = some src → (f.value, f.valueLen) = huffValue (.refValue st.refSlot) src
  lit : ∀ src, l.huffLit = some src → (f.value, f.valueLen) = huffValue (.litValue st.litSlot) src
  plainName : l.huffName = none → ∀ held, f.name.Lies n held f.nameLen
  plainValue : l.huffRef = none → l.huffLit = none → ∀ held, f.value.Lies n held f.valueLen

theorem staticPtr_lies (text : Option (List Byte)) (n : Nat) (held : QpackBuf → List Byte → Prop) :
    (staticPtr text).1.Lies n held (staticPtr text).2 := by
  cases text <;> rfl

theorem readValue_eq (data : List Byte) (off : Nat) (buf : QpackBuf) (h : Bool) (p vlen : Nat) : readValue data off buf h p vlen =
      if h then (huffValue buf ((data.drop p).take vlen), valueWrites buf ((data.drop p).take vlen))
      else ((.input (off + p), vlen), []) := rfl

theorem getD_drop (data : List Byte) (v : Nat) : (data.drop v).getD 0 0 = data.getD v 0 := by
  simp [getD_eq_getElem?_getD]

theorem qString_drop {bits v n v2 : Nat} {data : List Byte} (hvd : vd (data.drop v) bits = some (n, v2))
    (hv : v ≤ data.length) : qString bits (data.drop v) = if data.length < v + v2 + n then none
      else some ((data.getD v 0).getLsbD bits, (data.drop (v + v2)).take n, data.drop (v + v2 + n)) := by
  have hlen : (data.drop v).length < v2 + n ↔ data.length < v + v2 + n := by
    rw [length_drop]
    omega
  unfold qString
  rw [hvd, Option.bind_some]
  simp only [hlen, getD_drop, drop_drop, Nat.add_assoc]

theorem qString_none {bits v : Nat} {data : List Byte} (hvd : vd (data.drop v) bits = none) :
    qString bits (data.drop v) = none := by
  unfold qString
  rw [hvd, Option.bind_none]

variable {data : List Byte} {off : Nat} {st : QpackStatics}

/-- What `parseOne` makes of a line: its length and its field, or nothing, and the buffers behind it. -/
structure Parsed (data : List Byte) (off : Nat) (st : QpackStatics) (r : Option (Int × QpackHeaderField) × QpackStatics)
    (l : FieldLine) : Prop where
  behind : r.2 = st.behind l
  none : l.size = none → r.1 = none
  some : ∀ n, l.size = some n → ∃ f, r.1 = some ((n : Int), f) ∧ FieldAt (off + data.length) st l f

theorem behind_nothing (st : QpackStatics) (size : Option Nat) : st.behind { size } = st := by
  simp [QpackStatics.behind, QpackStatics.written]

theorem parsed_nothing : Parsed data off st (none, st) {} where
  behind := (behind_nothing st none).symm
  none _ := rfl
  some _ h := nomatch h

theorem parseIndexed_spec (b : Byte) : Parsed data off st (parseIndexed data st b) { size := (vd data 6).map Prod.snd } := by
  unfold parseIndexed
  cases hvd : vd data 6 with
  | none => exact parsed_nothing
  | some r =>
    obtain ⟨idx, v⟩ := r
    dsimp only
    have hfield : ∀ f : QpackHeaderField, (∀ held, f.name.Lies (off + data.length) held f.nameLen) →
        (∀ held, f.value.Lies (off + data.length) held f.valueLen) →
        FieldAt (off + data.length) st { size := some v } f := fun f hn hv =>
      ⟨nofun, nofun, nofun, fun _ => hn, fun _ _ => hv⟩
    have hbehind := (behind_nothing st (some v)).symm
    split
    · refine ⟨hbehind, nofun, fun n hn => ?_⟩
      cases hn
      exact ⟨_, rfl, hfield _ (staticPtr_lies _ _) (staticPtr_lies _ _)⟩
    · refine ⟨hbehind, nofun, fun n hn => ?_⟩
      cases hn
      exact ⟨_, rfl, hfield _ (fun _ => rfl) (fun _ => rfl)⟩

theorem parseNameRef_spec (hlen : data.length < 2 ^ 31) (b : Byte) : Parsed data off st (parseNameRef data off st b)
    (match (vd data 4).bind fun (_, v) => if b.getLsbD 4 then qString 7 (data.drop v) else none with
    | none => {}
    | some (h, src, rest) =>
      { huffRef := if h then some src else none, size := some (data.length - rest.length) }) := by
  unfold parseNameRef
  cases hvd : vd data 4 with
  | none => exact parsed_nothing
  | some r =>
    obtain ⟨idx, v⟩ := r
    obtain ⟨-, hv⟩ := vd_length hvd
    rw [Option.bind_some]
    dsimp only
    by_cases hstatic : b.getLsbD 4 = true
    swap
    · rw [if_pos (.inl hstatic), if_neg hstatic]
      exact parsed_nothing
    rw [if_pos hstatic]
    by_cases hend : data.length ≤ v
    · rw [if_pos (.inr hend), drop_of_length_le hend]
      exact parsed_nothing
    rw [if_neg (by simp [hstatic, hend])]
    cases hvd2 : vd (data.drop v) 7 with
    | none =>
      rw [qString_none hvd2]
      exact parsed_nothing
    | some r =>
      obtain ⟨vlen, v2⟩ := r
      rw [qString_drop hvd2 hv]
      dsimp only
      by_cases hlong : data.length < v + v2 + vlen
      · rw [if_pos hlong, if_pos hlong]
        exact parsed_nothing
      rw [if_neg hlong, if_neg hlong, readValue_eq]
      have hsize : data.length - (data.drop (v + v2 + vlen)).length = v + v2 + vlen := by
        rw [length_drop]
        omega
      have hret : (v : Int) + v2 + toInt32 vlen = ((v + v2 + vlen : Nat) : Int) := by
        rw [toInt32_of_le (by unfold INT_MAX; omega)]
        simp
      dsimp only
      rw [hsize, hret]
      cases hh : (data.getD v 0).getLsbD 7 with
      | true =>
        refine ⟨?_, nofun, fun n hn => ?_⟩
        · simp [QpackStatics.behind, QpackStatics.written]
        · cases hn
          refine ⟨_, rfl, nofun, fun src hsrc => ?_, nofun, fun _ => staticPtr_lies _ _, nofun⟩
          simp only [if_true, Option.some.injEq] at hsrc
          subst hsrc
          rfl
      | false =>
        refine ⟨?_, nofun, fun n hn => ?_⟩
        · simp [QpackStatics.behind, QpackStatics.written]
        · cases hn
          refine ⟨_, rfl, nofun, nofun, nofun, fun _ => staticPtr_lies _ _, fun _ _ held => ?_⟩
          simp only [QpackPtr.Lies, Bool.false_eq_true, if_false]
          omega

theorem parseLiteralName_spec (hlen : data.length < 2 ^ 31) (b : Byte) (hb : data.getD 0 0 = b) :
    Parsed data off st (parseLiteralName data off st b)
      (match qString 3 data with
      | none => {}
      | some (hn, name, rest) =>
        let huffName := if hn then some name else none
        match qString 7 rest with
        | none => { named := true, huffName }
        | some (h, src, left) =>
          { named := true, huffName, huffLit := if h then some src else none, size := some (data.length - left.length) }) := by
  unfold parseLiteralName
  cases hvd : vd data 3 with
  | none =>
    have hq : qString 3 data = none := by
      unfold qString
      rw [hvd, Option.bind_none]
    rw [hq]
    exact parsed_nothing
  | some r =>
    obtain ⟨nlen, v⟩ := r
    have hq : qString 3 data = if data.length < v + nlen then none
        else some (b.getLsbD 3, (data.drop v).take nlen, data.drop (v + nlen)) := by
      unfold qString
      rw [hvd, hb, Option.bind_some]
    rw [hq]
    dsimp only
    by_cases hlong : data.length < v + nlen
    · rw [if_pos hlong, if_pos hlong]
      exact parsed_nothing
    rw [if_neg hlong, if_neg hlong]
    dsimp only
    have hname : readName data off (.nameRing st.ns) (b.getLsbD 3) v nlen = if b.getLsbD 3 then
        ((.decoded (.nameRing st.ns) (huffmanDecodeStr ((data.drop v).take nlen)).1,
          (huffStr (.nameRing st.ns) 255 ((data.drop v).take nlen)).1), nameWrites (.nameRing st.ns) ((data.drop v).take nlen))
        else ((.input (off + v), toInt32 nlen), []) := rfl
    generalize hsrc : (data.drop v).take nlen = nsrc at hname ⊢
    generalize hfirst : b.getLsbD 3 = hn at hname ⊢
    have hwritten : (readName data off (.nameRing st.ns) hn v nlen).2 =
        (if hn then some nsrc else none).elim [] (nameWrites (.nameRing st.ns)) := by
      rw [hname]
      cases hn <;> rfl
    have hpartial : Parsed data off st (none, { st with
        ns := (st.ns + 1) % 8, writes := st.writes ++ (readName data off (.nameRing st.ns) hn v nlen).2 })
        { named := true, huffName := if hn then some nsrc else none } := by
      refine ⟨?_, fun _ => rfl, nofun⟩
      rw [hwritten]
      simp [QpackStatics.behind, QpackStatics.written]
    by_cases hend : data.length ≤ v + nlen
    · rw [if_pos hend, drop_of_length_le hend]
      exact hpartial
    rw [if_neg hend]
    cases hvd2 : vd (data.drop (v + nlen)) 7 with
    | none =>
      rw [qString_none hvd2]
      exact hpartial
    | some r =>
      obtain ⟨vlen, v2⟩ := r
      rw [qString_drop hvd2 (by omega)]
      dsimp only
      by_cases hlong2 : data.length < v + nlen + v2 + vlen
      · rw [if_pos hlong2, if_pos hlong2]
        exact hpartial
      rw [if_neg hlong2, if_neg hlong2, readValue_eq]
      have hsize : data.length - (data.drop (v + nlen + v2 + vlen)).length = v + nlen + v2 + vlen := by
        rw [length_drop]
        omega
      have hret : toInt32 (v + nlen + v2) + toInt32 vlen = ((v + nlen + v2 + vlen : Nat) : Int) := by
        rw [toInt32_of_le (by unfold INT_MAX; omega), toInt32_of_le (by unfold INT_MAX; omega)]
        simp
      have hnameAt : ∀ src, (if hn then some nsrc else none) = some src →
          (readName data off (.nameRing st.ns) hn v nlen).1.1 = .decoded (.nameRing st.ns) (huffmanDecodeStr src).1 ∧
            sizeOf32 (readName data off (.nameRing st.ns) hn v nlen).1.2 = sizeOf32 (huffStr (.nameRing st.ns) 255 src).1 := by
        intro src hsome
        rw [hname]
        cases hn with
        | true =>
          cases hsome
          exact ⟨rfl, rfl⟩
        | false => cases hsome
      have hplain : (if hn then some nsrc else none) = none → ∀ held,
          (readName data off (.nameRing st.ns) hn v nlen).1.1.Lies (off + data.length) held
            (sizeOf32 (readName data off (.nameRing st.ns) hn v nlen).1.2) := by
        intro hnone held
        rw [hname]
        cases hn with
        | true => cases hnone
        | false =>
          have hnat : sizeOf32 (toInt32 nlen) = nlen := by
            rw [toInt32_of_le (by unfold INT_MAX; omega)]
            unfold sizeOf32
            omega
          simp only [QpackPtr.Lies, Bool.false_eq_true, if_false, hnat]
          omega
      dsimp only
      rw [hsize, hret]
      cases hh : (data.getD (v + nlen) 0).getLsbD 7 with
      | true =>
        refine ⟨?_, nofun, fun n hn' => ?_⟩
        · simp [QpackStatics.behind, QpackStatics.written, hwritten]
        · cases hn'
          refine ⟨_, rfl, hnameAt, nofun, fun src hsome => ?_, hplain, fun _ hnone => nomatch hnone⟩
          simp only [if_true, Option.some.injEq] at hsome
          subst hsome
          rfl
      | false =>
        refine ⟨?_, nofun, fun n hn' => ?_⟩
        · simp [QpackStatics.behind, QpackStatics.written, hwritten]
        · cases hn'
          refine ⟨_, rfl, hnameAt, nofun, nofun, hplain, fun _ _ held => ?_⟩
          simp only [QpackPtr.Lies, Bool.false_eq_true, if_false]
          omega

variable (data off st) in
theorem parseOne_spec (hlen : data.length < 2 ^ 31) : Parsed data off st (parseOne data off st) (fieldLine data) := by
  cases data with
  | nil => exact parsed_nothing
  | cons b rest =>
    unfold parseOne fieldLine
    simp only [getD_cons_zero]
    rw [if_neg (cons_ne_nil b rest)]
    by_cases h7 : 128 ≤ b.toNat
    · rw [if_pos h7, if_pos h7]
      exact parseIndexed_spec b
    rw [if_neg h7, if_neg h7]
    by_cases h6 : 64 ≤ b.toNat
    · rw [if_pos h6, if_pos h6]
      exact parseNameRef_spec hlen b
    rw [if_neg h6, if_neg h6]
    by_cases h5 : 32 ≤ b.toNat
    · rw [if_pos h5, if_pos h5]
      exact parseLiteralName_spec hlen b rfl
    rw [if_neg h5, if_neg h5]
    exact parsed_nothing

end MoqLiveCast
