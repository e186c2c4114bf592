import MoqLiveCast.Lib.Codec
import MoqLiveCast.Lib.Mem
/-!
# Varint — variable-length integers (`quic_packet.c`)

A reader of the modelled code keeps a pointer and what is left of the length; here it keeps the bytes left.
-/
namespace MoqLiveCast

def quicVarintLen (val : Nat) : Nat :=
  if val ≤ 63 then 1 else if val ≤ 16383 then 2 else if val ≤ 1073741823 then 4 else 8

/-- The bytes of a value; the two top bits of the first say how many they are. -/
def varintBytes (val : Nat) : List Byte :=
  match quicVarintLen val with
  | 1 => beBytes 1 val
  | 2 => (BitVec.ofNat 8 (val / 256) ||| 0x40) :: beBytes 1 val
  | 4 => (BitVec.ofNat 8 (val / 256 ^ 3) ||| 0x80) :: beBytes 3 val
  | _ => (BitVec.ofNat 8 (val / 256 ^ 7) ||| 0xc0) :: beBytes 7 val

def quicVarintEncode (cap val : Nat) : Option (List Byte) :=
  if cap < quicVarintLen val then none else some (varintBytes val)

/-- The value and its length in bytes, 1, 2, 4 or 8 by the two top bits of the first byte. -/
def quicVarintDecode : List Byte → Option (Nat × Nat)
  | [] => none
  | first :: rest =>
    let vlen := 2 ^ (first.toNat / 64)
    if rest.length + 1 < vlen then none
    else some ((rest.take (vlen - 1)).foldl (fun v b => v * 256 + b.toNat) (first.toNat % 64), vlen)

def readVarint (data : List Byte) : Option (Nat × List Byte) :=
  (quicVarintDecode data).map (fun r => (r.1, data.drop r.2))

theorem takes_readVarint : Takes readVarint 1 8 := by
  intro data val rest h
  unfold readVarint at h
  obtain ⟨⟨v, n⟩, hd, heq⟩ := Option.map_eq_some_iff.1 h
  cases heq
  cases data with
  | nil => cases hd
  | cons first tail =>
    have hfirst := first.isLt
    have hpow : 1 ≤ 2 ^ (first.toNat / 64) ∧ 2 ^ (first.toNat / 64) ≤ 2 ^ 3 :=
      ⟨Nat.one_le_two_pow, Nat.pow_le_pow_right (by omega) (by omega)⟩
    unfold quicVarintDecode at hd
    dsimp only at hd
    split at hd
    · cases hd
    · cases hd
      rw [List.length_drop, List.length_cons]
      omega

theorem foldl_bytes_lt (l : List Byte) (v m : Nat) (h : v < m) :
    l.foldl (fun v b => v * 256 + b.toNat) v < m * 256 ^ l.length := by
  have hle : (v + 1) * 256 ^ l.length ≤ m * 256 ^ l.length := Nat.mul_le_mul_right _ h
  have hlt := beNat_lt l
  rw [Nat.add_mul, Nat.one_mul] at hle
  rw [foldl_be]
  omega

theorem quicVarintDecode_lt {data : List Byte} {val n : Nat} (h : quicVarintDecode data = some (val, n)) : val < 2 ^ 62 := by
  cases data with
  | nil => cases h
  | cons first rest =>
    have hfirst := first.isLt
    unfold quicVarintDecode at h
    dsimp only at h
    split at h
    · cases h
    · simp only [Option.some.injEq, Prod.mk.injEq] at h
      have hlt := foldl_bytes_lt (rest.take (2 ^ (first.toNat / 64) - 1)) (first.toNat % 64) 64 (by omega)
      rw [h.1] at hlt
      have hlen : (rest.take (2 ^ (first.toNat / 64) - 1)).length ≤ 7 := by
        have : first.toNat / 64 ≤ 3 := by omega
        have := Nat.pow_le_pow_right (show 0 < 2 by omega) this
        rw [List.length_take]
        omega
      have := Nat.pow_le_pow_right (show 0 < 256 by omega) hlen
      calc val < 64 * 256 ^ _ := hlt
        _ ≤ 64 * 256 ^ 7 := Nat.mul_le_mul_left _ this
        _ = 2 ^ 62 := by decide

theorem readVarint_lt {data rest : List Byte} {val : Nat} (h : readVarint data = some (val, rest)) : val < 2 ^ 62 := by
  unfold readVarint at h
  cases hd : quicVarintDecode data with
  | none => rw [hd] at h; cases h
  | some r =>
    rw [hd] at h
    simp only [Option.map_some, Option.some.injEq, Prod.mk.injEq] at h
    rw [← h.1]
    exact quicVarintDecode_lt hd

/-! ## Round trip -/

theorem quicVarintDecode_tagged (tag : Byte) (n val k : Nat) (rest : List Byte) (hn : 2 ^ k = n + 1)
    (hval : val < 64 * 256 ^ n) (htag : ∀ b : Byte, b.toNat < 64 → (b ||| tag).toNat = k * 64 + b.toNat) :
    quicVarintDecode ((BitVec.ofNat 8 (val / 256 ^ n) ||| tag) :: beBytes n val ++ rest) = some (val, n + 1) := by
  have hlt : val / 256 ^ n < 64 := Nat.div_lt_of_lt_mul (by rwa [Nat.mul_comm])
  have hbyte : (BitVec.ofNat 8 (val / 256 ^ n)).toNat = val / 256 ^ n := by
    rw [BitVec.toNat_ofNat]
    exact Nat.mod_eq_of_lt (by omega)
  have hfirst := htag (BitVec.ofNat 8 (val / 256 ^ n)) (by rw [hbyte]; exact hlt)
  rw [hbyte] at hfirst
  have hdiv : (k * 64 + val / 256 ^ n) / 64 = k := by omega
  have hmod : (k * 64 + val / 256 ^ n) % 64 = val / 256 ^ n := by omega
  unfold quicVarintDecode
  rw [List.cons_append]
  dsimp only
  rw [hfirst, hdiv, hmod, hn, List.length_append, beBytes_length, if_neg (by omega), Nat.add_sub_cancel,
    List.take_append_of_le_length (Nat.le_of_eq (beBytes_length n val).symm),
    List.take_of_length_le (Nat.le_of_eq (beBytes_length n val)),
    foldl_beBytes, Nat.div_add_mod']

theorem quicVarintDecode_varintBytes {val : Nat} (hval : val < 2 ^ 62) (rest : List Byte) :
    quicVarintDecode (varintBytes val ++ rest) = some (val, (varintBytes val).length) := by
  have h6 : ∀ b : Byte, b.toNat < 64 → (b ||| 0x40).toNat = 1 * 64 + b.toNat := by decide +kernel
  have h8 : ∀ b : Byte, b.toNat < 64 → (b ||| 0x80).toNat = 2 * 64 + b.toNat := by decide +kernel
  have hc : ∀ b : Byte, b.toNat < 64 → (b ||| 0xc0).toNat = 3 * 64 + b.toNat := by decide +kernel
  unfold varintBytes quicVarintLen
  by_cases h1 : val ≤ 63
  · rw [if_pos h1]
    have := quicVarintDecode_tagged 0 0 val 0 rest rfl (by omega) (fun b _ => by simp)
    simpa [beBytes] using this
  · rw [if_neg h1]
    by_cases h2 : val ≤ 16383
    · rw [if_pos h2]
      have := quicVarintDecode_tagged 0x40 1 val 1 rest rfl (by omega) h6
      simpa using this
    · rw [if_neg h2]
      by_cases h4 : val ≤ 1073741823
      · rw [if_pos h4]
        have := quicVarintDecode_tagged 0x80 3 val 2 rest rfl (by omega) h8
        simpa using this
      · rw [if_neg h4]
        have := quicVarintDecode_tagged 0xc0 7 val 3 rest rfl (by omega) hc
        simpa using this

theorem readVarint_varintBytes {val : Nat} (hval : val < 2 ^ 62) (rest : List Byte) :
    readVarint (varintBytes val ++ rest) = some (val, rest) := by
  unfold readVarint
  rw [quicVarintDecode_varintBytes hval, Option.map_some, List.drop_left]

theorem quicVarintLen_cases (val : Nat) :
    quicVarintLen val = 1 ∨ quicVarintLen val = 2 ∨ quicVarintLen val = 4 ∨ quicVarintLen val = 8 := by
  unfold quicVarintLen
  split_ifs <;> simp

theorem varintBytes_length (val : Nat) : (varintBytes val).length = quicVarintLen val := by
  unfold varintBytes
  rcases quicVarintLen_cases val with h | h | h | h <;> rw [h] <;> simp

theorem quicVarintDecode_bounds {p : List Byte} {v n : Nat} (h : quicVarintDecode p = some (v, n)) :
    0 < n ∧ n ≤ 8 ∧ n ≤ p.length := by
  cases p with
  | nil => cases h
  | cons b rest =>
    simp only [quicVarintDecode] at h
    split at h
    · cases h
    · rename_i hlen
      simp only [Option.some.injEq, Prod.mk.injEq] at h
      have hfirst := b.isLt
      have hpow := Nat.pow_le_pow_right (show 0 < 2 by omega) (show b.toNat / 64 ≤ 3 by omega)
      have hpos := Nat.two_pow_pos (b.toNat / 64)
      rw [List.length_cons, ← h.2]
      omega

theorem quicVarintDecode_short {p : List Byte} (h : quicVarintDecode p = none) : p.length < 8 := by
  cases p with
  | nil => simp
  | cons b rest =>
    simp only [quicVarintDecode] at h
    split at h
    · rename_i hlen
      have hfirst := b.isLt
      have hpow := Nat.pow_le_pow_right (show 0 < 2 by omega) (show b.toNat / 64 ≤ 3 by omega)
      rw [List.length_cons]
      omega
    · cases h

theorem quicVarintDecode_same {p : List Byte} {v n : Nat} (h : quicVarintDecode p = some (v, n)) (q : List Byte)
    (hq : q.take n = p.take n) (hn : n ≤ q.length) : quicVarintDecode q = some (v, n) := by
  obtain ⟨hpos, -, -⟩ := quicVarintDecode_bounds h
  obtain ⟨m, rfl⟩ : ∃ m, n = m + 1 := ⟨n - 1, by omega⟩
  cases p with
  | nil => cases h
  | cons b rest =>
    cases q with
    | nil => simp at hn
    | cons c tail =>
      simp only [List.take_succ_cons, List.cons.injEq] at hq
      obtain ⟨rfl, htake⟩ := hq
      rw [List.length_cons] at hn
      simp only [quicVarintDecode] at h ⊢
      split at h
      · cases h
      · simp only [Option.some.injEq, Prod.mk.injEq] at h
        obtain ⟨hval, hlen⟩ := h
        rw [hlen, Nat.add_sub_cancel] at hval
        rw [hlen, if_neg (by omega), Nat.add_sub_cancel, htake, hval]

end MoqLiveCast
