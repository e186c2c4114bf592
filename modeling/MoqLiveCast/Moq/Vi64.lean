import MoqLiveCast.Lib.Scan
import MoqLiveCast.Lib.Mem
/-!
# Vi64 — the integers of MoQ transport (`moq_varint.hpp`, `moq_transport_client.c`)

A `uint64_t` in one to nine bytes: as many leading ones in the first byte as bytes follow it.  Server and client write
it alike; each has its own reader.  The server's reader also tells of a longer form than need be (`moqVi64_codec`), but no
caller asks.
-/
namespace MoqLiveCast

open List

open Scanner

/-! ## Writing -/

/-- `while (n <= 8 && v >= (1ull << (7 * n))) n++;`, at most `turns` times. -/
def vi64Len (v : BitVec 64) : Nat → Nat → Nat
  | n, 0 => n
  | n, turns + 1 => if 1#64 <<< (7 * n) ≤ v then vi64Len v (n + 1) turns else n

/-- `static_cast<uint8_t>(v >> (8 * i))`, the lowest byte being the last. -/
def byteAt (v : BitVec 64) (i : Nat) : Byte := (v >>> (8 * i)).setWidth 8

def vi64Mask (lead : Nat) : Byte := if lead = 0 then 0 else 0xff#8 <<< (8 - lead)

def vi64First (v : BitVec 64) (n : Nat) : Byte :=
  if n ≤ 8 then vi64Mask (n - 1) ||| ((v >>> (8 * (n - 1))) &&& (1#64 <<< (8 - n) - 1)).setWidth 8 else 0xff

def vi64Bytes (v : BitVec 64) : List Byte :=
  let n := vi64Len v 1 8
  vi64First v n :: (range' 1 (n - 1)).map fun i => byteAt v (n - 1 - i)

def moqAppendVi64 (o : List Byte) (v : BitVec 64) : List Byte := o ++ vi64Bytes v

def putVi64 (b : List Byte) (v : BitVec 64) : List Byte := b ++ vi64Bytes v

/-! ## Reading -/

def moqLead (first : Byte) : Nat → Nat → Nat
  | lead, 0 => lead
  | lead, turns + 1 => if first &&& (0x80#8 >>> lead) ≠ 0 then moqLead first (lead + 1) turns else lead

/-- `v = (v << 8) | p[off + i]` for each byte. -/
def shiftIn (v : BitVec 64) (bytes : List Byte) : BitVec 64 := bytes.foldl (fun v x => v <<< 8 ||| x.setWidth 64) v

def moqReadVi64 {ε : Type} : Scanner Byte ε (BitVec 64) := fun p c =>
  if p.length ≤ c.off then .short c
  else
    let first := p.getD c.off 0
    let n := moqLead first 0 8 + 1
    if p.length < c.off + n then .short c
    else
      let v := if n ≤ 8 then (first &&& (1#8 <<< (8 - n) - 1)).setWidth 64 else 0
      .ok (shiftIn v ((p.drop (c.off + 1)).take (n - 1))) { c with off := c.off + n }

/-- `while (n <= 8 && (b0 & mask)) { n++; mask >>= 1; }` -/
def getLead (b0 : Byte) : Nat → Byte → Nat → Nat
  | n, _, 0 => n
  | n, mask, turns + 1 => if b0 &&& mask ≠ 0 then getLead b0 (n + 1) (mask >>> 1) turns else n

def getVi64 {ε : Type} : Scanner Byte ε (BitVec 64) := fun p c =>
  if p.length ≤ c.off then .short c
  else
    let b0 := p.getD c.off 0
    let n := getLead b0 1 0x80 8
    if p.length < c.off + n then .short c
    else
      let v :=
        if n = 1 then (b0 &&& 0x7f).setWidth 64
        else if n ≤ 8 then shiftIn ((b0 &&& (1#8 <<< (8 - n) - 1)).setWidth 64) ((p.drop (c.off + 1)).take (n - 1))
        else shiftIn 0 ((p.drop (c.off + 1)).take 8)
      .ok v { c with off := c.off + n }

/-! ## The first byte tells the length -/

theorem moqLead_le (b : Byte) : moqLead b 0 8 ≤ 8 := by revert b; decide +kernel

theorem getLead_eq (b : Byte) : getLead b 1 0x80 8 = moqLead b 0 8 + 1 := by revert b; decide +kernel

theorem getVi64_eq {ε : Type} : (getVi64 : Scanner Byte ε (BitVec 64)) = moqReadVi64 := by
  funext p c
  unfold getVi64 moqReadVi64
  simp only [getLead_eq]
  generalize p.getD c.off 0 = b0
  have hle := moqLead_le b0
  generalize moqLead b0 0 8 = lead at hle
  by_cases h1 : lead = 0
  · subst h1
    simp [shiftIn]
  · rw [if_neg (show ¬ lead + 1 = 1 from by omega), Nat.add_sub_cancel]
    by_cases h9 : lead + 1 ≤ 8
    · simp only [if_pos h9]
    · obtain rfl : lead = 8 := by omega
      rfl

theorem vi64Len_spec (v : BitVec 64) : ∀ turns n, n + turns = 9 → 1 ≤ n → 1 ≤ vi64Len v n turns ∧ vi64Len v n turns ≤ 9 ∧
      (vi64Len v n turns ≤ 8 → v.toNat < 2 ^ (7 * vi64Len v n turns))
  | 0, n, hn, h1 => by
    simp only [vi64Len]
    exact ⟨h1, by omega, by omega⟩
  | turns + 1, n, hn, h1 => by
    unfold vi64Len
    split
    · exact vi64Len_spec v turns (n + 1) (by omega) (by omega)
    · rename_i h
      refine ⟨h1, by omega, fun _ => ?_⟩
      have hpow : 2 ^ (7 * n) < 2 ^ 64 := Nat.pow_lt_pow_right (by decide) (by omega)
      rw [BitVec.not_le, BitVec.lt_def, BitVec.toNat_shiftLeft, Nat.shiftLeft_eq, BitVec.toNat_ofNat, Nat.mod_eq_of_lt
        (Nat.one_lt_two_pow (by decide)), Nat.one_mul, Nat.mod_eq_of_lt hpow] at h
      exact h

theorem first_spec : ∀ n ∈ range' 1 8, ∀ x : Byte, x.toNat < 2 ^ (8 - n) →
    moqLead (vi64Mask (n - 1) ||| x) 0 8 = n - 1 ∧ (vi64Mask (n - 1) ||| x) &&& (1#8 <<< (8 - n) - 1) = x := by
  decide +kernel

theorem lead_ff : moqLead 0xff 0 8 = 8 := by decide

/-! ## What is written is what is read -/

theorem shiftIn_byteAt (v : BitVec 64) (i : Nat) : (v >>> (8 * (i + 1))) <<< 8 ||| (byteAt v i).setWidth 64 = v >>> (8 * i) := by
  apply BitVec.eq_of_getLsbD_eq
  intro j hj
  simp only [byteAt, BitVec.getLsbD_or, BitVec.getLsbD_shiftLeft, BitVec.getLsbD_ushiftRight, BitVec.getLsbD_setWidth]
  by_cases h8 : j < 8
  · simp [h8, hj]
  · simp [h8, hj, show 8 * (i + 1) + (j - 8) = 8 * i + j from by omega]

theorem shiftIn_tail (v : BitVec 64) : ∀ m, shiftIn (v >>> (8 * m)) ((range' 1 m).map fun i => byteAt v (m - i)) = v
  | 0 => by simp [shiftIn]
  | m + 1 => by
    have htail : (range' 2 m).map (fun i => byteAt v (m + 1 - i)) = (range' 1 m).map fun i => byteAt v (m - i) := by
      rw [range'_succ_left, map_map]
      apply map_congr_left
      intro i hi
      simp only [Function.comp]
      congr 1
      omega
    rw [range'_succ, map_cons, htail, shiftIn, foldl_cons, Nat.add_sub_cancel, shiftIn_byteAt]
    exact shiftIn_tail v m

theorem vi64Bytes_length (v : BitVec 64) : (vi64Bytes v).length = vi64Len v 1 8 := by
  have h := (vi64Len_spec v 8 1 rfl (Nat.le_refl _)).1
  simp [vi64Bytes]
  omega

theorem vi64First_spec (v : BitVec 64) :
    let n := vi64Len v 1 8
    moqLead (vi64First v n) 0 8 + 1 = n ∧
      (if n ≤ 8 then (vi64First v n &&& (1#8 <<< (8 - n) - 1)).setWidth 64 else 0) = v >>> (8 * (n - 1)) := by
  obtain ⟨h1, h9, hlt⟩ := vi64Len_spec v 8 1 rfl (Nat.le_refl _)
  simp only
  generalize vi64Len v 1 8 = n at *
  unfold vi64First
  by_cases h8 : n ≤ 8
  · have hv := hlt h8
    have hdiv : (v >>> (8 * (n - 1))).toNat < 2 ^ (8 - n) := by
      rw [BitVec.toNat_ushiftRight, Nat.shiftRight_eq_div_pow, Nat.div_lt_iff_lt_mul (Nat.two_pow_pos _), ← Nat.pow_add]
      rwa [show 8 - n + 8 * (n - 1) = 7 * n from by omega]
    have hmask : ∀ n ∈ range' 1 8, (1#64 <<< (8 - n) - 1).toNat = 2 ^ (8 - n) - 1 := by decide
    have hmem : n ∈ range' 1 8 := List.mem_range'_1.2 ⟨h1, by omega⟩
    have hand : (v >>> (8 * (n - 1))) &&& (1#64 <<< (8 - n) - 1) = v >>> (8 * (n - 1)) := by
      apply BitVec.eq_of_toNat_eq
      rw [BitVec.toNat_and, hmask n hmem, Nat.and_two_pow_sub_one_eq_mod, Nat.mod_eq_of_lt hdiv]
    have hx : ((v >>> (8 * (n - 1))).setWidth 8).toNat = (v >>> (8 * (n - 1))).toNat := by
      rw [BitVec.toNat_setWidth, Nat.mod_eq_of_lt (Nat.lt_of_lt_of_le hdiv (Nat.pow_le_pow_right (by decide) (by omega)))]
    rw [if_pos h8, if_pos h8, hand]
    obtain ⟨hlead, hval⟩ := first_spec n hmem _ (hx ▸ hdiv)
    rw [hlead, hval]
    refine ⟨by omega, BitVec.eq_of_toNat_eq ?_⟩
    rw [BitVec.toNat_setWidth, hx, Nat.mod_eq_of_lt (BitVec.isLt _)]
  · obtain rfl : n = 9 := by omega
    rw [if_neg h8, if_neg h8, lead_ff]
    refine ⟨rfl, ?_⟩
    apply BitVec.eq_of_toNat_eq
    rw [BitVec.toNat_ushiftRight, Nat.shiftRight_eq_div_pow]
    have := v.isLt
    simp
    omega

theorem moqReadVi64_cons {ε : Type} (pre : List Byte) (x : Byte) (tail rest : List Byte) (tests : List (Nat × Nat))
    (hlead : moqLead x 0 8 = tail.length) : (moqReadVi64 : Scanner Byte ε (BitVec 64)) (pre ++ x :: (tail ++
    rest)) ⟨pre.length, tests⟩ = .ok (shiftIn (if tail.length + 1 ≤ 8 then (x &&& (1#8 <<< (8 - (tail.length + 1)) - 1)).setWidth
    64 else 0) tail) ⟨pre.length + (tail.length + 1), tests⟩ := by
  have hget : (pre ++ x :: (tail ++ rest)).getD pre.length 0 = x := by simp
  have hdrop : ((pre ++ x :: (tail ++ rest)).drop (pre.length + 1)).take tail.length = tail := by simp
  unfold moqReadVi64
  rw [if_neg (by simp), hget]
  simp only [hlead, Nat.add_sub_cancel, hdrop]
  rw [if_neg (by simp)]

theorem moqReadVi64_part {ε : Type} (pre : List Byte) (x : Byte) (tail : List Byte) (tests : List (Nat × Nat))
    (hlead : tail.length < moqLead x 0 8) :
    (moqReadVi64 : Scanner Byte ε (BitVec 64)) (pre ++ x :: tail) ⟨pre.length, tests⟩ = .short ⟨pre.length, tests⟩ := by
  have hget : (pre ++ x :: tail).getD pre.length 0 = x := by simp
  unfold moqReadVi64
  rw [if_neg (by simp), hget]
  simp only
  rw [if_pos (by simp; omega)]

theorem scans_vi64 {ε : Type} (v : BitVec 64) :
    Scans (moqReadVi64 : Scanner Byte ε (BitVec 64)) (fun w => w = v) (vi64Bytes v) where
  whole pre rest tests hlen := by
    obtain ⟨hlead, hval⟩ := vi64First_spec v
    have hlen := vi64Bytes_length v
    refine ⟨v, tests, ?_, rfl⟩
    simp only [vi64Bytes, length_cons] at hlen ⊢
    rw [cons_append, moqReadVi64_cons _ _ _ _ _ (by omega), hlen, hval]
    have hn : vi64Len v 1 8 - 1 = (range' 1 (vi64Len v 1 8 - 1)).length := by simp
    rw [shiftIn_tail, length_append, length_cons, hlen]
  part := by
    intro pre ys zs tests hlen heq hne
    obtain ⟨hlead, -⟩ := vi64First_spec v
    have hlen' := vi64Bytes_length v
    have hz := List.length_pos_iff.2 hne
    cases ys with
    | nil =>
      refine ⟨⟨pre.length, tests⟩, ?_⟩
      unfold moqReadVi64
      rw [if_pos (by simp)]
    | cons y ys =>
      have hlens := congrArg List.length heq
      rw [hlen'] at hlens
      simp only [vi64Bytes, cons_append, List.cons.injEq, length_append, length_cons] at heq hlens
      rw [← heq.1]
      exact ⟨_, moqReadVi64_part _ _ _ _ (by omega)⟩

theorem moqReadVi64_eq_ok {ε : Type} {b : List Byte} {c c' : Cursor} {v : BitVec 64}
    (h : (moqReadVi64 : Scanner Byte ε (BitVec 64)) b c = .ok v c') :
    c.off < b.length ∧ c'.off = c.off + (moqLead (b.getD c.off 0) 0 8 + 1) ∧ c'.off ≤ b.length ∧ c'.tests = c.tests := by
  unfold moqReadVi64 at h
  split at h
  · cases h
  · rename_i hoff
    simp only at h
    split at h
    · cases h
    · rename_i hn
      cases h
      exact ⟨Nat.not_le.1 hoff, rfl, Nat.not_lt.1 hn, rfl⟩

theorem vi64_whole {ε : Type} (v : BitVec 64) (pre rest : List Byte) (tests : List (Nat × Nat)) (h : (pre ++
    vi64Bytes v).length < wordSize) : (moqReadVi64 : Scanner Byte ε (BitVec 64)) (pre ++ (vi64Bytes v ++ rest)) ⟨pre.length,
    tests⟩ = .ok v ⟨(pre ++ vi64Bytes v).length, tests⟩ := by
  obtain ⟨w, tests', hw, rfl⟩ := (scans_vi64 v).whole pre rest tests h
  obtain rfl : tests' = tests := (moqReadVi64_eq_ok hw).2.2.2
  exact hw

theorem moqReadVi64_ne_stop {ε : Type} {b : List Byte} {c c' : Cursor} {e : ε} :
    (moqReadVi64 : Scanner Byte ε (BitVec 64)) b c ≠ .stop e c' := by
  intro h
  unfold moqReadVi64 at h
  split at h
  · cases h
  · simp only at h
    split at h <;> cases h

theorem steady_vi64 {ε : Type} (und : ε → Prop) : Steady und (moqReadVi64 : Scanner Byte ε (BitVec 64)) where
  answers {b c a c'} x h := by
    obtain ⟨hoff, hn, hle, -⟩ := moqReadVi64_eq_ok h
    rw [hn] at hle
    have hget : (b ++ x).getD c.off 0 = b.getD c.off 0 := by
      simp [List.getElem?_append_left hoff]
    have htake : ((b ++ x).drop (c.off + 1)).take (moqLead (b.getD c.off 0) 0 8) =
        (b.drop (c.off + 1)).take (moqLead (b.getD c.off 0) 0 8) := by
      rw [drop_append_of_le_length (by omega), take_append_of_le_length (by rw [length_drop]; omega)]
    unfold moqReadVi64 at h ⊢
    rw [if_neg (by omega)] at h
    rw [if_neg (by rw [length_append]; omega), hget]
    simp only [Nat.add_sub_cancel] at h ⊢
    rw [if_neg (by omega)] at h
    rw [if_neg (by rw [length_append]; omega), htake]
    exact h
  ends {b c e c'} x h _ := absurd h moqReadVi64_ne_stop

theorem keeps_vi64 {ε : Type} {b : List Byte} :
    Keeps b (Within b) (fun _ => True) (moqReadVi64 : Scanner Byte ε (BitVec 64)) := by
  intro c hc
  refine ⟨?_, fun _ _ _ => trivial⟩
  cases h : (moqReadVi64 : Scanner Byte ε (BitVec 64)) b c with
  | ok v c' =>
    obtain ⟨-, -, hle, ht⟩ := moqReadVi64_eq_ok h
    exact ⟨hle, ht ▸ hc.2⟩
  | short c' =>
    unfold moqReadVi64 at h
    split at h
    · cases h; exact hc
    · simp only at h
      split at h <;> cases h
      exact hc
  | stop e c' => exact absurd h moqReadVi64_ne_stop

theorem moqReadVi64_of_append {ε : Type} {p q : List Byte} {c c' : Cursor} {v : BitVec 64}
    (h : (moqReadVi64 : Scanner Byte ε (BitVec 64)) (p ++ q) c = .ok v c') (hp : c'.off ≤ p.length) :
    (moqReadVi64 : Scanner Byte ε (BitVec 64)) p c = .ok v c' := by
  obtain ⟨hoff, hn, -, -⟩ := moqReadVi64_eq_ok h
  have hget : (p ++ q).getD c.off 0 = p.getD c.off 0 := by
    simp [List.getElem?_append_left (show c.off < p.length from by omega)]
  cases hr : (moqReadVi64 : Scanner Byte ε (BitVec 64)) p c with
  | ok w c1 => exact hr ▸ ((steady_vi64 (fun _ => False)).answers q hr).symm.trans h
  | stop e c1 => exact absurd hr moqReadVi64_ne_stop
  | short c1 =>
    rw [hget] at hn
    unfold moqReadVi64 at hr
    rw [if_neg (by omega)] at hr
    simp only at hr
    rw [if_neg (by omega)] at hr
    cases hr

/-! ## The forms of a value -/

/-- `MoqReadVi64` with its last argument, which tells of a form longer than need be. -/
def moqReadVi64NonMinimal {ε : Type} : Scanner Byte ε (BitVec 64 × Bool) := fun p c =>
  if p.length ≤ c.off then .short c
  else
    let first := p.getD c.off 0
    let n := moqLead first 0 8 + 1
    if p.length < c.off + n then .short c
    else
      let v := if n ≤ 8 then (first &&& (1#8 <<< (8 - n) - 1)).setWidth 64 else 0
      let v := shiftIn v ((p.drop (c.off + 1)).take (n - 1))
      .ok (v, decide (2 ≤ n ∧ v < 1#64 <<< (7 * (n - 1)))) { c with off := c.off + n }

/-- **A form of `v` in `n` bytes**: `n - 1` ones and then a zero, if there is room for it, and the value in the other bits,
the greatest first. -/
structure Vi64Form (n v : Nat) (bytes : List Byte) : Prop where
  pos : 1 ≤ n
  le : n ≤ 9
  fits : n ≤ 8 → v < 2 ^ (7 * n)
  length : bytes.length = n
  value : beNat bytes = (256 - 2 ^ (9 - n)) * 256 ^ (n - 1) + v

theorem moqLead_value : ∀ x : Byte, x.toNat = 256 - 2 ^ (8 - moqLead x 0 8) + (if moqLead x 0 8 + 1 ≤ 8 then (x &&& (1#8 <<< (8 -
    (moqLead x 0 8 + 1)) - 1)).toNat else 0) ∧ (x &&& (1#8 <<< (8 - (moqLead x 0 8 + 1)) - 1)).toNat < 2 ^ (7 - moqLead x 0
    8) := by
  decide +kernel

theorem moqLead_of_value : ∀ n ∈ range' 1 8, ∀ x : Byte, 256 - 2 ^ (9 - n) ≤ x.toNat →
    x.toNat < 256 - 2 ^ (9 - n) + 2 ^ (8 - n) → moqLead x 0 8 = n - 1 := by
  decide +kernel

def vi64Value (x : Byte) (tail : List Byte) : BitVec 64 :=
  shiftIn (if tail.length + 1 ≤ 8 then (x &&& (1#8 <<< (8 - (tail.length + 1)) - 1)).setWidth 64 else 0) tail

theorem vi64Value_split {x : Byte} {tail : List Byte} (h : moqLead x 0 8 = tail.length) : (vi64Value x tail).toNat =
    (if tail.length + 1 ≤ 8 then (x &&& (1#8 <<< (8 - (tail.length + 1)) - 1)).toNat else 0) * 256 ^ tail.length + beNat
    tail := by
  have hle := moqLead_le x
  obtain ⟨-, hlow⟩ := moqLead_value x
  rw [h] at hlow hle
  unfold vi64Value shiftIn
  by_cases h8 : tail.length + 1 ≤ 8
  · rw [if_pos h8, if_pos h8]
    have hfirst : ((x &&& (1#8 <<< (8 - (tail.length + 1)) - 1)).setWidth 64).toNat =
        (x &&& (1#8 <<< (8 - (tail.length + 1)) - 1)).toNat := BitVec.toNat_setWidth_of_le (by decide)
    have hpow : 2 ^ (7 - tail.length) * 256 ^ tail.length ≤ 2 ^ 64 := by
      rw [show (256 : Nat) = 2 ^ 8 from rfl, ← Nat.pow_mul, ← Nat.pow_add]
      exact Nat.pow_le_pow_right (by decide) (by omega)
    rw [shiftOr_foldl tail _ (2 ^ (7 - tail.length)) (by rw [hfirst]; exact hlow) hpow, hfirst, foldl_be]
  · have hlen : tail.length = 8 := by omega
    rw [if_neg h8, if_neg h8, shiftOr_foldl tail 0 1 Nat.one_pos (by rw [hlen]; decide), foldl_be]
    rfl

theorem vi64Value_toNat {x : Byte} {tail : List Byte} (h : moqLead x 0 8 = tail.length) :
    beNat (x :: tail) = (256 - 2 ^ (8 - tail.length)) * 256 ^ tail.length + (vi64Value x tail).toNat := by
  obtain ⟨hx, -⟩ := moqLead_value x
  rw [h] at hx
  rw [beNat_cons, hx, Nat.add_mul, vi64Value_split h, Nat.add_assoc]

theorem vi64Form_of_lead {x : Byte} {tail : List Byte} (h : moqLead x 0 8 = tail.length) :
    Vi64Form (tail.length + 1) (vi64Value x tail).toNat (x :: tail) := by
  have hle := moqLead_le x
  obtain ⟨-, hlow⟩ := moqLead_value x
  have htail := beNat_lt tail
  rw [h] at hle hlow
  refine ⟨by omega, by omega, fun h8 => ?_, rfl, ?_⟩
  · have hpow : 2 ^ (7 * (tail.length + 1)) = 2 ^ (7 - tail.length) * 256 ^ tail.length := by
      rw [show (256 : Nat) = 2 ^ 8 from rfl, ← Nat.pow_mul, ← Nat.pow_add]
      congr 1
      omega
    rw [vi64Value_split h, if_pos h8, hpow]
    calc _ < (x &&& (1#8 <<< (8 - (tail.length + 1)) - 1)).toNat * 256 ^ tail.length + 256 ^ tail.length :=
          Nat.add_lt_add_left htail _
      _ = ((x &&& (1#8 <<< (8 - (tail.length + 1)) - 1)).toNat + 1) * 256 ^ tail.length := by rw [Nat.add_mul, Nat.one_mul]
      _ ≤ 2 ^ (7 - tail.length) * 256 ^ tail.length := Nat.mul_le_mul_right _ hlow
  · rw [vi64Value_toNat h, show 9 - (tail.length + 1) = 8 - tail.length from by omega, Nat.add_sub_cancel]

theorem moqReadVi64NonMinimal_cons {ε : Type} (pre : List Byte) (x : Byte) (tail rest : List Byte) (tests : List (Nat × Nat))
    (hlead : moqLead x 0 8 = tail.length) : (moqReadVi64NonMinimal : Scanner Byte ε (BitVec 64 × Bool))
    (pre ++ x :: (tail ++ rest)) ⟨pre.length, tests⟩ = .ok (vi64Value x tail, decide (2 ≤ tail.length + 1 ∧
    vi64Value x tail < 1#64 <<< (7 * tail.length))) ⟨pre.length + (tail.length + 1), tests⟩ := by
  have hget : (pre ++ x :: (tail ++ rest)).getD pre.length 0 = x := by simp
  have hdrop : ((pre ++ x :: (tail ++ rest)).drop (pre.length + 1)).take tail.length = tail := by simp
  unfold moqReadVi64NonMinimal
  rw [if_neg (by simp), hget]
  simp only [hlead, Nat.add_sub_cancel, hdrop]
  rw [if_neg (by simp)]
  rfl

theorem moqReadVi64_nonMinimal {ε : Type} (p : List Byte) (c : Cursor) : (moqReadVi64 : Scanner Byte ε (BitVec 64)) p c =
      match (moqReadVi64NonMinimal : Scanner Byte ε (BitVec 64 × Bool)) p c with
      | .ok r c' => .ok r.1 c'
      | .short c' => .short c'
      | .stop e c' => .stop e c' := by
  unfold moqReadVi64 moqReadVi64NonMinimal
  split
  · rfl
  · dsimp only
    split <;> rfl

theorem moqReadVi64NonMinimal_short {ε : Type} {p : List Byte} {c c' : Cursor}
    (h : (moqReadVi64NonMinimal : Scanner Byte ε (BitVec 64 × Bool)) p c = .short c') : c' = c := by
  unfold moqReadVi64NonMinimal at h
  split at h
  · cases h
    rfl
  · dsimp only at h
    split at h <;> cases h
    rfl

namespace Vi64Form

variable {n v : Nat} {bytes : List Byte}

theorem split (h : Vi64Form n v bytes) : ∃ x tail, bytes = x :: tail ∧ tail.length = n - 1 ∧ moqLead x 0 8 = tail.length ∧
    beNat tail = v % 256 ^ (n - 1) := by
  obtain ⟨hpos, hle, hfits, hlen, hval⟩ := h
  cases bytes with
  | nil =>
    rw [length_nil] at hlen
    omega
  | cons x tail =>
    rw [length_cons] at hlen
    have hlen' : tail.length = n - 1 := by omega
    have hlt := beNat_lt tail
    rw [beNat_cons, hlen'] at hval
    rw [hlen'] at hlt
    have hmod : beNat tail = v % 256 ^ (n - 1) := by
      have hm := congrArg (· % 256 ^ (n - 1)) hval
      simpa [Nat.mul_add_mod', Nat.mod_eq_of_lt hlt] using hm
    have hdiv : x.toNat = 256 - 2 ^ (9 - n) + v / 256 ^ (n - 1) := by
      have hp : 0 < 256 ^ (n - 1) := Nat.pow_pos (by decide)
      have hd := congrArg (· / 256 ^ (n - 1)) hval
      rwa [Nat.add_comm, Nat.add_mul_div_right _ _ hp, Nat.div_eq_of_lt hlt, Nat.zero_add, Nat.add_comm (_ * _),
        Nat.add_mul_div_right _ _ hp, Nat.add_comm] at hd
    refine ⟨x, tail, rfl, hlen', ?_, hmod⟩
    rw [hlen']
    by_cases h8 : n ≤ 8
    · have hhigh : v / 256 ^ (n - 1) < 2 ^ (8 - n) := by
        have hpow : 2 ^ (7 * n) = 2 ^ (8 - n) * 256 ^ (n - 1) := by
          rw [show (256 : Nat) = 2 ^ 8 from rfl, ← Nat.pow_mul, ← Nat.pow_add]
          congr 1
          omega
        exact Nat.div_lt_of_lt_mul (by rw [Nat.mul_comm, ← hpow]; exact hfits h8)
      generalize v / 256 ^ (n - 1) = high at hdiv hhigh
      exact moqLead_of_value n (List.mem_range'_1.2 ⟨hpos, by omega⟩) x (by omega) (by omega)
    · obtain rfl : n = 9 := by omega
      have hx := x.isLt
      have hx' : x = 255#8 := BitVec.eq_of_toNat_eq (by
        show x.toNat = 255
        rw [show (9 : Nat) - 9 = 0 from rfl] at hdiv
        omega)
      rw [hx']
      exact lead_ff

theorem read {ε : Type} {v : BitVec 64} (h : Vi64Form n v.toNat bytes) (pre rest : List Byte) (tests : List (Nat × Nat)) :
    (moqReadVi64NonMinimal : Scanner Byte ε (BitVec 64 × Bool)) (pre ++ (bytes ++ rest)) ⟨pre.length, tests⟩ =
    .ok (v, decide (2 ≤ n ∧ v < 1#64 <<< (7 * (n - 1)))) ⟨pre.length + n, tests⟩ := by
  obtain ⟨x, tail, rfl, hlen, hlead, -⟩ := h.split
  have hpos := h.pos
  have hn : tail.length + 1 = n := by omega
  have hval := vi64Value_toNat hlead
  have hv : vi64Value x tail = v := by
    have hform := h.value
    rw [hval, hlen, show 8 - (n - 1) = 9 - n from by omega] at hform
    exact BitVec.eq_of_toNat_eq (Nat.add_left_cancel hform)
  rw [cons_append, moqReadVi64NonMinimal_cons pre x tail rest tests hlead, hv, hn, hlen]

theorem unique {bytes' : List Byte} (h : Vi64Form n v bytes) (h' : Vi64Form n v bytes') : bytes = bytes' :=
  beNat_inj (h.length.trans h'.length.symm) (h.value.trans h'.value.symm)

theorem part {ε : Type} {ys zs : List Byte} (h : Vi64Form n v (ys ++ zs)) (hne : zs ≠ []) (pre : List Byte)
    (tests : List (Nat × Nat)) :
    (moqReadVi64NonMinimal : Scanner Byte ε (BitVec 64 × Bool)) (pre ++ ys) ⟨pre.length, tests⟩ = .short ⟨pre.length, tests⟩ := by
  have hz := List.length_pos_iff.2 hne
  obtain ⟨x, tail, heq, hlen, hlead, -⟩ := h.split
  cases ys with
  | nil =>
    unfold moqReadVi64NonMinimal
    rw [if_pos (by simp)]
  | cons y ys =>
    rw [cons_append, List.cons.injEq] at heq
    obtain ⟨rfl, rfl⟩ := heq
    have hget : (pre ++ y :: ys).getD pre.length 0 = y := by simp
    unfold moqReadVi64NonMinimal
    rw [if_neg (by simp), hget]
    simp only [hlead]
    rw [if_pos (by simp; omega)]

end Vi64Form

/-! ## The shortest form -/

theorem vi64Len_le {v : BitVec 64} {m : Nat} (hm : m ≤ 8) (hv : v.toNat < 2 ^ (7 * m)) : ∀ turns n, n + turns = 9 → n ≤ m →
    vi64Len v n turns ≤ m
  | 0, n, hn, hnm => by
    simp only [vi64Len]
    omega
  | turns + 1, n, hn, hnm => by
    unfold vi64Len
    split
    · rename_i hle
      have hpow : 2 ^ (7 * n) < 2 ^ 64 := Nat.pow_lt_pow_right (by decide) (by omega)
      rw [BitVec.le_def, BitVec.toNat_shiftLeft, Nat.shiftLeft_eq, BitVec.toNat_ofNat,
        Nat.mod_eq_of_lt (Nat.one_lt_two_pow (by decide)), Nat.one_mul, Nat.mod_eq_of_lt hpow] at hle
      have hlt : 7 * n < 7 * m := (Nat.pow_lt_pow_iff_right (by decide)).1 (Nat.lt_of_le_of_lt hle hv)
      exact vi64Len_le hm hv turns (n + 1) (by omega) (by omega)
    · exact hnm

theorem vi64Bytes_form (v : BitVec 64) : Vi64Form (vi64Len v 1 8) v.toNat (vi64Bytes v) ∧
    ∀ m form, Vi64Form m v.toNat form → vi64Len v 1 8 ≤ m := by
  obtain ⟨hpos, hle, hfits⟩ := vi64Len_spec v 8 1 rfl (Nat.le_refl _)
  refine ⟨⟨hpos, hle, hfits, vi64Bytes_length v, ?_⟩, fun m form h => ?_⟩
  · obtain ⟨hlead, hval⟩ := vi64First_spec v
    have hlen := vi64Bytes_length v
    unfold vi64Bytes at hlen ⊢
    dsimp only at hlen hlead hval ⊢
    rw [length_cons] at hlen
    generalize htail : (range' 1 (vi64Len v 1 8 - 1)).map (fun i => byteAt v (vi64Len v 1 8 - 1 - i)) = tail at hlen ⊢
    have hv : vi64Value (vi64First v (vi64Len v 1 8)) tail = v := by
      unfold vi64Value
      rw [hlen, hval, ← htail]
      exact shiftIn_tail v _
    rw [vi64Value_toNat (by omega), hv, show tail.length = vi64Len v 1 8 - 1 from by omega,
      show 8 - (vi64Len v 1 8 - 1) = 9 - vi64Len v 1 8 from by omega]
  · by_cases h8 : m ≤ 8
    · exact vi64Len_le h8 (h.fits h8) 8 1 rfl h.pos
    · have := h.le
      omega

theorem nonMinimal_iff {v : BitVec 64} {n : Nat} {form : List Byte} (h : Vi64Form n v.toNat form) :
    (2 ≤ n ∧ v < 1#64 <<< (7 * (n - 1))) ↔ form ≠ vi64Bytes v := by
  obtain ⟨hshort, hmin⟩ := vi64Bytes_form v
  have hlen := hshort.length
  have hle := h.le
  have hlt : v < 1#64 <<< (7 * (n - 1)) ↔ v.toNat < 2 ^ (7 * (n - 1)) := by
    have hpow : 2 ^ (7 * (n - 1)) < 2 ^ 64 := Nat.pow_lt_pow_right (by decide) (by omega)
    rw [BitVec.lt_def, BitVec.toNat_shiftLeft, Nat.shiftLeft_eq, BitVec.toNat_ofNat,
      Nat.mod_eq_of_lt (Nat.one_lt_two_pow (by decide)), Nat.one_mul, Nat.mod_eq_of_lt hpow]
  rw [hlt]
  constructor
  · rintro ⟨h2, hv⟩ rfl
    have hn : vi64Len v 1 8 ≤ n - 1 := vi64Len_le (by omega) hv 8 1 rfl (by omega)
    have := h.length
    omega
  · intro hne
    have hlonger : vi64Len v 1 8 < n := by
      rcases Nat.lt_or_eq_of_le (hmin n form h) with hlt | heq
      · exact hlt
      · rw [← heq] at h
        exact absurd (h.unique hshort) hne
    have hpos := hshort.pos
    refine ⟨by omega, ?_⟩
    have hfits := hshort.fits (by omega)
    exact Nat.lt_of_lt_of_le hfits (Nat.pow_le_pow_right (by decide) (by omega))

/-- **The codec**, for every value, between any bytes: what is appended is its shortest form and is read back as such; its
longer forms are read too, and told of; of a part of a form nothing is read, and what is not read leaves the offset. -/
theorem moqVi64_codec (v : BitVec 64) (pre rest : List Byte) : (∃ n, moqAppendVi64 pre v = pre ++ vi64Bytes v ∧
    Vi64Form n v.toNat (vi64Bytes v) ∧ (∀ m form, Vi64Form m v.toNat form → n ≤ m) ∧ (moqReadVi64NonMinimal :
    Scanner Byte Empty (BitVec 64 × Bool)) (moqAppendVi64 pre v ++ rest) ⟨pre.length, []⟩ = .ok (v, false) ⟨pre.length + n, []⟩) ∧
    (∀ m form, Vi64Form m v.toNat form → form ≠ vi64Bytes v → (moqReadVi64NonMinimal : Scanner Byte Empty (BitVec 64 × Bool))
    (pre ++ (form ++ rest)) ⟨pre.length, []⟩ = .ok (v, true) ⟨pre.length + m, []⟩) ∧ (∀ m ys zs, Vi64Form m v.toNat (ys ++ zs) →
    zs ≠ [] → (moqReadVi64NonMinimal : Scanner Byte Empty (BitVec 64 × Bool)) (pre ++ ys) ⟨pre.length, []⟩ =
    .short ⟨pre.length, []⟩) ∧ ∀ p c c', (moqReadVi64NonMinimal : Scanner Byte Empty (BitVec 64 × Bool)) p c = .short c' →
    c' = c := by
  obtain ⟨hform, hmin⟩ := vi64Bytes_form v
  refine ⟨⟨vi64Len v 1 8, rfl, hform, hmin, ?_⟩, fun m form h hne => ?_, fun m ys zs h hne => h.part hne pre [],
    fun p c c' => moqReadVi64NonMinimal_short⟩
  · have hread := hform.read (ε := Empty) pre rest []
    have hshortest : ¬ (2 ≤ vi64Len v 1 8 ∧ v < 1#64 <<< (7 * (vi64Len v 1 8 - 1))) := fun hc =>
      (nonMinimal_iff hform).1 hc rfl
    rw [decide_eq_false hshortest] at hread
    unfold moqAppendVi64
    rw [append_assoc]
    exact hread
  · have hread := h.read (ε := Empty) pre rest []
    rw [decide_eq_true ((nonMinimal_iff h).2 hne)] at hread
    exact hread

end MoqLiveCast
