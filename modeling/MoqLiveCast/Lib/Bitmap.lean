import MoqLiveCast.Lib.Mem
import Mathlib.Logic.Function.Basic
/-!
# Bitmap — bits in an array of bytes

Bit `i` is bit `i % 8` of byte `i / 8`.  A range of bits is set one by one (`bit_setRange`); the whole map is moved
down by whole bytes and by less than a byte (`bit_dropBytes`, `bit_shiftBits`).
-/
namespace MoqLiveCast

abbrev Bitmap := Nat → Byte

namespace Bitmap

def empty : Bitmap := fun _ => 0

def bit (bm : Bitmap) (i : Nat) : Bool := (bm (i / 8)).getLsbD (i % 8)

def setBit (bm : Bitmap) (i : Nat) : Bitmap := Function.update bm (i / 8) (bm (i / 8) ||| (1#8 <<< (i % 8)))

def setRange (bm : Bitmap) (off len : Nat) : Bitmap := (List.range' off len).foldl setBit bm

/-- Move the bytes of a map of `size` bytes down by `k`, with zeros behind them. -/
def dropBytes (size : Nat) (bm : Bitmap) (k : Nat) : Bitmap :=
  fun i => if i < size - k then bm (i + k) else if i < size then 0 else bm i

/-- One turn of the loop of `shiftBits`: byte `i` takes its bits from `r` on and the first `r` bits of the next byte. -/
def shiftByte (r : Nat) (bm : Bitmap) (i : Nat) : Bitmap :=
  Function.update bm i ((bm i >>> r) ||| (bm (i + 1) <<< (8 - r)))

/-- Move the bits of a map of `size` bytes down by `r < 8`, byte after byte. -/
def shiftBits (size : Nat) (bm : Bitmap) (r : Nat) : Bitmap :=
  let bm := (List.range' 0 (size - 1)).foldl (shiftByte r) bm
  Function.update bm (size - 1) (bm (size - 1) >>> r)

/-! ## Setting bits -/

@[simp] theorem bit_empty (i : Nat) : empty.bit i = false := by
  unfold bit empty
  exact BitVec.getLsbD_zero

theorem bit_setBit (bm : Bitmap) (i j : Nat) : (bm.setBit i).bit j = (decide (j = i) || bm.bit j) := by
  unfold bit setBit
  by_cases hbyte : j / 8 = i / 8
  · rw [hbyte, Function.update_self, BitVec.getLsbD_or, BitVec.getLsbD_shiftLeft, BitVec.getLsbD_one]
    have hj : j % 8 < 8 := Nat.mod_lt _ (by decide)
    by_cases hji : j = i
    · subst hji
      simp [hj]
    · have hne : j % 8 ≠ i % 8 := by omega
      have hbits : ¬ (i % 8 ≤ j % 8 ∧ j % 8 - i % 8 = 0) := by omega
      simp only [hji, decide_false, Bool.false_or]
      by_cases hlt : j % 8 < i % 8
      · simp [hlt]
      · have : j % 8 - i % 8 ≠ 0 := by omega
        simp [this]
  · have hji : j ≠ i := fun h => hbyte (by rw [h])
    rw [Function.update_of_ne hbyte]
    simp [hji]

theorem bit_setRange (bm : Bitmap) (off : Nat) : ∀ (len j : Nat),
    (bm.setRange off len).bit j = (decide (off ≤ j ∧ j < off + len) || bm.bit j)
  | 0, j => by
    have : ¬ (off ≤ j ∧ j < off) := by omega
    simp [setRange, this]
  | len + 1, j => by
    unfold setRange
    rw [List.range'_concat, List.foldl_append, List.foldl_cons, List.foldl_nil, bit_setBit]
    have ih := bit_setRange bm off len j
    unfold setRange at ih
    rw [ih, Nat.one_mul, ← Bool.or_assoc, ← Bool.decide_or]
    congr 2
    simp only [eq_iff_iff]
    omega

/-! ## Moving the map down -/

theorem bit_dropBytes (size : Nat) (bm : Bitmap) {k i : Nat} (hk : k ≤ size) (hi : i < 8 * size) :
    (bm.dropBytes size k).bit i = (decide (i + 8 * k < 8 * size) && bm.bit (i + 8 * k)) := by
  unfold bit dropBytes
  have hdiv : (i + 8 * k) / 8 = i / 8 + k := by omega
  have hmod : (i + 8 * k) % 8 = i % 8 := by omega
  rw [hdiv, hmod]
  by_cases h : i + 8 * k < 8 * size
  · rw [if_pos (by omega)]
    simp [h]
  · rw [if_neg (by omega), if_pos (by omega)]
    simp [h]

theorem foldl_shiftByte (r : Nat) (bm : Bitmap) : ∀ (n j : Nat), (List.range' 0 n).foldl (shiftByte r) bm j =
    if j < n then (bm j >>> r) ||| (bm (j + 1) <<< (8 - r)) else bm j
  | 0, j => by simp
  | n + 1, j => by
    rw [List.range'_concat, List.foldl_append, List.foldl_cons, List.foldl_nil, Nat.one_mul, Nat.zero_add]
    unfold shiftByte
    by_cases hj : j = n
    · rw [hj, Function.update_self, if_pos (Nat.lt_succ_self n)]
      have hself := foldl_shiftByte r bm n n
      have hnext := foldl_shiftByte r bm n (n + 1)
      unfold shiftByte at hself hnext
      rw [hself, hnext, if_neg (Nat.lt_irrefl n), if_neg (by omega)]
    · rw [Function.update_of_ne hj]
      have ih := foldl_shiftByte r bm n j
      unfold shiftByte at ih
      rw [ih]
      by_cases hlt : j < n
      · rw [if_pos hlt, if_pos (by omega)]
      · rw [if_neg hlt, if_neg (by omega)]

theorem shiftBits_apply {size : Nat} (hsize : 0 < size) (bm : Bitmap) (r : Nat) {j : Nat} (hj : j < size) :
    bm.shiftBits size r j = if j + 1 < size then (bm j >>> r) ||| (bm (j + 1) <<< (8 - r)) else bm j >>> r := by
  unfold shiftBits
  by_cases hlast : j = size - 1
  · rw [hlast, Function.update_self, foldl_shiftByte, if_neg (Nat.lt_irrefl _), if_neg (by omega)]
  · rw [Function.update_of_ne hlast, foldl_shiftByte, if_pos (by omega), if_pos (by omega)]

theorem bit_shiftBits {size : Nat} (hsize : 0 < size) (bm : Bitmap) {r i : Nat} (hr : 0 < r) (hr8 : r < 8)
    (hi : i < 8 * size) : (bm.shiftBits size r).bit i = (decide (i + r < 8 * size) && bm.bit (i + r)) := by
  unfold bit
  rw [shiftBits_apply hsize bm r (by omega)]
  have hi8 : i % 8 < 8 := Nat.mod_lt _ (by decide)
  by_cases hsame : i % 8 + r < 8
  · have hdiv : (i + r) / 8 = i / 8 := by omega
    have hmod : (i + r) % 8 = i % 8 + r := by omega
    have hin : i + r < 8 * size := by omega
    have hhigh : i % 8 < 8 - r := by omega
    rw [hdiv, hmod]
    split
    · rw [BitVec.getLsbD_or, BitVec.getLsbD_ushiftRight, BitVec.getLsbD_shiftLeft, Nat.add_comm r]
      simp [hin, hhigh]
    · rw [BitVec.getLsbD_ushiftRight, Nat.add_comm r]
      simp [hin]
  · have hdiv : (i + r) / 8 = i / 8 + 1 := by omega
    have hmod : (i + r) % 8 = i % 8 - (8 - r) := by omega
    have hlow : (bm (i / 8) >>> r).getLsbD (i % 8) = false := by
      rw [BitVec.getLsbD_ushiftRight]
      exact BitVec.getLsbD_of_ge _ _ (by omega)
    rw [hdiv, hmod]
    split
    · have hin : i + r < 8 * size := by omega
      have hhigh : ¬ i % 8 < 8 - r := by omega
      rw [BitVec.getLsbD_or, hlow, BitVec.getLsbD_shiftLeft]
      simp [hin, hi8, hhigh]
    · have hout : ¬ i + r < 8 * size := by omega
      rw [hlow]
      simp [hout]

end Bitmap
end MoqLiveCast
