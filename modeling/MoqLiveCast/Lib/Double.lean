import Mathlib.Data.Int.Log
import Mathlib.Data.Rat.Floor
import Mathlib.Tactic.Linarith
/-!
# Double — the arithmetic of doubles over the rationals

A double is the rational it stands for, and an operation is the exact one rounded to 53 bits, half to even.  Exponents
have no bounds, so neither overflow nor underflow is modelled.
-/
namespace MoqLiveCast

def roundHalfEven (x : ℚ) : ℤ :=
  if x - ⌊x⌋ < 1 / 2 then ⌊x⌋ else if 1 / 2 < x - ⌊x⌋ then ⌊x⌋ + 1 else if ⌊x⌋ % 2 = 0 then ⌊x⌋ else ⌊x⌋ + 1

def ulp (x : ℚ) : ℚ := 2 ^ (Int.log 2 |x| - 52)

def double (x : ℚ) : ℚ := roundHalfEven (x / ulp x) * ulp x

theorem roundHalfEven_le (x : ℚ) : (roundHalfEven x : ℚ) ≤ x + 1 / 2 := by
  have hfloor := Int.floor_le x
  unfold roundHalfEven
  split
  · linarith
  · rename_i hlow
    have hup : ((⌊x⌋ + 1 : ℤ) : ℚ) ≤ x + 1 / 2 := by
      push_cast
      linarith
    split
    · exact hup
    · split
      · linarith
      · exact hup

theorem roundHalfEven_nonneg {x : ℚ} (h : 0 ≤ x) : 0 ≤ roundHalfEven x := by
  have hfloor : 0 ≤ ⌊x⌋ := Int.floor_nonneg.2 h
  unfold roundHalfEven
  split
  · exact hfloor
  · split
    · exact Int.le_add_one hfloor
    · split
      · exact hfloor
      · exact Int.le_add_one hfloor

theorem ulp_pos (x : ℚ) : 0 < ulp x := zpow_pos (by decide) _

theorem ulp_le {x : ℚ} (h : 0 < x) : ulp x ≤ x / 2 ^ 52 := by
  have hlog : ((2 : ℕ) : ℚ) ^ Int.log 2 x ≤ x := Int.zpow_log_le_self (by decide) h
  unfold ulp
  rw [abs_of_pos h, zpow_sub₀ (by norm_num)]
  norm_num at hlog ⊢
  linarith

theorem double_nonneg {x : ℚ} (h : 0 ≤ x) : 0 ≤ double x := by
  have hround := roundHalfEven_nonneg (div_nonneg h (ulp_pos x).le)
  unfold double
  have hcast : (0 : ℚ) ≤ roundHalfEven (x / ulp x) := by exact_mod_cast hround
  exact mul_nonneg hcast (ulp_pos x).le

theorem double_le {x : ℚ} (h : 0 ≤ x) : double x ≤ x * (1 + 1 / 2 ^ 53) := by
  rcases h.eq_or_lt with rfl | hpos
  · have hzero : double 0 = 0 := by decide +kernel
    rw [hzero]
    norm_num
  · have hulp := ulp_pos x
    have hround := mul_le_mul_of_nonneg_right (roundHalfEven_le (x / ulp x)) hulp.le
    rw [add_mul, div_mul_cancel₀ x hulp.ne'] at hround
    have hle := ulp_le hpos
    unfold double
    norm_num at hround hle ⊢
    linarith

end MoqLiveCast
