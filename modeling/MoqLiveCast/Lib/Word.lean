import Mathlib.Algebra.Ring.Nat
/-!
# Word — `uint64_t` subtraction on naturals

The 64-bit counters of the modelled code are naturals: what is added to them never reaches `2^64`.  What can wrap
is a subtraction, and a sum taken to the modulus on purpose; both are written out.
-/
namespace MoqLiveCast

def wordSize : Nat := 18446744073709551616

def add64 (a b : Nat) : Nat := (a + b) % wordSize

def sub64 (a b : Nat) : Nat := (a + (wordSize - b % wordSize)) % wordSize

def toInt32 (n : Nat) : Int := (BitVec.ofNat 32 n).toInt

def INT_MAX : Nat := 2147483647

theorem toInt32_of_le {n : Nat} (h : n ≤ INT_MAX) : toInt32 n = n := by
  unfold toInt32 INT_MAX at *
  rw [BitVec.toInt_eq_toNat_of_lt]
  · rw [BitVec.toNat_ofNat, Nat.mod_eq_of_lt (by omega)]
  · rw [BitVec.toNat_ofNat]
    omega

theorem sub64_of_le {a b : Nat} (h : b ≤ a) (ha : a < wordSize) : sub64 a b = a - b := by
  unfold sub64 wordSize at *
  omega

theorem sub64_lt (a b : Nat) : sub64 a b < wordSize := Nat.mod_lt _ (by decide)

theorem add64_lt (a b : Nat) : add64 a b < wordSize := Nat.mod_lt _ (by decide)

theorem sub64_cast (a b : Nat) : ((sub64 a b : Nat) : Int) = ((a : Int) - b) % (wordSize : Int) := by
  unfold sub64 wordSize
  omega

end MoqLiveCast
