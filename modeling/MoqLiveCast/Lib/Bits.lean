import Mathlib.Data.List.Induction
import Mathlib.Data.Nat.Bitwise
import Mathlib.Tactic.Ring
/-!
# Bits — numbers as bits, the highest first, and programs that take them from a state

A program takes a word from a state when, wherever the word is the next thing left in it, its result is a value and the
word is gone (`TakesWord`).
-/
namespace MoqLiveCast

/-! ## Numbers -/

def bitsOf : Nat → Nat → List Bool
  | 0, _ => []
  | n + 1, v => v.testBit n :: bitsOf n v

def valueOf (bits : List Bool) : Nat := bits.foldl (fun v b => 2 * v + b.toNat) 0

@[simp] theorem bitsOf_length : ∀ n v : Nat, (bitsOf n v).length = n
  | 0, _ => rfl
  | n + 1, v => congrArg (· + 1) (bitsOf_length n v)

theorem foldl_bitsOf : ∀ n v acc : Nat, (bitsOf n v).foldl (fun v b => 2 * v + b.toNat) acc = acc * 2 ^ n + v % 2 ^ n
  | 0, v, acc => by
    rw [pow_zero, Nat.mul_one, Nat.mod_one]
    rfl
  | n + 1, v, acc => by
    have hmod : v % 2 ^ (n + 1) = v % 2 ^ n + 2 ^ n * (v / 2 ^ n % 2) := Nat.mod_pow_succ
    rw [bitsOf, List.foldl_cons, foldl_bitsOf, Nat.toNat_testBit, hmod, pow_succ]
    ring

theorem valueOf_bitsOf (n v : Nat) : valueOf (bitsOf n v) = v % 2 ^ n := by
  unfold valueOf
  rw [foldl_bitsOf, Nat.zero_mul, Nat.zero_add]

theorem valueOf_snoc (bits : List Bool) (b : Bool) : valueOf (bits ++ [b]) = 2 * valueOf bits + b.toNat := by
  unfold valueOf
  rw [List.foldl_append]
  rfl

theorem valueOf_lt (bits : List Bool) : valueOf bits < 2 ^ bits.length := by
  induction bits using List.reverseRecOn with
  | nil => decide
  | append_singleton bits b ih =>
    have hb := b.toNat_le
    rw [valueOf_snoc, List.length_append, List.length_singleton, pow_succ]
    omega

/-- The code of Exp-Golomb: as many zeros as there are bits behind the first one. -/
def golomb (v : Nat) : List Bool := List.replicate (v + 1).log2 false ++ bitsOf ((v + 1).log2 + 1) (v + 1)

theorem golomb_eq (v : Nat) : golomb v = (List.replicate (v + 1).log2 false ++ [true]) ++ bitsOf (v + 1).log2 (v + 1) ∧
    2 ^ (v + 1).log2 + (v + 1) % 2 ^ (v + 1).log2 = v + 1 := by
  have hle : 2 ^ (v + 1).log2 ≤ v + 1 := Nat.log2_self_le (Nat.succ_ne_zero v)
  have hlt : v + 1 < 2 ^ ((v + 1).log2 + 1) := Nat.lt_log2_self
  rw [pow_succ] at hlt
  have hdiv : (v + 1) / 2 ^ (v + 1).log2 = 1 := by
    apply Nat.div_eq_of_lt_le <;> omega
  constructor
  · have hfirst : (v + 1).testBit (v + 1).log2 = true := by
      rw [Nat.testBit_eq_decide_div_mod_eq, hdiv]
      rfl
    unfold golomb
    rw [bitsOf, hfirst, List.append_assoc]
    rfl
  · have hmod := Nat.div_add_mod (v + 1) (2 ^ (v + 1).log2)
    rw [hdiv] at hmod
    omega

/-! ## Programs -/

section TakesWord

variable {σ β α γ : Type} (left : σ → List β)

/-- **The program takes a word**, and has a value for it. -/
def TakesWord (m : StateM σ α) (word : List β) (a : α) : Prop :=
  ∀ s rest, left s = word ++ rest → ∃ s', m.run s = (a, s') ∧ left s' = rest

variable {left} {m : StateM σ α} {word word' : List β} {a : α} {c : γ}

theorem takesWord_pure (a : α) : TakesWord left (pure a) [] a := fun s _ hleft => ⟨s, rfl, hleft⟩

theorem TakesWord.bind {f : α → StateM σ γ} (hm : TakesWord left m word a) (hf : TakesWord left (f a) word' c) :
    TakesWord left (m >>= f) (word ++ word') c := by
  intro s rest hleft
  rw [List.append_assoc] at hleft
  obtain ⟨mid, hrun, hmid⟩ := hm s _ hleft
  obtain ⟨s', hrun', hs'⟩ := hf mid rest hmid
  refine ⟨s', ?_, hs'⟩
  rw [StateT.run_bind, hrun]
  exact hrun'

theorem TakesWord.bindNil {f : α → StateM σ γ} (hm : TakesWord left m word a) (hf : TakesWord left (f a) [] c) :
    TakesWord left (m >>= f) word c := by
  have hbind := hm.bind hf
  rwa [List.append_nil] at hbind

theorem TakesWord.bindPure (f : α → γ) (hm : TakesWord left m word a) : TakesWord left (m >>= fun x => pure (f x)) word (f a) :=
  hm.bindNil (takesWord_pure (f a))

end TakesWord

end MoqLiveCast
