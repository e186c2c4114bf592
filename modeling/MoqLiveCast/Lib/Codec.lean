import Mathlib.Data.List.Basic
/-!
# Codec — readers of a byte string and what they read

A reader takes a value from the front of a string and leaves the rest.  `Reads` says that it takes exactly these bytes
for this value, whatever follows; what a composed reader reads is composed of what its parts read.
-/
namespace MoqLiveCast

abbrev Reader (β α : Type) := List β → Option (α × List β)

/-- **The reader takes `bytes` for `a`**, whatever follows. -/
def Reads {β α : Type} (rd : Reader β α) (a : α) (bytes : List β) : Prop := ∀ rest, rd (bytes ++ rest) = some (a, rest)

namespace Reader

variable {β α γ δ : Type}

def done (a : α) : Reader β α := fun data => some (a, data)

def andThen (ra : Reader β α) (f : α → Reader β γ) : Reader β γ := fun data =>
  (ra data).bind fun (a, rest) => f a rest

def map (f : α → γ) (ra : Reader β α) : Reader β γ := fun data => (ra data).map fun (a, rest) => (f a, rest)

def pair (ra : Reader β α) (rb : Reader β γ) : Reader β (α × γ) := ra.andThen fun a => rb.map fun b => (a, b)

def take (n : Nat) : Reader β (List β) := fun data => if data.length < n then none else some (data.take n, data.drop n)

def all : Reader β (List β) := fun data => some (data, [])

end Reader

section Reads

variable {β α γ : Type} {ra : Reader β α} {a : α} {xs ys : List β}

theorem Reads.andThen {f : α → Reader β γ} {c : γ} (ha : Reads ra a xs) (hf : Reads (f a) c ys) :
    Reads (ra.andThen f) c (xs ++ ys) := by
  intro rest
  unfold Reader.andThen
  rw [List.append_assoc, ha, Option.bind_some]
  exact hf rest

theorem Reads.map (f : α → γ) (ha : Reads ra a xs) : Reads (ra.map f) (f a) xs := by
  intro rest
  unfold Reader.map
  rw [ha, Option.map_some]

theorem Reads.pair {rb : Reader β γ} {b : γ} (ha : Reads ra a xs) (hb : Reads rb b ys) :
    Reads (ra.pair rb) (a, b) (xs ++ ys) := ha.andThen (hb.map fun b => (a, b))

theorem reads_take (xs : List β) : Reads (Reader.take xs.length) xs xs := by
  intro rest
  unfold Reader.take
  rw [List.length_append, if_neg (Nat.not_lt.2 (Nat.le_add_right _ _)), List.take_left, List.drop_left]

/-! ## How much is taken -/

def Takes (rd : Reader β α) (lo hi : Nat) : Prop :=
  ∀ ⦃data : List β⦄ ⦃a : α⦄ ⦃rest : List β⦄, rd data = some (a, rest) →
    rest.length + lo ≤ data.length ∧ data.length ≤ rest.length + hi

theorem takes_take (n : Nat) : Takes (Reader.take n : Reader β (List β)) n n := by
  intro data a rest h
  unfold Reader.take at h
  split at h
  · cases h
  · cases h
    rw [List.length_drop]
    omega

theorem takes_done (a : α) : Takes (Reader.done a : Reader β α) 0 0 := by
  intro data a rest h
  cases h
  exact ⟨Nat.le_refl _, Nat.le_refl _⟩

theorem Takes.map {lo hi : Nat} (f : α → γ) (h : Takes ra lo hi) : Takes (ra.map f) lo hi := by
  intro data c rest hr
  unfold Reader.map at hr
  obtain ⟨⟨a, rest'⟩, ha, heq⟩ := Option.map_eq_some_iff.1 hr
  cases heq
  exact h ha

theorem Reader.andThen_eq_some {f : α → Reader β γ} {data rest : List β} {c : γ} :
    ra.andThen f data = some (c, rest) ↔ ∃ a mid, ra data = some (a, mid) ∧ f a mid = some (c, rest) := by
  unfold Reader.andThen
  rw [Option.bind_eq_some_iff]
  constructor
  · rintro ⟨⟨a, mid⟩, ha, hf⟩
    exact ⟨a, mid, ha, hf⟩
  · rintro ⟨a, mid, ha, hf⟩
    exact ⟨(a, mid), ha, hf⟩

def Shrinks (rd : Reader β α) : Prop :=
  ∀ ⦃data : List β⦄ ⦃a : α⦄ ⦃rest : List β⦄, rd data = some (a, rest) → rest.length ≤ data.length

theorem Takes.shrinks {lo hi : Nat} (h : Takes ra lo hi) : Shrinks ra := fun _ _ _ hr =>
  Nat.le_trans (Nat.le_add_right _ _) (h hr).1

theorem shrinks_take (n : Nat) : Shrinks (Reader.take n : Reader β (List β)) := (takes_take n).shrinks

theorem shrinks_done (a : α) : Shrinks (Reader.done a : Reader β α) := (takes_done a).shrinks

theorem shrinks_all : Shrinks (Reader.all : Reader β (List β)) := by
  intro data a rest h
  cases h
  exact Nat.zero_le _

theorem Shrinks.andThen {f : α → Reader β γ} (ha : Shrinks ra) (hf : ∀ a, Shrinks (f a)) : Shrinks (ra.andThen f) := by
  intro data c rest h
  obtain ⟨a, mid, h1, h2⟩ := Reader.andThen_eq_some.1 h
  exact Nat.le_trans (hf a h2) (ha h1)

theorem Shrinks.map (f : α → γ) (h : Shrinks ra) : Shrinks (ra.map f) := by
  intro data c rest hr
  unfold Reader.map at hr
  obtain ⟨⟨a, rest'⟩, ha, heq⟩ := Option.map_eq_some_iff.1 hr
  cases heq
  exact h ha

theorem Shrinks.pair {rb : Reader β γ} (ha : Shrinks ra) (hb : Shrinks rb) : Shrinks (ra.pair rb) :=
  ha.andThen fun _ => hb.map _

end Reads
end MoqLiveCast
