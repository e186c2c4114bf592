import Mathlib.Data.List.Infix
/-!
# Outbox — items on several lines, taken by a transport one by one or waiting in one queue

An item belongs to the line `key` tells.  A line's items are those taken, then those that wait.  Items are taken from the
front, or posted to the end; a line that is dead loses what it has at the front.
-/
namespace MoqLiveCast

open List

structure Outbox (α : Type) where
  sent : List α := []
  pending : List α := []
deriving DecidableEq

namespace Outbox

section

variable {α ι : Type} [DecidableEq ι] (key : α → ι)

def give (o : Outbox α) (x : α) : Outbox α := { o with sent := o.sent ++ [x] }

def post (o : Outbox α) (x : α) : Outbox α := { o with pending := o.pending ++ [x] }

def pass (o : Outbox α) : Outbox α := ⟨o.sent ++ o.pending.take 1, o.pending.drop 1⟩

/-- What is of the line `i` at the front goes. -/
def cut (o : Outbox α) (i : ι) : Outbox α := { o with pending := o.pending.dropWhile fun x => key x = i }

def clear (o : Outbox α) : Outbox α := { o with pending := [] }

def line (o : Outbox α) (i : ι) : List α := (o.sent ++ o.pending).filter fun x => key x = i

def handed (o : Outbox α) (i : ι) : List α := o.sent.filter fun x => key x = i

theorem line_eq (o : Outbox α) (i : ι) : o.line key i = o.handed key i ++ o.pending.filter fun x => key x = i :=
  filter_append _ _

theorem handed_le_line (o : Outbox α) (i : ι) : o.handed key i <+: o.line key i := by
  rw [line_eq]
  exact prefix_append _ _

theorem line_post (o : Outbox α) (x : α) (i : ι) : (o.post x).line key i = o.line key i ++ if key x = i then [x] else [] := by
  simp only [line, post, filter_append, append_assoc, filter_singleton]
  by_cases h : key x = i <;> simp [h]

theorem handed_give (o : Outbox α) (x : α) (i : ι) :
    (o.give x).handed key i = o.handed key i ++ if key x = i then [x] else [] := by
  simp only [handed, give, filter_append, filter_singleton]
  by_cases h : key x = i <;> simp [h]

theorem line_give {o : Outbox α} {x : α} (h : ∀ y ∈ o.pending, key y ≠ key x) (i : ι) :
    (o.give x).line key i = o.line key i ++ if key x = i then [x] else [] := by
  rw [line_eq, line_eq, handed_give]
  by_cases hi : key x = i
  · have hnone : (o.pending.filter fun y => key y = i) = [] := by
      apply List.filter_eq_nil_iff.2
      intro y hy
      simpa [← hi] using h y hy
    simp [give, hi, hnone]
  · simp [give, hi]

@[simp] theorem line_pass (o : Outbox α) (i : ι) : o.pass.line key i = o.line key i := by
  unfold line pass
  rw [append_assoc, take_append_drop]

theorem handed_pass (o : Outbox α) (i : ι) : o.handed key i <+: o.pass.handed key i := by
  simp only [handed, pass, filter_append]
  exact prefix_append _ _

theorem line_clear (o : Outbox α) (i : ι) : o.clear.line key i = o.handed key i := by
  simp [line, handed, clear]

theorem filter_dropWhile_ne (l : List α) {i j : ι} (h : j ≠ i) :
    (l.dropWhile fun x => key x = i).filter (fun x => key x = j) = l.filter fun x => key x = j := by
  induction l with
  | nil => rfl
  | cons x l ih =>
    by_cases hx : key x = i
    · have hne : ¬key x = j := fun he => h (he.symm.trans hx)
      rw [dropWhile_cons_of_pos (by simpa using hx), ih, filter_cons_of_neg (by simpa using hne)]
    · rw [dropWhile_cons_of_neg (by simpa using hx)]

theorem line_cut_ne (o : Outbox α) {i j : ι} (h : j ≠ i) : (o.cut key i).line key j = o.line key j := by
  rw [line_eq, line_eq]
  simp only [cut, handed, filter_dropWhile_ne key o.pending h]

@[simp] theorem handed_cut (o : Outbox α) (i j : ι) : (o.cut key i).handed key j = o.handed key j := rfl

end

section Ordered

variable {α : Type} (key : α → Nat)

/-- **What waits is in the order of its lines**, so a line's items are in one piece. -/
def Ordered (o : Outbox α) : Prop := o.pending.Pairwise fun x y => key x ≤ key y

theorem filter_dropWhile_self : ∀ {l : List α} {i : Nat}, l.Pairwise (fun x y => key x ≤ key y) → (∀ x ∈ l, i ≤ key x) →
    (l.dropWhile fun x => key x = i).filter (fun x => key x = i) = []
  | [], _, _, _ => rfl
  | x :: l, i, h, hle => by
    by_cases hx : key x = i
    · have ih := filter_dropWhile_self (i := i) h.of_cons fun y hy => hle y (mem_cons_of_mem _ hy)
      simpa [hx] using ih
    · have hlt : i < key x := Nat.lt_of_le_of_ne (hle x mem_cons_self) (Ne.symm hx)
      have hnone : ∀ y ∈ x :: l, ¬ key y = i := by
        intro y hy
        rcases List.mem_cons.1 hy with rfl | hy
        · exact hx
        · have := rel_of_pairwise_cons h hy
          omega
      rw [dropWhile_cons_of_neg (by simpa using hx), List.filter_eq_nil_iff.2 (by simpa using hnone)]

theorem line_cut_front {o : Outbox α} (h : o.Ordered key) {x : α} {xs : List α} (hp : o.pending = x :: xs) :
    (o.cut key (key x)).line key (key x) = o.handed key (key x) := by
  rw [line_eq, handed_cut]
  have hnone := filter_dropWhile_self key (i := key x) h fun y hy => by
    rw [hp] at hy
    rcases List.mem_cons.1 hy with rfl | hy
    · exact Nat.le_refl _
    · unfold Ordered at h
      rw [hp] at h
      exact rel_of_pairwise_cons h hy
  rw [cut, hnone, append_nil]

theorem line_cut_le {o : Outbox α} (h : o.Ordered key) {x : α} {xs : List α} (hp : o.pending = x :: xs) (i : Nat) :
    (o.cut key (key x)).line key i <+: o.line key i := by
  by_cases hi : i = key x
  · rw [hi, line_cut_front key h hp]
    exact handed_le_line key o _
  · rw [line_cut_ne key o hi]

theorem Ordered.post {o : Outbox α} (h : o.Ordered key) {x : α} (hx : ∀ y ∈ o.pending, key y ≤ key x) :
    (o.post x).Ordered key := by
  unfold Ordered Outbox.post
  exact List.pairwise_append.2 ⟨h, pairwise_singleton _ _, fun y hy z hz => by
    rw [List.mem_singleton.1 hz]
    exact hx y hy⟩

theorem Ordered.suffix {o o' : Outbox α} (h : o.Ordered key) (hs : o'.pending <:+ o.pending) : o'.Ordered key :=
  List.Pairwise.sublist hs.sublist h

end Ordered
end Outbox
end MoqLiveCast
