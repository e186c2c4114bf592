import Mathlib.Algebra.Ring.Nat
import Mathlib.Logic.Function.Basic
import Mathlib.Data.List.Basic
/-!
# Ring — a circular buffer of `N` cells

The buffer keeps the cell the next record goes to and how many records it holds; record `i`, counted from the oldest, is
in the cell `slot i`.
-/
namespace MoqLiveCast

open List

structure Ring (α : Type) (N : Nat) where
  cells : Nat → α
  head : Nat
  count : Nat

namespace Ring

variable {α : Type} {N : Nat}

def slot (r : Ring α N) (i : Nat) : Nat := (r.head + N - r.count + i) % N

def get (r : Ring α N) (i : Nat) : α := r.cells (r.slot i)

def toList (r : Ring α N) : List α := (range r.count).map r.get

def set (r : Ring α N) (idx : Nat) (x : α) : Ring α N := { r with cells := Function.update r.cells idx x }

def push (r : Ring α N) (x : α) : Ring α N := ⟨Function.update r.cells r.head x, (r.head + 1) % N, r.count + 1⟩

def overwrite (r : Ring α N) (x : α) : Ring α N :=
  ⟨Function.update r.cells (r.slot 0) x, (r.slot 0 + 1) % N, r.count⟩

/-- Keep some records, moved to the start of the buffer; a buffer that loses none stays as it is. -/
def compact (r : Ring α N) (keep : α → Bool) : Ring α N :=
  let kept := r.toList.filter keep
  if kept.length < r.count then ⟨fun j => (kept[j]?).getD (r.cells j), kept.length, kept.length⟩ else r

structure Wf (r : Ring α N) : Prop where
  head_lt : r.head < N
  count_le : r.count ≤ N

@[simp] theorem toList_length (r : Ring α N) : r.toList.length = r.count := by simp [toList]

theorem toList_getElem (r : Ring α N) {i : Nat} (h : i < r.toList.length) : r.toList[i] = r.get i := by
  simp [toList]

variable {r : Ring α N}

theorem slot_inj (h : r.Wf) {i j : Nat} (hi : i < r.count) (hj : j < r.count) (he : r.slot i = r.slot j) : i = j := by
  obtain ⟨h1, h2⟩ := h
  unfold slot at he
  rcases Nat.lt_trichotomy i j with hlt | heq | hlt
  · have hd := Nat.dvd_of_mod_eq_zero (Nat.sub_mod_eq_zero_of_mod_eq he.symm)
    have := Nat.le_of_dvd (by omega) hd
    omega
  · exact heq
  · have hd := Nat.dvd_of_mod_eq_zero (Nat.sub_mod_eq_zero_of_mod_eq he)
    have := Nat.le_of_dvd (by omega) hd
    omega

theorem wf_set (h : r.Wf) (idx : Nat) (x : α) : (r.set idx x).Wf := ⟨h.head_lt, h.count_le⟩

theorem get_set (h : r.Wf) {i j : Nat} (hi : i < r.count) (hj : j < r.count) (x : α) :
    (r.set (r.slot i) x).get j = if j = i then x else r.get j := by
  show Function.update r.cells (r.slot i) x (r.slot j) = _
  by_cases hij : j = i
  · rw [hij, if_pos rfl, Function.update_self]
  · rw [if_neg hij, Function.update_of_ne (fun he => hij (slot_inj h hj hi he))]
    rfl

theorem toList_set (h : r.Wf) {i : Nat} (hi : i < r.count) (x : α) : (r.set (r.slot i) x).toList = r.toList.set i x := by
  refine ext_getElem (by simp [set]) (fun j h1 h2 => ?_)
  have hj : j < r.count := by simpa [set] using h1
  rw [toList_getElem, getElem_set, get_set h hi hj, toList_getElem]
  by_cases hij : i = j
  · rw [if_pos hij.symm, if_pos hij]
  · rw [if_neg (Ne.symm hij), if_neg hij]

theorem mem_toList_set {idx : Nat} {x y : α} (h : y ∈ (r.set idx x).toList) :
    (y = x ∧ r.cells idx ∈ r.toList) ∨ y ∈ r.toList := by
  obtain ⟨i, hi, rfl⟩ := List.mem_map.1 h
  show (Function.update r.cells idx x (r.slot i) = x ∧ _) ∨ Function.update r.cells idx x (r.slot i) ∈ r.toList
  by_cases he : r.slot i = idx
  · rw [he, Function.update_self]
    rw [← he]
    exact Or.inl ⟨rfl, mem_map_of_mem hi⟩
  · right
    rw [Function.update_of_ne he]
    exact mem_map_of_mem hi

theorem wf_push (hc : r.count < N) (x : α) : (r.push x).Wf :=
  ⟨Nat.mod_lt _ (by omega), hc⟩

theorem slot_push (h : r.Wf) (hc : r.count < N) (x : α) {i : Nat} (hi : i ≤ r.count) :
    (r.push x).slot i = if i = r.count then r.head else r.slot i := by
  obtain ⟨h1, h2⟩ := h
  show ((r.head + 1) % N + N - (r.count + 1) + i) % N = _
  have hmod : (r.head + 1) % N = if r.head + 1 = N then 0 else r.head + 1 := by
    split
    · rename_i hN; rw [hN, Nat.mod_self]
    · exact Nat.mod_eq_of_lt (by omega)
  have hcell : ∀ a, a < 2 * N → a % N = if a < N then a else a - N := fun a ha => by
    split
    · rename_i hlt; exact Nat.mod_eq_of_lt hlt
    · rw [Nat.mod_eq_sub_mod (by omega), Nat.mod_eq_of_lt (by omega)]
  unfold slot
  rw [hmod]
  split <;> split <;> (repeat rw [hcell _ (by omega)]) <;> (repeat' split) <;> omega

theorem toList_push (h : r.Wf) (hc : r.count < N) (x : α) : (r.push x).toList = r.toList ++ [x] := by
  refine ext_getElem (by simp [push]) (fun j h1 h2 => ?_)
  have hj : j ≤ r.count := by
    have : j < r.count + 1 := by simpa [push] using h1
    omega
  rw [toList_getElem]
  show Function.update r.cells r.head x ((r.push x).slot j) = _
  rw [slot_push h hc x hj]
  by_cases hlast : j = r.count
  · rw [if_pos hlast, Function.update_self, getElem_append_right (by simp [hlast])]
    simp
  · have hlt : j < r.count := by omega
    have hne : r.slot j ≠ r.head := by
      have h3 := h.head_lt
      unfold slot
      intro he
      by_cases hlow : r.head + N - r.count + j < N
      · rw [Nat.mod_eq_of_lt hlow] at he
        omega
      · rw [Nat.mod_eq_sub_mod (by omega), Nat.mod_eq_of_lt (by omega)] at he
        omega
    rw [if_neg hlast, Function.update_of_ne hne, getElem_append_left (by simpa using hlt), toList_getElem]
    rfl

theorem wf_overwrite (h : r.Wf) (x : α) : (r.overwrite x).Wf :=
  ⟨Nat.mod_lt _ (by have := h.head_lt; omega), h.count_le⟩

theorem slot_full (hc : r.count = N) (i : Nat) : r.slot i = (r.head + i) % N := by
  unfold slot
  rw [hc, Nat.add_sub_cancel]

theorem slot_overwrite (hc : r.count = N) (x : α) (i : Nat) : (r.overwrite x).slot i = r.slot (i + 1) := by
  have h : (r.overwrite x).count = N := hc
  rw [slot_full h, slot_full hc]
  show ((r.slot 0 + 1) % N + i) % N = _
  rw [slot_full hc, Nat.mod_add_mod, Nat.add_assoc, Nat.mod_add_mod, Nat.add_comm 1 i, Nat.add_zero]

theorem toList_overwrite (h : r.Wf) (hc : r.count = N) (x : α) : (r.overwrite x).toList = r.toList.tail ++ [x] := by
  have hN := h.head_lt
  have h0 : r.slot 0 = r.head := by rw [slot_full hc, Nat.add_zero, Nat.mod_eq_of_lt hN]
  have hslot : ∀ i, (r.overwrite x).slot i = (r.head + 1 + i) % N := fun i => by
    show ((r.slot 0 + 1) % N + N - r.count + i) % N = _
    rw [h0, hc, Nat.add_sub_cancel, Nat.mod_add_mod]
  refine ext_getElem ?_ (fun j h1 h2 => ?_)
  · simp only [toList_length, length_append, length_tail, length_singleton]
    show r.count = r.count - 1 + 1
    omega
  · have hj : j < N := by
      have : j < r.count := by simpa [overwrite] using h1
      omega
    rw [toList_getElem]
    show Function.update r.cells (r.slot 0) x ((r.overwrite x).slot j) = _
    rw [hslot, h0]
    by_cases hlast : j = N - 1
    · have he : (r.head + 1 + j) % N = r.head := by
        rw [show r.head + 1 + j = r.head + N by omega, Nat.add_mod_right, Nat.mod_eq_of_lt hN]
      rw [he, Function.update_self, getElem_append_right (by simp; omega)]
      simp
    · have hne : (r.head + 1 + j) % N ≠ r.head := fun he => by
        by_cases hlow : r.head + 1 + j < N
        · rw [Nat.mod_eq_of_lt hlow] at he
          omega
        · rw [Nat.mod_eq_sub_mod (by omega), Nat.mod_eq_of_lt (by omega)] at he
          omega
      rw [Function.update_of_ne hne, getElem_append_left (by simp; omega), getElem_tail, toList_getElem]
      show r.cells _ = r.cells (r.slot (j + 1))
      rw [slot_full hc, Nat.add_assoc, Nat.add_comm 1 j]

theorem wf_compact (h : r.Wf) (keep : α → Bool) : (r.compact keep).Wf := by
  have hc := h.count_le
  unfold compact
  dsimp only
  split
  · rename_i hlt
    constructor
    · show (r.toList.filter keep).length < N
      omega
    · show (r.toList.filter keep).length ≤ N
      omega
  · exact h

theorem compact_count_le (r : Ring α N) (keep : α → Bool) : (r.compact keep).count ≤ r.count := by
  unfold compact
  dsimp only
  split
  · rename_i hlt
    exact Nat.le_of_lt hlt
  · exact Nat.le_refl _

theorem toList_compact (h : r.Wf) (keep : α → Bool) : (r.compact keep).toList = r.toList.filter keep := by
  unfold compact
  dsimp only
  split
  · rename_i hlt
    have hc := h.count_le
    refine ext_getElem (by simp) (fun j h1 h2 => ?_)
    rw [toList_getElem]
    show ((r.toList.filter keep)[((r.toList.filter keep).length + N - (r.toList.filter keep).length + j) % N]?).getD _ = _
    rw [Nat.add_sub_cancel_left, Nat.add_mod_left, Nat.mod_eq_of_lt (by omega), List.getElem?_eq_getElem h2]
    rfl
  · rename_i hge
    have hlen : (r.toList.filter keep).length = r.toList.length := by
      have := length_filter_le keep r.toList
      rw [toList_length] at this ⊢
      omega
    exact (List.filter_eq_self.2 (List.length_filter_eq_length_iff.1 hlen)).symm

theorem compact_of_all {keep : α → Bool} (h : ∀ x ∈ r.toList, keep x = true) : r.compact keep = r := by
  unfold compact
  dsimp only
  rw [List.filter_eq_self.2 h, toList_length, if_neg (Nat.lt_irrefl _)]

theorem sum_compact (w : α → Nat) (h : r.Wf) (keep : α → Bool) (hw : ∀ x, keep x = false → w x = 0) :
    ((r.compact keep).toList.map w).sum = (r.toList.map w).sum := by
  rw [toList_compact h]
  induction r.toList with
  | nil => rfl
  | cons x l ih =>
    cases hx : keep x with
    | true => rw [filter_cons_of_pos hx, map_cons, map_cons, sum_cons, sum_cons, ih]
    | false => rw [filter_cons_of_neg (by simp [hx]), map_cons, sum_cons, ih, hw x hx, Nat.zero_add]

theorem sum_set (w : α → Nat) (h : r.Wf) {i : Nat} (hi : i < r.count) (x : α) :
    ((r.set (r.slot i) x).toList.map w).sum + w (r.get i) = (r.toList.map w).sum + w x := by
  have hlist : ∀ (l : List α) (i : Nat) (hi : i < l.length), ((l.set i x).map w).sum + w l[i] = (l.map w).sum + w x := by
    intro l
    induction l with
    | nil => exact fun i hi => absurd hi (Nat.not_lt_zero i)
    | cons a l ih =>
      intro i hi
      cases i with
      | zero => simp only [set_cons_zero, map_cons, sum_cons, getElem_cons_zero]; omega
      | succ i =>
        have := ih i (by simpa using hi)
        simp only [set_cons_succ, map_cons, sum_cons, getElem_cons_succ]
        omega
  have := hlist r.toList i (by simpa using hi)
  rwa [toList_getElem, ← toList_set h hi] at this

end Ring
end MoqLiveCast
