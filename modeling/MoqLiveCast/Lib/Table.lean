import Mathlib.Algebra.Ring.Nat
import Mathlib.Data.List.Nodup
import Mathlib.Data.List.Perm.Basic
/-!
# Table — a list of records looked up by key

The pointer arrays of the modelled code are lists of records; a record is found by its key and a write through its
pointer replaces it in place.
-/
namespace MoqLiveCast

open List

section Table

variable {κ ρ : Type} [DecidableEq κ] (key : ρ → κ)

def lookup (k : κ) (l : List ρ) : Option ρ := l.find? (fun r => decide (key r = k))

def store (r : ρ) (l : List ρ) : List ρ := l.map (fun x => if key x = key r then r else x)

theorem lookup_key {k : κ} {l : List ρ} {r : ρ} (h : lookup key k l = some r) : key r = k := by
  simpa using List.find?_some h

theorem lookup_mem {k : κ} {l : List ρ} {r : ρ} (h : lookup key k l = some r) : r ∈ l := List.mem_of_find?_eq_some h

theorem lookup_of_mem {r : ρ} : ∀ {l : List ρ}, (l.map key).Nodup → r ∈ l → lookup key (key r) l = some r
  | x :: l, hnd, h => by
    rw [map_cons, nodup_cons] at hnd
    unfold lookup
    rw [List.find?_cons]
    rcases List.mem_cons.1 h with rfl | h
    · simp
    · have hx : key x ≠ key r := fun he => hnd.1 (he ▸ mem_map_of_mem h)
      simp only [hx, decide_false]
      exact lookup_of_mem hnd.2 h

theorem lookup_eq_none_iff {k : κ} {l : List ρ} : lookup key k l = none ↔ ∀ r ∈ l, key r ≠ k := by
  simp [lookup]

@[simp] theorem store_keys (r : ρ) (l : List ρ) : (store key r l).map key = l.map key := by
  rw [store, map_map]
  refine map_congr_left (fun x _ => ?_)
  by_cases h : key x = key r <;> simp [h]

theorem lookup_store_self {r r' : ρ} : ∀ {l : List ρ}, lookup key (key r) l = some r' →
    lookup key (key r) (store key r l) = some r
  | x :: l, h => by
    unfold lookup store at *
    rw [map_cons, List.find?_cons]
    rw [List.find?_cons] at h
    by_cases hx : key x = key r
    · simp [hx]
    · simp only [hx, decide_false, if_false] at h ⊢
      exact lookup_store_self h

theorem lookup_store_ne {r : ρ} {k : κ} (hk : k ≠ key r) : ∀ (l : List ρ), lookup key k (store key r l) = lookup key k l
  | [] => rfl
  | x :: l => by
    have ih := lookup_store_ne hk l
    unfold lookup store at *
    rw [map_cons, List.find?_cons, List.find?_cons, ih]
    by_cases hx : key x = key r
    · simp only [hx, if_true, Ne.symm hk, decide_false]
    · simp only [hx, if_false]

theorem mem_store {r x : ρ} {l : List ρ} (h : x ∈ store key r l) : x = r ∨ x ∈ l := by
  obtain ⟨y, hy, rfl⟩ := List.mem_map.1 h
  split
  · exact Or.inl rfl
  · exact Or.inr hy

theorem lookup_map {f : ρ → ρ} (hf : ∀ r, key (f r) = key r) (k : κ) (l : List ρ) :
    lookup key k (l.map f) = (lookup key k l).map f := by
  unfold lookup
  rw [List.find?_map]
  congr 2
  funext r
  simp [hf]

theorem lookup_append_new {k : κ} {l : List ρ} {r : ρ} (h : lookup key (key r) l = none) :
    lookup key k (l ++ [r]) = if k = key r then some r else lookup key k l := by
  unfold lookup at *
  rw [List.find?_append]
  by_cases hk : k = key r
  · subst hk
    rw [h, if_pos rfl]
    simp
  · rw [if_neg hk]
    have : List.find? (fun r => decide (key r = k)) [r] = none := by simp [Ne.symm hk]
    rw [this, Option.or_none]

theorem sum_store (w : ρ → Nat) {r r' : ρ} : ∀ {l : List ρ}, (l.map key).Nodup → lookup key (key r) l = some r' →
    ((store key r l).map w).sum + w r' = (l.map w).sum + w r
  | x :: l, hnd, h => by
    rw [map_cons, nodup_cons] at hnd
    unfold lookup store at *
    rw [List.find?_cons] at h
    rw [map_cons, map_cons, sum_cons, map_cons, sum_cons]
    by_cases hx : key x = key r
    · simp only [hx, decide_true, Option.some.injEq, if_true] at h ⊢
      have htail : l.map (fun y => if key y = key r then r else y) = l := by
        rw [map_congr_left (g := id) (fun y hy => ?_), map_id]
        exact if_neg (fun hy' => hnd.1 (by rw [hx, ← hy']; exact mem_map_of_mem hy))
      rw [htail, h]
      omega
    · simp only [hx, decide_false, if_false] at h ⊢
      have ih := sum_store w hnd.2 h
      unfold store at ih
      omega

end Table

/-! ## Writing one record -/

theorem set_eq_map {α : Type} (b : α → Bool) (f : α → α) {l : List α} {i : Nat} (hi : i < l.length)
    (hbi : b l[i] = true) (hone : ∀ j (hj : j < l.length), b l[j] = true → j = i) :
    l.set i (f l[i]) = l.map (fun x => if b x then f x else x) := by
  refine ext_getElem (by simp) fun j h₁ h₂ => ?_
  have hj : j < l.length := by simpa using h₂
  rw [getElem_set, getElem_map]
  by_cases hji : i = j
  · subst hji
    rw [if_pos rfl, if_pos hbi]
  · rw [if_neg hji, if_neg fun hb => hji (hone j hj hb).symm]

/-! ## Removal by the last record -/

/-- Record `i` is replaced by the last one, which leaves its place. -/
def swapRemove {α : Type} (l : List α) (i : Nat) : List α := (l.getLast?.elim l (l.set i)).dropLast

theorem swapRemove_perm {α : Type} {l : List α} {i : Nat} (h : i < l.length) : (swapRemove l i).Perm (l.eraseIdx i) := by
  rcases eq_nil_or_concat l with rfl | ⟨init, x, rfl⟩
  · exact absurd h (Nat.not_lt_zero i)
  · rw [concat_eq_append] at h ⊢
    have hset : swapRemove (init ++ [x]) i = ((init ++ [x]).set i x).dropLast := by
      unfold swapRemove
      rw [getLast?_concat]
      rfl
    rw [hset]
    rw [length_append, length_singleton] at h
    rcases Nat.lt_or_eq_of_le (Nat.le_of_lt_succ h) with hlt | rfl
    · rw [set_append_left _ _ hlt, dropLast_concat, eraseIdx_append_of_lt_length hlt,
        set_eq_take_append_cons_drop, if_pos hlt, eraseIdx_eq_take_drop_succ, append_assoc]
      exact (perm_append_left_iff _).2 (@List.perm_append_comm α [x] _)
    · rw [set_append_right _ _ (Nat.le_refl _), Nat.sub_self, set_cons_zero, dropLast_concat,
        eraseIdx_append_of_length_le (Nat.le_refl _), Nat.sub_self, eraseIdx_cons_zero, append_nil]

theorem mem_swapRemove {κ ρ : Type} [DecidableEq κ] (key : ρ → κ) {k : κ} {l : List ρ} {i : Nat} (hnd : (l.map key).Nodup)
    (hi : l.findIdx? (fun r => decide (key r = k)) = some i) {x : ρ} : x ∈ swapRemove l i ↔ x ∈ l ∧ key x ≠ k := by
  obtain ⟨hlt, hkey, -⟩ := findIdx?_eq_some_iff_getElem.1 hi
  have hk : key l[i] = k := by simpa using hkey
  have hperm := getElem_cons_eraseIdx_perm hlt
  have hnd' := (hperm.map key).nodup_iff.2 hnd
  rw [map_cons, nodup_cons, hk] at hnd'
  rw [(swapRemove_perm hlt).mem_iff, ← hperm.mem_iff, mem_cons]
  constructor
  · intro hx
    exact ⟨.inr hx, fun he => hnd'.1 (he ▸ mem_map_of_mem hx)⟩
  · rintro ⟨rfl | hx, hne⟩
    · exact absurd hk hne
    · exact hx

theorem swapRemove_nodup {κ ρ : Type} {key : ρ → κ} {l : List ρ} {i : Nat} (hi : i < l.length) (hnd : (l.map key).Nodup) :
    ((swapRemove l i).map key).Nodup :=
  ((swapRemove_perm hi).map key).nodup_iff.2 (hnd.sublist ((eraseIdx_sublist l i).map key))

end MoqLiveCast
