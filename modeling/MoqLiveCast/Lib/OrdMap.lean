import Mathlib.Order.Defs.LinearOrder
import Mathlib.Data.List.Basic
/-!
# OrdMap — an ordered map, as the list of its entries in the order of their keys

An entry is put in its place (`put`), found by its key (`find`), and taken out by it (`erase`).
-/
namespace MoqLiveCast
namespace OrdMap

variable {κ α : Type}

section Find

variable [DecidableEq κ]

def find (m : List (κ × α)) (k : κ) : Option α := (m.find? fun e => e.1 = k).map (·.2)

def erase (m : List (κ × α)) (k : κ) : List (κ × α) := m.filter fun e => e.1 ≠ k

@[simp] theorem find_nil (k : κ) : find ([] : List (κ × α)) k = none := rfl

theorem find_cons (e : κ × α) (m : List (κ × α)) (k : κ) : find (e :: m) k = if k = e.1 then some e.2 else find m k := by
  unfold find
  rw [List.find?_cons]
  by_cases hk : e.1 = k
  · simp [hk]
  · simp [hk, Ne.symm hk]

theorem find_append (m m' : List (κ × α)) (k : κ) : find (m ++ m') k = (find m k).or (find m' k) := by
  unfold find
  rw [List.find?_append]
  cases m.find? fun e => decide (e.1 = k) <;> rfl

theorem mem_of_find {m : List (κ × α)} {k : κ} {a : α} (h : find m k = some a) : (k, a) ∈ m := by
  obtain ⟨e, he, rfl⟩ := Option.map_eq_some_iff.1 h
  have hkey : e.1 = k := by simpa using List.find?_some he
  exact hkey ▸ List.mem_of_find?_eq_some he

theorem find_of_mem_keys {m : List (κ × α)} {e : κ × α} (h : e ∈ m) : ∃ a, find m e.1 = some a := by
  cases hf : find m e.1 with
  | some a => exact ⟨a, rfl⟩
  | none =>
    have hnone : ∀ x ∈ m, ¬ x.1 = e.1 := by simpa [find] using hf
    exact absurd rfl (hnone e h)

theorem find_map {β : Type} (f : κ → α → β) (m : List (κ × α)) (k : κ) :
    find (m.map fun e => (e.1, f e.1 e.2)) k = (find m k).map (f k) := by
  induction m with
  | nil => rfl
  | cons e m ih =>
    rw [List.map_cons, find_cons, find_cons, ih]
    by_cases hk : k = e.1 <;> simp [hk]

theorem find_filter_key (q : κ → Bool) (m : List (κ × α)) (k : κ) :
    find (m.filter fun e => q e.1) k = if q k then find m k else none := by
  induction m with
  | nil => simp
  | cons e m ih =>
    rw [List.filter_cons, find_cons]
    by_cases hk : k = e.1
    · subst hk
      by_cases hq : q e.1
      · simp [hq, find_cons]
      · simpa [hq] using ih
    · by_cases hq : q e.1
      · simpa [hq, hk, find_cons] using ih
      · simpa [hq, hk] using ih

@[simp] theorem find_erase (m : List (κ × α)) (k k' : κ) : find (erase m k) k' = if k' = k then none else find m k' := by
  have h := find_filter_key (fun x => decide (x ≠ k)) m k'
  by_cases hk : k' = k <;> simpa [erase, hk] using h

end Find

section Order

variable [LT κ]

def Ordered (m : List (κ × α)) : Prop := m.Pairwise fun e e' => e.1 < e'.1

theorem Ordered.filter {m : List (κ × α)} (h : Ordered m) (p : κ × α → Bool) : Ordered (m.filter p) :=
  List.Pairwise.filter p h

def put [DecidableLT κ] (m : List (κ × α)) (k : κ) (a : α) : List (κ × α) :=
  m.filter (fun e => e.1 < k) ++ (k, a) :: m.filter (fun e => k < e.1)

theorem Ordered.put [DecidableLT κ] [@Trans κ κ κ (· < ·) (· < ·) (· < ·)] {m : List (κ × α)} (h : Ordered m) (k : κ)
    (a : α) : Ordered (put m k a) := by
  refine List.pairwise_append.2 ⟨h.filter _, List.pairwise_cons.2 ⟨fun e he => ?_, h.filter _⟩, fun e he e' he' => ?_⟩
  · simpa using (List.mem_filter.1 he).2
  · have hlt : e.1 < k := by simpa using (List.mem_filter.1 he).2
    rcases List.mem_cons.1 he' with rfl | he'
    · exact hlt
    · have hgt : k < e'.1 := by simpa using (List.mem_filter.1 he').2
      exact Trans.trans hlt hgt

theorem Ordered.nodup [@Std.Irrefl κ (· < ·)] {m : List (κ × α)} (h : Ordered m) : (m.map Prod.fst).Nodup := by
  refine List.pairwise_map.2 (h.imp fun hlt heq => ?_)
  rw [heq] at hlt
  exact Std.lt_irrefl hlt

variable [DecidableEq κ] [@Std.Irrefl κ (· < ·)]

@[simp] theorem find_put [DecidableLT κ] [@Std.Trichotomous κ (· < ·)] (m : List (κ × α)) (k k' : κ) (a : α) :
    find (put m k a) k' = if k' = k then some a else find m k' := by
  have hbelow := find_filter_key (fun x => decide (x < k)) m k'
  have habove := find_filter_key (fun x => decide (k < x)) m k'
  unfold put
  rw [find_append, find_cons, hbelow, habove]
  by_cases hk : k' = k
  · subst hk
    simp [Std.lt_irrefl]
  · rw [if_neg hk, if_neg hk]
    rcases Std.lt_trichotomy k' k with hlt | heq | hgt
    · by_cases hgt : k < k' <;> cases hf : find m k' <;> simp [hlt, hgt]
    · exact absurd heq hk
    · by_cases hlt : k' < k <;> cases hf : find m k' <;> simp [hlt, hgt]

theorem Ordered.find_of_mem : ∀ {m : List (κ × α)}, Ordered m → ∀ {k : κ} {a : α}, (k, a) ∈ m → find m k = some a
  | e :: m, h, k, a, hmem => by
    obtain ⟨hhead, hrest⟩ := List.pairwise_cons.1 h
    rw [find_cons]
    rcases List.mem_cons.1 hmem with rfl | hmem
    · simp
    · have hne : k ≠ e.1 := by
        intro heq
        have hlt := hhead _ hmem
        rw [← heq] at hlt
        exact Std.lt_irrefl hlt
      rw [if_neg hne]
      exact Ordered.find_of_mem hrest hmem

theorem Ordered.find_filter {m : List (κ × α)} (h : Ordered m) (p : κ × α → Bool) {k : κ} {a : α} :
    find (m.filter p) k = some a ↔ find m k = some a ∧ p (k, a) = true := by
  constructor
  · intro hf
    obtain ⟨hmem, hp⟩ := List.mem_filter.1 (mem_of_find hf)
    exact ⟨h.find_of_mem hmem, hp⟩
  · rintro ⟨hf, hp⟩
    exact (h.filter p).find_of_mem (List.mem_filter.2 ⟨mem_of_find hf, hp⟩)

end Order

end OrdMap
end MoqLiveCast
