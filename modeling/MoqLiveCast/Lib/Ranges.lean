import Mathlib.Data.List.Basic
/-!
# Ranges — a list of ranges of positions, kept in offset order

`place` puts a range before the first one with a greater offset, `merge` joins each range with the ones after it that it
reaches.
-/
namespace MoqLiveCast

structure Range where
  offset : Nat
  length : Nat
deriving DecidableEq

namespace Range

def stop (g : Range) : Nat := g.offset + g.length

def place (g : Range) : List Range → List Range
  | [] => [g]
  | h :: t => if g.offset < h.offset then g :: h :: t else h :: place g t

/-- The merge from a range on: it takes in the next one when they touch, and goes on from there otherwise. -/
def mergeFrom (g : Range) : List Range → List Range
  | [] => [g]
  | h :: t =>
    if h.offset ≤ g.stop then
      mergeFrom { g with length := if g.stop < h.stop then h.stop - g.offset else g.length } t
    else g :: mergeFrom h t

def merge : List Range → List Range
  | [] => []
  | g :: t => mergeFrom g t

def Covers (l : List Range) (i : Nat) : Prop := ∃ g ∈ l, g.offset ≤ i ∧ i < g.stop

abbrev Ordered (l : List Range) : Prop := l.Pairwise (fun g h => g.offset ≤ h.offset)

/-! ## Lengths -/

theorem place_length (g : Range) : ∀ (l : List Range), (place g l).length = l.length + 1
  | [] => rfl
  | h :: t => by
    unfold place
    split
    · rfl
    · simp [place_length g t]

theorem mergeFrom_length_le : ∀ (t : List Range) (g : Range), (mergeFrom g t).length ≤ t.length + 1
  | [], g => Nat.le_refl _
  | h :: t, g => by
    unfold mergeFrom
    split
    · exact Nat.le_succ_of_le (mergeFrom_length_le t _)
    · simpa using mergeFrom_length_le t h

theorem merge_length_le : ∀ (l : List Range), (merge l).length ≤ l.length
  | [] => Nat.le_refl _
  | g :: t => mergeFrom_length_le t g

/-! ## Coverage -/

theorem covers_nil (i : Nat) : ¬ Covers [] i := fun ⟨_, h, _⟩ => by cases h

theorem covers_cons {g : Range} {l : List Range} {i : Nat} : Covers (g :: l) i ↔ (g.offset ≤ i ∧ i < g.stop) ∨ Covers l i := by
  simp only [Covers, List.mem_cons, exists_eq_or_imp]

theorem mem_place {g x : Range} : ∀ {l : List Range}, x ∈ place g l ↔ x = g ∨ x ∈ l
  | [] => by simp [place]
  | h :: t => by
    unfold place
    split
    · simp
    · rw [List.mem_cons, mem_place (l := t), List.mem_cons]
      tauto

theorem covers_place (g : Range) (l : List Range) (i : Nat) :
    Covers (place g l) i ↔ (g.offset ≤ i ∧ i < g.stop) ∨ Covers l i := by
  simp only [Covers, mem_place, exists_eq_or_imp]

theorem ordered_place (g : Range) : ∀ {l : List Range}, Ordered l → Ordered (place g l)
  | [], _ => List.pairwise_singleton _ _
  | h :: t, ho => by
    have hh := List.pairwise_cons.1 ho
    unfold place
    split
    · rename_i hlt
      refine List.pairwise_cons.2 ⟨fun x hx => ?_, ho⟩
      rcases List.mem_cons.1 hx with rfl | hx
      · exact Nat.le_of_lt hlt
      · exact Nat.le_trans (Nat.le_of_lt hlt) (hh.1 x hx)
    · rename_i hge
      refine List.pairwise_cons.2 ⟨fun x hx => ?_, ordered_place g hh.2⟩
      rcases mem_place.1 hx with rfl | hx
      · exact Nat.le_of_not_lt hge
      · exact hh.1 x hx

theorem merged_stop (g h : Range) :
    ({ g with length := if g.stop < h.stop then h.stop - g.offset else g.length } : Range).stop = max g.stop h.stop := by
  unfold stop at *
  split <;> simp only <;> omega

theorem covers_of_mergeFrom {i : Nat} : ∀ (t : List Range) (g : Range), Covers (mergeFrom g t) i → Covers (g :: t) i
  | [], _, h => h
  | h :: t, g, hc => by
    unfold mergeFrom at hc
    split at hc
    · rename_i htouch
      have hm := covers_of_mergeFrom t _ hc
      rw [covers_cons, merged_stop] at hm
      rw [covers_cons, covers_cons]
      rcases hm with hm | hm
      · by_cases hi : i < g.stop
        · exact Or.inl ⟨hm.1, hi⟩
        · exact Or.inr (Or.inl ⟨by omega, by have := hm.2; omega⟩)
      · exact Or.inr (Or.inr hm)
    · rw [covers_cons] at hc ⊢
      exact hc.imp_right (covers_of_mergeFrom t h)

theorem covers_of_merge {l : List Range} {i : Nat} (h : Covers (merge l) i) : Covers l i := by
  cases l with
  | nil => exact h
  | cons g t => exact covers_of_mergeFrom t g h

theorem covers_mergeFrom {i : Nat} : ∀ (t : List Range) (g : Range), Ordered (g :: t) → Covers (g :: t) i →
    Covers (mergeFrom g t) i
  | [], _, _, h => h
  | h :: t, g, ho, hc => by
    have hg := List.pairwise_cons.1 ho
    have hh := List.pairwise_cons.1 hg.2
    have hgh := hg.1 h List.mem_cons_self
    unfold mergeFrom
    rw [covers_cons, covers_cons] at hc
    split
    · rename_i htouch
      refine covers_mergeFrom t _ (List.pairwise_cons.2 ⟨fun x hx => hg.1 x (List.mem_cons_of_mem _ hx), hh.2⟩) ?_
      rw [covers_cons, merged_stop]
      rcases hc with hc | hc | hc
      · exact Or.inl ⟨hc.1, by omega⟩
      · exact Or.inl ⟨show g.offset ≤ i by omega, by omega⟩
      · exact Or.inr hc
    · rw [covers_cons]
      exact hc.imp_right (fun hc => covers_mergeFrom t h hg.2 (covers_cons.2 hc))

theorem covers_merge {l : List Range} (ho : Ordered l) (i : Nat) : Covers (merge l) i ↔ Covers l i := by
  refine ⟨covers_of_merge, fun h => ?_⟩
  cases l with
  | nil => exact h
  | cons g t => exact covers_mergeFrom t g ho h

theorem offset_mem_mergeFrom : ∀ (t : List Range) (g x : Range), x ∈ mergeFrom g t → ∃ y ∈ g :: t, x.offset = y.offset
  | [], g, x, h => ⟨g, by simp, by simp [mergeFrom] at h; rw [h]⟩
  | h :: t, g, x, hx => by
    unfold mergeFrom at hx
    split at hx
    · obtain ⟨y, hy, he⟩ := offset_mem_mergeFrom t _ x hx
      rcases List.mem_cons.1 hy with rfl | hy
      · exact ⟨g, by simp, he⟩
      · exact ⟨y, by simp [hy], he⟩
    · rcases List.mem_cons.1 hx with rfl | hx
      · exact ⟨x, by simp, rfl⟩
      · obtain ⟨y, hy, he⟩ := offset_mem_mergeFrom t h x hx
        exact ⟨y, List.mem_cons_of_mem _ hy, he⟩

theorem offset_mem_merge {l : List Range} {x : Range} (h : x ∈ merge l) : ∃ y ∈ l, x.offset = y.offset := by
  cases l with
  | nil => cases h
  | cons g t => exact offset_mem_mergeFrom t g x h

theorem ordered_mergeFrom : ∀ (t : List Range) (g : Range), Ordered (g :: t) → Ordered (mergeFrom g t)
  | [], _, h => h
  | h :: t, g, ho => by
    have hg := List.pairwise_cons.1 ho
    have hh := List.pairwise_cons.1 hg.2
    unfold mergeFrom
    split
    · exact ordered_mergeFrom t _ (List.pairwise_cons.2 ⟨fun x hx => hg.1 x (List.mem_cons_of_mem _ hx), hh.2⟩)
    · refine List.pairwise_cons.2 ⟨fun x hx => ?_, ordered_mergeFrom t h hg.2⟩
      obtain ⟨y, hy, he⟩ := offset_mem_mergeFrom t h x hx
      rw [he]
      exact hg.1 y hy

theorem ordered_merge {l : List Range} (h : Ordered l) : Ordered (merge l) := by
  cases l with
  | nil => exact h
  | cons g t => exact ordered_mergeFrom t g h

end Range
end MoqLiveCast
