import Mathlib.Algebra.Ring.Nat
import Mathlib.Data.List.Basic
import Mathlib.Data.Nat.Basic
/-!
# Run — invariants of a step function over a list of events

`StepsOk` says of every step of a run that it meets a condition, read at the state before it.  `foldl_inv` is the
one induction the safety theorems of the total step functions use, `foldlM_inv` the one of the step functions that
may have no result, `foldlM_total` the one that they have one, and `foldlM_hist` the one of what holds of the events so
far.
-/
namespace MoqLiveCast

open List

section Total

variable {σ ε : Type} (step : σ → ε → σ) (ok : σ → ε → Prop)

/-- **Every step of the run meets `ok`**, at the state the run reaches before it. -/
def StepsOk : σ → List ε → Prop
  | _, [] => True
  | s, e :: es => ok s e ∧ StepsOk (step s e) es

instance StepsOk.decidable [∀ s e, Decidable (ok s e)] : ∀ (s : σ) (es : List ε), Decidable (StepsOk step ok s es)
  | _, [] => .isTrue trivial
  | s, e :: es =>
    have := StepsOk.decidable (step s e) es
    inferInstanceAs (Decidable (_ ∧ _))

theorem stepsOk_iff : ∀ (es : List ε) (s : σ),
    StepsOk step ok s es ↔ ∀ pre e post, es = pre ++ e :: post → ok (pre.foldl step s) e
  | [], s => by simp [StepsOk]
  | e :: es, s => by
    rw [StepsOk, stepsOk_iff es (step s e)]
    constructor
    · rintro ⟨he, h⟩ pre e' post hs
      cases pre with
      | nil =>
        simp only [nil_append, List.cons.injEq] at hs
        obtain ⟨rfl, rfl⟩ := hs
        exact he
      | cons x pre =>
        simp only [cons_append, List.cons.injEq] at hs
        obtain ⟨rfl, rfl⟩ := hs
        exact h pre e' post rfl
    · intro h
      exact ⟨h [] e es rfl, fun pre e' post hs => h (e :: pre) e' post (by rw [hs]; rfl)⟩

theorem stepsOk_of_forall : ∀ (es : List ε) (s : σ), (∀ e ∈ es, ∀ s, ok s e) → StepsOk step ok s es
  | [], _, _ => trivial
  | e :: es, s, h =>
    ⟨h e mem_cons_self s, stepsOk_of_forall es _ (fun e' he' => h e' (mem_cons_of_mem _ he'))⟩

theorem stepsOk_and {ok ok' : σ → ε → Prop} : ∀ {es : List ε} {s : σ}, StepsOk step ok s es → StepsOk step ok' s es →
    StepsOk step (fun s e => ok s e ∧ ok' s e) s es
  | [], _, _, _ => trivial
  | _ :: _, _, h, h' => ⟨⟨h.1, h'.1⟩, stepsOk_and h.2 h'.2⟩

theorem stepsOk_of_inv (Inv : σ → Prop) (hok : ∀ s e, Inv s → ok s e) (hstep : ∀ s e, Inv s → Inv (step s e)) :
    ∀ (es : List ε) (s : σ), Inv s → StepsOk step ok s es
  | [], _, _ => trivial
  | e :: es, s, h => ⟨hok s e h, stepsOk_of_inv Inv hok hstep es (step s e) (hstep s e h)⟩

theorem stepsOk_congr {ok ok' : σ → ε → Prop} (Inv : σ → Prop) (hiff : ∀ s e, Inv s → (ok s e ↔ ok' s e))
    (hstep : ∀ s e, Inv s → ok s e → Inv (step s e)) :
    ∀ (es : List ε) (s : σ), Inv s → (StepsOk step ok s es ↔ StepsOk step ok' s es)
  | [], _, _ => Iff.rfl
  | e :: es, s, h => by
    rw [StepsOk, StepsOk, ← hiff s e h]
    exact and_congr_right fun hok => stepsOk_congr Inv hiff hstep es (step s e) (hstep s e h hok)

theorem stepsOk_append : ∀ (es es' : List ε) (s : σ),
    StepsOk step ok s (es ++ es') ↔ StepsOk step ok s es ∧ StepsOk step ok (es.foldl step s) es'
  | [], es', s => by simp [StepsOk]
  | e :: es, es', s => by
    rw [cons_append, StepsOk, StepsOk, stepsOk_append es es', foldl_cons, and_assoc]

theorem foldl_inv (Inv : σ → Prop) (hstep : ∀ s e, Inv s → ok s e → Inv (step s e)) :
    ∀ (es : List ε) (s : σ), Inv s → StepsOk step ok s es → Inv (es.foldl step s)
  | [], _, h, _ => h
  | e :: es, s, h, hok => foldl_inv Inv hstep es (step s e) (hstep s e h hok.1) hok.2

theorem foldl_measure_iff (Inv : σ → Prop) (m : σ → Nat) (hinv : ∀ s e, Inv s → Inv (step s e))
    (hm : ∀ s e, Inv s → m s ≤ m (step s e) ∧ (m (step s e) = m s ↔ ok s e)) :
    ∀ (es : List ε) (s : σ), Inv s → m s ≤ m (es.foldl step s) ∧ (m (es.foldl step s) = m s ↔ StepsOk step ok s es)
  | [], s, _ => ⟨Nat.le_refl _, by simp [StepsOk]⟩
  | e :: es, s, h => by
    obtain ⟨hle, hiff⟩ := hm s e h
    obtain ⟨hle', hiff'⟩ := foldl_measure_iff Inv m hinv hm es (step s e) (hinv s e h)
    rw [foldl_cons, StepsOk, ← hiff, ← hiff']
    refine ⟨Nat.le_trans hle hle', fun he => ⟨by omega, by omega⟩, fun ⟨h1, h2⟩ => h2.trans h1⟩

theorem forall_prefix_iff (allowed : ε → Prop) (Inv P : σ → Prop) (hinv : ∀ s e, Inv s → allowed e → Inv (step s e))
    (hP : ∀ s e, Inv s → allowed e → P s → (P (step s e) ↔ ok s e)) :
    ∀ (es : List ε) (s : σ), (∀ e ∈ es, allowed e) → Inv s → P s →
      ((∀ pre post, es = pre ++ post → P (pre.foldl step s)) ↔ StepsOk step ok s es)
  | [], s, _, _, h => by
    simp only [StepsOk, iff_true]
    intro pre post hs
    obtain ⟨rfl, -⟩ := List.append_eq_nil_iff.1 hs.symm
    exact h
  | e :: es, s, ha, hI, h => by
    have he := ha e mem_cons_self
    have ih := forall_prefix_iff allowed Inv P hinv hP es (step s e) (fun e' he' => ha e' (mem_cons_of_mem _ he'))
      (hinv s e hI he)
    rw [StepsOk, ← hP s e hI he h]
    constructor
    · intro hall
      have h1 := hall [e] es rfl
      exact ⟨h1, (ih h1).1 fun pre post hs => hall (e :: pre) post (by rw [hs]; rfl)⟩
    · rintro ⟨h1, hok⟩ pre post hs
      cases pre with
      | nil => exact h
      | cons x pre =>
        simp only [cons_append, List.cons.injEq] at hs
        obtain ⟨rfl, rfl⟩ := hs
        exact (ih h1).2 hok pre post rfl

theorem foldl_dead (dead : σ → Prop) (hdead : ∀ s e, dead s → dead (step s e)) :
    ∀ (es : List ε) (s : σ), dead s → dead (es.foldl step s)
  | [], _, h => h
  | e :: es, s, h => foldl_dead dead hdead es (step s e) (hdead s e h)

theorem foldl_live_iff {all : List ε} (Inv : List ε → σ → Prop) (dead : σ → Prop) (hlive : ∀ hist s, Inv hist s → ¬dead s)
    (hdead : ∀ s e, dead s → dead (step s e))
    (hstep : ∀ hist s e post, all = hist ++ e :: post → Inv hist s →
      (ok s e → Inv (hist ++ [e]) (step s e)) ∧ (¬ok s e → dead (step s e))) :
    ∀ (es hist : List ε) (s : σ), all = hist ++ es → Inv hist s →
      (¬dead (es.foldl step s) ↔ StepsOk step ok s es) ∧ (StepsOk step ok s es → Inv all (es.foldl step s))
  | [], hist, s, hall, h => by
    rw [append_nil] at hall
    rw [hall]
    exact ⟨⟨fun _ => trivial, fun _ => hlive hist s h⟩, fun _ => h⟩
  | e :: es, hist, s, hall, h => by
    obtain ⟨hgood, hbad⟩ := hstep hist s e es hall h
    by_cases hok : ok s e
    · have hall' : all = (hist ++ [e]) ++ es := by rw [hall, append_assoc, singleton_append]
      obtain ⟨hiff, hinv⟩ := foldl_live_iff Inv dead hlive hdead hstep es (hist ++ [e]) (step s e) hall' (hgood hok)
      exact ⟨hiff.trans ⟨fun hs => ⟨hok, hs⟩, fun hs => hs.2⟩, fun hs => hinv hs.2⟩
    · have hend : dead (es.foldl step (step s e)) := foldl_dead step dead hdead es _ (hbad hok)
      exact ⟨⟨fun hn => absurd hend hn, fun hs => absurd hs.1 hok⟩, fun hs => absurd hs.1 hok⟩

end Total

section Partial

variable {σ ε : Type} (step : σ → ε → Option σ) (ok : σ → ε → Prop)

/-- **Every step of a partial run meets `ok`**, as far as the run goes. -/
def StepsOkM : σ → List ε → Prop
  | _, [] => True
  | s, e :: es => ok s e ∧ ∀ s', step s e = some s' → StepsOkM s' es

instance StepsOkM.decidable [∀ s e, Decidable (ok s e)] : ∀ (s : σ) (es : List ε), Decidable (StepsOkM step ok s es)
  | _, [] => .isTrue trivial
  | s, e :: es =>
    match h : step s e with
    | none => decidable_of_iff (ok s e) (by simp [StepsOkM, h])
    | some s' =>
      have := StepsOkM.decidable s' es
      decidable_of_iff (ok s e ∧ StepsOkM step ok s' es) (by simp [StepsOkM, h])

theorem foldlM_cons_some {s t : σ} {e : ε} {es : List ε} :
    (e :: es).foldlM step s = some t ↔ ∃ s', step s e = some s' ∧ es.foldlM step s' = some t := by
  rw [foldlM_cons]
  exact Option.bind_eq_some_iff

theorem foldlM_inv (Inv : σ → Prop) (hstep : ∀ s e s', Inv s → ok s e → step s e = some s' → Inv s') :
    ∀ (es : List ε) (s t : σ), Inv s → StepsOkM step ok s es → es.foldlM step s = some t → Inv t
  | [], s, t, h, _, hr => by
    simp only [foldlM_nil, Option.pure_def, Option.some.injEq] at hr
    exact hr ▸ h
  | e :: es, s, t, h, hok, hr => by
    obtain ⟨s', hs, hr⟩ := (foldlM_cons_some step).1 hr
    exact foldlM_inv Inv hstep es s' t (hstep s e s' h hok.1 hs) (hok.2 s' hs) hr

theorem stepsOkM_of_forall : ∀ (es : List ε) (s : σ), (∀ e ∈ es, ∀ s, ok s e) → StepsOkM step ok s es
  | [], _, _ => trivial
  | e :: es, s, h =>
    ⟨h e mem_cons_self s, fun s' _ => stepsOkM_of_forall es s' (fun e' he' => h e' (mem_cons_of_mem _ he'))⟩

theorem stepsOkM_append : ∀ {es es' : List ε} {s : σ}, StepsOkM step ok s es →
    (∀ t, es.foldlM step s = some t → StepsOkM step ok t es') → StepsOkM step ok s (es ++ es')
  | [], _, s, _, h' => h' s rfl
  | _ :: _, _, _, h, h' =>
    ⟨h.1, fun s' hs => stepsOkM_append (h.2 s' hs) (fun t ht => h' t ((foldlM_cons_some step).2 ⟨s', hs, ht⟩))⟩

theorem stepsOkM_and {ok ok' : σ → ε → Prop} : ∀ {es : List ε} {s : σ}, StepsOkM step ok s es →
    StepsOkM step ok' s es → StepsOkM step (fun s e => ok s e ∧ ok' s e) s es
  | [], _, _, _ => trivial
  | _ :: _, _, h, h' => ⟨⟨h.1, h'.1⟩, fun s' hs => stepsOkM_and (h.2 s' hs) (h'.2 s' hs)⟩

theorem foldlM_hist (Inv : List ε → σ → Prop)
    (hstep : ∀ hist s e s', Inv hist s → ok s e → step s e = some s' → Inv (hist ++ [e]) s') :
    ∀ (es hist : List ε) (s t : σ), Inv hist s → StepsOkM step ok s es → es.foldlM step s = some t → Inv (hist ++ es) t
  | [], hist, s, t, h, _, hr => by
    rw [append_nil, ← Option.some.inj hr]
    exact h
  | e :: es, hist, s, t, h, hok, hr => by
    obtain ⟨s', hs, hr⟩ := (foldlM_cons_some step).1 hr
    have hrest := foldlM_hist Inv hstep es (hist ++ [e]) s' t (hstep hist s e s' h hok.1 hs) (hok.2 s' hs) hr
    rw [append_assoc] at hrest
    exact hrest

theorem foldlM_total (Inv : σ → Prop) (hstep : ∀ s e, Inv s → ok s e → ∃ s', step s e = some s' ∧ Inv s') :
    ∀ (es : List ε) (s : σ), Inv s → StepsOkM step ok s es → ∃ t, es.foldlM step s = some t ∧ Inv t
  | [], s, h, _ => ⟨s, rfl, h⟩
  | e :: es, s, h, hok => by
    obtain ⟨s', hs, hinv⟩ := hstep s e h hok.1
    obtain ⟨t, ht, hinv'⟩ := foldlM_total Inv hstep es s' hinv (hok.2 s' hs)
    exact ⟨t, (foldlM_cons_some step).2 ⟨s', hs, ht⟩, hinv'⟩

theorem forall_prefixM_iff (allowed : σ → ε → Prop) (Inv P : σ → Prop)
    (hinv : ∀ s e s', Inv s → allowed s e → step s e = some s' → Inv s')
    (hP : ∀ s e s', Inv s → allowed s e → P s → step s e = some s' → (P s' ↔ ok s e))
    (hnone : ∀ s e, step s e = none → ok s e) :
    ∀ (es : List ε) (s : σ), StepsOkM step allowed s es → Inv s → P s →
      ((∀ pre post t, es = pre ++ post → pre.foldlM step s = some t → P t) ↔ StepsOkM step ok s es)
  | [], s, _, _, h => by
    simp only [StepsOkM, iff_true]
    intro pre post t hs ht
    obtain ⟨rfl, -⟩ := List.append_eq_nil_iff.1 hs.symm
    exact Option.some.inj ht ▸ h
  | e :: es, s, ha, hI, h => by
    have ih := fun s' hs => forall_prefixM_iff allowed Inv P hinv hP hnone es s' (ha.2 s' hs) (hinv s e s' hI ha.1 hs)
    have hcons : ∀ {pre s' t}, step s e = some s' → (pre.foldlM step s' = some t ↔ (e :: pre).foldlM step s = some t) :=
      fun {pre s' t} hs => by rw [foldlM_cons, hs]; rfl
    constructor
    · intro hall
      have hnext : ∀ s', step s e = some s' → P s' := fun s' hs => hall [e] es s' rfl ((hcons hs).1 rfl)
      refine ⟨?_, fun s' hs => (ih s' hs (hnext s' hs)).1 fun pre post t hes ht =>
        hall (e :: pre) post t (by rw [hes]; rfl) ((hcons hs).1 ht)⟩
      cases hs : step s e with
      | none => exact hnone s e hs
      | some s' => exact (hP s e s' hI ha.1 h hs).1 (hnext s' hs)
    · rintro ⟨hok, hrest⟩ pre post t hes ht
      cases pre with
      | nil => exact Option.some.inj ht ▸ h
      | cons x pre =>
        simp only [cons_append, List.cons.injEq] at hes
        obtain ⟨rfl, rfl⟩ := hes
        obtain ⟨s', hs, ht⟩ := (foldlM_cons_some step).1 ht
        exact (ih s' hs ((hP s e s' hI ha.1 h hs).2 hok)).2 (hrest s' hs) pre post t rfl ht

end Partial

/-! ## A loop with fuel -/

section Loop

variable {σ : Type} (cond : σ → Prop) [DecidablePred cond] (body : σ → σ)

def whileLoop : Nat → σ → Option σ
  | 0, _ => none
  | n + 1, s => if cond s then whileLoop n (body s) else some s

theorem whileLoop_inv (Inv : σ → Prop) (hbody : ∀ s, Inv s → cond s → Inv (body s)) :
    ∀ (n : Nat) (s t : σ), Inv s → whileLoop cond body n s = some t → Inv t ∧ ¬ cond t
  | 0, _, _, _, h => by cases h
  | n + 1, s, t, hs, h => by
    unfold whileLoop at h
    split at h
    · rename_i hc
      exact whileLoop_inv Inv hbody n (body s) t (hbody s hs hc) h
    · rename_i hc
      cases h
      exact ⟨hs, hc⟩

theorem whileLoop_ends (Inv : σ → Prop) (m : σ → Nat) (hbody : ∀ s, Inv s → cond s → Inv (body s) ∧ m (body s) < m s) :
    ∀ (n : Nat) (s : σ), Inv s → m s < n → ∃ t, whileLoop cond body n s = some t
  | 0, _, _, h => absurd h (Nat.not_lt_zero _)
  | n + 1, s, hs, h => by
    unfold whileLoop
    split
    · rename_i hc
      obtain ⟨hs', hm⟩ := hbody s hs hc
      exact whileLoop_ends Inv m hbody n (body s) hs' (by omega)
    · exact ⟨s, rfl⟩

theorem whileLoop_diverges (Inv : σ → Prop) (hbody : ∀ s, Inv s → cond s ∧ Inv (body s)) :
    ∀ (n : Nat) (s : σ), Inv s → whileLoop cond body n s = none
  | 0, _, _ => rfl
  | n + 1, s, hs => by
    obtain ⟨hc, hs'⟩ := hbody s hs
    unfold whileLoop
    rw [if_pos hc]
    exact whileLoop_diverges Inv hbody n (body s) hs'

theorem whileLoop_mono : ∀ (n : Nat) (s t : σ), whileLoop cond body n s = some t → ∀ m, n ≤ m → whileLoop cond body m s = some t
  | 0, _, _, h, _, _ => by cases h
  | n + 1, s, t, h, m, hm => by
    obtain ⟨m, rfl⟩ : ∃ k, m = k + 1 := ⟨m - 1, by omega⟩
    unfold whileLoop at h ⊢
    split at h
    · rename_i hc
      rw [if_pos hc]
      exact whileLoop_mono n (body s) t h m (by omega)
    · rename_i hc
      rw [if_neg hc]
      exact h

end Loop

/-! ## A list that takes the elements of others in turn

The elements of each list stand in it in their order. -/

variable {α : Type}

/-- **`out` takes the elements of the lists in turn**, until they are empty. -/
inductive Woven : List (List α) → List α → Prop
  | nil {lists : List (List α)} (hnil : ∀ l ∈ lists, l = []) : Woven lists []
  | cons {pre post : List (List α)} {xs out : List α} (x : α) (h : Woven (pre ++ xs :: post) out) :
      Woven (pre ++ (x :: xs) :: post) (x :: out)

namespace Woven

theorem single : ∀ l : List α, Woven [l] l
  | [] => .nil fun _ hl => List.mem_singleton.1 hl
  | x :: l => @cons α [] [] l l x (single l)

theorem map_cases {β : Type} {f : β → List α} {bs : List β} {out : List α} (h : Woven (bs.map f) out) : (out = [] ∧
    ∀ b ∈ bs, f b = []) ∨ ∃ pre b post x xs rest, bs = pre ++ b :: post ∧ f b = x :: xs ∧ out = x :: rest ∧ Woven (pre.map f ++
    xs :: post.map f) rest := by
  generalize hlists : bs.map f = lists at h
  cases h with
  | nil hnil =>
    refine .inl ⟨rfl, fun b hb => hnil _ ?_⟩
    rw [← hlists]
    exact mem_map_of_mem hb
  | cons x h =>
    obtain ⟨pre, post', rfl, hpre, hpost'⟩ := List.map_eq_append_iff.1 hlists
    obtain ⟨b, post, rfl, hb, hpost⟩ := List.map_eq_cons_iff.1 hpost'
    refine .inr ⟨pre, b, post, x, _, _, rfl, hb, rfl, ?_⟩
    rw [hpre, hpost]
    exact h

end Woven
end MoqLiveCast
