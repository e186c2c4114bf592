import MoqLiveCast.Lib.Run
import MoqLiveCast.Quic.Timer
/-!
# TimerRun — when the callbacks of one-shot timers are called

A one-shot timer is called once at most for a `quic_timer_start`, not before it is due, and not after it was stopped or
started again to be due later, unless a running `on_wheel` had copied it by then (`oneShotsFireRight`).
-/
namespace MoqLiveCast

open List

/-! ## What a run shows -/

def clockAt (hist : List TimerEvent) (i : Nat) : Option Nat :=
  ((hist.take i).foldlM timerStep {}).map QuicTimers.now

/-- Event `j` invokes the callback of the `quic_timer_start` that was event `k`. -/
def Invoked (hist : List TimerEvent) (j k : Nat) : Prop :=
  hist[j]? = some .call ∧ ∃ w f rest, (hist.take j).foldlM timerStep {} = some w ∧ w.fire = f :: rest ∧
    f.cb.isSome = true ∧ f.was.start = k

/-- Before event `i`, a running `on_wheel` has a copy of what event `k` started. -/
def InBatch (hist : List TimerEvent) (i k : Nat) : Prop :=
  ∃ w, (hist.take i).foldlM timerStep {} = some w ∧ ∃ f ∈ w.fire, f.was.start = k

/-- Event `i` stops timer `t`, or starts it again to be due later than `due`. -/
def Cancels (hist : List TimerEvent) (t due i : Nat) : Prop :=
  hist[i]? = some (.stop t) ∨ ∃ cb user timeoutMs repeatMs now,
    hist[i]? = some (.start t cb user timeoutMs repeatMs) ∧ clockAt hist i = some now ∧ due < add64 now timeoutMs

/-- **Every callback of a one-shot timer is invoked in its time**: once at most for each start, not before the timer is
due, and not after it was stopped or started again to be due later, unless that came too late. -/
def OneShotsFireRight (tooLate : Nat → Nat → Prop) (hist : List TimerEvent) : Prop :=
  ∀ j k t cb user timeoutMs, hist[k]? = some (.start t cb user timeoutMs 0) → Invoked hist j k →
    (∀ j', Invoked hist j' k → j' = j) ∧
    ∃ started now, clockAt hist k = some started ∧ clockAt hist j = some now ∧ add64 started timeoutMs ≤ now ∧
      ∀ i, k < i → i < j → Cancels hist t (add64 started timeoutMs) i → tooLate i k

/-! ## Longer runs -/

variable {hist : List TimerEvent}

theorem clockAt_snoc {i : Nat} (h : i ≤ hist.length) (e : TimerEvent) : clockAt (hist ++ [e]) i = clockAt hist i := by
  unfold clockAt
  rw [take_append_of_le_length h]

theorem clockAt_length {w : QuicTimers} (h : hist.foldlM timerStep {} = some w)
    (e : TimerEvent) : clockAt (hist ++ [e]) hist.length = some w.now := by
  rw [clockAt_snoc (Nat.le_refl _)]
  unfold clockAt
  rw [take_length, h]
  rfl

theorem getElem?_snoc_lt {α : Type} {l : List α} {i : Nat} (h : i < l.length) (x : α) : (l ++ [x])[i]? = l[i]? :=
  List.getElem?_append_left h

theorem cancels_snoc {t due i : Nat} (h : i < hist.length) (e : TimerEvent) :
    Cancels (hist ++ [e]) t due i ↔ Cancels hist t due i := by
  unfold Cancels
  rw [getElem?_snoc_lt h, clockAt_snoc (Nat.le_of_lt h)]

theorem invoked_snoc {j k : Nat} (h : j < hist.length) (e : TimerEvent) : Invoked (hist ++ [e]) j k ↔ Invoked hist j k := by
  unfold Invoked
  rw [getElem?_snoc_lt h, take_append_of_le_length (Nat.le_of_lt h)]

theorem inBatch_snoc {i k : Nat} (h : i ≤ hist.length) (e : TimerEvent) : InBatch (hist ++ [e]) i k ↔ InBatch hist i k := by
  unfold InBatch
  rw [take_append_of_le_length h]

theorem cancels_lt {t due i : Nat} (h : Cancels hist t due i) : i < hist.length := by
  obtain h | ⟨_, _, _, _, _, h, -⟩ := h <;> exact (List.getElem?_eq_some_iff.1 h).1

theorem invoked_lt {j k : Nat} (h : Invoked hist j k) : j < hist.length :=
  (List.getElem?_eq_some_iff.1 h.1).1

/-! ## A timer that is pending -/

/-- **A start that holds**: of a one-shot timer it is due as it was asked for, was not cancelled since by anything that
did not come too late, and was not used. -/
structure Pending (hist : List TimerEvent) (t : Nat) (x : QuicTimer) : Prop where
  started : ∃ timeoutMs, hist[x.start]? = some (.start t x.cb x.user timeoutMs x.repeatMs) ∧
    (x.repeatMs = 0 → ∃ now, clockAt hist x.start = some now ∧ x.dueMs = add64 now timeoutMs)
  stands : x.repeatMs = 0 → ∀ i, x.start < i → Cancels hist t x.dueMs i → InBatch hist i x.start
  unused : x.repeatMs = 0 → ∀ j, ¬Invoked hist j x.start

namespace Pending

variable {hist : List TimerEvent} {t : Nat} {x : QuicTimer}

theorem start_lt (h : Pending hist t x) : x.start < hist.length := by
  obtain ⟨_, hs, -⟩ := h.started
  exact (List.getElem?_eq_some_iff.1 hs).1

theorem same {s : Nat} {y : QuicTimer} (h : Pending hist t x) (h' : Pending hist s y) (he : x.start = y.start) :
    t = s ∧ x.repeatMs = y.repeatMs := by
  obtain ⟨_, hs, -⟩ := h.started
  obtain ⟨_, hs', -⟩ := h'.started
  rw [he, hs'] at hs
  simp only [Option.some.injEq, TimerEvent.start.injEq] at hs
  exact ⟨hs.1.symm, hs.2.2.2.2.symm⟩

theorem snoc (h : Pending hist t x) (e : TimerEvent)
    (hcancel : x.repeatMs = 0 → Cancels (hist ++ [e]) t x.dueMs hist.length → InBatch hist hist.length x.start)
    (hcall : x.repeatMs = 0 → ¬Invoked (hist ++ [e]) hist.length x.start) : Pending (hist ++ [e]) t x := by
  have hlt := h.start_lt
  obtain ⟨timeoutMs, hs, hdue⟩ := h.started
  refine ⟨⟨timeoutMs, (getElem?_snoc_lt hlt e).trans hs, fun h0 => ?_⟩, fun h0 i hi hc => ?_, fun h0 j hj => ?_⟩
  · rw [clockAt_snoc (Nat.le_of_lt hlt)]
    exact hdue h0
  · rcases Nat.lt_or_ge i hist.length with hlt' | hge
    · exact (inBatch_snoc (Nat.le_of_lt hlt') e).2 (h.stands h0 i hi ((cancels_snoc hlt' e).1 hc))
    · have : i = hist.length := by
        have := cancels_lt hc
        rw [length_append, length_singleton] at this
        omega
      subst this
      exact (inBatch_snoc (Nat.le_refl _) e).2 (hcancel h0 hc)
  · rcases Nat.lt_or_ge j hist.length with hlt' | hge
    · exact h.unused h0 j ((invoked_snoc hlt' e).1 hj)
    · have : j = hist.length := by
        have := invoked_lt hj
        rw [length_append, length_singleton] at this
        omega
      exact hcall h0 (this ▸ hj)

end Pending

/-! ## The invariant -/

/-- **What holds after a run**: every armed timer and every copy is pending, the copies are due, and no start is in two
places. -/
structure TimersInv (hist : List TimerEvent) (w : QuicTimers) : Prop where
  linked : Linked w
  armed : ∀ t ∈ w.head, Pending hist t (w.timers t)
  batch : ∀ f ∈ w.fire, Pending hist f.timer f.was ∧ f.was.dueMs ≤ w.now ∧ f.cb = f.was.cb
  apart : w.fire.Pairwise fun f g => g.was.repeatMs = 0 → f.was.start ≠ g.was.start
  free : ∀ t ∈ w.head, ∀ f ∈ w.fire, f.was.repeatMs = 0 → (w.timers t).start ≠ f.was.start

namespace TimersInv

variable {hist : List TimerEvent} {w : QuicTimers}

theorem unlink (h : TimersInv hist w) (t : Nat) : TimersInv hist (timerUnlink w t) := by
  obtain ⟨hnow, hfire, -, -⟩ := timerUnlink_rest w t
  refine ⟨timerUnlink_linked h.linked t, fun s hs => ?_, ?_, ?_, fun s hs f hf h0 => ?_⟩
  · obtain ⟨hne, hs⟩ := (timerUnlink_mem h.linked).1 hs
    rw [timerUnlink_timers hne]
    exact h.armed s hs
  · rw [hfire, hnow]
    exact h.batch
  · rw [hfire]
    exact h.apart
  · obtain ⟨hne, hs⟩ := (timerUnlink_mem h.linked).1 hs
    rw [timerUnlink_timers hne]
    exact h.free s hs f (hfire ▸ hf) h0

theorem link (h : TimersInv hist w) {t : Nat} {x : QuicTimer} (ht : t ∉ w.head) (hx : Pending hist t x)
    (hfree : ∀ f ∈ w.fire, f.was.repeatMs = 0 → x.start ≠ f.was.start) : TimersInv hist (timerLinkSorted (w.setTimer t x) t) := by
  have hmem : ∀ {s}, s ∈ (timerLinkSorted (w.setTimer t x) t).head → s = t ∨ s ∈ w.head := fun hs =>
    List.mem_cons.1 ((linkSorted_perm _ t w.head).mem_iff.1 hs)
  have hself : (timerLinkSorted (w.setTimer t x) t).timers t = { x with active := true } := by
    simp [timerLinkSorted, QuicTimers.setTimer]
  have hother : ∀ {s}, s ≠ t → (timerLinkSorted (w.setTimer t x) t).timers s = w.timers s := fun hs => by
    simp [timerLinkSorted, QuicTimers.setTimer, hs]
  refine ⟨timerLinkSorted_linked h.linked ht x, fun s hs => ?_, h.batch, h.apart, fun s hs f hf h0 => ?_⟩
  · rcases hmem hs with rfl | hs
    · rw [hself]
      exact ⟨hx.started, hx.stands, hx.unused⟩
    · rw [hother (fun he => ht (he ▸ hs))]
      exact h.armed s hs
  · rcases hmem hs with rfl | hs
    · rw [hself]
      exact hfree f hf h0
    · rw [hother (fun he => ht (he ▸ hs))]
      exact h.free s hs f hf h0

theorem fireTimer (h : TimersInv hist w) {t : Nat} (ht : t ∈ w.head) (hdue : (w.timers t).dueMs ≤ w.now) :
    TimersInv hist (fireTimer w t) := by
  have hx := h.armed t ht
  have hu := h.unlink t
  obtain ⟨hnow, hfire, -, -⟩ := timerUnlink_rest w t
  have hout : t ∉ (timerUnlink w t).head := fun hs => ((timerUnlink_mem h.linked).1 hs).1 rfl
  have hcopy : TimersInv hist { timerUnlink w t with
      fire := (timerUnlink w t).fire ++
        [{ cb := (w.timers t).cb, user := (w.timers t).user, timer := t, was := w.timers t }] } := by
    refine ⟨⟨hu.linked.nodup, hu.linked.active⟩, hu.armed, fun f hf => ?_, List.pairwise_append.2 ⟨hu.apart, pairwise_singleton _ _, ?_⟩,
      fun s hs f hf h0 => ?_⟩
    · rcases List.mem_append.1 hf with hf | hf
      · exact hu.batch f hf
      · rw [List.mem_singleton.1 hf]
        exact ⟨hx, hnow ▸ hdue, rfl⟩
    · intro f hf g hg h0
      rw [List.mem_singleton.1 hg] at h0 ⊢
      rw [hfire] at hf
      intro he
      have hsame := (h.batch f hf).1.same hx he
      exact h.free t ht f hf (hsame.2.trans h0) he.symm
    · rcases List.mem_append.1 hf with hf | hf
      · exact hu.free s hs f hf h0
      · rw [List.mem_singleton.1 hf]
        obtain ⟨hne, hs'⟩ := (timerUnlink_mem h.linked).1 hs
        rw [timerUnlink_timers hne]
        exact fun he => hne ((h.armed s hs').same hx he).1
  unfold MoqLiveCast.fireTimer
  dsimp only
  split
  · rename_i hrep
    have hrep : 0 < (w.timers t).repeatMs := hrep
    have hfields : (timerUnlink w t).timers t = { w.timers t with active := false } := by
      unfold timerUnlink
      split
      · exact Function.update_self _ _ _
      · rename_i hidle
        exact absurd ((h.linked.active t).1 ht) hidle
    refine hcopy.link hout ?_ (fun f hf h0 he => ?_)
    · rw [hfields]
      obtain ⟨timeoutMs, hs, -⟩ := hx.started
      have hne : ¬(w.timers t).repeatMs = 0 := by omega
      exact ⟨⟨timeoutMs, hs, fun h0 => absurd h0 hne⟩, fun h0 => absurd h0 hne, fun h0 => absurd h0 hne⟩
    · rw [hfields] at he
      have hpend : Pending hist f.timer f.was := (hcopy.batch f hf).1
      have := (hx.same hpend he).2
      omega
  · exact hcopy

theorem fireDue : ∀ (n : Nat) {w : QuicTimers}, TimersInv hist w → TimersInv hist (fireDue n w)
  | 0, _, h => h
  | n + 1, w, h => by
    unfold MoqLiveCast.fireDue
    split
    · exact h
    · rename_i t l hhead
      split
      · rename_i hdue
        exact fireDue n (h.fireTimer (hhead ▸ mem_cons_self) hdue)
      · exact h

theorem snoc (h : TimersInv hist w) (e : TimerEvent) (hcancel : ∀ t ∈ w.head, ¬Cancels (hist ++ [e]) t (w.timers t).dueMs
    hist.length) (hbatch : ∀ f ∈ w.fire, InBatch hist hist.length f.was.start) (hcall : ∀ k, Invoked (hist ++ [e]) hist.length k →
    (∀ t ∈ w.head, (w.timers t).repeatMs = 0 → (w.timers t).start ≠ k) ∧ ∀ f ∈ w.fire, f.was.repeatMs = 0 → f.was.start ≠ k) :
    TimersInv (hist ++ [e]) w := by
  refine ⟨h.linked, fun t ht => ?_, fun f hf => ⟨?_, (h.batch f hf).2⟩, h.apart, h.free⟩
  · exact (h.armed t ht).snoc e (fun _ hc => absurd hc (hcancel t ht)) (fun h0 hc => (hcall _ hc).1 t ht h0 rfl)
  · exact (h.batch f hf).1.snoc e (fun _ _ => hbatch f hf) (fun h0 hc => (hcall _ hc).2 f hf h0 rfl)

theorem numbered (h : TimersInv hist w) (n : Nat) : TimersInv hist { w with events := n } :=
  ⟨⟨h.linked.nodup, h.linked.active⟩, h.armed, h.batch, h.apart, h.free⟩

end TimersInv

/-! ## Steps -/

structure TimersRun (hist : List TimerEvent) (w : QuicTimers) : Prop where
  reached : hist.foldlM timerStep {} = some w
  events : w.events = hist.length
  past : ∀ j k, Invoked hist j k → k < hist.length
  inv : TimersInv hist w
  idle : w.loop = false → w.head = [] ∧ w.fire = []

namespace TimersRun

variable {hist : List TimerEvent} {w : QuicTimers}

variable {e : TimerEvent}

theorem cancels_last (h : TimersRun hist w) {t due : Nat} : Cancels (hist ++ [e]) t due hist.length ↔ e = .stop t ∨
    ∃ cb user timeoutMs repeatMs, e = .start t cb user timeoutMs repeatMs ∧ due < add64 w.now timeoutMs := by
  unfold Cancels
  rw [clockAt_length h.reached]
  simp

theorem invoked_last (h : TimersRun hist w) {k : Nat} : Invoked (hist ++ [e]) hist.length k ↔ e = .call ∧ ∃ f rest, w.fire =
    f :: rest ∧ f.cb.isSome = true ∧ f.was.start = k := by
  unfold Invoked
  rw [take_left, h.reached]
  simp

theorem inBatch_last (h : TimersRun hist w) {f : QuicTimerFire} (hf : f ∈ w.fire) : InBatch hist hist.length f.was.start :=
  ⟨w, by rw [take_length]; exact h.reached, f, hf, rfl⟩

theorem snoc_other (h : TimersRun hist w) (hstop : ∀ t, e ≠ .stop t) (hstart : ∀ t cb user timeoutMs repeatMs, e ≠ .start t cb
    user timeoutMs repeatMs) (hcall : e ≠ .call) : TimersInv (hist ++ [e]) w := by
  have hnone : ∀ {t due}, ¬Cancels (hist ++ [e]) t due hist.length := fun hc => by
    obtain hc | ⟨cb, user, timeoutMs, repeatMs, hc, -⟩ := h.cancels_last.1 hc
    · exact hstop _ hc
    · exact hstart _ _ _ _ _ hc
  exact h.inv.snoc e (fun _ _ => hnone) (fun _ hf => h.inBatch_last hf)
    (fun k hk => absurd (h.invoked_last.1 hk).1 hcall)

theorem stop (h : TimersRun hist w) (t : Nat) : TimersInv (hist ++ [.stop t]) (quicTimerStop w t) := by
  have hfire := (timerUnlink_rest w t).2.1
  refine (h.inv.unlink t).snoc _ (fun s hs hc => ?_) (fun f hf => h.inBatch_last (hfire ▸ hf)) (fun k hk => ?_)
  · obtain hc | ⟨_, _, _, _, hc, -⟩ := h.cancels_last.1 hc
    · exact ((timerUnlink_mem h.inv.linked).1 hs).1 (TimerEvent.stop.inj hc).symm
    · cases hc
  · cases (h.invoked_last.1 hk).1

theorem start (h : TimersRun hist w) (t : Nat) (cb : Option Nat) (user timeoutMs repeatMs : Nat) :
    TimersInv (hist ++ [.start t cb user timeoutMs repeatMs]) (quicTimerStart w t cb user timeoutMs repeatMs) := by
  obtain ⟨hnow, hfire, hevents, -⟩ := timerUnlink_rest w t
  have hsnoc : TimersInv (hist ++ [.start t cb user timeoutMs repeatMs]) (timerUnlink w t) := by
    refine (h.inv.unlink t).snoc _ (fun s hs hc => ?_) (fun f hf => h.inBatch_last (hfire ▸ hf)) (fun k hk => ?_)
    · obtain hc | ⟨_, _, _, _, hc, -⟩ := h.cancels_last.1 hc
      · cases hc
      · injection hc with hts
        exact ((timerUnlink_mem h.inv.linked).1 hs).1 hts.symm
    · cases (h.invoked_last.1 hk).1
  have hlast : (hist ++ [TimerEvent.start t cb user timeoutMs repeatMs])[hist.length]? =
      some (.start t cb user timeoutMs repeatMs) := by simp
  unfold quicTimerStart
  split
  · refine hsnoc.link (fun hs => ((timerUnlink_mem h.inv.linked).1 hs).1 rfl) ?_ (fun f hf _ he => ?_)
    · refine ⟨⟨timeoutMs, ?_, fun h0 => ⟨w.now, ?_, ?_⟩⟩, fun h0 i hi hc => ?_, fun h0 j hj => ?_⟩
      · rw [hevents, h.events]
        exact hlast
      · rw [hevents, h.events]
        exact clockAt_length h.reached _
      · rw [hnow]
      · have hlt := cancels_lt hc
        rw [length_append, length_singleton] at hlt
        rw [hevents, h.events] at hi
        dsimp only at hi
        omega
      · have hlt := invoked_lt hj
        rw [length_append, length_singleton] at hlt
        rw [hevents, h.events] at hj
        rcases Nat.lt_or_ge j hist.length with hj' | hj'
        · exact absurd (h.past j _ ((invoked_snoc hj' _).1 hj)) (Nat.lt_irrefl _)
        · have : j = hist.length := by omega
          subst this
          cases (h.invoked_last.1 hj).1
    · have hpend := (h.inv.batch f (hfire ▸ hf)).1.start_lt
      rw [hevents, h.events] at he
      dsimp only at he
      omega
  · rename_i hloop
    -- before the wheel there is nothing a start could replace
    have hhead := (h.idle (Bool.eq_false_iff.2 hloop)).1
    refine h.inv.snoc _ (fun s hs => ?_) (fun f hf => h.inBatch_last hf) (fun k hk => ?_)
    · rw [hhead] at hs
      cases hs
    · cases (h.invoked_last.1 hk).1

theorem call (h : TimersRun hist w) {f : QuicTimerFire} {rest : List QuicTimerFire} (hfire : w.fire = f :: rest) :
    TimersInv (hist ++ [.call]) { w with fire := rest } := by
  have hmem : f ∈ w.fire := hfire ▸ mem_cons_self
  have hapart := h.inv.apart
  rw [hfire] at hapart
  obtain ⟨hfirst, hrest⟩ := List.pairwise_cons.1 hapart
  have hsub : ∀ {g}, g ∈ rest → g ∈ w.fire := fun hg => hfire ▸ mem_cons_of_mem _ hg
  have hpopped : TimersInv hist { w with fire := rest } :=
    ⟨⟨h.inv.linked.nodup, h.inv.linked.active⟩, h.inv.armed, fun g hg => h.inv.batch g (hsub hg), hrest,
      fun t ht g hg => h.inv.free t ht g (hsub hg)⟩
  have hnone : ∀ {t due}, ¬Cancels (hist ++ [.call]) t due hist.length := fun hc => by
    obtain hc | ⟨_, _, _, _, hc, -⟩ := h.cancels_last.1 hc <;> cases hc
  refine hpopped.snoc _ (fun _ _ => hnone) (fun g hg => h.inBatch_last (hsub hg)) (fun k hk => ?_)
  obtain ⟨-, f', rest', hf', -, rfl⟩ := h.invoked_last.1 hk
  rw [hfire] at hf'
  obtain ⟨rfl, rfl⟩ := List.cons.inj hf'
  refine ⟨fun t ht h0 he => ?_, fun g hg h0 he => hfirst g hg h0 he.symm⟩
  exact h.inv.free t ht f hmem (((h.inv.armed t ht).same (h.inv.batch f hmem).1 he).2.symm.trans h0) he

theorem effect (h : TimersRun hist w) {v : QuicTimers} (heffect : timerEffect w e = some v) :
    TimersInv (hist ++ [e]) v ∧ v.events = w.events ∧ (v.loop = false → v.head = [] ∧ v.fire = []) := by
  cases e with
  | wheelInit =>
    obtain rfl := Option.some.inj heffect
    have hw := h.snoc_other (e := .wheelInit) nofun nofun nofun
    exact ⟨⟨⟨hw.linked.nodup, hw.linked.active⟩, hw.armed, hw.batch, hw.apart, hw.free⟩, rfl, nofun⟩
  | start t cb user timeoutMs repeatMs =>
    obtain rfl := Option.some.inj heffect
    obtain ⟨hevents, hloop⟩ := quicTimerStart_rest w t cb user timeoutMs repeatMs
    refine ⟨h.start t cb user timeoutMs repeatMs, hevents, fun hl => ?_⟩
    rw [hloop] at hl
    unfold quicTimerStart
    rw [hl]
    exact h.idle hl
  | stop t =>
    obtain rfl := Option.some.inj heffect
    obtain ⟨-, hfire, hevents, hloop⟩ := timerUnlink_rest w t
    refine ⟨h.stop t, hevents, fun hl => ?_⟩
    obtain ⟨hhead, hidle⟩ := h.idle (hloop.symm.trans hl)
    refine ⟨List.eq_nil_iff_forall_not_mem.2 fun s hs => ?_, hfire.trans hidle⟩
    have hs' := ((timerUnlink_mem h.inv.linked).1 hs).2
    rw [hhead] at hs'
    cases hs'
  | clock ms =>
    dsimp only [timerEffect] at heffect
    split at heffect
    · obtain rfl := Option.some.inj heffect
      have hw := h.snoc_other (e := .clock ms) nofun nofun nofun
      refine ⟨⟨⟨hw.linked.nodup, hw.linked.active⟩, hw.armed, fun f hf => ?_, hw.apart, hw.free⟩, rfl, h.idle⟩
      obtain ⟨hpend, hdue, hcb⟩ := hw.batch f hf
      exact ⟨hpend, Nat.le_trans hdue (Nat.le_add_right _ _), hcb⟩
    · cases heffect
  | wheel =>
    dsimp only [timerEffect] at heffect
    split at heffect
    · obtain rfl := Option.some.inj heffect
      have hw := h.snoc_other (e := .wheel) nofun nofun nofun
      unfold onWheel
      split
      · rename_i hloop
        obtain ⟨hevents, hloop'⟩ := fireDue_rest QUIC_TIMER_MAX_FIRE w
        refine ⟨hw.fireDue _, hevents, fun hl => ?_⟩
        rw [hloop', hloop] at hl
        cases hl
      · exact ⟨hw, rfl, h.idle⟩
    · cases heffect
  | call =>
    dsimp only [timerEffect] at heffect
    cases hfire : w.fire with
    | nil =>
      rw [hfire] at heffect
      cases heffect
    | cons f rest =>
      rw [hfire] at heffect
      obtain rfl := Option.some.inj heffect
      refine ⟨h.call hfire, rfl, fun hl => ?_⟩
      have hempty := (h.idle hl).2
      rw [hfire] at hempty
      cases hempty

theorem step (h : TimersRun hist w) {w' : QuicTimers} (hstep : timerStep w e = some w') : TimersRun (hist ++ [e]) w' := by
  obtain ⟨v, heffect, rfl⟩ := Option.map_eq_some_iff.1 hstep
  obtain ⟨hinv, hevents, hidle⟩ := h.effect heffect
  refine ⟨?_, ?_, fun j k hk => ?_, hinv.numbered _, hidle⟩
  · rw [foldlM_append, h.reached]
    exact (foldlM_cons_some timerStep).2 ⟨_, hstep, rfl⟩
  · rw [length_append, length_singleton, hevents, h.events]
  · rw [length_append, length_singleton]
    rcases Nat.lt_or_ge j hist.length with hj | hj
    · exact Nat.lt_succ_of_lt (h.past j k ((invoked_snoc hj e).1 hk))
    · have : j = hist.length := by
        have := invoked_lt hk
        rw [length_append, length_singleton] at this
        omega
      subst this
      obtain ⟨-, f, rest, hfire, -, rfl⟩ := h.invoked_last.1 hk
      exact Nat.lt_succ_of_lt (h.inv.batch f (hfire ▸ mem_cons_self)).1.start_lt

theorem init : TimersRun [] {} :=
  ⟨rfl, rfl, fun _ _ hk => absurd (invoked_lt hk) (Nat.not_lt_zero _),
    ⟨⟨nodup_nil, fun _ => ⟨nofun, nofun⟩⟩, nofun, nofun, List.Pairwise.nil, nofun⟩, fun _ => ⟨rfl, rfl⟩⟩

end TimersRun

/-! ## Runs -/

theorem run_timersRun {i : Nat} {w : QuicTimers}
    (hrun : (hist.take i).foldlM timerStep {} = some w) : TimersRun (hist.take i) w :=
  foldlM_hist timerStep (fun _ _ => True) TimersRun (fun _ _ _ _ h _ hs => h.step hs) (hist.take i) [] {} w
    TimersRun.init (stepsOkM_of_forall _ _ _ _ fun _ _ _ => trivial) hrun

theorem invoked_take {i j k : Nat} (h : j < i) (hj : Invoked hist j k) : Invoked (hist.take i) j k := by
  obtain ⟨hcall, w, f, rest, hrun, hfire⟩ := hj
  refine ⟨(List.getElem?_take_of_lt h).trans hcall, w, f, rest, ?_, hfire⟩
  rw [take_take, Nat.min_eq_left (Nat.le_of_lt h)]
  exact hrun

theorem clockAt_take {i j : Nat} (h : i ≤ j) : clockAt (hist.take j) i = clockAt hist i := by
  unfold clockAt
  rw [take_take, Nat.min_eq_left h]

theorem cancels_take {t due i j : Nat} (h : i < j) : Cancels (hist.take j) t due i ↔ Cancels hist t due i := by
  unfold Cancels
  rw [List.getElem?_take_of_lt h, clockAt_take (Nat.le_of_lt h)]

theorem inBatch_take {i j k : Nat} (h : i ≤ j) : InBatch (hist.take j) i k ↔ InBatch hist i k := by
  unfold InBatch
  rw [take_take, Nat.min_eq_left h]

theorem invoked_pending {j k t : Nat} {cb : Option Nat} {user timeoutMs : Nat} (hk : hist[k]? = some (.start t cb user timeoutMs
    0)) (hj : Invoked hist j k) : ∃ w x, (hist.take j).foldlM timerStep {} = some w ∧ Pending (hist.take j) t x ∧ x.start = k ∧
    x.repeatMs = 0 ∧ x.dueMs ≤ w.now := by
  obtain ⟨-, w, f, rest, hrun, hfire, -, rfl⟩ := hj
  obtain ⟨hpend, hdue, -⟩ := (run_timersRun hrun).inv.batch f (hfire ▸ mem_cons_self)
  have hlt := hpend.start_lt
  obtain ⟨_, hs, -⟩ := hpend.started
  rw [List.getElem?_take_of_lt (by rw [length_take] at hlt; omega), hk] at hs
  injection hs with hs
  injection hs with ht _ _ _ h0
  subst ht
  exact ⟨w, f.was, hrun, hpend, rfl, h0.symm, hdue⟩

theorem invoked_once {j j' k t : Nat} {cb : Option Nat} {user timeoutMs : Nat}
    (hk : hist[k]? = some (.start t cb user timeoutMs 0)) (hj : Invoked hist j k) (hj' : Invoked hist j' k) : ¬j' < j := by
  intro hlt
  obtain ⟨w, x, -, hpend, rfl, h0, -⟩ := invoked_pending hk hj
  exact hpend.unused h0 j' (invoked_take hlt hj')

/-- **Callbacks of one-shot timers are invoked in their time** in every run; a stop or a later start is too late when a
running `on_wheel` has copied the timer. -/
theorem oneShotsFireRight (hist : List TimerEvent) : OneShotsFireRight (InBatch hist) hist := by
  intro j k t cb user timeoutMs hk hj
  refine ⟨fun j' hj' => ?_, ?_⟩
  · have h1 := invoked_once hk hj hj'
    have h2 := invoked_once hk hj' hj
    omega
  · obtain ⟨w, x, hrun, hpend, rfl, h0, hdue⟩ := invoked_pending hk hj
    have hlt : x.start < j := by
      have := hpend.start_lt
      rw [length_take] at this
      omega
    obtain ⟨timeoutMs', hs, hclock⟩ := hpend.started
    obtain ⟨started, hstarted, hsum⟩ := hclock h0
    rw [List.getElem?_take_of_lt hlt, hk] at hs
    injection hs with hs
    injection hs with _ _ _ htm
    subst htm
    rw [clockAt_take (Nat.le_of_lt hlt)] at hstarted
    rw [hsum] at hdue
    refine ⟨started, w.now, hstarted, ?_, hdue, fun i hi hij hc => ?_⟩
    · unfold clockAt
      rw [hrun]
      rfl
    · rw [← hsum] at hc
      exact (inBatch_take (Nat.le_of_lt hij)).1 (hpend.stands h0 i hi ((cancels_take hij).2 hc))

/-- Two timers are due in one `on_wheel`, and the callback of the first stops the second. -/
def stoppedInBatch : List TimerEvent :=
  [.wheelInit, .start 0 (some 0) 0 5 0, .start 1 (some 1) 0 5 0, .clock 5, .wheel, .call, .stop 1, .call]

/-- **The stopped timer is called**, if no stop is to be too late. -/
theorem stoppedInBatch_fires : ¬OneShotsFireRight (fun _ _ => False) stoppedInBatch := by
  intro h
  have hcalled : Invoked stoppedInBatch 7 2 := ⟨rfl, _, _, _, rfl, rfl, rfl, rfl⟩
  obtain ⟨-, started, now, -, -, -, hstands⟩ := h 7 2 1 (some 1) 0 5 rfl hcalled
  exact hstands 6 (by decide) (by decide) (.inl rfl)

end MoqLiveCast
