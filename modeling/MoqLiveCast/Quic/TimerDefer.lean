import Mathlib.Data.List.Basic
import Mathlib.Data.List.Perm.Basic
import MoqLiveCast.Quic.Timer
/-!
# TimerDefer — frees that wait for the end of `on_wheel` (`quic_timer.c`)

`quic_timer_defer_free` queues what it is asked for until the last callback has returned. The queue has 64 places, and
what comes when it is full is freed at once: the frees wait exactly if the callbacks of a pass ask for 64 at most
(`frees_wait_iff`).
-/
namespace MoqLiveCast

open List

def QUIC_TIMER_MAX_DEFER : Nat := 64

/-- A call of `quic_timer_defer_free`, with the calls its `fn` makes when it runs. -/
inductive DeferCall where
  | mk (p fn : Option Nat) (inside : List DeferCall)

inductive DeferEffect where
  /-- a callback has returned -/
  | returned (cb user : Nat)
  /-- `fn(p)` is run -/
  | freed (fn p : Nat)
deriving DecidableEq

structure DeferQueue where
  /-- `g_dispatching` -/
  dispatching : Bool := false
  /-- the first `g_defer_n` places of `g_defer_ptr` and `g_defer_fn` -/
  deferred : List DeferCall := []
  trace : List DeferEffect := []

namespace DeferQueue

def note (w : DeferQueue) (e : DeferEffect) : DeferQueue := { w with trace := w.trace ++ [e] }

def push (w : DeferQueue) (c : DeferCall) : DeferQueue := { w with deferred := w.deferred ++ [c] }

end DeferQueue

mutual

def quicTimerDeferFree : DeferCall → DeferQueue → DeferQueue
  | .mk none _ _, w => w
  | .mk (some _) none _, w => w
  | .mk (some p) (some fn) inside, w =>
    if w.dispatching = false then quicTimerDeferFrees inside (w.note (.freed fn p))
    else if QUIC_TIMER_MAX_DEFER ≤ w.deferred.length then quicTimerDeferFrees inside (w.note (.freed fn p))
    else w.push (.mk (some p) (some fn) inside)

def quicTimerDeferFrees : List DeferCall → DeferQueue → DeferQueue
  | [], w => w
  | c :: l, w => quicTimerDeferFrees l (quicTimerDeferFree c w)

end

/-- A place of the queue: `fn(p)`, unless one of them is NULL. -/
def runFree (w : DeferQueue) : DeferCall → DeferQueue
  | .mk (some p) (some fn) inside => quicTimerDeferFrees inside (w.note (.freed fn p))
  | .mk _ _ _ => w

def runDeferredFrees (w : DeferQueue) : DeferQueue := w.deferred.foldl runFree { w with deferred := [] }

def fireCall (calls : Nat → List DeferCall) (w : DeferQueue) (x : QuicTimerFire × Nat) : DeferQueue :=
  match x.1.cb with
  | none => w
  | some cb => (quicTimerDeferFrees (calls x.2) w).note (.returned cb x.1.user)

/-- `on_wheel` once its batch is copied; `calls i` is what the callback of copy `i` asks for. -/
def onWheelCalls (w : DeferQueue) (batch : List QuicTimerFire) (calls : Nat → List DeferCall) : DeferQueue :=
  runDeferredFrees { batch.zipIdx.foldl (fireCall calls) { w with dispatching := true } with dispatching := false }

/-! ## Runs -/

/-- What happens in the program: a pass of the wheel, or a call outside of one. -/
inductive DeferEvent where
  | pass (batch : List QuicTimerFire) (calls : Nat → List DeferCall)
  | outside (c : DeferCall)

def deferStep (w : DeferQueue) : DeferEvent → DeferQueue
  | .pass batch calls => onWheelCalls w batch calls
  | .outside c => quicTimerDeferFree c w

def deferRun (hist : List DeferEvent) : DeferQueue := hist.foldl deferStep {}

/-! ## What a pass asks for -/

def DeferCall.real : DeferCall → Bool
  | .mk p fn _ => p.isSome && fn.isSome

mutual

/-- What a call runs in the end, with what its `fn` asks for. -/
def DeferCall.runs : DeferCall → List (Nat × Nat)
  | .mk (some p) (some fn) inside => (fn, p) :: runsAll inside
  | .mk none _ _ => []
  | .mk (some _) none _ => []

def runsAll : List DeferCall → List (Nat × Nat)
  | [] => []
  | c :: l => c.runs ++ runsAll l

end

def batchCalls (batch : List (QuicTimerFire × Nat)) (calls : Nat → List DeferCall) : List DeferCall :=
  batch.flatMap fun x => if x.1.cb.isSome then calls x.2 else []

def DeferEffect.isFreed : DeferEffect → Bool
  | .freed _ _ => true
  | .returned _ _ => false

def freedOf (t : List DeferEffect) : List (Nat × Nat) :=
  t.filterMap fun e => match e with
    | .freed fn p => some (fn, p)
    | .returned _ _ => none

/-- **The frees of a pass wait for its end**: what is run is run after the last callback has returned, and each that was
asked for is run once. -/
def FreesWait (w : DeferQueue) (batch : List QuicTimerFire) (calls : Nat → List DeferCall) : Prop :=
  ∃ t, (onWheelCalls w batch calls).trace = w.trace ++ t ∧ t.Pairwise (fun e e' => e.isFreed = true → e'.isFreed = true) ∧
    (freedOf t).Perm (runsAll (batchCalls batch.zipIdx calls))

/-! ## One call -/

theorem freedOf_append (t t' : List DeferEffect) : freedOf (t ++ t') = freedOf t ++ freedOf t' := filterMap_append

theorem runsAll_append : ∀ l l' : List DeferCall, runsAll (l ++ l') = runsAll l ++ runsAll l'
  | [], _ => rfl
  | c :: l, l' => by
    show c.runs ++ runsAll (l ++ l') = (c.runs ++ runsAll l) ++ runsAll l'
    rw [runsAll_append l l', append_assoc]

def DeferQueue.owed (w : DeferQueue) : List (Nat × Nat) := freedOf w.trace ++ runsAll w.deferred

theorem owed_note (w : DeferQueue) (fn p : Nat) : (w.note (.freed fn p)).owed.Perm ((fn, p) :: w.owed) := by
  unfold DeferQueue.owed DeferQueue.note
  rw [freedOf_append, append_assoc]
  exact perm_middle

/-- A queue after calls: in the same pass, and what was noted are frees. -/
structure Deferred (w w' : DeferQueue) (l : List (Nat × Nat)) : Prop where
  dispatching : w'.dispatching = w.dispatching
  trace : ∃ t, w'.trace = w.trace ++ t ∧ ∀ e ∈ t, e.isFreed = true
  owed : w'.owed.Perm (l ++ w.owed)
  idle : w.dispatching = false → w'.deferred = w.deferred

theorem Deferred.refl (w : DeferQueue) : Deferred w w [] :=
  ⟨rfl, ⟨[], (append_nil _).symm, fun _ h => absurd h not_mem_nil⟩, List.Perm.refl _, fun _ => rfl⟩

theorem Deferred.trans {w w₁ w₂ : DeferQueue} {l l' : List (Nat × Nat)} (h : Deferred w w₁ l) (h' : Deferred w₁ w₂ l') :
    Deferred w w₂ (l ++ l') := by
  obtain ⟨t, ht, hf⟩ := h.trace
  obtain ⟨t', ht', hf'⟩ := h'.trace
  refine ⟨h'.dispatching.trans h.dispatching, ⟨t ++ t', ?_, fun e he => ?_⟩, ?_, fun hidle => ?_⟩
  · rw [ht', ht, append_assoc]
  · exact (List.mem_append.1 he).elim (hf e) (hf' e)
  · have hperm := h'.owed.trans (h.owed.append_left l')
    refine hperm.trans ?_
    rw [← append_assoc]
    exact List.perm_append_comm.append_right _
  · exact (h'.idle (h.dispatching.trans hidle)).trans (h.idle hidle)

theorem Deferred.note (w : DeferQueue) (fn p : Nat) : Deferred w (w.note (.freed fn p)) [(fn, p)] :=
  ⟨rfl, ⟨[.freed fn p], rfl, fun e he => by rw [List.mem_singleton.1 he]; rfl⟩, owed_note w fn p, fun _ => rfl⟩

mutual

theorem quicTimerDeferFree_deferred : ∀ (c : DeferCall) (w : DeferQueue), Deferred w (quicTimerDeferFree c w) c.runs
  | .mk none _ _, w => Deferred.refl w
  | .mk (some _) none _, w => Deferred.refl w
  | .mk (some p) (some fn) inside, w => by
    have hrun := (Deferred.note w fn p).trans (quicTimerDeferFrees_deferred inside (w.note (.freed fn p)))
    unfold quicTimerDeferFree
    split
    · exact hrun
    · rename_i hbusy
      split
      · exact hrun
      · refine ⟨rfl, (Deferred.refl w).trace, ?_, fun hidle => absurd hidle hbusy⟩
        unfold DeferQueue.owed DeferQueue.push
        rw [runsAll_append, ← append_assoc]
        have hone : runsAll [.mk (some p) (some fn) inside] = (DeferCall.mk (some p) (some fn) inside).runs :=
          append_nil _
        rw [hone]
        exact perm_append_comm

theorem quicTimerDeferFrees_deferred : ∀ (l : List DeferCall) (w : DeferQueue), Deferred w (quicTimerDeferFrees l w) (runsAll l)
  | [], w => Deferred.refl w
  | c :: l, w => (quicTimerDeferFree_deferred c w).trans (quicTimerDeferFrees_deferred l (quicTimerDeferFree c w))

end

/-! ## The callbacks of a pass -/

theorem quicTimerDeferFrees_queued : ∀ (l : List DeferCall) (w : DeferQueue), w.dispatching = true →
    w.deferred.length + (l.filter DeferCall.real).length ≤ QUIC_TIMER_MAX_DEFER →
      quicTimerDeferFrees l w = { w with deferred := w.deferred ++ l.filter DeferCall.real }
  | [], w, _, _ => by
    rw [filter_nil, append_nil]
    rfl
  | c :: l, w, hon, hfit => by
    show quicTimerDeferFrees l (quicTimerDeferFree c w) = _
    match c with
    | .mk none _ _ | .mk (some _) none _ => exact quicTimerDeferFrees_queued l w hon hfit
    | .mk (some p) (some fn) inside =>
      have hlen : (List.filter DeferCall.real (.mk (some p) (some fn) inside :: l)).length =
          (l.filter DeferCall.real).length + 1 := rfl
      have hpush : quicTimerDeferFree (.mk (some p) (some fn) inside) w = w.push (.mk (some p) (some fn) inside) := by
        unfold quicTimerDeferFree
        rw [if_neg (by simp [hon]), if_neg (by omega)]
      rw [hpush]
      refine (quicTimerDeferFrees_queued l (w.push (.mk (some p) (some fn) inside)) hon ?_).trans ?_
      · show (w.deferred ++ [_]).length + _ ≤ _
        rw [length_append, length_singleton]
        omega
      · show { w with deferred := (w.deferred ++ [_]) ++ _ } = _
        rw [append_assoc]
        rfl

theorem quicTimerDeferFrees_overflow : ∀ (l : List DeferCall) (w : DeferQueue), w.dispatching = true →
    QUIC_TIMER_MAX_DEFER < w.deferred.length + (l.filter DeferCall.real).length →
    w.deferred.length ≤ QUIC_TIMER_MAX_DEFER → ∃ t e, (quicTimerDeferFrees l w).trace = w.trace ++ e :: t ∧ e.isFreed = true
  | [], w, _, hover, hle => absurd hover (by
      show ¬ QUIC_TIMER_MAX_DEFER < w.deferred.length + 0
      omega)
  | c :: l, w, hon, hover, hle => by
    show ∃ t e, (quicTimerDeferFrees l (quicTimerDeferFree c w)).trace = w.trace ++ e :: t ∧ e.isFreed = true
    match c with
    | .mk none _ _ | .mk (some _) none _ => exact quicTimerDeferFrees_overflow l w hon hover hle
    | .mk (some p) (some fn) inside =>
      have hlen : (List.filter DeferCall.real (.mk (some p) (some fn) inside :: l)).length =
          (l.filter DeferCall.real).length + 1 := rfl
      unfold quicTimerDeferFree
      rw [if_neg (by simp [hon])]
      by_cases hfull : QUIC_TIMER_MAX_DEFER ≤ w.deferred.length
      · rw [if_pos hfull]
        obtain ⟨t, ht, -⟩ := (quicTimerDeferFrees_deferred inside (w.note (.freed fn p))).trace
        obtain ⟨t', ht', -⟩ := (quicTimerDeferFrees_deferred l (quicTimerDeferFrees inside (w.note (.freed fn p)))).trace
        refine ⟨t ++ t', .freed fn p, ?_, rfl⟩
        rw [ht', ht]
        show ((w.trace ++ [.freed fn p]) ++ t) ++ t' = _
        rw [append_assoc, append_assoc]
        rfl
      · rw [if_neg hfull]
        have hpushed : (w.push (.mk (some p) (some fn) inside)).deferred.length = w.deferred.length + 1 := by
          show (w.deferred ++ [_]).length = _
          rw [length_append, length_singleton]
        exact quicTimerDeferFrees_overflow l _ hon (by omega) (by omega)

theorem freedOf_returned (t : List DeferEffect) (cb user : Nat) : freedOf (t ++ [.returned cb user]) = freedOf t := by
  rw [freedOf_append]
  exact append_nil _

theorem owed_returned (w : DeferQueue) (cb user : Nat) : (w.note (.returned cb user)).owed = w.owed := by
  unfold DeferQueue.owed DeferQueue.note
  rw [freedOf_returned]

theorem fireCalls_trace (calls : Nat → List DeferCall) : ∀ (batch : List (QuicTimerFire × Nat)) (w : DeferQueue),
    ∃ t, (batch.foldl (fireCall calls) w).trace = w.trace ++ t
  | [], w => ⟨[], (append_nil _).symm⟩
  | x :: batch, w => by
    obtain ⟨t, ht⟩ : ∃ t, (fireCall calls w x).trace = w.trace ++ t := by
      unfold fireCall
      cases x.1.cb with
      | none => exact ⟨[], (append_nil _).symm⟩
      | some cb =>
        obtain ⟨t, ht, -⟩ := (quicTimerDeferFrees_deferred (calls x.2) w).trace
        refine ⟨t ++ [.returned cb x.1.user], ?_⟩
        rw [← append_assoc, ← ht]
        rfl
    obtain ⟨t', ht'⟩ := fireCalls_trace calls batch (fireCall calls w x)
    exact ⟨t ++ t', by rw [foldl_cons, ht', ht, append_assoc]⟩

theorem fireCalls_owed (calls : Nat → List DeferCall) : ∀ (batch : List (QuicTimerFire × Nat)) (w : DeferQueue),
    (batch.foldl (fireCall calls) w).owed.Perm (runsAll (batchCalls batch calls) ++ w.owed)
  | [], w => List.Perm.refl _
  | x :: batch, w => by
    rw [foldl_cons]
    refine (fireCalls_owed calls batch _).trans ?_
    have hcalls : runsAll (batchCalls (x :: batch) calls) =
        runsAll (if x.1.cb.isSome then calls x.2 else []) ++ runsAll (batchCalls batch calls) := by
      rw [← runsAll_append]
      rfl
    have hone : (fireCall calls w x).owed.Perm (runsAll (if x.1.cb.isSome then calls x.2 else []) ++ w.owed) := by
      unfold fireCall
      cases x.1.cb with
      | none => exact List.Perm.refl _
      | some cb =>
        dsimp only
        rw [owed_returned]
        exact (quicTimerDeferFrees_deferred (calls x.2) w).owed
    rw [hcalls]
    refine (hone.append_left _).trans ?_
    rw [← append_assoc]
    exact List.perm_append_comm.append_right _

theorem fireCalls_queued (calls : Nat → List DeferCall) : ∀ (batch : List (QuicTimerFire × Nat)) (w : DeferQueue),
    w.dispatching = true →
    w.deferred.length + ((batchCalls batch calls).filter DeferCall.real).length ≤ QUIC_TIMER_MAX_DEFER →
      ∃ t, (batch.foldl (fireCall calls) w).trace = w.trace ++ t ∧ ∀ e ∈ t, e.isFreed = false
  | [], w, _, _ => ⟨[], (append_nil _).symm, fun _ h => absurd h not_mem_nil⟩
  | x :: batch, w, hon, hfit => by
    have hcalls : (batchCalls (x :: batch) calls).filter DeferCall.real =
        (if x.1.cb.isSome then calls x.2 else []).filter DeferCall.real ++
          (batchCalls batch calls).filter DeferCall.real := filter_append _ _
    rw [hcalls, length_append] at hfit
    rw [foldl_cons]
    cases hcb : x.1.cb with
    | none =>
      have hstep : fireCall calls w x = w := by unfold fireCall; rw [hcb]
      rw [hstep]
      exact fireCalls_queued calls batch w hon (by omega)
    | some cb =>
      rw [hcb, Option.isSome_some, if_pos rfl] at hfit
      have hstep : fireCall calls w x =
          { w with deferred := w.deferred ++ (calls x.2).filter DeferCall.real }.note (.returned cb x.1.user) := by
        unfold fireCall
        rw [hcb]
        dsimp only
        rw [quicTimerDeferFrees_queued _ w hon (by omega)]
      have hlen : (fireCall calls w x).deferred.length = w.deferred.length + ((calls x.2).filter DeferCall.real).length := by
        rw [hstep]
        exact length_append
      obtain ⟨t, ht, hfree⟩ := fireCalls_queued calls batch (fireCall calls w x) (by rw [hstep]; exact hon) (by omega)
      refine ⟨.returned cb x.1.user :: t, ?_, fun e he => ?_⟩
      · rw [ht, hstep]
        show (w.trace ++ [_]) ++ t = _
        rw [append_assoc]
        rfl
      · rcases List.mem_cons.1 he with rfl | he
        · rfl
        · exact hfree e he

theorem fireCalls_overflow (calls : Nat → List DeferCall) : ∀ (batch : List (QuicTimerFire × Nat)) (w : DeferQueue),
    w.dispatching = true → w.deferred.length ≤ QUIC_TIMER_MAX_DEFER →
    QUIC_TIMER_MAX_DEFER < w.deferred.length + ((batchCalls batch calls).filter DeferCall.real).length →
      ∃ t, (batch.foldl (fireCall calls) w).trace = w.trace ++ t ∧ ¬ t.Pairwise (fun e e' => e.isFreed = true → e'.isFreed = true)
  | [], w, _, hle, hover => absurd hover (by
      show ¬ QUIC_TIMER_MAX_DEFER < w.deferred.length + 0
      omega)
  | x :: batch, w, hon, hle, hover => by
    have hcalls : (batchCalls (x :: batch) calls).filter DeferCall.real =
        (if x.1.cb.isSome then calls x.2 else []).filter DeferCall.real ++
          (batchCalls batch calls).filter DeferCall.real := filter_append _ _
    rw [hcalls, length_append] at hover
    rw [foldl_cons]
    cases hcb : x.1.cb with
    | none =>
      have hstep : fireCall calls w x = w := by unfold fireCall; rw [hcb]
      rw [hcb, Option.isSome_none, if_neg (by simp), filter_nil, length_nil, Nat.zero_add] at hover
      rw [hstep]
      exact fireCalls_overflow calls batch w hon hle hover
    | some cb =>
      rw [hcb, Option.isSome_some, if_pos rfl] at hover
      have hstep : fireCall calls w x = (quicTimerDeferFrees (calls x.2) w).note (.returned cb x.1.user) := by
        unfold fireCall
        rw [hcb]
      by_cases hhere : QUIC_TIMER_MAX_DEFER < w.deferred.length + ((calls x.2).filter DeferCall.real).length
      · obtain ⟨t, e, ht, he⟩ := quicTimerDeferFrees_overflow (calls x.2) w hon hhere hle
        obtain ⟨t', ht'⟩ := fireCalls_trace calls batch (fireCall calls w x)
        refine ⟨(e :: t) ++ .returned cb x.1.user :: t', ?_, fun hpair => ?_⟩
        · rw [ht', hstep]
          show ((quicTimerDeferFrees (calls x.2) w).trace ++ [_]) ++ t' = _
          rw [ht, append_assoc, append_assoc]
          rfl
        · have hlast := (List.pairwise_append.1 hpair).2.2 e mem_cons_self _ mem_cons_self he
          cases hlast
      · have hqueued := quicTimerDeferFrees_queued (calls x.2) w hon (by omega)
        have hlen : (fireCall calls w x).deferred.length = w.deferred.length + ((calls x.2).filter DeferCall.real).length := by
          rw [hstep, hqueued]
          exact length_append
        obtain ⟨t, ht, hbad⟩ := fireCalls_overflow calls batch (fireCall calls w x) (by rw [hstep, hqueued]; exact hon)
          (by omega) (by omega)
        refine ⟨.returned cb x.1.user :: t, ?_, fun hpair => hbad (List.pairwise_cons.1 hpair).2⟩
        rw [ht, hstep, hqueued]
        show (w.trace ++ [_]) ++ t = _
        rw [append_assoc]
        rfl

/-! ## A pass -/

theorem runFree_deferred (w : DeferQueue) (c : DeferCall) : Deferred w (runFree w c) c.runs := by
  match c with
  | .mk none _ _ | .mk (some _) none _ => exact Deferred.refl w
  | .mk (some p) (some fn) inside =>
    exact (Deferred.note w fn p).trans (quicTimerDeferFrees_deferred inside (w.note (.freed fn p)))

theorem runFrees_deferred : ∀ (l : List DeferCall) (w : DeferQueue), Deferred w (l.foldl runFree w) (runsAll l)
  | [], w => Deferred.refl w
  | c :: l, w => (runFree_deferred w c).trans (runFrees_deferred l (runFree w c))

structure Resting (w : DeferQueue) : Prop where
  dispatching : w.dispatching = false
  deferred : w.deferred = []

theorem onWheelCalls_end (w : DeferQueue) (batch : List QuicTimerFire) (calls : Nat → List DeferCall) :
    Resting (onWheelCalls w batch calls) ∧
    (∃ t, (onWheelCalls w batch calls).trace = (batch.zipIdx.foldl (fireCall calls) { w with dispatching := true }).trace ++ t ∧
      ∀ e ∈ t, e.isFreed = true) ∧
    (onWheelCalls w batch calls).owed.Perm (batch.zipIdx.foldl (fireCall calls) { w with dispatching := true }).owed := by
  unfold onWheelCalls runDeferredFrees
  generalize batch.zipIdx.foldl (fireCall calls) { w with dispatching := true } = w₁
  have h := runFrees_deferred w₁.deferred { w₁ with dispatching := false, deferred := [] }
  refine ⟨⟨h.dispatching, h.idle rfl⟩, h.trace, h.owed.trans ?_⟩
  unfold DeferQueue.owed
  show (runsAll w₁.deferred ++ (freedOf w₁.trace ++ [])).Perm _
  rw [append_nil]
  exact perm_append_comm

theorem deferStep_resting {w : DeferQueue} (h : Resting w) (e : DeferEvent) : Resting (deferStep w e) := by
  cases e with
  | pass batch calls => exact (onWheelCalls_end w batch calls).1
  | outside c =>
    have hd := quicTimerDeferFree_deferred c w
    exact ⟨hd.dispatching.trans h.dispatching, (hd.idle h.dispatching).trans h.deferred⟩

theorem deferRun_resting : ∀ (hist : List DeferEvent) {w : DeferQueue}, Resting w → Resting (hist.foldl deferStep w)
  | [], _, h => h
  | e :: hist, _, h => deferRun_resting hist (deferStep_resting h e)

theorem onWheelCalls_once {w : DeferQueue} (h : Resting w) (batch : List QuicTimerFire) (calls : Nat → List DeferCall)
    {t : List DeferEffect} (ht : (onWheelCalls w batch calls).trace = w.trace ++ t) :
    (freedOf t).Perm (runsAll (batchCalls batch.zipIdx calls)) := by
  obtain ⟨hrest, -, howed⟩ := onWheelCalls_end w batch calls
  have hall := howed.trans (fireCalls_owed calls batch.zipIdx { w with dispatching := true })
  unfold DeferQueue.owed at hall
  rw [hrest.deferred, ht, freedOf_append] at hall
  have hstart : ({ w with dispatching := true } : DeferQueue).deferred = [] := h.deferred
  rw [hstart] at hall
  have hcancel : (freedOf w.trace ++ freedOf t).Perm (freedOf w.trace ++ runsAll (batchCalls batch.zipIdx calls)) := by
    refine List.Perm.trans ?_ (hall.trans ?_)
    · exact (append_nil _) ▸ List.Perm.refl _
    · show (_ ++ (freedOf w.trace ++ [])).Perm _
      rw [append_nil]
      exact perm_append_comm
  exact (perm_append_left_iff _).1 hcancel

theorem freesWait_iff {w : DeferQueue} (h : Resting w) (batch : List QuicTimerFire) (calls : Nat → List DeferCall) :
    FreesWait w batch calls ↔ ((batchCalls batch.zipIdx calls).filter DeferCall.real).length ≤ QUIC_TIMER_MAX_DEFER := by
  obtain ⟨-, ⟨t', ht', hfrees⟩, -⟩ := onWheelCalls_end w batch calls
  have hnone : ({ w with dispatching := true } : DeferQueue).deferred.length = 0 := by
    rw [show ({ w with dispatching := true } : DeferQueue).deferred = w.deferred from rfl, h.deferred]
    rfl
  constructor
  · rintro ⟨t, ht, hpair, -⟩
    by_contra hover
    obtain ⟨s, hs, hbad⟩ := fireCalls_overflow calls batch.zipIdx { w with dispatching := true } rfl (by omega) (by omega)
    have hst : t = s ++ t' := by
      rw [ht, hs, append_assoc] at ht'
      exact append_cancel_left ht'
    rw [hst] at hpair
    exact hbad (List.pairwise_append.1 hpair).1
  · intro hfit
    obtain ⟨s, hs, hreturned⟩ := fireCalls_queued calls batch.zipIdx { w with dispatching := true } rfl (by omega)
    have htrace : (onWheelCalls w batch calls).trace = w.trace ++ (s ++ t') := by
      rw [ht', hs, append_assoc]
    refine ⟨s ++ t', htrace, ?_, onWheelCalls_once h batch calls htrace⟩
    refine List.pairwise_append.2 ⟨?_, ?_, fun e _ e' he' _ => hfrees e' he'⟩
    · refine pairwise_of_forall_mem_list fun e he e' _ hf => ?_
      rw [hreturned e he] at hf
      cases hf
    · exact pairwise_of_forall_mem_list fun _ _ e' he' _ => hfrees e' he'

/-- **The frees a pass asks for wait for its end exactly if its callbacks ask for 64 at most.** -/
theorem frees_wait_iff (hist : List DeferEvent) (batch : List QuicTimerFire) (calls : Nat → List DeferCall) :
    FreesWait (deferRun hist) batch calls ↔ ((batchCalls batch.zipIdx calls).filter DeferCall.real).length ≤
    QUIC_TIMER_MAX_DEFER :=
  freesWait_iff (deferRun_resting hist ⟨rfl, rfl⟩) batch calls

/-- **The 65th of the connections that go in one pass** is freed before its callback has returned. -/
theorem free_before_end : ¬ ∀ (hist : List DeferEvent) (batch : List QuicTimerFire) (calls : Nat → List DeferCall),
    FreesWait (deferRun hist) batch calls := by
  intro hall
  have h := (freesWait_iff ⟨rfl, rfl⟩ ((range 65).map fun i => ⟨some 1, i, i, {}⟩)
    fun i => [.mk (some i) (some 2) []]).1 (hall [] _ _)
  exact absurd h (by decide)

end MoqLiveCast
