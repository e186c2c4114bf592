import Mathlib.Data.List.Nodup
import Mathlib.Logic.Function.Basic
import MoqLiveCast.Lib.Word
/-!
# Timer — the timers of a process and their wheel (`quic_timer.c`)

Timers are linked in the order they are due.  `on_wheel` unlinks those that are due, 1024 at most, and copies their
callbacks; then it calls one after another, and what a callback starts or stops happens before the next one is called.

A timer keeps the number of the `quic_timer_start` that armed it, and a copied callback the timer it was copied from:
the program keeps neither.  What `quic_timer_defer_free` queues is apart from the timers.
-/
namespace MoqLiveCast

def QUIC_TIMER_MAX_FIRE : Nat := 1024

structure QuicTimer where
  dueMs : Nat := 0
  /-- 0 is a one-shot timer -/
  repeatMs : Nat := 0
  cb : Option Nat := none
  user : Nat := 0
  active : Bool := false
  /-- the number of the call that armed it -/
  start : Nat := 0
deriving DecidableEq

structure QuicTimerFire where
  cb : Option Nat
  user : Nat
  /-- the timer it was copied from -/
  timer : Nat
  /-- what that timer held then -/
  was : QuicTimer
deriving DecidableEq

structure QuicTimers where
  /-- `uv_now(g_loop)` -/
  now : Nat := 0
  /-- `g_loop` is set -/
  loop : Bool := false
  timers : Nat → QuicTimer := fun _ => {}
  /-- the timers from `g_head` on -/
  head : List Nat := []
  /-- what a running `on_wheel` has not called yet -/
  fire : List QuicTimerFire := []
  /-- how many events there were -/
  events : Nat := 0

/-! ## Functions -/

def timerUnlink (w : QuicTimers) (t : Nat) : QuicTimers :=
  if (w.timers t).active then
    { w with timers := Function.update w.timers t { w.timers t with active := false }, head := w.head.erase t }
  else w

def linkSorted (timers : Nat → QuicTimer) (t : Nat) : List Nat → List Nat
  | [] => [t]
  | c :: l => if (timers c).dueMs ≤ (timers t).dueMs then c :: linkSorted timers t l else t :: c :: l

def timerLinkSorted (w : QuicTimers) (t : Nat) : QuicTimers :=
  { w with
    timers := Function.update w.timers t { w.timers t with active := true }
    head := linkSorted w.timers t w.head }

def QuicTimers.setTimer (w : QuicTimers) (t : Nat) (x : QuicTimer) : QuicTimers :=
  { w with timers := Function.update w.timers t x }

def quicTimerStart (w : QuicTimers) (t : Nat) (cb : Option Nat) (user timeoutMs repeatMs : Nat) : QuicTimers :=
  if w.loop then
    let w := timerUnlink w t
    timerLinkSorted (w.setTimer t { w.timers t with cb, user, repeatMs, dueMs := add64 w.now timeoutMs, start := w.events }) t
  else w

def quicTimerStop (w : QuicTimers) (t : Nat) : QuicTimers := timerUnlink w t

def fireTimer (w : QuicTimers) (t : Nat) : QuicTimers :=
  let x := w.timers t
  let w := timerUnlink w t
  let w := { w with fire := w.fire ++ [{ cb := x.cb, user := x.user, timer := t, was := x }] }
  if 0 < x.repeatMs then timerLinkSorted (w.setTimer t { w.timers t with dueMs := add64 w.now x.repeatMs }) t else w

def fireDue : Nat → QuicTimers → QuicTimers
  | 0, w => w
  | n + 1, w =>
    match w.head with
    | [] => w
    | t :: _ => if (w.timers t).dueMs ≤ w.now then fireDue n (fireTimer w t) else w

def onWheel (w : QuicTimers) : QuicTimers := if w.loop then fireDue QUIC_TIMER_MAX_FIRE w else w

/-! ## Events -/

/-- What happens, in the program or in a callback; `call` is the next copied callback of a running `on_wheel`. -/
inductive TimerEvent where
  | wheelInit
  | start (t : Nat) (cb : Option Nat) (user timeoutMs repeatMs : Nat)
  | stop (t : Nat)
  | clock (ms : Nat)
  | wheel
  | call
deriving DecidableEq

/-- The state an event leaves, its number aside.  The loop does not call `on_wheel` while it runs, and its clock, which
is a `uint64_t`, does not go back. -/
def timerEffect (w : QuicTimers) : TimerEvent → Option QuicTimers
  | .wheelInit => some { w with loop := true }
  | .start t cb user timeoutMs repeatMs => some (quicTimerStart w t cb user timeoutMs repeatMs)
  | .stop t => some (quicTimerStop w t)
  | .clock ms => if w.now + ms < wordSize then some { w with now := w.now + ms } else none
  | .wheel => if w.fire = [] then some (onWheel w) else none
  | .call => match w.fire with
    | [] => none
    | _ :: rest => some { w with fire := rest }

def timerStep (w : QuicTimers) (e : TimerEvent) : Option QuicTimers :=
  (timerEffect w e).map fun w => { w with events := w.events + 1 }

/-! ## Linking and unlinking -/

theorem linkSorted_perm (timers : Nat → QuicTimer) (t : Nat) : ∀ l : List Nat, (linkSorted timers t l).Perm (t :: l)
  | [] => List.Perm.refl _
  | c :: l => by
    unfold linkSorted
    split
    · exact ((linkSorted_perm timers t l).cons c).trans (List.Perm.swap t c l)
    · exact List.Perm.refl _

structure Linked (w : QuicTimers) : Prop where
  nodup : w.head.Nodup
  active : ∀ t, t ∈ w.head ↔ (w.timers t).active = true

theorem timerUnlink_mem {w : QuicTimers} (h : Linked w) {t s : Nat} : s ∈ (timerUnlink w t).head ↔ s ≠ t ∧ s ∈ w.head := by
  unfold timerUnlink
  split
  · exact h.nodup.mem_erase_iff
  · rename_i hidle
    refine ⟨fun hs => ⟨?_, hs⟩, And.right⟩
    rintro rfl
    exact hidle ((h.active s).1 hs)

theorem timerUnlink_timers {w : QuicTimers} {t s : Nat} (hs : s ≠ t) : (timerUnlink w t).timers s = w.timers s := by
  unfold timerUnlink
  split
  · exact Function.update_of_ne hs _ _
  · rfl

theorem timerUnlink_linked {w : QuicTimers} (h : Linked w) (t : Nat) : Linked (timerUnlink w t) := by
  refine ⟨?_, fun s => ?_⟩
  · unfold timerUnlink
    split
    · exact h.nodup.erase t
    · exact h.nodup
  · rw [timerUnlink_mem h]
    by_cases hs : s = t
    · subst hs
      unfold timerUnlink
      by_cases hact : (w.timers s).active = true <;> simp [hact]
    · rw [timerUnlink_timers hs]
      simp [hs, h.active s]

theorem timerUnlink_rest (w : QuicTimers) (t : Nat) : (timerUnlink w t).now = w.now ∧ (timerUnlink w t).fire = w.fire ∧
    (timerUnlink w t).events = w.events ∧ (timerUnlink w t).loop = w.loop := by
  unfold timerUnlink
  split <;> exact ⟨rfl, rfl, rfl, rfl⟩

theorem fireTimer_rest (w : QuicTimers) (t : Nat) : (fireTimer w t).events = w.events ∧ (fireTimer w t).loop = w.loop := by
  obtain ⟨-, -, hevents, hloop⟩ := timerUnlink_rest w t
  unfold fireTimer
  dsimp only
  split <;> exact ⟨hevents, hloop⟩

theorem fireDue_rest : ∀ (n : Nat) (w : QuicTimers), (fireDue n w).events = w.events ∧ (fireDue n w).loop = w.loop
  | 0, _ => ⟨rfl, rfl⟩
  | n + 1, w => by
    unfold fireDue
    split
    · exact ⟨rfl, rfl⟩
    · rename_i t l _
      split
      · obtain ⟨hevents, hloop⟩ := fireDue_rest n (fireTimer w t)
        exact ⟨hevents.trans (fireTimer_rest w t).1, hloop.trans (fireTimer_rest w t).2⟩
      · exact ⟨rfl, rfl⟩

theorem quicTimerStart_rest (w : QuicTimers) (t : Nat) (cb : Option Nat) (user timeoutMs repeatMs : Nat) : (quicTimerStart w t cb
    user timeoutMs repeatMs).events = w.events ∧ (quicTimerStart w t cb user timeoutMs repeatMs).loop = w.loop := by
  obtain ⟨-, -, hevents, hloop⟩ := timerUnlink_rest w t
  unfold quicTimerStart
  split
  · exact ⟨hevents, hloop⟩
  · exact ⟨rfl, rfl⟩

theorem timerLinkSorted_linked {w : QuicTimers} (h : Linked w) {t : Nat} (ht : t ∉ w.head) (x : QuicTimer) :
    Linked (timerLinkSorted (w.setTimer t x) t) := by
  have hperm := linkSorted_perm (w.setTimer t x).timers t w.head
  refine ⟨hperm.nodup_iff.2 (List.nodup_cons.2 ⟨ht, h.nodup⟩), fun s => ?_⟩
  refine hperm.mem_iff.trans ?_
  unfold timerLinkSorted QuicTimers.setTimer
  by_cases hs : s = t
  · simp [hs]
  · simp [hs, h.active s]

end MoqLiveCast
