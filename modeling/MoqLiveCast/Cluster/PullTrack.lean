import Mathlib.Data.Finset.Basic
import MoqLiveCast.Cluster.PullEmit
/-!
# PullTrack — the groups of a pulled track, put in order (`cluster/cluster_pull.cpp`)

Each group comes on a stream of its own, so groups overtake one another.  A track emits the frames of the group it is at
and holds back those of later groups; the end of the group, or two seconds without it, takes the track on.  Group numbers
are 62-bit, so that `next_group++` does not overflow.

The map of the groups that wait is a list in the order of its keys, and every method gives the new state and the
frames it hands to `EmitFrame`, each with its group.
-/
namespace MoqLiveCast

structure PullTrackState where
  nextGroup : Nat := 0
  started : Bool := false
  pending : List (Nat × List PullFrame) := []
  ended : Finset Nat := ∅
  oldestPendingMs : Int := 0
deriving DecidableEq

abbrev Emission := Nat × PullFrame

/-- What calls the reordering: a frame, the end of a group, `SUBSCRIBE_START`, the timer. -/
inductive TrackEvent where
  | frame (group : Nat) (frame : PullFrame)
  | groupEnd (group : Nat)
  | subscribed (firstGroup : Nat)
  | tick
deriving DecidableEq

namespace PullTrackState

def start (st : PullTrackState) (group : Nat) : PullTrackState :=
  if st.started then st else { st with nextGroup := group, started := true }

/-- A turn of the loop in `DrainPending`, for a group that waits. -/
def drainTurn (st : PullTrackState) : PullTrackState :=
  { st with
    nextGroup := if st.nextGroup ∈ st.ended then st.nextGroup + 1 else st.nextGroup
    pending := OrdMap.erase st.pending st.nextGroup
    ended := st.ended.erase st.nextGroup }

/-- The loop: each turn takes a group out of the map, so there are at most as many as it has. -/
def drainTurns : Nat → PullTrackState → PullTrackState × List Emission
  | 0, st => (st, [])
  | n + 1, st =>
    match OrdMap.find st.pending st.nextGroup with
    | none => (st, [])
    | some frames =>
      let out := frames.map (st.nextGroup, ·)
      if st.nextGroup ∈ st.ended then
        let (st', out') := drainTurns n st.drainTurn
        (st', out ++ out')
      else (st.drainTurn, out)

theorem length_drainTurn_lt {st : PullTrackState} {frames : List PullFrame}
    (h : OrdMap.find st.pending st.nextGroup = some frames) : st.drainTurn.pending.length < st.pending.length :=
  List.length_filter_lt_length_iff_exists.2 ⟨_, OrdMap.mem_of_find h, by simp⟩

def drainPending (now : Int) (st : PullTrackState) : PullTrackState × List Emission :=
  let (st', out) := st.drainTurns st.pending.length
  ({ st' with
      oldestPendingMs :=
        if st'.pending = [] then 0 else if st'.oldestPendingMs = 0 then now else st'.oldestPendingMs }, out)

def handleTrackFrame (now : Int) (group : Nat) (frame : PullFrame) (st : PullTrackState) : PullTrackState × List Emission :=
  let st := st.start group
  if group < st.nextGroup then (st, [])
  else if group = st.nextGroup ∧ OrdMap.find st.pending group = none then (st, [(group, frame)])
  else
    ({ st with
        oldestPendingMs := if st.pending = [] then now else st.oldestPendingMs
        pending := OrdMap.put st.pending group ((OrdMap.find st.pending group).getD [] ++ [frame]) }, [])

def onGroupEndInternal (now : Int) (group : Nat) (st : PullTrackState) : PullTrackState × List Emission :=
  let st := st.start group
  if group < st.nextGroup then (st, [])
  else if group = st.nextGroup then
    drainPending now { st with ended := st.ended.erase group, nextGroup := st.nextGroup + 1 }
  else ({ st with ended := insert group st.ended }, [])

def onSubscribed (firstGroup : Nat) (st : PullTrackState) : PullTrackState :=
  { st with nextGroup := firstGroup, started := true }

def skipTo (now : Int) (st : PullTrackState) : Option Nat :=
  match st.pending with
  | [] => none
  | (front, _) :: _ =>
    if st.nextGroup < front ∧ st.oldestPendingMs ≠ 0 ∧ 2000 < now - st.oldestPendingMs then some front else none

def onTick (now : Int) (st : PullTrackState) : PullTrackState × List Emission :=
  match st.pending with
  | [] => (st, [])
  | (front, _) :: _ =>
    if front ≤ st.nextGroup then (st, [])
    else if st.oldestPendingMs = 0 then ({ st with oldestPendingMs := now }, [])
    else if now - st.oldestPendingMs ≤ 2000 then (st, [])
    else drainPending now { st with nextGroup := front, oldestPendingMs := now }

def step (st : PullTrackState) (now : Int) : TrackEvent → PullTrackState × List Emission
  | .frame group frame => st.handleTrackFrame now group frame
  | .groupEnd group => st.onGroupEndInternal now group
  | .subscribed firstGroup => (st.onSubscribed firstGroup, [])
  | .tick => st.onTick now

end PullTrackState

/-! ## A track, and what has been seen of it -/

/-- A track's state with its past: the frames that came, those that were emitted, the groups that ended, the first group,
and from where to where the timer skipped. -/
structure TrackHistory where
  st : PullTrackState := {}
  arrived : List Emission := []
  emitted : List Emission := []
  ended : List Nat := []
  first : Option Nat := none
  skipped : List (Nat × Nat) := []
deriving DecidableEq

namespace TrackEvent

def arrives : TrackEvent → List Emission
  | .frame group f => [(group, f)]
  | _ => []

def ends : TrackEvent → List Nat
  | .groupEnd group => [group]
  | _ => []

def starts : TrackEvent → Option Nat
  | .frame group _ => some group
  | .groupEnd group => some group
  | .subscribed group => some group
  | .tick => none

def skips (st : PullTrackState) (now : Int) : TrackEvent → List (Nat × Nat)
  | .tick => ((st.skipTo now).map (st.nextGroup, ·)).toList
  | _ => []

end TrackEvent

namespace TrackHistory

def step (h : TrackHistory) (e : Int × TrackEvent) : TrackHistory where
  st := (h.st.step e.1 e.2).1
  arrived := h.arrived ++ e.2.arrives
  emitted := h.emitted ++ (h.st.step e.1 e.2).2
  ended := h.ended ++ e.2.ends
  first := h.first.or e.2.starts
  skipped := h.skipped ++ e.2.skips h.st e.1

end TrackHistory

end MoqLiveCast
