import MoqLiveCast.Cluster.PullGroups
/-!
# PullSession — the tracks of a `ClusterPullLink` session

The session keeps a state for each track, and hands what the tracks emit to one time line.
-/
namespace MoqLiveCast

open List

/-- `track_state_`, the time line, and the calls of `EmitFrame` so far. -/
structure PullSession where
  trackState : List (Name × PullTrackState) := []
  line : PullTimeline := {}
  emitted : List (Name × Emission) := []

/-- What comes in a session: each with the time at which it does. -/
inductive PullEvent where
  | frame (name : Name) (group : Nat) (f : PullFrame)
  | groupEnd (name : Name) (group : Nat)
  | subscribed (name : Name) (firstGroup : Nat)
  | tick
  | catalog (renditions : List (Name × MoqCatalogRendition))

namespace PullSession

def track (s : PullSession) (name : Name) : PullTrackState := (OrdMap.find s.trackState name).getD {}

def onTrack (s : PullSession) (now : Int) (name : Name) (e : TrackEvent) : PullSession :=
  let (st, out) := (s.track name).step now e
  { trackState := OrdMap.put s.trackState name st
    line := out.foldl (fun l emission => l.emitFrame name emission.2) s.line
    emitted := s.emitted ++ out.map (name, ·) }

def onTick (s : PullSession) (now : Int) : PullSession :=
  (s.trackState.map (·.1)).foldl (fun s name => s.onTrack now name .tick) s

def step (s : PullSession) (e : Int × PullEvent) : PullSession :=
  match e.2 with
  | .frame name group f => s.onTrack e.1 name (.frame group f)
  | .groupEnd name group => s.onTrack e.1 name (.groupEnd group)
  | .subscribed name firstGroup => s.onTrack e.1 name (.subscribed firstGroup)
  | .tick => s.onTick e.1
  | .catalog renditions => { s with line := s.line.step (.catalog renditions) }

def run (events : List (Int × PullEvent)) : PullSession := events.foldl step {}

def emittedOf (s : PullSession) (name : Name) : List Emission := (s.emitted.filter fun e => e.1 = name).map (·.2)

def forTrack (name : Name) (e : Int × PullEvent) : Option (Int × TrackEvent) :=
  match e.2 with
  | .frame n group f => if n = name then some (e.1, .frame group f) else none
  | .groupEnd n group => if n = name then some (e.1, .groupEnd group) else none
  | .subscribed n firstGroup => if n = name then some (e.1, .subscribed firstGroup) else none
  | .tick => some (e.1, .tick)
  | .catalog _ => none

def trackEvents (name : Name) (events : List (Int × PullEvent)) : List (Int × TrackEvent) :=
  events.filterMap (forTrack name)

def historyOf (name : Name) (events : List (Int × PullEvent)) : TrackHistory :=
  (trackEvents name events).foldl TrackHistory.step {}

structure Agrees (name : Name) (s : PullSession) (h : TrackHistory) : Prop where
  ordered : OrdMap.Ordered s.trackState
  st : s.track name = h.st
  emitted : s.emittedOf name = h.emitted

variable {s : PullSession} {h : TrackHistory} {name other : Name} {now : Int}

theorem track_onTrack (s : PullSession) (now : Int) (other name : Name) (e : TrackEvent) :
    (s.onTrack now other e).track name = if name = other then ((s.track other).step now e).1 else s.track name := by
  unfold onTrack track
  rw [OrdMap.find_put]
  split <;> rfl

theorem emittedOf_onTrack (s : PullSession) (now : Int) (other name : Name) (e : TrackEvent) :
    (s.onTrack now other e).emittedOf name =
      s.emittedOf name ++ if name = other then ((s.track other).step now e).2 else [] := by
  unfold onTrack emittedOf
  rw [filter_append, map_append, filter_map]
  by_cases hn : name = other
  · simp [hn, Function.comp_def]
  · simp [hn, Ne.symm hn, Function.comp_def]

theorem ordered_onTrack (ho : OrdMap.Ordered s.trackState) (e : TrackEvent) :
    OrdMap.Ordered (s.onTrack now other e).trackState := ho.put _ _

theorem Agrees.onTrack (ha : Agrees name s h) (now : Int) (e : TrackEvent) :
    Agrees name (s.onTrack now name e) (h.step (now, e)) := by
  refine ⟨ordered_onTrack ha.ordered e, ?_, ?_⟩
  · rw [track_onTrack, if_pos rfl, ha.st]
    rfl
  · rw [emittedOf_onTrack, if_pos rfl, ha.st, ha.emitted]
    rfl

theorem Agrees.onOther (ha : Agrees name s h) (hne : other ≠ name) (now : Int) (e : TrackEvent) :
    Agrees name (s.onTrack now other e) h := by
  refine ⟨ordered_onTrack ha.ordered e, ?_, ?_⟩
  · rw [track_onTrack, if_neg (Ne.symm hne), ha.st]
  · rw [emittedOf_onTrack, if_neg (Ne.symm hne), append_nil, ha.emitted]

theorem Agrees.ticks (now : Int) (names : List Name) (hnd : names.Nodup) (ha : Agrees name s h) :
    Agrees name (names.foldl (fun s name => s.onTrack now name .tick) s)
      (if name ∈ names then h.step (now, .tick) else h) := by
  induction names generalizing s h with
  | nil => simpa using ha
  | cons n names ih =>
    obtain ⟨hn, hnd⟩ := List.nodup_cons.1 hnd
    rw [foldl_cons]
    by_cases hname : n = name
    · subst hname
      have hrest := ih hnd (ha.onTrack now .tick)
      rw [if_neg hn] at hrest
      rwa [if_pos mem_cons_self]
    · have hmem : name ∈ n :: names ↔ name ∈ names := by simp [Ne.symm hname]
      simpa only [hmem] using ih hnd (ha.onOther hname now .tick)

theorem Agrees.tick (ha : Agrees name s h) : Agrees name (s.onTick now) (h.step (now, .tick)) := by
  have hnd : (s.trackState.map (·.1)).Nodup := by
    rw [nodup_iff_pairwise_ne, pairwise_map]
    exact ha.ordered.imp fun hlt => ne_of_lt hlt
  have hall := ha.ticks now _ hnd
  by_cases hmem : name ∈ s.trackState.map (·.1)
  · rwa [if_pos hmem] at hall
  · rw [if_neg hmem] at hall
    have hnone : OrdMap.find s.trackState name = none := by
      cases hf : OrdMap.find s.trackState name with
      | none => rfl
      | some st => exact absurd (mem_map_of_mem (OrdMap.mem_of_find hf)) hmem
    have hst : h.st = {} := by
      rw [← ha.st, track, hnone]
      rfl
    refine ⟨hall.ordered, hall.st.trans ?_, hall.emitted.trans ?_⟩
    · simp only [TrackHistory.step, hst]
      rfl
    · simp only [TrackHistory.step, hst]
      exact (append_nil _).symm

theorem Agrees.step (ha : Agrees name s h) (e : Int × PullEvent) :
    Agrees name (s.step e) (((forTrack name e).map h.step).getD h) := by
  obtain ⟨now, e⟩ := e
  have hone : ∀ (other : Name) (e : TrackEvent),
      Agrees name (s.onTrack now other e) (((if other = name then some (now, e) else none).map h.step).getD h) := by
    intro other e
    by_cases hn : other = name
    · subst hn
      simpa using ha.onTrack now e
    · simpa [hn] using ha.onOther hn now e
  cases e with
  | frame n group f => exact hone n (.frame group f)
  | groupEnd n group => exact hone n (.groupEnd group)
  | subscribed n firstGroup => exact hone n (.subscribed firstGroup)
  | tick => exact ha.tick
  | catalog renditions => exact ⟨ha.ordered, ha.st, ha.emitted⟩

theorem session_track (name : Name) (events : List (Int × PullEvent)) : Agrees name (run events) (historyOf name events) := by
  have hrun : ∀ (events : List (Int × PullEvent)) {s : PullSession} {h : TrackHistory}, Agrees name s h →
      Agrees name (events.foldl step s) ((trackEvents name events).foldl TrackHistory.step h) := by
    intro events
    induction events with
    | nil => exact fun ha => ha
    | cons e events ih =>
      intro s h ha
      have hstep := ih (ha.step e)
      unfold trackEvents at hstep ⊢
      rw [filterMap_cons]
      cases hf : forTrack name e <;> simpa [hf] using hstep
  exact hrun events ⟨.nil, rfl, rfl⟩

/-- **For each track of a session**, if a group's frames come before its end, `SUBSCRIBE_START` before the others or for the
group the track is at, and no group ends early with no frame that waits: the track never goes back, and in every state that
is reached what it emitted is in order. -/
theorem groups_in_order (name : Name) (events : List (Int × PullEvent))
    (hends : StepsOk TrackHistory.step TrackHistory.EndsLast {} (trackEvents name events))
    (hok : StepsOk TrackHistory.step TrackHistory.KeepsOrder {} (trackEvents name events)) :
    ∀ pre post, events = pre ++ post →
      ((run pre).track name).nextGroup ≤ ((run events).track name).nextGroup ∧
      TrackHistory.InOrder
        { historyOf name pre with st := (run pre).track name, emitted := (run pre).emittedOf name } := by
  rintro pre post rfl
  unfold trackEvents at hends hok
  rw [filterMap_append, stepsOk_append] at hends hok
  obtain ⟨hsound, -⟩ := TrackHistory.Sound.run (trackEvents name pre) (.inl rfl) hends.1 hok.1
  obtain ⟨-, hle⟩ := TrackHistory.Sound.run (trackEvents name post) hsound hends.2 hok.2
  have hpre := session_track name pre
  have hall := session_track name (pre ++ post)
  constructor
  · rw [hpre.st, hall.st, historyOf, historyOf, trackEvents, trackEvents, filterMap_append, foldl_append]
    exact hle
  · rw [hpre.st, hpre.emitted]
    exact hsound.inOrder

def sampleFrame (n : Nat) : PullFrame := ⟨n * 1000, false, [BitVec.ofNat 8 n]⟩

/-- Group 2 comes and ends while the track is at group 1; group 5 waits until the timer skips to it. -/
def overtaken : List (Int × PullEvent) :=
  let v : Name := "v".toList
  [(10, .subscribed v 1), (11, .frame v 1 (sampleFrame 1)), (12, .frame v 2 (sampleFrame 3)),
    (13, .frame "a".toList 7 (sampleFrame 4)), (14, .frame v 1 (sampleFrame 2)), (15, .groupEnd v 2), (16, .groupEnd v 1),
    (17, .frame v 5 (sampleFrame 5)), (2500, .tick), (2501, .frame v 5 (sampleFrame 6))]

theorem groups_in_order_sample :
    (((run overtaken).emittedOf "v".toList).map fun e => (e.1, e.2.tsUs)) =
      [(1, 1000), (1, 2000), (2, 3000), (5, 5000), (5, 6000)] ∧
    TrackHistory.InOrder { historyOf "v".toList overtaken with
      st := (run overtaken).track "v".toList, emitted := (run overtaken).emittedOf "v".toList } :=
  ⟨by decide +kernel, (groups_in_order "v".toList overtaken (by decide +kernel) (by decide +kernel) overtaken []
    (append_nil _).symm).2⟩

/-- Group 2 ends with no frame before group 1 does; then one of group 3 comes. -/
def emptyGroup : List (Int × PullEvent) :=
  let v : Name := "v".toList
  [(10, .subscribed v 1), (11, .frame v 1 (sampleFrame 1)), (12, .groupEnd v 2), (13, .groupEnd v 1),
    (14, .frame v 3 (sampleFrame 2))]

/-- **The track stops in front of an empty group**: groups 1 and 2 have ended, and the frame of group 3 waits. -/
theorem empty_group_stalls :
    ((run emptyGroup).track "v".toList).nextGroup = 2 ∧
    ¬ TrackHistory.InOrder { historyOf "v".toList emptyGroup with
      st := (run emptyGroup).track "v".toList, emitted := (run emptyGroup).emittedOf "v".toList } := by
  refine ⟨by decide +kernel, fun hin => ?_⟩
  have hall : ∀ k, 1 ≤ k → k < 3 → k ∈ (historyOf "v".toList emptyGroup).ended := by
    have hended : (historyOf "v".toList emptyGroup).ended = [2, 1] := by decide +kernel
    intro k hlo hhi
    rw [hended]
    have hk : k = 1 ∨ k = 2 := by omega
    rcases hk with rfl | rfl <;> simp
  exact absurd (hin.prompt 1 (by decide +kernel) 3 (by decide) hall).1 (by decide +kernel)

end PullSession
end MoqLiveCast
