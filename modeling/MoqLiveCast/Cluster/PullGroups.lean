import MoqLiveCast.Cluster.PullTrack
/-!
# PullGroups — a pulled track emits its groups in order

`Kept` is the invariant of a track: the groups that wait are at or after the one it is at, a group that ended early is
one that waits, and what was emitted of a group, with what waits of it, is what arrived.

Two slips break it, and `KeepsOrder` says where: `SUBSCRIBE_START` moves a track that has started, and a group that ends
before its turn with no frame is marked as ended, but the loop looks for frames and stops in front of it.
-/
namespace MoqLiveCast
namespace TrackHistory

open List

open PullTrackState

def ofGroup (es : List Emission) (g : Nat) : List Emission := es.filter fun e => e.1 = g

def Skipped (h : TrackHistory) (g : Nat) : Prop := ∃ s ∈ h.skipped, s.1 ≤ g ∧ g < s.2

/-- **Frames are emitted in the order of their groups, in each group as they came and none twice; and when every group from
the first one to `g` has ended, none of `g` waits: all that came were emitted**, if the timer has not passed the group. -/
structure InOrder (h : TrackHistory) : Prop where
  sorted : h.emitted.Pairwise fun e e' => e.1 ≤ e'.1
  once : ∀ g, (ofGroup h.emitted g).Sublist (ofGroup h.arrived g)
  prompt : ∀ f ∈ h.first, ∀ g, f ≤ g → (∀ k, f ≤ k → k < g → k ∈ h.ended) →
    OrdMap.find h.st.pending g = none ∧ (¬ h.Skipped g → ofGroup h.emitted g = ofGroup h.arrived g)

/-- **`SUBSCRIBE_START` comes first, or names the group the track is at; and a group that ends before its turn has a frame
that waits.** -/
def KeepsOrder (h : TrackHistory) : Int × TrackEvent → Prop
  | (_, .subscribed firstGroup) => h.st.started = true → firstGroup = h.st.nextGroup
  | (_, .groupEnd group) => h.st.started = true → h.st.nextGroup < group → (OrdMap.find h.st.pending group).isSome
  | _ => True

def EndsLast (h : TrackHistory) : Int × TrackEvent → Prop
  | (_, .frame group _) => group ∉ h.ended
  | _ => True

instance (h : TrackHistory) (e : Int × TrackEvent) : Decidable (h.KeepsOrder e) := by
  unfold KeepsOrder
  split <;> infer_instance

instance (h : TrackHistory) (e : Int × TrackEvent) : Decidable (h.EndsLast e) := by
  unfold EndsLast
  split <;> infer_instance

def waiting (st : PullTrackState) (g : Nat) : List Emission := ((OrdMap.find st.pending g).getD []).map (g, ·)

def taken (h : TrackHistory) (g : Nat) : List Emission := ofGroup h.emitted g ++ waiting h.st g

structure Kept (f : Nat) (h : TrackHistory) : Prop where
  started : h.st.started = true
  first : h.first = some f
  ordered : OrdMap.Ordered h.st.pending
  from_first : f ≤ h.st.nextGroup
  keys : ∀ k frames, OrdMap.find h.st.pending k = some frames → h.st.nextGroup ≤ k
  marked : ∀ k ∈ h.st.ended, k ∈ h.ended ∧ ∃ frames, OrdMap.find h.st.pending k = some frames
  closed : ∀ k ∈ h.ended, k < h.st.nextGroup ∨ k ∈ h.st.ended
  passed : ∀ g, f ≤ g → g < h.st.nextGroup → g ∈ h.ended ∨ h.Skipped g
  sorted : h.emitted.Pairwise fun e e' => e.1 ≤ e'.1
  upto : ∀ e ∈ h.emitted, e.1 ≤ h.st.nextGroup
  once : ∀ g, (h.taken g).Sublist (ofGroup h.arrived g)
  whole : ∀ g, f ≤ g → ¬ h.Skipped g → h.taken g = ofGroup h.arrived g

structure Calm (f : Nat) (h : TrackHistory) : Prop extends Kept f h where
  none_waits : OrdMap.find h.st.pending h.st.nextGroup = none

variable {h : TrackHistory} {f g group : Nat} {frame : PullFrame} {now : Int}

@[simp] theorem ofGroup_append (es es' : List Emission) (g : Nat) :
    ofGroup (es ++ es') g = ofGroup es g ++ ofGroup es' g := filter_append ..

theorem ofGroup_map (frames : List PullFrame) (k g : Nat) :
    ofGroup (frames.map (k, ·)) g = if g = k then frames.map (k, ·) else [] := by
  unfold ofGroup
  rw [filter_map]
  by_cases hk : g = k
  · simp [hk, Function.comp_def]
  · simp [hk, Ne.symm hk, Function.comp_def]

theorem ofGroup_singleton (e : Emission) (g : Nat) : ofGroup [e] g = if g = e.1 then [e] else [] := by
  unfold ofGroup
  by_cases hk : g = e.1
  · simp [hk]
  · simp [hk, Ne.symm hk]

/-! ## The loop -/

def drainTurn (h : TrackHistory) : TrackHistory :=
  { h with st := h.st.drainTurn, emitted := h.emitted ++ waiting h.st h.st.nextGroup }

theorem taken_drainTurn (h : TrackHistory) (g : Nat) : h.drainTurn.taken g = h.taken g := by
  unfold taken drainTurn
  simp only [waiting, PullTrackState.drainTurn, ofGroup_append, ofGroup_map, OrdMap.find_erase]
  by_cases hg : g = h.st.nextGroup <;> simp [hg]

theorem group_of_waiting {st : PullTrackState} {e : Emission} (he : e ∈ waiting st g) : e.1 = g := by
  obtain ⟨frame, -, rfl⟩ := List.mem_map.1 he
  rfl

theorem sorted_append {es es' : List Emission} (hs : es.Pairwise fun e e' => e.1 ≤ e'.1) (hup : ∀ e ∈ es, e.1 ≤ g)
    (hg : ∀ e ∈ es', e.1 = g) : (es ++ es').Pairwise fun e e' => e.1 ≤ e'.1 := by
  refine List.pairwise_append.2 ⟨hs, ?_, fun e he e' he' => hg e' he' ▸ hup e he⟩
  exact pairwise_of_forall_mem_list fun e he e' he' => by rw [hg e he, hg e' he']

theorem Kept.drainTurn (hk : Kept f h) : Kept f h.drainTurn := by
  have hnext : h.drainTurn.st.nextGroup = if h.st.nextGroup ∈ h.st.ended then h.st.nextGroup + 1 else h.st.nextGroup :=
    rfl
  have hle : h.st.nextGroup ≤ h.drainTurn.st.nextGroup ∧ h.drainTurn.st.nextGroup ≤ h.st.nextGroup + 1 := by
    rw [hnext]
    split <;> omega
  have hfind : ∀ k, OrdMap.find h.drainTurn.st.pending k = if k = h.st.nextGroup then none else OrdMap.find h.st.pending k :=
    fun k => OrdMap.find_erase ..
  have hended : ∀ k, k ∈ h.drainTurn.st.ended ↔ k ≠ h.st.nextGroup ∧ k ∈ h.st.ended := fun k => Finset.mem_erase
  refine ⟨hk.started, hk.first, hk.ordered.filter _, hk.from_first.trans hle.1, ?_, ?_, ?_, ?_, ?_, ?_, ?_, ?_⟩
  · intro k frames hf
    rw [hfind] at hf
    split at hf
    · cases hf
    · have hkey := hk.keys k frames hf
      omega
  · intro k hm
    obtain ⟨hne, hm⟩ := (hended k).1 hm
    rw [hfind, if_neg hne]
    exact hk.marked k hm
  · intro k hm
    rw [hended]
    rcases hk.closed k hm with hlt | hm
    · exact .inl (by omega)
    · by_cases hne : k = h.st.nextGroup
      · subst hne
        rw [hnext, if_pos hm]
        exact .inl (Nat.lt_succ_self _)
      · exact .inr ⟨hne, hm⟩
  · intro g hg hlt
    by_cases hold : g < h.st.nextGroup
    · exact hk.passed g hg hold
    · rw [hnext] at hlt
      split at hlt
      · next hm =>
        have heq : g = h.st.nextGroup := by omega
        exact .inl (heq ▸ (hk.marked _ hm).1)
      · exact absurd hlt hold
  · exact sorted_append hk.sorted hk.upto fun e he => group_of_waiting he
  · intro e he
    rcases List.mem_append.1 he with he | he
    · exact (hk.upto e he).trans hle.1
    · exact group_of_waiting he ▸ hle.1
  · exact fun g => taken_drainTurn h g ▸ hk.once g
  · exact fun g hg hs => (taken_drainTurn h g).trans (hk.whole g hg hs)

theorem Kept.drainTurns : ∀ (n : Nat) {h : TrackHistory}, Kept f h → h.st.pending.length ≤ n →
    Calm f { h with st := (h.st.drainTurns n).1, emitted := h.emitted ++ (h.st.drainTurns n).2 }
  | 0, h, hk, hn => by
    have hnil : h.st.pending = [] := List.length_eq_zero_iff.1 (Nat.le_zero.1 hn)
    simp only [PullTrackState.drainTurns, append_nil]
    exact ⟨hk, by simp [hnil]⟩
  | n + 1, h, hk, hn => by
    unfold PullTrackState.drainTurns
    cases hf : OrdMap.find h.st.pending h.st.nextGroup with
    | none =>
      simp only [append_nil]
      exact ⟨hk, hf⟩
    | some frames =>
      have hwait : waiting h.st h.st.nextGroup = frames.map (h.st.nextGroup, ·) := by simp [waiting, hf]
      by_cases hm : h.st.nextGroup ∈ h.st.ended
      · have hlt : h.drainTurn.st.pending.length < h.st.pending.length := length_drainTurn_lt hf
        have hrest := Kept.drainTurns n hk.drainTurn (by omega)
        simp only [hm, if_true, ← hwait, ← append_assoc]
        exact hrest
      · simp only [hm, if_false, ← hwait]
        refine ⟨hk.drainTurn, ?_⟩
        simp [PullTrackState.drainTurn, hm]

theorem Kept.drainPending (hk : Kept f h) (now : Int) :
    Calm f { h with st := (h.st.drainPending now).1, emitted := h.emitted ++ (h.st.drainPending now).2 } := by
  have hc := hk.drainTurns h.st.pending.length (Nat.le_refl _)
  exact { hc with }

/-! ## The events -/

theorem Calm.frame_passed (hc : Calm f h) (hend : group ∉ h.ended) (hlt : group < h.st.nextGroup) :
    Calm f { h with arrived := h.arrived ++ [(group, frame)] } := by
  refine { hc with once := fun g => ?_, whole := fun g hg hs => ?_ }
  · rw [ofGroup_append]
    exact (hc.once g).trans (sublist_append_left _ _)
  · have hne : g ≠ group := by
      rintro rfl
      exact (hc.passed g hg hlt).elim hend hs
    rw [ofGroup_append, ofGroup_singleton, if_neg hne, append_nil]
    exact hc.whole g hg hs

theorem Calm.frame_now (hc : Calm f h) :
    Calm f { h with
      arrived := h.arrived ++ [(h.st.nextGroup, frame)]
      emitted := h.emitted ++ [(h.st.nextGroup, frame)] } := by
  have htaken : ∀ g, taken { h with
      arrived := h.arrived ++ [(h.st.nextGroup, frame)]
      emitted := h.emitted ++ [(h.st.nextGroup, frame)] } g = h.taken g ++ ofGroup [(h.st.nextGroup, frame)] g := by
    intro g
    by_cases hg : g = h.st.nextGroup
    · simp [taken, waiting, hg, hc.none_waits]
    · simp [taken, ofGroup_singleton, hg]
  refine { hc with sorted := ?_, upto := ?_, once := fun g => ?_, whole := fun g hg hs => ?_ }
  · exact sorted_append hc.sorted hc.upto (by simp)
  · intro e he
    rcases List.mem_append.1 he with he | he
    · exact hc.upto e he
    · rw [List.mem_singleton.1 he]
  · rw [htaken, ofGroup_append]
    exact (hc.once g).append_right _
  · rw [htaken, ofGroup_append, hc.whole g hg hs]

theorem Calm.frame_later (hc : Calm f h) (hlt : h.st.nextGroup < group) (oldest : Int) :
    Calm f { h with
      st := { h.st with
        oldestPendingMs := oldest
        pending := OrdMap.put h.st.pending group ((OrdMap.find h.st.pending group).getD [] ++ [frame]) }
      arrived := h.arrived ++ [(group, frame)] } := by
  have hfind : ∀ k, OrdMap.find (OrdMap.put h.st.pending group ((OrdMap.find h.st.pending group).getD [] ++ [frame])) k =
      if k = group then some ((OrdMap.find h.st.pending group).getD [] ++ [frame]) else OrdMap.find h.st.pending k :=
    fun k => OrdMap.find_put ..
  have htaken : ∀ g, taken { h with
      st := { h.st with
        oldestPendingMs := oldest
        pending := OrdMap.put h.st.pending group ((OrdMap.find h.st.pending group).getD [] ++ [frame]) }
      arrived := h.arrived ++ [(group, frame)] } g = h.taken g ++ ofGroup [(group, frame)] g := by
    intro g
    unfold taken waiting
    simp only [hfind, ofGroup_singleton]
    by_cases hg : g = group <;> simp [hg]
  refine { hc with
    ordered := hc.ordered.put _ _, keys := ?_, marked := ?_, once := fun g => ?_, whole := fun g hg hs => ?_
    none_waits := ?_ }
  · intro k frames hf
    rw [hfind] at hf
    split at hf
    · next hk =>
      subst hk
      exact Nat.le_of_lt hlt
    · exact hc.keys k frames hf
  · intro k hm
    obtain ⟨hend, frames, hf⟩ := hc.marked k hm
    refine ⟨hend, ?_⟩
    rw [hfind]
    split
    · exact ⟨_, rfl⟩
    · exact ⟨frames, hf⟩
  · rw [htaken, ofGroup_append]
    exact (hc.once g).append_right _
  · rw [htaken, ofGroup_append, hc.whole g hg hs]
  · rw [hfind, if_neg (Nat.ne_of_lt hlt)]
    exact hc.none_waits

theorem Calm.ended_passed (hc : Calm f h) (hlt : group < h.st.nextGroup) : Calm f { h with ended := h.ended ++ [group] } := by
  refine { hc with marked := fun k hm => ?_, closed := fun k hm => ?_, passed := fun g hg hlt => ?_ }
  · exact ⟨mem_append_left _ (hc.marked k hm).1, (hc.marked k hm).2⟩
  · rcases List.mem_append.1 hm with hm | hm
    · exact hc.closed k hm
    · exact .inl (List.mem_singleton.1 hm ▸ hlt)
  · exact (hc.passed g hg hlt).imp (mem_append_left _) id

theorem Calm.ended_now (hc : Calm f h) :
    Kept f { h with
      st := { h.st with ended := h.st.ended.erase h.st.nextGroup, nextGroup := h.st.nextGroup + 1 }
      ended := h.ended ++ [h.st.nextGroup] } := by
  have hne : ∀ {k frames}, OrdMap.find h.st.pending k = some frames → k ≠ h.st.nextGroup := by
    rintro k frames hf rfl
    rw [hc.none_waits] at hf
    cases hf
  refine { hc.toKept with
    from_first := Nat.le_succ_of_le hc.from_first, keys := fun k frames hf => ?_, marked := fun k hm => ?_
    closed := fun k hm => ?_, passed := fun g hg hlt => ?_, upto := fun e he => Nat.le_succ_of_le (hc.upto e he) }
  · have hkey := hc.keys k frames hf
    have hk := hne hf
    exact Nat.lt_of_le_of_ne hkey (Ne.symm hk)
  · obtain ⟨hend, hf⟩ := hc.marked k (Finset.mem_of_mem_erase hm)
    exact ⟨mem_append_left _ hend, hf⟩
  · rcases List.mem_append.1 hm with hm | hm
    · rcases hc.closed k hm with hlt | hm
      · exact .inl (Nat.lt_succ_of_lt hlt)
      · obtain ⟨-, frames, hf⟩ := hc.marked k hm
        exact .inr (Finset.mem_erase.2 ⟨hne hf, hm⟩)
    · exact .inl (List.mem_singleton.1 hm ▸ Nat.lt_succ_self _)
  · rcases Nat.lt_succ_iff_lt_or_eq.1 hlt with hlt | heq
    · exact (hc.passed g hg hlt).imp (mem_append_left _) id
    · exact .inl (mem_append_right _ (List.mem_singleton.2 heq))

theorem Calm.ended_later (hc : Calm f h) (hwait : (OrdMap.find h.st.pending group).isSome) :
    Calm f { h with st := { h.st with ended := insert group h.st.ended }, ended := h.ended ++ [group] } := by
  refine { hc with marked := fun k hm => ?_, closed := fun k hm => ?_, passed := fun g hg hlt => ?_ }
  · rcases Finset.mem_insert.1 hm with rfl | hm
    · exact ⟨mem_append_right _ (mem_singleton_self _), Option.isSome_iff_exists.1 hwait⟩
    · exact ⟨mem_append_left _ (hc.marked k hm).1, (hc.marked k hm).2⟩
  · rcases List.mem_append.1 hm with hm | hm
    · exact (hc.closed k hm).imp id (Finset.mem_insert_of_mem)
    · exact .inr (List.mem_singleton.1 hm ▸ Finset.mem_insert_self _ _)
  · exact (hc.passed g hg hlt).imp (mem_append_left _) id

theorem Calm.skip (hc : Calm f h) {front : Nat} {frames : List PullFrame} {rest : List (Nat × List PullFrame)}
    (hp : h.st.pending = (front, frames) :: rest) (hlt : h.st.nextGroup < front) (oldest : Int) :
    Kept f { h with
      st := { h.st with nextGroup := front, oldestPendingMs := oldest }
      skipped := h.skipped ++ [(h.st.nextGroup, front)] } := by
  have hskipped : ∀ {g}, h.Skipped g → Skipped { h with
      st := { h.st with nextGroup := front, oldestPendingMs := oldest }
      skipped := h.skipped ++ [(h.st.nextGroup, front)] } g :=
    fun ⟨s, hs, hg⟩ => ⟨s, mem_append_left _ hs, hg⟩
  have hkeys : ∀ k frames, OrdMap.find h.st.pending k = some frames → front ≤ k := by
    intro k frames hf
    have hmem := OrdMap.mem_of_find hf
    have hord := hc.ordered
    rw [hp] at hmem hord
    rcases List.mem_cons.1 hmem with heq | hmem
    · exact Nat.le_of_eq (congrArg Prod.fst heq).symm
    · exact Nat.le_of_lt ((List.pairwise_cons.1 hord).1 _ hmem)
  refine { hc.toKept with
    from_first := hc.from_first.trans (Nat.le_of_lt hlt), keys := hkeys, closed := fun k hm => ?_
    passed := fun g hg hfront => ?_, upto := fun e he => (hc.upto e he).trans (Nat.le_of_lt hlt)
    whole := fun g hg hs => hc.whole g hg fun hold => hs (hskipped hold) }
  · exact (hc.closed k hm).imp (fun hk => hk.trans hlt) id
  · by_cases hold : g < h.st.nextGroup
    · exact (hc.passed g hg hold).imp id hskipped
    · exact .inr ⟨_, mem_append_right _ (mem_singleton_self _), Nat.le_of_not_lt hold, hfront⟩

/-! ## The step -/

theorem Calm.start (hc : Calm f h) (group : Nat) : h.st.start group = h.st := if_pos hc.started

theorem Calm.step_frame (hc : Calm f h) (hends : group ∉ h.ended) (now : Int) : Calm f (h.step (now, .frame group frame)) := by
  unfold step
  simp only [PullTrackState.step, handleTrackFrame, hc.start, TrackEvent.arrives, TrackEvent.ends, TrackEvent.skips,
    hc.first, Option.some_or, append_nil]
  rcases Nat.lt_trichotomy group h.st.nextGroup with hlt | rfl | hlt
  · simpa [hlt, ← hc.first] using hc.frame_passed hends hlt
  · simpa [hc.none_waits, ← hc.first] using hc.frame_now
  · have hnot : ¬ group < h.st.nextGroup := by omega
    have hne : group ≠ h.st.nextGroup := by omega
    simpa [hnot, hne, ← hc.first] using hc.frame_later hlt _

theorem Calm.step_groupEnd (hc : Calm f h) (hwait : h.st.nextGroup < group → (OrdMap.find h.st.pending group).isSome)
    (now : Int) : Calm f (h.step (now, .groupEnd group)) := by
  unfold step
  simp only [PullTrackState.step, onGroupEndInternal, hc.start, TrackEvent.arrives, TrackEvent.ends, TrackEvent.skips,
    hc.first, Option.some_or, append_nil]
  rcases Nat.lt_trichotomy group h.st.nextGroup with hlt | rfl | hlt
  · simpa [hlt, ← hc.first] using hc.ended_passed hlt
  · simpa [← hc.first] using hc.ended_now.drainPending now
  · have hnot : ¬ group < h.st.nextGroup := by omega
    have hne : group ≠ h.st.nextGroup := by omega
    simpa [hnot, hne, ← hc.first] using hc.ended_later (hwait hlt)

theorem Calm.step_tick (hc : Calm f h) (now : Int) : Calm f (h.step (now, .tick)) := by
  unfold step
  simp only [PullTrackState.step, onTick, TrackEvent.arrives, TrackEvent.ends, TrackEvent.skips, skipTo, hc.first,
    Option.some_or, append_nil]
  cases hp : h.st.pending with
  | nil => simpa [hp, ← hc.first] using hc
  | cons e rest =>
    obtain ⟨front, frames⟩ := e
    by_cases hle : front ≤ h.st.nextGroup
    · have hnot : ¬ h.st.nextGroup < front := by omega
      simpa [hle, hnot, ← hc.first] using hc
    · have hlt : h.st.nextGroup < front := by omega
      by_cases hold : h.st.oldestPendingMs = 0
      · have hc' : Calm f { h with st := { h.st with oldestPendingMs := now } } := { hc with }
        simpa [hle, hold, ← hc.first, ← hp] using hc'
      · by_cases hsoon : now - h.st.oldestPendingMs ≤ 2000
        · have hnot : ¬ 2000 < now - h.st.oldestPendingMs := by omega
          simpa [hle, hold, hsoon, hnot, ← hc.first] using hc
        · have hlate : 2000 < now - h.st.oldestPendingMs := by omega
          simpa [hle, hold, hsoon, hlt, hlate, ← hc.first, ← hp] using (hc.skip hp hlt now).drainPending now

theorem Calm.step (hc : Calm f h) {e : Int × TrackEvent} (hends : EndsLast h e) (hok : KeepsOrder h e) : Calm f (h.step e) := by
  obtain ⟨now, e⟩ := e
  cases e with
  | frame group frame => exact hc.step_frame hends now
  | groupEnd group => exact hc.step_groupEnd (hok hc.started) now
  | tick => exact hc.step_tick now
  | subscribed firstGroup =>
    have hsame : h.step (now, .subscribed firstGroup) = h := by
      unfold TrackHistory.step
      simp [PullTrackState.step, onSubscribed, TrackEvent.arrives, TrackEvent.ends, TrackEvent.skips, hok hc.started,
        hc.first, ← hc.started]
      rw [← hc.first]
    rwa [hsame]

/-! ## The run -/

def Sound (h : TrackHistory) : Prop := h = {} ∨ ∃ f, Calm f h

def startedAt (group : Nat) : TrackHistory where
  st := { nextGroup := group, started := true }
  first := some group

theorem calm_startedAt (group : Nat) : Calm group (startedAt group) := by
  refine ⟨⟨rfl, rfl, .nil, Nat.le_refl _, nofun, nofun, nofun, ?_, .nil, nofun, fun _ => .slnil, fun _ _ _ => rfl⟩, rfl⟩
  intro g hle hlt
  exact absurd hlt (Nat.not_lt.2 hle)

theorem step_of_starts {e : TrackEvent} (hs : e.starts = some group) :
    ({} : TrackHistory).step (now, e) = (startedAt group).step (now, e) := by
  cases e <;> cases hs <;> rfl

theorem Sound.step (hs : Sound h) {e : Int × TrackEvent} (hends : EndsLast h e) (hok : KeepsOrder h e) : Sound (h.step e) := by
  rcases hs with rfl | ⟨f, hc⟩
  · obtain ⟨now, e⟩ := e
    cases hst : e.starts with
    | none =>
      cases e <;> cases hst
      exact .inl rfl
    | some group =>
      rw [step_of_starts hst]
      refine .inr ⟨group, (calm_startedAt group).step ?_ ?_⟩ <;> cases e <;> cases hst <;>
        simp [EndsLast, KeepsOrder, startedAt]
  · exact .inr ⟨f, hc.step hends hok⟩

theorem Sound.inOrder (hs : Sound h) : InOrder h := by
  rcases hs with rfl | ⟨f, hc⟩
  · exact ⟨.nil, fun _ => .slnil, nofun⟩
  · refine ⟨hc.sorted, fun g => (sublist_append_left _ _).trans (hc.once g), fun f' hf g hg hall => ?_⟩
    obtain rfl : f = f' := Option.some.inj (hc.first.symm.trans hf)
    have hnone : OrdMap.find h.st.pending g = none := by
      cases hf : OrdMap.find h.st.pending g with
      | none => rfl
      | some frames =>
        -- then the track is at a group before `g`, which has ended, and is one that waits
        have hlt : h.st.nextGroup < g := Nat.lt_of_le_of_ne (hc.keys g frames hf) (by
          rintro rfl
          rw [hc.none_waits] at hf
          cases hf)
        rcases hc.closed _ (hall _ hc.from_first hlt) with hself | hm
        · exact absurd hself (Nat.lt_irrefl _)
        · obtain ⟨-, frames, hwait⟩ := hc.marked _ hm
          rw [hc.none_waits] at hwait
          cases hwait
    refine ⟨hnone, fun hskip => ?_⟩
    have hwhole := hc.whole g hg hskip
    simpa [taken, waiting, hnone] using hwhole

theorem le_drainTurns : ∀ (n : Nat) (st : PullTrackState), st.nextGroup ≤ (st.drainTurns n).1.nextGroup
  | 0, st => Nat.le_refl _
  | n + 1, st => by
    have hle : st.nextGroup ≤ st.drainTurn.nextGroup := by
      simp only [PullTrackState.drainTurn]
      split <;> omega
    unfold PullTrackState.drainTurns
    cases OrdMap.find st.pending st.nextGroup with
    | none => exact Nat.le_refl _
    | some frames =>
      by_cases hm : st.nextGroup ∈ st.ended
      · simpa [hm] using hle.trans (le_drainTurns n st.drainTurn)
      · simpa [hm] using hle

theorem Sound.nextGroup_le (hs : Sound h) {e : Int × TrackEvent} (hok : KeepsOrder h e) :
    h.st.nextGroup ≤ (h.step e).st.nextGroup := by
  obtain ⟨now, e⟩ := e
  rcases hs with rfl | ⟨f, hc⟩
  · exact Nat.zero_le _
  · cases e with
    | frame group frame =>
      simp only [TrackHistory.step, PullTrackState.step, handleTrackFrame, hc.start]
      split_ifs <;> exact Nat.le_refl _
    | groupEnd group =>
      simp only [TrackHistory.step, PullTrackState.step, onGroupEndInternal, hc.start]
      split_ifs
      · exact Nat.le_refl _
      · exact (Nat.le_succ _).trans (le_drainTurns _ { h.st with
          ended := h.st.ended.erase group, nextGroup := h.st.nextGroup + 1 })
      · exact Nat.le_refl _
    | subscribed firstGroup => exact Nat.le_of_eq (hok hc.started).symm
    | tick =>
      simp only [TrackHistory.step, PullTrackState.step, onTick]
      split
      · exact Nat.le_refl _
      · next front frames rest hp =>
        split_ifs with hle
        · exact Nat.le_refl _
        · exact Nat.le_refl _
        · exact Nat.le_refl _
        · exact (Nat.le_of_not_le hle).trans (le_drainTurns _ { h.st with nextGroup := front, oldestPendingMs := now })

theorem Sound.run : ∀ (es : List (Int × TrackEvent)) {h : TrackHistory}, Sound h → StepsOk TrackHistory.step EndsLast h es →
    StepsOk TrackHistory.step KeepsOrder h es →
      Sound (es.foldl TrackHistory.step h) ∧ h.st.nextGroup ≤ (es.foldl TrackHistory.step h).st.nextGroup
  | [], _, hs, _, _ => ⟨hs, Nat.le_refl _⟩
  | e :: es, h, hs, hends, hok => by
    obtain ⟨hrun, hle⟩ := Sound.run es (hs.step hends.1 hok.1) hends.2 hok.2
    exact ⟨hrun, (hs.nextGroup_le hok.1).trans hle⟩

end TrackHistory
end MoqLiveCast
