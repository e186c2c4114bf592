import MoqLiveCast.Lib.Run
import MoqLiveCast.Media.StreamSteps
/-!
# StreamClock — the time line over a change of publisher

A publisher that was removed leaves the time line to be continued by the next packet, 40 ms after its last one. The
shift set there is for both tracks: a track that begins earlier than that packet falls behind the old publisher.
-/
namespace MoqLiveCast

open StreamKey

/-- The key, the last output of the publisher before, whether there was no packet since, and the packet that set the shift:
its time, and where it was placed. -/
structure ClockKey where
  key : StreamKey
  floor : Option Int := none
  fresh : Bool := false
  anchorIn : Int := 0
  anchorOut : Int := 0

namespace ClockKey

def changesSource (s : StreamKey) : StreamOp → Bool
  | .removePublisher => true
  | .release owner => s.isPublisherOwner owner
  | .claim owner now => s.stream.any fun st => st.publisherId ≠ [] && st.publisherId ≠ owner && ¬refused st now
  | _ => false

/-- The packet sets the shift: it is the first behind a removed publisher, or its track went back by more than a second. -/
def Anchors (st : MediaStream) (p : MediaPacket) : Prop :=
  (st.clockResetPending = true ∧ 0 ≤ st.lastOutDts) ∨
    (p.isSeqHdr = false ∧ 0 ≤ st.lastIn p ∧ notBelow0 p.dts + 1000 < st.lastIn p)

instance (st : MediaStream) (p : MediaPacket) : Decidable (Anchors st p) := by
  unfold Anchors
  infer_instance

def reached (s : StreamKey) : Option Int :=
  s.stream.bind fun st => if 0 ≤ st.lastOutDts then some st.lastOutDts else none

def step (writerId : Nat → Name) (c : ClockKey) (op : StreamOp) : ClockKey :=
  let key := c.key.step writerId op
  if key.stream = none then { key := key }
  else
    match op with
    | .packet p _ =>
      if Anchors c.key.published p then
        ⟨key, c.floor, false, notBelow0 p.dts, notBelow0 c.key.published.lastOutDts + 40⟩
      else { c with key := key, fresh := false }
    | op =>
      if changesSource c.key op then { c with key := key, floor := reached c.key, fresh := true }
      else { c with key := key }

def placed (c : ClockKey) (p : MediaPacket) : Int := (c.key.published.normalizeDts p).2.dts

/-- **The packet is not before the last output of the publisher before**, and the first one at most 40 ms after it. -/
def OnTime (c : ClockKey) : StreamOp → Prop
  | .packet p _ => ∀ floor, c.floor = some floor → floor ≤ c.placed p ∧ (c.fresh = true → c.placed p ≤ floor + 40)
  | _ => True

/-- **The condition on a packet**, which is one on raw times: it sets the shift, or lies before the packet that set it by no
more than that was placed after the old publisher's last output, and the first one by no less than 40 ms less. -/
def ClockOk (c : ClockKey) : StreamOp → Prop
  | .packet p _ => ∀ floor, c.floor = some floor → ¬Anchors c.key.published p →
    (0 < floor → c.anchorIn - notBelow0 p.dts ≤ c.anchorOut - floor) ∧
      (c.fresh = true → c.anchorOut - (floor + 40) ≤ c.anchorIn - notBelow0 p.dts)
  | _ => True

theorem notBelow0_nonneg (n : Int) : 0 ≤ notBelow0 n := by
  unfold notBelow0
  split <;> omega

theorem shifted_anchors {st : MediaStream} {p : MediaPacket} (h : Anchors st p) :
    (st.shifted p).tsShift = notBelow0 st.lastOutDts + 40 - notBelow0 p.dts ∧ (st.shifted p).lastOutDts = st.lastOutDts := by
  unfold MediaStream.shifted
  dsimp only
  split
  · rename_i hpend
    have hout : notBelow0 st.lastOutDts = st.lastOutDts := by
      unfold notBelow0
      rw [if_neg (by omega)]
    exact ⟨by rw [hout]; rfl, rfl⟩
  · rename_i hpend
    rw [if_pos (h.resolve_left hpend)]
    exact ⟨rfl, rfl⟩

theorem shifted_stays {st : MediaStream} {p : MediaPacket} (h : ¬Anchors st p) : st.shifted p = st := by
  obtain ⟨hpend, hback⟩ := not_or.1 h
  unfold MediaStream.shifted
  dsimp only
  rw [if_neg hpend, if_neg hback]

theorem normalizeDts_spec (st : MediaStream) (p : MediaPacket) :
    (st.normalizeDts p).2.dts = notBelow0 (notBelow0 p.dts + (st.shifted p).tsShift) ∧
      (st.normalizeDts p).1.tsShift = (st.shifted p).tsShift ∧
      (st.normalizeDts p).1.lastOutDts = if p.isSeqHdr = true then (st.shifted p).lastOutDts else (st.normalizeDts p).2.dts := by
  have hset : ∀ (st : MediaStream) n, (st.setLastIn p n).tsShift = st.tsShift ∧
      (st.setLastIn p n).lastOutDts = st.lastOutDts := by
    intro st n
    unfold MediaStream.setLastIn
    split <;> exact ⟨rfl, rfl⟩
  unfold MediaStream.normalizeDts
  by_cases hhdr : p.isSeqHdr = true <;> simp [hhdr, hset]

/-- The shift is what was given the packet that set it, and what is put out does not fall below the floor. -/
structure ClockInv (c : ClockKey) : Prop where
  shift : ∀ st, c.key.stream = some st → st.tsShift = c.anchorOut - c.anchorIn
  gone : c.key.stream = none → c.anchorOut = c.anchorIn ∧ c.floor = none
  floor : ∀ floor st, c.floor = some floor → c.key.stream = some st → 0 ≤ floor ∧ floor ≤ st.lastOutDts
  fresh : ∀ floor st, c.fresh = true → c.floor = some floor → c.key.stream = some st → st.lastOutDts = floor

theorem ClockInv.published {c : ClockKey} (h : ClockInv c) : c.key.published.tsShift = c.anchorOut - c.anchorIn := by
  unfold StreamKey.published
  cases hst : c.key.stream with
  | none =>
    have := (h.gone hst).1
    dsimp only
    omega
  | some st => exact h.shift st hst

theorem ClockInv.publishedFloor {c : ClockKey} (h : ClockInv c) {floor : Int} (hf : c.floor = some floor) :
    0 ≤ floor ∧ floor ≤ c.key.published.lastOutDts ∧ (c.fresh = true → c.key.published.lastOutDts = floor) := by
  unfold StreamKey.published
  cases hst : c.key.stream with
  | none =>
    rw [(h.gone hst).2] at hf
    cases hf
  | some st => exact ⟨(h.floor floor st hf hst).1, (h.floor floor st hf hst).2, fun hfresh => h.fresh floor st hfresh hf hst⟩

theorem onTime_iff (c : ClockKey) (op : StreamOp) (h : ClockInv c) : OnTime c op ↔ ClockOk c op := by
  cases op with
  | packet p fails =>
    refine forall_congr' fun floor => forall_congr' fun hf => ?_
    obtain ⟨hnonneg, hle, hfresh⟩ := h.publishedFloor hf
    have hplaced : c.placed p = notBelow0 (notBelow0 p.dts + (c.key.published.shifted p).tsShift) :=
      (normalizeDts_spec _ p).1
    by_cases hanchor : Anchors c.key.published p
    · -- placed 40 ms after the last output, which is not before the floor
      refine iff_of_true ?_ fun hn => absurd hanchor hn
      rw [hplaced, (shifted_anchors hanchor).1]
      have hout : notBelow0 c.key.published.lastOutDts = c.key.published.lastOutDts := by
        unfold notBelow0
        rw [if_neg (by omega)]
      rw [hout]
      unfold notBelow0
      constructor
      · split_ifs <;> omega
      · intro hfr
        have := hfresh hfr
        split_ifs <;> omega
    · rw [hplaced, shifted_stays hanchor, h.published]
      simp only [hanchor, not_false_eq_true, true_implies]
      have hraw := notBelow0_nonneg p.dts
      generalize notBelow0 p.dts = raw at *
      unfold notBelow0
      refine and_congr ⟨fun hp hpos => ?_, fun hp => ?_⟩ (forall_congr' fun hfr => ⟨fun hp => ?_, fun hp => ?_⟩)
      · split_ifs at hp <;> omega
      · by_cases hpos : 0 < floor
        · have := hp hpos
          rw [if_neg (by omega)]
          omega
        · split_ifs <;> omega
      · split_ifs at hp <;> omega
      · split_ifs <;> omega
  | _ => exact Iff.rfl

theorem ClockInv.moved {writerId : Nat → Name} {c c' : ClockKey} (h : ClockInv c) {op : StreamOp}
    (hop : ∀ p fails, op ≠ .packet p fails) (hkey : c'.key = c.key.step writerId op) (hthere : c'.key.stream ≠ none)
    (hin : c'.anchorIn = c.anchorIn) (hout : c'.anchorOut = c.anchorOut)
    (hfloor : (c'.floor = c.floor ∧ c'.fresh = c.fresh) ∨ c'.floor = reached c.key) : ClockInv c' := by
  have hentry : ∀ st', c'.key.stream = some st' → ∃ st, (c.key.stream = some st ∨ (c.key.stream = none ∧ st = {})) ∧
      st'.lastOutDts = st.lastOutDts ∧ st'.tsShift = st.tsShift := by
    intro st' hst'
    rw [hkey] at hst'
    obtain ⟨st, hst, hrests⟩ := step_entry writerId c.key op hst'
    exact ⟨st, hst, hrests.clock hop⟩
  have hreached : c'.floor = reached c.key → ∀ floor st', c'.floor = some floor → c'.key.stream = some st' →
      0 ≤ floor ∧ st'.lastOutDts = floor := by
    intro heq floor st' hf hst'
    obtain ⟨st, hst, hlast, -⟩ := hentry st' hst'
    rw [heq] at hf
    unfold reached at hf
    rcases hst with hst | ⟨hnone, -⟩
    · rw [hst, Option.bind_some] at hf
      split at hf
      · rename_i hpos
        cases hf
        exact ⟨hpos, hlast⟩
      · cases hf
    · rw [hnone] at hf
      cases hf
  refine ⟨fun st' hst' => ?_, fun hnone => absurd hnone hthere, fun floor st' hf hst' => ?_, fun floor st' hfr hf hst' => ?_⟩
  · obtain ⟨st, hst, -, hshift⟩ := hentry st' hst'
    rw [hin, hout, hshift]
    rcases hst with hst | ⟨hnone, rfl⟩
    · exact h.shift st hst
    · have := (h.gone hnone).1
      dsimp only
      omega
  · rcases hfloor with ⟨hsame, -⟩ | hfloor
    · obtain ⟨st, hst, hlast, -⟩ := hentry st' hst'
      rw [hsame] at hf
      rcases hst with hst | ⟨hnone, -⟩
      · rw [hlast]
        exact h.floor floor st hf hst
      · rw [(h.gone hnone).2] at hf
        cases hf
    · have := hreached hfloor floor st' hf hst'
      omega
  · rcases hfloor with ⟨hsame, hfresh⟩ | hfloor
    · obtain ⟨st, hst, hlast, -⟩ := hentry st' hst'
      rw [hsame] at hf
      rw [hfresh] at hfr
      rcases hst with hst | ⟨hnone, -⟩
      · rw [hlast]
        exact h.fresh floor st hfr hf hst
      · rw [(h.gone hnone).2] at hf
        cases hf
    · exact (hreached hfloor floor st' hf hst').2

theorem ClockInv.fed {writerId : Nat → Name} {c : ClockKey} (h : ClockInv c) (p : MediaPacket)
    (fails : Nat → MediaPacket → Bool) (hok : OnTime c (.packet p fails)) : ClockInv (c.step writerId (.packet p fails)) := by
  obtain ⟨ws, hst, -⟩ := writerMediaPacket_spec writerId fails c.key p
  have hkey : (c.key.step writerId (.packet p fails)).stream =
      some { (StreamKey.fed c.key.published p).1 with writers := ws } := hst
  obtain ⟨hplaced, hshift, hlast⟩ := normalizeDts_spec c.key.published p
  have hfed : ∀ floor, c.floor = some floor → 0 ≤ floor ∧ floor ≤ (c.key.published.normalizeDts p).1.lastOutDts := by
    intro floor hf
    obtain ⟨hnonneg, hle, -⟩ := h.publishedFloor hf
    refine ⟨hnonneg, ?_⟩
    rw [hlast]
    split
    · by_cases hanchor : Anchors c.key.published p
      · rw [(shifted_anchors hanchor).2]
        exact hle
      · rw [shifted_stays hanchor]
        exact hle
    · exact (hok floor hf).1
  have hinv : ∀ c' : ClockKey, c'.key = c.key.step writerId (.packet p fails) → c'.floor = c.floor → c'.fresh = false →
      (c.key.published.shifted p).tsShift = c'.anchorOut - c'.anchorIn → ClockInv c' := by
    intro c' hk hfl hfr hsh
    refine ⟨fun st' hst' => ?_, fun hnone => ?_, fun floor st' hf hst' => ?_, fun floor st' hfr' => ?_⟩
    · rw [hk, hkey] at hst'
      rw [← Option.some.inj hst']
      exact hshift.trans hsh
    · rw [hk, hkey] at hnone
      cases hnone
    · rw [hk, hkey] at hst'
      rw [← Option.some.inj hst']
      rw [hfl] at hf
      exact hfed floor hf
    · rw [hfr] at hfr'
      cases hfr'
  unfold ClockKey.step
  dsimp only
  rw [if_neg (by rw [hkey]; exact Option.some_ne_none _)]
  split
  · rename_i hanchor
    exact hinv _ rfl rfl rfl (shifted_anchors hanchor).1
  · rename_i hanchor
    refine hinv _ rfl rfl rfl ?_
    rw [shifted_stays hanchor]
    exact h.published

theorem step_other (writerId : Nat → Name) (c : ClockKey) {op : StreamOp} (hop : ∀ p fails, op ≠ .packet p fails)
    (hthere : (c.key.step writerId op).stream ≠ none) : c.step writerId op =
      if changesSource c.key op = true then { c with key := c.key.step writerId op, floor := reached c.key, fresh := true }
      else { c with key := c.key.step writerId op } := by
  unfold ClockKey.step
  dsimp only
  rw [if_neg hthere]
  cases op with
  | packet p fails => exact absurd rfl (hop p fails)
  | _ => rfl

theorem ClockInv.step {writerId : Nat → Name} {c : ClockKey} (h : ClockInv c) (op : StreamOp) (hok : OnTime c op) :
    ClockInv (c.step writerId op) := by
  by_cases hop : ∃ p fails, op = .packet p fails
  · obtain ⟨p, fails, rfl⟩ := hop
    exact h.fed p fails hok
  · have hop : ∀ p fails, op ≠ .packet p fails := fun p fails heq => hop ⟨p, fails, heq⟩
    by_cases hnone : (c.key.step writerId op).stream = none
    · have hgone : c.step writerId op = { key := c.key.step writerId op } := by
        unfold ClockKey.step
        dsimp only
        rw [if_pos hnone]
      rw [hgone]
      refine ⟨fun st hst => ?_, fun _ => ⟨rfl, rfl⟩, fun floor st hf => ?_, fun floor st hfr => ?_⟩
      · rw [hnone] at hst
        cases hst
      · cases hf
      · cases hfr
    · rw [step_other writerId c hop hnone]
      split
      · exact h.moved hop rfl hnone rfl rfl (.inr rfl)
      · exact h.moved hop rfl hnone rfl rfl (.inl ⟨rfl, rfl⟩)

end ClockKey

open ClockKey

/-- **The time line survives a change of publisher** exactly in the runs each of whose packets meets the condition. -/
theorem timeline_continues_iff (writerId : Nat → Name) (key : Name) (ops : List StreamOp) :
    StepsOk (ClockKey.step writerId) OnTime { key := { key := key } } ops ↔
      StepsOk (ClockKey.step writerId) ClockOk { key := { key := key } } ops := by
  refine stepsOk_congr _ ClockInv (fun c op h => onTime_iff c op h) (fun c op h hok => h.step op hok) ops _ ?_
  refine ⟨fun st hst => ?_, fun _ => ⟨rfl, rfl⟩, fun floor st hf => ?_, fun floor st hfr => ?_⟩
  · cases hst
  · cases hf
  · cases hfr

/-- **A take-over falls behind the displaced publisher**: its time is half a second before. -/
theorem takeOver_falls : ¬StepsOk (ClockKey.step fun _ => []) OnTime { key := { key := ['k'] } }
      [.claim ['a'] 1, .packet ⟨.video, false, true, 5000, 5000, []⟩ fun _ _ => false, .claim ['b'] 2,
        .packet ⟨.video, false, true, 4500, 4500, []⟩ fun _ _ => false] := by
  rintro ⟨-, -, -, hlate, -⟩
  exact absurd (hlate 5000 (by decide)).1 (by decide)

end MoqLiveCast
