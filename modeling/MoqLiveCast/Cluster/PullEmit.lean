import Mathlib.Algebra.Ring.Int.Defs
import Mathlib.Data.Char
import Mathlib.Data.List.Lex
import MoqLiveCast.Lib.OrdMap
import MoqLiveCast.Lib.Run
import MoqLiveCast.Media.StreamManager
/-!
# PullEmit — the time line of a stream that is pulled from the center (`cluster/cluster_pull.cpp`)

`EmitFrame` turns a frame's absolute time into a `dts` on a base that the tracks of a session share, and lets no track's
`dts` stay or go back: a track's guard is the `dts` of its last packet.  A frame that is not above it is dropped; one more
than a second below sets the base anew and clears the guards, all of them: after that the other tracks may go back
(`audio_goes_back`).  As long as the track that jumps is the only one with a guard, each goes up (`dts_increasing`).
-/
namespace MoqLiveCast

inductive TrackKind where
  | video | audio
deriving DecidableEq

structure MoqCatalogRendition where
  kind : TrackKind
  sampleRate : Nat := 0
  channels : Nat := 0
deriving DecidableEq

structure PullFrame where
  tsUs : Nat
  key : Bool
  data : List Byte
deriving DecidableEq

/-- What `WriterMediaPacket` is given; a video packet keeps the sample rate and the channels a packet is made with. -/
structure PulledPacket where
  track : Name
  packet : MediaPacket
  sampleRate : Nat
  channel : Byte
deriving DecidableEq

/-- `base_ms_`, below 0 for none, the guards `last_dts_ms_`, and the packets written. -/
structure PullTimeline where
  renditions : List (Name × MoqCatalogRendition) := []
  baseMs : Int := -1
  lastDtsMs : List (Name × Int) := []
  written : List PulledPacket := []
deriving DecidableEq

namespace PullTimeline

def frameMs (frame : PullFrame) : Int := (frame.tsUs / 1000 : Nat)

def base (l : PullTimeline) (frame : PullFrame) : Int := if l.baseMs < 0 then frameMs frame else l.baseMs

def onBase (l : PullTimeline) (frame : PullFrame) : Int := notBelow0 (frameMs frame - l.base frame)

def pulledPacket (name : Name) (r : MoqCatalogRendition) (frame : PullFrame) (dts : Int) : PulledPacket :=
  match r.kind with
  | .video => ⟨name, makeFlvVideoPacket dts false frame.key frame.data, 44100, 2⟩
  | .audio => ⟨name, makeFlvAudioPacket dts false frame.data, r.sampleRate, BitVec.ofNat 8 r.channels⟩

/-- The end of `EmitFrame`: the guard is set, the packet written. -/
def write (l : PullTimeline) (name : Name) (r : MoqCatalogRendition) (frame : PullFrame) (dts : Int) : PullTimeline :=
  { l with
    lastDtsMs := OrdMap.put l.lastDtsMs name dts
    written := l.written ++ [pulledPacket name r frame dts] }

def emitFrame (l : PullTimeline) (name : Name) (frame : PullFrame) : PullTimeline :=
  match OrdMap.find l.renditions name with
  | none => l
  | some r =>
    let based := { l with baseMs := l.base frame }
    let dts := l.onBase frame
    match OrdMap.find l.lastDtsMs name with
    | none => based.write name r frame dts
    | some prev =>
      if dts ≤ prev then
        if 1000 < prev - dts then
          -- the clock jumped: `last_dts_ms_.clear()`
          { l with baseMs := frameMs frame - (prev + 40), lastDtsMs := [] }.write name r frame (prev + 40)
        else based
      else based.write name r frame dts

/-- `ClearSessionHandles`: a session starts with no base, no guards and nothing written. -/
def clearSession (l : PullTimeline) : PullTimeline := { l with baseMs := -1, lastDtsMs := [], written := [] }

/-- What happens to the time line in a session: a frame is emitted, or the catalog is replaced. -/
inductive Call where
  | frame (name : Name) (frame : PullFrame)
  | catalog (renditions : List (Name × MoqCatalogRendition))

def step (l : PullTimeline) : Call → PullTimeline
  | .frame name frame => l.emitFrame name frame
  | .catalog renditions => { l with renditions := renditions }

/-! ## What a session keeps -/

/-- **Of two packets of a track the later has the greater `dts`**, and none is negative. -/
structure Increasing (l : PullTimeline) : Prop where
  rise : l.written.Pairwise fun p q => p.track = q.track → p.packet.dts < q.packet.dts
  nonneg : ∀ p ∈ l.written, 0 ≤ p.packet.dts

def JumpsBack (l : PullTimeline) (name : Name) (frame : PullFrame) : Prop :=
  (OrdMap.find l.renditions name).isSome ∧ ∃ prev ∈ OrdMap.find l.lastDtsMs name, 1000 < prev - l.onBase frame

/-- **No track jumps back while another has a guard.** -/
def KeepsGuards (l : PullTimeline) : Call → Prop
  | .frame name frame => l.JumpsBack name frame → ∀ g ∈ l.lastDtsMs, g.1 = name
  | .catalog _ => True

structure Guarded (l : PullTimeline) : Prop extends l.Increasing where
  below_guard : ∀ p ∈ l.written, ∃ g, OrdMap.find l.lastDtsMs p.track = some g ∧ p.packet.dts ≤ g
  of_guard : ∀ name g, OrdMap.find l.lastDtsMs name = some g → ∃ p ∈ l.written, p.track = name ∧ p.packet.dts = g

variable {l : PullTimeline} {name : Name} {frame : PullFrame}

@[simp] theorem pulledPacket_track (r : MoqCatalogRendition) (dts : Int) :
    (pulledPacket name r frame dts).track = name := by
  unfold pulledPacket
  cases r.kind <;> rfl

@[simp] theorem pulledPacket_dts (r : MoqCatalogRendition) (dts : Int) :
    (pulledPacket name r frame dts).packet.dts = dts := by
  unfold pulledPacket
  cases r.kind <;> rfl

theorem onBase_nonneg : 0 ≤ l.onBase frame := by
  unfold onBase notBelow0
  split <;> omega

theorem emitFrame_cases (l : PullTimeline) (name : Name) (frame : PullFrame) : ((l.emitFrame name frame).written = l.written ∧
    (l.emitFrame name frame).lastDtsMs = l.lastDtsMs) ∨ ∃ r dts, (l.emitFrame name frame).written = l.written ++
    [pulledPacket name r frame dts] ∧ (∀ prev, OrdMap.find l.lastDtsMs name = some prev → prev < dts) ∧ ((dts = l.onBase frame ∧
    (l.emitFrame name frame).lastDtsMs = OrdMap.put l.lastDtsMs name dts) ∨ (l.JumpsBack name frame ∧ OrdMap.find l.lastDtsMs name
    = some (dts - 40) ∧ (l.emitFrame name frame).lastDtsMs = OrdMap.put [] name dts)) := by
  unfold emitFrame
  cases hr : OrdMap.find l.renditions name with
  | none => exact .inl ⟨rfl, rfl⟩
  | some r =>
    cases hg : OrdMap.find l.lastDtsMs name with
    | none => exact .inr ⟨r, l.onBase frame, rfl, nofun, .inl ⟨rfl, rfl⟩⟩
    | some prev =>
      by_cases hle : l.onBase frame ≤ prev
      · by_cases hjump : 1000 < prev - l.onBase frame
        · refine .inr ⟨r, prev + 40, ?_, ?_, .inr ⟨⟨by simp [hr], prev, hg, hjump⟩, by simp, ?_⟩⟩
          · simp [hle, hjump, write]
          · simp only [Option.some.injEq, forall_eq']
            omega
          · simp [hle, hjump, write]
        · exact .inl (by simp [hle, hjump])
      · refine .inr ⟨r, l.onBase frame, ?_, ?_, .inl ⟨rfl, ?_⟩⟩
        · simp [hle, write]
        · simp only [Option.some.injEq, forall_eq']
          omega
        · simp [hle, write]

theorem Guarded.guard_nonneg (hg : Guarded l) {g : Int} (hf : OrdMap.find l.lastDtsMs name = some g) : 0 ≤ g := by
  obtain ⟨p, hp, -, rfl⟩ := hg.of_guard name g hf
  exact hg.nonneg p hp

theorem Guarded.emitFrame_cases (hg : Guarded l) (hok : l.KeepsGuards (.frame name frame)) :
    ((l.emitFrame name frame).written = l.written ∧ (l.emitFrame name frame).lastDtsMs = l.lastDtsMs) ∨
    ∃ r dts, (l.emitFrame name frame).written = l.written ++ [pulledPacket name r frame dts] ∧ 0 ≤ dts ∧
      (∀ prev, OrdMap.find l.lastDtsMs name = some prev → prev < dts) ∧
      ∀ k, OrdMap.find (l.emitFrame name frame).lastDtsMs k = if k = name then some dts else OrdMap.find l.lastDtsMs k := by
  rcases l.emitFrame_cases name frame with hsame | ⟨r, dts, hw, habove, ⟨hdts, hl⟩ | ⟨hjump, hprev, hl⟩⟩
  · exact .inl hsame
  · exact .inr ⟨r, dts, hw, hdts ▸ onBase_nonneg, habove, fun k => by rw [hl, OrdMap.find_put]⟩
  · refine .inr ⟨r, dts, hw, ?_, habove, fun k => ?_⟩
    · have h0 := hg.guard_nonneg hprev
      omega
    · rw [hl, OrdMap.find_put]
      by_cases hk : k = name
      · simp [hk]
      · cases hf : OrdMap.find l.lastDtsMs k with
        | none => simp [hk]
        | some g => exact absurd (hok hjump _ (OrdMap.mem_of_find hf)) hk

theorem Guarded.emitFrame (hg : Guarded l) (hok : l.KeepsGuards (.frame name frame)) : Guarded (l.emitFrame name frame) := by
  rcases hg.emitFrame_cases hok with ⟨hw, hl⟩ | ⟨r, dts, hw, h0, habove, hl⟩
  · exact ⟨⟨hw ▸ hg.rise, hw ▸ hg.nonneg⟩, by simpa [hw, hl] using hg.below_guard, by simpa [hw, hl] using hg.of_guard⟩
  · have hbelow : ∀ q ∈ l.written, q.track = name → q.packet.dts < dts := by
      intro q hq hname
      obtain ⟨g, hfind, hle⟩ := hg.below_guard q hq
      have hlt := habove g (hname ▸ hfind)
      omega
    refine ⟨⟨?_, ?_⟩, ?_, ?_⟩
    · rw [hw, List.pairwise_append]
      refine ⟨hg.rise, List.pairwise_singleton _ _, fun q hq p hp => ?_⟩
      simp only [List.mem_singleton] at hp
      subst hp
      simpa using hbelow q hq
    · intro p hp
      rcases List.mem_append.1 (hw ▸ hp) with hp | hp
      · exact hg.nonneg p hp
      · rw [List.mem_singleton.1 hp, pulledPacket_dts]
        exact h0
    · intro p hp
      rw [hl]
      rcases List.mem_append.1 (hw ▸ hp) with hp | hp
      · by_cases hname : p.track = name
        · exact ⟨dts, if_pos hname, Int.le_of_lt (hbelow p hp hname)⟩
        · rw [if_neg hname]
          exact hg.below_guard p hp
      · rw [List.mem_singleton.1 hp]
        exact ⟨dts, by simp, by simp⟩
    · intro k g hk
      rw [hl] at hk
      rw [hw]
      by_cases hname : k = name
      · rw [if_pos hname] at hk
        exact ⟨_, List.mem_append_right _ (List.mem_singleton_self _), by simp [hname], by simpa using hk⟩
      · rw [if_neg hname] at hk
        obtain ⟨p, hp, hrest⟩ := hg.of_guard k g hk
        exact ⟨p, List.mem_append_left _ hp, hrest⟩

theorem Guarded.step (hg : Guarded l) {c : Call} (hok : l.KeepsGuards c) : Guarded (l.step c) := by
  cases c with
  | frame name frame => exact hg.emitFrame hok
  | catalog renditions => exact ⟨⟨hg.rise, hg.nonneg⟩, hg.below_guard, hg.of_guard⟩

theorem guarded_clearSession (l : PullTimeline) : Guarded l.clearSession :=
  ⟨⟨.nil, nofun⟩, nofun, nofun⟩

instance (l : PullTimeline) (c : Call) : Decidable (l.KeepsGuards c) := by
  unfold KeepsGuards JumpsBack
  cases c <;> infer_instance

/-- **In a session in which no track jumps back while another has a guard, the `dts` of each track's packets goes up and
is never negative**, in every state it reaches. -/
theorem dts_increasing (l : PullTimeline) (calls : List Call) (hok : StepsOk step KeepsGuards l.clearSession calls) :
    ∀ pre post, calls = pre ++ post → Increasing (pre.foldl step l.clearSession) := by
  rintro pre post rfl
  have hpre := ((stepsOk_append step KeepsGuards pre post _).1 hok).1
  exact (foldl_inv step KeepsGuards Guarded (fun _ _ hg hk => hg.step hk) pre _ (guarded_clearSession l) hpre).toIncreasing

/-- The calls of a session with a video and an audio track: the times of its frames, in milliseconds. -/
def session (times : List (Name × Nat)) : List Call :=
  .catalog [("a".toList, ⟨.audio, 48000, 2⟩), ("v".toList, ⟨.video, 0, 0⟩)] ::
    times.map fun e => .frame e.1 ⟨e.2 * 1000, false, [0xab]⟩

def jumpsAlone : List Call :=
  session [("v".toList, 10000), ("v".toList, 15000), ("v".toList, 10000), ("a".toList, 10040), ("v".toList, 10040)]

theorem dts_increasing_sample :
    StepsOk step KeepsGuards (clearSession {}) jumpsAlone ∧ Increasing (jumpsAlone.foldl step (clearSession {})) :=
  ⟨by decide +kernel, dts_increasing {} jumpsAlone (by decide +kernel) jumpsAlone [] (by simp)⟩

/-- The audio is 100 ms ahead when the publisher's clock is set back by 5 s. -/
def clockSetBack : List Call :=
  session [("v".toList, 10000), ("a".toList, 10000), ("v".toList, 15000), ("a".toList, 15100), ("v".toList, 10000),
    ("a".toList, 10010)]

/-- **The audio goes back**, from 5100 to 5050. -/
theorem audio_goes_back : ((clockSetBack.foldl step (clearSession {})).written.map fun p => (p.track, p.packet.dts)) =
      [("v".toList, 0), ("a".toList, 0), ("v".toList, 5000), ("a".toList, 5100), ("v".toList, 5040), ("a".toList, 5050)] ∧
    ¬ Increasing (clockSetBack.foldl step (clearSession {})) :=
  ⟨by decide +kernel, fun h => absurd h.rise (by decide +kernel)⟩

/-! ## Bounds -/

def maxMs : Int := 18446744073709551

theorem onBase_le (h : frame.tsUs < 2 ^ 64) : l.onBase frame ≤ maxMs := by
  have h0 : 0 ≤ frameMs frame ∧ frameMs frame ≤ maxMs := by
    unfold frameMs maxMs
    omega
  unfold onBase base notBelow0
  split_ifs <;> omega

structure Bounded (n : Nat) (l : PullTimeline) : Prop where
  written : ∀ p ∈ l.written, p.packet.dts ≤ maxMs + 40 * n
  guard : ∀ name g, OrdMap.find l.lastDtsMs name = some g → g ≤ maxMs + 40 * n

theorem Bounded.mono {n m : Nat} (h : Bounded n l) (hle : n ≤ m) : Bounded m l :=
  ⟨fun p hp => by have hp := h.written p hp; omega, fun name g hg => by have hg := h.guard name g hg; omega⟩

theorem Bounded.emitFrame {n : Nat} (h : Bounded n l) (hts : frame.tsUs < 2 ^ 64) :
    Bounded (n + 1) (l.emitFrame name frame) := by
  rcases l.emitFrame_cases name frame with ⟨hw, hl⟩ | ⟨r, dts, hw, -, hl⟩
  · have hsame : Bounded n (l.emitFrame name frame) := ⟨hw ▸ h.written, hl ▸ h.guard⟩
    exact hsame.mono (Nat.le_succ n)
  · have hdts : dts ≤ maxMs + 40 * (n + 1 : Nat) := by
      rcases hl with ⟨rfl, -⟩ | ⟨-, hprev, -⟩
      · have hle := onBase_le (l := l) hts
        omega
      · have hle := h.guard name _ hprev
        omega
    have hold := h.mono (Nat.le_succ n)
    refine ⟨fun p hp => ?_, fun k g hk => ?_⟩
    · rcases List.mem_append.1 (hw ▸ hp) with hp | hp
      · exact hold.written p hp
      · rw [List.mem_singleton.1 hp, pulledPacket_dts]
        exact hdts
    · rcases hl with ⟨-, hl⟩ | ⟨-, -, hl⟩ <;> rw [hl, OrdMap.find_put] at hk <;> split at hk
      · exact Option.some.inj hk ▸ hdts
      · exact hold.guard k g hk
      · exact Option.some.inj hk ▸ hdts
      · exact absurd hk (by simp)

theorem Bounded.run : ∀ (calls : List Call) {n : Nat} {l : PullTimeline}, Bounded n l →
    (∀ name frame, Call.frame name frame ∈ calls → frame.tsUs < 2 ^ 64) → Bounded (n + calls.length) (calls.foldl step l)
  | [], _, _, h, _ => h
  | c :: calls, n, l, h, hts => by
    have hstep : Bounded (n + 1) (l.step c) := by
      cases c with
      | frame name frame => exact h.emitFrame (hts name frame List.mem_cons_self)
      | catalog renditions => exact Bounded.mono (l := l.step (.catalog renditions)) ⟨h.written, h.guard⟩ (Nat.le_succ n)
    have hrun := Bounded.run calls hstep fun name frame hmem => hts name frame (List.mem_cons_of_mem _ hmem)
    rwa [List.length_cons, Nat.add_comm calls.length 1, ← Nat.add_assoc]

/-- **An `int64_t` holds the `dts` of `2 ^ 57` frames.** -/
theorem dts_fits (l : PullTimeline) (calls : List Call) (hlen : calls.length ≤ 2 ^ 57)
    (hts : ∀ name frame, Call.frame name frame ∈ calls → frame.tsUs < 2 ^ 64) :
    ∀ p ∈ (calls.foldl step l.clearSession).written, p.packet.dts < 2 ^ 63 := by
  intro p hp
  have hle := (Bounded.run calls (n := 0) (l := l.clearSession) ⟨nofun, nofun⟩ hts).written p hp
  unfold maxMs at hle
  omega

theorem dts_fits_clockSetBack : clockSetBack.length ≤ 2 ^ 57 ∧ ∀ p ∈ (clockSetBack.foldl step (clearSession {})).written,
    p.packet.dts < 2 ^ 63 :=
  ⟨by decide, dts_fits {} clockSetBack (by decide) fun name frame h => by
    simp only [clockSetBack, session, List.map, List.mem_cons, Call.frame.injEq, reduceCtorEq, false_or] at h
    rcases h with ⟨-, rfl⟩ | ⟨-, rfl⟩ | ⟨-, rfl⟩ | ⟨-, rfl⟩ | ⟨-, rfl⟩ | ⟨-, rfl⟩ | h <;> first | decide | cases h⟩

end PullTimeline
end MoqLiveCast
