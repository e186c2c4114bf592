import Mathlib.Logic.Relation
import MoqLiveCast.Quic.FrameCodec
/-!
# FrameLoop — the frames of a decrypted packet (`QuicConnectionFeedRaw`)

Two loops go over a payload, one for long-header packets and one for short-header packets.  Each looks at the type at
its position, runs that frame's parser, and on success its handler; what a failure leads to is written at each case.
-/
namespace MoqLiveCast
namespace Codec

def QUIC_FRAME_PADDING : Byte := 0x00
def QUIC_FRAME_PING : Byte := 0x01
def QUIC_FRAME_NEW_TOKEN : Byte := 0x07
def QUIC_FRAME_HANDSHAKE_DONE : Byte := 0x1e

def quicFrameParseNewToken : List Byte → Option (List Byte × Nat) := parseFrame (typed QUIC_FRAME_NEW_TOKEN readCounted)

/-! ## The cases -/

/-- What a turn of the loop does with the bytes from its position on. -/
inductive FrameTurn where
  /-- the handler ran, and the loop goes on after the `n` bytes of the frame -/
  | handled (n : Nat)
  /-- the handler of CONNECTION_CLOSE ran, and the loop ends -/
  | closed (n : Nat)
  /-- no frame, and the loop goes on at the next byte -/
  | skipped
  /-- no frame, and the loop ends -/
  | aborted
deriving DecidableEq

structure FrameCase where
  types : List Byte
  /-- the bytes of the frame, if it parses -/
  length : List Byte → Option Nat
  parsed : Nat → FrameTurn := .handled
  failed : FrameTurn

def count {α : Type} (parse : List Byte → Option (α × Nat)) (data : List Byte) : Option Nat := (parse data).map Prod.snd

def oneByte (_ : List Byte) : Option Nat := some 1

def streamTypes : List Byte := [0, 1, 2, 3, 4, 5, 6, 7].map (QUIC_FRAME_STREAM + ·)

def shortCases : List FrameCase := [
  { types := [QUIC_FRAME_PADDING, QUIC_FRAME_PING, QUIC_FRAME_HANDSHAKE_DONE], length := oneByte, failed := .skipped },
  { types := [QUIC_FRAME_DATAGRAM, QUIC_FRAME_DATAGRAM_LEN], length := count quicFrameParseDatagram, failed := .skipped },
  { types := [QUIC_FRAME_CRYPTO], length := count quicFrameParseCrypto, failed := .aborted },
  { types := [QUIC_FRAME_CONNECTION_CLOSE, QUIC_FRAME_CONNECTION_CLOSE_APP],
    length := count quicFrameParseConnectionClose, parsed := .closed, failed := .aborted },
  { types := [QUIC_FRAME_ACK, QUIC_FRAME_ACK_ECN], length := count quicFrameParseAck, failed := .aborted },
  { types := streamTypes, length := count quicFrameParseStream, failed := .skipped },
  { types := [QUIC_FRAME_MAX_DATA], length := count quicFrameParseMaxData, failed := .skipped },
  { types := [QUIC_FRAME_MAX_STREAM_DATA], length := count quicFrameParseMaxStreamData, failed := .skipped },
  { types := [QUIC_FRAME_RESET_STREAM], length := count quicFrameParseResetStream, failed := .skipped },
  { types := [QUIC_FRAME_STOP_SENDING], length := count quicFrameParseStopSending, failed := .skipped },
  { types := [QUIC_FRAME_MAX_STREAMS_BIDI, QUIC_FRAME_MAX_STREAMS_UNI], length := count quicFrameParseMaxStreams,
    failed := .skipped },
  { types := [QUIC_FRAME_DATA_BLOCKED], length := count quicFrameParseDataBlocked, failed := .skipped },
  { types := [QUIC_FRAME_STREAM_DATA_BLOCKED], length := count quicFrameParseStreamDataBlocked, failed := .skipped },
  { types := [QUIC_FRAME_STREAMS_BLOCKED_BIDI, QUIC_FRAME_STREAMS_BLOCKED_UNI],
    length := count quicFrameParseStreamsBlocked, failed := .skipped },
  { types := [QUIC_FRAME_NEW_CONNECTION_ID], length := count quicFrameParseNewConnId, failed := .skipped },
  { types := [QUIC_FRAME_RETIRE_CONNECTION_ID], length := count quicFrameParseRetireConnId, failed := .skipped },
  { types := [QUIC_FRAME_NEW_TOKEN], length := count quicFrameParseNewToken, failed := .skipped }]

def longCases : List FrameCase := [
  { types := [QUIC_FRAME_PADDING, QUIC_FRAME_PING], length := oneByte, failed := .skipped },
  { types := [QUIC_FRAME_CRYPTO], length := count quicFrameParseCrypto, failed := .aborted },
  { types := [QUIC_FRAME_ACK, QUIC_FRAME_ACK_ECN], length := count quicFrameParseAck, failed := .aborted },
  { types := [QUIC_FRAME_DATA_BLOCKED], length := count quicFrameParseDataBlocked, failed := .aborted },
  { types := [QUIC_FRAME_STREAM_DATA_BLOCKED], length := count quicFrameParseStreamDataBlocked, failed := .aborted },
  { types := [QUIC_FRAME_STREAMS_BLOCKED_BIDI, QUIC_FRAME_STREAMS_BLOCKED_UNI],
    length := count quicFrameParseStreamsBlocked, failed := .aborted },
  { types := [QUIC_FRAME_RETIRE_CONNECTION_ID], length := count quicFrameParseRetireConnId, failed := .aborted },
  { types := [QUIC_FRAME_CONNECTION_CLOSE, QUIC_FRAME_CONNECTION_CLOSE_APP],
    length := count quicFrameParseConnectionClose, parsed := .closed, failed := .aborted }]

inductive HeaderForm where
  | long | short
deriving DecidableEq

def HeaderForm.cases : HeaderForm → List FrameCase
  | .long => longCases
  | .short => shortCases

def turn (form : HeaderForm) (data : List Byte) : FrameTurn :=
  match form.cases.find? fun c => c.types.contains (data.headD 0) with
  | none => .skipped
  | some c =>
    match c.length data with
    | some n => c.parsed n
    | none => c.failed

/-- **The frame loop** from `pos` on: the positions at which a handler runs. -/
def frameLoop (form : HeaderForm) (payload : List Byte) (pos : Nat) : List Nat :=
  if pos < payload.length then
    match turn form (payload.drop pos) with
    | .handled n => pos :: frameLoop form payload (pos + if 0 < n then n else 1)
    | .closed _ => [pos]
    | .skipped => frameLoop form payload (pos + 1)
    | .aborted => []
  else []
termination_by payload.length - pos
decreasing_by
  · split <;> omega
  · omega

/-! ## A frame takes a byte at least -/

def Counts (length : List Byte → Option Nat) : Prop := ∀ ⦃data : List Byte⦄ ⦃n : Nat⦄, length data = some n → 0 < n

theorem shrinks_readVarint : Shrinks readVarint := takes_readVarint.shrinks

theorem shrinks_readCounted : Shrinks readCounted := shrinks_readVarint.andThen shrinks_take

theorem counts_parseFrame {α : Type} {fields : Byte → Option (Reader Byte α)}
    (hfields : ∀ type rd, fields type = some rd → Shrinks rd) : Counts (count (parseFrame fields)) := by
  intro data n h
  obtain ⟨⟨a, m⟩, hparse, rfl⟩ := Option.map_eq_some_iff.1 h
  cases data with
  | nil => cases hparse
  | cons type tail =>
    obtain ⟨rd, hrd, hparse⟩ := Option.bind_eq_some_iff.1 hparse
    obtain ⟨⟨a', rest⟩, hread, heq⟩ := Option.map_eq_some_iff.1 hparse
    cases heq
    have := hfields type rd hrd hread
    rw [List.length_cons]
    omega

theorem counts_typed {α : Type} {type : Byte} {rd : Reader Byte α} (h : Shrinks rd) :
    Counts (count (parseFrame (typed type rd))) := by
  refine counts_parseFrame fun t rd' ht => ?_
  unfold typed at ht
  split at ht
  · cases ht
  · cases ht
    exact h

theorem counts_typedBidi {α : Type} {bidi uni : Byte} {rd : Reader Byte α} (h : Shrinks rd) :
    Counts (count (parseFrame (typedBidi bidi uni rd))) := by
  refine counts_parseFrame fun t rd' ht => ?_
  unfold typedBidi at ht
  split at ht
  · cases ht
    exact h.map _
  · split at ht
    · cases ht
      exact h.map _
    · cases ht

theorem counts_quicFrameParseDatagram : Counts (count quicFrameParseDatagram) := by
  refine counts_parseFrame fun t rd ht => ?_
  split at ht
  · cases ht
    exact shrinks_all
  · split at ht
    · cases ht
      exact shrinks_readCounted
    · cases ht

theorem counts_quicFrameParseConnectionClose : Counts (count quicFrameParseConnectionClose) := by
  refine counts_parseFrame fun t rd ht => ?_
  split at ht
  · cases ht
    exact shrinks_readVarint.pair shrinks_readCounted
  · split at ht
    · cases ht
    · cases ht
      exact shrinks_readVarint.pair (shrinks_readVarint.andThen fun _ => shrinks_readCounted)

theorem counts_quicFrameParseStream : Counts (count quicFrameParseStream) := by
  refine counts_parseFrame fun t rd ht => ?_
  split at ht
  · cases ht
  · cases ht
    refine shrinks_readVarint.pair (Shrinks.pair ?_ (Shrinks.map _ ?_))
    · split
      · exact shrinks_readVarint
      · exact shrinks_done 0
    · split
      · exact shrinks_readCounted
      · exact shrinks_all

theorem counts_quicFrameParseCrypto : Counts (count quicFrameParseCrypto) := by
  intro data n h
  obtain ⟨⟨f, m⟩, hparse, rfl⟩ := Option.map_eq_some_iff.1 h
  unfold quicFrameParseCrypto at hparse
  split at hparse
  · cases hparse
  · split at hparse
    · cases hparse
    · obtain ⟨⟨off, rest1⟩, hoff, hparse⟩ := Option.bind_eq_some_iff.1 hparse
      obtain ⟨⟨clen, rest2⟩, hclen, hparse⟩ := Option.bind_eq_some_iff.1 hparse
      have h1 := shrinks_readVarint hoff
      have h2 := shrinks_readVarint hclen
      dsimp only at hparse
      split at hparse
      · cases hparse
      · cases hparse
        rw [List.length_cons]
        omega

theorem counts_quicFrameParseNewConnId : Counts (count quicFrameParseNewConnId) := by
  intro data n h
  obtain ⟨⟨f, m⟩, hparse, rfl⟩ := Option.map_eq_some_iff.1 h
  unfold quicFrameParseNewConnId at hparse
  split at hparse
  · cases hparse
  · split at hparse
    · cases hparse
    · obtain ⟨⟨seq, rest1⟩, -, hparse⟩ := Option.bind_eq_some_iff.1 hparse
      obtain ⟨⟨retire, rest2⟩, -, hparse⟩ := Option.bind_eq_some_iff.1 hparse
      dsimp only at hparse
      split at hparse
      · cases hparse
      · split at hparse
        · cases hparse
        · cases hparse
          omega

theorem shrinks_parseAckRanges : ∀ n : Nat, Shrinks (parseAckRanges n)
  | 0, data, rs, rest, h => by
    cases h
    exact Nat.le_refl _
  | n + 1, data, rs, rest, h => by
    unfold parseAckRanges at h
    obtain ⟨⟨gap, data1⟩, hgap, h⟩ := Option.bind_eq_some_iff.1 h
    obtain ⟨⟨ar, data2⟩, har, h⟩ := Option.bind_eq_some_iff.1 h
    obtain ⟨⟨rs', data3⟩, hrs, h⟩ := Option.map_eq_some_iff.1 h
    cases h
    exact Nat.le_trans (shrinks_parseAckRanges n hrs) (Nat.le_trans (shrinks_readVarint har) (shrinks_readVarint hgap))

theorem skipVarints_length : ∀ (n : Nat) {data rest : List Byte}, skipVarints n data = some rest →
    rest.length ≤ data.length
  | 0, data, rest, h => by
    cases h
    exact Nat.le_refl _
  | n + 1, data, rest, h => by
    obtain ⟨⟨val, data1⟩, hval, h⟩ := Option.bind_eq_some_iff.1 h
    exact Nat.le_trans (skipVarints_length n h) (shrinks_readVarint hval)

theorem counts_quicFrameParseAck : Counts (count quicFrameParseAck) := by
  intro data n h
  obtain ⟨⟨ack, m⟩, hparse, rfl⟩ := Option.map_eq_some_iff.1 h
  unfold quicFrameParseAck at hparse
  split at hparse
  · cases hparse
  · split at hparse
    · cases hparse
    · obtain ⟨⟨largest, rest1⟩, h1, hparse⟩ := Option.bind_eq_some_iff.1 hparse
      obtain ⟨⟨delay, rest2⟩, h2, hparse⟩ := Option.bind_eq_some_iff.1 hparse
      obtain ⟨⟨rangeCount, rest3⟩, h3, hparse⟩ := Option.bind_eq_some_iff.1 hparse
      dsimp only at hparse
      split at hparse
      · cases hparse
      · obtain ⟨⟨first, rest4⟩, h4, hparse⟩ := Option.bind_eq_some_iff.1 hparse
        obtain ⟨⟨ranges, rest5⟩, h5, hparse⟩ := Option.bind_eq_some_iff.1 hparse
        obtain ⟨rest6, h6, heq⟩ := Option.map_eq_some_iff.1 hparse
        cases heq
        have := shrinks_readVarint h1
        have := shrinks_readVarint h2
        have := shrinks_readVarint h3
        have := shrinks_readVarint h4
        have := shrinks_parseAckRanges rangeCount h5
        have h6 : rest6.length ≤ rest5.length := by
          split at h6
          · exact skipVarints_length 3 h6
          · cases h6
            exact Nat.le_refl _
        dsimp only at *
        rw [List.length_cons]
        omega

structure FrameCase.Ok (c : FrameCase) : Prop where
  counts : Counts c.length
  parsed : ∀ n, c.parsed n = .handled n ∨ c.parsed n = .closed n
  failed : c.failed = .skipped ∨ c.failed = .aborted

theorem frameCase_ok {form : HeaderForm} : ∀ c ∈ form.cases, c.Ok := by
  have hone : Counts oneByte := fun _ _ h => Option.some.inj h ▸ Nat.one_pos
  have hvar := shrinks_readVarint
  cases form <;> simp only [HeaderForm.cases, longCases, shortCases, List.forall_mem_cons]
  · refine ⟨?_, ?_, ?_, ?_, ?_, ?_, ?_, ?_, by simp⟩
    · exact ⟨hone, fun n => .inl rfl, .inl rfl⟩
    · exact ⟨counts_quicFrameParseCrypto, fun n => .inl rfl, .inr rfl⟩
    · exact ⟨counts_quicFrameParseAck, fun n => .inl rfl, .inr rfl⟩
    · exact ⟨counts_typed hvar, fun n => .inl rfl, .inr rfl⟩
    · exact ⟨counts_typed (hvar.pair hvar), fun n => .inl rfl, .inr rfl⟩
    · exact ⟨counts_typedBidi hvar, fun n => .inl rfl, .inr rfl⟩
    · exact ⟨counts_typed hvar, fun n => .inl rfl, .inr rfl⟩
    · exact ⟨counts_quicFrameParseConnectionClose, fun n => .inr rfl, .inr rfl⟩
  · refine ⟨?_, ?_, ?_, ?_, ?_, ?_, ?_, ?_, ?_, ?_, ?_, ?_, ?_, ?_, ?_, ?_, ?_, by simp⟩
    · exact ⟨hone, fun n => .inl rfl, .inl rfl⟩
    · exact ⟨counts_quicFrameParseDatagram, fun n => .inl rfl, .inl rfl⟩
    · exact ⟨counts_quicFrameParseCrypto, fun n => .inl rfl, .inr rfl⟩
    · exact ⟨counts_quicFrameParseConnectionClose, fun n => .inr rfl, .inr rfl⟩
    · exact ⟨counts_quicFrameParseAck, fun n => .inl rfl, .inr rfl⟩
    · exact ⟨counts_quicFrameParseStream, fun n => .inl rfl, .inl rfl⟩
    · exact ⟨counts_typed hvar, fun n => .inl rfl, .inl rfl⟩
    · exact ⟨counts_typed (hvar.pair hvar), fun n => .inl rfl, .inl rfl⟩
    · exact ⟨counts_typed (hvar.pair (hvar.pair hvar)), fun n => .inl rfl, .inl rfl⟩
    · exact ⟨counts_typed (hvar.pair hvar), fun n => .inl rfl, .inl rfl⟩
    · exact ⟨counts_typedBidi hvar, fun n => .inl rfl, .inl rfl⟩
    · exact ⟨counts_typed hvar, fun n => .inl rfl, .inl rfl⟩
    · exact ⟨counts_typed (hvar.pair hvar), fun n => .inl rfl, .inl rfl⟩
    · exact ⟨counts_typedBidi hvar, fun n => .inl rfl, .inl rfl⟩
    · exact ⟨counts_quicFrameParseNewConnId, fun n => .inl rfl, .inl rfl⟩
    · exact ⟨counts_typed hvar, fun n => .inl rfl, .inl rfl⟩
    · exact ⟨counts_typed shrinks_readCounted, fun n => .inl rfl, .inl rfl⟩

/-! ## Frame boundaries -/

def frameLength (form : HeaderForm) (data : List Byte) : Option Nat :=
  (form.cases.find? fun c => c.types.contains (data.headD 0)).bind fun c => c.length data

/-- One frame takes the payload from `p` to `q`. -/
def FrameNext (form : HeaderForm) (payload : List Byte) (p q : Nat) : Prop :=
  p < payload.length ∧ ∃ n, frameLength form (payload.drop p) = some n ∧ q = p + n

/-- **A frame boundary**: frames that parse, one after the other, take the payload up to it. -/
def Boundary (form : HeaderForm) (payload : List Byte) (p : Nat) : Prop :=
  Relation.ReflTransGen (FrameNext form payload) 0 p

def OpenNext (form : HeaderForm) (payload : List Byte) (p q : Nat) : Prop :=
  p < payload.length ∧ ∃ n, turn form (payload.drop p) = .handled n ∧ q = p + n

/-- **Handlers run at frame boundaries only**, and at none after a frame that does not parse. -/
def HandlesBoundaries (form : HeaderForm) (payload : List Byte) : Prop :=
  ∀ q ∈ frameLoop form payload 0, Boundary form payload q ∧
    ∀ p, Boundary form payload p → p < payload.length → frameLength form (payload.drop p) = none → q < p

/-- The frame at a boundary, with no CONNECTION_CLOSE before it, does not parse and is skipped, and so is every byte up to
one at which a frame parses. -/
def ResumesInside (form : HeaderForm) (payload : List Byte) : Prop :=
  ∃ p q, Relation.ReflTransGen (OpenNext form payload) 0 p ∧ p < q ∧ q < payload.length ∧
    (∀ r, p ≤ r → r < q → turn form (payload.drop r) = .skipped) ∧ frameLength form (payload.drop q) ≠ none

section

variable {form : HeaderForm} {data : List Byte}

theorem turn_of_some {n : Nat} (h : frameLength form data = some n) :
    0 < n ∧ (turn form data = .handled n ∨ turn form data = .closed n) := by
  obtain ⟨c, hc, hn⟩ := Option.bind_eq_some_iff.1 h
  have hok := frameCase_ok c (List.mem_of_find?_eq_some hc)
  unfold turn
  rw [hc]
  dsimp only
  rw [hn]
  exact ⟨hok.counts hn, hok.parsed n⟩

theorem turn_of_none (h : frameLength form data = none) : turn form data = .skipped ∨ turn form data = .aborted := by
  unfold frameLength at h
  unfold turn
  cases hc : form.cases.find? (fun c => c.types.contains (data.headD 0)) with
  | none => exact .inl rfl
  | some c =>
    rw [hc, Option.bind_some] at h
    dsimp only
    rw [h]
    exact (frameCase_ok c (List.mem_of_find?_eq_some hc)).failed

theorem frameLength_of_turn {n : Nat} (h : turn form data = .handled n ∨ turn form data = .closed n) :
    frameLength form data = some n := by
  cases hlen : frameLength form data with
  | none => rcases turn_of_none hlen with h' | h' <;> rw [h'] at h <;> simp at h
  | some m => rcases (turn_of_some hlen).2 with h' | h' <;> rw [h'] at h <;> simp_all

theorem frameLength_of_no_frame (h : turn form data = .skipped ∨ turn form data = .aborted) : frameLength form data = none := by
  cases hlen : frameLength form data with
  | none => rfl
  | some m => rcases (turn_of_some hlen).2 with h' | h' <;> rw [h'] at h <;> simp at h

end

section

variable {form : HeaderForm} {payload : List Byte}

theorem frameNext_rightUnique : Relator.RightUnique (FrameNext form payload) := by
  rintro p q q' ⟨-, n, hn, rfl⟩ ⟨-, n', hn', rfl⟩
  rw [hn] at hn'
  cases hn'
  rfl

theorem OpenNext.frameNext {p q : Nat} (h : OpenNext form payload p q) : FrameNext form payload p q := by
  obtain ⟨hp, n, hn, rfl⟩ := h
  exact ⟨hp, n, frameLength_of_turn (.inl hn), rfl⟩

theorem boundary_of_open {p : Nat} (h : Relation.ReflTransGen (OpenNext form payload) 0 p) :
    Boundary form payload p := Relation.ReflTransGen.mono (fun _ _ hpq => OpenNext.frameNext hpq) _ _ h

theorem le_of_frames {p q : Nat} (h : Relation.ReflTransGen (FrameNext form payload) p q) : p ≤ q := by
  induction h with
  | refl => exact Nat.le_refl _
  | tail _ hstep ih =>
    obtain ⟨-, n, -, rfl⟩ := hstep
    exact Nat.le_trans ih (Nat.le_add_right _ _)

theorem boundary_lt {p q : Nat} (hp : Boundary form payload p) (hq : Boundary form payload q)
    (hfails : frameLength form (payload.drop p) = none) (hparses : frameLength form (payload.drop q) ≠ none) : q < p := by
  have hne : q ≠ p := by
    rintro rfl
    exact hparses hfails
  rcases Relation.ReflTransGen.total_of_right_unique frameNext_rightUnique hp hq with hpq | hqp
  · rcases hpq.cases_head with rfl | ⟨r, ⟨-, n, hn, -⟩, -⟩
    · exact absurd rfl hne
    · rw [hfails] at hn
      cases hn
  · exact Nat.lt_of_le_of_ne (le_of_frames hqp) hne

/-! ## What the loop handles -/

theorem frameLoop_end {pos : Nat} (h : ¬ pos < payload.length) : frameLoop form payload pos = [] := by
  rw [frameLoop, if_neg h]

theorem frameLoop_cases {pos : Nat} (hpos : pos < payload.length) : (∃ n, 0 < n ∧ turn form (payload.drop pos) = .handled n ∧
    frameLoop form payload pos = pos :: frameLoop form payload (pos + n)) ∨ (∃ n, turn form (payload.drop pos) = .closed n ∧
    frameLoop form payload pos = [pos]) ∨ (turn form (payload.drop pos) = .skipped ∧ frameLoop form payload pos =
    frameLoop form payload (pos + 1)) ∨ (turn form (payload.drop pos) = .aborted ∧ frameLoop form payload pos = []) := by
  rw [frameLoop, if_pos hpos]
  cases h : turn form (payload.drop pos) with
  | handled n =>
    have hn := (turn_of_some (frameLength_of_turn (.inl h))).1
    exact .inl ⟨n, hn, rfl, by dsimp only; rw [if_pos hn]⟩
  | closed n => exact .inr (.inl ⟨n, rfl, rfl⟩)
  | skipped => exact .inr (.inr (.inl ⟨rfl, rfl⟩))
  | aborted => exact .inr (.inr (.inr ⟨rfl, rfl⟩))

theorem frameLength_of_mem (pos : Nat) : ∀ q ∈ frameLoop form payload pos, frameLength form (payload.drop q) ≠ none := by
  by_cases hpos : pos < payload.length
  · obtain ⟨n, hn, hturn, heq⟩ | ⟨n, hturn, heq⟩ | ⟨-, heq⟩ | ⟨-, heq⟩ := frameLoop_cases hpos <;> intro q hq <;>
      rw [heq] at hq
    · rcases List.mem_cons.1 hq with rfl | hq
      · rw [frameLength_of_turn (.inl hturn)]
        exact Option.some_ne_none n
      · exact frameLength_of_mem (pos + n) q hq
    · rw [List.mem_singleton.1 hq, frameLength_of_turn (.inr hturn)]
      exact Option.some_ne_none n
    · exact frameLength_of_mem (pos + 1) q hq
    · cases hq
  · rw [frameLoop_end hpos]
    exact fun _ hq => absurd hq List.not_mem_nil
termination_by payload.length - pos

theorem frameLoop_skips {p q : Nat} (hq : q < payload.length) (hskip : ∀ r, p ≤ r → r < q → turn form (payload.drop r) = .skipped)
    (hle : p ≤ q) : frameLoop form payload p = frameLoop form payload q := by
  obtain ⟨k, rfl⟩ := Nat.exists_eq_add_of_le hle
  induction k with
  | zero => rfl
  | succ k ih =>
    rw [ih (by omega) (fun r h1 h2 => hskip r h1 (by omega)) (by omega), frameLoop, if_pos (by omega),
      hskip (p + k) (by omega) (by omega), Nat.add_assoc]

theorem frameLoop_of_open {p : Nat} (h : Relation.ReflTransGen (OpenNext form payload) 0 p) :
    ∀ q ∈ frameLoop form payload p, q ∈ frameLoop form payload 0 := by
  induction h with
  | refl => exact fun _ hq => hq
  | @tail r p _ hstep ih =>
    obtain ⟨hr, n, hturn, rfl⟩ := hstep
    have hn := (turn_of_some (frameLength_of_turn (.inl hturn))).1
    intro q hq
    refine ih q ?_
    rw [frameLoop, if_pos hr, hturn]
    dsimp only
    rw [if_pos hn]
    exact List.mem_cons_of_mem _ hq

theorem mem_frameLoop_self {q : Nat} (hq : q < payload.length) (h : frameLength form (payload.drop q) ≠ none) :
    q ∈ frameLoop form payload q := by
  obtain ⟨n, hn⟩ := Option.ne_none_iff_exists'.1 h
  obtain ⟨hpos, hturn | hturn⟩ := turn_of_some hn
  all_goals
    rw [frameLoop, if_pos hq, hturn]
    exact List.mem_cons_self

theorem frameLoop_after_failure (hno : ¬ ResumesInside form payload) {p : Nat}
    (hp : Relation.ReflTransGen (OpenNext form payload) 0 p) (pos : Nat) (hlt : p < pos)
    (hskip : ∀ r, p ≤ r → r < pos → turn form (payload.drop r) = .skipped) : frameLoop form payload pos = [] := by
  by_cases hpos : pos < payload.length
  · have hfails : frameLength form (payload.drop pos) = none := by
      by_contra hparses
      exact hno ⟨p, pos, hp, hlt, hpos, hskip, hparses⟩
    obtain ⟨n, -, hturn, -⟩ | ⟨n, hturn, -⟩ | ⟨hturn, heq⟩ | ⟨-, heq⟩ := @frameLoop_cases form payload _ hpos
    · rw [frameLength_of_turn (.inl hturn)] at hfails
      cases hfails
    · rw [frameLength_of_turn (.inr hturn)] at hfails
      cases hfails
    · rw [heq]
      refine frameLoop_after_failure hno hp (pos + 1) (by omega) fun r h1 h2 => ?_
      rcases Nat.lt_succ_iff_lt_or_eq.1 h2 with h2 | rfl
      · exact hskip r h1 h2
      · exact hturn
    · exact heq
  · exact frameLoop_end hpos
termination_by payload.length - pos

theorem boundary_of_mem (hno : ¬ ResumesInside form payload) (p : Nat)
    (hp : Relation.ReflTransGen (OpenNext form payload) 0 p) : ∀ q ∈ frameLoop form payload p, Boundary form payload q := by
  by_cases hpos : p < payload.length
  · obtain ⟨n, hn, hturn, heq⟩ | ⟨n, -, heq⟩ | ⟨hturn, heq⟩ | ⟨-, heq⟩ := @frameLoop_cases form payload _ hpos <;>
      intro q hq <;> rw [heq] at hq
    · rcases List.mem_cons.1 hq with rfl | hq
      · exact boundary_of_open hp
      · exact boundary_of_mem hno (p + n) (hp.tail ⟨hpos, n, hturn, rfl⟩) q hq
    · rw [List.mem_singleton.1 hq]
      exact boundary_of_open hp
    · have hnil := frameLoop_after_failure hno hp (p + 1) (Nat.lt_succ_self p) fun r h1 h2 => by
        rw [show r = p by omega]
        exact hturn
      rw [hnil] at hq
      cases hq
    · cases hq
  · rw [frameLoop_end hpos]
    exact fun _ hq => absurd hq List.not_mem_nil
termination_by payload.length - p

end

/-- **The loops run handlers at frame boundaries only, exactly for the payloads on which they do not resume inside a frame
that fails to parse.** -/
theorem handlesBoundaries_iff (form : HeaderForm) (payload : List Byte) :
    HandlesBoundaries form payload ↔ ¬ ResumesInside form payload := by
  constructor
  · rintro h ⟨p, q, hp, hlt, hq, hskip, hparses⟩
    have hmem : q ∈ frameLoop form payload p := by
      rw [frameLoop_skips hq hskip (Nat.le_of_lt hlt)]
      exact mem_frameLoop_self hq hparses
    have hfails := frameLength_of_no_frame (.inl (hskip p (Nat.le_refl p) hlt))
    have := (h q (frameLoop_of_open hp q hmem)).2 p (boundary_of_open hp) (by omega) hfails
    omega
  · intro hno q hq
    have hbound := boundary_of_mem hno 0 .refl q hq
    exact ⟨hbound, fun p hp _ hfails => boundary_lt hp hbound hfails (frameLength_of_mem 0 q hq)⟩

/-! ## A frame in the body of another -/

def resetCut : List Byte := [0x04, 0x01]

theorem resetCut_resumes_inside : ¬ HandlesBoundaries .short resetCut := by
  intro h
  have hmem : 1 ∈ frameLoop .short resetCut 0 := by
    rw [frameLoop, if_pos (by decide), show turn .short (resetCut.drop 0) = .skipped by decide]
    exact mem_frameLoop_self (by decide) (by decide)
  exact Nat.not_lt_zero 1 ((h 1 hmem).2 0 .refl (by decide) (by decide))

end Codec
end MoqLiveCast
