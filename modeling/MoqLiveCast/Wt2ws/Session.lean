import Mathlib.Order.RelClasses
import MoqLiveCast.Quic.Varint
/-!
# Session — frames, one WebTransport stream and one WebSocket backend (`wt2ws_frame.cpp`, `wt2ws_session.cpp`)

What comes from the stream is cut into frames for the backend, or queued until it is connected.  What comes from the backend is
queued, and written in order as long as the stream takes it.  Times and timers are left out.
-/
namespace MoqLiveCast

/-! ## Messages on a byte stream (`wt2ws_frame.cpp`) -/

namespace Wt2ws

def kFrameText : Byte := 1

def kFrameBinary : Byte := 2

def kFrameHeaderLen : Nat := 5

structure Frame where
  type : Byte
  payload : List Byte
deriving DecidableEq

def Frame.encode (f : Frame) : List Byte := beBytes 4 f.payload.length ++ f.type :: f.payload

def encodeAll (fs : List Frame) : List Byte := fs.flatMap Frame.encode

inductive ParseResult where
  | kOk (f : Frame)
  | kNeedMore
  | kError
deriving DecidableEq

structure FrameCodec where
  maxPayload : Nat
  buf : List Byte := []
  off : Nat := 0
  off_le : off ≤ buf.length := by simp
deriving DecidableEq

namespace FrameCodec

def buffered (c : FrameCodec) : Nat := c.buf.length - c.off

def pending (c : FrameCodec) : List Byte := c.buf.drop c.off

def feed (c : FrameCodec) (data : List Byte) : FrameCodec × Bool :=
  let c' : FrameCodec := { c with
    buf := c.buf ++ data,
    off_le := Nat.le_trans c.off_le (by rw [List.length_append]; exact Nat.le_add_right _ _) }
  (c', c'.buffered ≤ c'.maxPayload + kFrameHeaderLen)

def compact (c : FrameCodec) : FrameCodec :=
  if c.off = 0 then c
  else if c.off = c.buf.length then { maxPayload := c.maxPayload }
  else if 64 * 1024 ≤ c.off ∨ c.buf.length ≤ c.off * 2 then { maxPayload := c.maxPayload, buf := c.buf.drop c.off }
  else c

def advance (c : FrameCodec) (n : Nat) (h : n ≤ c.buffered) : FrameCodec :=
  { c with
    off := c.off + n,
    off_le := by
      have := c.off_le
      unfold buffered at h
      omega }

def next (c : FrameCodec) : FrameCodec × ParseResult :=
  match c.pending with
  | b0 :: b1 :: b2 :: b3 :: type :: rest =>
    let len := [b0, b1, b2, b3].foldl (fun v b => v * 256 + b.toNat) 0
    if c.maxPayload < len then (c, .kError)
    else if h : kFrameHeaderLen + len ≤ c.buffered then
      ((c.advance (kFrameHeaderLen + len) h).compact, .kOk ⟨type, rest.take len⟩)
    else (c, .kNeedMore)
  | _ => (c, .kNeedMore)

theorem pending_length (c : FrameCodec) : c.pending.length = c.buffered := List.length_drop

@[simp] theorem feed_pending (c : FrameCodec) (data : List Byte) : (c.feed data).1.pending = c.pending ++ data :=
  List.drop_append_of_le_length c.off_le

@[simp] theorem feed_maxPayload (c : FrameCodec) (data : List Byte) : (c.feed data).1.maxPayload = c.maxPayload := rfl

theorem feed_fits (c : FrameCodec) (data : List Byte) :
    (c.feed data).2 = true ↔ c.buffered + data.length ≤ c.maxPayload + kFrameHeaderLen := by
  have hlen : (c.feed data).1.buffered = c.buffered + data.length := by
    rw [← pending_length, feed_pending, List.length_append, pending_length]
  rw [← hlen]
  exact decide_eq_true_iff

@[simp] theorem compact_pending (c : FrameCodec) : c.compact.pending = c.pending := by
  unfold compact pending
  split
  · rfl
  split
  · rename_i hoff
    simp [hoff]
  split
  · rfl
  · rfl

@[simp] theorem compact_maxPayload (c : FrameCodec) : c.compact.maxPayload = c.maxPayload := by
  unfold compact
  split_ifs <;> rfl

theorem advance_pending (c : FrameCodec) (n : Nat) (h : n ≤ c.buffered) : (c.advance n h).pending = c.pending.drop n := by
  unfold pending advance
  rw [List.drop_drop]

end FrameCodec

/-! ## A frame is taken whole -/

theorem Frame.encode_length (f : Frame) : f.encode.length = kFrameHeaderLen + f.payload.length := by
  simp [Frame.encode, kFrameHeaderLen]
  omega

theorem Frame.encode_eq (f : Frame) : ∃ b0 b1 b2 b3, f.encode = b0 :: b1 :: b2 :: b3 :: f.type :: f.payload ∧
    [b0, b1, b2, b3].foldl (fun v b => v * 256 + b.toNat) 0 = f.payload.length % 2 ^ 32 :=
  ⟨_, _, _, _, rfl, by
    have h := foldl_beBytes 4 f.payload.length 0
    rw [Nat.zero_mul, Nat.zero_add] at h
    exact h⟩

theorem FrameCodec.next_whole {c : FrameCodec} {f : Frame} {rest : List Byte} (hp : c.pending = f.encode ++ rest)
    (hmax : f.payload.length ≤ c.maxPayload) (hlen : f.payload.length < 2 ^ 32) :
    ∃ c', c.next = (c', .kOk f) ∧ c'.pending = rest ∧ c'.maxPayload = c.maxPayload := by
  obtain ⟨b0, b1, b2, b3, henc, hread⟩ := f.encode_eq
  rw [Nat.mod_eq_of_lt hlen] at hread
  have hroom : kFrameHeaderLen + f.payload.length ≤ c.buffered := by
    rw [← c.pending_length, hp, List.length_append, f.encode_length]
    omega
  have hdrop : (f.encode ++ rest).drop (kFrameHeaderLen + f.payload.length) = rest := by
    rw [← f.encode_length, List.drop_left]
  refine ⟨(c.advance _ hroom).compact, ?_, ?_, ?_⟩
  · unfold FrameCodec.next
    rw [hp, henc]
    simp only [List.cons_append, hread]
    rw [if_neg (by omega), dif_pos hroom, List.take_left]
  · rw [compact_pending, advance_pending, hp, hdrop]
  · rw [compact_maxPayload]
    rfl

theorem FrameCodec.next_part {c : FrameCodec} {f : Frame} {more : List Byte} (hp : f.encode = c.pending ++ more)
    (hshort : c.pending.length < f.encode.length) (hmax : f.payload.length ≤ c.maxPayload)
    (hlen : f.payload.length < 2 ^ 32) : c.next = (c, .kNeedMore) := by
  obtain ⟨b0, b1, b2, b3, henc, hread⟩ := f.encode_eq
  rw [Nat.mod_eq_of_lt hlen] at hread
  rw [f.encode_length, c.pending_length] at hshort
  unfold FrameCodec.next
  match hc : c.pending with
  | x0 :: x1 :: x2 :: x3 :: type :: rest =>
    rw [henc, hc] at hp
    simp only [List.cons_append, List.cons.injEq] at hp
    obtain ⟨rfl, rfl, rfl, rfl, -, -⟩ := hp
    simp only [hread]
    rw [if_neg (by omega), dif_neg (by omega)]
  | [] => rfl
  | [_] => rfl
  | [_, _] => rfl
  | [_, _, _] => rfl
  | [_, _, _, _] => rfl

end Wt2ws

namespace Wt2ws

/-- The limits, as the command line may set them (`wt2ws_config.cpp`). -/
structure Wt2wsConfig where
  maxFrame : Nat
  maxQueue : Nat
  frame_ok : 16 ≤ maxFrame ∧ maxFrame ≤ 64 * 1024 * 1024
  queue_ok : maxFrame ≤ maxQueue

structure OutMsg where
  data : List Byte
  off : Nat := 0
deriving DecidableEq

/-- A session, with what the backend was sent and what the stream took. -/
structure Session where
  cfg : Wt2wsConfig
  codec : FrameCodec := { maxPayload := cfg.maxFrame }
  attached : Bool := false
  connected : Bool := false
  inq : List Frame := []
  inqBytes : Nat := 0
  outq : List OutMsg := []
  outBytes : Nat := 0
  closed : Bool := false
  wtClosed : Bool := false
  backend : List Frame := []
  accepted : List Byte := []

namespace Session

def fail (s : Session) : Session := if s.closed then s else { s with closed := true, connected := false }

def queueInbound (s : Session) (f : Frame) : Option Session :=
  if s.cfg.maxQueue < s.inqBytes + f.payload.length then none
  else some { s with inq := s.inq ++ [f], inqBytes := s.inqBytes + f.payload.length }

def takeFrame (s : Session) (f : Frame) : Session :=
  if f.type ≠ kFrameText ∧ f.type ≠ kFrameBinary then s.fail
  else if s.connected then { s with backend := s.backend ++ [f] }
  else (s.queueInbound f).getD s.fail

/-- The loop of `onWtData`; a frame is five bytes at least. -/
def readFrames : Nat → Session → Session
  | 0, s => s
  | n + 1, s =>
    if s.closed then s
    else
      match s.codec.next with
      | (c, .kNeedMore) => { s with codec := c }
      | (c, .kError) => fail { s with codec := c }
      | (c, .kOk f) => readFrames n (takeFrame { s with codec := c } f)

def onWtData (s : Session) (data : List Byte) : Session :=
  if s.closed ∨ s.wtClosed ∨ data = [] then s
  else
    let r := s.codec.feed data
    if r.2 then readFrames (r.1.buffered + 1) { s with codec := r.1 } else fail { s with codec := r.1 }

def sendQueued : List Frame → Session → Session
  | [], s => s
  | m :: q, s => sendQueued q { s with backend := s.backend ++ [m], inqBytes := s.inqBytes - m.payload.length, inq := q }

def flushInbound (s : Session) : Session := if ¬s.connected ∨ s.closed then s else sendQueued s.inq s

def onBackendConnected (s : Session) : Session := flushInbound { s with connected := true }

/-- The loop of `flushOut`; `answer i` is what the stream says to the write number `i` of it. -/
def writeQueued (answer : Nat → Int) : List OutMsg → Nat → Session → Session
  | [], _, s => s
  | m :: q, i, s =>
    if answer i = 0 then
      writeQueued answer q (i + 1) { s with
        outBytes := s.outBytes - (m.data.length - m.off), outq := q, accepted := s.accepted ++ m.data.drop m.off }
    else if answer i = 1 then s
    else s.fail

def flushOut (s : Session) (answer : Nat → Int) : Session :=
  if s.closed ∨ s.wtClosed ∨ ¬s.attached then s else writeQueued answer s.outq 0 s

def enqueueOut (s : Session) (f : Frame) (answer : Nat → Int) : Session :=
  if s.cfg.maxQueue < s.outBytes + f.payload.length + kFrameHeaderLen then s.fail
  else flushOut { s with outq := s.outq ++ [{ data := f.encode }], outBytes := s.outBytes + f.encode.length } answer

def attachStream (s : Session) (answer : Nat → Int) : Session :=
  if s.closed ∨ s.wtClosed ∨ s.attached then s else flushOut { s with attached := true } answer

def onWtClosed (s : Session) : Session :=
  if s.wtClosed then s else { s with wtClosed := true, closed := true, connected := false }

def onBackendClosed (s : Session) : Session := fail { s with connected := false }

end Session

/-- What comes to a session; a message of the backend is text or binary. -/
inductive Input where
  | wtData (data : List Byte)
  | attach (answer : Nat → Int)
  | wtWritable (answer : Nat → Int)
  | backendConnected
  | backendMessage (f : Frame) (answer : Nat → Int)
  | wtClosed
  | backendClosed

def Session.step (s : Session) : Input → Session
  | .wtData data => s.onWtData data
  | .attach answer => s.attachStream answer
  | .wtWritable answer => s.flushOut answer
  | .backendConnected => s.onBackendConnected
  | .backendMessage f answer => s.enqueueOut f answer
  | .wtClosed => s.onWtClosed
  | .backendClosed => s.onBackendClosed

namespace Session

/-! ## Closed for good -/

@[simp] theorem fail_closed (s : Session) : s.fail.closed = true := by
  unfold fail
  split
  · assumption
  · rfl

theorem flushOut_closed {s : Session} (h : s.closed = true) (answer : Nat → Int) : s.flushOut answer = s :=
  if_pos (.inl h)

theorem step_closed {s : Session} (h : s.closed = true) (e : Input) : (s.step e).closed = true := by
  cases e with
  | wtData data => rwa [step, onWtData, if_pos (.inl h)]
  | attach answer => rwa [step, attachStream, if_pos (.inl h)]
  | wtWritable answer => rwa [step, flushOut_closed h]
  | backendConnected =>
    dsimp only [step]
    unfold onBackendConnected flushInbound
    rwa [if_pos (.inr h)]
  | backendMessage f answer =>
    dsimp only [step]
    unfold enqueueOut
    split
    · exact fail_closed s
    · rwa [flushOut_closed (by exact h)]
  | wtClosed =>
    dsimp only [step]
    unfold onWtClosed
    split
    · exact h
    · rfl
  | backendClosed => exact fail_closed _

end Session
end Wt2ws
end MoqLiveCast
