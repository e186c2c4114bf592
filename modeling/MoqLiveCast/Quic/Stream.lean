import MoqLiveCast.Lib.Word
import MoqLiveCast.Lib.Mem
import MoqLiveCast.Lib.Table
import MoqLiveCast.Lib.Ranges
/-!
# Stream — the data of the stream layer (`quic_stream.h`)

A `QuicStreamCtx` holds the streams of one connection and the connection's flow-control counters.  What the layer does
to the outside (the frames it hands to `queue_fn`, the data it hands to `on_stream_data`, the write callbacks) is
recorded in `trace`, oldest first.  `queue_fn` may accept or refuse a frame in any way: it is a function of what was
called before and of the frame.

Allocation is taken to succeed.  Log lines and the log throttle are left out.
-/
namespace MoqLiveCast

/-! ## Frames -/

inductive Frame where
  | stream (streamId offset : Nat) (fin : Bool) (data : List (Option Byte))
  | maxData (maxData : Nat)
  | maxStreamData (streamId maxData : Nat)
  | maxStreams (maxStreams : Nat) (bidi : Bool)
  | dataBlocked (limit : Nat)
  | streamDataBlocked (streamId limit : Nat)
  | streamsBlocked (limit : Nat) (bidi : Bool)
  | resetStream (streamId errorCode finalSize : Nat)
  | stopSending (streamId errorCode : Nat)
deriving DecidableEq

/-- A STREAM frame as `quic_frame_parse_stream` accepts it: the offset is a varint, the data part of a packet. -/
structure StreamFrame where
  streamId : Nat
  offset : Nat
  fin : Bool
  data : List Byte
  offset_lt : offset < 2 ^ 62
  length_lt : data.length < 2 ^ 62

theorem zero_lt_two_pow_62 : 0 < 2 ^ 62 := Nat.two_pow_pos 62

theorem one_lt_two_pow_62 : 1 < 2 ^ 62 := by decide

def StreamFrame.stop (f : StreamFrame) : Nat := f.offset + f.data.length

/-! ## Calls to the outside -/

inductive Effect where
  | queueFrame (frame : Frame) (accepted : Bool)
  | flush
  | streamData (streamId : Nat) (data : List (Option Byte)) (fin : Bool)
  | streamReset (streamId errorCode : Nat)
  | writeDone (streamId : Nat) (retCode : Int) (length userData : Nat)
  | writable (streamId : Nat)
deriving DecidableEq

abbrev QueueFn := List Effect → Frame → Bool

/-! ## Streams -/

def QUIC_STREAM_MAX_GAPS : Nat := 8
def QUIC_STREAM_RECV_BUF_SIZE : Nat := 64 * 1024 * 1024
def QUIC_STREAM_SEND_HIGH_WATER : Nat := 512 * 1024
def QUIC_STREAM_SEND_LOW_WATER : Nat := 128 * 1024

inductive SendState where
  | ready | send | dataSent | resetSent
deriving DecidableEq

inductive RecvState where
  | recv | sizeKnown | dataRecvd | resetRecvd
deriving DecidableEq

abbrev QuicStreamGap := Range

structure GapTable where
  gaps : List QuicStreamGap
  count_le : gaps.length ≤ QUIC_STREAM_MAX_GAPS

def GapTable.empty : GapTable := ⟨[], by decide⟩

structure QuicStreamWriteReq where
  startOffset : Nat
  length : Nat
  deadlineMs : Nat
  userData : Nat
deriving DecidableEq

structure QuicStream where
  streamId : Nat
  sendState : SendState := .ready
  sendOffset : Nat := 0
  sendMaxData : Nat := 0
  sendBuf : Mem := Mem.fresh
  sendBufHead : Nat := 0
  sendBufLen : Nat := 0
  sendBufCap : Nat := 0
  sendBufFin : Bool := false
  sendBlocked : Bool := false
  wantWritable : Bool := false
  writeReqs : List QuicStreamWriteReq := []
  onWritable : Bool := false
  recvState : RecvState := .recv
  recvOffset : Nat := 0
  recvMaxData : Nat := 0
  recvBuf : Option Mem := none
  recvBufLen : Nat := 0
  recvBufCap : Nat := 0
  finRecvd : Bool := false
  finalSize : Nat := 0
  gapTable : GapTable := GapTable.empty

structure QuicStreamCtx where
  streams : List QuicStream := []
  nextLocalBidiId : Nat := 0
  nextLocalUniId : Nat := 2
  maxDataLocal : Nat := 0
  maxDataPeer : Nat := 0
  bytesSent : Nat := 0
  bytesRecvd : Nat := 0
  maxStreamsBidiPeer : Nat := 0
  maxStreamsUniPeer : Nat := 0
  maxStreamsBidiLocal : Nat := 0
  maxStreamsUniLocal : Nat := 0
  peerBidiOpened : Nat := 0
  peerUniOpened : Nat := 0
  peerInitMaxStreamDataBidiLocal : Nat := 0
  peerInitMaxStreamDataBidiRemote : Nat := 0
  peerInitMaxStreamDataUni : Nat := 0
  /-- `on_stream_data` is set -/
  onStreamData : Bool := true
  /-- `on_stream_reset` is set -/
  onStreamReset : Bool := true
  flushing : Bool := false
  trace : List Effect := []

namespace QuicStreamCtx

def call (ctx : QuicStreamCtx) (e : Effect) : QuicStreamCtx := { ctx with trace := ctx.trace ++ [e] }

variable (ctx : QuicStreamCtx)

@[simp] theorem call_trace (e : Effect) : (ctx.call e).trace = ctx.trace ++ [e] := rfl
@[simp] theorem call_streams (e : Effect) : (ctx.call e).streams = ctx.streams := rfl

@[simp] theorem call_bytesRecvd (e : Effect) : (ctx.call e).bytesRecvd = ctx.bytesRecvd := rfl

@[simp] theorem call_maxDataLocal (e : Effect) :
    (ctx.call e).maxDataLocal = ctx.maxDataLocal := rfl

@[simp] theorem call_onStreamData (e : Effect) :
    (ctx.call e).onStreamData = ctx.onStreamData := rfl

def addRecvd (ctx : QuicStreamCtx) (n : Nat) : QuicStreamCtx := { ctx with bytesRecvd := ctx.bytesRecvd + n }

@[simp] theorem addRecvd_trace (n : Nat) : (ctx.addRecvd n).trace = ctx.trace := rfl
@[simp] theorem addRecvd_streams (n : Nat) : (ctx.addRecvd n).streams = ctx.streams := rfl

@[simp] theorem addRecvd_bytesRecvd (n : Nat) :
    (ctx.addRecvd n).bytesRecvd = ctx.bytesRecvd + n := rfl
/-- Hand a frame to `queue_fn`; its answer is the last effect of the trace. -/
def queueFn (q : QueueFn) (ctx : QuicStreamCtx) (f : Frame) : QuicStreamCtx :=
  ctx.call (.queueFrame f (q ctx.trace f))

def flushFn (ctx : QuicStreamCtx) : QuicStreamCtx := ctx.call .flush

def deliver (ctx : QuicStreamCtx) (sid : Nat) (data : List (Option Byte)) (fin : Bool) : QuicStreamCtx :=
  if ctx.onStreamData then ctx.call (.streamData sid data fin) else ctx

end QuicStreamCtx

/-! ## Finding and creating a stream -/

def peerSendCredit (ctx : QuicStreamCtx) (sid : Nat) : Nat :=
  let weInit := sid % 2 = ctx.nextLocalBidiId % 2
  let uni := sid / 2 % 2 = 1
  if uni then ctx.peerInitMaxStreamDataUni
  else if weInit then ctx.peerInitMaxStreamDataBidiRemote
  else ctx.peerInitMaxStreamDataBidiLocal

def streamFind (ctx : QuicStreamCtx) (sid : Nat) : Option QuicStream := lookup QuicStream.streamId sid ctx.streams

/-- The record `stream_find_or_create` allocates. -/
def newStream (ctx : QuicStreamCtx) (sid : Nat) : QuicStream :=
  { streamId := sid, recvMaxData := QUIC_STREAM_RECV_BUF_SIZE, sendMaxData := peerSendCredit ctx sid }

def streamFindOrCreate (ctx : QuicStreamCtx) (sid : Nat) : QuicStream × QuicStreamCtx :=
  match streamFind ctx sid with
  | some s => (s, ctx)
  | none => (newStream ctx sid, { ctx with streams := ctx.streams ++ [newStream ctx sid] })

def setStream (ctx : QuicStreamCtx) (s : QuicStream) : QuicStreamCtx :=
  { ctx with streams := store QuicStream.streamId s ctx.streams }

theorem streamFind_id {ctx : QuicStreamCtx} {sid : Nat} {s : QuicStream} (h : streamFind ctx sid = some s) :
    s.streamId = sid := lookup_key _ h

variable (ctx : QuicStreamCtx)

@[simp] theorem setStream_trace (s : QuicStream) : (setStream ctx s).trace = ctx.trace := rfl

theorem streamFind_setStream_self {ctx : QuicStreamCtx} {s s' : QuicStream}
    (h : streamFind ctx s.streamId = some s') : streamFind (setStream ctx s) s.streamId = some s :=
  lookup_store_self _ h

theorem streamFind_setStream_ne {ctx : QuicStreamCtx} {s : QuicStream} {sid : Nat} (h : sid ≠ s.streamId) :
    streamFind (setStream ctx s) sid = streamFind ctx sid := lookup_store_ne _ h _

theorem streamFindOrCreate_find (sid : Nat) :
    streamFind (streamFindOrCreate ctx sid).2 sid = some (streamFindOrCreate ctx sid).1 := by
  unfold streamFindOrCreate
  cases h : streamFind ctx sid with
  | some s => exact h
  | none =>
    have hnew : (newStream ctx sid).streamId = sid := rfl
    show lookup QuicStream.streamId sid (ctx.streams ++ [newStream ctx sid]) = some (newStream ctx sid)
    rw [lookup_append_new _ (by rw [hnew]; exact h), if_pos hnew.symm]

theorem streamFindOrCreate_find_ne {sid sid' : Nat} (h : sid' ≠ sid) :
    streamFind (streamFindOrCreate ctx sid).2 sid' = streamFind ctx sid' := by
  unfold streamFindOrCreate
  cases hf : streamFind ctx sid with
  | some s => rfl
  | none =>
    have hnew : (newStream ctx sid).streamId = sid := rfl
    show lookup QuicStream.streamId sid' (ctx.streams ++ [newStream ctx sid]) = _
    rw [lookup_append_new _ (by rw [hnew]; exact hf)]
    exact if_neg h

@[simp] theorem streamFindOrCreate_trace (sid : Nat) :
    (streamFindOrCreate ctx sid).2.trace = ctx.trace := by
  unfold streamFindOrCreate; split <;> rfl

@[simp] theorem streamFindOrCreate_onStreamData (sid : Nat) :
    (streamFindOrCreate ctx sid).2.onStreamData = ctx.onStreamData := by
  unfold streamFindOrCreate; split <;> rfl

theorem streamFindOrCreate_id (sid : Nat) : (streamFindOrCreate ctx sid).1.streamId = sid := by
  unfold streamFindOrCreate
  cases h : streamFind ctx sid with
  | some s => exact streamFind_id h
  | none => rfl

end MoqLiveCast
