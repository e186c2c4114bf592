import MoqLiveCast.Quic.FrameLoop
import MoqLiveCast.Quic.RecoveryLoss
import MoqLiveCast.Quic.StreamCalls
/-!
# PacketConn — the streams, the packets and recovery of a connection (`quic_connection.c`)

Frames are packed into `pkt_payload_`, which leaves as the payload of a 1-RTT packet when it is full, flushed or picked
up by a timer; recovery sends the same payload again.  What the congestion controller, the pacer and the socket say is
data of the call, a `PacketEnv`; timers, key updates and statistics are left out.
-/
namespace MoqLiveCast

open Codec

/-! ## Payloads -/

def QUIC_MAX_PAYLOAD_LEN : Nat := 1286

/-- The frame with the fields its writer takes; a byte of `send_buf` that was never written reads as 0. -/
def Frame.wire : Frame → WireFrame
  | .stream sid offset fin data => .stream sid offset fin (data.map (fun b => b.getD 0))
  | .maxData md => .maxData md
  | .maxStreamData sid md => .maxStreamData sid md
  | .maxStreams ms bidi => .maxStreams ms bidi
  | .dataBlocked limit => .dataBlocked limit
  | .streamDataBlocked sid limit => .streamDataBlocked sid limit
  | .streamsBlocked limit bidi => .streamsBlocked limit bidi
  | .resetStream sid errorCode finalSize => .resetStream sid errorCode finalSize
  | .stopSending sid errorCode => .stopSending sid errorCode

/-- `payload_ack_eliciting` from `pos` on; a frame has a byte at least, so `n` is what is left of the payload. -/
def payloadAckElicitingFrom (payload : List Byte) : Nat → Nat → Bool
  | 0, _ => false
  | n + 1, pos =>
    match payload.drop pos with
    | [] => false
    | ft :: _ =>
      if ft = QUIC_FRAME_PADDING then payloadAckElicitingFrom payload n (pos + 1)
      else if ft = QUIC_FRAME_ACK ∨ ft = QUIC_FRAME_ACK_ECN then
        match quicFrameParseAck (payload.drop pos) with
        | none => false
        | some (_, len) => payloadAckElicitingFrom payload n (pos + len)
      else if ft = QUIC_FRAME_CONNECTION_CLOSE ∨ ft = QUIC_FRAME_CONNECTION_CLOSE_APP then
        match quicFrameParseConnectionClose (payload.drop pos) with
        | none => false
        | some (_, len) => payloadAckElicitingFrom payload n (pos + len)
      else true

def payloadAckEliciting (payload : List Byte) : Bool := payloadAckElicitingFrom payload payload.length 0

/-- A payload brings byte `i` of a stream: the frame loop of short-header packets comes to a STREAM frame with it. -/
def Carries (payload : List Byte) (sid i : Nat) : Prop :=
  ∃ pos ∈ frameLoop .short payload 0, ∃ offset fin data n,
    quicFrameParseStream (payload.drop pos) = some ((sid, offset, fin, data), n) ∧ offset ≤ i ∧ i < offset + data.length

/-! ## Connections -/

/-- A request that was called back with 0, and the packets acknowledged by then. -/
structure Completion where
  streamId : Nat
  req : QuicStreamWriteReq
  acked : List (Nat × List Byte)

structure PacketConn where
  stream : QuicStreamCtx
  recovery : QuicRecoveryCtx := {}
  /-- `pkt_payload_` -/
  payload : List Byte := []
  nextPn : Nat := 0
  /-- the 1-RTT packets that left, each with its number and payload -/
  left : List (Nat × List Byte) := []
  /-- those that an ACK of the peer named after they had left -/
  acked : List (Nat × List Byte) := []
  completed : List Completion := []

/-- What is outside of streams, packets and recovery, during one call. -/
structure PacketEnv where
  now : Nat := 0
  /-- `quic_recovery_can_send`: the window of the congestion controller is open -/
  canSend : QuicRecoveryCtx → Bool := fun _ => true
  pacingAllow : PacketConn → Bool := fun _ => true
  /-- `send_quic_packet` reaches the socket: there are keys, the packet fits and so does the budget before validation -/
  leaves : PacketConn → Bool := fun _ => true
  /-- the connection is not closing and recovery is not paused -/
  recorded : Bool := true

section Env

variable (env : PacketEnv)

def sendShortPacket (c : PacketConn) (payload : List Byte) : PacketConn :=
  let pn := c.nextPn
  let c := { c with nextPn := pn + 1 }
  if env.leaves c = false then c
  else
    let c := { c with left := c.left ++ [(pn, payload)] }
    if env.recorded ∧ payloadAckEliciting payload then
      { c with recovery := sendNew c.recovery ⟨pn, true, payload.length, payload, .short, env.now⟩ }
    else c

def sendPayload (c : PacketConn) : PacketConn := { sendShortPacket env c c.payload with payload := [] }

def quicConnFlushPacket (c : PacketConn) : PacketConn :=
  if c.payload.length = 0 then c
  else if env.canSend c.recovery = false then c
  else if env.pacingAllow c = false then c
  else sendPayload env c

/-- `quic_conn_queue_frames`; the answer is that of `queue_fn`. -/
def quicConnQueueFrames (c : PacketConn) (frames : List Byte) : Bool × PacketConn :=
  if QUIC_MAX_PAYLOAD_LEN < frames.length then (false, c)
  else if QUIC_MAX_PAYLOAD_LEN < c.payload.length + frames.length ∧ 0 < c.payload.length then
    if env.canSend c.recovery = false then (false, c)
    else
      let c := quicConnFlushPacket env c
      if QUIC_MAX_PAYLOAD_LEN < c.payload.length + frames.length then (false, c)
      else (true, { c with payload := c.payload ++ frames })
  else (true, { c with payload := c.payload ++ frames })

def quicConnQueueAck (c : PacketConn) (ack : List Byte) : PacketConn :=
  if QUIC_MAX_PAYLOAD_LEN < c.payload.length + ack.length ∧ 0 < c.payload.length then
    if env.canSend c.recovery then { sendPayload env c with payload := ack } else sendShortPacket env c ack
  else { c with payload := ack ++ c.payload }

/-! ## Stream calls -/

def packEffect (c : PacketConn) : Effect → PacketConn
  | .queueFrame frame _ => (quicConnQueueFrames env c frame.wire.bytes).2
  | .flush => quicConnFlushPacket env c
  | _ => c

def pack (c : PacketConn) (effects : List Effect) : PacketConn := effects.foldl (packEffect env) c

/-- `queue_fn` during a call that starts at `c`: the answer for the connection after what the call did so far. -/
def connQueueFn (c : PacketConn) : QueueFn := fun tr frame =>
  (quicConnQueueFrames env (pack env c (tr.drop c.stream.trace.length)) frame.wire.bytes).1

end Env

/-- The requests at the head of the list that end at or before `acked_offset`. -/
def reqsDue (ackedOffset : Nat) (reqs : List QuicStreamWriteReq) : List QuicStreamWriteReq :=
  reqs.takeWhile (fun r => r.startOffset + r.length ≤ ackedOffset)

section Completed

variable (q : QueueFn)

/-- A stream's turn of `quic_stream_flush_pending` up to `req_fire_completed`. -/
def flushRetry (now : Nat) (s : QuicStream) (ctx : QuicStreamCtx) : QuicStream × QuicStreamCtx :=
  let (reqs, ctx) := reqExpire s.streamId now s.writeReqs ctx
  let s := { s with writeReqs := reqs }
  if 0 < s.sendBufLen then consumeSendBuf q s ctx else maybeNotifyWritable s ctx

def turnCompletes (now : Nat) (ctx : QuicStreamCtx) (i : Nat) : List (Nat × QuicStreamWriteReq) :=
  match ctx.streams[i]? with
  | none => []
  | some s =>
    let s := (flushRetry q now s ctx).1
    (reqsDue s.sendOffset s.writeReqs).map (fun r => (s.streamId, r))

def turnsComplete (now : Nat) : QuicStreamCtx → List Nat → List (Nat × QuicStreamWriteReq)
  | _, [] => []
  | ctx, i :: is => turnCompletes q now ctx i ++ turnsComplete now (flushTurn q now ctx i) is

/-- The requests a reset calls back with 0: all of them, when that is the code of the reset. -/
def resetCompletes (ctx : QuicStreamCtx) (sid errorCode : Nat) : List (Nat × QuicStreamWriteReq) :=
  match streamFind ctx sid with
  | none => []
  | some s => if resetRetCode errorCode = 0 then s.writeReqs.map (fun r => (sid, r)) else []

def completes (ctx : QuicStreamCtx) : StreamCall → List (Nat × QuicStreamWriteReq)
  | .send (.flushPending now) =>
    if ctx.flushing then []
    else turnsComplete q now { ctx with flushing := true } (List.range ctx.streams.length)
  | .send (.reset sid errorCode) => resetCompletes ctx sid errorCode
  | .send (.onStopSending sid) =>
    match streamFind ctx sid with
    | none => []
    | some s => if s.sendState = .send ∨ s.sendState = .dataSent then resetCompletes ctx sid 0 else []
  | _ => []

end Completed

def streamCall (env : PacketEnv) (c : PacketConn) (call : StreamCall) : PacketConn :=
  let q := connQueueFn env c
  let ctx := streamStep q c.stream call
  { pack env c (ctx.trace.drop c.stream.trace.length) with
    stream := ctx
    completed := c.completed ++ (completes q c.stream call).map (fun d => ⟨d.1, d.2, c.acked⟩) }

/-! ## Recovery calls -/

def RecoveryEffect.short : RecoveryEffect → Option (Nat × List Byte)
  | .sent pn _ _ .short frames => some (pn, frames)
  | _ => none

/-- The packets an ACK of the 1-RTT space names, by the numbers `process_ack_ranges` goes through. -/
def ackNames (fuel : Nat) (c : PacketConn) : RecoveryCall → List (Nat × List Byte)
  | .ackReceived ack now .application _ =>
    match processAckRanges fuel c.recovery ack now .application with
    | none => []
    | some w => c.left.filter (fun p => p.1 ∈ w.marked)
  | _ => []

def recoveryCall (fuel : Nat) (c : PacketConn) (call : RecoveryCall) : Option PacketConn :=
  (recoveryStep fuel c.recovery call).map fun recovery =>
    { c with
      recovery
      left := c.left ++ (recovery.trace.drop c.recovery.trace.length).filterMap RecoveryEffect.short
      acked := c.acked ++ ackNames fuel c call }

/-! ## Calls -/

inductive ConnCall where
  | stream (call : StreamCall)
  | recovery (call : RecoveryCall)
  /-- a timer sends what is packed -/
  | sendPayload
  | flushPacket
  /-- a frame of the connection itself -/
  | queueFrames (frames : List Byte)
  | queueAck (ack : List Byte)
  /-- `QuicConnectionSendImmediate` -/
  | sendImmediate (payload : List Byte)

def connStep (fuel : Nat) (c : PacketConn) : PacketEnv × ConnCall → Option PacketConn
  | (env, .stream call) => some (streamCall env c call)
  | (_, .recovery call) => recoveryCall fuel c call
  | (env, .sendPayload) => some (sendPayload env c)
  | (env, .flushPacket) => some (quicConnFlushPacket env c)
  | (env, .queueFrames frames) => some (quicConnQueueFrames env c frames).2
  | (env, .queueAck ack) => some (quicConnQueueAck env c ack)
  | (env, .sendImmediate payload) => some (sendShortPacket env c payload)

def connStart (server : Bool) : PacketConn := { stream := streamCtxStart server }

end MoqLiveCast
