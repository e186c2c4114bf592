import MoqLiveCast.Quic.Stream
import MoqLiveCast.Quic.Varint
/-!
# StreamSend — the send side (`quic_stream_write` to `quic_stream_flush_pending`)

A write appends to `send_buf` and consumes it at once as far as flow control and `queue_fn` let it; what is left is
consumed by `quic_stream_flush_pending`.  `quic_stream_send` is the older path that does not use `send_buf`.

The clock `uv_now` is a parameter of the calls that read it.
-/
namespace MoqLiveCast

/-! ## Write requests -/

def reqInsert (req : QuicStreamWriteReq) : List QuicStreamWriteReq → List QuicStreamWriteReq
  | [] => [req]
  | r :: rs => if r.startOffset < req.startOffset then r :: reqInsert req rs else req :: r :: rs

/-- Call back the requests that end at or before an offset, up to the first that does not. -/
def reqFireCompletedLoop (sid ackedOffset : Nat) : List QuicStreamWriteReq → QuicStreamCtx →
    List QuicStreamWriteReq × QuicStreamCtx
  | [], ctx => ([], ctx)
  | r :: rs, ctx =>
    if ackedOffset < r.startOffset + r.length then (r :: rs, ctx)
    else reqFireCompletedLoop sid ackedOffset rs (ctx.call (.writeDone sid 0 r.length r.userData))

def reqFireCompleted (s : QuicStream) (ctx : QuicStreamCtx) (ackedOffset : Nat) : QuicStream × QuicStreamCtx :=
  let (reqs, ctx) := reqFireCompletedLoop s.streamId ackedOffset s.writeReqs ctx
  ({ s with writeReqs := reqs }, ctx)

def reqFailAll (s : QuicStream) (ctx : QuicStreamCtx) (retCode : Int) : QuicStream × QuicStreamCtx :=
  ({ s with writeReqs := [] },
    s.writeReqs.foldl (fun ctx r => ctx.call (.writeDone s.streamId retCode 0 r.userData)) ctx)

/-! ## `send_buf` -/

/-- Doubling from `cap` until it holds `needed`; `n` bounds the turns. -/
def growCap (needed : Nat) : Nat → Nat → Nat
  | 0, cap => cap
  | n + 1, cap => if cap < needed then growCap needed n (cap * 2) else cap

def sendBufEnsure (s : QuicStream) (totalNeeded : Nat) : QuicStream :=
  let moved := { s with sendBuf := s.sendBuf.move 0 s.sendBufHead s.sendBufLen, sendBufHead := 0 }
  if totalNeeded ≤ s.sendBufCap then
    if s.sendBufCap < s.sendBufHead + totalNeeded then moved else s
  else if 0 < s.sendBufHead ∧ s.sendBufLen + totalNeeded ≤ s.sendBufCap then moved
  else
    let newCap := if s.sendBufCap ≠ 0 then s.sendBufCap * 2 else 4096
    let needed := s.sendBufHead + totalNeeded
    { s with sendBufCap := growCap needed needed newCap }

def sendBufAppend (s : QuicStream) (data : List Byte) : QuicStream :=
  if data.length = 0 then s
  else
    let s := sendBufEnsure s (s.sendBufLen + data.length)
    { s with
      sendBuf := s.sendBuf.write (s.sendBufHead + s.sendBufLen) (data.map some)
      sendBufLen := s.sendBufLen + data.length }

def maybeNotifyWritable (s : QuicStream) (ctx : QuicStreamCtx) : QuicStream × QuicStreamCtx :=
  if s.wantWritable = false ∨ QUIC_STREAM_SEND_LOW_WATER < s.sendBufLen then (s, ctx)
  else ({ s with wantWritable := false }, if s.onWritable then ctx.call (.writable s.streamId) else ctx)

/-! ## Consuming `send_buf` -/

def MAX_FRAME_BUF : Nat := 2048
def MAX_PAYLOAD_CHUNK : Nat := 1200

/-- `quic_frame_write_stream`: no frame when the buffer of `cap` bytes is too small. -/
def quicFrameWriteStream (cap sid offset : Nat) (fin : Bool) (data : List (Option Byte)) : Option Frame :=
  if cap < 1 + quicVarintLen sid + quicVarintLen offset + quicVarintLen data.length + data.length then none
  else some (.stream sid offset fin data)

theorem quicFrameWriteStream_eq {cap sid offset : Nat} {fin : Bool} {data : List (Option Byte)} {frame : Frame}
    (h : quicFrameWriteStream cap sid offset fin data = some frame) : frame = .stream sid offset fin data := by
  unfold quicFrameWriteStream at h
  split at h
  · cases h
  · cases h
    rfl

def streamRoom (s : QuicStream) : Nat := if s.sendOffset < s.sendMaxData then s.sendMaxData - s.sendOffset else 0

def connRoom (ctx : QuicStreamCtx) : Nat :=
  if ctx.bytesSent < ctx.maxDataPeer then ctx.maxDataPeer - ctx.bytesSent else 0

def QuicStreamCtx.addSent (ctx : QuicStreamCtx) (n : Nat) : QuicStreamCtx := { ctx with bytesSent := ctx.bytesSent + n }

section Send

variable (q : QueueFn)

/-- A limit is reached: the peer is told once, until something is sent again. -/
def consumeBlocked (limit : Frame) (s : QuicStream) (ctx : QuicStreamCtx) : QuicStream × QuicStreamCtx :=
  let already := s.sendBlocked
  let s := { s with sendBlocked := true }
  let ctx := if already then ctx else (ctx.queueFn q limit).flushFn
  maybeNotifyWritable s ctx

/-- The chunk one turn of `consume_send_buf` sends. -/
def consumeChunk (s : QuicStream) (ctx : QuicStreamCtx) : Nat :=
  min (min (min s.sendBufLen MAX_PAYLOAD_CHUNK) (streamRoom s)) (connRoom ctx)

/-- FIN goes with the chunk that empties `send_buf`. -/
def consumeIsLast (s : QuicStream) (ctx : QuicStreamCtx) : Bool :=
  if s.sendBufLen ≤ consumeChunk s ctx then s.sendBufFin else false

def consumeFrame (s : QuicStream) (ctx : QuicStreamCtx) : Option Frame :=
  quicFrameWriteStream MAX_FRAME_BUF s.streamId s.sendOffset (consumeIsLast s ctx)
    (s.sendBuf.read s.sendBufHead (consumeChunk s ctx))

def consumeAdvance (s : QuicStream) (chunk : Nat) : QuicStream :=
  { s with
    sendOffset := s.sendOffset + chunk
    sendBufHead := s.sendBufHead + chunk
    sendBufLen := s.sendBufLen - chunk
    sendBlocked := false }

def consumeDone (s : QuicStream) (ctx : QuicStreamCtx) : QuicStream × QuicStreamCtx :=
  maybeNotifyWritable
    { s with sendBuf := Mem.fresh, sendBufHead := 0, sendBufCap := 0, sendBufFin := false, sendBlocked := false } ctx

/-- The loop of `consume_send_buf`; a turn that goes on sends at least a byte, so `n` is `send_buf_len` at the
start. -/
def consumeLoop : Nat → QuicStream → QuicStreamCtx → QuicStream × QuicStreamCtx
  | 0, s, ctx => consumeDone s ctx
  | n + 1, s, ctx =>
    if s.sendBufLen = 0 then consumeDone s ctx
    else if streamRoom s = 0 then consumeBlocked q (.streamDataBlocked s.streamId s.sendMaxData) s ctx
    else if connRoom ctx = 0 then consumeBlocked q (.dataBlocked ctx.maxDataPeer) s ctx
    else
      -- the chunk is not empty: there is data and both rooms are open
      match consumeFrame s ctx with
      | none => (s, ctx)
      | some frame =>
        let chunk := consumeChunk s ctx
        if q ctx.trace frame then
          consumeLoop n (consumeAdvance s chunk) ((ctx.queueFn q frame).addSent chunk)
        else maybeNotifyWritable { s with sendBlocked := true } (ctx.queueFn q frame)

/-- `consume_send_buf`; its return value is read nowhere. -/
def consumeSendBuf (s : QuicStream) (ctx : QuicStreamCtx) : QuicStream × QuicStreamCtx :=
  consumeLoop q s.sendBufLen s ctx

/-! ## `quic_stream_write` and `quic_stream_send` -/

def SendEnded (s : QuicStream) : Prop := s.sendState = .resetSent ∨ s.sendState = .dataSent

instance (s : QuicStream) : Decidable (SendEnded s) := inferInstanceAs (Decidable (_ ∨ _))

def Congested (s : QuicStream) (len : Nat) : Prop := 0 < len ∧ QUIC_STREAM_SEND_HIGH_WATER < s.sendBufLen + len

instance (s : QuicStream) (len : Nat) : Decidable (Congested s len) := inferInstanceAs (Decidable (_ ∧ _))

/-- The request of a write with a callback, recorded before its data is appended. -/
def writeRequest (s : QuicStream) (len : Nat) (cb : Option Nat) (timeoutMs now : Nat) : QuicStream :=
  match cb with
  | some userData =>
    let deadlineMs := if timeoutMs ≠ 0 then now + timeoutMs else 0
    let req : QuicStreamWriteReq := ⟨s.sendOffset + s.sendBufLen, len, deadlineMs, userData⟩
    { s with writeReqs := reqInsert req s.writeReqs }
  | none => s

def writeFlags (s : QuicStream) (fin : Bool) : QuicStream :=
  let s := if fin then { s with sendBufFin := true } else s
  if s.sendState = .ready then { s with sendState := .send } else s

def writeAppend (s : QuicStream) (data : List Byte) (fin : Bool) (cb : Option Nat) (timeoutMs now : Nat) : QuicStream :=
  writeFlags (sendBufAppend (writeRequest s data.length cb timeoutMs now) data) fin

def writeFail (ctx : QuicStreamCtx) (sid : Nat) (cb : Option Nat) : QuicStreamCtx :=
  match cb with
  | some userData => ctx.call (.writeDone sid (-1) 0 userData)
  | none => ctx

/-- `quic_stream_write`; `cb` is the `user_data` of the callback, when there is one. -/
def quicStreamWrite (ctx : QuicStreamCtx) (sid : Nat) (data : List Byte) (fin : Bool) (cb : Option Nat)
    (timeoutMs now : Nat) : Int × QuicStreamCtx :=
  match streamFind ctx sid with
  | none => (-1, writeFail ctx sid cb)
  | some s =>
    if SendEnded s then (-1, writeFail ctx sid cb)
    else if Congested s data.length then (1, setStream ctx { s with wantWritable := true })
    else
      let (s, ctx) := consumeSendBuf q (writeAppend s data fin cb timeoutMs now) ctx
      let (s, ctx) := maybeNotifyWritable s ctx
      (0, setStream ctx s)

def MC : Nat := 1300

/-- The loop of `quic_stream_send`; a turn that goes on sends at least a byte. -/
def sendLoop (data : List Byte) (fin : Bool) : Nat → Nat → QuicStream → QuicStreamCtx → Int × QuicStream × QuicStreamCtx
  | 0, _, s, ctx => (0, s, ctx)
  | n + 1, sent, s, ctx =>
    if sent < data.length then
      if streamRoom s = 0 ∨ connRoom ctx = 0 then (-1, s, ctx)
      else
        let chunk := min (min (min (data.length - sent) MC) (streamRoom s)) (connRoom ctx)
        let isLast := if data.length ≤ sent + chunk then fin else false
        match quicFrameWriteStream MAX_FRAME_BUF s.streamId s.sendOffset isLast
            (((data.drop sent).take chunk).map some) with
        | none => (-1, s, ctx)
        | some frame =>
          if q ctx.trace frame then
            sendLoop data fin n (sent + chunk) { s with sendOffset := s.sendOffset + chunk }
              ((ctx.queueFn q frame).addSent chunk)
          else (-1, s, ctx.queueFn q frame)
    else (0, s, ctx)

/-- What `quic_stream_send` queues: an empty FIN frame, or the data. -/
def sendFrames (s : QuicStream) (ctx : QuicStreamCtx) (data : List Byte) (fin : Bool) : Int × QuicStream × QuicStreamCtx :=
  if data.length = 0 ∧ fin then
    match quicFrameWriteStream MAX_FRAME_BUF s.streamId s.sendOffset true [] with
    | none => (-1, s, ctx)
    | some frame => (if q ctx.trace frame then 0 else -1, s, ctx.queueFn q frame)
  else sendLoop q data fin data.length 0 s ctx

def quicStreamSend (ctx : QuicStreamCtx) (sid : Nat) (data : List Byte) (fin : Bool) : Int × QuicStreamCtx :=
  match streamFind ctx sid with
  | none => (-1, ctx)
  | some s =>
    if SendEnded s then (-1, ctx)
    else if s.sendMaxData < s.sendOffset + data.length then
      (-1, (ctx.queueFn q (.streamDataBlocked sid s.sendMaxData)).flushFn)
    else if ctx.maxDataPeer < ctx.bytesSent + data.length then
      (-1, (ctx.queueFn q (.dataBlocked ctx.maxDataPeer)).flushFn)
    else
      let (ret, s, ctx) := sendFrames q s ctx data fin
      if ret < 0 then (-1, setStream ctx s)
      else
        let s := if fin then { s with sendState := .dataSent }
                 else if s.sendState = .ready then { s with sendState := .send } else s
        (0, setStream ctx s)

/-! ## Ending a stream -/

def quicStreamCloseSend (ctx : QuicStreamCtx) (sid : Nat) : QuicStreamCtx :=
  match streamFind ctx sid with
  | none => ctx
  | some s =>
    if s.sendState = .dataSent then ctx
    else
      let ctx := match quicFrameWriteStream 32 sid s.sendOffset true [] with
        | some frame => (ctx.queueFn q frame).flushFn
        | none => ctx
      setStream ctx { s with sendState := .dataSent }

def resetRetCode (errorCode : Nat) : Int := -(BitVec.ofNat 32 errorCode).toInt

def quicStreamReset (ctx : QuicStreamCtx) (sid errorCode : Nat) : Int × QuicStreamCtx :=
  match streamFind ctx sid with
  | none => (-1, ctx)
  | some s =>
    let ctx := (ctx.queueFn q (.resetStream sid errorCode s.sendOffset)).flushFn
    let s := { s with sendState := .resetSent }
    let (s, ctx) := reqFailAll s ctx (resetRetCode errorCode)
    (0, setStream ctx s)

def quicStreamOnStopSending (ctx : QuicStreamCtx) (sid : Nat) : QuicStreamCtx :=
  match streamFind ctx sid with
  | none => ctx
  | some s => if s.sendState = .send ∨ s.sendState = .dataSent then (quicStreamReset q ctx sid 0).2 else ctx

/-! ## Credit -/

def quicStreamOnMaxData (ctx : QuicStreamCtx) (maxData : Nat) : QuicStreamCtx :=
  if ctx.maxDataPeer < maxData then { ctx with maxDataPeer := maxData } else ctx

/-- `if (lim > s->send_max_data) s->send_max_data = lim`. -/
def raiseSendMaxData (s : QuicStream) (lim : Nat) : QuicStream :=
  if s.sendMaxData < lim then { s with sendMaxData := lim } else s

def quicStreamApplyInitSendCredit (ctx : QuicStreamCtx) : QuicStreamCtx :=
  { ctx with streams := ctx.streams.map (fun s => raiseSendMaxData s (peerSendCredit ctx s.streamId)) }

def quicStreamOnMaxStreamData (ctx : QuicStreamCtx) (sid maxData : Nat) : QuicStreamCtx :=
  let (s, ctx) := streamFindOrCreate ctx sid
  setStream ctx (raiseSendMaxData s maxData)

/-! ## `quic_stream_flush_pending` -/

/-- Call back the requests at the head of the list whose deadline has passed. -/
def reqExpire (sid now : Nat) : List QuicStreamWriteReq → QuicStreamCtx → List QuicStreamWriteReq × QuicStreamCtx
  | [], ctx => ([], ctx)
  | r :: rs, ctx =>
    if 0 < r.deadlineMs ∧ r.deadlineMs ≤ now then
      reqExpire sid now rs (ctx.call (.writeDone sid (-2) r.length r.userData))
    else (r :: rs, ctx)

def flushStream (now : Nat) (s : QuicStream) (ctx : QuicStreamCtx) : QuicStream × QuicStreamCtx :=
  let (reqs, ctx) := reqExpire s.streamId now s.writeReqs ctx
  let s := { s with writeReqs := reqs }
  let (s, ctx) := if 0 < s.sendBufLen then consumeSendBuf q s ctx else maybeNotifyWritable s ctx
  let (s, ctx) := reqFireCompleted s ctx s.sendOffset
  maybeNotifyWritable s ctx

def flushTurn (now : Nat) (ctx : QuicStreamCtx) (i : Nat) : QuicStreamCtx :=
  match ctx.streams[i]? with
  | none => ctx
  | some s =>
    let (s, ctx) := flushStream q now s ctx
    setStream ctx s

def quicStreamFlushPending (ctx : QuicStreamCtx) (now : Nat) : QuicStreamCtx :=
  if ctx.flushing then ctx
  else
    let ctx := { ctx with flushing := true }
    let ctx := (List.range ctx.streams.length).foldl (flushTurn q now) ctx
    { ctx with flushing := false }

/-! ## Calls -/

inductive SendCall where
  | write (sid : Nat) (data : List Byte) (fin : Bool) (cb : Option Nat) (timeoutMs now : Nat)
  | send (sid : Nat) (data : List Byte) (fin : Bool)
  | closeSend (sid : Nat)
  | reset (sid errorCode : Nat)
  | onStopSending (sid : Nat)
  | flushPending (now : Nat)
  | onMaxData (maxData : Nat)
  | onMaxStreamData (sid maxData : Nat)
  | applyInitSendCredit

def sendStep (ctx : QuicStreamCtx) : SendCall → QuicStreamCtx
  | .write sid data fin cb timeoutMs now => (quicStreamWrite q ctx sid data fin cb timeoutMs now).2
  | .send sid data fin => (quicStreamSend q ctx sid data fin).2
  | .closeSend sid => quicStreamCloseSend q ctx sid
  | .reset sid errorCode => (quicStreamReset q ctx sid errorCode).2
  | .onStopSending sid => quicStreamOnStopSending q ctx sid
  | .flushPending now => quicStreamFlushPending q ctx now
  | .onMaxData maxData => quicStreamOnMaxData ctx maxData
  | .onMaxStreamData sid maxData => quicStreamOnMaxStreamData ctx sid maxData
  | .applyInitSendCredit => quicStreamApplyInitSendCredit ctx

end Send
end MoqLiveCast
