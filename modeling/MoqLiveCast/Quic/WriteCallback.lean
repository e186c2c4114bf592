import MoqLiveCast.Quic.StreamSend
/-!
# WriteCallback — the send side when callbacks call back

A write callback and `on_writable` may call `quic_stream_write` and the others again, so the loops that call them back
read the stream again after each. What a callback does is a script: it is asked for the next call until it has none.

`queue_fn` and `flush_fn` only send packets: they do not come back here. A call that reads a freed stream, which
`quic_stream_cleanup` leaves in the table until its end, has no result. `n` bounds how deep and how long it goes.
-/
namespace MoqLiveCast

inductive AppCall where
  | write (sid : Nat) (data : List Byte) (fin : Bool) (cb : Option Nat) (timeoutMs now : Nat)
  | flushPending (now : Nat)
  | reset (sid errorCode : Nat)
  | onStopSending (sid : Nat)

structure AppRun where
  ctx : QuicStreamCtx
  /-- the calls that returned, with what they returned (0 for a call that returns nothing) -/
  answered : List (AppCall × Int) := []
  /-- how many streams `quic_stream_cleanup` has freed -/
  freed : Nat := 0
  /-- how many calls the callbacks have made -/
  called : Nat := 0

/-- What the callbacks do next, `none` to return. -/
abbrev Script := AppRun → Option AppCall

namespace AppRun

def set (w : AppRun) (s : QuicStream) : AppRun := { w with ctx := setStream w.ctx s }

def call (w : AppRun) (e : Effect) : AppRun := { w with ctx := w.ctx.call e }

def answer (w : AppRun) (c : AppCall) (ret : Int) : AppRun := { w with answered := w.answered ++ [(c, ret)] }

/-- `stream_find` reads every stream of the table. -/
def find (w : AppRun) (sid : Nat) : Option (Option QuicStream) := if w.freed = 0 then some (streamFind w.ctx sid) else none

def through (w : AppRun) (sid : Nat) (f : QuicStream → Option AppRun) : Option AppRun :=
  match streamFind w.ctx sid with
  | none => some w
  | some s => f s

end AppRun

section Callback

variable (q : QueueFn) (back : AppRun → Option AppRun)

/-! ## Writing -/

/-- `on_writable` is the last thing a send does, once `want_writable` is off. -/
def thenWritable (w : AppRun) (s : QuicStream) (r : QuicStream × QuicStreamCtx) : Option AppRun :=
  let w := { w with ctx := setStream r.2 r.1 }
  if s.wantWritable ∧ r.1.wantWritable = false ∧ s.onWritable then back w else some w

def maybeNotifyWritableCb (w : AppRun) (s : QuicStream) : Option AppRun :=
  thenWritable back w s (maybeNotifyWritable s w.ctx)

def consumeSendBufCb (w : AppRun) (s : QuicStream) : Option AppRun := thenWritable back w s (consumeSendBuf q s w.ctx)

def writeFailCb (w : AppRun) (sid : Nat) (cb : Option Nat) : Option (Int × AppRun) :=
  match cb with
  | some userData => (back (w.call (.writeDone sid (-1) 0 userData))).map (fun w => (-1, w))
  | none => some (-1, w)

def quicStreamWriteCb (w : AppRun) (sid : Nat) (data : List Byte) (fin : Bool) (cb : Option Nat)
    (timeoutMs now : Nat) : Option (Int × AppRun) := do
  match ← w.find sid with
  | none => writeFailCb back w sid cb
  | some s =>
    if SendEnded s then writeFailCb back w sid cb
    else if Congested s data.length then some (1, w.set { s with wantWritable := true })
    else
      let w ← consumeSendBufCb q back w (writeAppend s data fin cb timeoutMs now)
      let w ← w.through sid (maybeNotifyWritableCb back w)
      some (0, w)

/-! ## Calling the requests back -/

/-- The requests at the head of the list that are due: each leaves the list, then is called back. -/
def reqDrain (due : QuicStreamWriteReq → Bool) (code : Int) (length : QuicStreamWriteReq → Nat) (sid : Nat) :
    Nat → AppRun → Option AppRun
  | 0, _ => none
  | n + 1, w =>
    w.through sid fun s =>
      match s.writeReqs with
      | [] => some w
      | r :: rs =>
        if due r then
          (back ((w.set { s with writeReqs := rs }).call (.writeDone sid code (length r) r.userData))).bind
            (reqDrain due code length sid n)
        else some w

variable (n : Nat)

def reqFireCompletedCb (w : AppRun) (sid ackedOffset : Nat) : Option AppRun :=
  reqDrain back (fun r => r.startOffset + r.length ≤ ackedOffset) 0 QuicStreamWriteReq.length sid n w

def reqFailAllCb (w : AppRun) (sid : Nat) (retCode : Int) : Option AppRun :=
  reqDrain back (fun _ => true) retCode (fun _ => 0) sid n w

def reqExpireCb (now : Nat) (w : AppRun) (sid : Nat) : Option AppRun :=
  reqDrain back (fun r => 0 < r.deadlineMs ∧ r.deadlineMs ≤ now) (-2) QuicStreamWriteReq.length sid n w

def quicStreamResetCb (w : AppRun) (sid errorCode : Nat) : Option (Int × AppRun) := do
  match ← w.find sid with
  | none => some (-1, w)
  | some s =>
    let ctx := (w.ctx.queueFn q (.resetStream sid errorCode s.sendOffset)).flushFn
    let w := { w with ctx := setStream ctx { s with sendState := .resetSent } }
    let w ← reqFailAllCb back n w sid (resetRetCode errorCode)
    some (0, w)

def quicStreamOnStopSendingCb (w : AppRun) (sid : Nat) : Option AppRun := do
  match ← w.find sid with
  | none => some w
  | some s =>
    if s.sendState = .send ∨ s.sendState = .dataSent then (quicStreamResetCb q back n w sid 0).map Prod.snd else some w

/-- One stream's turn of `quic_stream_flush_pending`. -/
def flushTurnCb (now : Nat) (w : AppRun) (i : Nat) : Option AppRun :=
  match w.ctx.streams[i]? with
  | none => some w
  | some s => do
    let sid := s.streamId
    let w ← reqExpireCb back n now w sid
    let w ← w.through sid fun s =>
      if 0 < s.sendBufLen then consumeSendBufCb q back w s else maybeNotifyWritableCb back w s
    let w ← w.through sid fun s => reqFireCompletedCb back n w sid s.sendOffset
    w.through sid (maybeNotifyWritableCb back w)

def quicStreamFlushPendingCb (w : AppRun) (now : Nat) : Option AppRun :=
  if w.ctx.flushing then some w
  else if w.freed ≠ 0 then none
  else do
    let w := { w with ctx := { w.ctx with flushing := true } }
    let w ← (List.range w.ctx.streams.length).foldlM (flushTurnCb q back n now) w
    some { w with ctx := { w.ctx with flushing := false } }

/-- One stream's turn of `quic_stream_cleanup`; the stream is freed. -/
def cleanupTurn (w : AppRun) (i : Nat) : Option AppRun :=
  match w.ctx.streams[i]? with
  | none => some w
  | some s => (reqFailAllCb back n w s.streamId (-1)).map (fun w => { w with freed := i + 1 })

def quicStreamCleanup (w : AppRun) : Option AppRun := do
  let w ← (List.range w.ctx.streams.length).foldlM (cleanupTurn back n) w
  some { w with ctx := { w.ctx with streams := [] }, freed := 0 }

/-! ## Calls -/

def callApp (w : AppRun) : AppCall → Option (Int × AppRun)
  | .write sid data fin cb timeoutMs now => quicStreamWriteCb q back w sid data fin cb timeoutMs now
  | .flushPending now => (quicStreamFlushPendingCb q back n w now).map (fun w => (0, w))
  | .reset sid errorCode => quicStreamResetCb q back n w sid errorCode
  | .onStopSending sid => (quicStreamOnStopSendingCb q back n w sid).map (fun w => (0, w))

def appStep (w : AppRun) (c : AppCall) : Option AppRun := (callApp q back n w c).map (fun r => r.2.answer c r.1)

end Callback

def callback (q : QueueFn) (script : Script) : Nat → AppRun → Option AppRun
  | 0, _ => none
  | n + 1, w =>
    match script w with
    | none => some w
    | some c => (appStep q (callback q script n) n { w with called := w.called + 1 } c).bind (callback q script n)

/-- The calls of the application, then `quic_stream_cleanup`. -/
def appRun (q : QueueFn) (script : Script) (n : Nat) (calls : List AppCall) (ctx : QuicStreamCtx) : Option AppRun :=
  (calls.foldlM (appStep q (callback q script n) n) { ctx }).bind (quicStreamCleanup (callback q script n) n)

end MoqLiveCast
