import MoqLiveCast.Quic.PacketConn
import MoqLiveCast.Quic.StreamRecvStep
import MoqLiveCast.Quic.WriteOnce
/-!
# WriteSuccess — which callbacks get the code 0

`completes` names the requests a call calls back with 0; `streamStep_successes` reads the same off the trace.  Only
`quic_stream_flush_pending` and a reset with the code 0 call back so.
-/
namespace MoqLiveCast

/-- A callback with the code 0: its stream and its `user_data`. -/
def Effect.success : Effect → Option (Nat × Nat)
  | .writeDone sid code _ userData => if code = 0 then some (sid, userData) else none
  | _ => none

def successes (tr : List Effect) : List (Nat × Nat) := tr.filterMap Effect.success

@[simp] theorem successes_append (tr tr' : List Effect) : successes (tr ++ tr') = successes tr ++ successes tr' :=
  List.filterMap_append

abbrev NoSuccess : List Effect → List Effect → Prop := Adds (fun e => e.success = none)

theorem NoSuccess.successes {tr tr' : List Effect} (h : NoSuccess tr tr') : successes tr' = successes tr := by
  obtain ⟨l, rfl, hl⟩ := h
  rw [successes_append, show MoqLiveCast.successes l = [] from List.filterMap_eq_nil_iff.2 hl, List.append_nil]

abbrev CallsNone : List Effect → List Effect → Prop := Adds (fun e => ∀ u, e.isDone u = false)

theorem noSuccess_of_callsNone {tr tr' : List Effect} (h : CallsNone tr tr') : NoSuccess tr tr' := by
  refine h.mono fun e he => ?_
  cases e with
  | writeDone sid code length userData => exact absurd (he userData) (by simp [Effect.isDone])
  | _ => rfl

section CallsNone

variable (q : QueueFn)

theorem queueFn_callsNone {tr : List Effect} {ctx : QuicStreamCtx} (h : CallsNone tr ctx.trace) (f : Frame) :
    CallsNone tr (ctx.queueFn q f).trace := h.call fun _ => rfl

theorem deliver_callsNone {tr : List Effect} {ctx : QuicStreamCtx} (h : CallsNone tr ctx.trace) (sid : Nat)
    (data : List (Option Byte)) (fin : Bool) : CallsNone tr (ctx.deliver sid data fin).trace := by
  unfold QuicStreamCtx.deliver
  split
  · exact h.call fun _ => rfl
  · exact h

/-! ## Sending -/

variable (s : QuicStream)

theorem consumeSendBuf_callsNone (ctx : QuicStreamCtx) : CallsNone ctx.trace (consumeSendBuf q s ctx).2.trace :=
  (consumeLoop_reqs q s.sendBufLen s ctx).adds

theorem maybeNotifyWritable_callsNone (ctx : QuicStreamCtx) :
    CallsNone ctx.trace (maybeNotifyWritable s ctx).2.trace := (maybeNotifyWritable_reqs s ctx).adds

variable (ctx : QuicStreamCtx)

theorem quicStreamWrite_noSuccess (sid : Nat) (data : List Byte) (fin : Bool) (cb : Option Nat)
    (timeoutMs now : Nat) : NoSuccess ctx.trace (quicStreamWrite q ctx sid data fin cb timeoutMs now).2.trace := by
  have hfail : NoSuccess ctx.trace (writeFail ctx sid cb).trace := by
    cases cb with
    | none => exact Adds.refl _ _
    | some userData => exact (Adds.refl _ _).call rfl
  unfold quicStreamWrite
  split
  · exact hfail
  · split
    · exact hfail
    · split
      · exact Adds.refl _ _
      · exact noSuccess_of_callsNone ((consumeSendBuf_callsNone q _ ctx).trans (maybeNotifyWritable_callsNone _ _))

theorem sendFrames_callsNone (ctx : QuicStreamCtx) (data : List Byte) (fin : Bool) :
    CallsNone ctx.trace (sendFrames q s ctx data fin).2.2.trace := by
  apply sendFrames_inv q (fun _ c => CallsNone ctx.trace c.trace)
  · intro s1 c1 fin bytes _ _ _ h
    exact queueFn_callsNone q h _
  · intro s1 c1 fin bytes _ _ h
    exact queueFn_callsNone q h _
  · exact Adds.refl _ _

theorem quicStreamSend_callsNone (sid : Nat) (data : List Byte) (fin : Bool) :
    CallsNone ctx.trace (quicStreamSend q ctx sid data fin).2.trace := by
  have hblocked : ∀ f, CallsNone ctx.trace ((ctx.queueFn q f).flushFn).trace := fun f =>
    (queueFn_callsNone q (Adds.refl _ _) f).call fun _ => rfl
  unfold quicStreamSend
  split
  · exact Adds.refl _ _
  · split
    · exact Adds.refl _ _
    · split
      · exact hblocked _
      · split
        · exact hblocked _
        · dsimp only
          split <;> exact sendFrames_callsNone q _ ctx data fin

theorem quicStreamCloseSend_callsNone (sid : Nat) : CallsNone ctx.trace (quicStreamCloseSend q ctx sid).trace := by
  unfold quicStreamCloseSend
  split
  · exact Adds.refl _ _
  · split
    · exact Adds.refl _ _
    · dsimp only
      split
      · exact (queueFn_callsNone q (Adds.refl _ _) _).call fun _ => rfl
      · exact Adds.refl _ _

/-! ## Receiving -/

theorem gapDrainOne_callsNone (g : QuicStreamGap) (s : QuicStream) (ctx : QuicStreamCtx) :
    CallsNone ctx.trace (gapDrainOne g s ctx).2.trace := by
  unfold gapDrainOne
  split
  · dsimp only
    split
    · exact deliver_callsNone (Adds.refl _ _) _ _ _
    · exact Adds.refl _ _
  · exact Adds.refl _ _

theorem streamFcUpdate_callsNone (ctx : QuicStreamCtx) : CallsNone ctx.trace (streamFcUpdate q s ctx).2.trace := by
  have hconn : CallsNone ctx.trace (if sub64 ctx.maxDataLocal ctx.bytesRecvd < QUIC_STREAM_RECV_BUF_SIZE / 4 then
      { ctx with maxDataLocal := ctx.bytesRecvd + QUIC_STREAM_RECV_BUF_SIZE }.queueFn q
        (.maxData (ctx.bytesRecvd + QUIC_STREAM_RECV_BUF_SIZE))
      else ctx).trace := by
    split
    · exact (Adds.refl _ _).call fun _ => rfl
    · exact Adds.refl _ _
  unfold streamFcUpdate
  dsimp only
  split
  · exact queueFn_callsNone q hconn _
  · exact hconn

theorem recvFrame_callsNone (f : StreamFrame) (s : QuicStream) (ctx : QuicStreamCtx) :
    CallsNone ctx.trace (recvFrame q f s ctx).2.trace := by
  have hdeliver : ∀ s : QuicStream, CallsNone ctx.trace (recvDeliver f s ctx).2.trace := by
    intro s
    unfold recvDeliver
    split
    · refine (gapDrainLoop_inv (fun _ c => CallsNone ctx.trace c.trace) ?_ _ _ _ (Nat.le_refl _) ?_).1
      · intro s1 c1 g t _ _ h
        exact h.trans (gapDrainOne_callsNone g s1 c1)
      · exact deliver_callsNone (Adds.refl _ _) _ _ _
    · exact Adds.refl _ _
  unfold recvFrame
  dsimp only
  split
  · exact streamFcUpdate_callsNone q _ _
  · have hcredit := (hdeliver (noteFin f s)).trans (streamFcUpdate_callsNone q (recvDeliver f (noteFin f s) ctx).1 _)
    unfold recvInOrder recvFin
    dsimp only
    split
    · exact deliver_callsNone hcredit _ _ _
    · exact hcredit

theorem quicStreamGrantCredit_callsNone (bidi : Bool) : CallsNone ctx.trace (quicStreamGrantCredit q ctx bidi).trace := by
  have hqueue : ∀ (c : QuicStreamCtx) f, c.trace = ctx.trace → CallsNone ctx.trace (c.queueFn q f).trace :=
    fun c f hc => hc ▸ queueFn_callsNone q (Adds.refl _ _) f
  unfold quicStreamGrantCredit
  dsimp only
  cases bidi <;> simp only [Bool.false_eq_true, if_true, if_false] <;> split
  · exact Adds.refl _ _
  · exact hqueue _ _ rfl
  · exact Adds.refl _ _
  · exact hqueue _ _ rfl

theorem recvOpen_callsNone (sid : Nat) : CallsNone ctx.trace (recvOpen q ctx sid).2.trace := by
  have hfound := streamFindOrCreate_trace ctx sid
  unfold recvOpen
  dsimp only
  generalize (streamFindOrCreate ctx sid).2 = c at hfound
  rw [← hfound]
  split
  · unfold quicStreamNotePeerStream
    split
    · exact Adds.refl _ _
    · cases hbidi : decide (sid / 2 % 2 = 0) <;> simp only [Bool.false_eq_true, if_true, if_false] <;> split
      · exact quicStreamGrantCredit_callsNone q { c with peerUniOpened := c.peerUniOpened + 1 } false
      · exact Adds.refl _ _
      · exact quicStreamGrantCredit_callsNone q { c with peerBidiOpened := c.peerBidiOpened + 1 } true
      · exact Adds.refl _ _
  · exact Adds.refl _ _

theorem quicStreamOnRecv_callsNone (f : StreamFrame) : CallsNone ctx.trace (quicStreamOnRecv q ctx f).2.trace := by
  unfold quicStreamOnRecv
  dsimp only
  split
  · exact recvOpen_callsNone q ctx f.streamId
  · exact ((recvOpen_callsNone q ctx f.streamId).trans (recvFrame_callsNone q f _ _)).call fun _ => rfl

theorem quicStreamOnReset_callsNone (sid finalSize errorCode : Nat) :
    CallsNone ctx.trace (quicStreamOnReset ctx sid finalSize errorCode).trace := by
  have hcall : CallsNone ctx.trace (if ctx.onStreamReset then ctx.call (.streamReset sid errorCode) else ctx).trace := by
    split
    · exact (Adds.refl _ _).call fun _ => rfl
    · exact Adds.refl _ _
  unfold quicStreamOnReset
  dsimp only
  split <;> exact hcall

/-! ## Opening -/

theorem quicStreamOpen_callsNone : CallsNone ctx.trace (quicStreamOpen q ctx).2.trace := by
  unfold quicStreamOpen
  dsimp only
  split
  · exact queueFn_callsNone q (Adds.refl _ _) _
  · rw [setStream_trace, streamFindOrCreate_trace]
    exact Adds.refl _ _

theorem quicStreamOpenUni_callsNone : CallsNone ctx.trace (quicStreamOpenUni q ctx).2.trace := by
  unfold quicStreamOpenUni
  dsimp only
  split
  · exact queueFn_callsNone q (Adds.refl _ _) _
  · rw [setStream_trace, streamFindOrCreate_trace]
    exact Adds.refl _ _

theorem quicStreamStopSending_callsNone (sid errorCode : Nat) :
    CallsNone ctx.trace (quicStreamStopSending q ctx sid errorCode).2.trace := by
  unfold quicStreamStopSending
  split
  · exact Adds.refl _ _
  · exact (queueFn_callsNone q (Adds.refl _ _) _).call fun _ => rfl

theorem gotTransportParams_trace (params : List Byte) : (gotTransportParams ctx params).trace = ctx.trace := by
  have hone : ∀ (c : QuicStreamCtx) tp, (setTransportParam c tp).trace = c.trace := by
    intro c tp
    unfold setTransportParam
    split
    · rfl
    · split <;> rfl
  have hall : ∀ (l : List (Nat × List Byte)) (c : QuicStreamCtx), (l.foldl setTransportParam c).trace = c.trace := by
    intro l
    induction l with
    | nil => exact fun _ => rfl
    | cons tp l ih => exact fun c => (ih _).trans (hone c tp)
  exact hall _ ctx

end CallsNone

/-! ## Calling back with 0 -/

theorem reqExpire_noSuccess (sid now : Nat) : ∀ (reqs : List QuicStreamWriteReq) (ctx : QuicStreamCtx),
    NoSuccess ctx.trace (reqExpire sid now reqs ctx).2.trace
  | [], ctx => Adds.refl _ _
  | r :: rs, ctx => by
    unfold reqExpire
    split
    · have hone : NoSuccess ctx.trace (ctx.call (.writeDone sid (-2) r.length r.userData)).trace := (Adds.refl _ _).call rfl
      exact hone.trans (reqExpire_noSuccess sid now rs _)
    · exact Adds.refl _ _

theorem reqFireCompletedLoop_successes (sid acked : Nat) : ∀ (reqs : List QuicStreamWriteReq) (ctx : QuicStreamCtx),
    successes (reqFireCompletedLoop sid acked reqs ctx).2.trace =
      successes ctx.trace ++ (reqsDue acked reqs).map (fun r => (sid, r.userData))
  | [], ctx => (List.append_nil _).symm
  | r :: rs, ctx => by
    unfold reqFireCompletedLoop reqsDue
    by_cases hr : acked < r.startOffset + r.length
    · have hnot : ¬ r.startOffset + r.length ≤ acked := Nat.not_le.2 hr
      simp [hr, hnot]
    · have hdue : r.startOffset + r.length ≤ acked := Nat.not_lt.1 hr
      rw [if_neg hr, reqFireCompletedLoop_successes sid acked rs, List.takeWhile_cons_of_pos (by simpa using hdue)]
      simp [successes, Effect.success, reqsDue]

theorem reqFailAll_successes (sid : Nat) (retCode : Int) : ∀ (reqs : List QuicStreamWriteReq) (ctx : QuicStreamCtx),
    successes (reqs.foldl (fun ctx r => ctx.call (.writeDone sid retCode 0 r.userData)) ctx).trace =
      successes ctx.trace ++ if retCode = 0 then reqs.map (fun r => (sid, r.userData)) else []
  | [], ctx => by simp
  | r :: rs, ctx => by
    rw [List.foldl_cons, reqFailAll_successes sid retCode rs]
    by_cases hcode : retCode = 0 <;> simp [successes, Effect.success, hcode]

section Successes

variable (q : QueueFn)

theorem flushRetry_noSuccess (now : Nat) (s : QuicStream) (ctx : QuicStreamCtx) :
    NoSuccess ctx.trace (flushRetry q now s ctx).2.trace := by
  have hexpire := reqExpire_noSuccess s.streamId now s.writeReqs ctx
  unfold flushRetry
  dsimp only
  split
  · exact hexpire.trans (noSuccess_of_callsNone (consumeSendBuf_callsNone q _ _))
  · exact hexpire.trans (noSuccess_of_callsNone (maybeNotifyWritable_callsNone _ _))

theorem flushStream_eq (now : Nat) (s : QuicStream) (ctx : QuicStreamCtx) : flushStream q now s ctx =
      let r := flushRetry q now s ctx
      let f := reqFireCompleted r.1 r.2 r.1.sendOffset
      maybeNotifyWritable f.1 f.2 := rfl

theorem flushTurn_successes (now : Nat) (ctx : QuicStreamCtx) (i : Nat) : successes (flushTurn q now ctx i).trace =
      successes ctx.trace ++ (turnCompletes q now ctx i).map (fun d => (d.1, d.2.userData)) := by
  unfold flushTurn turnCompletes
  cases ctx.streams[i]? with
  | none => simp
  | some s =>
    have hretry := (flushRetry_noSuccess q now s ctx).successes
    dsimp only
    rw [setStream_trace, flushStream_eq]
    dsimp only
    rw [(noSuccess_of_callsNone (maybeNotifyWritable_callsNone _ _)).successes, List.map_map]
    generalize flushRetry q now s ctx = r at hretry ⊢
    rw [← hretry]
    exact reqFireCompletedLoop_successes r.1.streamId r.1.sendOffset r.1.writeReqs r.2

theorem flushTurns_successes (now : Nat) : ∀ (is : List Nat) (ctx : QuicStreamCtx),
    successes (is.foldl (flushTurn q now) ctx).trace =
      successes ctx.trace ++ (turnsComplete q now ctx is).map (fun d => (d.1, d.2.userData))
  | [], ctx => by simp [turnsComplete]
  | i :: is, ctx => by
    rw [List.foldl_cons, flushTurns_successes now is, flushTurn_successes, turnsComplete, List.map_append, List.append_assoc]

theorem quicStreamReset_successes (ctx : QuicStreamCtx) (sid errorCode : Nat) :
    successes (quicStreamReset q ctx sid errorCode).2.trace =
      successes ctx.trace ++ (resetCompletes ctx sid errorCode).map (fun d => (d.1, d.2.userData)) := by
  unfold quicStreamReset resetCompletes
  cases hs : streamFind ctx sid with
  | none => simp
  | some s =>
    have hframe : NoSuccess ctx.trace ((ctx.queueFn q (.resetStream sid errorCode s.sendOffset)).flushFn).trace :=
      noSuccess_of_callsNone ((queueFn_callsNone q (Adds.refl _ _) _).call fun _ => rfl)
    dsimp only
    rw [setStream_trace]
    unfold reqFailAll
    dsimp only
    rw [reqFailAll_successes, hframe.successes, streamFind_id hs]
    split <;> simp

theorem streamStep_successes (ctx : QuicStreamCtx) (c : StreamCall) : successes (streamStep q ctx c).trace =
      successes ctx.trace ++ (completes q ctx c).map (fun d => (d.1, d.2.userData)) := by
  have hquiet : completes q ctx c = [] → NoSuccess ctx.trace (streamStep q ctx c).trace → successes (streamStep q ctx c).trace =
      successes ctx.trace ++ (completes q ctx c).map (fun d => (d.1, d.2.userData)) := by
    intro hnone h
    rw [hnone, h.successes, List.map_nil, List.append_nil]
  cases c with
  | send c =>
    cases c with
    | write sid data fin cb timeoutMs now => exact hquiet rfl (quicStreamWrite_noSuccess q ctx sid data fin cb timeoutMs now)
    | send sid data fin => exact hquiet rfl (noSuccess_of_callsNone (quicStreamSend_callsNone q ctx sid data fin))
    | closeSend sid => exact hquiet rfl (noSuccess_of_callsNone (quicStreamCloseSend_callsNone q ctx sid))
    | reset sid errorCode => exact quicStreamReset_successes q ctx sid errorCode
    | onStopSending sid =>
      show successes (quicStreamOnStopSending q ctx sid).trace = _
      have hreset := quicStreamReset_successes q ctx sid 0
      unfold quicStreamOnStopSending completes
      cases hs : streamFind ctx sid with
      | none => simp [hs]
      | some s =>
        simp only [hs]
        split
        · exact hreset
        · simp
    | flushPending now =>
      show successes (quicStreamFlushPending q ctx now).trace = _
      unfold quicStreamFlushPending completes
      split
      · simp
      · exact flushTurns_successes q now _ _
    | onMaxData maxData =>
      refine hquiet rfl ?_
      show NoSuccess ctx.trace (quicStreamOnMaxData ctx maxData).trace
      unfold quicStreamOnMaxData
      split <;> exact Adds.refl _ _
    | onMaxStreamData sid maxData =>
      refine hquiet rfl ?_
      show NoSuccess ctx.trace (quicStreamOnMaxStreamData ctx sid maxData).trace
      unfold quicStreamOnMaxStreamData
      rw [setStream_trace, streamFindOrCreate_trace]
      exact Adds.refl _ _
    | applyInitSendCredit => exact hquiet rfl (Adds.refl _ _)
  | openBidi => exact hquiet rfl (noSuccess_of_callsNone (quicStreamOpen_callsNone q ctx))
  | openUni => exact hquiet rfl (noSuccess_of_callsNone (quicStreamOpenUni_callsNone q ctx))
  | stopSending sid errorCode => exact hquiet rfl (noSuccess_of_callsNone (quicStreamStopSending_callsNone q ctx sid errorCode))
  | handshakeDone => exact hquiet rfl ((Adds.refl _ _).call rfl)
  | onRecv f => exact hquiet rfl (noSuccess_of_callsNone (quicStreamOnRecv_callsNone q ctx f))
  | onReset sid finalSize errorCode => exact hquiet rfl (noSuccess_of_callsNone (quicStreamOnReset_callsNone ctx sid finalSize errorCode))
  | onMaxStreams maxStreams bidi =>
    refine hquiet rfl ?_
    show NoSuccess ctx.trace (quicStreamOnMaxStreams ctx maxStreams bidi).trace
    unfold quicStreamOnMaxStreams
    split <;> exact Adds.refl _ _
  | onStreamsBlocked maxStreams bidi => exact hquiet rfl (noSuccess_of_callsNone (quicStreamGrantCredit_callsNone q ctx bidi))
  | transportParams params =>
    refine hquiet rfl ?_
    show NoSuccess ctx.trace (gotTransportParams ctx params).trace
    rw [gotTransportParams_trace]
    exact Adds.refl _ _

end Successes
end MoqLiveCast
