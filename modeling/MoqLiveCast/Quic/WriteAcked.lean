import MoqLiveCast.Quic.WriteSuccess
/-!
# WriteAcked — a write called back with 0 and what the peer has acknowledged

`quic_stream_flush_pending` completes a request when its last byte was handed to `queue_fn`, a reset with the code 0
whatever was sent.
-/
namespace MoqLiveCast

def ReqAcked (acked : List (Nat × List Byte)) (sid : Nat) (r : QuicStreamWriteReq) : Prop :=
  ∀ i, r.startOffset ≤ i → i < r.startOffset + r.length → ∃ p ∈ acked, Carries p.2 sid i

/-- **A callback with 0 means acknowledged data**, as acknowledged when it was called. -/
structure SuccessMeansAcked (c : PacketConn) : Prop where
  listed : successes c.stream.trace = c.completed.map (fun d => (d.streamId, d.req.userData))
  acked : ∀ d ∈ c.completed, ReqAcked d.acked d.streamId d.req

/-! ## The condition -/

/-- The turn of a stream finds the requests acknowledged that end at or before `send_offset`. -/
def FlushTurnOk (acked : List (Nat × List Byte)) (q : QueueFn) (now : Nat) (ctx : QuicStreamCtx) (i : Nat) : Prop :=
  ∀ s, ctx.streams[i]? = some s → ∀ r ∈ reqsDue (flushRetry q now s ctx).1.sendOffset (flushRetry q now s ctx).1.writeReqs,
      ReqAcked acked s.streamId r

def ResetOk (acked : List (Nat × List Byte)) (ctx : QuicStreamCtx) (sid errorCode : Nat) : Prop :=
  resetRetCode errorCode = 0 → ∀ s, streamFind ctx sid = some s → ∀ r ∈ s.writeReqs, ReqAcked acked sid r

def StreamCallOk (acked : List (Nat × List Byte)) (q : QueueFn) (ctx : QuicStreamCtx) : StreamCall → Prop
  | .send (.flushPending now) =>
    ctx.flushing = false →
      StepsOk (flushTurn q now) (FlushTurnOk acked q now) { ctx with flushing := true } (List.range ctx.streams.length)
  | .send (.reset sid errorCode) => ResetOk acked ctx sid errorCode
  | .send (.onStopSending sid) =>
    (∃ s, streamFind ctx sid = some s ∧ (s.sendState = .send ∨ s.sendState = .dataSent)) → ResetOk acked ctx sid 0
  | _ => True

def ConnCallOk (c : PacketConn) : PacketEnv × ConnCall → Prop
  | (env, .stream call) => StreamCallOk c.acked (connQueueFn env c) c.stream call
  | _ => True

/-! ## What a call completes -/

theorem consumeSendBuf_id (q : QueueFn) (s : QuicStream) (ctx : QuicStreamCtx) :
    (consumeSendBuf q s ctx).1.streamId = s.streamId := (consumeLoop_reqs q s.sendBufLen s ctx).id

theorem flushRetry_id (q : QueueFn) (now : Nat) (s : QuicStream) (ctx : QuicStreamCtx) :
    (flushRetry q now s ctx).1.streamId = s.streamId := by
  unfold flushRetry
  dsimp only
  split
  · exact consumeSendBuf_id q _ _
  · exact (maybeNotifyWritable_reqs _ _).id

theorem flushTurnOk_iff (acked : List (Nat × List Byte)) (q : QueueFn) (now : Nat) (ctx : QuicStreamCtx) (i : Nat) :
    FlushTurnOk acked q now ctx i ↔ ∀ d ∈ turnCompletes q now ctx i, ReqAcked acked d.1 d.2 := by
  unfold FlushTurnOk turnCompletes
  cases ctx.streams[i]? with
  | none => simp
  | some s => simp [flushRetry_id]

theorem flushTurnsOk_iff (acked : List (Nat × List Byte)) (q : QueueFn) (now : Nat) : ∀ (is : List Nat)
    (ctx : QuicStreamCtx), StepsOk (flushTurn q now) (FlushTurnOk acked q now) ctx is ↔
      ∀ d ∈ turnsComplete q now ctx is, ReqAcked acked d.1 d.2
  | [], ctx => by simp [StepsOk, turnsComplete]
  | i :: is, ctx => by
    rw [StepsOk, flushTurnOk_iff, flushTurnsOk_iff acked q now is, turnsComplete, List.forall_mem_append]

theorem resetOk_iff (acked : List (Nat × List Byte)) (ctx : QuicStreamCtx) (sid errorCode : Nat) :
    ResetOk acked ctx sid errorCode ↔ ∀ d ∈ resetCompletes ctx sid errorCode, ReqAcked acked d.1 d.2 := by
  unfold ResetOk resetCompletes
  cases streamFind ctx sid with
  | none => simp
  | some s => by_cases hcode : resetRetCode errorCode = 0 <;> simp [hcode]

theorem streamCallOk_iff (acked : List (Nat × List Byte)) (q : QueueFn) (ctx : QuicStreamCtx) (call : StreamCall) :
    StreamCallOk acked q ctx call ↔ ∀ d ∈ completes q ctx call, ReqAcked acked d.1 d.2 := by
  cases call with
  | send call =>
    cases call with
    | flushPending now =>
      unfold StreamCallOk completes
      cases hflush : ctx.flushing with
      | true => simp
      | false => simpa using flushTurnsOk_iff acked q now _ _
    | reset sid errorCode => exact resetOk_iff acked ctx sid errorCode
    | onStopSending sid =>
      have hreset := resetOk_iff acked ctx sid 0
      unfold StreamCallOk completes
      cases hs : streamFind ctx sid with
      | none => simp [hs]
      | some s =>
        by_cases hstate : s.sendState = .send ∨ s.sendState = .dataSent
        · simpa [hs, hstate] using hreset
        · simp [hs, hstate]
    | _ => simp [StreamCallOk, completes]
  | _ => simp [StreamCallOk, completes]

/-! ## A call of the connection -/

theorem sendShortPacket_kept (env : PacketEnv) (c : PacketConn) (payload : List Byte) :
    (sendShortPacket env c payload).stream = c.stream ∧ (sendShortPacket env c payload).completed = c.completed := by
  unfold sendShortPacket
  dsimp only
  split
  · exact ⟨rfl, rfl⟩
  · split <;> exact ⟨rfl, rfl⟩

theorem flushPacket_kept (env : PacketEnv) (c : PacketConn) :
    (quicConnFlushPacket env c).stream = c.stream ∧ (quicConnFlushPacket env c).completed = c.completed := by
  unfold quicConnFlushPacket
  split
  · exact ⟨rfl, rfl⟩
  · split
    · exact ⟨rfl, rfl⟩
    · split
      · exact ⟨rfl, rfl⟩
      · exact sendShortPacket_kept env c c.payload

theorem queueFrames_kept (env : PacketEnv) (c : PacketConn) (frames : List Byte) :
    (quicConnQueueFrames env c frames).2.stream = c.stream ∧ (quicConnQueueFrames env c frames).2.completed = c.completed := by
  unfold quicConnQueueFrames
  split
  · exact ⟨rfl, rfl⟩
  · split
    · split
      · exact ⟨rfl, rfl⟩
      · dsimp only
        split <;> exact flushPacket_kept env c
    · exact ⟨rfl, rfl⟩

theorem queueAck_kept (env : PacketEnv) (c : PacketConn) (ack : List Byte) :
    (quicConnQueueAck env c ack).stream = c.stream ∧ (quicConnQueueAck env c ack).completed = c.completed := by
  unfold quicConnQueueAck
  split
  · split <;> exact sendShortPacket_kept env c _
  · exact ⟨rfl, rfl⟩

theorem connStep_completed {fuel : Nat} {c c' : PacketConn} {call : PacketEnv × ConnCall} (h : connStep fuel c call = some c') :
    (c'.stream = c.stream ∧ c'.completed = c.completed ∧ ConnCallOk c call) ∨
    ∃ env streamCall, call = (env, .stream streamCall) ∧ c'.stream = streamStep (connQueueFn env c) c.stream streamCall ∧
      c'.completed = c.completed ++ (completes (connQueueFn env c) c.stream streamCall).map (fun d => ⟨d.1, d.2, c.acked⟩) := by
  obtain ⟨env, call⟩ := call
  cases call with
  | stream call =>
    refine .inr ⟨env, call, rfl, ?_⟩
    rw [← Option.some.inj h]
    exact ⟨rfl, rfl⟩
  | recovery call =>
    obtain ⟨recovery, -, rfl⟩ := Option.map_eq_some_iff.1 h
    exact .inl ⟨rfl, rfl, trivial⟩
  | sendPayload =>
    have hkept := sendShortPacket_kept env c c.payload
    rw [← Option.some.inj h]
    exact .inl ⟨hkept.1, hkept.2, trivial⟩
  | flushPacket =>
    have hkept := flushPacket_kept env c
    rw [← Option.some.inj h]
    exact .inl ⟨hkept.1, hkept.2, trivial⟩
  | queueFrames frames =>
    have hkept := queueFrames_kept env c frames
    rw [← Option.some.inj h]
    exact .inl ⟨hkept.1, hkept.2, trivial⟩
  | queueAck ack =>
    have hkept := queueAck_kept env c ack
    rw [← Option.some.inj h]
    exact .inl ⟨hkept.1, hkept.2, trivial⟩
  | sendImmediate payload =>
    have hkept := sendShortPacket_kept env c payload
    rw [← Option.some.inj h]
    exact .inl ⟨hkept.1, hkept.2, trivial⟩

theorem connStep_successMeansAcked {fuel : Nat} {c c' : PacketConn} {call : PacketEnv × ConnCall}
    (hc : SuccessMeansAcked c) (h : connStep fuel c call = some c') : SuccessMeansAcked c' ↔ ConnCallOk c call := by
  obtain ⟨hstream, hcompleted, hok⟩ | ⟨env, streamCall, rfl, hstream, hcompleted⟩ := connStep_completed h
  · refine iff_of_true ⟨?_, ?_⟩ hok
    · rw [hstream, hcompleted]
      exact hc.listed
    · rw [hcompleted]
      exact hc.acked
  · have hlisted : successes c'.stream.trace = c'.completed.map (fun d => (d.streamId, d.req.userData)) := by
      rw [hstream, hcompleted, streamStep_successes, hc.listed, List.map_append, List.map_map]
      rfl
    have hnew : (∀ d ∈ c'.completed, ReqAcked d.acked d.streamId d.req) ↔
        ∀ d ∈ completes (connQueueFn env c) c.stream streamCall, ReqAcked c.acked d.1 d.2 := by
      rw [hcompleted, List.forall_mem_append, List.forall_mem_map]
      exact and_iff_right hc.acked
    constructor
    · intro hc'
      exact (streamCallOk_iff _ _ _ _).2 (hnew.1 hc'.acked)
    · intro hok
      exact ⟨hlisted, hnew.2 ((streamCallOk_iff _ _ _ _).1 hok)⟩

/-! ## Runs -/

/-- A write of one byte on a new stream, and a flush before any packet has left. -/
def unsentCalls : List (PacketEnv × ConnCall) := [({}, .stream (.transportParams [0x04, 1, 10, 0x07, 1, 10])),
  ({}, .stream .openUni),
  ({}, .stream (.send (.write 3 [7] false (some 1) 0 0))),
  ({}, .stream (.send (.flushPending 0)))]

end MoqLiveCast
