import MoqLiveCast.Quic.StreamRecvStep
import MoqLiveCast.Quic.StreamSent
/-!
# StreamRecvApart — what a received frame leaves alone

A frame of the peer changes the receive side of its stream, `bytes_recvd` and `max_data_local`, and queues no STREAM
frame (`recvFrame_apart`).  `recvOpen_eq` says what comes before: the record is found or made, and a new one is noted.
-/
namespace MoqLiveCast

structure RecvApart (s : QuicStream) (ctx : QuicStreamCtx) (s' : QuicStream) (ctx' : QuicStreamCtx) : Prop where
  id : s'.streamId = s.streamId
  sendOffset : s'.sendOffset = s.sendOffset
  sendMaxData : s'.sendMaxData = s.sendMaxData
  same : ctx' = { ctx with trace := ctx'.trace, bytesRecvd := ctx'.bytesRecvd, maxDataLocal := ctx'.maxDataLocal }
  silent : Silent ctx.trace ctx'.trace

theorem RecvApart.refl (s : QuicStream) (ctx : QuicStreamCtx) : RecvApart s ctx s ctx :=
  ⟨rfl, rfl, rfl, rfl, Adds.refl _ _⟩

theorem RecvApart.trans {s s' s'' : QuicStream} {ctx ctx' ctx'' : QuicStreamCtx} (h1 : RecvApart s ctx s' ctx')
    (h2 : RecvApart s' ctx' s'' ctx'') : RecvApart s ctx s'' ctx'' := by
  refine ⟨h2.id.trans h1.id, h2.sendOffset.trans h1.sendOffset, h2.sendMaxData.trans h1.sendMaxData, ?_,
    h1.silent.trans h2.silent⟩
  have h := h2.same
  rw [h1.same] at h
  exact h

theorem silent_queueFn (q : QueueFn) (ctx : QuicStreamCtx) {f : Frame} (hf : ∀ b, streamEffect (.queueFrame f b) = none) :
    Silent ctx.trace (ctx.queueFn q f).trace := (Adds.refl _ _).call (hf _)

theorem RecvApart.queueFn {s s' : QuicStream} {ctx ctx' : QuicStreamCtx} (h : RecvApart s ctx s' ctx') (q : QueueFn)
    {f : Frame} (hf : ∀ b, streamEffect (.queueFrame f b) = none) : RecvApart s ctx s' (ctx'.queueFn q f) :=
  h.trans ⟨rfl, rfl, rfl, rfl, silent_queueFn q ctx' hf⟩

theorem deliver_apart (s : QuicStream) (ctx : QuicStreamCtx) (sid : Nat) (data : List (Option Byte)) (fin : Bool) :
    RecvApart s ctx s (ctx.deliver sid data fin) := by
  unfold QuicStreamCtx.deliver
  split
  · exact ⟨rfl, rfl, rfl, rfl, (Adds.refl _ _).call rfl⟩
  · exact RecvApart.refl s ctx

theorem gapDrainOne_apart (g : QuicStreamGap) (s : QuicStream) (ctx : QuicStreamCtx) :
    RecvApart s ctx (gapDrainOne g s ctx).1 (gapDrainOne g s ctx).2 := by
  have hcount : RecvApart s ctx { s with recvOffset := g.stop, gapTable := s.gapTable.pop }
      (ctx.addRecvd (g.stop - s.recvOffset)) := ⟨rfl, rfl, rfl, rfl, Adds.refl _ _⟩
  unfold gapDrainOne
  split
  · refine hcount.trans ?_
    cases s.recvBuf with
    | some buf => exact deliver_apart _ _ _ _ _
    | none => exact RecvApart.refl _ _
  · exact ⟨rfl, rfl, rfl, rfl, Adds.refl _ _⟩

theorem recvDeliver_apart (f : StreamFrame) (s : QuicStream) (ctx : QuicStreamCtx) :
    RecvApart s ctx (recvDeliver f s ctx).1 (recvDeliver f s ctx).2 := by
  have hcount : RecvApart s ctx { s with recvOffset := f.stop, recvBufLen := max s.recvBufLen f.stop }
      (ctx.addRecvd (f.stop - s.recvOffset)) := ⟨rfl, rfl, rfl, rfl, Adds.refl _ _⟩
  unfold recvDeliver
  split
  · refine (gapDrainLoop_inv (RecvApart s ctx) ?_ _ _ _ (Nat.le_refl _) (hcount.trans (deliver_apart _ _ _ _ _))).1
    intro s1 c1 g t _ _ h
    exact h.trans (gapDrainOne_apart g s1 c1)
  · exact RecvApart.refl s ctx

theorem streamFcUpdate_apart (q : QueueFn) (s : QuicStream) (ctx : QuicStreamCtx) :
    RecvApart s ctx (streamFcUpdate q s ctx).1 (streamFcUpdate q s ctx).2 := by
  have hconn : RecvApart s ctx s (if sub64 ctx.maxDataLocal ctx.bytesRecvd < QUIC_STREAM_RECV_BUF_SIZE / 4 then
      { ctx with maxDataLocal := ctx.bytesRecvd + QUIC_STREAM_RECV_BUF_SIZE }.queueFn q
        (.maxData (ctx.bytesRecvd + QUIC_STREAM_RECV_BUF_SIZE))
      else ctx) := by
    split
    · have hraise : RecvApart s ctx s { ctx with maxDataLocal := ctx.bytesRecvd + QUIC_STREAM_RECV_BUF_SIZE } :=
        ⟨rfl, rfl, rfl, rfl, Adds.refl _ _⟩
      exact hraise.queueFn q (fun _ => rfl)
    · exact RecvApart.refl s ctx
  unfold streamFcUpdate
  dsimp only
  generalize (if sub64 ctx.maxDataLocal ctx.bytesRecvd < QUIC_STREAM_RECV_BUF_SIZE / 4 then _ else ctx) = c at hconn ⊢
  split
  · have hraise : RecvApart s c { s with recvMaxData := s.recvOffset + QUIC_STREAM_RECV_BUF_SIZE } c :=
      ⟨rfl, rfl, rfl, rfl, Adds.refl _ _⟩
    exact hconn.trans (hraise.queueFn q (fun _ => rfl))
  · exact hconn

theorem recvFin_apart (s : QuicStream) (ctx : QuicStreamCtx) : RecvApart s ctx (recvFin s ctx).1 (recvFin s ctx).2 := by
  unfold recvFin
  split
  · have hknown : RecvApart s ctx { s with recvState := .sizeKnown } ctx := ⟨rfl, rfl, rfl, rfl, Adds.refl _ _⟩
    exact hknown.trans (deliver_apart _ _ _ _ _)
  · exact RecvApart.refl s ctx

theorem recvFrame_apart (q : QueueFn) (f : StreamFrame) (s : QuicStream) (ctx : QuicStreamCtx) :
    RecvApart s ctx (recvFrame q f s ctx).1 (recvFrame q f s ctx).2 := by
  have hfin : RecvApart s ctx (noteFin f s) ctx := by
    unfold noteFin
    split <;> exact ⟨rfl, rfl, rfl, rfl, Adds.refl _ _⟩
  unfold recvFrame
  dsimp only
  split
  · have hbuffer : ∀ (b : QuicStream) (t : GapTable) (n : Nat), RecvApart b ctx
        { bufferFrame f b with gapTable := t, recvBufLen := n } (ctx.addRecvd f.data.length) :=
      fun _ _ _ => ⟨rfl, rfl, rfl, rfl, Adds.refl _ _⟩
    exact (hfin.trans (hbuffer _ _ _)).trans (streamFcUpdate_apart q _ _)
  · exact ((hfin.trans (recvDeliver_apart f _ ctx)).trans (streamFcUpdate_apart q _ _)).trans (recvFin_apart _ _)

theorem recvOpen_eq (q : QueueFn) (ctx : QuicStreamCtx) (sid : Nat) : (recvOpen q ctx sid).2 =
      if (streamFind ctx sid).isSome then ctx
      else quicStreamNotePeerStream q { ctx with streams := ctx.streams ++ [newStream ctx sid] } sid := by
  unfold recvOpen streamFindOrCreate
  cases streamFind ctx sid <;> rfl

end MoqLiveCast
