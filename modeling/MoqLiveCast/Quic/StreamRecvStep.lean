import MoqLiveCast.Quic.StreamRecv
/-!
# StreamRecvStep — what a call of `quic_stream_on_recv` does

The data delivered for a stream is read off the trace (`streamData`).  A step that delivers nothing, receives nothing
and leaves the stream table alone is `Quiet`.  `onRecv_cases` says what a call can do: refuse the frame, or run
`recvFrame` on the stream it is for.
-/
namespace MoqLiveCast

/-! ## Delivered data -/

/-- The `on_stream_data` calls for one stream: the data and the FIN flag of each. -/
def streamData (sid : Nat) (tr : List Effect) : List (List (Option Byte) × Bool) :=
  tr.filterMap (fun e => match e with
    | .streamData id d fin => if id = sid then some (d, fin) else none
    | _ => none)

def delivered (sid : Nat) (tr : List Effect) : List (Option Byte) := (streamData sid tr).flatMap Prod.fst

def finCount (sid : Nat) (tr : List Effect) : Nat := (streamData sid tr).countP Prod.snd

theorem streamData_append (sid : Nat) (tr tr' : List Effect) :
    streamData sid (tr ++ tr') = streamData sid tr ++ streamData sid tr' := List.filterMap_append

variable (q : QueueFn)

@[simp] theorem streamData_queueFn (sid : Nat) (ctx : QuicStreamCtx) (f : Frame) :
    streamData sid (ctx.queueFn q f).trace = streamData sid ctx.trace := by
  simp [QuicStreamCtx.queueFn, streamData]

@[simp] theorem streamData_flushFn (sid : Nat) (ctx : QuicStreamCtx) :
    streamData sid ctx.flushFn.trace = streamData sid ctx.trace := by
  simp [QuicStreamCtx.flushFn, streamData]

theorem streamData_deliver {ctx : QuicStreamCtx} (h : ctx.onStreamData = true) (sid id : Nat)
    (d : List (Option Byte)) (fin : Bool) :
    streamData sid (ctx.deliver id d fin).trace = streamData sid ctx.trace ++ (if id = sid then [(d, fin)] else []) := by
  unfold QuicStreamCtx.deliver
  rw [if_pos h, QuicStreamCtx.call_trace, streamData_append]
  by_cases hid : id = sid <;> simp [streamData, hid]

variable (ctx : QuicStreamCtx)

@[simp] theorem deliver_streams (id : Nat) (d : List (Option Byte)) (fin : Bool) :
    (ctx.deliver id d fin).streams = ctx.streams := by
  unfold QuicStreamCtx.deliver; split <;> rfl

@[simp] theorem deliver_onStreamData (id : Nat) (d : List (Option Byte)) (fin : Bool) :
    (ctx.deliver id d fin).onStreamData = ctx.onStreamData := by
  unfold QuicStreamCtx.deliver; split <;> rfl

@[simp] theorem deliver_bytesRecvd (id : Nat) (d : List (Option Byte)) (fin : Bool) :
    (ctx.deliver id d fin).bytesRecvd = ctx.bytesRecvd := by
  unfold QuicStreamCtx.deliver; split <;> rfl

/-! ## Steps that deliver and receive nothing -/

structure Quiet (ctx ctx' : QuicStreamCtx) : Prop where
  streams : ctx'.streams = ctx.streams
  data : ∀ sid, streamData sid ctx'.trace = streamData sid ctx.trace
  onStreamData : ctx'.onStreamData = ctx.onStreamData
  bytesRecvd : ctx'.bytesRecvd = ctx.bytesRecvd

theorem Quiet.refl : Quiet ctx ctx := ⟨rfl, fun _ => rfl, rfl, rfl⟩

theorem Quiet.trans {a b c : QuicStreamCtx} (h1 : Quiet a b) (h2 : Quiet b c) : Quiet a c :=
  ⟨h2.streams.trans h1.streams, fun sid => (h2.data sid).trans (h1.data sid), h2.onStreamData.trans h1.onStreamData,
    h2.bytesRecvd.trans h1.bytesRecvd⟩

theorem Quiet.queueFn {ctx ctx' : QuicStreamCtx} (f : Frame) (h : Quiet ctx ctx') : Quiet ctx (ctx'.queueFn q f) :=
  h.trans ⟨rfl, fun sid => streamData_queueFn q sid ctx' f, rfl, rfl⟩

theorem Quiet.ite {a b c : QuicStreamCtx} (p : Prop) [Decidable p] (h1 : Quiet a b) (h2 : Quiet a c) :
    Quiet a (if p then b else c) := by
  split
  · exact h1
  · exact h2

theorem quiet_grantCredit (ctx : QuicStreamCtx) (bidi : Bool) : Quiet ctx (quicStreamGrantCredit q ctx bidi) := by
  unfold quicStreamGrantCredit
  refine Quiet.ite _ (Quiet.refl ctx) (Quiet.queueFn q _ ?_)
  exact Quiet.ite _ ⟨rfl, fun _ => rfl, rfl, rfl⟩ ⟨rfl, fun _ => rfl, rfl, rfl⟩

theorem quiet_notePeerStream (ctx : QuicStreamCtx) (sid : Nat) : Quiet ctx (quicStreamNotePeerStream q ctx sid) := by
  unfold quicStreamNotePeerStream
  refine Quiet.ite _ (Quiet.refl ctx) ?_
  have hcount : Quiet ctx (if decide (sid / 2 % 2 = 0) = true then { ctx with peerBidiOpened := ctx.peerBidiOpened + 1 }
      else { ctx with peerUniOpened := ctx.peerUniOpened + 1 }) :=
    Quiet.ite _ ⟨rfl, fun _ => rfl, rfl, rfl⟩ ⟨rfl, fun _ => rfl, rfl, rfl⟩
  exact Quiet.ite _ (hcount.trans (quiet_grantCredit q _ _)) hcount

theorem streamFcUpdate_spec (s : QuicStream) (ctx : QuicStreamCtx) :
    (∃ m, (streamFcUpdate q s ctx).1 = { s with recvMaxData := m }) ∧ Quiet ctx (streamFcUpdate q s ctx).2 := by
  have hconn : Quiet ctx (if sub64 ctx.maxDataLocal ctx.bytesRecvd < QUIC_STREAM_RECV_BUF_SIZE / 4 then
      { ctx with maxDataLocal := ctx.bytesRecvd + QUIC_STREAM_RECV_BUF_SIZE }.queueFn q
        (.maxData (ctx.bytesRecvd + QUIC_STREAM_RECV_BUF_SIZE))
      else ctx) :=
    Quiet.ite _ (Quiet.queueFn q _ ⟨rfl, fun _ => rfl, rfl, rfl⟩) (Quiet.refl ctx)
  unfold streamFcUpdate
  dsimp only
  split
  · exact ⟨⟨_, rfl⟩, hconn.queueFn q _⟩
  · exact ⟨⟨s.recvMaxData, rfl⟩, hconn⟩

theorem recvOutOfOrder_spec (f : StreamFrame) (s : QuicStream) (ctx : QuicStreamCtx) : (∃ m, (recvOutOfOrder q f s ctx).1 =
      { bufferFrame f s with
        gapTable := gapInsert s.gapTable f.offset f.data.length
        recvBufLen := max s.recvBufLen f.stop
        recvMaxData := m }) ∧
    Quiet (ctx.addRecvd f.data.length) (recvOutOfOrder q f s ctx).2 := by
  obtain ⟨⟨m, hm⟩, hq⟩ := streamFcUpdate_spec q
    { bufferFrame f s with
      gapTable := gapInsert s.gapTable f.offset f.data.length
      recvBufLen := max s.recvBufLen f.stop }
    (ctx.addRecvd f.data.length)
  exact ⟨⟨m, hm⟩, hq⟩

theorem recvInOrder_spec (f : StreamFrame) (s : QuicStream) (ctx : QuicStreamCtx) :
    ∃ m ctx', recvInOrder q f s ctx = recvFin { (recvDeliver f s ctx).1 with recvMaxData := m } ctx' ∧
      Quiet (recvDeliver f s ctx).2 ctx' := by
  obtain ⟨⟨m, hm⟩, hq⟩ := streamFcUpdate_spec q (recvDeliver f s ctx).1 (recvDeliver f s ctx).2
  refine ⟨m, _, ?_, hq⟩
  unfold recvInOrder
  dsimp only
  rw [hm]

theorem noteFin_recvOffset (f : StreamFrame) (s : QuicStream) : (noteFin f s).recvOffset = s.recvOffset := by
  unfold noteFin; split <;> rfl

theorem noteFin_gapTable (f : StreamFrame) (s : QuicStream) : (noteFin f s).gapTable = s.gapTable := by
  unfold noteFin; split <;> rfl

variable {f : StreamFrame}

theorem recvFrame_past {s : QuicStream} (h : s.recvOffset < f.offset)
    (ctx : QuicStreamCtx) : recvFrame q f s ctx = recvOutOfOrder q f (noteFin f s) ctx :=
  if_pos (by rw [noteFin_recvOffset]; exact h)

theorem recvFrame_inOrder {s : QuicStream} (h : f.offset ≤ s.recvOffset)
    (ctx : QuicStreamCtx) : recvFrame q f s ctx = recvInOrder q f (noteFin f s) ctx :=
  if_neg (by rw [noteFin_recvOffset]; exact Nat.not_lt.2 h)

/-! ## Draining -/

theorem gapDrainLoop_inv (P : QuicStream → QuicStreamCtx → Prop)
    (hone : ∀ s ctx g t, s.gapTable.gaps = g :: t → g.offset ≤ s.recvOffset → P s ctx →
      P (gapDrainOne g s ctx).1 (gapDrainOne g s ctx).2) :
    ∀ (n : Nat) (s : QuicStream) (ctx : QuicStreamCtx), s.gapTable.gaps.length ≤ n → P s ctx →
      P (gapDrainLoop n s ctx).1 (gapDrainLoop n s ctx).2 ∧
        ∀ g ∈ (gapDrainLoop n s ctx).1.gapTable.gaps.head?, (gapDrainLoop n s ctx).1.recvOffset < g.offset
  | 0, s, ctx, hn, h => by
    have hnil : s.gapTable.gaps = [] := List.length_eq_zero_iff.1 (Nat.le_zero.1 hn)
    exact ⟨h, fun g hg => by simp [gapDrainLoop, hnil] at hg⟩
  | n + 1, s, ctx, hn, h => by
    unfold gapDrainLoop
    split
    · rename_i hnil
      exact ⟨h, fun g hg => by simp [hnil] at hg⟩
    · rename_i g t hg
      split
      · rename_i hle
        refine gapDrainLoop_inv P hone n _ _ ?_ (hone s ctx g t hg hle h)
        have hpop : (gapDrainOne g s ctx).1.gapTable.gaps = t := by
          unfold gapDrainOne
          split <;> simp [GapTable.pop, hg]
        rw [hpop]
        rw [hg] at hn
        simpa using hn
      · rename_i hlt
        refine ⟨h, fun g' hg' => ?_⟩
        rw [hg] at hg'
        simp only [List.head?_cons, Option.mem_some_iff] at hg'
        rw [← hg']
        exact Nat.lt_of_not_le hlt

/-! ## The call -/

def streamOrNew (ctx : QuicStreamCtx) (sid : Nat) : QuicStream := (streamFind ctx sid).getD (newStream ctx sid)

theorem recvOpen_fst (ctx : QuicStreamCtx) (sid : Nat) : (recvOpen q ctx sid).1 = streamOrNew ctx sid := by
  unfold recvOpen streamOrNew streamFindOrCreate
  cases streamFind ctx sid <;> rfl

theorem quiet_recvOpen (ctx : QuicStreamCtx) (sid : Nat) : Quiet (streamFindOrCreate ctx sid).2 (recvOpen q ctx sid).2 := by
  show Quiet _ (if (streamFind ctx sid).isNone then _ else _)
  split
  · exact quiet_notePeerStream q _ sid
  · exact Quiet.refl _

theorem streamOrNew_id (sid : Nat) : (streamOrNew ctx sid).streamId = sid := by
  unfold streamOrNew
  cases h : streamFind ctx sid with
  | some s => exact streamFind_id h
  | none => rfl

def RecvAccepts (ctx : QuicStreamCtx) (f : StreamFrame) : Prop := f.stop ≤ (streamOrNew ctx f.streamId).recvMaxData

instance (ctx : QuicStreamCtx) (f : StreamFrame) : Decidable (RecvAccepts ctx f) :=
  inferInstanceAs (Decidable (_ ≤ _))

theorem onRecv_accepts {q : QueueFn} {ctx : QuicStreamCtx} (h : RecvAccepts ctx f) : quicStreamOnRecv q ctx f =
    (0, (setStream (recvFrame q f (streamOrNew ctx f.streamId) (recvOpen q ctx f.streamId).2).2 (recvFrame q f (streamOrNew ctx
    f.streamId) (recvOpen q ctx f.streamId).2).1).flushFn) := by
  unfold quicStreamOnRecv
  dsimp only
  rw [recvOpen_fst]
  exact if_neg (Nat.not_lt.2 h)

theorem onRecv_rejects {q : QueueFn} {ctx : QuicStreamCtx} (h : ¬ RecvAccepts ctx f) :
    quicStreamOnRecv q ctx f = (-1, (recvOpen q ctx f.streamId).2) := by
  unfold quicStreamOnRecv
  dsimp only
  rw [recvOpen_fst]
  exact if_pos (Nat.lt_of_not_le h)

theorem recvOpen_find (ctx : QuicStreamCtx) (sid sid' : Nat) : streamFind (recvOpen q ctx sid).2 sid' =
      if sid' = sid then some (streamOrNew ctx sid) else streamFind ctx sid' := by
  have hq := (quiet_recvOpen q ctx sid).streams
  unfold streamFind
  rw [hq]
  by_cases h : sid' = sid
  · subst h
    rw [if_pos rfl]
    have := streamFindOrCreate_find ctx sid'
    rw [← recvOpen_fst q]
    exact this
  · rw [if_neg h]
    exact streamFindOrCreate_find_ne ctx h

theorem recvOpen_data (ctx : QuicStreamCtx) (sid sid' : Nat) :
    streamData sid' (recvOpen q ctx sid).2.trace = streamData sid' ctx.trace := by
  rw [(quiet_recvOpen q ctx sid).data, streamFindOrCreate_trace]

theorem recvOpen_onStreamData (ctx : QuicStreamCtx) (sid : Nat) : (recvOpen q ctx sid).2.onStreamData = ctx.onStreamData := by
  rw [(quiet_recvOpen q ctx sid).onStreamData, streamFindOrCreate_onStreamData]

end MoqLiveCast
