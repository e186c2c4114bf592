import MoqLiveCast.Quic.StreamRecvCount
/-!
# StreamRecvLimit — `bytes_recvd` and `max_data_local`

The peer knows the connection limit of the transport parameters and of the MAX_DATA frames `queue_fn` accepted
(`advertised`).
-/
namespace MoqLiveCast

/-! ## What the peer is told -/

def raiseLimit (m : Nat) (e : Effect) : Nat :=
  match e with
  | .queueFrame (.maxData v) true => max m v
  | _ => m

/-- The connection limit the peer knows of: its transport parameter says 64 MiB. -/
def advertised (tr : List Effect) : Nat := tr.foldl raiseLimit QUIC_STREAM_RECV_BUF_SIZE

theorem advertised_append (tr : List Effect) (e : Effect) : advertised (tr ++ [e]) = raiseLimit (advertised tr) e := by
  unfold advertised
  rw [List.foldl_append]
  rfl

/-- Neither the local limit nor what the peer is told of it changes. -/
structure SameLimit (ctx ctx' : QuicStreamCtx) : Prop where
  maxDataLocal : ctx'.maxDataLocal = ctx.maxDataLocal
  advertised : advertised ctx'.trace = advertised ctx.trace

theorem SameLimit.refl (ctx : QuicStreamCtx) : SameLimit ctx ctx := ⟨rfl, rfl⟩

theorem SameLimit.trans {a b c : QuicStreamCtx} (h1 : SameLimit a b) (h2 : SameLimit b c) : SameLimit a c :=
  ⟨h2.maxDataLocal.trans h1.maxDataLocal, h2.advertised.trans h1.advertised⟩

theorem SameLimit.ite {a b c : QuicStreamCtx} (p : Prop) [Decidable p] (h1 : SameLimit a b) (h2 : SameLimit a c) :
    SameLimit a (if p then b else c) := by
  split
  · exact h1
  · exact h2

theorem sameLimit_deliver (ctx : QuicStreamCtx) (sid : Nat) (d : List (Option Byte)) (fin : Bool) :
    SameLimit ctx (ctx.deliver sid d fin) := by
  unfold QuicStreamCtx.deliver
  split
  · exact ⟨rfl, by rw [QuicStreamCtx.call_trace, advertised_append]; rfl⟩
  · exact SameLimit.refl ctx

theorem sameLimit_queueFn (q : QueueFn) (ctx : QuicStreamCtx) {f : Frame} (h : ∀ v, f ≠ .maxData v) :
    SameLimit ctx (ctx.queueFn q f) := by
  refine ⟨rfl, ?_⟩
  show advertised (ctx.trace ++ [_]) = _
  rw [advertised_append]
  cases f with
  | maxData v => exact absurd rfl (h v)
  | _ => rfl

theorem sameLimit_gapDrainOne (g : QuicStreamGap) (s : QuicStream) (ctx : QuicStreamCtx) :
    SameLimit ctx (gapDrainOne g s ctx).2 := by
  unfold gapDrainOne
  split
  · cases s.recvBuf with
    | some buf =>
      exact SameLimit.trans (b := ctx.addRecvd (g.stop - s.recvOffset)) ⟨rfl, rfl⟩ (sameLimit_deliver _ _ _ _)
    | none => exact ⟨rfl, rfl⟩
  · exact SameLimit.refl ctx

theorem sameLimit_recvDeliver (f : StreamFrame) (s : QuicStream) (ctx : QuicStreamCtx) :
    SameLimit ctx (recvDeliver f s ctx).2 := by
  unfold recvDeliver
  split
  · refine SameLimit.trans (b := (ctx.addRecvd (f.stop - s.recvOffset)).deliver s.streamId
      ((f.data.drop (s.recvOffset - f.offset)).map some) false)
      (SameLimit.trans (b := ctx.addRecvd (f.stop - s.recvOffset)) ⟨rfl, rfl⟩ (sameLimit_deliver _ _ _ _)) ?_
    exact (gapDrainLoop_inv (fun _ ctx' => SameLimit _ ctx')
      (fun s' ctx' g t _ _ h => h.trans (sameLimit_gapDrainOne g s' ctx')) _ _ _ (Nat.le_refl _)
      (SameLimit.refl _)).1
  · exact SameLimit.refl ctx

theorem sameLimit_grantCredit (q : QueueFn) (ctx : QuicStreamCtx) (bidi : Bool) :
    SameLimit ctx (quicStreamGrantCredit q ctx bidi) := by
  unfold quicStreamGrantCredit
  refine SameLimit.ite _ (SameLimit.refl ctx) (SameLimit.trans ?_ (sameLimit_queueFn q _ (fun _ h => by cases h)))
  exact SameLimit.ite _ ⟨rfl, rfl⟩ ⟨rfl, rfl⟩

theorem sameLimit_recvOpen (q : QueueFn) (ctx : QuicStreamCtx) (sid : Nat) : SameLimit ctx (recvOpen q ctx sid).2 := by
  have hcreate : SameLimit ctx (streamFindOrCreate ctx sid).2 := by
    unfold streamFindOrCreate
    split <;> exact ⟨rfl, rfl⟩
  have hcount : ∀ c : QuicStreamCtx, SameLimit c (quicStreamNotePeerStream q c sid) := fun c => by
    unfold quicStreamNotePeerStream
    refine SameLimit.ite _ (SameLimit.refl c) ?_
    have hc : SameLimit c (if decide (sid / 2 % 2 = 0) = true then { c with peerBidiOpened := c.peerBidiOpened + 1 }
        else { c with peerUniOpened := c.peerUniOpened + 1 }) := SameLimit.ite _ ⟨rfl, rfl⟩ ⟨rfl, rfl⟩
    exact SameLimit.ite _ (hc.trans (sameLimit_grantCredit q _ _)) hc
  show SameLimit ctx (if (streamFind ctx sid).isNone then quicStreamNotePeerStream q (streamFindOrCreate ctx sid).2 sid
    else (streamFindOrCreate ctx sid).2)
  exact SameLimit.ite _ (hcreate.trans (hcount _)) hcreate

/-! ## `stream_fc_update` -/

/-- The count is inside the limit, which the peer has not been told more than. -/
structure InLimit (ctx : QuicStreamCtx) : Prop where
  bytes_le : ctx.bytesRecvd ≤ ctx.maxDataLocal
  window : ctx.maxDataLocal ≤ ctx.bytesRecvd + QUIC_STREAM_RECV_BUF_SIZE
  told : advertised ctx.trace ≤ ctx.maxDataLocal

theorem InLimit.of_same {ctx ctx' : QuicStreamCtx} (h : InLimit ctx) (hl : SameLimit ctx ctx')
    (hb : ctx'.bytesRecvd = ctx.bytesRecvd) : InLimit ctx' := by
  refine ⟨?_, ?_, ?_⟩
  · rw [hb, hl.maxDataLocal]; exact h.bytes_le
  · rw [hb, hl.maxDataLocal]; exact h.window
  · rw [hl.advertised, hl.maxDataLocal]; exact h.told

theorem InLimit.fcUpdate (q : QueueFn) (s : QuicStream) {ctx : QuicStreamCtx} (h : InLimit ctx) :
    InLimit (streamFcUpdate q s ctx).2 := by
  have hconn : InLimit (if sub64 ctx.maxDataLocal ctx.bytesRecvd < QUIC_STREAM_RECV_BUF_SIZE / 4 then
      { ctx with maxDataLocal := ctx.bytesRecvd + QUIC_STREAM_RECV_BUF_SIZE }.queueFn q
        (.maxData (ctx.bytesRecvd + QUIC_STREAM_RECV_BUF_SIZE))
      else ctx) := by
    obtain ⟨h1, h2, h3⟩ := h
    split
    · refine ⟨Nat.le_add_right _ _, Nat.le_refl _, ?_⟩
      show advertised (ctx.trace ++ [_]) ≤ ctx.bytesRecvd + QUIC_STREAM_RECV_BUF_SIZE
      rw [advertised_append]
      unfold raiseLimit
      split
      · rename_i v hv
        injection hv with hframe _
        injection hframe with hv
        omega
      · omega
    · exact ⟨h1, h2, h3⟩
  unfold streamFcUpdate
  dsimp only
  split
  · exact hconn.of_same (sameLimit_queueFn q _ (fun _ h => by cases h)) rfl
  · exact hconn

/-- The context a taken frame brings to `stream_fc_update`. -/
def fcContext (f : StreamFrame) (s : QuicStream) (ctx : QuicStreamCtx) : QuicStreamCtx :=
  if s.recvOffset < f.offset then ctx.addRecvd f.data.length else (recvDeliver f (noteFin f s) ctx).2

theorem recvFrame_fc (q : QueueFn) (f : StreamFrame) (s : QuicStream) (ctx : QuicStreamCtx) : ∃ s', recvFrame q f s ctx =
    streamFcUpdate q s' (fcContext f s ctx) ∨ recvFrame q f s ctx = recvFin (streamFcUpdate q s' (fcContext f s ctx)).1
    (streamFcUpdate q s' (fcContext f s ctx)).2 := by
  unfold fcContext
  by_cases hle : f.offset ≤ s.recvOffset
  · rw [recvFrame_inOrder q hle, if_neg (Nat.not_lt.2 hle)]
    exact ⟨_, Or.inr rfl⟩
  · rw [recvFrame_past q (Nat.lt_of_not_le hle), if_pos (Nat.lt_of_not_le hle)]
    exact ⟨_, Or.inl rfl⟩

theorem streamFcUpdate_bytes (q : QueueFn) (s : QuicStream) (ctx : QuicStreamCtx) :
    (streamFcUpdate q s ctx).2.bytesRecvd = ctx.bytesRecvd := (streamFcUpdate_spec q s ctx).2.bytesRecvd

theorem recvFrame_fcBytes (q : QueueFn) (f : StreamFrame) (s : QuicStream) (ctx : QuicStreamCtx) :
    (recvFrame q f s ctx).2.bytesRecvd = (fcContext f s ctx).bytesRecvd := by
  obtain ⟨s', he | he⟩ := recvFrame_fc q f s ctx
  · rw [he, streamFcUpdate_bytes]
  · rw [he]
    unfold recvFin
    split
    · rw [deliver_bytesRecvd, streamFcUpdate_bytes]
    · exact streamFcUpdate_bytes q _ _

theorem sameLimit_fcContext (f : StreamFrame) (s : QuicStream) (ctx : QuicStreamCtx) : SameLimit ctx (fcContext f s ctx) :=
  SameLimit.ite _ ⟨rfl, rfl⟩ (sameLimit_recvDeliver _ _ _)

theorem InLimit.frame (q : QueueFn) (f : StreamFrame) (s : QuicStream) {ctx : QuicStreamCtx}
    (h : InLimit (fcContext f s ctx)) : InLimit (recvFrame q f s ctx).2 := by
  obtain ⟨s', he | he⟩ := recvFrame_fc q f s ctx
  · rw [he]
    exact h.fcUpdate q s'
  · rw [he]
    unfold recvFin
    split
    · exact (h.fcUpdate q s').of_same (sameLimit_deliver _ _ _ _) (deliver_bytesRecvd _ _ _ _)
    · exact h.fcUpdate q s'

/-! ## Runs -/

def PeerRespects (w : RecvRun) (f : StreamFrame) : Prop :=
  RecvAccepts w.ctx f → offsetSum (w.accepted ++ [f]) ≤ advertised w.ctx.trace

/-- `max_data_local - bytes_recvd` does not wrap in the step's `stream_fc_update`. -/
def FcNoWrap (q : QueueFn) (w : RecvRun) (f : StreamFrame) : Prop :=
  RecvAccepts w.ctx f → (fcContext f (streamOrNew w.ctx f.streamId) (recvOpen q w.ctx f.streamId).2).bytesRecvd ≤
      (fcContext f (streamOrNew w.ctx f.streamId) (recvOpen q w.ctx f.streamId).2).maxDataLocal

/-- Every byte was counted once, and the count is inside the limit. -/
structure LimitInv (w : RecvRun) : Prop where
  count : CountInv w
  exact : w.ctx.bytesRecvd = distinctBytes w.accepted
  limit : InLimit w.ctx

theorem recvStep_limit (q : QueueFn) {w : RecvRun} (h : LimitInv w) (f : StreamFrame) (hok : StepCountsOnce w f)
    (hpeer : PeerRespects w f) : FcNoWrap q w f ∧ LimitInv (recvStep q w f) := by
  obtain ⟨hcount, n, hn, hiff⟩ := recvStep_count q h.count f
  rw [hiff.2 hok, h.exact] at hn
  have hexact : (recvStep q w f).ctx.bytesRecvd = distinctBytes (recvStep q w f).accepted := by omega
  have hopen := sameLimit_recvOpen q w.ctx f.streamId
  have hl := hopen.trans (sameLimit_fcContext f (streamOrNew w.ctx f.streamId) (recvOpen q w.ctx f.streamId).2)
  by_cases hacc : RecvAccepts w.ctx f
  · have hb := recvFrame_fcBytes q f (streamOrNew w.ctx f.streamId) (recvOpen q w.ctx f.streamId).2
    have hstep : (recvStep q w f).ctx.bytesRecvd =
        (fcContext f (streamOrNew w.ctx f.streamId) (recvOpen q w.ctx f.streamId).2).bytesRecvd := by
      rw [← hb, recvStep_ctx hacc]
      rfl
    have hle : distinctBytes (recvStep q w f).accepted ≤ w.ctx.maxDataLocal := by
      rw [(recvStep_accepts (q := q) hacc).1]
      exact Nat.le_trans (distinctBytes_le _) (Nat.le_trans (hpeer hacc) h.limit.told)
    have hgrow : w.ctx.bytesRecvd ≤ (recvStep q w f).ctx.bytesRecvd := by
      rw [hexact, h.exact, (recvStep_accepts (q := q) hacc).1, distinctBytes_append]
      exact Nat.le_add_right _ _
    have hfc : InLimit (fcContext f (streamOrNew w.ctx f.streamId) (recvOpen q w.ctx f.streamId).2) := by
      have hw := h.limit.window
      refine ⟨?_, ?_, ?_⟩
      · rw [hl.maxDataLocal, ← hstep, hexact]
        exact hle
      · rw [hl.maxDataLocal, ← hstep]
        omega
      · rw [hl.maxDataLocal, hl.advertised]
        exact h.limit.told
    refine ⟨fun _ => hfc.bytes_le, hcount, hexact, ?_⟩
    rw [recvStep_ctx hacc]
    refine (hfc.frame q).of_same ⟨rfl, ?_⟩ rfl
    show advertised (_ ++ [_]) = _
    rw [advertised_append]
    rfl
  · refine ⟨fun ha => absurd ha hacc, hcount, hexact, ?_⟩
    unfold recvStep
    rw [onRecv_rejects hacc]
    exact h.limit.of_same hopen (recvOpen_bytesRecvd q w.ctx f.streamId)

/-- **`bytes_recvd` counts the distinct bytes, and with it a peer inside its limits stays inside `max_data_local`,
exactly in the runs each step of which counts its bytes once.** -/
theorem bytesRecvd_counts_iff (q : QueueFn) (st : RecvStart) (hb : st.ctx.bytesRecvd = 0) (hm : st.ctx.maxDataLocal =
    QUIC_STREAM_RECV_BUF_SIZE) (fs : List StreamFrame) : ((recvRun q st fs).ctx.bytesRecvd = distinctBytes
    (recvRun q st fs).accepted ∧ (StepsOk (recvStep q) PeerRespects st.run fs → (recvRun q st fs).ctx.bytesRecvd ≤
    (recvRun q st fs).ctx.maxDataLocal ∧ StepsOk (recvStep q) (FcNoWrap q) st.run fs)) ↔ StepsOk (recvStep q) StepCountsOnce
    st.run fs := by
  refine ⟨fun h => (recvRun_count q st hb fs).1 h.1, fun hok => ⟨(recvRun_count q st hb fs).2 hok, fun hpeer => ?_⟩⟩
  have hstart : LimitInv st.run := by
    refine ⟨CountInv.start st, hb, ?_, ?_, ?_⟩
    · show st.ctx.bytesRecvd ≤ st.ctx.maxDataLocal
      omega
    · show st.ctx.maxDataLocal ≤ st.ctx.bytesRecvd + QUIC_STREAM_RECV_BUF_SIZE
      omega
    · show advertised st.ctx.trace ≤ st.ctx.maxDataLocal
      rw [st.trace, hm]
      exact Nat.le_refl _
  rw [stepsOk_iff] at hok hpeer
  have hreach : ∀ pre post, fs = pre ++ post → LimitInv (recvRun q st pre) := fun pre post hsplit =>
    foldl_inv (recvStep q) (fun w f => StepCountsOnce w f ∧ PeerRespects w f) LimitInv
      (fun w f h ho => (recvStep_limit q h f ho.1 ho.2).2) pre st.run hstart (by
        rw [stepsOk_iff]
        intro pre' f post' hpre
        have hs : fs = pre' ++ f :: (post' ++ post) := by rw [hsplit, hpre]; simp
        exact ⟨hok pre' f _ hs, hpeer pre' f _ hs⟩)
  refine ⟨(hreach fs [] (by simp)).limit.bytes_le, ?_⟩
  rw [stepsOk_iff]
  intro pre f post hsplit
  exact (recvStep_limit q (hreach pre (f :: post) hsplit) f (hok pre f post hsplit) (hpeer pre f post hsplit)).1

theorem bytesRecvd_counts_iff_swapped : ¬ StepsOk (recvStep acceptAll) StepCountsOnce serverStart.run swappedRun := by
  rw [← bytesRecvd_counts_iff acceptAll serverStart rfl rfl swappedRun]
  exact fun h => absurd h.1 (by decide)

/-- **Two bytes are counted as three**: the second one at its arrival and again when its range is drained. -/
theorem bytesRecvd_counts_twice : ¬ ∀ (q : QueueFn) (st : RecvStart), st.ctx.bytesRecvd = 0 →
    st.ctx.maxDataLocal = QUIC_STREAM_RECV_BUF_SIZE → ∀ fs, (recvRun q st fs).ctx.bytesRecvd = distinctBytes
    (recvRun q st fs).accepted :=
  fun h => absurd (h acceptAll serverStart rfl rfl swappedRun) (by decide)

end MoqLiveCast
