import MoqLiveCast.Lib.Run
import MoqLiveCast.Quic.StreamRecvStep
/-!
# StreamRecvRun — runs of `quic_stream_on_recv`

A run starts from a context no stream of which has received anything (`RecvStart`) and calls `quic_stream_on_recv` for
any frames of any streams; it records the frames the calls returned 0 for.  A call changes only the stream it is for
(`recvFrame_local`), so an invariant of one stream, its accepted frames and its deliveries that `recvFrame` keeps
holds of every stream in every state of a run (`recvRun_streams`).
-/
namespace MoqLiveCast

/-! ## A call is local to its stream -/

/-- No stream record is written, and data is delivered for the stream `sid` only. -/
structure LocalTo (sid : Nat) (ctx ctx' : QuicStreamCtx) : Prop where
  streams : ctx'.streams = ctx.streams
  onStreamData : ctx'.onStreamData = ctx.onStreamData
  data : ∀ sid', sid' ≠ sid → streamData sid' ctx'.trace = streamData sid' ctx.trace

theorem LocalTo.refl (sid : Nat) (ctx : QuicStreamCtx) : LocalTo sid ctx ctx := ⟨rfl, rfl, fun _ _ => rfl⟩

theorem LocalTo.trans {sid : Nat} {a b c : QuicStreamCtx} (h1 : LocalTo sid a b) (h2 : LocalTo sid b c) : LocalTo sid a c :=
  ⟨h2.streams.trans h1.streams, h2.onStreamData.trans h1.onStreamData, fun sid' h => (h2.data sid' h).trans (h1.data sid' h)⟩

theorem Quiet.local {sid : Nat} {a b : QuicStreamCtx} (h : Quiet a b) : LocalTo sid a b :=
  ⟨h.streams, h.onStreamData, fun sid' _ => h.data sid'⟩

theorem deliver_local (ctx : QuicStreamCtx) (sid : Nat) (d : List (Option Byte)) (fin : Bool) :
    LocalTo sid ctx (ctx.deliver sid d fin) := by
  refine ⟨deliver_streams ctx sid d fin, deliver_onStreamData ctx sid d fin, fun sid' h => ?_⟩
  unfold QuicStreamCtx.deliver
  split
  · rw [QuicStreamCtx.call_trace, streamData_append]
    simp [streamData, Ne.symm h]
  · rfl

theorem addRecvd_local (sid : Nat) (ctx : QuicStreamCtx) (n : Nat) : LocalTo sid ctx (ctx.addRecvd n) :=
  ⟨rfl, rfl, fun _ _ => rfl⟩

theorem gapDrainOne_local (g : QuicStreamGap) (s : QuicStream) (ctx : QuicStreamCtx) :
    (gapDrainOne g s ctx).1.streamId = s.streamId ∧ LocalTo s.streamId ctx (gapDrainOne g s ctx).2 := by
  unfold gapDrainOne
  split
  · refine ⟨rfl, (addRecvd_local _ ctx (g.stop - s.recvOffset)).trans ?_⟩
    cases s.recvBuf with
    | some buf => exact deliver_local _ _ _ _
    | none => exact LocalTo.refl _ _
  · exact ⟨rfl, LocalTo.refl _ _⟩

theorem gapDrain_local (s : QuicStream) (ctx : QuicStreamCtx) :
    (gapDrain s ctx).1.streamId = s.streamId ∧ LocalTo s.streamId ctx (gapDrain s ctx).2 := by
  refine (gapDrainLoop_inv (fun s' ctx' => s'.streamId = s.streamId ∧ LocalTo s.streamId ctx ctx')
    (fun s' ctx' g t _ _ h => ?_) _ s ctx (Nat.le_refl _) ⟨rfl, LocalTo.refl _ _⟩).1
  have h1 := gapDrainOne_local g s' ctx'
  rw [h.1] at h1
  exact ⟨h1.1, h.2.trans h1.2⟩

theorem gapDrain_kept {I : QuicStream → List (List (Option Byte) × Bool) → Prop} (hone : ∀ {s ctx g t}, s.gapTable.gaps = g :: t →
    g.offset ≤ s.recvOffset → ctx.onStreamData = true → I s (streamData s.streamId ctx.trace) → I (gapDrainOne g s ctx).1
    (streamData s.streamId (gapDrainOne g s ctx).2.trace)) {s : QuicStream} {ctx : QuicStreamCtx} (hon : ctx.onStreamData = true)
    (h : I s (streamData s.streamId ctx.trace)) : I (gapDrain s ctx).1 (streamData s.streamId (gapDrain s ctx).2.trace) := by
  have hrun := (gapDrainLoop_inv (fun s' ctx' => s'.streamId = s.streamId ∧ ctx'.onStreamData = true ∧
    I s' (streamData s.streamId ctx'.trace)) (fun s' ctx' g t hg hle h => ?_) _ s ctx (Nat.le_refl _) ⟨rfl, hon, h⟩).1
  · exact hrun.2.2
  · obtain ⟨hid, hon', hs⟩ := h
    have hl := gapDrainOne_local g s' ctx'
    rw [← hid] at hs ⊢
    exact ⟨hl.1, hl.2.onStreamData.trans hon', hone hg hle hon' hs⟩

theorem recvDeliver_local (f : StreamFrame) (s : QuicStream) (ctx : QuicStreamCtx) :
    (recvDeliver f s ctx).1.streamId = s.streamId ∧ LocalTo s.streamId ctx (recvDeliver f s ctx).2 := by
  unfold recvDeliver
  split
  · have h := gapDrain_local { s with recvOffset := f.stop, recvBufLen := max s.recvBufLen f.stop }
      ((ctx.addRecvd (f.stop - s.recvOffset)).deliver s.streamId ((f.data.drop (s.recvOffset - f.offset)).map some) false)
    exact ⟨h.1, ((addRecvd_local _ ctx _).trans (deliver_local _ _ _ _)).trans h.2⟩
  · exact ⟨rfl, LocalTo.refl _ _⟩

theorem recvFin_local (s : QuicStream) (ctx : QuicStreamCtx) :
    (recvFin s ctx).1.streamId = s.streamId ∧ LocalTo s.streamId ctx (recvFin s ctx).2 := by
  unfold recvFin
  split
  · exact ⟨rfl, deliver_local _ _ _ _⟩
  · exact ⟨rfl, LocalTo.refl _ _⟩

theorem noteFin_id (f : StreamFrame) (s : QuicStream) : (noteFin f s).streamId = s.streamId := by
  unfold noteFin; split <;> rfl

theorem recvFrame_local (q : QueueFn) (f : StreamFrame) (s : QuicStream) (ctx : QuicStreamCtx) :
    (recvFrame q f s ctx).1.streamId = s.streamId ∧ LocalTo s.streamId ctx (recvFrame q f s ctx).2 := by
  have hid := noteFin_id f s
  unfold recvFrame
  dsimp only
  split
  · obtain ⟨⟨m, hm⟩, hq⟩ := recvOutOfOrder_spec q f (noteFin f s) ctx
    exact ⟨by rw [hm]; exact hid, (addRecvd_local _ ctx _).trans hq.local⟩
  · obtain ⟨m, ctx', he, hq⟩ := recvInOrder_spec q f (noteFin f s) ctx
    have h1 := recvDeliver_local f (noteFin f s) ctx
    have h2 := recvFin_local { (recvDeliver f (noteFin f s) ctx).1 with recvMaxData := m } ctx'
    rw [show ({ (recvDeliver f (noteFin f s) ctx).1 with recvMaxData := m } : QuicStream).streamId = s.streamId from
      h1.1.trans hid] at h2
    rw [hid] at h1
    rw [he]
    exact ⟨h2.1, h1.2.trans (hq.local.trans h2.2)⟩

/-! ## Runs -/

structure FreshRecv (s : QuicStream) : Prop where
  recvOffset : s.recvOffset = 0
  gaps : s.gapTable.gaps = []
  recvBuf : s.recvBuf = none
  finRecvd : s.finRecvd = false

theorem newStream_fresh (ctx : QuicStreamCtx) (sid : Nat) : FreshRecv (newStream ctx sid) := ⟨rfl, rfl, rfl, rfl⟩

/-- A context before any frame arrives: `on_stream_data` is set, and no stream it holds has received anything. -/
structure RecvStart where
  ctx : QuicStreamCtx
  onStreamData : ctx.onStreamData = true
  trace : ctx.trace = []
  fresh : ∀ s ∈ ctx.streams, FreshRecv s

/-- The context of a run and the frames its calls returned 0 for. -/
structure RecvRun where
  ctx : QuicStreamCtx
  accepted : List StreamFrame

def RecvStart.run (st : RecvStart) : RecvRun := ⟨st.ctx, []⟩

def recvStep (q : QueueFn) (w : RecvRun) (f : StreamFrame) : RecvRun :=
  let r := quicStreamOnRecv q w.ctx f
  ⟨r.2, if r.1 = 0 then w.accepted ++ [f] else w.accepted⟩

def recvRun (q : QueueFn) (st : RecvStart) (fs : List StreamFrame) : RecvRun := fs.foldl (recvStep q) st.run

def framesOf (sid : Nat) (fs : List StreamFrame) : List StreamFrame := fs.filter (fun f => f.streamId = sid)

theorem framesOf_append_self (fs : List StreamFrame) (f : StreamFrame) :
    framesOf f.streamId (fs ++ [f]) = framesOf f.streamId fs ++ [f] := by
  simp [framesOf, List.filter_append]

theorem framesOf_append_ne (fs : List StreamFrame) {f : StreamFrame} {sid : Nat} (h : sid ≠ f.streamId) :
    framesOf sid (fs ++ [f]) = framesOf sid fs := by
  simp [framesOf, List.filter_append, Ne.symm h]

/-- An invariant of one stream: its accepted frames, its record and its deliveries. -/
abbrev StreamInv := List StreamFrame → QuicStream → List (List (Option Byte) × Bool) → Prop

/-- The invariant holds of every stream, and nothing was received for an id without a stream. -/
structure StreamsInv (I : StreamInv) (w : RecvRun) : Prop where
  onStreamData : w.ctx.onStreamData = true
  found : ∀ sid s, streamFind w.ctx sid = some s → I (framesOf sid w.accepted) s (streamData sid w.ctx.trace)
  absent : ∀ sid, streamFind w.ctx sid = none → framesOf sid w.accepted = [] ∧ streamData sid w.ctx.trace = []

theorem StreamsInv.start {I : StreamInv} (hnew : ∀ s, FreshRecv s → I [] s []) (st : RecvStart) : StreamsInv I st.run := by
  have ht : ∀ sid, streamData sid st.run.ctx.trace = [] := fun sid => by
    show streamData sid st.ctx.trace = []
    rw [st.trace]
    rfl
  exact ⟨st.onStreamData, fun sid s h => by rw [ht]; exact hnew s (st.fresh s (lookup_mem _ h)),
    fun sid _ => ⟨rfl, ht sid⟩⟩

theorem StreamsInv.orNew {I : StreamInv} (hnew : ∀ s, FreshRecv s → I [] s []) {w : RecvRun} (h : StreamsInv I w)
    (sid : Nat) : I (framesOf sid w.accepted) (streamOrNew w.ctx sid) (streamData sid w.ctx.trace) := by
  unfold streamOrNew
  cases hf : streamFind w.ctx sid with
  | some s => exact h.found sid s hf
  | none =>
    obtain ⟨hfr, hd⟩ := h.absent sid hf
    rw [hfr, hd]
    exact hnew _ (newStream_fresh _ _)

/-! ## One step -/

abbrev recvResult (q : QueueFn) (w : RecvRun) (f : StreamFrame) : QuicStream × QuicStreamCtx :=
  recvFrame q f (streamOrNew w.ctx f.streamId) (recvOpen q w.ctx f.streamId).2

theorem recvResult_local (q : QueueFn) (w : RecvRun) (f : StreamFrame) : (recvResult q w f).1.streamId = f.streamId ∧
    LocalTo f.streamId (recvOpen q w.ctx f.streamId).2 (recvResult q w f).2 := by
  have h := recvFrame_local q f (streamOrNew w.ctx f.streamId) (recvOpen q w.ctx f.streamId).2
  rwa [streamOrNew_id] at h

theorem recvStep_ctx {q : QueueFn} {w : RecvRun} {f : StreamFrame} (h : RecvAccepts w.ctx f) :
    (recvStep q w f).ctx = (setStream (recvResult q w f).2 (recvResult q w f).1).flushFn := by
  unfold recvStep; rw [onRecv_accepts h]

theorem recvStep_accepts {q : QueueFn} {w : RecvRun} {f : StreamFrame} (h : RecvAccepts w.ctx f) :
    (recvStep q w f).accepted = w.accepted ++ [f] ∧ (recvStep q w f).ctx.onStreamData = w.ctx.onStreamData ∧
    (∀ sid, streamFind (recvStep q w f).ctx sid = if sid = f.streamId then some (recvResult q w f).1 else streamFind w.ctx sid) ∧
    (∀ sid, streamData sid (recvStep q w f).ctx.trace =
      if sid = f.streamId then streamData sid (recvResult q w f).2.trace else streamData sid w.ctx.trace) := by
  obtain ⟨hid, hloc⟩ := recvResult_local q w f
  have hctx := recvStep_ctx (q := q) h
  have hstreams : ∀ sid, lookup QuicStream.streamId sid (recvResult q w f).2.streams =
      if sid = f.streamId then some (streamOrNew w.ctx f.streamId) else streamFind w.ctx sid := fun sid => by
    rw [hloc.streams]
    exact recvOpen_find q w.ctx f.streamId sid
  refine ⟨by unfold recvStep; rw [onRecv_accepts h]; rfl, ?_, fun sid => ?_, fun sid => ?_⟩
  · rw [hctx]
    exact hloc.onStreamData.trans (recvOpen_onStreamData q w.ctx f.streamId)
  · rw [hctx]
    show streamFind (setStream (recvResult q w f).2 (recvResult q w f).1) sid = _
    by_cases hs : sid = f.streamId
    · subst hs
      rw [if_pos rfl, ← hid]
      have hfind := hstreams (recvResult q w f).1.streamId
      rw [if_pos hid] at hfind
      exact streamFind_setStream_self hfind
    · rw [if_neg hs, streamFind_setStream_ne (by rw [hid]; exact hs)]
      have := hstreams sid
      rwa [if_neg hs] at this
  · rw [hctx, streamData_flushFn, setStream_trace]
    by_cases hs : sid = f.streamId
    · rw [if_pos hs]
    · rw [if_neg hs, hloc.data sid hs, recvOpen_data]

theorem recvStep_rejects {q : QueueFn} {w : RecvRun} {f : StreamFrame} (h : ¬ RecvAccepts w.ctx f) :
    (recvStep q w f).accepted = w.accepted ∧ (recvStep q w f).ctx.onStreamData = w.ctx.onStreamData ∧
    (∀ sid, streamFind (recvStep q w f).ctx sid =
      if sid = f.streamId then some (streamOrNew w.ctx f.streamId) else streamFind w.ctx sid) ∧
    (∀ sid, streamData sid (recvStep q w f).ctx.trace = streamData sid w.ctx.trace) := by
  unfold recvStep
  rw [onRecv_rejects h]
  exact ⟨by simp, recvOpen_onStreamData q w.ctx f.streamId, recvOpen_find q w.ctx f.streamId,
    recvOpen_data q w.ctx f.streamId⟩

theorem StreamsInv.update {I : StreamInv} {w w' : RecvRun} {id : Nat} {s' : QuicStream} (h : StreamsInv I w)
    (hon : w'.ctx.onStreamData = w.ctx.onStreamData)
    (hfind : ∀ sid, streamFind w'.ctx sid = if sid = id then some s' else streamFind w.ctx sid)
    (hself : I (framesOf id w'.accepted) s' (streamData id w'.ctx.trace))
    (hother : ∀ sid, sid ≠ id → framesOf sid w'.accepted = framesOf sid w.accepted ∧
      streamData sid w'.ctx.trace = streamData sid w.ctx.trace) : StreamsInv I w' := by
  refine ⟨hon.trans h.onStreamData, fun sid s hs => ?_, fun sid hs => ?_⟩
  · rw [hfind] at hs
    by_cases hsid : sid = id
    · subst hsid
      rw [if_pos rfl, Option.some.injEq] at hs
      rw [← hs]
      exact hself
    · obtain ⟨hframes, hdata⟩ := hother sid hsid
      rw [if_neg hsid] at hs
      rw [hframes, hdata]
      exact h.found sid s hs
  · rw [hfind] at hs
    by_cases hsid : sid = id
    · rw [if_pos hsid] at hs
      cases hs
    · obtain ⟨hframes, hdata⟩ := hother sid hsid
      rw [if_neg hsid] at hs
      rw [hframes, hdata]
      exact h.absent sid hs

section Inv

variable (q : QueueFn) (I : StreamInv) (ok : QuicStream → StreamFrame → Prop)

theorem recvStep_streams (hnew : ∀ s, FreshRecv s → I [] s []) (hframe : ∀ fs f s ctx, ctx.onStreamData = true → s.streamId =
    f.streamId → f.stop ≤ s.recvMaxData → ok s f → I fs s (streamData f.streamId ctx.trace) → I (fs ++ [f])
    (recvFrame q f s ctx).1 (streamData f.streamId (recvFrame q f s ctx).2.trace)) (w : RecvRun) (f : StreamFrame) (h :
    StreamsInv I w) (hok : RecvAccepts w.ctx f → ok (streamOrNew w.ctx f.streamId) f) : StreamsInv I (recvStep q w f) := by
  have hself := h.orNew hnew f.streamId
  by_cases hacc : RecvAccepts w.ctx f
  · obtain ⟨hfs, hon, hfind, hdata⟩ := recvStep_accepts (q := q) hacc
    have hstep := hframe (framesOf f.streamId w.accepted) f _ (recvOpen q w.ctx f.streamId).2
      ((recvOpen_onStreamData q w.ctx f.streamId).trans h.onStreamData) (streamOrNew_id w.ctx f.streamId) hacc (hok hacc)
      (by rw [recvOpen_data]; exact hself)
    refine h.update hon hfind ?_ fun sid hsid => ?_
    · rw [hfs, hdata, framesOf_append_self, if_pos rfl]
      exact hstep
    · rw [hfs, hdata, framesOf_append_ne _ hsid, if_neg hsid]
      exact ⟨rfl, rfl⟩
  · obtain ⟨hfs, hon, hfind, hdata⟩ := recvStep_rejects (q := q) hacc
    refine h.update hon hfind ?_ fun sid _ => ?_
    · rw [hfs, hdata]
      exact hself
    · rw [hfs, hdata]
      exact ⟨rfl, rfl⟩

/-- The condition of a step: a frame that is taken meets `ok` on its stream. -/
def RecvOk (w : RecvRun) (f : StreamFrame) : Prop := RecvAccepts w.ctx f → ok (streamOrNew w.ctx f.streamId) f

theorem recvRun_streams (hnew : ∀ s, FreshRecv s → I [] s []) (hframe : ∀ fs f s ctx, ctx.onStreamData = true → s.streamId =
    f.streamId → f.stop ≤ s.recvMaxData → ok s f → I fs s (streamData f.streamId ctx.trace) → I (fs ++ [f])
    (recvFrame q f s ctx).1 (streamData f.streamId (recvFrame q f s ctx).2.trace)) (st : RecvStart) (fs : List StreamFrame) (hok :
    StepsOk (recvStep q) (RecvOk ok) st.run fs) : StreamsInv I (recvRun q st fs) :=
  foldl_inv (recvStep q) (RecvOk ok) (StreamsInv I)
    (fun w f h hok => recvStep_streams q I ok hnew hframe w f h hok) fs st.run (StreamsInv.start hnew st) hok

end Inv
end MoqLiveCast
