import MoqLiveCast.Quic.StreamRecvFin
/-!
# StreamRecvSize — the final size of a stream the peer sends

A frame with FIN sets `final_size` before anything is compared with it, and nothing is compared with it later: what the
peer sends decides whether it stays.
-/
namespace MoqLiveCast

/-! ## What a frame can contradict -/

/-- The frame ends past the final size `n`, or has FIN elsewhere. -/
def Conflicts (n : Nat) (f : StreamFrame) : Prop := n < f.stop ∨ f.fin = true ∧ f.stop ≠ n

theorem conflicts_iff {n : Nat} {f : StreamFrame} : Conflicts n f ↔ ¬ FrameWithin n f := by
  unfold Conflicts FrameWithin
  rw [not_and_or, Nat.not_le, Classical.not_imp]

/-- A frame that keeps the final size: it does not contradict the one there is, and one it sets is at bytes that have
neither been delivered past it nor arrived. -/
def FinStepOk (s : QuicStream) (f : StreamFrame) : Prop :=
  (s.finRecvd = true → FrameWithin s.finalSize f) ∧ (f.fin = true → s.recvOffset ≤ f.stop ∧ ¬ Range.Covers s.gapTable.gaps f.stop)

instance (l : List Range) (i : Nat) : Decidable (Range.Covers l i) :=
  inferInstanceAs (Decidable (∃ g ∈ l, g.offset ≤ i ∧ i < g.stop))

instance (n : Nat) (f : StreamFrame) : Decidable (FrameWithin n f) := inferInstanceAs (Decidable (_ ∧ _))

instance (s : QuicStream) (f : StreamFrame) : Decidable (FinStepOk s f) := inferInstanceAs (Decidable (_ ∧ _))

instance (w : RecvRun) (f : StreamFrame) : Decidable (RecvOk FinStepOk w f) := inferInstanceAs (Decidable (_ → _))

/-- Not more is delivered than `recv_offset`, and neither that nor a range reaches past a final size. -/
structure SizeKept (s : QuicStream) (d : List (List (Option Byte) × Bool)) : Prop where
  length : (d.flatMap Prod.fst).length ≤ s.recvOffset
  within : s.finRecvd = true → s.recvOffset ≤ s.finalSize ∧ ¬ Range.Covers s.gapTable.gaps s.finalSize

theorem FreshRecv.sizeKept {s : QuicStream} (h : FreshRecv s) : SizeKept s [] := by
  refine ⟨Nat.zero_le _, fun hf => ?_⟩
  rw [h.finRecvd] at hf
  cases hf

/-! ## A call -/

section Frame

variable {q : QueueFn} {f : StreamFrame} {s : QuicStream} {ctx : QuicStreamCtx}

theorem noteFin_sizeKept {d : List (List (Option Byte) × Bool)} (hok : FinStepOk s f) (h : SizeKept s d) :
    SizeKept (noteFin f s) d ∧ ((noteFin f s).finRecvd = true → f.stop ≤ (noteFin f s).finalSize) := by
  unfold noteFin
  cases hfin : f.fin
  · exact ⟨h, fun hf => (hok.1 hf).1⟩
  · obtain ⟨hoff, hcov⟩ := hok.2 hfin
    exact ⟨⟨h.length, fun _ => ⟨hoff, hcov⟩⟩, fun _ => Nat.le_refl _⟩

theorem SizeKept.outOfOrder (hstop : s.finRecvd = true → f.stop ≤ s.finalSize) (sid : Nat) (h : SizeKept s (streamData sid
    ctx.trace)) : SizeKept (recvOutOfOrder q f s ctx).1 (streamData sid (recvOutOfOrder q f s ctx).2.trace) := by
  obtain ⟨⟨m, hm⟩, hq⟩ := recvOutOfOrder_spec q f s ctx
  rw [hm, hq.data]
  refine ⟨h.length, fun hf => ⟨(h.within hf).1, fun hcov => ?_⟩⟩
  have hle := hstop hf
  unfold StreamFrame.stop at hle
  rcases gapInsert_covers hcov with hnew | hold
  · have := hnew.2
    dsimp only [bufferFrame] at this
    omega
  · exact (h.within hf).2 hold

theorem SizeKept.drainOne {g : QuicStreamGap} {t : List QuicStreamGap} (hg : s.gapTable.gaps = g :: t)
    (hle : g.offset ≤ s.recvOffset) (hon : ctx.onStreamData = true) (h : SizeKept s (streamData s.streamId ctx.trace)) :
    SizeKept (gapDrainOne g s ctx).1 (streamData s.streamId (gapDrainOne g s ctx).2.trace) := by
  have hpop : ∀ i, Range.Covers s.gapTable.pop.gaps i → Range.Covers s.gapTable.gaps i := fun i hi => by
    rw [hg, Range.covers_cons]
    exact .inr (by simpa [GapTable.pop, hg] using hi)
  have hstop : s.finRecvd = true → g.stop ≤ s.finalSize := fun hf => by
    obtain ⟨hoff, hcov⟩ := h.within hf
    by_contra hlt
    refine hcov ?_
    rw [hg, Range.covers_cons]
    exact .inl ⟨Nat.le_trans hle hoff, Nat.lt_of_not_le hlt⟩
  unfold gapDrainOne
  split
  · rename_i hlt
    refine ⟨?_, fun hf => ⟨hstop hf, fun hc => (h.within hf).2 (hpop _ hc)⟩⟩
    have hlen := h.length
    cases hbuf : s.recvBuf with
    | some buf =>
      dsimp only
      rw [streamData_deliver (by exact hon), if_pos rfl, List.flatMap_append, List.flatMap_singleton, List.length_append,
        Mem.read, slice_length, QuicStreamCtx.addRecvd_trace]
      omega
    | none => exact Nat.le_trans hlen (Nat.le_of_lt hlt)
  · exact ⟨h.length, fun hf => ⟨(h.within hf).1, fun hc => (h.within hf).2 (hpop _ hc)⟩⟩

theorem SizeKept.drain (hon : ctx.onStreamData = true) (h : SizeKept s (streamData s.streamId ctx.trace)) :
    SizeKept (gapDrain s ctx).1 (streamData s.streamId (gapDrain s ctx).2.trace) :=
  gapDrain_kept (fun hg hle hon h => h.drainOne hg hle hon) hon h

theorem SizeKept.deliver (hle : f.offset ≤ s.recvOffset) (hstop : s.finRecvd = true → f.stop ≤ s.finalSize)
    (hon : ctx.onStreamData = true) (h : SizeKept s (streamData s.streamId ctx.trace)) :
    SizeKept (recvDeliver f s ctx).1 (streamData s.streamId (recvDeliver f s ctx).2.trace) := by
  unfold recvDeliver
  split
  · rename_i hlt
    refine SizeKept.drain (s := { s with recvOffset := f.stop, recvBufLen := max s.recvBufLen f.stop })
      ((deliver_onStreamData _ _ _ _).trans hon) ⟨?_, fun hf => ⟨hstop hf, (h.within hf).2⟩⟩
    have hlen := h.length
    rw [streamData_deliver (by exact hon), if_pos rfl, List.flatMap_append, List.flatMap_singleton, List.length_append,
      List.length_map, List.length_drop, QuicStreamCtx.addRecvd_trace]
    unfold StreamFrame.stop at hlt ⊢
    dsimp only
    omega
  · exact h

theorem SizeKept.inOrder (hle : f.offset ≤ s.recvOffset) (hstop : s.finRecvd = true → f.stop ≤ s.finalSize)
    (hon : ctx.onStreamData = true) (h : SizeKept s (streamData s.streamId ctx.trace)) :
    SizeKept (recvInOrder q f s ctx).1 (streamData s.streamId (recvInOrder q f s ctx).2.trace) := by
  obtain ⟨m, ctx', he, hq⟩ := recvInOrder_spec q f s ctx
  have hd := h.deliver hle hstop hon
  have hl := recvDeliver_local f s ctx
  rw [he]
  unfold recvFin
  split
  · refine ⟨?_, hd.within⟩
    have hon' : ctx'.onStreamData = true := hq.onStreamData.trans (hl.2.onStreamData.trans hon)
    rw [streamData_deliver hon', List.flatMap_append, hq.data]
    split <;> simpa using hd.length
  · rw [hq.data]
    exact ⟨hd.length, hd.within⟩

theorem SizeKept.frame (hok : FinStepOk s f) (hon : ctx.onStreamData = true) (h : SizeKept s (streamData s.streamId ctx.trace)) :
    SizeKept (recvFrame q f s ctx).1 (streamData s.streamId (recvFrame q f s ctx).2.trace) := by
  have hid := noteFin_id f s
  obtain ⟨hn, hstop⟩ := noteFin_sizeKept hok h
  rw [← hid] at hn
  unfold recvFrame
  dsimp only
  split
  · exact (hid ▸ hn).outOfOrder hstop s.streamId
  · rename_i hle
    have := hn.inOrder (q := q) (Nat.le_of_not_lt hle) hstop hon
    rwa [hid] at this

theorem gapDrain_final (s : QuicStream) (ctx : QuicStreamCtx) :
    (gapDrain s ctx).1.finRecvd = s.finRecvd ∧ (gapDrain s ctx).1.finalSize = s.finalSize := by
  refine (gapDrainLoop_inv (fun s' _ => s'.finRecvd = s.finRecvd ∧ s'.finalSize = s.finalSize)
    (fun s' ctx' g t _ _ h => ?_) _ s ctx (Nat.le_refl _) ⟨rfl, rfl⟩).1
  unfold gapDrainOne
  split <;> exact h

theorem recvFrame_final (q : QueueFn) (f : StreamFrame) (s : QuicStream) (ctx : QuicStreamCtx) :
    (recvFrame q f s ctx).1.finRecvd = (noteFin f s).finRecvd ∧ (recvFrame q f s ctx).1.finalSize = (noteFin f s).finalSize := by
  have hdeliver : ∀ t : QuicStream, (recvDeliver f t ctx).1.finRecvd = t.finRecvd ∧
      (recvDeliver f t ctx).1.finalSize = t.finalSize := fun t => by
    unfold recvDeliver
    split
    · exact gapDrain_final { t with recvOffset := f.stop, recvBufLen := max t.recvBufLen f.stop } _
    · exact ⟨rfl, rfl⟩
  unfold recvFrame
  dsimp only
  split
  · obtain ⟨⟨m, hm⟩, -⟩ := recvOutOfOrder_spec q f (noteFin f s) ctx
    rw [hm]
    exact ⟨rfl, rfl⟩
  · obtain ⟨m, ctx', he, -⟩ := recvInOrder_spec q f (noteFin f s) ctx
    rw [he]
    unfold recvFin
    split <;> exact hdeliver (noteFin f s)

end Frame

/-! ## Runs -/

/-- The call returns `-1` and changes nothing of its stream. -/
def Refused (q : QueueFn) (ctx : QuicStreamCtx) (f : StreamFrame) : Prop :=
  let r := quicStreamOnRecv q ctx f
  r.1 = -1 ∧ r.2.bytesRecvd = ctx.bytesRecvd ∧ delivered f.streamId r.2.trace = delivered f.streamId ctx.trace ∧
    ∃ s s', streamFind ctx f.streamId = some s ∧ streamFind r.2 f.streamId = some s' ∧
      s'.finalSize = s.finalSize ∧ s'.recvOffset = s.recvOffset ∧ s'.gapTable = s.gapTable

/-- **Once FIN has fixed the final size of a stream** it stays, no byte at or after it is delivered, and a frame that
contradicts it is refused. -/
def FinalSizeFixed (q : QueueFn) (st : RecvStart) (fs : List StreamFrame) : Prop :=
  ∀ pre mid post sid s, fs = pre ++ (mid ++ post) → streamFind (recvRun q st pre).ctx sid = some s → s.finRecvd = true →
    let ctx := (recvRun q st (pre ++ mid)).ctx
    (∃ s', streamFind ctx sid = some s' ∧ s'.finRecvd = true ∧ s'.finalSize = s.finalSize) ∧
      (delivered sid ctx.trace).length ≤ s.finalSize ∧
      ∀ f ∈ post.head?, f.streamId = sid → Conflicts s.finalSize f → Refused q ctx f

section Runs

variable {q : QueueFn} {st : RecvStart} {fs : List StreamFrame}

theorem refused_of_rejects {ctx : QuicStreamCtx} {f : StreamFrame} {s : QuicStream}
    (hs : streamFind ctx f.streamId = some s) (h : ¬ RecvAccepts ctx f) : Refused q ctx f := by
  have hopen : recvOpen q ctx f.streamId = (s, ctx) := by
    unfold recvOpen streamFindOrCreate
    rw [hs]
    rfl
  unfold Refused
  rw [onRecv_rejects h, hopen]
  exact ⟨rfl, rfl, rfl, s, s, hs, hs, rfl, rfl, rfl⟩

def SizeIs (sid n : Nat) (w : RecvRun) : Prop :=
  ∃ s, streamFind w.ctx sid = some s ∧ s.finRecvd = true ∧ s.finalSize = n

theorem recvStep_sizeIs {sid n : Nat} {w : RecvRun} {f : StreamFrame} (hok : RecvOk FinStepOk w f)
    (h : SizeIs sid n w) : SizeIs sid n (recvStep q w f) := by
  obtain ⟨s, hs, hfin, hn⟩ := h
  by_cases hacc : RecvAccepts w.ctx f
  · obtain ⟨-, -, hfind, -⟩ := recvStep_accepts (q := q) hacc
    by_cases hsid : sid = f.streamId
    · subst hsid
      have hnew : streamOrNew w.ctx f.streamId = s := by
        unfold streamOrNew
        rw [hs, Option.getD_some]
      have hwithin := (hok hacc).1
      rw [hnew] at hwithin
      obtain ⟨h1, h2⟩ := recvFrame_final q f s (recvOpen q w.ctx f.streamId).2
      refine ⟨(recvResult q w f).1, by rw [hfind, if_pos rfl], ?_⟩
      unfold recvResult
      rw [hnew, h1, h2]
      unfold noteFin
      split
      · next hf => exact ⟨rfl, ((hwithin hfin).2 hf).trans hn⟩
      · exact ⟨hfin, hn⟩
    · exact ⟨s, by rw [hfind, if_neg hsid]; exact hs, hfin, hn⟩
  · obtain ⟨-, -, hfind, -⟩ := recvStep_rejects (q := q) hacc
    by_cases hsid : sid = f.streamId
    · subst hsid
      have hnew : streamOrNew w.ctx f.streamId = s := by
        unfold streamOrNew
        rw [hs, Option.getD_some]
      exact ⟨s, by rw [hfind, if_pos rfl, hnew], hfin, hn⟩
    · exact ⟨s, by rw [hfind, if_neg hsid]; exact hs, hfin, hn⟩

theorem recvRun_append (q : QueueFn) (st : RecvStart) (pre mid : List StreamFrame) :
    recvRun q st (pre ++ mid) = mid.foldl (recvStep q) (recvRun q st pre) := by
  unfold recvRun
  rw [List.foldl_append]

/-- **The final size is fixed in every run whose frames keep to it**: a taken frame does not contradict the final size
there is, and a final size it sets is not before bytes that have been delivered or at one that has arrived. -/
theorem finalSizeFixed_of_steps (q : QueueFn) (st : RecvStart) (fs : List StreamFrame)
    (hok : StepsOk (recvStep q) (RecvOk FinStepOk) st.run fs) : FinalSizeFixed q st fs := by
  intro pre mid post sid s hfs hs hfin ctx
  rw [hfs, stepsOk_append, stepsOk_append] at hok
  obtain ⟨hpre, hmid, hpost⟩ := hok
  have hkept : StreamsInv (fun _ => SizeKept) (recvRun q st (pre ++ mid)) :=
    recvRun_streams q _ FinStepOk (fun s h => h.sizeKept)
      (fun _ f s ctx hon hid _ hok h => by rw [← hid] at h ⊢; exact h.frame hok hon) st (pre ++ mid)
      ((stepsOk_append _ _ _ _ _).2 ⟨hpre, hmid⟩)
  have hsize : SizeIs sid s.finalSize (recvRun q st (pre ++ mid)) := by
    rw [recvRun_append]
    exact foldl_inv (recvStep q) (RecvOk FinStepOk) (SizeIs sid s.finalSize) (fun w f h hok => recvStep_sizeIs hok h) mid _
      ⟨s, hs, hfin, rfl⟩ hmid
  obtain ⟨s', hs', hfin', hn'⟩ := hsize
  have hinv := hkept.found sid s' hs'
  refine ⟨⟨s', hs', hfin', hn'⟩, ?_, ?_⟩
  · rw [← hn']
    exact Nat.le_trans hinv.length (hinv.within hfin').1
  · rintro f hf rfl hconf
    cases post with
    | nil => cases hf
    | cons f' post =>
      cases hf
      refine refused_of_rejects hs' fun hacc => ?_
      rw [← recvRun, ← recvRun_append] at hpost
      have hstep := (hpost.1 hacc).1
      unfold streamOrNew at hstep
      rw [hs', Option.getD_some, hn'] at hstep
      exact conflicts_iff.1 hconf (hstep hfin')

end Runs

def finFirst : List StreamFrame := [secondByte true, firstByte false]

theorem finalSizeFixed_finFirst : FinalSizeFixed acceptAll serverStart finFirst :=
  finalSizeFixed_of_steps acceptAll serverStart finFirst (by decide)

def pastFin : List StreamFrame := [firstByte true, secondByte false]

theorem pastFin_taken : ¬ FinalSizeFixed acceptAll serverStart pastFin := by
  intro h
  have hsome : (streamFind (recvRun acceptAll serverStart [firstByte true]).ctx 0).map
      (fun s => (s.finRecvd, s.finalSize)) = some (true, 1) := by decide
  obtain ⟨s, hs, heq⟩ := Option.map_eq_some_iff.1 hsome
  injection heq with hfin hsize
  obtain ⟨-, -, hrefused⟩ := h [firstByte true] [] [secondByte false] 0 s rfl hs hfin
  have hret := (hrefused _ rfl rfl (.inl (by rw [hsize]; decide))).1
  revert hret
  decide

end MoqLiveCast
