import MoqLiveCast.Quic.StreamRecvSound
/-!
# StreamRecvFin — how often FIN is delivered

Every call that reaches the end of `quic_stream_on_recv` on a finished stream (`RecvDone`: `fin_recvd` is set and
`recv_offset` has reached `final_size`) delivers FIN, also when an earlier call has done so.
-/
namespace MoqLiveCast

def RecvDone (s : QuicStream) : Prop := s.finRecvd = true ∧ s.finalSize ≤ s.recvOffset

instance (s : QuicStream) : Decidable (RecvDone s) := inferInstanceAs (Decidable (_ ∧ _))

/-- The frame is one of a stream of `n` bytes. -/
def FrameWithin (n : Nat) (f : StreamFrame) : Prop := f.stop ≤ n ∧ (f.fin = true → f.stop = n)

/-- FIN only after `n` bytes, `k` bytes having been delivered before. -/
def FinAfter (n : Nat) : Nat → List (List (Option Byte) × Bool) → Prop
  | _, [] => True
  | k, x :: d => (x.2 = true → n ≤ k) ∧ FinAfter n (k + x.1.length) d

theorem finAfter_append (n : Nat) : ∀ (a b : List (List (Option Byte) × Bool)) (k : Nat),
    FinAfter n k (a ++ b) ↔ FinAfter n k a ∧ FinAfter n (k + (a.flatMap Prod.fst).length) b
  | [], b, k => by simp [FinAfter]
  | x :: a, b, k => by
    rw [List.cons_append, FinAfter, FinAfter, finAfter_append n a b, List.flatMap_cons, List.length_append,
      Nat.add_assoc, and_assoc]

/-! ## FIN deliveries of one call -/

variable {ctx : QuicStreamCtx}

theorem finCount_deliver (hon : ctx.onStreamData = true) (sid : Nat) (d : List (Option Byte))
    (fin : Bool) : finCount sid (ctx.deliver sid d fin).trace = finCount sid ctx.trace + fin.toNat := by
  unfold finCount
  rw [streamData_deliver hon, if_pos rfl, List.countP_append]
  cases fin <;> rfl

variable {s : QuicStream}

theorem gapDrain_data {P : List (List (Option Byte) × Bool) → Prop} (hP : ∀ l d, P l → P (l ++ [(d, false)])) (hon : ctx.onStreamData = true)
    (h : P (streamData s.streamId ctx.trace)) : P (streamData s.streamId (gapDrain s ctx).2.trace) := by
  refine gapDrain_kept (I := fun _ l => P l) (fun {s ctx g t} _ _ hon' hp => ?_) hon h
  unfold gapDrainOne
  split
  · cases s.recvBuf with
    | some buf =>
      show P (streamData s.streamId ((ctx.addRecvd _).deliver s.streamId _ false).trace)
      rw [streamData_deliver (by exact hon'), if_pos rfl]
      exact hP _ _ hp
    | none => exact hp
  · exact hp

variable {f : StreamFrame}

theorem recvDeliver_data {P : List (List (Option Byte) × Bool) → Prop} (hP : ∀ l d, P l → P (l ++ [(d, false)])) (hon : ctx.onStreamData = true)
    (h : P (streamData s.streamId ctx.trace)) : P (streamData s.streamId (recvDeliver f s ctx).2.trace) := by
  unfold recvDeliver
  split
  · refine gapDrain_data hP (s := { s with recvOffset := f.stop, recvBufLen := max s.recvBufLen f.stop })
      ((deliver_onStreamData _ _ _ _).trans hon) ?_
    rw [streamData_deliver (by exact hon), if_pos rfl]
    exact hP _ _ h
  · exact h

theorem finCount_recvDeliver (hon : ctx.onStreamData = true) :
    finCount s.streamId (recvDeliver f s ctx).2.trace = finCount s.streamId ctx.trace :=
  recvDeliver_data (P := fun l => l.countP Prod.snd = finCount s.streamId ctx.trace)
    (fun l d h => by rw [List.countP_append, h]; rfl) hon rfl

theorem recvFin_done (s : QuicStream) (ctx : QuicStreamCtx) : RecvDone (recvFin s ctx).1 ↔ RecvDone s := by
  unfold recvFin
  split <;> rfl

theorem finCount_recvFin (hon : ctx.onStreamData = true) :
    finCount s.streamId (recvFin s ctx).2.trace = finCount s.streamId ctx.trace + if RecvDone s then 1 else 0 := by
  by_cases hdone : RecvDone s
  · rw [if_pos hdone]
    have he : recvFin s ctx = ({ s with recvState := .sizeKnown }, ctx.deliver s.streamId [] true) := if_pos hdone
    rw [he]
    exact finCount_deliver hon _ _ _
  · rw [if_neg hdone]
    have he : recvFin s ctx = (s, ctx) := if_neg hdone
    rw [he]
    rfl

theorem finCount_recvFrame {q : QueueFn} (hon : ctx.onStreamData = true) :
    finCount s.streamId (recvFrame q f s ctx).2.trace = finCount s.streamId ctx.trace +
      if f.offset ≤ s.recvOffset ∧ RecvDone (recvFrame q f s ctx).1 then 1 else 0 := by
  have hid := noteFin_id f s
  by_cases hle : f.offset ≤ s.recvOffset
  · obtain ⟨m, ctx', he, hq⟩ := recvInOrder_spec q f (noteFin f s) ctx
    have hl := recvDeliver_local f (noteFin f s) ctx
    have hc : finCount s.streamId ctx'.trace = finCount s.streamId ctx.trace := by
      rw [← hid]
      refine Eq.trans ?_ (finCount_recvDeliver (f := f) hon)
      unfold finCount
      rw [hq.data]
    have hon' : ctx'.onStreamData = true := hq.onStreamData.trans (hl.2.onStreamData.trans hon)
    have hid' : (recvDeliver f (noteFin f s) ctx).1.streamId = s.streamId := hl.1.trans hid
    have hfin := finCount_recvFin (s := { (recvDeliver f (noteFin f s) ctx).1 with recvMaxData := m }) hon'
    rw [show ({ (recvDeliver f (noteFin f s) ctx).1 with recvMaxData := m } : QuicStream).streamId = s.streamId
      from hid', hc] at hfin
    simp only [recvFrame_inOrder q hle, he, hfin, recvFin_done, hle, true_and]
  · obtain ⟨-, hq⟩ := recvOutOfOrder_spec q f (noteFin f s) ctx
    rw [if_neg (fun h => hle h.1), recvFrame_past q (Nat.lt_of_not_le hle)]
    unfold finCount
    rw [hq.data]
    rfl

/-! ## The invariant -/

/-- A stream of `n` bytes: nothing past `n`, and FIN only after `n` bytes. -/
structure RecvWithin (n : Nat) (S : Nat → Byte) (s : QuicStream) (d : List (List (Option Byte) × Bool)) : Prop where
  sound : RecvSound S s d
  offset_le : s.recvOffset ≤ n
  gaps_lt : ∀ i, Range.Covers s.gapTable.gaps i → i < n
  finalSize : s.finRecvd = true → s.finalSize = n
  finAfter : FinAfter n 0 d

theorem FreshRecv.within {n : Nat} {S : Nat → Byte} (h : FreshRecv s) : RecvWithin n S s [] := by
  refine ⟨h.sound, by rw [h.recvOffset]; omega, fun i hi => ?_, fun hf => ?_, trivial⟩
  · rw [h.gaps] at hi
    exact absurd hi (Range.covers_nil i)
  · rw [h.finRecvd] at hf
    cases hf

theorem FreshRecv.not_done (h : FreshRecv s) : ¬ RecvDone s := fun hd => by
  have := hd.1
  rw [h.finRecvd] at this
  cases this

section Within

variable {n : Nat} {S : Nat → Byte}

variable {ctx : QuicStreamCtx} {s : QuicStream}

theorem gapDrainOne_within {g : QuicStreamGap} {t : List QuicStreamGap} (hg : s.gapTable.gaps = g :: t)
    (hle : g.offset ≤ s.recvOffset) (hro : s.recvOffset ≤ n) (hgaps : ∀ i, Range.Covers s.gapTable.gaps i → i < n) :
    (gapDrainOne g s ctx).1.recvOffset ≤ n ∧ ∀ i, Range.Covers (gapDrainOne g s ctx).1.gapTable.gaps i → i < n := by
  have htail : ∀ i, Range.Covers s.gapTable.pop.gaps i → i < n := fun i hi =>
    hgaps i (by rw [hg, Range.covers_cons]; exact Or.inr (by simpa [GapTable.pop, hg] using hi))
  unfold gapDrainOne
  split
  · rename_i hlt
    refine ⟨?_, htail⟩
    have := hgaps (g.stop - 1) (by rw [hg, Range.covers_cons]; exact Or.inl ⟨by omega, by omega⟩)
    show g.stop ≤ n
    omega
  · exact ⟨hro, htail⟩

variable {f : StreamFrame}

theorem recvDeliver_within (ctx : QuicStreamCtx) (hf : f.stop ≤ n) (hro : s.recvOffset ≤ n) (hgaps :
    ∀ i, Range.Covers s.gapTable.gaps i → i < n) : ((recvDeliver f s ctx).1.recvOffset ≤ n ∧ ∀ i, Range.Covers (recvDeliver f s
    ctx).1.gapTable.gaps i → i < n) ∧ s.recvOffset ≤ (recvDeliver f s ctx).1.recvOffset ∧ (recvDeliver f s ctx).1.finRecvd =
    s.finRecvd ∧ (recvDeliver f s ctx).1.finalSize = s.finalSize := by
  unfold recvDeliver
  split
  · rename_i hlt
    have h := (gapDrainLoop_inv (fun s' _ => (s'.recvOffset ≤ n ∧ ∀ i, Range.Covers s'.gapTable.gaps i → i < n) ∧
      s.recvOffset ≤ s'.recvOffset ∧ s'.finRecvd = s.finRecvd ∧ s'.finalSize = s.finalSize)
      (fun s' ctx' g t hg hle h => ?_) _ { s with recvOffset := f.stop, recvBufLen := max s.recvBufLen f.stop }
      ((ctx.addRecvd (f.stop - s.recvOffset)).deliver s.streamId
        ((f.data.drop (s.recvOffset - f.offset)).map some) false) (Nat.le_refl _)
      ⟨⟨hf, hgaps⟩, Nat.le_of_lt hlt, rfl, rfl⟩).1
    · exact h
    · refine ⟨gapDrainOne_within hg hle h.1.1 h.1.2, ?_⟩
      unfold gapDrainOne
      split
      · exact ⟨by show s.recvOffset ≤ g.stop; omega, h.2.2⟩
      · exact h.2
  · exact ⟨⟨hro, hgaps⟩, Nat.le_refl _, rfl, rfl⟩

theorem RecvWithin.noteFin {f : StreamFrame} (hw : FrameWithin n f) {s : QuicStream}
    {d : List (List (Option Byte) × Bool)} (h : RecvWithin n S s d) : RecvWithin n S (noteFin f s) d := by
  unfold MoqLiveCast.noteFin
  split
  · rename_i hfin
    exact ⟨⟨h.sound.delivered, h.sound.buffered⟩, h.offset_le, h.gaps_lt, fun _ => hw.2 hfin, h.finAfter⟩
  · exact h

variable {q : QueueFn}

theorem RecvWithin.outOfOrder (hf : FrameOf S f) (hw : FrameWithin n f) (sid : Nat) (h : RecvWithin n S s (streamData sid ctx.trace)) :
    RecvWithin n S (recvOutOfOrder q f s ctx).1 (streamData sid (recvOutOfOrder q f s ctx).2.trace) := by
  have hs := h.sound.outOfOrder (q := q) hf sid
  obtain ⟨⟨m, hm⟩, hq⟩ := recvOutOfOrder_spec q f s ctx
  rw [hm, hq.data] at hs ⊢
  refine ⟨hs, h.offset_le, fun i hi => ?_, h.finalSize, h.finAfter⟩
  rcases gapInsert_covers hi with hi | hi
  · exact Nat.lt_of_lt_of_le hi.2 hw.1
  · exact h.gaps_lt i hi

theorem RecvWithin.inOrder (hf : FrameOf S f) (hw : FrameWithin n f) (hle : f.offset ≤ s.recvOffset) (hon : ctx.onStreamData = true)
    (h : RecvWithin n S s (streamData s.streamId ctx.trace)) :
    RecvWithin n S (recvInOrder q f s ctx).1 (streamData s.streamId (recvInOrder q f s ctx).2.trace) := by
  have hs := h.sound.inOrder (q := q) hf hle hon
  obtain ⟨m, ctx', he, hq⟩ := recvInOrder_spec q f s ctx
  obtain ⟨⟨hro, hgaps⟩, -, hfin, hsize⟩ := recvDeliver_within ctx hw.1 h.offset_le h.gaps_lt
  have hl := recvDeliver_local f s ctx
  have hafter : FinAfter n 0 (streamData s.streamId ctx'.trace) := by
    rw [hq.data]
    exact recvDeliver_data (P := FinAfter n 0)
      (fun l d hl => (finAfter_append n _ _ _).2 ⟨hl, fun h => absurd h Bool.false_ne_true, trivial⟩) hon h.finAfter
  rw [he] at hs ⊢
  unfold recvFin at hs ⊢
  split
  · rename_i hdone
    rw [if_pos hdone] at hs
    have hon' : ctx'.onStreamData = true := hq.onStreamData.trans (hl.2.onStreamData.trans hon)
    refine ⟨hs, hro, hgaps, fun h' => hsize.trans (h.finalSize (hfin ▸ h')), ?_⟩
    have hlen := congrArg List.length (h.sound.deliver hf hle hon).delivered
    rw [slice_length] at hlen
    have hn : n ≤ (recvDeliver f s ctx).1.recvOffset := by
      have := hdone.2
      rwa [show ({ (recvDeliver f s ctx).1 with recvMaxData := m } : QuicStream).finalSize = n from
        hsize.trans (h.finalSize (hfin ▸ hdone.1))] at this
    rw [streamData_deliver hon', show ({ (recvDeliver f s ctx).1 with recvMaxData := m } : QuicStream).streamId =
      s.streamId from hl.1, if_pos rfl, finAfter_append]
    refine ⟨hafter, fun _ => ?_, trivial⟩
    rw [hq.data, hlen]
    omega
  · rename_i hdone
    rw [if_neg hdone] at hs
    exact ⟨hs, hro, hgaps, fun h' => hsize.trans (h.finalSize (hfin ▸ h')), hafter⟩

theorem RecvWithin.frame (hf : FrameOf S f) (hw : FrameWithin n f) (hon : ctx.onStreamData = true)
    (h : RecvWithin n S s (streamData s.streamId ctx.trace)) :
    RecvWithin n S (recvFrame q f s ctx).1 (streamData s.streamId (recvFrame q f s ctx).2.trace) := by
  have hid := noteFin_id f s
  have hn := h.noteFin hw
  by_cases hle : f.offset ≤ s.recvOffset
  · rw [recvFrame_inOrder q hle]
    rw [← hid] at hn ⊢
    exact hn.inOrder hf hw (by rw [noteFin_recvOffset]; exact hle) hon
  · rw [recvFrame_past q (Nat.lt_of_not_le hle)]
    exact hn.outOfOrder hf hw s.streamId

theorem RecvWithin.finCount {q : QueueFn} {f : StreamFrame} (hf : FrameOf S f) (hw : FrameWithin n f)
    {s : QuicStream} {ctx : QuicStreamCtx} (hon : ctx.onStreamData = true)
    (h : RecvWithin n S s (streamData s.streamId ctx.trace)) :
    finCount s.streamId (recvFrame q f s ctx).2.trace = finCount s.streamId ctx.trace +
      if RecvDone (recvFrame q f s ctx).1 then 1 else 0 := by
  rw [finCount_recvFrame hon]
  by_cases hle : f.offset ≤ s.recvOffset
  · simp only [hle, true_and]
  · have hnot : ¬ RecvDone (recvFrame q f s ctx).1 := fun hdone => by
      have hsize := (h.frame (q := q) hf hw hon).finalSize hdone.1
      have hro : (recvFrame q f s ctx).1.recvOffset = s.recvOffset := by
        obtain ⟨⟨m, hm⟩, -⟩ := recvOutOfOrder_spec q f (MoqLiveCast.noteFin f s) ctx
        rw [recvFrame_past q (Nat.lt_of_not_le hle), hm]
        exact noteFin_recvOffset f s
      have := hdone.2
      have := hw.1
      unfold StreamFrame.stop at this
      omega
    rw [if_neg hnot, if_neg (fun h => hnot h.2)]

theorem RecvWithin.done (hw : FrameWithin n f)
    {d : List (List (Option Byte) × Bool)} (h : RecvWithin n S s d) (hdone : RecvDone s) : RecvDone (recvFrame q f s ctx).1 := by
  have hn := h.noteFin hw
  have hfin : (MoqLiveCast.noteFin f s).finRecvd = true := by
    unfold MoqLiveCast.noteFin
    split
    · rfl
    · exact hdone.1
  have hro := noteFin_recvOffset f s
  have hnle : n ≤ s.recvOffset := by rw [← h.finalSize hdone.1]; exact hdone.2
  have hle : f.offset ≤ s.recvOffset := by
    have := hw.1
    unfold StreamFrame.stop at this
    omega
  obtain ⟨m, ctx', he, -⟩ := recvInOrder_spec q f (MoqLiveCast.noteFin f s) ctx
  obtain ⟨-, hge, hfin', hsize⟩ := recvDeliver_within ctx hw.1 hn.offset_le hn.gaps_lt
  rw [recvFrame_inOrder q hle, he, recvFin_done]
  refine ⟨hfin'.trans hfin, ?_⟩
  show (recvDeliver f (MoqLiveCast.noteFin f s) ctx).1.finalSize ≤ _
  rw [hsize, hn.finalSize hfin]
  exact Nat.le_trans (by omega) hge

end Within

/-! ## Runs -/

section Runs

variable (q : QueueFn) (S : Nat → Nat → Byte) (n : Nat → Nat)

/-- A frame of a stream of `n` bytes that carries the stream's own bytes. -/
def FrameOfSized (f : StreamFrame) : Prop := FrameOf (S f.streamId) f ∧ FrameWithin (n f.streamId) f

theorem recvStep_finCount_le (w : RecvRun) (f : StreamFrame) (sid : Nat) (hon : w.ctx.onStreamData = true) :
    (recvStep q w f).ctx.onStreamData = true ∧ finCount sid w.ctx.trace ≤ finCount sid (recvStep q w f).ctx.trace := by
  by_cases hacc : RecvAccepts w.ctx f
  · obtain ⟨-, hon', -, hdata⟩ := recvStep_accepts (q := q) hacc
    refine ⟨hon'.trans hon, ?_⟩
    unfold finCount
    rw [hdata]
    split
    · rename_i hsid
      have hc := finCount_recvFrame (q := q) (f := f) (s := streamOrNew w.ctx f.streamId)
        ((recvOpen_onStreamData q w.ctx f.streamId).trans hon)
      rw [streamOrNew_id] at hc
      unfold finCount at hc
      rw [recvOpen_data] at hc
      subst hsid
      rw [hc]
      exact Nat.le_add_right _ _
    · exact Nat.le_refl _
  · obtain ⟨-, hon', -, hdata⟩ := recvStep_rejects (q := q) hacc
    refine ⟨hon'.trans hon, ?_⟩
    unfold finCount
    rw [hdata]

theorem recvSteps_finCount_le (sid : Nat) : ∀ (fs : List StreamFrame) (w : RecvRun), w.ctx.onStreamData = true →
    finCount sid w.ctx.trace ≤ finCount sid (fs.foldl (recvStep q) w).ctx.trace
  | [], _, _ => Nat.le_refl _
  | f :: fs, w, hon => by
    obtain ⟨hon', hle⟩ := recvStep_finCount_le q w f sid hon
    exact Nat.le_trans hle (recvSteps_finCount_le sid fs (recvStep q w f) hon')

def NotFinished (sid : Nat) (w : RecvRun) (f : StreamFrame) : Prop :=
  f.streamId = sid → RecvAccepts w.ctx f → ¬ RecvDone (streamOrNew w.ctx sid)

theorem recvRun_within (st : RecvStart) (fs : List StreamFrame) (hfs : ∀ f ∈ fs, FrameOfSized S n f) :
    StreamsInv (fun _ s d => RecvWithin (n s.streamId) (S s.streamId) s d ∧ (RecvDone s → 1 ≤ d.countP Prod.snd))
      (recvRun q st fs) :=
  recvRun_streams q _ (fun _ f => FrameOfSized S n f)
    (fun s hs => ⟨hs.within, fun h => absurd h hs.not_done⟩)
    (fun _ f s ctx hon hid _ hok h => by
      rw [(recvFrame_local q f s ctx).1]
      unfold FrameOfSized at hok
      rw [← hid] at hok h ⊢
      refine ⟨h.1.frame hok.1 hok.2 hon, fun hdone => ?_⟩
      have := h.1.finCount (q := q) hok.1 hok.2 hon
      rw [if_pos hdone] at this
      unfold finCount at this
      omega)
    st fs (stepsOk_of_forall _ _ fs _ (fun f hf w _ => hfs f hf))

theorem recvStep_done_finCount {st : RecvStart} {pre : List StreamFrame} {f : StreamFrame} (hpre : ∀ g ∈ pre, FrameOfSized S n g)
    (hf : FrameOfSized S n f) (hacc : RecvAccepts (recvRun q st pre).ctx f) (hdone : RecvDone (streamOrNew (recvRun q st pre).ctx
    f.streamId)) : (recvStep q (recvRun q st pre) f).ctx.onStreamData = true ∧ 2 ≤ finCount f.streamId (recvStep q
    (recvRun q st pre) f).ctx.trace := by
  have hinv := recvRun_within q S n st pre hpre
  obtain ⟨hwithin, hcount⟩ := hinv.orNew (fun s hs => ⟨hs.within, fun h => absurd h hs.not_done⟩) f.streamId
  have hcount := hcount hdone
  rw [streamOrNew_id] at hwithin
  have hon := (recvOpen_onStreamData q (recvRun q st pre).ctx f.streamId).trans hinv.onStreamData
  have hc := RecvWithin.finCount (q := q) hf.1 hf.2 hon
    (s := streamOrNew (recvRun q st pre).ctx f.streamId) (by rw [streamOrNew_id, recvOpen_data]; exact hwithin)
  rw [if_pos (hwithin.done hf.2 hdone), streamOrNew_id] at hc
  unfold finCount at hc
  rw [recvOpen_data] at hc
  obtain ⟨-, hon', -, hdata⟩ := recvStep_accepts (q := q) hacc
  have hstep := hdata f.streamId
  rw [if_pos rfl] at hstep
  refine ⟨hon'.trans hinv.onStreamData, ?_⟩
  unfold finCount
  rw [hstep, hc]
  omega

theorem recvRun_once (sid : Nat) (st : RecvStart) (fs : List StreamFrame) (hfs : ∀ f ∈ fs, FrameOfSized S n f)
    (hok : StepsOk (recvStep q) (NotFinished sid) st.run fs) :
    StreamsInv (fun _ s d => RecvWithin (n s.streamId) (S s.streamId) s d ∧
      (s.streamId = sid → d.countP Prod.snd = if RecvDone s then 1 else 0)) (recvRun q st fs) := by
  refine recvRun_streams q _ (fun s f => FrameOfSized S n f ∧ (s.streamId = sid → ¬ RecvDone s))
    (fun s hs => ⟨hs.within, fun _ => (if_neg hs.not_done).symm⟩) (fun _ f s ctx hon hid _ hok h => ?_) st fs ?_
  · rw [(recvFrame_local q f s ctx).1]
    obtain ⟨hsized, hnot⟩ := hok
    unfold FrameOfSized at hsized
    rw [← hid] at hsized h ⊢
    refine ⟨h.1.frame hsized.1 hsized.2 hon, fun hsid => ?_⟩
    have hc := h.1.finCount (q := q) hsized.1 hsized.2 hon
    unfold finCount at hc
    rw [hc, h.2 hsid, if_neg (hnot hsid), Nat.zero_add]
  · rw [stepsOk_iff] at hok ⊢
    intro pre f post hsplit hacc
    refine ⟨hfs f (by rw [hsplit]; simp), fun hsid => ?_⟩
    rw [streamOrNew_id] at hsid
    have := hok pre f post hsplit hsid hacc
    rwa [hsid]

/-- **FIN is delivered at most once, and only after the last byte, exactly in the runs that take no frame for a stream
that is finished already.** -/
theorem fin_once_iff (st : RecvStart) (fs : List StreamFrame) (hfs : ∀ f ∈ fs, FrameOfSized S n f) (sid : Nat) :
    (finCount sid (recvRun q st fs).ctx.trace ≤ 1 ∧ FinAfter (n sid) 0 (streamData sid (recvRun q st fs).ctx.trace)) ↔
    StepsOk (recvStep q) (NotFinished sid) st.run fs := by
  constructor
  · rintro ⟨hone, -⟩
    rw [stepsOk_iff]
    intro pre f post hsplit hsid hacc hdone
    subst hsid
    obtain ⟨hon, htwo⟩ := recvStep_done_finCount q S n (fun g hg => hfs g (by rw [hsplit]; simp [hg]))
      (hfs f (by rw [hsplit]; simp)) hacc hdone
    have hle := recvSteps_finCount_le q f.streamId post (recvStep q (recvRun q st pre) f) hon
    have hrun : post.foldl (recvStep q) (recvStep q (recvRun q st pre) f) = recvRun q st fs := by
      unfold recvRun
      rw [hsplit, List.foldl_append, List.foldl_cons]
    rw [hrun] at hle
    omega
  · intro hok
    have hinv := recvRun_once q S n sid st fs hfs hok
    cases hs : streamFind (recvRun q st fs).ctx sid with
    | some s =>
      obtain ⟨hwithin, hcount⟩ := hinv.found sid s hs
      have hid := streamFind_id hs
      refine ⟨?_, by rw [← hid]; rw [← hid] at hwithin; exact hwithin.finAfter⟩
      show (streamData sid _).countP Prod.snd ≤ 1
      rw [hcount hid]
      split <;> omega
    | none =>
      have hnil := (hinv.absent sid hs).2
      unfold finCount
      rw [hnil]
      exact ⟨Nat.zero_le _, trivial⟩

end Runs

def repeatedRun : List StreamFrame :=
  [cutFrame countStream 0 0 1 true zero_lt_two_pow_62 one_lt_two_pow_62,
   cutFrame countStream 0 0 1 true zero_lt_two_pow_62 one_lt_two_pow_62]

theorem repeatedRun_of : ∀ f ∈ repeatedRun, FrameOfSized (fun _ => countStream) (fun _ => 1) f := by
  intro f hf
  simp only [repeatedRun, List.mem_cons, List.not_mem_nil, or_false, or_self] at hf
  subst hf
  exact ⟨cutFrame_of _ _ _ _ _ _ _, by decide, fun _ => by decide⟩

theorem fin_once_iff_repeated : ¬ StepsOk (recvStep acceptAll) (NotFinished 0) serverStart.run repeatedRun := by
  rw [← fin_once_iff acceptAll (fun _ => countStream) (fun _ => 1) serverStart repeatedRun repeatedRun_of 0]
  exact fun h => absurd h.1 (by decide)

/-- **FIN is delivered again** when the frame that finished the stream arrives a second time. -/
theorem fin_twice : ¬ ∀ (q : QueueFn) (S : Nat → Nat → Byte) (n : Nat → Nat) (st : RecvStart) (fs : List StreamFrame),
    (∀ f ∈ fs, FrameOfSized S n f) → ∀ sid, finCount sid (recvRun q st fs).ctx.trace ≤ 1 ∧ FinAfter (n sid) 0 (streamData sid
    (recvRun q st fs).ctx.trace) :=
  fun h => absurd (h acceptAll (fun _ => countStream) (fun _ => 1) serverStart repeatedRun repeatedRun_of 0).1
    (by decide)

end MoqLiveCast
