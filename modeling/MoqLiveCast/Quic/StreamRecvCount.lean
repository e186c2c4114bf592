import Mathlib.Algebra.Order.BigOperators.Group.Finset
import Mathlib.Algebra.BigOperators.Group.Finset.Piecewise
import Mathlib.Order.Interval.Finset.Nat
import MoqLiveCast.Quic.StreamRecvSound
/-!
# StreamRecvCount — what `bytes_recvd` counts

A step never counts too little, so `bytes_recvd` is the number of distinct bytes received exactly when every step counts
its new bytes once (`bytesRecvd_counts_iff`); then a peer inside its limits keeps `bytes_recvd` inside `max_data_local`.
-/
namespace MoqLiveCast

/-! ## Distinct bytes -/

def positions (fs : List StreamFrame) : Finset Nat := fs.foldr (fun f r => Finset.Ico f.offset f.stop ∪ r) ∅

def largestOffset (fs : List StreamFrame) : Nat := fs.foldr (fun f m => max f.stop m) 0

def streamIds (fs : List StreamFrame) : Finset Nat := (fs.map StreamFrame.streamId).toFinset

def distinctBytes (fs : List StreamFrame) : Nat := ∑ sid ∈ streamIds fs, (positions (framesOf sid fs)).card

/-- The sum over the streams of the largest offset received: what flow control counts. -/
def offsetSum (fs : List StreamFrame) : Nat := ∑ sid ∈ streamIds fs, largestOffset (framesOf sid fs)

theorem mem_positions {fs : List StreamFrame} {i : Nat} : i ∈ positions fs ↔ ∃ f ∈ fs, f.offset ≤ i ∧ i < f.stop := by
  induction fs with
  | nil => simp [positions]
  | cons f fs ih =>
    rw [show positions (f :: fs) = Finset.Ico f.offset f.stop ∪ positions fs from rfl, Finset.mem_union, Finset.mem_Ico, ih]
    simp

variable (fs : List StreamFrame)

theorem positions_append (f : StreamFrame) : positions (fs ++ [f]) = positions fs ∪ Finset.Ico f.offset f.stop := by
  ext i
  rw [Finset.mem_union, Finset.mem_Ico, mem_positions, mem_positions]
  constructor
  · rintro ⟨g, hg, hi⟩
    rcases List.mem_append.1 hg with hg | hg
    · exact Or.inl ⟨g, hg, hi⟩
    · rw [List.mem_singleton] at hg
      exact Or.inr (hg ▸ hi)
  · rintro (⟨g, hg, hi⟩ | hi)
    · exact ⟨g, List.mem_append_left _ hg, hi⟩
    · exact ⟨f, by simp, hi⟩

theorem le_largestOffset {f : StreamFrame} : ∀ {fs : List StreamFrame}, f ∈ fs → f.stop ≤ largestOffset fs
  | g :: fs, h => by
    show f.stop ≤ max g.stop (largestOffset fs)
    rcases List.mem_cons.1 h with rfl | h
    · exact Nat.le_max_left _ _
    · exact Nat.le_trans (le_largestOffset h) (Nat.le_max_right _ _)

theorem card_positions_le : (positions fs).card ≤ largestOffset fs := by
  have hsub : positions fs ⊆ Finset.range (largestOffset fs) := fun i hi => by
    obtain ⟨f, hf, -, h2⟩ := mem_positions.1 hi
    exact Finset.mem_range.2 (Nat.lt_of_lt_of_le h2 (le_largestOffset hf))
  have := Finset.card_le_card hsub
  rwa [Finset.card_range] at this

theorem distinctBytes_le : distinctBytes fs ≤ offsetSum fs :=
  Finset.sum_le_sum (fun _ _ => card_positions_le _)

def newBytes (fs : List StreamFrame) (f : StreamFrame) : Nat :=
  (Finset.Ico f.offset f.stop \ positions (framesOf f.streamId fs)).card

theorem framesOf_eq_nil {fs : List StreamFrame} {sid : Nat} (h : sid ∉ streamIds fs) : framesOf sid fs = [] := by
  refine List.filter_eq_nil_iff.2 (fun f hf hid => h ?_)
  rw [streamIds, List.mem_toFinset]
  exact List.mem_map.2 ⟨f, hf, by simpa using hid⟩

theorem distinctBytes_append (f : StreamFrame) : distinctBytes (fs ++ [f]) = distinctBytes fs + newBytes fs f := by
  have hids : streamIds (fs ++ [f]) = insert f.streamId (streamIds fs) := by
    ext sid
    simp [streamIds]
  have hsum : distinctBytes fs = ∑ sid ∈ insert f.streamId (streamIds fs), (positions (framesOf sid fs)).card := by
    refine Finset.sum_subset (Finset.subset_insert _ _) (fun sid _ hsid => ?_)
    rw [framesOf_eq_nil hsid]
    rfl
  have hone : ∀ sid, (positions (framesOf sid (fs ++ [f]))).card =
      (positions (framesOf sid fs)).card + if sid = f.streamId then newBytes fs f else 0 := fun sid => by
    by_cases hsid : sid = f.streamId
    · subst hsid
      rw [if_pos rfl, framesOf_append_self, positions_append, ← Finset.union_sdiff_self_eq_union,
        Finset.card_union_of_disjoint Finset.disjoint_sdiff]
      rfl
    · rw [if_neg hsid, framesOf_append_ne _ hsid]
      rfl
  unfold distinctBytes at hsum ⊢
  rw [hids, hsum, Finset.sum_congr rfl (fun sid _ => hone sid), Finset.sum_add_distrib, Finset.sum_ite_eq',
    if_pos (Finset.mem_insert_self _ _)]

/-! ## What one call counts -/

def CountsOnce (fs : List StreamFrame) (s : QuicStream) (f : StreamFrame) : Prop :=
  if s.recvOffset < f.offset then ∀ i, f.offset ≤ i → i < f.stop → i ∉ positions fs
  else s.recvOffset < f.stop →
    (∀ i, s.recvOffset ≤ i → i < f.stop → i ∉ positions fs) ∧ ∀ g ∈ s.gapTable.gaps, g.offset ≤ f.stop → g.stop ≤ f.stop

/-- What is delivered, and what is in the gap table, has been received. -/
structure RecvTracked (fs : List StreamFrame) (s : QuicStream) : Prop where
  ordered : Range.Ordered s.gapTable.gaps
  offset_mem : ∀ i, i < s.recvOffset → i ∈ positions fs
  gaps_mem : ∀ i, Range.Covers s.gapTable.gaps i → i ∈ positions fs

theorem FreshRecv.tracked {s : QuicStream} (h : FreshRecv s) : RecvTracked [] s := by
  refine ⟨by rw [h.gaps]; exact List.Pairwise.nil, fun i hi => ?_, fun i hi => ?_⟩
  · rw [h.recvOffset] at hi
    omega
  · rw [h.gaps] at hi
    exact absurd hi (Range.covers_nil i)

theorem gapDrainOne_offset (g : QuicStreamGap) (s : QuicStream) (ctx : QuicStreamCtx) :
    (gapDrainOne g s ctx).1.recvOffset = max s.recvOffset g.stop := by
  unfold gapDrainOne
  split
  · show g.stop = _
    omega
  · show s.recvOffset = _
    omega

theorem gapDrainOne_bytes (g : QuicStreamGap) (s : QuicStream) (ctx : QuicStreamCtx) :
    (gapDrainOne g s ctx).2.bytesRecvd = ctx.bytesRecvd + (g.stop - s.recvOffset) := by
  unfold gapDrainOne
  split
  · cases s.recvBuf with
    | some buf => exact deliver_bytesRecvd _ _ _ _
    | none => rfl
  · show ctx.bytesRecvd = _
    omega

theorem gapDrain_count (s : QuicStream) (ctx : QuicStreamCtx) : s.recvOffset ≤ (gapDrain s ctx).1.recvOffset ∧
    (gapDrain s ctx).2.bytesRecvd + s.recvOffset = ctx.bytesRecvd + (gapDrain s ctx).1.recvOffset := by
  refine (gapDrainLoop_inv (fun s' ctx' => s.recvOffset ≤ s'.recvOffset ∧
    ctx'.bytesRecvd + s.recvOffset = ctx.bytesRecvd + s'.recvOffset) (fun s' ctx' g t hg hle h => ?_) _ s ctx
    (Nat.le_refl _) ⟨Nat.le_refl _, rfl⟩).1
  rw [gapDrainOne_offset, gapDrainOne_bytes]
  omega

theorem recvDeliver_count (f : StreamFrame) (s : QuicStream) (ctx : QuicStreamCtx) : s.recvOffset ≤ (recvDeliver f s
    ctx).1.recvOffset ∧ (recvDeliver f s ctx).2.bytesRecvd + s.recvOffset = ctx.bytesRecvd + (recvDeliver f s
    ctx).1.recvOffset := by
  unfold recvDeliver
  split
  · rename_i hlt
    have h := gapDrain_count { s with recvOffset := f.stop, recvBufLen := max s.recvBufLen f.stop }
      ((ctx.addRecvd (f.stop - s.recvOffset)).deliver s.streamId ((f.data.drop (s.recvOffset - f.offset)).map some) false)
    rw [deliver_bytesRecvd, QuicStreamCtx.addRecvd_bytesRecvd] at h
    dsimp only at h ⊢
    omega
  · exact ⟨Nat.le_refl _, rfl⟩

section Tracked

variable {fs : List StreamFrame}

variable {s : QuicStream} (ctx : QuicStreamCtx)

theorem RecvTracked.drain (h : RecvTracked fs s) : RecvTracked fs (gapDrain s ctx).1 := by
  refine (gapDrainLoop_inv (fun s' _ => RecvTracked fs s') (fun s' ctx' g t hg hle h => ?_) _ s ctx (Nat.le_refl _) h).1
  have hpop : s'.gapTable.pop.gaps = t := by simp [GapTable.pop, hg]
  have hord : Range.Ordered s'.gapTable.pop.gaps := by rw [hpop]; exact (hg ▸ h.ordered).of_cons
  have hmem : ∀ i, Range.Covers s'.gapTable.pop.gaps i → i ∈ positions fs := fun i hi =>
    h.gaps_mem i (by rw [hg, Range.covers_cons, ← hpop]; exact Or.inr hi)
  unfold gapDrainOne
  split
  · refine ⟨hord, fun i hi => ?_, hmem⟩
    by_cases hlt : i < s'.recvOffset
    · exact h.offset_mem i hlt
    · exact h.gaps_mem i (by rw [hg, Range.covers_cons]; exact Or.inl ⟨by omega, hi⟩)
  · exact ⟨hord, h.offset_mem, hmem⟩

theorem RecvTracked.deliver {f : StreamFrame} (hle : f.offset ≤ s.recvOffset)
    (h : RecvTracked fs s) : RecvTracked (fs ++ [f]) (recvDeliver f s ctx).1 := by
  have hleft : ∀ i, i ∈ positions fs → i ∈ positions (fs ++ [f]) := fun i hi => by
    rw [positions_append]; exact Finset.mem_union_left _ hi
  unfold recvDeliver
  split
  · refine RecvTracked.drain _ ⟨h.ordered, fun i hi => ?_, fun i hi => hleft i (h.gaps_mem i hi)⟩
    by_cases hlt : i < s.recvOffset
    · exact hleft i (h.offset_mem i hlt)
    · rw [positions_append]
      exact Finset.mem_union_right _ (Finset.mem_Ico.2 ⟨by omega, hi⟩)
  · exact ⟨h.ordered, fun i hi => hleft i (h.offset_mem i hi), fun i hi => hleft i (h.gaps_mem i hi)⟩

theorem RecvTracked.noteFin {f : StreamFrame} {s : QuicStream} (h : RecvTracked fs s) : RecvTracked fs (noteFin f s) := by
  unfold MoqLiveCast.noteFin
  split
  · exact ⟨h.ordered, h.offset_mem, h.gaps_mem⟩
  · exact h

theorem RecvTracked.frame {q : QueueFn} {f : StreamFrame} {ctx : QuicStreamCtx}
    (h : RecvTracked fs s) : RecvTracked (fs ++ [f]) (recvFrame q f s ctx).1 := by
  have hn := h.noteFin (f := f)
  by_cases hle : f.offset ≤ s.recvOffset
  · obtain ⟨m, ctx', he, -⟩ := recvInOrder_spec q f (MoqLiveCast.noteFin f s) ctx
    have hd := hn.deliver ctx (by rw [noteFin_recvOffset]; exact hle)
    rw [recvFrame_inOrder q hle, he]
    unfold recvFin
    split
    · exact ⟨hd.ordered, hd.offset_mem, hd.gaps_mem⟩
    · exact ⟨hd.ordered, hd.offset_mem, hd.gaps_mem⟩
  · obtain ⟨⟨m, hm⟩, -⟩ := recvOutOfOrder_spec q f (MoqLiveCast.noteFin f s) ctx
    rw [recvFrame_past q (Nat.lt_of_not_le hle), hm]
    refine ⟨gapInsert_ordered _ _ hn.ordered, fun i hi => ?_, fun i hi => ?_⟩
    · rw [positions_append]
      exact Finset.mem_union_left _ (hn.offset_mem i hi)
    · rw [positions_append]
      rcases gapInsert_covers hi with hi | hi
      · exact Finset.mem_union_right _ (Finset.mem_Ico.2 hi)
      · exact Finset.mem_union_left _ (hn.gaps_mem i hi)

theorem gapDrain_stays (ho : Range.Ordered s.gapTable.gaps) : (gapDrain s ctx).1.recvOffset = s.recvOffset ↔
    ∀ g ∈ s.gapTable.gaps, g.offset ≤ s.recvOffset → g.stop ≤ s.recvOffset := by
  constructor
  · intro hstay g hg hle
    obtain ⟨⟨ho', hkeep⟩, hexit⟩ := gapDrainLoop_inv (fun s' _ => Range.Ordered s'.gapTable.gaps ∧
      ∀ g ∈ s.gapTable.gaps, g.stop ≤ s'.recvOffset ∨ g ∈ s'.gapTable.gaps) (fun s' ctx' g0 t hg0 hle h => by
        have hpop : s'.gapTable.pop.gaps = t := by simp [GapTable.pop, hg0]
        have hord : Range.Ordered s'.gapTable.pop.gaps := by rw [hpop]; exact (hg0 ▸ h.1).of_cons
        have hmem : ∀ r, max s'.recvOffset g0.stop ≤ r →
            ∀ g ∈ s.gapTable.gaps, g.stop ≤ r ∨ g ∈ s'.gapTable.pop.gaps := fun r hr g hg => by
          rcases h.2 g hg with hs | hs
          · exact Or.inl (by omega)
          · rw [hpop]
            rw [hg0] at hs
            exact (List.mem_cons.1 hs).imp_left (fun he => by rw [he]; omega)
        unfold gapDrainOne
        split
        · exact ⟨hord, hmem _ (by show max _ _ ≤ g0.stop; omega)⟩
        · exact ⟨hord, hmem _ (by show max _ _ ≤ s'.recvOffset; omega)⟩)
      _ s ctx (Nat.le_refl _) ⟨ho, fun g hg => Or.inr hg⟩
    change ∀ g ∈ (gapDrain s ctx).1.gapTable.gaps.head?, (gapDrain s ctx).1.recvOffset < g.offset at hexit
    change Range.Ordered (gapDrain s ctx).1.gapTable.gaps at ho'
    rcases hkeep g hg with hs | hs
    · exact Nat.le_trans hs (Nat.le_of_eq hstay)
    · change g ∈ (gapDrain s ctx).1.gapTable.gaps at hs
      rw [hstay] at hexit
      cases hl : (gapDrain s ctx).1.gapTable.gaps with
      | nil => rw [hl] at hs; cases hs
      | cons g0 t =>
        rw [hl] at hexit hs ho'
        have h0 := hexit g0 rfl
        rcases List.mem_cons.1 hs with rfl | hs
        · omega
        · have := List.rel_of_pairwise_cons ho' hs
          omega
  · intro hgaps
    refine (gapDrainLoop_inv (fun s' _ => s'.recvOffset = s.recvOffset ∧
      ∀ g ∈ s'.gapTable.gaps, g.offset ≤ s.recvOffset → g.stop ≤ s.recvOffset) (fun s' ctx' g t hg hle h => ?_) _ s
      ctx (Nat.le_refl _) ⟨rfl, hgaps⟩).1.1
    have hg0 := h.2 g (by rw [hg]; exact List.mem_cons_self) (by omega)
    have hpop : s'.gapTable.pop.gaps = t := by simp [GapTable.pop, hg]
    unfold gapDrainOne
    split
    · rename_i hlt
      omega
    · refine ⟨h.1, fun g' hg' => h.2 g' ?_⟩
      rw [hg]
      exact List.mem_cons_of_mem _ (by rwa [hpop] at hg')

theorem recvFrame_count (q : QueueFn) (f : StreamFrame) (ctx : QuicStreamCtx) (h : RecvTracked fs s) :
    ∃ n, (recvFrame q f s ctx).2.bytesRecvd = ctx.bytesRecvd + n ∧ (Finset.Ico f.offset f.stop \ positions fs).card ≤ n ∧
    (n = (Finset.Ico f.offset f.stop \ positions fs).card ↔ CountsOnce fs s f) := by
  have hcard := Finset.card_sdiff_add_card_inter (Finset.Ico f.offset f.stop) (positions fs)
  rw [Nat.card_Ico] at hcard
  by_cases hle : f.offset ≤ s.recvOffset
  · -- the positions before `recv_offset` are received, so the new ones are past it
    have hnew : Finset.Ico f.offset f.stop \ positions fs = Finset.Ico s.recvOffset f.stop \ positions fs := by
      ext i
      simp only [Finset.mem_sdiff, Finset.mem_Ico]
      refine ⟨fun hi => ⟨⟨?_, hi.1.2⟩, hi.2⟩, fun hi => ⟨⟨Nat.le_trans hle hi.1.1, hi.1.2⟩, hi.2⟩⟩
      by_contra hlt
      exact hi.2 (h.offset_mem i (by omega))
    have hcard' := Finset.card_sdiff_add_card_inter (Finset.Ico s.recvOffset f.stop) (positions fs)
    rw [Nat.card_Ico] at hcard'
    have hempty : ((Finset.Ico s.recvOffset f.stop ∩ positions fs).card = 0) ↔
        ∀ i, s.recvOffset ≤ i → i < f.stop → i ∉ positions fs := by
      rw [Finset.card_eq_zero, ← Finset.disjoint_iff_inter_eq_empty, Finset.disjoint_left]
      simp only [Finset.mem_Ico, and_imp]
    obtain ⟨m, ctx', he, hq⟩ := recvInOrder_spec q f (MoqLiveCast.noteFin f s) ctx
    have hbytes : (recvFrame q f s ctx).2.bytesRecvd = (recvDeliver f (MoqLiveCast.noteFin f s) ctx).2.bytesRecvd := by
      rw [recvFrame_inOrder q hle, he]
      unfold recvFin
      split
      · exact (deliver_bytesRecvd _ _ _ _).trans hq.bytesRecvd
      · exact hq.bytesRecvd
    rw [hnew, hbytes]
    unfold CountsOnce
    rw [if_neg (Nat.not_lt.2 hle), ← hempty, ← noteFin_gapTable f s]
    rw [← noteFin_recvOffset f s] at hcard' ⊢
    have hord : Range.Ordered (MoqLiveCast.noteFin f s).gapTable.gaps := (h.noteFin (f := f)).ordered
    generalize MoqLiveCast.noteFin f s = s' at hcard' hord ⊢
    obtain ⟨hmono, hcount⟩ := recvDeliver_count f s' ctx
    by_cases hlt : s'.recvOffset < f.stop
    · have hdel : recvDeliver f s' ctx = gapDrain { s' with recvOffset := f.stop, recvBufLen := max s'.recvBufLen f.stop }
          ((ctx.addRecvd (f.stop - s'.recvOffset)).deliver s'.streamId
            ((f.data.drop (s'.recvOffset - f.offset)).map some) false) := if_pos hlt
      have hstays := gapDrain_stays (s := { s' with recvOffset := f.stop, recvBufLen := max s'.recvBufLen f.stop })
        ((ctx.addRecvd (f.stop - s'.recvOffset)).deliver s'.streamId
          ((f.data.drop (s'.recvOffset - f.offset)).map some) false) hord
      rw [← hdel] at hstays
      have hge := (gapDrain_count { s' with recvOffset := f.stop, recvBufLen := max s'.recvBufLen f.stop }
        ((ctx.addRecvd (f.stop - s'.recvOffset)).deliver s'.streamId ((f.data.drop (s'.recvOffset - f.offset)).map some) false)).1
      rw [← hdel] at hge
      dsimp only at hstays hge
      refine ⟨(recvDeliver f s' ctx).1.recvOffset - s'.recvOffset, by omega, by omega, ?_⟩
      rw [← hstays]
      constructor
      · intro hn _
        omega
      · intro hok
        have := hok hlt
        omega
    · have hdel : recvDeliver f s' ctx = (s', ctx) := if_neg hlt
      rw [hdel]
      refine ⟨0, rfl, by omega, fun _ h => absurd h hlt, fun _ => by omega⟩
  · obtain ⟨-, hq⟩ := recvOutOfOrder_spec q f (MoqLiveCast.noteFin f s) ctx
    have hempty : ((Finset.Ico f.offset f.stop ∩ positions fs).card = 0) ↔ ∀ i, f.offset ≤ i → i < f.stop → i ∉ positions fs := by
      rw [Finset.card_eq_zero, ← Finset.disjoint_iff_inter_eq_empty, Finset.disjoint_left]
      simp only [Finset.mem_Ico, and_imp]
    have hlen : f.stop - f.offset = f.data.length := by unfold StreamFrame.stop; omega
    rw [recvFrame_past q (Nat.lt_of_not_le hle), hq.bytesRecvd]
    refine ⟨f.data.length, rfl, by omega, ?_⟩
    unfold CountsOnce
    rw [if_pos (Nat.lt_of_not_le hle), ← hempty]
    omega

end Tracked

/-! ## Runs -/

def StepCountsOnce (w : RecvRun) (f : StreamFrame) : Prop :=
  RecvAccepts w.ctx f → CountsOnce (framesOf f.streamId w.accepted) (streamOrNew w.ctx f.streamId) f

/-- Every stream is tracked, and no byte is left out of the count. -/
structure CountInv (w : RecvRun) : Prop where
  tracked : StreamsInv (fun fs s _ => RecvTracked fs s) w
  le : distinctBytes w.accepted ≤ w.ctx.bytesRecvd

theorem recvOpen_bytesRecvd (q : QueueFn) (ctx : QuicStreamCtx) (sid : Nat) :
    (recvOpen q ctx sid).2.bytesRecvd = ctx.bytesRecvd := by
  rw [(quiet_recvOpen q ctx sid).bytesRecvd]
  unfold streamFindOrCreate
  split <;> rfl

theorem CountInv.start (st : RecvStart) : CountInv st.run :=
  ⟨StreamsInv.start (fun _ hs => hs.tracked) st, Nat.zero_le _⟩

theorem recvStep_count (q : QueueFn) {w : RecvRun} (h : CountInv w) (f : StreamFrame) : CountInv (recvStep q w f) ∧
    ∃ n, (recvStep q w f).ctx.bytesRecvd + distinctBytes w.accepted = w.ctx.bytesRecvd + distinctBytes (recvStep q w f).accepted +
    n ∧ (n = 0 ↔ StepCountsOnce w f) := by
  have htracked := recvStep_streams q (fun fs s _ => RecvTracked fs s) (fun _ _ => True) (fun _ hs => hs.tracked)
    (fun _ _ _ _ _ _ _ _ h => h.frame) w f h.tracked (fun _ => trivial)
  by_cases hacc : RecvAccepts w.ctx f
  · obtain ⟨hfs, -⟩ := recvStep_accepts (q := q) hacc
    obtain ⟨n, hn, hle, hiff⟩ := recvFrame_count q f (recvOpen q w.ctx f.streamId).2
      (h.tracked.orNew (fun _ hs => hs.tracked) f.streamId)
    have hb : (recvStep q w f).ctx.bytesRecvd = w.ctx.bytesRecvd + n := by
      rw [recvStep_ctx hacc, ← recvOpen_bytesRecvd q w.ctx f.streamId]
      exact hn
    have hd : distinctBytes (recvStep q w f).accepted = distinctBytes w.accepted + newBytes w.accepted f := by
      rw [hfs, distinctBytes_append]
    have hw := h.le
    change newBytes w.accepted f ≤ n at hle
    change n = newBytes w.accepted f ↔ _ at hiff
    refine ⟨⟨htracked, by omega⟩, n - newBytes w.accepted f, by omega, ?_⟩
    have : StepCountsOnce w f ↔ n = newBytes w.accepted f :=
      ⟨fun hok => hiff.2 (hok hacc), fun hn _ => hiff.1 hn⟩
    rw [this]
    omega
  · obtain ⟨hfs, -⟩ := recvStep_rejects (q := q) hacc
    have hb : (recvStep q w f).ctx.bytesRecvd = w.ctx.bytesRecvd := by
      unfold recvStep
      rw [onRecv_rejects hacc]
      exact recvOpen_bytesRecvd q w.ctx f.streamId
    refine ⟨⟨htracked, by rw [hfs, hb]; exact h.le⟩, 0, by rw [hfs, hb]; omega, fun _ ha => absurd ha hacc,
      fun _ => rfl⟩

theorem recvRun_count (q : QueueFn) (st : RecvStart) (hb : st.ctx.bytesRecvd = 0) (fs : List StreamFrame) :
    (recvRun q st fs).ctx.bytesRecvd = distinctBytes (recvRun q st fs).accepted ↔ StepsOk (recvStep q) StepCountsOnce st.run
    fs := by
  have hm := foldl_measure_iff (recvStep q) StepCountsOnce CountInv
    (fun w => w.ctx.bytesRecvd - distinctBytes w.accepted) (fun w f h => (recvStep_count q h f).1)
    (fun w f h => by
      obtain ⟨h', n, hn, hiff⟩ := recvStep_count q h f
      have h1 := h.le
      have h2 := h'.le
      rw [← hiff]
      omega) fs st.run (CountInv.start st)
  have hinv := foldl_inv (recvStep q) (fun _ _ => True) CountInv (fun w f h _ => (recvStep_count q h f).1) fs st.run
    (CountInv.start st) (stepsOk_of_forall _ _ _ _ (fun _ _ _ => trivial))
  have h0 : st.run.ctx.bytesRecvd - distinctBytes st.run.accepted = 0 := by
    show st.ctx.bytesRecvd - _ = 0
    omega
  rw [← hm.2, h0]
  have := hinv.le
  unfold recvRun
  omega

end MoqLiveCast
