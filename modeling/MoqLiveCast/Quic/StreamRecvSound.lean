import MoqLiveCast.Quic.StreamRecvRun
/-!
# StreamRecvSound — what is delivered is the stream

`RecvSound` is the invariant: the deliveries so far are the first `recv_offset` bytes of the stream, and `recv_buf`
holds the stream's byte at every position of a range in the gap table.
-/
namespace MoqLiveCast

/-- The frame carries the bytes of `S` at its own offset. -/
def FrameOf (S : Nat → Byte) (f : StreamFrame) : Prop := f.data = slice S f.offset f.data.length

def recvCell (s : QuicStream) (i : Nat) : Option Byte := s.recvBuf.bind (fun buf => buf i)

structure RecvSound (S : Nat → Byte) (s : QuicStream) (d : List (List (Option Byte) × Bool)) : Prop where
  delivered : d.flatMap Prod.fst = slice (fun i => some (S i)) 0 s.recvOffset
  buffered : ∀ i, Range.Covers s.gapTable.gaps i → recvCell s i = some (S i)

/-- The frame that carries `len` bytes of `S` from `off` on. -/
def cutFrame (S : Nat → Byte) (sid off len : Nat) (fin : Bool) (h1 : off < 2 ^ 62 := by decide)
    (h2 : len < 2 ^ 62 := by decide) : StreamFrame :=
  ⟨sid, off, fin, slice S off len, h1, by rwa [slice_length]⟩

theorem cutFrame_of (S : Nat → Byte) (sid off len : Nat) (fin : Bool) (h1 : off < 2 ^ 62) (h2 : len < 2 ^ 62) :
    FrameOf S (cutFrame S sid off len fin h1 h2) := by
  show slice S off len = slice S off (slice S off len).length
  rw [slice_length]

variable {S : Nat → Byte} {s : QuicStream}

theorem FreshRecv.sound (h : FreshRecv s) : RecvSound S s [] := by
  refine ⟨by rw [h.recvOffset]; rfl, fun i hi => ?_⟩
  rw [h.gaps] at hi
  exact absurd hi (Range.covers_nil i)

variable {f : StreamFrame}

theorem FrameOf.getElem? (h : FrameOf S f) {i : Nat} (h1 : f.offset ≤ i)
    (h2 : i < f.stop) : f.data[i - f.offset]? = some (S i) := by
  unfold StreamFrame.stop at h2
  rw [h, slice_getElem?, if_pos (by omega)]
  congr 2
  omega

theorem FrameOf.drop (h : FrameOf S f) {a : Nat} (h1 : f.offset ≤ a) :
    (f.data.drop (a - f.offset)).map some = slice (fun i => some (S i)) a (f.stop - a) := by
  rw [h, slice_drop, slice_map]
  unfold StreamFrame.stop
  rw [show f.offset + (a - f.offset) = a by omega,
    show f.data.length - (a - f.offset) = f.offset + f.data.length - a by omega]

variable {t : GapTable}

theorem gapInsert_covers {o l i : Nat} (h : Range.Covers (gapInsert t o l).gaps i) :
    (o ≤ i ∧ i < o + l) ∨ Range.Covers t.gaps i := by
  unfold gapInsert at h
  split at h
  · exact (Range.covers_place _ _ _).1 (Range.covers_of_merge h)
  · exact Or.inr (Range.covers_of_merge h)

theorem bufferFrame_cell (hf : FrameOf S f) (s : QuicStream) (i : Nat) :
    recvCell (bufferFrame f s) i = if f.offset ≤ i ∧ i < f.stop then some (S i) else recvCell s i := by
  show (s.recvBuf.getD Mem.fresh).write f.offset (f.data.map some) i = _
  split
  · rename_i hi
    rw [Mem.write_inside _ _ _ hi.1 (by rw [List.length_map]; exact hi.2), List.getElem?_map, hf.getElem? hi.1 hi.2]
    rfl
  · rename_i hi
    rw [Mem.write_outside _ _ _ (by simp only [List.length_map]; unfold StreamFrame.stop at hi; omega)]
    unfold recvCell
    cases s.recvBuf <;> rfl

section Sound

variable {S : Nat → Byte}

variable {ctx : QuicStreamCtx} {f : StreamFrame} {s : QuicStream}

theorem RecvSound.outOfOrder {q : QueueFn} (hf : FrameOf S f) (sid : Nat) (h : RecvSound S s (streamData sid ctx.trace)) :
    RecvSound S (recvOutOfOrder q f s ctx).1 (streamData sid (recvOutOfOrder q f s ctx).2.trace) := by
  obtain ⟨⟨m, hm⟩, hq⟩ := recvOutOfOrder_spec q f s ctx
  rw [hm, hq.data]
  refine ⟨h.delivered, fun i hi => ?_⟩
  show recvCell (bufferFrame f s) i = some (S i)
  rw [bufferFrame_cell hf]
  split
  · rfl
  · rename_i hout
    exact h.buffered i ((gapInsert_covers hi).resolve_left hout)

theorem RecvSound.drainOne {g : QuicStreamGap} {t : List QuicStreamGap} (hg : s.gapTable.gaps = g :: t)
    (hle : g.offset ≤ s.recvOffset) (hon : ctx.onStreamData = true) (h : RecvSound S s (streamData s.streamId ctx.trace)) :
    RecvSound S (gapDrainOne g s ctx).1 (streamData s.streamId (gapDrainOne g s ctx).2.trace) := by
  have htail : ∀ i, Range.Covers s.gapTable.pop.gaps i → recvCell s i = some (S i) := fun i hi =>
    h.buffered i (by rw [hg, Range.covers_cons]; exact Or.inr (by simpa [GapTable.pop, hg] using hi))
  unfold gapDrainOne
  split
  · rename_i hlt
    have hcell : ∀ i, s.recvOffset ≤ i → i < g.stop → recvCell s i = some (S i) := fun i h1 h2 =>
      h.buffered i (by rw [hg, Range.covers_cons]; exact Or.inl ⟨Nat.le_trans hle h1, h2⟩)
    obtain ⟨buf, hbuf⟩ : ∃ buf, s.recvBuf = some buf := by
      have := hcell s.recvOffset (Nat.le_refl _) hlt
      unfold recvCell at this
      cases hb : s.recvBuf with
      | some buf => exact ⟨buf, rfl⟩
      | none => rw [hb] at this; cases this
    have hread : buf.read s.recvOffset (g.stop - s.recvOffset) =
        slice (fun i => some (S i)) s.recvOffset (g.stop - s.recvOffset) := by
      refine slice_congr (fun i h1 h2 => ?_)
      have := hcell i h1 (by omega)
      rwa [recvCell, hbuf] at this
    refine ⟨?_, htail⟩
    simp only [hbuf]
    rw [streamData_deliver (by exact hon), if_pos rfl, List.flatMap_append, List.flatMap_singleton, hread,
      QuicStreamCtx.addRecvd_trace, h.delivered]
    exact slice_grow _ (Nat.le_of_lt hlt)
  · exact ⟨h.delivered, htail⟩

theorem RecvSound.drain (hon : ctx.onStreamData = true) (h : RecvSound S s (streamData s.streamId ctx.trace)) :
    RecvSound S (gapDrain s ctx).1 (streamData s.streamId (gapDrain s ctx).2.trace) :=
  gapDrain_kept (fun hg hle hon h => h.drainOne hg hle hon) hon h

theorem RecvSound.deliver (hf : FrameOf S f) (hle : f.offset ≤ s.recvOffset) (hon : ctx.onStreamData = true)
    (h : RecvSound S s (streamData s.streamId ctx.trace)) :
    RecvSound S (recvDeliver f s ctx).1 (streamData s.streamId (recvDeliver f s ctx).2.trace) := by
  unfold recvDeliver
  split
  · rename_i hlt
    refine RecvSound.drain (s := { s with recvOffset := f.stop, recvBufLen := max s.recvBufLen f.stop })
      ((deliver_onStreamData _ _ _ _).trans hon) ⟨?_, h.buffered⟩
    rw [streamData_deliver (by exact hon), if_pos rfl, List.flatMap_append, List.flatMap_singleton, hf.drop hle,
      QuicStreamCtx.addRecvd_trace, h.delivered]
    exact slice_grow _ (Nat.le_of_lt hlt)
  · exact h

theorem RecvSound.inOrder {q : QueueFn} (hf : FrameOf S f) (hle : f.offset ≤ s.recvOffset) (hon : ctx.onStreamData = true)
    (h : RecvSound S s (streamData s.streamId ctx.trace)) :
    RecvSound S (recvInOrder q f s ctx).1 (streamData s.streamId (recvInOrder q f s ctx).2.trace) := by
  obtain ⟨m, ctx', he, hq⟩ := recvInOrder_spec q f s ctx
  have hd := h.deliver hf hle hon
  have hl := recvDeliver_local f s ctx
  rw [he]
  unfold recvFin
  split
  · refine ⟨?_, hd.buffered⟩
    have hon' : ctx'.onStreamData = true := hq.onStreamData.trans (hl.2.onStreamData.trans hon)
    rw [streamData_deliver hon', List.flatMap_append, hq.data, hd.delivered]
    split <;> simp
  · rw [hq.data]
    exact ⟨hd.delivered, hd.buffered⟩

theorem RecvSound.frame {q : QueueFn} (hf : FrameOf S f) (hon : ctx.onStreamData = true) (h : RecvSound S s (streamData s.streamId
    ctx.trace)) : RecvSound S (recvFrame q f s ctx).1 (streamData s.streamId (recvFrame q f s ctx).2.trace) := by
  have hid := noteFin_id f s
  have hn : RecvSound S (noteFin f s) (streamData (noteFin f s).streamId ctx.trace) := by
    rw [hid]
    unfold noteFin
    split
    · exact ⟨h.delivered, h.buffered⟩
    · exact h
  unfold recvFrame
  dsimp only
  split
  · exact (hid ▸ hn).outOfOrder hf s.streamId
  · rename_i hle
    have := hn.inOrder (q := q) hf (Nat.le_of_not_lt hle) hon
    rwa [hid] at this

end Sound

theorem recvRun_sound (q : QueueFn) (st : RecvStart) (S : Nat → Nat → Byte) (fs : List StreamFrame)
    (hfs : ∀ f ∈ fs, FrameOf (S f.streamId) f) (sid : Nat) (s : QuicStream) (hs : streamFind (recvRun q st fs).ctx sid = some s) :
    RecvSound (S sid) s (streamData sid (recvRun q st fs).ctx.trace) := by
  have hinv := recvRun_streams q (fun _ s d => RecvSound (S s.streamId) s d) (fun _ f => FrameOf (S f.streamId) f)
    (fun s hs => hs.sound)
    (fun _ f s ctx hon hid _ hok h => by
      rw [← hid] at hok h ⊢
      rw [(recvFrame_local q f s ctx).1]
      exact h.frame hok hon)
    st fs (stepsOk_of_forall _ _ fs _ (fun f hf w _ => hfs f hf))
  have := hinv.found sid s hs
  rwa [streamFind_id hs] at this

/-- **The deliveries of a stream are the stream**: after any calls whose frames carry the bytes of their streams, in
any order, duplicated or overlapping, the bytes passed to `on_stream_data` for a stream are its first `recv_offset`
bytes. -/
theorem delivered_eq_stream (q : QueueFn) (st : RecvStart) (S : Nat → Nat → Byte) (fs : List StreamFrame)
    (hfs : ∀ f ∈ fs, FrameOf (S f.streamId) f) (sid : Nat) (s : QuicStream)
    (hs : streamFind (recvRun q st fs).ctx sid = some s) :
    delivered sid (recvRun q st fs).ctx.trace = slice (fun i => some (S sid i)) 0 s.recvOffset :=
  (recvRun_sound q st S fs hfs sid s hs).delivered

/-- A server connection after its handshake: no streams, 64 MiB of connection credit given. -/
def serverStart : RecvStart :=
  ⟨{ nextLocalBidiId := 1, nextLocalUniId := 3, maxDataLocal := QUIC_STREAM_RECV_BUF_SIZE }, rfl, rfl, fun _ h => by cases h⟩

def acceptAll : QueueFn := fun _ _ => true

/-- The stream whose byte at position `i` is `i`. -/
def countStream : Nat → Byte := fun i => BitVec.ofNat 8 i

def swappedRun : List StreamFrame := [cutFrame countStream 0 1 1 false, cutFrame countStream 0 0 1 false]

/-- The first byte of `countStream`, and the second. -/
def firstByte (fin : Bool) : StreamFrame := cutFrame countStream 0 0 1 fin

def secondByte (fin : Bool) : StreamFrame := cutFrame countStream 0 1 1 fin

theorem swappedRun_of : ∀ f ∈ swappedRun, FrameOf countStream f := by simp [swappedRun, cutFrame_of]

theorem delivered_eq_stream_swapped :
    delivered 0 (recvRun acceptAll serverStart swappedRun).ctx.trace = slice (fun i => some (countStream i)) 0 2 := by
  obtain ⟨s, hs, h2⟩ : ∃ s, streamFind (recvRun acceptAll serverStart swappedRun).ctx 0 = some s ∧ s.recvOffset = 2 :=
    ⟨_, rfl, rfl⟩
  rw [← h2]
  exact delivered_eq_stream acceptAll serverStart (fun _ => countStream) swappedRun swappedRun_of 0 s hs

/-! ## What is accepted is delivered, while the gap table has room -/

/-- The frame is not past `recv_offset`, or a slot is free, or its positions are in the table already. -/
def TableTakes (s : QuicStream) (f : StreamFrame) : Prop :=
  s.recvOffset < f.offset → s.gapTable.gaps.length < QUIC_STREAM_MAX_GAPS ∨
    ∀ i, f.offset ≤ i → i < f.stop → Range.Covers s.gapTable.gaps i

structure RecvComplete (fs : List StreamFrame) (s : QuicStream) : Prop where
  ordered : Range.Ordered s.gapTable.gaps
  ahead : ∀ g ∈ s.gapTable.gaps, s.recvOffset < g.offset
  kept : ∀ f ∈ fs, ∀ i, f.offset ≤ i → i < f.stop → i < s.recvOffset ∨ Range.Covers s.gapTable.gaps i

theorem FreshRecv.complete (h : FreshRecv s) : RecvComplete [] s := by
  refine ⟨?_, ?_, fun f hf => by cases hf⟩
  · rw [h.gaps]; exact List.Pairwise.nil
  · rw [h.gaps]; exact fun g hg => by cases hg

theorem RecvComplete.covered_lt {fs : List StreamFrame} (h : RecvComplete fs s)
    (hf : f ∈ fs) (h1 : f.offset ≤ s.recvOffset) : f.stop ≤ s.recvOffset := by
  by_contra hlt
  rcases h.kept f hf s.recvOffset h1 (by omega) with hr | ⟨g, hg, hle, _⟩
  · omega
  · have := h.ahead g hg
    omega

theorem gapInsert_ordered (o l : Nat) (h : Range.Ordered t.gaps) : Range.Ordered (gapInsert t o l).gaps := by
  unfold gapInsert
  split
  · exact Range.ordered_merge (Range.ordered_place _ h)
  · exact Range.ordered_merge h

theorem gapInsert_ahead {o a : Nat} (l : Nat) (ho : a < o) (h : ∀ g ∈ t.gaps, a < g.offset) :
    ∀ g ∈ (gapInsert t o l).gaps, a < g.offset := by
  intro g hg
  unfold gapInsert at hg
  split at hg
  · obtain ⟨y, hy, he⟩ := Range.offset_mem_merge hg
    rw [he]
    rcases Range.mem_place.1 hy with rfl | hy
    · exact ho
    · exact h y hy
  · obtain ⟨y, hy, he⟩ := Range.offset_mem_merge hg
    rw [he]
    exact h y hy

theorem covers_gapInsert {o l i : Nat} (h : Range.Ordered t.gaps) (hi : Range.Covers t.gaps i ∨
    (t.gaps.length < QUIC_STREAM_MAX_GAPS ∧ o ≤ i ∧ i < o + l)) : Range.Covers (gapInsert t o l).gaps i := by
  unfold gapInsert
  split
  · rw [Range.covers_merge (Range.ordered_place _ h), Range.covers_place]
    exact hi.symm.imp_left (fun h => h.2)
  · rename_i hfull
    rw [Range.covers_merge h]
    exact hi.resolve_right (fun h => hfull h.1)

section Complete

variable {fs : List StreamFrame}

variable {ctx : QuicStreamCtx} {f : StreamFrame} {s : QuicStream}

theorem RecvComplete.outOfOrder {q : QueueFn} (hpast : s.recvOffset < f.offset) (hok : TableTakes s f) (h : RecvComplete fs s) :
    RecvComplete (fs ++ [f]) (recvOutOfOrder q f s ctx).1 := by
  obtain ⟨⟨m, hm⟩, -⟩ := recvOutOfOrder_spec q f s ctx
  rw [hm]
  refine ⟨gapInsert_ordered _ _ h.ordered, gapInsert_ahead _ hpast h.ahead, fun f' hf' i h1 h2 => ?_⟩
  rcases List.mem_append.1 hf' with hf' | hf'
  · exact (h.kept f' hf' i h1 h2).imp_right (fun hc => covers_gapInsert h.ordered (Or.inl hc))
  · rw [List.mem_singleton] at hf'
    subst hf'
    refine Or.inr (covers_gapInsert h.ordered ?_)
    exact (hok hpast).symm.imp (fun hc => hc i h1 h2) (fun hroom => ⟨hroom, h1, h2⟩)

theorem RecvComplete.drain (ho : Range.Ordered s.gapTable.gaps) (hk : ∀ f ∈ fs, ∀ i, f.offset ≤ i → i < f.stop →
    i < s.recvOffset ∨ Range.Covers s.gapTable.gaps i) : RecvComplete fs (gapDrain s ctx).1 := by
  have hloop := gapDrainLoop_inv (fun s' _ => Range.Ordered s'.gapTable.gaps ∧
      ∀ f ∈ fs, ∀ i, f.offset ≤ i → i < f.stop → i < s'.recvOffset ∨ Range.Covers s'.gapTable.gaps i)
    (fun s' ctx' g t hg hle h => ?_) _ s ctx (Nat.le_refl _) ⟨ho, hk⟩
  · obtain ⟨⟨ho', hk'⟩, hexit⟩ := hloop
    -- the first range left is past `recv_offset`, and the ranges are in order
    refine ⟨ho', fun g hg => ?_, hk'⟩
    show (gapDrainLoop _ s ctx).1.recvOffset < g.offset
    cases hl : (gapDrainLoop s.gapTable.gaps.length s ctx).1.gapTable.gaps with
    | nil => rw [show (gapDrain s ctx).1.gapTable.gaps = [] from hl] at hg; cases hg
    | cons g0 t =>
      have h0 := hexit g0 (by rw [hl]; rfl)
      rw [show (gapDrain s ctx).1.gapTable.gaps = g0 :: t from hl] at hg
      rcases List.mem_cons.1 hg with rfl | hg
      · exact h0
      · rw [hl] at ho'
        exact Nat.lt_of_lt_of_le h0 (List.rel_of_pairwise_cons ho' hg)
  · obtain ⟨ho, hk⟩ := h
    have hpop : s'.gapTable.pop.gaps = t := by simp [GapTable.pop, hg]
    rw [hg] at ho hk
    have hkeep : ∀ r, max s'.recvOffset g.stop ≤ r →
        ∀ f ∈ fs, ∀ i, f.offset ≤ i → i < f.stop → i < r ∨ Range.Covers s'.gapTable.pop.gaps i := by
      intro r hr f hf i h1 h2
      rw [hpop]
      rcases hk f hf i h1 h2 with hi | hi
      · exact Or.inl (by omega)
      · rcases Range.covers_cons.1 hi with hi | hi
        · exact Or.inl (by omega)
        · exact Or.inr hi
    have hord : Range.Ordered s'.gapTable.pop.gaps := by rw [hpop]; exact ho.of_cons
    unfold gapDrainOne
    split
    · exact ⟨hord, hkeep _ (by show max _ _ ≤ g.stop; omega)⟩
    · exact ⟨hord, hkeep _ (by show max _ _ ≤ s'.recvOffset; omega)⟩

theorem RecvComplete.inOrder {q : QueueFn} (hle : f.offset ≤ s.recvOffset) (h : RecvComplete fs s) :
    RecvComplete (fs ++ [f]) (recvInOrder q f s ctx).1 := by
  have hd : RecvComplete (fs ++ [f]) (recvDeliver f s ctx).1 := by
    unfold recvDeliver
    split
    · rename_i hlt
      refine RecvComplete.drain h.ordered (fun f' hf' i h1 h2 => ?_)
      rcases List.mem_append.1 hf' with hf' | hf'
      · exact (h.kept f' hf' i h1 h2).imp_left (fun hi => by show i < f.stop; omega)
      · rw [List.mem_singleton] at hf'
        subst hf'
        exact Or.inl h2
    · rename_i hge
      refine ⟨h.ordered, h.ahead, fun f' hf' i h1 h2 => ?_⟩
      rcases List.mem_append.1 hf' with hf' | hf'
      · exact h.kept f' hf' i h1 h2
      · rw [List.mem_singleton] at hf'
        subst hf'
        exact Or.inl (Nat.lt_of_lt_of_le h2 (Nat.le_of_not_lt hge))
  obtain ⟨m, ctx', he, -⟩ := recvInOrder_spec q f s ctx
  rw [he]
  unfold recvFin
  split
  · exact ⟨hd.ordered, hd.ahead, hd.kept⟩
  · exact ⟨hd.ordered, hd.ahead, hd.kept⟩

theorem RecvComplete.frame {q : QueueFn}
    (hok : TableTakes s f) (h : RecvComplete fs s) : RecvComplete (fs ++ [f]) (recvFrame q f s ctx).1 := by
  have hn : RecvComplete fs (noteFin f s) ∧ TableTakes (noteFin f s) f := by
    unfold noteFin
    split
    · exact ⟨⟨h.ordered, h.ahead, h.kept⟩, hok⟩
    · exact ⟨h, hok⟩
  unfold recvFrame
  dsimp only
  split
  · rename_i hpast
    exact hn.1.outOfOrder hpast hn.2
  · rename_i hle
    exact hn.1.inOrder (Nat.le_of_not_lt hle)

end Complete

/-- **Nothing accepted is lost while the table takes every frame**: in a run whose steps all find room, a stream whose
accepted frames cover the first `n` positions has delivered `n` bytes at least. -/
theorem delivered_of_covered (q : QueueFn) (st : RecvStart) (S : Nat → Nat → Byte) (fs : List StreamFrame)
    (hfs : ∀ f ∈ fs, FrameOf (S f.streamId) f) (hok : StepsOk (recvStep q) (RecvOk TableTakes) st.run fs)
    (sid : Nat) (s : QuicStream) (hs : streamFind (recvRun q st fs).ctx sid = some s) (n : Nat)
    (hcov : ∀ i < n, ∃ f ∈ (recvRun q st fs).accepted, f.streamId = sid ∧ f.offset ≤ i ∧ i < f.stop) :
    n ≤ s.recvOffset ∧ n ≤ (delivered sid (recvRun q st fs).ctx.trace).length := by
  have hinv := recvRun_streams q (fun fs s _ => RecvComplete fs s) TableTakes (fun s hs => hs.complete)
    (fun _ f s ctx _ _ _ hok h => h.frame hok) st fs hok
  have hc := hinv.found sid s hs
  have hn : n ≤ s.recvOffset := by
    by_contra hlt
    obtain ⟨f, hf, hsid, h1, h2⟩ := hcov s.recvOffset (by omega)
    have := hc.covered_lt (List.mem_filter.2 ⟨hf, by simpa using hsid⟩) h1
    omega
  have hdelivered : delivered sid (recvRun q st fs).ctx.trace = _ := (recvRun_sound q st S fs hfs sid s hs).delivered
  rw [hdelivered, slice_length]
  exact ⟨hn, hn⟩

theorem delivered_of_covered_swapped : 2 ≤ (delivered 0 (recvRun acceptAll serverStart swappedRun).ctx.trace).length :=
  (delivered_of_covered acceptAll serverStart (fun _ => countStream) swappedRun swappedRun_of
    ⟨fun _ _ => Or.inl (by decide), fun _ h => absurd h (by decide), trivial⟩ 0 _ rfl 2
    (by
      show ∀ i < 2, ∃ f ∈ swappedRun, f.streamId = 0 ∧ f.offset ≤ i ∧ i < f.stop
      decide)).2

/-- Eight ranges with holes between them, a ninth that finds the table full, and then every byte up to the ninth. -/
def tableFullRun : List StreamFrame :=
  [cutFrame countStream 0 2 1 false (by decide) one_lt_two_pow_62, cutFrame countStream 0 4 1 false (by decide) one_lt_two_pow_62,
   cutFrame countStream 0 6 1 false (by decide) one_lt_two_pow_62, cutFrame countStream 0 8 1 false (by decide) one_lt_two_pow_62,
   cutFrame countStream 0 10 1 false (by decide) one_lt_two_pow_62,
   cutFrame countStream 0 12 1 false (by decide) one_lt_two_pow_62,
   cutFrame countStream 0 14 1 false (by decide) one_lt_two_pow_62,
   cutFrame countStream 0 16 1 false (by decide) one_lt_two_pow_62,
   cutFrame countStream 0 18 1 false (by decide) one_lt_two_pow_62,
   cutFrame countStream 0 0 18 false zero_lt_two_pow_62]

/-- **The ninth range is lost**: every call of `tableFullRun` returns 0 and its frames cover 19 bytes, and only 18 are
delivered. -/
theorem accepted_range_lost : ¬ ∀ (q : QueueFn) (st : RecvStart) (S : Nat → Nat → Byte) (fs : List StreamFrame) (sid : Nat)
    (s : QuicStream) (n : Nat), (∀ f ∈ fs, FrameOf (S f.streamId) f) → (recvRun q st fs).accepted = fs → streamFind
    (recvRun q st fs).ctx sid = some s → (∀ i < n, ∃ f ∈ fs, f.streamId = sid ∧ f.offset ≤ i ∧ i < f.stop) → n ≤ s.recvOffset ∧
    n ≤ (delivered sid (recvRun q st fs).ctx.trace).length := by
  intro h
  have hfs : ∀ f ∈ tableFullRun, FrameOf countStream f := by
    simp [tableFullRun, cutFrame_of]
  have := (h acceptAll serverStart (fun _ => countStream) tableFullRun 0 _ 19 hfs rfl rfl (by decide)).1
  exact absurd this (by decide)

end MoqLiveCast
