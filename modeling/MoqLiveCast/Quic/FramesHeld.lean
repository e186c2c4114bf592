import MoqLiveCast.Quic.RecoveryInv
import MoqLiveCast.Quic.RecoveryPool
/-!
# FramesHeld — the frames of an unacknowledged packet stay in a chunk

`Keeps` is what a step does to the frames recovery holds: they stay in their chunk, unless the chunk was acknowledged,
evicted or of a space that was discarded.
-/
namespace MoqLiveCast

def Safe (ctx : QuicRecoveryCtx) (chunkId : Nat) (pktType : PktType) (frames : List Byte) : Prop :=
  RecoveryEffect.acked chunkId ∈ ctx.trace ∨ RecoveryEffect.evicted chunkId ∈ ctx.trace ∨
  RecoveryEffect.discarded pktType ∈ ctx.trace ∨
  ∃ c ∈ ctx.chunks, c.chunkId = chunkId ∧ c.state ≠ .acked ∧ c.frames = some frames ∧ c.pktType = pktType

def IdsBelow (ctx : QuicRecoveryCtx) : Prop := ∀ c ∈ ctx.chunks, c.chunkId < ctx.nextChunkId

/-- **The frames of the packets sent and of the records are safe.** -/
structure Held (ctx : QuicRecoveryCtx) : Prop where
  wf : ctx.sentPackets.Wf
  ids : IdsBelow ctx
  sent : ∀ pn id el t f, RecoveryEffect.sent pn id el t f ∈ ctx.trace → f ≠ [] → Safe ctx id t f
  records : ∀ p ∈ ctx.sentPackets.toList, ∀ f, p.frames = some f → Safe ctx p.chunkId p.pktType f

structure Keeps (ctx ctx' : QuicRecoveryCtx) : Prop where
  wf : ctx.sentPackets.Wf → ctx'.sentPackets.Wf
  ids : IdsBelow ctx → IdsBelow ctx'
  safe : IdsBelow ctx → ∀ id t f, Safe ctx id t f → Safe ctx' id t f
  sent : ∀ pn id el t f, RecoveryEffect.sent pn id el t f ∈ ctx'.trace → RecoveryEffect.sent pn id el t f ∈ ctx.trace
  records : ctx.sentPackets.Wf → ∀ p ∈ ctx'.sentPackets.toList, ∀ f, p.frames = some f →
    ∃ q ∈ ctx.sentPackets.toList, q.chunkId = p.chunkId ∧ q.pktType = p.pktType ∧ q.frames = some f
  leftover : ctx'.leftoverTaken = ctx.leftoverTaken

theorem Keeps.refl (ctx : QuicRecoveryCtx) : Keeps ctx ctx :=
  ⟨id, id, fun _ _ _ _ h => h, fun _ _ _ _ _ h => h, fun _ p hp _ hf => ⟨p, hp, rfl, rfl, hf⟩, rfl⟩

theorem Keeps.trans {a b c : QuicRecoveryCtx} (h : Keeps a b) (h' : Keeps b c) : Keeps a c := by
  refine ⟨fun hw => h'.wf (h.wf hw), fun hi => h'.ids (h.ids hi), fun hi id t f hs => ?_,
    fun pn id el t f hs => h.sent pn id el t f (h'.sent pn id el t f hs), fun hw p hp f hf => ?_,
    h'.leftover.trans h.leftover⟩
  · exact h'.safe (h.ids hi) id t f (h.safe hi id t f hs)
  · obtain ⟨q, hq, hid, ht, hqf⟩ := h'.records (h.wf hw) p hp f hf
    obtain ⟨q', hq', hid', ht', hqf'⟩ := h.records hw q hq f hqf
    exact ⟨q', hq', hid'.trans hid, ht'.trans ht, hqf'⟩

theorem Keeps.held {ctx ctx' : QuicRecoveryCtx} (hk : Keeps ctx ctx') (h : Held ctx) : Held ctx' := by
  refine ⟨hk.wf h.wf, hk.ids h.ids, fun pn id el t f hs hf => ?_, fun p hp f hf => ?_⟩
  · exact hk.safe h.ids id t f (h.sent pn id el t f (hk.sent pn id el t f hs) hf)
  · obtain ⟨q, hq, hid, ht, hqf⟩ := hk.records h.wf p hp f hf
    rw [← hid, ← ht]
    exact hk.safe h.ids _ _ _ (h.records q hq f hqf)

theorem Keeps.foldl {ε : Type} (step : QuicRecoveryCtx → ε → QuicRecoveryCtx) (hstep : ∀ ctx e, Keeps ctx (step ctx e)) :
    ∀ (l : List ε) (ctx : QuicRecoveryCtx), Keeps ctx (l.foldl step ctx)
  | [], ctx => Keeps.refl ctx
  | e :: l, ctx => (hstep ctx e).trans (Keeps.foldl step hstep l (step ctx e))

/-! ## Steps that touch neither ring nor chunks -/

theorem SameHeld.keeps {ctx ctx' : QuicRecoveryCtx} (h : SameHeld ctx ctx') : Keeps ctx ctx' := by
  obtain ⟨hr, hc, hn, ht, hl⟩ := h
  refine ⟨fun hw => hr ▸ hw, fun hi => ?_, fun _ id t f hs => ?_, fun pn id el t f hs => ht ▸ hs, fun _ p hp f hf => ?_, hl⟩
  · unfold IdsBelow
    rw [hc, hn]
    exact hi
  · unfold Safe
    rw [ht, hc]
    exact hs
  · rw [hr] at hp
    exact ⟨p, hp, rfl, rfl, hf⟩

theorem Safe.mono {ctx ctx' : QuicRecoveryCtx} {id : Nat} {t : PktType} {f : List Byte} (h : Safe ctx id t f)
    (ht : ∀ e ∈ ctx.trace, e ∈ ctx'.trace) (hc : ∀ c ∈ ctx.chunks, c ∈ ctx'.chunks) : Safe ctx' id t f := by
  rcases h with h | h | h | ⟨c, hmem, hrest⟩
  · exact Or.inl (ht _ h)
  · exact Or.inr (Or.inl (ht _ h))
  · exact Or.inr (Or.inr (Or.inl (ht _ h)))
  · exact Or.inr (Or.inr (Or.inr ⟨c, hc c hmem, hrest⟩))

theorem call_keeps {ctx : QuicRecoveryCtx} {e : RecoveryEffect} (h : ∀ pn id el t f, e ≠ .sent pn id el t f) :
    Keeps ctx (ctx.call e) := by
  refine ⟨id, id, fun _ _ _ _ hs => hs.mono (fun _ he => List.mem_append_left _ he) (fun _ hc => hc),
    fun pn id el t f hs => ?_, fun _ p hp _ hf => ⟨p, hp, rfl, rfl, hf⟩, rfl⟩
  rcases List.mem_append.1 hs with hs | hs
  · exact hs
  · exact absurd (List.mem_singleton.1 hs).symm (h pn id el t f)

/-! ## Writes to the ring and to the chunks -/

theorem setPacket_keeps {ctx : QuicRecoveryCtx} (idx : Nat) {x : QuicRecoverySentPacket} (hx : ∀ f, x.frames = some f →
    ∃ q ∈ ctx.sentPackets.toList, q.chunkId = x.chunkId ∧ q.pktType = x.pktType ∧ q.frames = some f) : Keeps ctx (ctx.setPacket
    idx x) := by
  refine ⟨fun hw => Ring.wf_set hw _ _, id, fun _ _ _ _ hs => hs, fun _ _ _ _ _ hs => hs, fun _ p hp f hf => ?_, rfl⟩
  rcases Ring.mem_toList_set hp with ⟨rfl, -⟩ | hp
  · exact hx f hf
  · exact ⟨p, hp, rfl, rfl, hf⟩

theorem dropFrames_keeps (ctx : QuicRecoveryCtx) (idx : Nat) {x : QuicRecoverySentPacket} (hx : x.frames = none) :
    Keeps ctx (ctx.setPacket idx x) :=
  setPacket_keeps idx (fun f hf => by rw [hx] at hf; cases hf)

theorem mapChunks_keeps {ctx ctx' : QuicRecoveryCtx} {g : QuicRecoveryChunk → QuicRecoveryChunk}
    (hc : ctx'.chunks = ctx.chunks.map g) (hr : ctx'.sentPackets = ctx.sentPackets) (hn : ctx'.nextChunkId = ctx.nextChunkId)
    (ht : ctx'.trace = ctx.trace) (hl : ctx'.leftoverTaken = ctx.leftoverTaken) (hid : ∀ c, (g c).chunkId = c.chunkId)
    (hg : ∀ c ∈ ctx.chunks, c.state ≠ .acked → RecoveryEffect.acked c.chunkId ∈ ctx.trace ∨ RecoveryEffect.discarded c.pktType ∈
    ctx.trace ∨ (g c).state ≠ .acked ∧ (g c).frames = c.frames ∧ (g c).pktType = c.pktType) : Keeps ctx ctx' := by
  refine ⟨fun hw => hr ▸ hw, fun hi c hmem => ?_, fun _ id t f hs => ?_, fun pn id el t f hs => ht ▸ hs,
    fun _ p hp f hf => ⟨p, hr ▸ hp, rfl, rfl, hf⟩, hl⟩
  · rw [hc] at hmem
    obtain ⟨d, hd, rfl⟩ := List.mem_map.1 hmem
    rw [hid, hn]
    exact hi d hd
  · unfold Safe
    rw [ht, hc]
    rcases hs with h | h | h | ⟨c, hmem, rfl, hstate, hframes, rfl⟩
    · exact Or.inl h
    · exact Or.inr (Or.inl h)
    · exact Or.inr (Or.inr (Or.inl h))
    · rcases hg c hmem hstate with h | h | ⟨h1, h2, h3⟩
      · exact Or.inl h
      · exact Or.inr (Or.inr (Or.inl h))
      · exact Or.inr (Or.inr (Or.inr ⟨g c, List.mem_map_of_mem hmem, hid c, h1, h2.trans hframes, h3⟩))

theorem updateChunk_keeps (ctx : QuicRecoveryCtx) (id : Nat) {f : QuicRecoveryChunk → QuicRecoveryChunk} (hid :
    ∀ c, (f c).chunkId = c.chunkId) (hf : ∀ c, c.state ≠ .acked → (f c).state ≠ .acked ∧ (f c).frames = c.frames ∧
    (f c).pktType = c.pktType) : Keeps ctx (ctx.updateChunk id f) := by
  refine mapChunks_keeps rfl rfl rfl rfl rfl (fun c => ?_) (fun c _ hstate => Or.inr (Or.inr ?_))
  · split
    · exact hid c
    · rfl
  · split
    · exact hf c hstate
    · exact ⟨hstate, rfl, rfl⟩

theorem chunkPtr_keeps (ctx : QuicRecoveryCtx) (c : Option QuicRecoveryChunk) {f : QuicRecoveryChunk → QuicRecoveryChunk}
    (hid : ∀ c, (f c).chunkId = c.chunkId) (hf : ∀ c, c.state ≠ .acked → (f c).state ≠ .acked ∧ (f c).frames = c.frames ∧
    (f c).pktType = c.pktType) : Keeps ctx (chunkPtr ctx c f) := by
  cases c with
  | none => exact Keeps.refl ctx
  | some c => exact updateChunk_keeps ctx c.chunkId hid hf

theorem compactSentPackets_keeps (ctx : QuicRecoveryCtx) : Keeps ctx (compactSentPackets ctx) := by
  refine ⟨fun hw => Ring.wf_compact hw _, id, fun _ _ _ _ hs => hs, fun _ _ _ _ _ hs => hs, fun hw p hp f hf => ?_, rfl⟩
  have hmem : p ∈ ctx.sentPackets.toList.filter (fun p => !p.acknowledged) := by
    rw [← Ring.toList_compact hw]
    exact hp
  exact ⟨p, List.mem_of_mem_filter hmem, rfl, rfl, hf⟩

/-! ## ACKs -/

theorem chunkAckPacket_keeps (id : Nat) (ctx : QuicRecoveryCtx) (i : Nat) : Keeps ctx (chunkAckPacket id ctx i) := by
  unfold chunkAckPacket
  dsimp only
  split
  · exact (inflightLeave_sameHeld ctx _).keeps.trans (dropFrames_keeps _ _ rfl)
  · exact Keeps.refl ctx

theorem chunkMarkAcked_keeps {ctx : QuicRecoveryCtx} {id : Nat} (h : RecoveryEffect.acked id ∈ ctx.trace) :
    Keeps ctx (chunkMarkAcked ctx id) := by
  unfold chunkMarkAcked
  split
  · exact Keeps.refl ctx
  · split
    · exact Keeps.refl ctx
    · refine Keeps.trans ?_ (Keeps.foldl _ (chunkAckPacket_keeps id) _ _)
      refine mapChunks_keeps rfl rfl rfl rfl rfl (fun c => ?_) (fun c _ hstate => ?_)
      · split <;> rfl
      · by_cases hid : c.chunkId = id
        · rw [hid]
          exact Or.inl h
        · rw [if_neg hid]
          exact Or.inr (Or.inr ⟨hstate, rfl, rfl⟩)

theorem markPacket_keeps {ctx : QuicRecoveryCtx} {i : Nat} (hi : i < ctx.sentPackets.count) :
    Keeps ctx (ctx.setPacket (ctx.sentPackets.slot i) { ctx.sentPackets.get i with acknowledged := true }) :=
  setPacket_keeps _ fun _ hf => ⟨ctx.sentPackets.get i, List.mem_map_of_mem (List.mem_range.2 hi), rfl, rfl, hf⟩

/-! ## The end of a space -/

theorem clearPacket_keeps (t : PktType) (ctx : QuicRecoveryCtx) (i : Nat) : Keeps ctx (clearPacket t ctx i) := by
  unfold clearPacket
  dsimp only
  split
  · exact (inflightLeave_sameHeld ctx _).keeps.trans (dropFrames_keeps _ _ rfl)
  · exact Keeps.refl ctx

theorem clearPacket_trace (t : PktType) (ctx : QuicRecoveryCtx) (i : Nat) : (clearPacket t ctx i).trace = ctx.trace := by
  unfold clearPacket inflightLeave inflightSub
  dsimp only
  split
  · split
    · split <;> rfl
    · rfl
  · rfl

theorem recoveryClearSpace_keeps (ctx : QuicRecoveryCtx) (t : PktType) : Keeps ctx (recoveryClearSpace ctx t) := by
  unfold recoveryClearSpace
  dsimp only
  generalize (ctx.call (.discarded t)).sentPackets.count = n
  have htrace : RecoveryEffect.discarded t ∈ ((List.range n).foldl (clearPacket t) (ctx.call (.discarded t))).trace :=
    foldl_inv (clearPacket t) (fun _ _ => True) (fun c => RecoveryEffect.discarded t ∈ c.trace)
      (fun c i hc _ => by rw [clearPacket_trace]; exact hc) _ _ (List.mem_append_right _ List.mem_cons_self)
      (stepsOk_of_forall _ _ _ _ (fun _ _ _ => trivial))
  have hcall : Keeps ctx (ctx.call (.discarded t)) := call_keeps (fun _ _ _ _ _ h => by cases h)
  have hfold := hcall.trans (Keeps.foldl _ (clearPacket_keeps t) (List.range n) _)
  generalize (List.range n).foldl (clearPacket t) (ctx.call (.discarded t)) = c at htrace hfold ⊢
  refine hfold.trans ?_
  refine mapChunks_keeps (g := clearChunk t) rfl rfl rfl rfl rfl (fun c => ?_) (fun c _ hstate => ?_)
  · unfold clearChunk
    split <;> rfl
  · by_cases ht : c.pktType = t
    · rw [ht]
      exact Or.inr (Or.inl htrace)
    · unfold clearChunk
      rw [if_neg (fun h => ht h.2)]
      exact Or.inr (Or.inr ⟨hstate, rfl, rfl⟩)

end MoqLiveCast
