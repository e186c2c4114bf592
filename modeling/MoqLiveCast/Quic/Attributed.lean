import MoqLiveCast.Quic.FramesSent
/-!
# Attributed — the packets of a chunk carry its frames

A packet is recorded under the chunk `current_retrans_chunk_id_` names, or under a fresh one.
-/
namespace MoqLiveCast

open List

def heldFrames (frames : List Byte) : Option (List Byte) := if frames = [] then none else some frames

theorem heldFrames_of_some {f g : List Byte} (h : heldFrames f = some g) : f = g ∧ g ≠ [] := by
  unfold heldFrames at h
  split at h
  · cases h
  · rename_i hf
    cases h
    exact ⟨rfl, hf⟩

/-- **Every packet recorded under a chunk carries the frames of that chunk.** -/
structure RecordsAttributed (ctx : QuicRecoveryCtx) : Prop where
  /-- an acknowledged packet, and the packets its chunk retires, carry the same frames -/
  alike : ∀ {pn id el t f pn' el' t' f'}, RecoveryEffect.sent pn id el t f ∈ ctx.trace →
    RecoveryEffect.sent pn' id el' t' f' ∈ ctx.trace → f' = f
  /-- the record of a packet, and a live chunk, hold the packet's frames -/
  records : ∀ p ∈ ctx.sentPackets.toList, ∃ f, RecoveryEffect.sent p.pn p.chunkId p.ackEliciting p.pktType f ∈ ctx.trace ∧
    (∀ g, p.frames = some g → g = f) ∧
    ∀ c ∈ ctx.chunks, c.chunkId = p.chunkId → c.state ≠ .acked → c.frames = heldFrames f

def NotAcked (ctx : QuicRecoveryCtx) (id : Nat) : Prop := ∀ c ∈ ctx.chunks, c.chunkId = id → c.state ≠ .acked

/-- **What every step keeps.** -/
structure Attributed (ctx : QuicRecoveryCtx) : Prop where
  wf : ctx.sentPackets.Wf
  below : ∀ {pn id el t f}, RecoveryEffect.sent pn id el t f ∈ ctx.trace → id < ctx.nextChunkId
  alike : ∀ {pn id el t f pn' el' t' f'}, RecoveryEffect.sent pn id el t f ∈ ctx.trace →
    RecoveryEffect.sent pn' id el' t' f' ∈ ctx.trace → f' = f ∧ (f ≠ [] → t' = t)
  unique : ∀ c ∈ ctx.chunks, ∀ d ∈ ctx.chunks, c.chunkId = d.chunkId → c = d
  source : ∀ c ∈ ctx.chunks, ∃ pn el t f, RecoveryEffect.sent pn c.chunkId el t f ∈ ctx.trace
  chunk : ∀ {pn id el t f}, RecoveryEffect.sent pn id el t f ∈ ctx.trace → ∀ c ∈ ctx.chunks, c.chunkId = id →
    c.state ≠ .acked → c.frames = heldFrames f ∧ (f ≠ [] → c.pktType = t)
  record : ∀ p ∈ ctx.sentPackets.toList, ∃ f, RecoveryEffect.sent p.pn p.chunkId p.ackEliciting p.pktType f ∈ ctx.trace ∧
    ∀ g, p.frames = some g → g = f ∧ g ≠ []
  live : ∀ p ∈ ctx.sentPackets.toList, p.acknowledged = false → p.frames.isSome → NotAcked ctx p.chunkId

theorem Attributed.recordsAttributed {ctx : QuicRecoveryCtx} (h : Attributed ctx) : RecordsAttributed ctx := by
  refine ⟨fun hs hs' => (h.alike hs hs').1, fun p hp => ?_⟩
  obtain ⟨f, hsent, hf⟩ := h.record p hp
  exact ⟨f, hsent, fun g hg => (hf g hg).1, fun c hc hid hstate => (h.chunk hsent c hc hid hstate).1⟩

theorem attributed_init : Attributed {} :=
  ⟨⟨by decide, by decide⟩, fun hs => absurd hs not_mem_nil, fun hs => absurd hs not_mem_nil,
    fun _ hc => absurd hc not_mem_nil, fun _ hc => absurd hc not_mem_nil,
    fun hs => absurd hs not_mem_nil, fun _ hp => absurd hp not_mem_nil, fun _ hp => absurd hp not_mem_nil⟩

/-! ## Records that fade -/

/-- A record that loses its frames, or is acknowledged, or found lost. -/
structure Fades (p q : QuicRecoverySentPacket) : Prop where
  pn : q.pn = p.pn
  chunkId : q.chunkId = p.chunkId
  ackEliciting : q.ackEliciting = p.ackEliciting
  pktType : q.pktType = p.pktType
  frames : q.frames = p.frames ∨ q.frames = none
  acknowledged : q.acknowledged = false → p.acknowledged = false

theorem Fades.refl (p : QuicRecoverySentPacket) : Fades p p := ⟨rfl, rfl, rfl, rfl, Or.inl rfl, id⟩

section Steps

variable {ctx ctx' : QuicRecoveryCtx}

theorem Attributed.fade (h : Attributed ctx) (hwf : ctx'.sentPackets.Wf) (hring : ∀ q ∈ ctx'.sentPackets.toList,
    ∃ p ∈ ctx.sentPackets.toList, Fades p q) (hchunks : ctx'.chunks = ctx.chunks) (hnext : ctx'.nextChunkId = ctx.nextChunkId)
    (htrace : ∀ pn id el t f, RecoveryEffect.sent pn id el t f ∈ ctx'.trace ↔ RecoveryEffect.sent pn id el t f ∈ ctx.trace) :
    Attributed ctx' := by
  refine ⟨hwf, fun hs => ?_, fun hs hs' => h.alike ((htrace _ _ _ _ _).1 hs) ((htrace _ _ _ _ _).1 hs'), ?_, fun c hc => ?_,
    fun hs => ?_, fun q hq => ?_, fun q hq hack hframes => ?_⟩
  · rw [hnext]
    exact h.below ((htrace _ _ _ _ _).1 hs)
  · rw [hchunks]
    exact h.unique
  · rw [hchunks] at hc
    obtain ⟨pn, el, t, f, hs⟩ := h.source c hc
    exact ⟨pn, el, t, f, (htrace _ _ _ _ _).2 hs⟩
  · rw [hchunks]
    exact h.chunk ((htrace _ _ _ _ _).1 hs)
  · obtain ⟨p, hp, hpq⟩ := hring q hq
    obtain ⟨f, hs, hf⟩ := h.record p hp
    rw [hpq.pn, hpq.chunkId, hpq.ackEliciting, hpq.pktType]
    refine ⟨f, (htrace _ _ _ _ _).2 hs, fun g hg => ?_⟩
    rcases hpq.frames with he | he
    · exact hf g (he ▸ hg)
    · rw [he] at hg
      cases hg
  · obtain ⟨p, hp, hpq⟩ := hring q hq
    unfold NotAcked
    rw [hchunks, hpq.chunkId]
    refine h.live p hp (hpq.acknowledged hack) ?_
    rcases hpq.frames with he | he
    · rw [← he]
      exact hframes
    · rw [he] at hframes
      cases hframes

theorem Attributed.same (h : Attributed ctx) (hs : SameHeld ctx ctx') : Attributed ctx' :=
  h.fade (hs.ring ▸ h.wf) (fun q hq => ⟨q, hs.ring ▸ hq, Fades.refl q⟩) hs.chunks hs.nextChunkId
    (fun _ _ _ _ _ => by rw [hs.trace])

theorem Attributed.call (h : Attributed ctx) {e : RecoveryEffect} (he : ∀ pn id el t f, e ≠ .sent pn id el t f) :
    Attributed (ctx.call e) := by
  refine h.fade h.wf (fun q hq => ⟨q, hq, Fades.refl q⟩) rfl rfl (fun pn id el t f => ?_)
  refine ⟨fun hs => ?_, fun hs => mem_append_left _ hs⟩
  rcases List.mem_append.1 hs with hs | hs
  · exact hs
  · exact absurd (List.mem_singleton.1 hs).symm (he pn id el t f)

theorem Attributed.setPacket (h : Attributed ctx) (idx : Nat) {q : QuicRecoverySentPacket}
    (hq : Fades (ctx.sentPackets.cells idx) q) : Attributed (ctx.setPacket idx q) := by
  refine h.fade (Ring.wf_set h.wf _ _) (fun p hp => ?_) rfl rfl (fun _ _ _ _ _ => Iff.rfl)
  rcases Ring.mem_toList_set hp with ⟨rfl, hcell⟩ | hp
  · exact ⟨_, hcell, hq⟩
  · exact ⟨p, hp, Fades.refl p⟩

theorem Attributed.compact (h : Attributed ctx) : Attributed (compactSentPackets ctx) := by
  refine h.fade (Ring.wf_compact h.wf _) (fun q hq => ⟨q, ?_, Fades.refl q⟩) rfl rfl (fun _ _ _ _ _ => Iff.rfl)
  have hmem : q ∈ ctx.sentPackets.toList.filter (fun p => !p.acknowledged) := by
    rw [← Ring.toList_compact h.wf]
    exact hq
  exact mem_of_mem_filter hmem

theorem Attributed.mapChunks (h : Attributed ctx) {g : QuicRecoveryChunk → QuicRecoveryChunk}
    (hid : ∀ c, (g c).chunkId = c.chunkId)
    (hopen : ∀ c ∈ ctx.chunks, (g c).state ≠ .acked → c.state ≠ .acked ∧ (g c).frames = c.frames ∧ (g c).pktType = c.pktType)
    (hacked : ∀ c ∈ ctx.chunks, c.state ≠ .acked → (g c).state = .acked →
      ∀ p ∈ ctx.sentPackets.toList, p.acknowledged = false → p.frames.isSome → p.chunkId ≠ c.chunkId) :
    Attributed { ctx with chunks := ctx.chunks.map g } := by
  refine ⟨h.wf, h.below, h.alike, fun c hc d hd he => ?_, fun c hc => ?_, fun hs c hc hcid hstate => ?_, h.record,
    fun p hp hack hframes c hc hcid hstate => ?_⟩
  · obtain ⟨c₀, hc₀, rfl⟩ := List.mem_map.1 hc
    obtain ⟨d₀, hd₀, rfl⟩ := List.mem_map.1 hd
    rw [hid, hid] at he
    rw [h.unique c₀ hc₀ d₀ hd₀ he]
  · obtain ⟨c₀, hc₀, rfl⟩ := List.mem_map.1 hc
    rw [hid]
    exact h.source c₀ hc₀
  · obtain ⟨c₀, hc₀, rfl⟩ := List.mem_map.1 hc
    obtain ⟨hstate₀, hframes, htype⟩ := hopen c₀ hc₀ hstate
    rw [hframes, htype]
    exact h.chunk hs c₀ hc₀ ((hid c₀).symm.trans hcid) hstate₀
  · obtain ⟨c₀, hc₀, rfl⟩ := List.mem_map.1 hc
    rw [hid] at hcid
    exact hacked c₀ hc₀ (h.live p hp hack hframes c₀ hc₀ hcid) hstate p hp hack hframes hcid.symm

/-! ## Records and chunks that are retired -/

/-- What `chunk_mark_acked` and the end of a space do to a record they select. -/
def retireRecord (sel : QuicRecoverySentPacket → Prop) [DecidablePred sel] (ctx : QuicRecoveryCtx) (i : Nat) : QuicRecoveryCtx :=
  let idx := ctx.sentPackets.slot i
  let p := ctx.sentPackets.cells idx
  if sel p ∧ p.acknowledged = false then (inflightLeave ctx p).setPacket idx { p with acknowledged := true, frames := none }
  else ctx

theorem clearPacket_eq (t : PktType) (ctx : QuicRecoveryCtx) (i : Nat) :
    clearPacket t ctx i = retireRecord (fun p => p.pktType = t) ctx i := by
  unfold clearPacket retireRecord
  dsimp only
  simp only [and_comm]

section Retire

variable (sel : QuicRecoverySentPacket → Prop) [DecidablePred sel]

theorem retireRecord_attributed (h : Attributed ctx) (i : Nat) : Attributed (retireRecord sel ctx i) := by
  unfold retireRecord
  dsimp only
  split
  · have hleave := inflightLeave_sameHeld ctx (ctx.sentPackets.cells (ctx.sentPackets.slot i))
    refine (h.same hleave).setPacket _ ?_
    rw [hleave.ring]
    exact ⟨rfl, rfl, rfl, rfl, Or.inr rfl, fun he => Bool.noConfusion he⟩
  · exact h

theorem retireRecord_ring (ctx : QuicRecoveryCtx) (i : Nat) : (retireRecord sel ctx i).sentPackets =
    if sel (ctx.sentPackets.get i) ∧ (ctx.sentPackets.get i).acknowledged = false then
      ctx.sentPackets.set (ctx.sentPackets.slot i) { ctx.sentPackets.get i with acknowledged := true, frames := none }
    else ctx.sentPackets := by
  unfold retireRecord
  show (if sel (ctx.sentPackets.get i) ∧ (ctx.sentPackets.get i).acknowledged = false then _ else ctx).sentPackets = _
  split
  · show (inflightLeave ctx _).sentPackets.set _ _ = _
    rw [(inflightLeave_sameHeld ctx _).ring]
    rfl
  · rfl

theorem retire_all (h : Attributed ctx) : ∀ k ≤ ctx.sentPackets.count,
    ((range k).foldl (retireRecord sel) ctx).sentPackets.count = ctx.sentPackets.count ∧
      Attributed ((range k).foldl (retireRecord sel) ctx) ∧
      ∀ j < k, sel (((range k).foldl (retireRecord sel) ctx).sentPackets.get j) →
        (((range k).foldl (retireRecord sel) ctx).sentPackets.get j).acknowledged = true
  | 0, _ => ⟨rfl, h, fun j hj => absurd hj (Nat.not_lt_zero j)⟩
  | k + 1, hk => by
    obtain ⟨hcount, hattr, hsel⟩ := retire_all h k (Nat.le_of_succ_le hk)
    rw [range_succ, foldl_append, foldl_cons, foldl_nil]
    generalize (range k).foldl (retireRecord sel) ctx = c at hcount hattr hsel ⊢
    have hring := retireRecord_ring sel c k
    have hlt : k < c.sentPackets.count := hcount ▸ hk
    refine ⟨?_, retireRecord_attributed sel hattr k, fun j hj => ?_⟩
    · rw [hring]
      split <;> exact hcount
    · have hjlt : j < c.sentPackets.count := Nat.lt_of_lt_of_le hj hlt
      rw [hring]
      split
      · rw [Ring.get_set hattr.wf hlt hjlt]
        by_cases hjk : j = k
        · rw [if_pos hjk]
          exact fun _ => rfl
        · rw [if_neg hjk]
          exact hsel j (Nat.lt_of_le_of_ne (Nat.le_of_lt_succ hj) hjk)
      · rename_i hno
        by_cases hjk : j = k
        · rw [hjk]
          exact fun hs => (Bool.not_eq_false _).mp (fun hack => hno ⟨hs, hack⟩)
        · exact hsel j (Nat.lt_of_le_of_ne (Nat.le_of_lt_succ hj) hjk)

theorem retired (h : Attributed ctx) : Attributed ((range ctx.sentPackets.count).foldl (retireRecord sel) ctx) ∧
    ∀ p ∈ ((range ctx.sentPackets.count).foldl (retireRecord sel) ctx).sentPackets.toList, p.acknowledged = false → ¬ sel p := by
  obtain ⟨hcount, hattr, hsel⟩ := retire_all sel h ctx.sentPackets.count (Nat.le_refl _)
  refine ⟨hattr, fun p hp hack hs => ?_⟩
  obtain ⟨j, hj, rfl⟩ := List.mem_map.1 hp
  have hacked := hsel j (hcount ▸ List.mem_range.1 hj) hs
  rw [hack] at hacked
  cases hacked

end Retire

theorem foldl_retire_updateChunk (sel : QuicRecoverySentPacket → Prop) [DecidablePred sel] (id : Nat)
    (f : QuicRecoveryChunk → QuicRecoveryChunk) : ∀ (l : List Nat) (ctx : QuicRecoveryCtx),
      l.foldl (retireRecord sel) (ctx.updateChunk id f) = (l.foldl (retireRecord sel) ctx).updateChunk id f
  | [], _ => rfl
  | i :: l, ctx => by
    have hstep : retireRecord sel (ctx.updateChunk id f) i = (retireRecord sel ctx i).updateChunk id f := by
      have hsub : ∀ b, inflightSub (ctx.updateChunk id f) b = (inflightSub ctx b).updateChunk id f := fun b => by
        unfold inflightSub QuicRecoveryCtx.updateChunk
        dsimp only
        split <;> rfl
      have hleave : ∀ p, inflightLeave (ctx.updateChunk id f) p = (inflightLeave ctx p).updateChunk id f := fun p => by
        unfold inflightLeave
        split
        · exact hsub _
        · rfl
      have hring : (ctx.updateChunk id f).sentPackets = ctx.sentPackets := rfl
      unfold retireRecord
      dsimp only
      rw [hleave, hring]
      by_cases hp : sel (ctx.sentPackets.cells (ctx.sentPackets.slot i)) ∧
          (ctx.sentPackets.cells (ctx.sentPackets.slot i)).acknowledged = false
      · rw [if_pos hp, if_pos hp]
        rfl
      · rw [if_neg hp, if_neg hp]
    rw [foldl_cons, foldl_cons, hstep]
    exact foldl_retire_updateChunk sel id f l (retireRecord sel ctx i)

theorem chunkMarkAcked_attributed (h : Attributed ctx) (id : Nat) : Attributed (chunkMarkAcked ctx id) := by
  unfold chunkMarkAcked
  split
  · exact h
  · split
    · exact h
    · show Attributed ((range ctx.sentPackets.count).foldl (retireRecord (fun p => p.chunkId = id)) _)
      rw [foldl_retire_updateChunk]
      obtain ⟨hattr, hnone⟩ := retired (fun p => p.chunkId = id) h
      generalize (range ctx.sentPackets.count).foldl _ ctx = c at hattr hnone ⊢
      refine hattr.mapChunks (fun d => ?_) (fun d _ hstate => ?_) (fun d _ hstate hacked p hp hack _ => ?_)
      · split <;> rfl
      · split at hstate
        · exact absurd rfl hstate
        · rename_i hne
          rw [if_neg hne]
          exact ⟨hstate, rfl, rfl⟩
      · split at hacked
        · rename_i he
          rw [he]
          exact hnone p hp hack
        · exact absurd hacked hstate

theorem recoveryClearSpace_attributed (h : Attributed ctx) (t : PktType) : Attributed (recoveryClearSpace ctx t) := by
  have hcall : Attributed (ctx.call (.discarded t)) := h.call (fun _ _ _ _ _ he => by cases he)
  have hclear : clearPacket t = retireRecord (fun p => p.pktType = t) := funext fun c => funext (clearPacket_eq t c)
  unfold recoveryClearSpace
  dsimp only
  rw [hclear]
  obtain ⟨hattr, hnone⟩ := retired (fun p => p.pktType = t) hcall
  generalize (range (ctx.call (.discarded t)).sentPackets.count).foldl _ (ctx.call (.discarded t)) = c at hattr hnone ⊢
  refine hattr.mapChunks (fun d => ?_) (fun d _ hstate => ?_) (fun d hd hstate hacked p hp hack hframes hid => ?_)
  · unfold clearChunk
    split <;> rfl
  · unfold clearChunk at hstate ⊢
    split at hstate
    · exact absurd rfl hstate
    · rename_i hne
      rw [if_neg hne]
      exact ⟨hstate, rfl, rfl⟩
  · have htype : d.pktType = t := by
      unfold clearChunk at hacked
      split at hacked
      · rename_i ht
        exact ht.2
      · exact absurd hacked hstate
    obtain ⟨f, hsent, hf⟩ := hattr.record p hp
    obtain ⟨g, hg⟩ := Option.isSome_iff_exists.1 hframes
    obtain ⟨rfl, hne⟩ := hf g hg
    exact hnone p hp hack ((hattr.chunk hsent d hd hid.symm hstate).2 hne ▸ htype)

end Steps
end MoqLiveCast
