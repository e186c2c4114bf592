import MoqLiveCast.Quic.Recovery
/-!
# RecoveryPool — the pool of chunks always has a place

`chunk_alloc` never fails: a full pool without acknowledged chunks has a victim.  What it takes out of the pool is
acknowledged or evicted, and what a packet without a chunk puts in is its frames.
-/
namespace MoqLiveCast

/-! ## The victim -/

theorem chunkVictimFrom_some : ∀ (l : List QuicRecoveryChunk) (i : Nat) (best : Option (Nat × Nat)),
    (best.isSome = true ∨ ∃ c ∈ l, c.state ≠ .acked) → (∀ b, best = some b → b.1 < i) →
      ∃ v, chunkVictimFrom i best l = some v ∧ v < i + l.length
  | [], i, best, h, hb => by
    rcases h with h | ⟨c, hc, -⟩
    · obtain ⟨b, rfl⟩ := Option.isSome_iff_exists.1 h
      exact ⟨b.1, rfl, Nat.lt_of_lt_of_le (hb b rfl) (Nat.le_add_right _ _)⟩
    · cases hc
  | c :: l, i, best, h, hb => by
    have hlen : i + 1 + l.length = i + (c :: l).length := by rw [List.length_cons]; omega
    unfold chunkVictimFrom
    by_cases hack : c.state = .acked
    · rw [if_pos hack, ← hlen]
      refine chunkVictimFrom_some l (i + 1) best (h.imp id (fun ⟨d, hd, hs⟩ => ?_))
        (fun b hbest => Nat.lt_succ_of_lt (hb b hbest))
      rcases List.mem_cons.1 hd with rfl | hd
      · exact absurd hack hs
      · exact ⟨d, hd, hs⟩
    · rw [if_neg hack, ← hlen]
      cases best with
      | none =>
        exact chunkVictimFrom_some l (i + 1) (some (i, chunkScore c)) (Or.inl rfl)
          (fun b hbest => by cases hbest; exact Nat.lt_succ_self i)
      | some b =>
        refine chunkVictimFrom_some l (i + 1) _ (Or.inl ?_) (fun b' hbest => ?_)
        · split <;> rfl
        · have hlt := hb b rfl
          split at hbest
          · cases hbest
            exact Nat.lt_succ_self i
          · cases hbest
            exact Nat.lt_succ_of_lt hlt

theorem chunkVictim_some {chunks : List QuicRecoveryChunk} (h : ∃ c ∈ chunks, c.state ≠ .acked) :
    ∃ v, chunkVictim chunks = some v ∧ v < chunks.length := by
  obtain ⟨v, hv, hlt⟩ := chunkVictimFrom_some chunks 0 none (Or.inr h) (fun b hb => by cases hb)
  exact ⟨v, hv, by omega⟩

/-! ## `chunk_alloc` -/

/-- What room made in the pool keeps and says: the chunks that go are acknowledged or evicted, and only evictions are
logged. -/
structure PoolKept (ctx ctx' : QuicRecoveryCtx) : Prop where
  subset : ∀ c ∈ ctx'.chunks, c ∈ ctx.chunks
  gone : ∀ c ∈ ctx.chunks, c ∈ ctx'.chunks ∨ c.state = .acked ∨ RecoveryEffect.evicted c.chunkId ∈ ctx'.trace
  trace : ∃ evicted : List Nat, ctx'.trace = ctx.trace ++ evicted.map .evicted
  nextChunkId : ctx'.nextChunkId = ctx.nextChunkId
  current : ctx'.currentRetransChunkId = ctx.currentRetransChunkId
  leftoverTaken : ctx'.leftoverTaken = ctx.leftoverTaken

theorem poolKept_refl (ctx : QuicRecoveryCtx) : PoolKept ctx ctx :=
  ⟨fun _ h => h, fun _ h => Or.inl h, ⟨[], by simp⟩, rfl, rfl, rfl⟩

theorem chunkReclaim_kept (ctx : QuicRecoveryCtx) : PoolKept ctx (chunkReclaim ctx) := by
  refine ⟨fun c hc => List.mem_of_mem_filter hc, fun c hc => ?_, ⟨[], by simp [chunkReclaim]⟩, rfl, rfl, rfl⟩
  by_cases hack : c.state = .acked
  · exact Or.inr (Or.inl hack)
  · exact Or.inl (List.mem_filter.2 ⟨hc, by simpa using hack⟩)

theorem chunkEvict_kept (ctx : QuicRecoveryCtx) (victim : Nat) : PoolKept ctx (chunkEvict ctx victim) := by
  unfold chunkEvict
  cases hv : ctx.chunks[victim]? with
  | none => exact poolKept_refl ctx
  | some v =>
    refine ⟨fun c hc => List.mem_of_mem_eraseIdx hc, fun c hc => ?_, ⟨[v.chunkId], rfl⟩, rfl, rfl, rfl⟩
    obtain ⟨i, hi, rfl⟩ := List.mem_iff_getElem.1 hc
    by_cases hiv : i = victim
    · right
      right
      subst hiv
      rw [List.getElem?_eq_getElem hi, Option.some.injEq] at hv
      rw [hv]
      exact List.mem_append_right _ List.mem_cons_self
    · exact Or.inl (List.mem_eraseIdx_iff_getElem.2 ⟨i, hi, hiv, rfl⟩)

theorem PoolKept.trans {a b c : QuicRecoveryCtx} (h : PoolKept a b) (h' : PoolKept b c) : PoolKept a c := by
  obtain ⟨hs, hg, ⟨l, ht⟩, hn, hcur, hleft⟩ := h
  obtain ⟨hs', hg', ⟨l', ht'⟩, hn', hcur', hleft'⟩ := h'
  refine ⟨fun x hx => hs x (hs' x hx), fun x hx => ?_, ⟨l ++ l', ?_⟩, hn'.trans hn, hcur'.trans hcur,
    hleft'.trans hleft⟩
  · rcases hg x hx with hb | hack | hev
    · exact hg' x hb
    · exact Or.inr (Or.inl hack)
    · right
      right
      rw [ht']
      exact List.mem_append_left _ hev
  · rw [ht', ht, List.map_append, List.append_assoc]

theorem chunkAlloc_spec (ctx : QuicRecoveryCtx) (now : Nat) :
    ∃ ctx', PoolKept ctx ctx' ∧ chunkAlloc ctx now = (some ctx.nextChunkId, chunkPush ctx' now) := by
  unfold chunkAlloc
  by_cases hroom : ctx.chunks.length < QUIC_RECOVERY_MAX_CHUNKS
  · rw [if_pos hroom]
    exact ⟨ctx, poolKept_refl ctx, rfl⟩
  · rw [if_neg hroom]
    by_cases hroom' : (chunkReclaim ctx).chunks.length < QUIC_RECOVERY_MAX_CHUNKS
    · rw [if_pos hroom']
      exact ⟨chunkReclaim ctx, chunkReclaim_kept ctx, rfl⟩
    · rw [if_neg hroom']
      have hsome : ∃ c ∈ (chunkReclaim ctx).chunks, c.state ≠ .acked := by
        cases hl : (chunkReclaim ctx).chunks with
        | nil =>
          rw [hl] at hroom'
          exact absurd (by decide) hroom'
        | cons c l =>
          refine ⟨c, List.mem_cons_self, ?_⟩
          have hc : c ∈ (chunkReclaim ctx).chunks := by rw [hl]; exact List.mem_cons_self
          simpa using (List.mem_filter.1 hc).2
      obtain ⟨v, hv, -⟩ := chunkVictim_some hsome
      rw [hv]
      exact ⟨_, (chunkReclaim_kept ctx).trans (chunkEvict_kept _ v), rfl⟩

/-! ## The chunk of a packet -/

theorem sentChunk_new {ctx : QuicRecoveryCtx} (h : retransChunk ctx = none) (a : SentArgs) :
    ∃ ctx', PoolKept { ctx with currentRetransChunkId := NO_CHUNK } ctx' ∧
      sentChunk ctx a = (some ctx.nextChunkId, chunkFill (chunkPush ctx' a.now) a ctx.nextChunkId) := by
  obtain ⟨ctx', hkept, he⟩ := chunkAlloc_spec { ctx with currentRetransChunkId := NO_CHUNK } a.now
  refine ⟨ctx', hkept, ?_⟩
  unfold sentChunk
  rw [h]
  dsimp only
  rw [he]
  rfl

theorem mem_chunkFill {ctx : QuicRecoveryCtx} {a : SentArgs} {id : Nat} {c : QuicRecoveryChunk}
    (h : c ∈ (chunkFill ctx a id).chunks) :
    c ∈ ctx.chunks ∨ c.chunkId = id ∧ c.state = .sending ∧ c.frames = some a.frames ∧ c.pktType = a.pktType := by
  unfold chunkFill at h
  split at h
  · exact Or.inl h
  · obtain ⟨d, hd, rfl⟩ := List.mem_map.1 h
    by_cases hid : d.chunkId = id
    · rw [if_pos hid]
      exact Or.inr ⟨hid, rfl, rfl, rfl⟩
    · rw [if_neg hid]
      exact Or.inl hd

theorem sentChunk_room {ctx : QuicRecoveryCtx} (h : retransChunk ctx = none)
    (hroom : ctx.chunks.length < QUIC_RECOVERY_MAX_CHUNKS) (a : SentArgs) :
    (sentChunk ctx a).2.chunks = (chunkFill (chunkPush ctx a.now) a ctx.nextChunkId).chunks := by
  unfold sentChunk
  rw [h]
  dsimp only
  have halloc : chunkAlloc { ctx with currentRetransChunkId := NO_CHUNK } a.now =
      (some ctx.nextChunkId, chunkPush { ctx with currentRetransChunkId := NO_CHUNK } a.now) := if_pos hroom
  rw [halloc]
  unfold chunkFill
  dsimp only [Option.elim]
  split <;> rfl

theorem sentChunk_full {ctx : QuicRecoveryCtx} (h : retransChunk ctx = none) (hfull : QUIC_RECOVERY_MAX_CHUNKS ≤
    ctx.chunks.length) (hstate : ∀ c ∈ ctx.chunks, c.state ≠ .acked) {v : Nat} (hv : chunkVictim ctx.chunks = some v) (a :
    SentArgs) : ∃ ctx', ctx'.chunks = ctx.chunks.eraseIdx v ∧ (sentChunk ctx a).2.chunks = (chunkFill (chunkPush ctx' a.now) a
    ctx.nextChunkId).chunks := by
  have hlt : v < ctx.chunks.length := by
    have hne : ∃ c ∈ ctx.chunks, c.state ≠ .acked := by
      cases hl : ctx.chunks with
      | nil =>
        rw [hl] at hfull
        exact absurd hfull (by decide)
      | cons c l => exact ⟨c, List.mem_cons_self, hstate c (by rw [hl]; exact List.mem_cons_self)⟩
    obtain ⟨v', hv', hlt⟩ := chunkVictim_some hne
    rw [hv] at hv'
    cases hv'
    exact hlt
  have hreclaim : (chunkReclaim { ctx with currentRetransChunkId := NO_CHUNK }).chunks = ctx.chunks :=
    List.filter_eq_self.2 (fun c hc => by simpa using hstate c hc)
  refine ⟨chunkEvict (chunkReclaim { ctx with currentRetransChunkId := NO_CHUNK }) v, ?_, ?_⟩
  · unfold chunkEvict
    rw [hreclaim, List.getElem?_eq_getElem hlt]
  · have halloc : chunkAlloc { ctx with currentRetransChunkId := NO_CHUNK } a.now = (some ctx.nextChunkId,
        chunkPush (chunkEvict (chunkReclaim { ctx with currentRetransChunkId := NO_CHUNK }) v) a.now) := by
      unfold chunkAlloc
      rw [hreclaim, if_neg (Nat.not_lt.2 hfull), if_neg (Nat.not_lt.2 hfull), hv]
    unfold sentChunk
    rw [h]
    dsimp only
    rw [halloc]
    rfl

theorem sentChunk_current (ctx : QuicRecoveryCtx) (a : SentArgs) : (sentChunk ctx a).2.currentRetransChunkId = NO_CHUNK := by
  cases h : retransChunk ctx with
  | some c =>
    unfold sentChunk
    rw [h]
    rfl
  | none =>
    obtain ⟨ctx', hkept, he⟩ := sentChunk_new h a
    rw [he]
    unfold chunkFill
    split <;> exact hkept.current

end MoqLiveCast
