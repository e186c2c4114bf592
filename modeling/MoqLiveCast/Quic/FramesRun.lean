import MoqLiveCast.Quic.FramesSent
/-!
# FramesRun — the frames of unacknowledged packets over whole runs

They are held until they are acknowledged, with the exception `chunk_alloc` makes on purpose: a full pool evicts its
most hopeless chunk, and the frames of a chunk that was lost twice are nowhere else.
-/
namespace MoqLiveCast

open List

/-! ## Runs -/

/-- **The frames of a packet are held until it, or a packet that shares its chunk, is acknowledged**, unless its space is
discarded or its chunk evicted: in every state reached with no packet sent under a chunk id that a failed `send_imm_fn`
had left behind, a chunk that is not acknowledged holds them. -/
theorem frames_held (fuel : Nat) (calls : List RecoveryCall) (ctx : QuicRecoveryCtx) (hrun : calls.foldlM (recoveryStep fuel) {} =
    some ctx) (hleft : ctx.leftoverTaken = 0) (pn chunkId : Nat) (pktType : PktType) (frames : List Byte) (hsent :
    RecoveryEffect.sent pn chunkId true pktType frames ∈ ctx.trace) (hframes : frames ≠ []) (hacked : RecoveryEffect.acked chunkId
    ∉ ctx.trace) (hdiscarded : RecoveryEffect.discarded pktType ∉ ctx.trace) (hevicted : RecoveryEffect.evicted chunkId ∉
    ctx.trace) : ∃ c ∈ ctx.chunks, c.chunkId = chunkId ∧ c.state ≠ .acked ∧ c.frames = some frames := by
  rcases (run_heldSoFar hrun hleft).sent pn chunkId true pktType frames hsent hframes with h | h | h | ⟨c, hc, hid, hs, hf, -⟩
  · exact absurd h hacked
  · exact absurd h hevicted
  · exact absurd h hdiscarded
  · exact ⟨c, hc, hid, hs, hf⟩

def resentCtx : QuicRecoveryCtx :=
  compactSentPackets (lossEnd { lossImm := fun _ => some 1 } 1000
    (lossTurns { lossImm := fun _ => some 1 } (sendNew {} ⟨0, true, 1, [7], .short, 0⟩) 1000 3))

theorem resentCtx_run (fuel : Nat) :
    [RecoveryCall.packetSent ⟨0, true, 1, [7], .short, 0⟩, .checkLosses 1000 { lossImm := fun _ => some 1 }].foldlM
      (recoveryStep fuel) {} = some resentCtx := by
  unfold resentCtx
  rw [← detectLosses_eq (by decide) (by decide +kernel)]
  rfl

theorem frames_held_resent : ∃ c ∈ resentCtx.chunks, c.chunkId = 0 ∧ c.state ≠ .acked ∧ c.frames = some [7] :=
  frames_held 0 _ _ (resentCtx_run 0) (by decide +kernel) 0 0 .short [7] (by decide +kernel) (by decide)
    (by decide +kernel) (by decide +kernel) (by decide +kernel)

/-! ## An evicted chunk -/

def FramesSomewhere (ctx : QuicRecoveryCtx) (frames : List Byte) : Prop :=
  (∃ c ∈ ctx.chunks, c.state ≠ .acked ∧ c.frames = some frames) ∨
  ∃ p ∈ ctx.sentPackets.toList, p.acknowledged = false ∧ p.frames = some frames

def lostChunk : QuicRecoveryChunk := ⟨0, .lost, 0, 1, some [7], 1, .short, 1000⟩

def lostTwiceCtx : QuicRecoveryCtx := compactSentPackets (lossEnd {} 2000 (lossTurns {} resentCtx 2000 3))

theorem lostTwiceCtx_run : quicRecoveryCheckLosses {} resentCtx 2000 = lostTwiceCtx := by
  unfold quicRecoveryCheckLosses
  rw [detectLosses_eq (k := 3) (by decide) (by decide +kernel)]
  rfl

/-- The pool with the lost chunk first and `k` others after it, none of which has its frames. -/
structure Pooled (k : Nat) (ctx : QuicRecoveryCtx) : Prop where
  chunks : ∃ rest, ctx.chunks = lostChunk :: rest ∧ rest.length = k ∧
    ∀ c ∈ rest, c.state = .sending ∧ c.retransCount = 0 ∧ c.frames = some [8]
  ids : IdsBelow ctx
  current : ctx.currentRetransChunkId = NO_CHUNK
  wf : ctx.sentPackets.Wf
  records : ∀ p ∈ ctx.sentPackets.toList, p.frames ≠ some [7]
  sent : RecoveryEffect.sent 0 0 true .short [7] ∈ ctx.trace
  unfinished : ∀ e ∈ ctx.trace, (∀ id, e ≠ .acked id) ∧ ∀ t, e ≠ .discarded t

theorem lostTwice_pooled : Pooled 0 lostTwiceCtx := by
  have hchunks : lostTwiceCtx.chunks = [lostChunk] := by decide +kernel
  have hids : ∀ c ∈ lostTwiceCtx.chunks, c.chunkId < lostTwiceCtx.nextChunkId := by decide +kernel
  have hwf : lostTwiceCtx.sentPackets.head < 4096 ∧ lostTwiceCtx.sentPackets.count ≤ 4096 := by decide +kernel
  have hrecords : ∀ p ∈ lostTwiceCtx.sentPackets.toList, p.frames ≠ some [7] := by decide +kernel
  have htrace : lostTwiceCtx.trace = [.sent 0 0 true .short [7], .ccPacketSent 0 1 0, .sendImm .short [7],
      .sent 1 0 true .short [7], .ccPacketSent 1 1 1000, .ccCongestionEvent 1000, .flush] := by decide +kernel
  refine ⟨⟨[], hchunks, rfl, fun c hc => absurd hc not_mem_nil⟩, hids, by decide +kernel, ⟨hwf.1, hwf.2⟩, hrecords,
    ?_, fun e he => ?_⟩
  · rw [htrace]
    exact mem_cons_self
  · rw [htrace] at he
    simp only [mem_cons, not_mem_nil, or_false] at he
    refine ⟨fun id h => ?_, fun t h => ?_⟩
    · rw [h] at he
      simp at he
    · rw [h] at he
      simp at he

def otherPacket (pn : Nat) : SentArgs := ⟨pn, true, 1, [8], .short, 2000⟩

theorem pushFill_chunks {ctx : QuicRecoveryCtx} (hids : IdsBelow ctx) (pn : Nat) : ∃ c, (chunkFill (chunkPush ctx 2000)
    (otherPacket pn) ctx.nextChunkId).chunks = ctx.chunks ++ [c] ∧ c.state = .sending ∧ c.retransCount = 0 ∧
    c.frames = some [8] := by
  refine ⟨⟨ctx.nextChunkId, .sending, 2000, 1, some [8], 0, .short, 2000⟩, ?_, rfl, rfl, rfl⟩
  unfold chunkFill
  rw [if_neg (show ¬ (otherPacket pn).frames = [] from cons_ne_nil 8 [])]
  show (ctx.chunks ++ [_]).map _ = _
  rw [map_append]
  refine congrArg₂ (· ++ ·) ?_ ?_
  · conv_rhs => rw [← map_id ctx.chunks]
    exact map_congr_left (fun c hc => if_neg (Nat.ne_of_lt (hids c hc)))
  · simp [otherPacket]

theorem sentMakeRoom_trace (ctx : QuicRecoveryCtx) : (sentMakeRoom ctx).trace = ctx.trace := by
  have hcompact : (sentCompact ctx).trace = ctx.trace := by
    unfold sentCompact
    split <;> rfl
  have hsub : ∀ (c : QuicRecoveryCtx) (b : Nat), (inflightSub c b).trace = c.trace := fun c b => by
    unfold inflightSub
    split <;> rfl
  unfold sentMakeRoom
  dsimp only
  split
  · split
    · exact (hsub _ _).trans hcompact
    · exact hcompact
  · exact hcompact

theorem packetSent_trace {ctx : QuicRecoveryCtx} (hcurrent : ctx.currentRetransChunkId = NO_CHUNK) (a : SentArgs) :
    ∃ l, (quicRecoveryOnPacketSent ctx a).trace = ctx.trace ++ l ∧ ∀ e ∈ l, (∀ id, e ≠ .acked id) ∧ ∀ t, e ≠ .discarded t := by
  obtain ⟨-, hcurrent', -⟩ := sentMakeRoom_chunks ctx
  obtain ⟨ctx', hkept, he⟩ := sentChunk_new (retransChunk_none (hcurrent'.trans hcurrent)) a
  obtain ⟨evicted, hevicted⟩ := hkept.trace
  have hroom := sentMakeRoom_trace ctx
  have harm : ∀ c : QuicRecoveryCtx, (sentArm c a).trace = c.trace := fun c => by
    unfold sentArm armPtoTimer
    split
    · split <;> rfl
    · rfl
  obtain ⟨l, hl, hcc⟩ := sentNotify_trace (sentStore (sentChunk (sentMakeRoom ctx) a).2
    (sentRecord a (some (sentMakeRoom ctx).nextChunkId))) a (sentMakeRoom ctx).nextChunkId
  have hchunk : (sentChunk (sentMakeRoom ctx) a).2.trace = ctx.trace ++ evicted.map .evicted := by
    rw [he, (chunkFill_trace _ a _).1, ← hroom]
    exact hevicted
  refine ⟨evicted.map .evicted ++ .sent a.pn (sentMakeRoom ctx).nextChunkId a.ackEliciting a.pktType a.frames :: l, ?_,
    fun e hmem => ?_⟩
  · unfold quicRecoveryOnPacketSent
    dsimp only
    rw [harm, show (sentChunk (sentMakeRoom ctx) a).1 = some (sentMakeRoom ctx).nextChunkId by rw [he], hl]
    show (sentChunk (sentMakeRoom ctx) a).2.trace ++ _ = _
    rw [hchunk, append_assoc]
  · rcases List.mem_append.1 hmem with hmem | hmem
    · obtain ⟨id, -, rfl⟩ := List.mem_map.1 hmem
      exact ⟨fun _ h => (by cases h), fun _ h => (by cases h)⟩
    · rcases List.mem_cons.1 hmem with rfl | hmem
      · exact ⟨fun _ h => (by cases h), fun _ h => (by cases h)⟩
      · obtain ⟨_, _, _, rfl⟩ := hcc e hmem
        exact ⟨fun _ h => (by cases h), fun _ h => (by cases h)⟩

theorem packetSent_records {ctx : QuicRecoveryCtx} (hwf : ctx.sentPackets.Wf) (a : SentArgs) : (quicRecoveryOnPacketSent ctx
    a).sentPackets.Wf ∧ ∀ p ∈ (quicRecoveryOnPacketSent ctx a).sentPackets.toList, p ∈ ctx.sentPackets.toList ∨
    ∀ f, p.frames = some f → f = a.frames := by
  have hcompact : (sentCompact ctx).sentPackets.Wf ∧ ∀ p ∈ (sentCompact ctx).sentPackets.toList, p ∈ ctx.sentPackets.toList := by
    rw [sentCompact_ring]
    split
    · refine ⟨Ring.wf_compact hwf _, fun p hp => ?_⟩
      unfold ringCompact at hp
      rw [Ring.toList_compact hwf] at hp
      exact mem_of_mem_filter hp
    · exact ⟨hwf, fun p hp => hp⟩
  rw [packetSent_ring]
  refine ⟨ringStore_wf hcompact.1 _, fun p hp => ?_⟩
  rcases mem_ringStore hcompact.1 hp with rfl | hp
  · right
    intro f hf
    unfold sentRecord at hf
    dsimp only at hf
    split at hf
    · cases hf
    · cases hf
      rfl
  · exact Or.inl (hcompact.2 p hp)

theorem sendNew_pooled {k : Nat} {ctx : QuicRecoveryCtx} (h : Pooled k ctx) (hk : k + 1 < QUIC_RECOVERY_MAX_CHUNKS)
    (pn : Nat) : Pooled (k + 1) (sendNew ctx (otherPacket pn)) := by
  obtain ⟨⟨rest, hchunks, hlen, hrest⟩, hids, hcurrent, hwf, hrecords, hsent, hopen⟩ := h
  obtain ⟨hroomc, hroomcur, hroomn⟩ := sentMakeRoom_chunks ctx
  obtain ⟨hsc, hscur, hsn⟩ := packetSent_chunks ctx (otherPacket pn)
  have hids' : IdsBelow (sentMakeRoom ctx) := (sentMakeRoom_keeps ctx).ids hids
  have hlength : (sentMakeRoom ctx).chunks.length < QUIC_RECOVERY_MAX_CHUNKS := by
    rw [hroomc, hchunks, length_cons, hlen]
    exact hk
  have hnone := retransChunk_none (hroomcur.trans hcurrent)
  obtain ⟨c, hpush, hc⟩ := pushFill_chunks hids' pn
  obtain ⟨l, htrace, hl⟩ := packetSent_trace hcurrent (otherPacket pn)
  obtain ⟨hwf', hrecords'⟩ := packetSent_records hwf (otherPacket pn)
  have hheld := sentChunk_held hids' (otherPacket pn) (Or.inl (hroomcur.trans hcurrent))
  obtain ⟨id, -, hkeeps, -⟩ := hheld
  rw [sendNew_eq hcurrent]
  refine ⟨⟨rest ++ [c], ?_, ?_, fun d hd => ?_⟩, ?_, hscur.trans (sentChunk_current _ _), hwf', fun p hp => ?_, ?_,
    fun e he => ?_⟩
  · rw [hsc, sentChunk_room hnone hlength]
    exact hpush.trans (by rw [hroomc, hchunks]; rfl)
  · rw [length_append, hlen]
    rfl
  · rcases List.mem_append.1 hd with hd | hd
    · exact hrest d hd
    · rw [List.mem_singleton.1 hd]
      exact hc
  · unfold IdsBelow
    rw [hsc, hsn]
    exact hkeeps.ids hids'
  · rcases hrecords' p hp with hp | hf
    · exact hrecords p hp
    · intro he
      have := hf [7] he
      cases this
  · rw [htrace]
    exact mem_append_left _ hsent
  · rw [htrace] at he
    rcases List.mem_append.1 he with he | he
    · exact hopen e he
    · exact hl e he

theorem chunkVictimFrom_best {v score : Nat} : ∀ (l : List QuicRecoveryChunk) (i : Nat),
    (∀ c ∈ l, chunkScore c ≤ score) → chunkVictimFrom i (some (v, score)) l = some v
  | [], _, _ => rfl
  | c :: l, i, h => by
    have hrest := chunkVictimFrom_best (v := v) l (i + 1) (fun d hd => h d (mem_cons_of_mem _ hd))
    have hc := h c mem_cons_self
    unfold chunkVictimFrom
    split
    · exact hrest
    · dsimp only
      rw [if_neg (Nat.not_lt.2 hc)]
      exact hrest

theorem chunkVictim_lost {rest : List QuicRecoveryChunk} (h : ∀ c ∈ rest, c.state = .sending ∧ c.retransCount = 0 ∧ c.frames =
    some [8]) : chunkVictim (lostChunk :: rest) = some 0 := by
  have hscores : ∀ c ∈ rest, chunkScore c ≤ chunkScore lostChunk := fun c hc => by
    obtain ⟨hs, hr, -⟩ := h c hc
    unfold chunkScore
    rw [hs, hr]
    simp
  exact chunkVictimFrom_best rest 1 hscores

theorem sendNew_evicted {ctx : QuicRecoveryCtx} (h : Pooled 511 ctx) (pn : Nat) :
    ¬ FramesSomewhere (sendNew ctx (otherPacket pn)) [7] := by
  obtain ⟨⟨rest, hchunks, hlen, hrest⟩, hids, hcurrent, hwf, hrecords, -, -⟩ := h
  obtain ⟨hroomc, hroomcur, hroomn⟩ := sentMakeRoom_chunks ctx
  obtain ⟨hsc, -, -⟩ := packetSent_chunks ctx (otherPacket pn)
  have hnone := retransChunk_none (hroomcur.trans hcurrent)
  have hstate : ∀ c ∈ (sentMakeRoom ctx).chunks, c.state ≠ .acked := fun c hc => by
    rw [hroomc, hchunks] at hc
    rcases List.mem_cons.1 hc with rfl | hc
    · exact fun h => by cases h
    · rw [(hrest c hc).1]
      exact fun h => by cases h
  obtain ⟨ctx', hevict, hfull⟩ := sentChunk_full hnone (by rw [hroomc, hchunks, length_cons, hlen]; exact Nat.le_refl _) hstate
    (v := 0) (by rw [hroomc, hchunks]; exact chunkVictim_lost hrest) (otherPacket pn)
  obtain ⟨-, hrecords'⟩ := packetSent_records hwf (otherPacket pn)
  rw [sendNew_eq hcurrent]
  rintro (⟨c, hc, -, hf⟩ | ⟨p, hp, -, hf⟩)
  · rw [hsc, hfull] at hc
    rcases mem_chunkFill hc with hc | ⟨-, -, hframes, -⟩
    · rcases List.mem_append.1 hc with hc | hc
      · rw [hevict, hroomc, hchunks, eraseIdx_cons_zero] at hc
        rw [(hrest c hc).2.2] at hf
        cases hf
      · rw [List.mem_singleton.1 hc] at hf
        cases hf
    · rw [hframes] at hf
      cases hf
  · rcases hrecords' p hp with hp | hold
    · exact hrecords p hp hf
    · have := hold [7] hf
      cases this

theorem sendAll_pooled : ∀ (l : List Nat) {k : Nat} {ctx : QuicRecoveryCtx}, Pooled k ctx →
    k + l.length < QUIC_RECOVERY_MAX_CHUNKS → Pooled (k + l.length) (sendAll ctx (l.map otherPacket))
  | [], _, _, h, _ => h
  | pn :: l, k, ctx, h, hl => by
    rw [length_cons] at hl ⊢
    have hnext := sendAll_pooled l (sendNew_pooled h (by omega) pn) (by omega)
    rw [Nat.add_right_comm, Nat.add_assoc] at hnext
    exact hnext

def evictedCalls : List RecoveryCall :=
  [.packetSent ⟨0, true, 1, [7], .short, 0⟩, .checkLosses 1000 { lossImm := fun _ => some 1 }, .checkLosses 2000 {}] ++
    ((range' 2 511 ++ [513]).map otherPacket).map .packetSent

theorem foldlM_lostTwice (fuel : Nat) :
    [RecoveryCall.packetSent ⟨0, true, 1, [7], .short, 0⟩, .checkLosses 1000 { lossImm := fun _ => some 1 },
      .checkLosses 2000 {}].foldlM (recoveryStep fuel) {} = some lostTwiceCtx := by
  have h : ([RecoveryCall.packetSent ⟨0, true, 1, [7], .short, 0⟩, .checkLosses 1000 { lossImm := fun _ => some 1 }] ++
      [RecoveryCall.checkLosses 2000 {}]).foldlM (recoveryStep fuel) {} = some (quicRecoveryCheckLosses {} resentCtx 2000) := by
    rw [foldlM_append, resentCtx_run]
    rfl
  rw [lostTwiceCtx_run] at h
  exact h

theorem evictedCalls_run (fuel : Nat) : evictedCalls.foldlM (recoveryStep fuel) {} =
    some (sendNew (sendAll lostTwiceCtx ((range' 2 511).map otherPacket)) (otherPacket 513)) := by
  unfold evictedCalls
  rw [foldlM_append, foldlM_lostTwice, Option.bind_eq_bind, Option.bind_some, foldlM_packetSent, map_append]
  unfold sendAll
  rw [foldl_append, map_cons, map_nil, foldl_cons, foldl_nil]

/-- **Frames are dropped**: a full pool evicts the chunk of a packet that was lost twice, and nothing else holds its
frames. -/
theorem frames_dropped : ¬ ∀ (fuel : Nat) (calls : List RecoveryCall) (ctx : QuicRecoveryCtx), calls.foldlM (recoveryStep fuel)
    {} = some ctx → ∀ (pn chunkId : Nat) (pktType : PktType) (frames : List Byte), RecoveryEffect.sent pn chunkId true pktType
    frames ∈ ctx.trace → frames ≠ [] → RecoveryEffect.acked chunkId ∉ ctx.trace → RecoveryEffect.discarded pktType ∉ ctx.trace →
    FramesSomewhere ctx frames := by
  intro hclaim
  have hpooled : Pooled 511 (sendAll lostTwiceCtx ((range' 2 511).map otherPacket)) := by
    have h := sendAll_pooled (range' 2 511) lostTwice_pooled (by rw [length_range']; decide)
    rwa [length_range', Nat.zero_add] at h
  obtain ⟨l, htrace, hl⟩ := packetSent_trace hpooled.current (otherPacket 513)
  have hheld := hclaim 0 evictedCalls _ (evictedCalls_run 0) 0 0 .short [7]
  rw [sendNew_eq hpooled.current, htrace] at hheld
  have hnone : ∀ e ∈ (sendAll lostTwiceCtx ((range' 2 511).map otherPacket)).trace ++ l,
      (∀ id, e ≠ .acked id) ∧ ∀ t, e ≠ .discarded t := fun e he => by
    rcases List.mem_append.1 he with he | he
    · exact hpooled.unfinished e he
    · exact hl e he
  have h := hheld (mem_append_left _ hpooled.sent) (by decide) (fun h => (hnone _ h).1 0 rfl)
    (fun h => (hnone _ h).2 .short rfl)
  rw [← sendNew_eq hpooled.current] at h
  exact sendNew_evicted hpooled 513 h

end MoqLiveCast
