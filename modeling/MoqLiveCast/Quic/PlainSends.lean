import MoqLiveCast.Quic.InFlight
import MoqLiveCast.Quic.RecoveryPool
/-!
# PlainSends — packets that are no retransmissions fill the ring

Packets sent one after the other, with nothing acknowledged or lost in between, take the cells of the ring in order,
leave the RTT as it is and make no chunk LOST.
-/
namespace MoqLiveCast

/-! ## A ring filled from its first cell -/

/-- The first `k` cells hold records `good` says something of. -/
structure Filled (k : Nat) (good : Nat → QuicRecoverySentPacket → Prop) (r : SentRing) : Prop where
  count : r.count = k
  head : r.head = k % QUIC_RECOVERY_MAX_SENT_PACKETS
  cells : ∀ j < k, good j (r.cells j)

section Filled

variable {k : Nat} {good : Nat → QuicRecoverySentPacket → Prop} {r : SentRing}

theorem Filled.slot (h : Filled k good r) (hk : k ≤ QUIC_RECOVERY_MAX_SENT_PACKETS) {i : Nat} (hi : i < k) : r.slot i = i := by
  unfold Ring.slot
  rw [h.count, h.head]
  unfold QUIC_RECOVERY_MAX_SENT_PACKETS at *
  omega

theorem Filled.get (h : Filled k good r) (hk : k ≤ QUIC_RECOVERY_MAX_SENT_PACKETS) {i : Nat} (hi : i < k) : good i (r.get i) := by
  unfold Ring.get
  rw [h.slot hk hi]
  exact h.cells i hi

theorem Filled.push (h : Filled k good r) (hk : k < QUIC_RECOVERY_MAX_SENT_PACKETS) {p : QuicRecoverySentPacket}
    (hp : good k p) : Filled (k + 1) good (r.push p) := by
  have hhead : r.head = k := by rw [h.head, Nat.mod_eq_of_lt hk]
  refine ⟨?_, ?_, fun j hj => ?_⟩
  · show r.count + 1 = k + 1
    rw [h.count]
  · show (r.head + 1) % _ = _
    rw [hhead]
  · show good j (Function.update r.cells r.head p j)
    rw [hhead]
    rcases Nat.lt_or_eq_of_le (Nat.le_of_lt_succ hj) with hlt | rfl
    · rw [Function.update_of_ne (Nat.ne_of_lt hlt)]
      exact h.cells j hlt
    · rw [Function.update_self]
      exact hp

theorem Filled.set (h : Filled k good r) {i : Nat} {p : QuicRecoverySentPacket} (hp : good i p) : Filled k good (r.set i p) := by
  refine ⟨h.count, h.head, fun j hj => ?_⟩
  show good j (Function.update r.cells i p j)
  by_cases hji : j = i
  · rw [hji, Function.update_self]
    exact hp
  · rw [Function.update_of_ne hji]
    exact h.cells j hj

theorem Filled.compact (h : Filled (k + 1) good r) (hk : k + 1 ≤ QUIC_RECOVERY_MAX_SENT_PACKETS)
    (hfirst : ∀ p, good 0 p → p.acknowledged = true) (hrest : ∀ j p, good (j + 1) p → p.acknowledged = false) :
    Filled k (fun j => good (j + 1)) (ringCompact r) := by
  have hlist : r.toList = r.get 0 :: (List.range k).map (fun j => r.get (j + 1)) := by
    unfold Ring.toList
    rw [h.count, List.range_succ_eq_map, List.map_cons, List.map_map]
    rfl
  have hfilter : r.toList.filter (fun p => !p.acknowledged) = (List.range k).map (fun j => r.get (j + 1)) := by
    rw [hlist, List.filter_cons_of_neg (by rw [hfirst _ (h.get hk (Nat.succ_pos k))]; simp)]
    refine List.filter_eq_self.2 (fun p hp => ?_)
    obtain ⟨j, hj, rfl⟩ := List.mem_map.1 hp
    rw [hrest j _ (h.get hk (Nat.succ_lt_succ (List.mem_range.1 hj)))]
    rfl
  have hcompact : ringCompact r = ⟨fun j => (((List.range k).map (fun j => r.get (j + 1)))[j]?).getD (r.cells j), k, k⟩ := by
    unfold ringCompact Ring.compact
    dsimp only
    rw [hfilter, List.length_map, List.length_range, h.count, if_pos (Nat.lt_succ_self k)]
  rw [hcompact]
  refine ⟨rfl, (Nat.mod_eq_of_lt hk).symm, fun j hj => ?_⟩
  show good (j + 1) ((((List.range k).map (fun j => r.get (j + 1)))[j]?).getD (r.cells j))
  rw [List.getElem?_map, List.getElem?_range hj]
  exact h.get hk (Nat.succ_lt_succ hj)

end Filled

/-! ## What a packet leaves alone -/

structure SameClock (ctx ctx' : QuicRecoveryCtx) : Prop where
  smoothedRtt : ctx'.smoothedRtt = ctx.smoothedRtt
  latestRtt : ctx'.latestRtt = ctx.latestRtt
  ptoBase : ctx'.ptoBase = ctx.ptoBase
  largestAckedPn : ctx'.largestAckedPn = ctx.largestAckedPn

variable (ctx : QuicRecoveryCtx)

theorem SameClock.refl : SameClock ctx ctx := ⟨rfl, rfl, rfl, rfl⟩

theorem SameClock.trans {a b c : QuicRecoveryCtx} (h : SameClock a b) (h' : SameClock b c) : SameClock a c :=
  ⟨h'.smoothedRtt.trans h.smoothedRtt, h'.latestRtt.trans h.latestRtt, h'.ptoBase.trans h.ptoBase,
    h'.largestAckedPn.trans h.largestAckedPn⟩

theorem SameClock.threshold {ctx ctx' : QuicRecoveryCtx} (h : SameClock ctx ctx') :
    lossTimeThreshold ctx' = lossTimeThreshold ctx := by
  unfold lossTimeThreshold
  rw [h.smoothedRtt, h.latestRtt, h.ptoBase]

theorem SameClock.due {ctx ctx' : QuicRecoveryCtx} (h : SameClock ctx ctx') (now threshold : Nat)
    (p : QuicRecoverySentPacket) : lossDue ctx' now threshold p = lossDue ctx now threshold p := by
  unfold lossDue
  rw [h.largestAckedPn]

theorem chunkEvict_clock (v : Nat) : SameClock ctx (chunkEvict ctx v) := by
  unfold chunkEvict
  split <;> exact ⟨rfl, rfl, rfl, rfl⟩

theorem chunkAlloc_clock (now : Nat) : SameClock ctx (chunkAlloc ctx now).2 := by
  unfold chunkAlloc
  split
  · exact ⟨rfl, rfl, rfl, rfl⟩
  · split
    · exact ⟨rfl, rfl, rfl, rfl⟩
    · split
      · exact ⟨rfl, rfl, rfl, rfl⟩
      · rename_i v _
        obtain ⟨h1, h2, h3, h4⟩ := chunkEvict_clock (chunkReclaim ctx) v
        exact ⟨h1, h2, h3, h4⟩

theorem chunkFill_clock (a : SentArgs) (id : Nat) : SameClock ctx (chunkFill ctx a id) := by
  unfold chunkFill
  split <;> exact ⟨rfl, rfl, rfl, rfl⟩

theorem sentChunk_clock (a : SentArgs) : SameClock ctx (sentChunk ctx a).2 := by
  unfold sentChunk
  dsimp only
  split
  · exact ⟨rfl, rfl, rfl, rfl⟩
  · refine SameClock.trans (b := { ctx with currentRetransChunkId := NO_CHUNK }) ⟨rfl, rfl, rfl, rfl⟩ ?_
    have halloc := chunkAlloc_clock { ctx with currentRetransChunkId := NO_CHUNK } a.now
    cases (chunkAlloc { ctx with currentRetransChunkId := NO_CHUNK } a.now).1 with
    | none => exact halloc
    | some id => exact halloc.trans (chunkFill_clock _ a id)

theorem sentCompact_clock : SameClock ctx (sentCompact ctx) := by
  unfold sentCompact
  split <;> exact ⟨rfl, rfl, rfl, rfl⟩

theorem inflightSub_clock (b : Nat) : SameClock ctx (inflightSub ctx b) := by
  unfold inflightSub
  split <;> exact ⟨rfl, rfl, rfl, rfl⟩

theorem sentMakeRoom_clock : SameClock ctx (sentMakeRoom ctx) := by
  unfold sentMakeRoom
  dsimp only
  refine (sentCompact_clock ctx).trans ?_
  split
  · split
    · exact inflightSub_clock _ _
    · exact SameClock.refl _
  · exact SameClock.refl _

theorem sentNotify_clock (a : SentArgs) (chunk : Option Nat) : SameClock ctx (sentNotify ctx a chunk) := by
  unfold sentNotify
  dsimp only
  split <;> split <;> exact ⟨rfl, rfl, rfl, rfl⟩

theorem sentArm_clock (a : SentArgs) : SameClock ctx (sentArm ctx a) := by
  unfold sentArm armPtoTimer
  split
  · split <;> exact ⟨rfl, rfl, rfl, rfl⟩
  · exact SameClock.refl ctx

theorem packetSent_clock (a : SentArgs) : SameClock ctx (quicRecoveryOnPacketSent ctx a) := by
  unfold quicRecoveryOnPacketSent
  dsimp only
  refine ((sentMakeRoom_clock ctx).trans (sentChunk_clock _ a)).trans ?_
  generalize sentChunk (sentMakeRoom ctx) a = r
  refine SameClock.trans (b := sentStore r.2 (sentRecord a r.1)) ⟨rfl, rfl, rfl, rfl⟩ ?_
  exact (sentNotify_clock _ a r.1).trans (sentArm_clock _ a)

/-! ## The chunks a packet leaves -/

theorem sentNotify_chunks (a : SentArgs) (chunk : Option Nat) : (sentNotify ctx a chunk).chunks = ctx.chunks ∧
    (sentNotify ctx a chunk).currentRetransChunkId = ctx.currentRetransChunkId ∧ (sentNotify ctx a chunk).nextChunkId =
    ctx.nextChunkId := by
  unfold sentNotify
  dsimp only
  split <;> split <;> exact ⟨rfl, rfl, rfl⟩

theorem sentArm_chunks (a : SentArgs) : (sentArm ctx a).chunks = ctx.chunks ∧ (sentArm ctx a).currentRetransChunkId =
    ctx.currentRetransChunkId ∧ (sentArm ctx a).nextChunkId = ctx.nextChunkId := by
  unfold sentArm armPtoTimer
  split
  · split <;> exact ⟨rfl, rfl, rfl⟩
  · exact ⟨rfl, rfl, rfl⟩

theorem packetSent_chunks (a : SentArgs) : (quicRecoveryOnPacketSent ctx a).chunks = (sentChunk (sentMakeRoom ctx) a).2.chunks ∧
    (quicRecoveryOnPacketSent ctx a).currentRetransChunkId = (sentChunk (sentMakeRoom ctx) a).2.currentRetransChunkId ∧
    (quicRecoveryOnPacketSent ctx a).nextChunkId = (sentChunk (sentMakeRoom ctx) a).2.nextChunkId := by
  unfold quicRecoveryOnPacketSent
  dsimp only
  generalize sentChunk (sentMakeRoom ctx) a = r
  obtain ⟨h1, h2, h3⟩ := sentNotify_chunks (sentStore r.2 (sentRecord a r.1)) a r.1
  obtain ⟨h4, h5, h6⟩ := sentArm_chunks (sentNotify (sentStore r.2 (sentRecord a r.1)) a r.1) a
  exact ⟨h4.trans h1, h5.trans h2, h6.trans h3⟩

theorem sentMakeRoom_chunks : (sentMakeRoom ctx).chunks = ctx.chunks ∧ (sentMakeRoom ctx).currentRetransChunkId =
    ctx.currentRetransChunkId ∧ (sentMakeRoom ctx).nextChunkId = ctx.nextChunkId := by
  have hcompact : (sentCompact ctx).chunks = ctx.chunks ∧ (sentCompact ctx).currentRetransChunkId = ctx.currentRetransChunkId ∧
      (sentCompact ctx).nextChunkId = ctx.nextChunkId := by
    unfold sentCompact
    split <;> exact ⟨rfl, rfl, rfl⟩
  have hsub : ∀ (c : QuicRecoveryCtx) (b : Nat), (inflightSub c b).chunks = c.chunks ∧
      (inflightSub c b).currentRetransChunkId = c.currentRetransChunkId ∧
      (inflightSub c b).nextChunkId = c.nextChunkId := fun c b => by
    unfold inflightSub
    split <;> exact ⟨rfl, rfl, rfl⟩
  unfold sentMakeRoom
  dsimp only
  split
  · split
    · obtain ⟨h1, h2, h3⟩ := hsub (sentCompact ctx) ((sentCompact ctx).sentPackets.get 0).bytesSent
      exact ⟨h1.trans hcompact.1, h2.trans hcompact.2.1, h3.trans hcompact.2.2⟩
    · exact hcompact
  · exact hcompact

/-- No retransmission is under way and no chunk was sent again. -/
structure Calm (ctx : QuicRecoveryCtx) : Prop where
  current : ctx.currentRetransChunkId = NO_CHUNK
  notLost : ∀ c ∈ ctx.chunks, c.state ≠ .lost

theorem retransChunk_none {ctx : QuicRecoveryCtx} (h : ctx.currentRetransChunkId = NO_CHUNK) : retransChunk ctx = none :=
  if_neg (fun hne => hne h)

theorem sendNew_eq {ctx : QuicRecoveryCtx} (h : ctx.currentRetransChunkId = NO_CHUNK) (a : SentArgs) :
    sendNew ctx a = quicRecoveryOnPacketSent ctx a := by
  unfold sendNew noteLeftover
  rw [if_neg (fun hne => hne h)]

theorem sendNew_calm {ctx : QuicRecoveryCtx} (h : Calm ctx) (a : SentArgs) : Calm (sendNew ctx a) := by
  obtain ⟨hchunks, hcurrent, -⟩ := sentMakeRoom_chunks ctx
  obtain ⟨hchunks', hcurrent', -⟩ := packetSent_chunks ctx a
  obtain ⟨ctx', hkept, he⟩ := sentChunk_new (retransChunk_none (hcurrent.trans h.current)) a
  rw [he] at hchunks' hcurrent'
  rw [sendNew_eq h.current]
  refine ⟨hcurrent'.trans ?_, fun c hc => ?_⟩
  · have hnone := sentChunk_current (sentMakeRoom ctx) a
    rwa [he] at hnone
  · rw [hchunks'] at hc
    rcases mem_chunkFill hc with hc | ⟨-, hs, -⟩
    · rcases List.mem_append.1 hc with hc | hc
      · have hold := hkept.subset c hc
        exact h.notLost c (by rw [← hchunks]; exact hold)
      · rw [List.mem_singleton.1 hc]
        exact fun hs => by cases hs
    · rw [hs]
      exact fun hs => by cases hs

theorem sentChunk_calm {ctx : QuicRecoveryCtx} (h : Calm ctx) (a : SentArgs) :
    (sentChunk (sentMakeRoom ctx) a).1 = some ctx.nextChunkId := by
  obtain ⟨-, hcurrent, hnext⟩ := sentMakeRoom_chunks ctx
  obtain ⟨ctx', -, he⟩ := sentChunk_new (retransChunk_none (hcurrent.trans h.current)) a
  rw [he, hnext]

theorem sendNew_filled {ctx : QuicRecoveryCtx} (hcalm : Calm ctx) {k : Nat} {good : Nat → QuicRecoverySentPacket → Prop}
    (h : Filled k good ctx.sentPackets) (hk : k < QUIC_RECOVERY_MAX_SENT_PACKETS) (a : SentArgs)
    (hgood : ∀ id, good k (sentRecord a (some id))) : Filled (k + 1) good (sendNew ctx a).sentPackets := by
  have hroom : ¬ QUIC_RECOVERY_MAX_SENT_PACKETS ≤ ctx.sentPackets.count := by rw [h.count]; omega
  rw [sendNew_eq hcalm.current, packetSent_ring, sentCompact_ring, if_neg hroom, sentChunk_calm hcalm]
  unfold ringStore
  rw [if_neg hroom]
  exact h.push hk (hgood _)

end MoqLiveCast
