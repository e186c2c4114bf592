import MoqLiveCast.Quic.RecoveryLoss
/-!
# InFlight — the bytes in flight are those of the live records

A record is live when it is ack-eliciting, not acknowledged and not lost.  `Accounted extra` says that what is in flight
is the sum over the live records and `extra` more, and that nothing was ever taken off twice; `extra` is the size of the
packet `detect_losses` has in hand while it calls back.
-/
namespace MoqLiveCast

open List

def liveBytes (p : QuicRecoverySentPacket) : Nat :=
  if p.ackEliciting ∧ p.acknowledged = false ∧ p.lost = false then p.bytesSent else 0

variable {p : QuicRecoverySentPacket}

theorem liveBytes_acknowledged (h : p.acknowledged = true) : liveBytes p = 0 :=
  if_neg (fun hl => Bool.noConfusion (hl.2.1.symm.trans h))

theorem liveBytes_lost (h : p.lost = true) : liveBytes p = 0 :=
  if_neg (fun hl => Bool.noConfusion (hl.2.2.symm.trans h))

/-- The sum of `bytes_sent` over the live records of the ring. -/
def QuicRecoveryCtx.inFlight (ctx : QuicRecoveryCtx) : Nat := (ctx.sentPackets.toList.map liveBytes).sum

structure Accounted (extra : Nat) (ctx : QuicRecoveryCtx) : Prop where
  wf : ctx.sentPackets.Wf
  bytes : ctx.bytesInFlight = ctx.inFlight + extra
  noUnderflow : ctx.inflightUnderflows = 0

/-! ## What leaves the ring and the counter alone -/

structure SameFlight (ctx ctx' : QuicRecoveryCtx) : Prop where
  ring : ctx'.sentPackets = ctx.sentPackets
  bytes : ctx'.bytesInFlight = ctx.bytesInFlight
  underflows : ctx'.inflightUnderflows = ctx.inflightUnderflows

variable (ctx : QuicRecoveryCtx)

theorem SameFlight.refl : SameFlight ctx ctx := ⟨rfl, rfl, rfl⟩

theorem SameFlight.trans {a b c : QuicRecoveryCtx} (h : SameFlight a b) (h' : SameFlight b c) : SameFlight a c :=
  ⟨h'.ring.trans h.ring, h'.bytes.trans h.bytes, h'.underflows.trans h.underflows⟩

variable {extra : Nat}

theorem Accounted.same {ctx ctx' : QuicRecoveryCtx} (h : Accounted extra ctx) (hs : SameFlight ctx ctx') :
    Accounted extra ctx' := by
  obtain ⟨hr, hb, hu⟩ := hs
  refine ⟨hr ▸ h.wf, ?_, hu.trans h.noUnderflow⟩
  unfold QuicRecoveryCtx.inFlight
  rw [hb, hr]
  exact h.bytes

theorem call_same (e : RecoveryEffect) : SameFlight ctx (ctx.call e) := ⟨rfl, rfl, rfl⟩

theorem updateChunk_same (id : Nat) (f : QuicRecoveryChunk → QuicRecoveryChunk) :
    SameFlight ctx (ctx.updateChunk id f) := ⟨rfl, rfl, rfl⟩

theorem chunkPtr_same (c : Option QuicRecoveryChunk)
    (f : QuicRecoveryChunk → QuicRecoveryChunk) : SameFlight ctx (chunkPtr ctx c f) := by
  cases c <;> exact ⟨rfl, rfl, rfl⟩

theorem updateRtt_same (s : Nat) : SameFlight ctx (updateRtt ctx s) := by
  unfold updateRtt
  by_cases h : ctx.rttInitialized <;> simp only [h] <;> exact ⟨rfl, rfl, rfl⟩

theorem armPtoTimer_same : SameFlight ctx (armPtoTimer ctx) := by
  unfold armPtoTimer
  split <;> exact ⟨rfl, rfl, rfl⟩

theorem chunkEvict_same (v : Nat) : SameFlight ctx (chunkEvict ctx v) := by
  unfold chunkEvict
  split <;> exact ⟨rfl, rfl, rfl⟩

theorem chunkAlloc_same (now : Nat) : SameFlight ctx (chunkAlloc ctx now).2 := by
  unfold chunkAlloc
  split
  · exact ⟨rfl, rfl, rfl⟩
  · split
    · exact ⟨rfl, rfl, rfl⟩
    · split
      · exact ⟨rfl, rfl, rfl⟩
      · rename_i v _
        obtain ⟨hr, hb, hu⟩ := chunkEvict_same (chunkReclaim ctx) v
        exact ⟨hr, hb, hu⟩

theorem chunkFill_same (a : SentArgs) (id : Nat) : SameFlight ctx (chunkFill ctx a id) := by
  unfold chunkFill
  split
  · exact SameFlight.refl ctx
  · exact updateChunk_same ctx id _

theorem sentChunk_same (a : SentArgs) : SameFlight ctx (sentChunk ctx a).2 := by
  unfold sentChunk
  dsimp only
  split
  · exact ⟨rfl, rfl, rfl⟩
  · refine SameFlight.trans (b := { ctx with currentRetransChunkId := NO_CHUNK }) ⟨rfl, rfl, rfl⟩ ?_
    have halloc := chunkAlloc_same { ctx with currentRetransChunkId := NO_CHUNK } a.now
    cases (chunkAlloc { ctx with currentRetransChunkId := NO_CHUNK } a.now).1 with
    | none => exact halloc
    | some id => exact halloc.trans (chunkFill_same _ a id)

theorem noteLeftover_same : SameFlight ctx (noteLeftover ctx) := by
  unfold noteLeftover
  split <;> exact ⟨rfl, rfl, rfl⟩

theorem sentArm_same (a : SentArgs) : SameFlight ctx (sentArm ctx a) := by
  unfold sentArm
  split
  · exact armPtoTimer_same ctx
  · exact SameFlight.refl ctx

theorem ackSample_same (w : AckWork) (p : QuicRecoverySentPacket) (pn now : Nat) :
    SameFlight w.ctx (ackSample w p pn now).ctx := by
  unfold ackSample
  split
  · exact updateRtt_same _ _
  · exact SameFlight.refl _

theorem ackNotify_same (p : QuicRecoverySentPacket) (pn now : Nat) : SameFlight ctx (ackNotify ctx p pn now) := by
  unfold ackNotify
  split <;> exact ⟨rfl, rfl, rfl⟩

theorem lossEpoch_same (now : Nat) : SameFlight ctx (lossEpoch ctx now) := by
  unfold lossEpoch
  split <;> exact ⟨rfl, rfl, rfl⟩

theorem lossNotify_same (now : Nat) : SameFlight ctx (lossNotify ctx now) := by
  unfold lossNotify
  dsimp only
  split <;> exact ⟨rfl, rfl, rfl⟩

/-! ## A record leaves what is in flight -/

theorem Accounted.sub {extra b : Nat} {ctx : QuicRecoveryCtx} (h : Accounted (extra + b) ctx) :
    Accounted extra (inflightSub ctx b) := by
  obtain ⟨hwf, hbytes, hu⟩ := h
  unfold inflightSub
  rw [if_neg (by omega)]
  refine ⟨hwf, ?_, hu⟩
  show ctx.bytesInFlight - b = ctx.inFlight + extra
  omega

variable {i : Nat} {x : QuicRecoverySentPacket}

theorem Accounted.set {extra extra' : Nat} {ctx : QuicRecoveryCtx} (h : Accounted extra ctx) (hi : i < ctx.sentPackets.count)
    (hx : extra' + liveBytes x = extra + liveBytes (ctx.sentPackets.get i)) :
    Accounted extra' (ctx.setPacket (ctx.sentPackets.slot i) x) := by
  have hsum := Ring.sum_set liveBytes h.wf hi x
  refine ⟨Ring.wf_set h.wf _ _, ?_, h.noUnderflow⟩
  have hb := h.bytes
  unfold QuicRecoveryCtx.inFlight at hb ⊢
  show ctx.bytesInFlight = ((ctx.sentPackets.set (ctx.sentPackets.slot i) x).toList.map liveBytes).sum + extra'
  omega

theorem inflightLeave_setPacket (p x : QuicRecoverySentPacket) (idx : Nat) :
    (inflightLeave ctx p).setPacket idx x = inflightLeave (ctx.setPacket idx x) p := by
  unfold inflightLeave
  split
  · unfold inflightSub
    have hfield : (ctx.setPacket idx x).bytesInFlight = ctx.bytesInFlight := rfl
    by_cases h : ctx.bytesInFlight < p.bytesSent
    · rw [if_pos h, if_pos (by rw [hfield]; exact h)]
      rfl
    · rw [if_neg h, if_neg (by rw [hfield]; exact h)]
      rfl
  · rfl

theorem Accounted.leave {ctx : QuicRecoveryCtx} (hp : p.acknowledged = false)
    (h : Accounted (extra + liveBytes p) ctx) : Accounted extra (inflightLeave ctx p) := by
  unfold liveBytes at h
  unfold inflightLeave
  by_cases hlive : p.ackEliciting ∧ p.lost = false
  · rw [if_pos ⟨hlive.1, hp, hlive.2⟩] at h
    rw [if_pos hlive]
    exact h.sub
  · rw [if_neg (fun hl => hlive ⟨hl.1, hl.2.2⟩)] at h
    rw [if_neg hlive]
    exact h

theorem Accounted.leave_set {ctx : QuicRecoveryCtx} (h : Accounted extra ctx) (hi : i < ctx.sentPackets.count)
    (hp : (ctx.sentPackets.get i).acknowledged = false) (hx : liveBytes x = 0) :
    Accounted extra ((inflightLeave ctx (ctx.sentPackets.get i)).setPacket (ctx.sentPackets.slot i) x) := by
  rw [inflightLeave_setPacket]
  exact Accounted.leave hp (h.set hi (by rw [hx]; omega))

theorem inflightSub_ring (b : Nat) : (inflightSub ctx b).sentPackets = ctx.sentPackets := by
  unfold inflightSub
  split <;> rfl

theorem inflightLeave_ring (p : QuicRecoverySentPacket) : (inflightLeave ctx p).sentPackets = ctx.sentPackets := by
  unfold inflightLeave
  split
  · exact inflightSub_ring ctx _
  · rfl

theorem Accounted.foldl_range (step : QuicRecoveryCtx → Nat → QuicRecoveryCtx) (hstep : ∀ ctx i, Accounted extra ctx →
    i < ctx.sentPackets.count → Accounted extra (step ctx i) ∧ (step ctx i).sentPackets.count = ctx.sentPackets.count) {ctx :
    QuicRecoveryCtx} (h : Accounted extra ctx) : Accounted extra ((range ctx.sentPackets.count).foldl step ctx) := by
  have hrun := foldl_inv step (fun _ i => i < ctx.sentPackets.count)
    (fun c => Accounted extra c ∧ c.sentPackets.count = ctx.sentPackets.count)
    (fun c i hc hi => by
      obtain ⟨h1, h2⟩ := hstep c i hc.1 (by rw [hc.2]; exact hi)
      exact ⟨h1, h2.trans hc.2⟩)
    (range ctx.sentPackets.count) ctx ⟨h, rfl⟩
    (stepsOk_of_forall _ _ _ _ (fun i hi _ => List.mem_range.1 hi))
  exact hrun.1

/-! ## ACKs -/

theorem chunkAckPacket_accounted (id : Nat) (ctx : QuicRecoveryCtx) (i : Nat) (h : Accounted extra ctx)
    (hi : i < ctx.sentPackets.count) :
    Accounted extra (chunkAckPacket id ctx i) ∧ (chunkAckPacket id ctx i).sentPackets.count = ctx.sentPackets.count := by
  unfold chunkAckPacket
  dsimp only
  split
  · rename_i hp
    refine ⟨h.leave_set hi hp.2 (liveBytes_acknowledged rfl), ?_⟩
    show (inflightLeave ctx _).sentPackets.count = _
    rw [inflightLeave_ring]
  · exact ⟨h, rfl⟩

theorem chunkMarkAcked_accounted {ctx : QuicRecoveryCtx} (h : Accounted extra ctx) (id : Nat) :
    Accounted extra (chunkMarkAcked ctx id) := by
  unfold chunkMarkAcked
  split
  · exact h
  · split
    · exact h
    · exact Accounted.foldl_range (chunkAckPacket id) (chunkAckPacket_accounted id) (h.same (updateChunk_same ctx id _))

theorem markRecord_accounted {w : AckWork} (h : Accounted extra w.ctx)
    (hi : i < w.ctx.sentPackets.count) (hp : (w.ctx.sentPackets.get i).acknowledged = false) (pn now : Nat) :
    Accounted extra (markRecord w (w.ctx.sentPackets.slot i) pn now).ctx := by
  unfold markRecord
  dsimp only
  have hset : Accounted (extra + liveBytes (w.ctx.sentPackets.get i))
      (w.ctx.setPacket (w.ctx.sentPackets.slot i) { w.ctx.sentPackets.get i with acknowledged := true }) :=
    h.set hi (by
      have : liveBytes { w.ctx.sentPackets.get i with acknowledged := true } = 0 := liveBytes_acknowledged rfl
      omega)
  refine chunkMarkAcked_accounted ?_ _
  refine Accounted.same ?_ (call_same _ _)
  refine Accounted.same ?_ (ackNotify_same _ _ pn now)
  refine Accounted.leave hp ?_
  refine Accounted.same ?_ (ackSample_same _ _ pn now)
  exact hset.same ⟨rfl, rfl, rfl⟩

theorem markPnAcked_accounted {w : AckWork} (h : Accounted extra w.ctx) (pn : Nat) (level : TlsLevel)
    (now : Nat) : Accounted extra (markPnAcked w pn level now).ctx := by
  unfold markPnAcked
  dsimp only
  split
  · exact h
  · rename_i i hfind
    have hmem := List.mem_of_find?_eq_some hfind
    have hmatch := List.find?_some hfind
    refine markRecord_accounted (w := { w with marked := w.marked ++ [pn] }) h (List.mem_range.1 hmem) ?_ pn now
    simp only [ackMatches, Bool.and_eq_true, Bool.not_eq_true', decide_eq_true_eq] at hmatch
    exact hmatch.1.2

variable {now : Nat}

theorem ackRangeLoop_accounted {extra fuel : Nat} {level : TlsLevel} {w w' : AckWork} {rStart rEnd : Nat}
    (h : Accounted extra w.ctx) (hr : ackRangeLoop fuel level now w rStart rEnd = some w') : Accounted extra w'.ctx := by
  obtain ⟨t, ht, rfl⟩ := Option.map_eq_some_iff.1 hr
  exact (whileLoop_inv _ _ (fun s : AckWork × Nat => Accounted extra s.1.ctx)
    (fun s hs _ => markPnAcked_accounted hs s.2 level now) fuel (w, rStart) t h ht).1

theorem ackRangesLoop_accounted {extra fuel : Nat} {level : TlsLevel} {now : Nat} :
    ∀ (rs : List (Nat × Nat)) {w w' : AckWork} {prev : Nat}, Accounted extra w.ctx →
      ackRangesLoop fuel level now w prev rs = some w' → Accounted extra w'.ctx
  | [], _, _, _, h, hr => by
    cases hr
    exact h
  | (gap, ackRange) :: rs, w, w', prev, h, hr => by
    unfold ackRangesLoop at hr
    obtain ⟨w₁, h₁, h₂⟩ := Option.bind_eq_some_iff.1 hr
    exact ackRangesLoop_accounted rs (ackRangeLoop_accounted h h₁) h₂

theorem processAckRanges_accounted {extra fuel : Nat} {ctx : QuicRecoveryCtx} {ack : QuicAckFrame} {level : TlsLevel}
    {w : AckWork} (h : Accounted extra ctx) (hr : processAckRanges fuel ctx ack now level = some w) : Accounted extra w.ctx := by
  unfold processAckRanges at hr
  obtain ⟨w₁, h₁, h₂⟩ := Option.bind_eq_some_iff.1 hr
  exact ackRangesLoop_accounted _ (ackRangeLoop_accounted (Accounted.same h ⟨rfl, rfl, rfl⟩) h₁) h₂

theorem compactSentPackets_accounted {ctx : QuicRecoveryCtx} (h : Accounted extra ctx) :
    Accounted extra (compactSentPackets ctx) := by
  have hsum := Ring.sum_compact liveBytes h.wf (fun p => !p.acknowledged)
    (fun p hp => liveBytes_acknowledged (by simpa using hp))
  refine ⟨Ring.wf_compact h.wf _, ?_, h.noUnderflow⟩
  show ctx.bytesInFlight = ((ringCompact ctx.sentPackets).toList.map liveBytes).sum + extra
  unfold ringCompact
  rw [hsum]
  exact h.bytes

theorem recoveryClearSpace_accounted {ctx : QuicRecoveryCtx} (h : Accounted extra ctx) (t : PktType) :
    Accounted extra (recoveryClearSpace ctx t) := by
  unfold recoveryClearSpace
  dsimp only
  refine Accounted.same (Accounted.foldl_range (clearPacket t) (fun c i hc hi => ?_) (h.same (call_same ctx _)))
    ⟨rfl, rfl, rfl⟩
  unfold clearPacket
  dsimp only
  split
  · rename_i hp
    refine ⟨hc.leave_set hi hp.1 (liveBytes_acknowledged rfl), ?_⟩
    show (inflightLeave c _).sentPackets.count = _
    rw [inflightLeave_ring]
  · exact ⟨hc, rfl⟩

/-! ## A packet is sent -/

/-- A ring with room for one record, or one whose oldest record has left what is in flight. -/
structure Roomy (extra : Nat) (ctx : QuicRecoveryCtx) : Prop where
  wf : ctx.sentPackets.Wf
  bytes : ctx.bytesInFlight + (if QUIC_RECOVERY_MAX_SENT_PACKETS ≤ ctx.sentPackets.count
    then liveBytes (ctx.sentPackets.get 0) else 0) = ctx.inFlight + extra
  noUnderflow : ctx.inflightUnderflows = 0

variable {r : SentRing}

theorem sum_get_zero (h : 0 < r.count) (w : QuicRecoverySentPacket → Nat) :
    (r.toList.map w).sum = w (r.get 0) + (r.toList.tail.map w).sum := by
  cases hl : r.toList with
  | nil =>
    have := r.toList_length
    rw [hl] at this
    simp at this
    omega
  | cons p l =>
    have hp := r.toList_getElem (i := 0) (by rw [hl]; simp)
    simp only [hl, getElem_cons_zero] at hp
    rw [map_cons, sum_cons, hp, tail_cons]

theorem sentMakeRoom_roomy {ctx : QuicRecoveryCtx} (h : Accounted extra ctx) : Roomy extra (sentMakeRoom ctx) := by
  have hcompact : Accounted extra (sentCompact ctx) := by
    unfold sentCompact
    split
    · exact compactSentPackets_accounted h
    · exact h
  unfold sentMakeRoom
  dsimp only
  generalize sentCompact ctx = c at hcompact
  obtain ⟨hwf, hbytes, hu⟩ := hcompact
  by_cases hfull : QUIC_RECOVERY_MAX_SENT_PACKETS ≤ c.sentPackets.count
  · rw [if_pos hfull]
    by_cases hlive : (c.sentPackets.get 0).ackEliciting ∧ (c.sentPackets.get 0).acknowledged = false ∧
        (c.sentPackets.get 0).lost = false
    · rw [if_pos hlive]
      have hw : liveBytes (c.sentPackets.get 0) = (c.sentPackets.get 0).bytesSent := if_pos hlive
      have hsum := sum_get_zero (r := c.sentPackets) (by unfold QUIC_RECOVERY_MAX_SENT_PACKETS at hfull; omega) liveBytes
      have hle : (c.sentPackets.get 0).bytesSent ≤ c.bytesInFlight := by
        unfold QuicRecoveryCtx.inFlight at hbytes
        omega
      unfold inflightSub
      rw [if_neg (by omega)]
      refine ⟨hwf, ?_, hu⟩
      show c.bytesInFlight - _ + (if QUIC_RECOVERY_MAX_SENT_PACKETS ≤ c.sentPackets.count then _ else 0) =
        c.inFlight + extra
      rw [if_pos hfull, hw]
      omega
    · rw [if_neg hlive]
      refine ⟨hwf, ?_, hu⟩
      rw [if_pos hfull, show liveBytes (c.sentPackets.get 0) = 0 from if_neg hlive]
      exact hbytes
  · rw [if_neg hfull]
    exact ⟨hwf, by rw [if_neg hfull]; exact hbytes, hu⟩

theorem Roomy.same {ctx ctx' : QuicRecoveryCtx} (h : Roomy extra ctx) (hs : SameFlight ctx ctx') : Roomy extra ctx' := by
  obtain ⟨hr, hb, hu⟩ := hs
  refine ⟨hr ▸ h.wf, ?_, hu.trans h.noUnderflow⟩
  unfold QuicRecoveryCtx.inFlight
  rw [hb, hr]
  exact h.bytes

theorem sentStore_accounted {ctx : QuicRecoveryCtx} (h : Roomy extra ctx) (p : QuicRecoverySentPacket) :
    (sentStore ctx p).sentPackets.Wf ∧ ctx.bytesInFlight + liveBytes p = (sentStore ctx p).inFlight + extra := by
  obtain ⟨hwf, hbytes, -⟩ := h
  unfold sentStore ringStore QuicRecoveryCtx.inFlight at *
  dsimp only
  by_cases hfull : QUIC_RECOVERY_MAX_SENT_PACKETS ≤ ctx.sentPackets.count
  · rw [if_pos hfull] at hbytes ⊢
    have hcount : ctx.sentPackets.count = QUIC_RECOVERY_MAX_SENT_PACKETS := Nat.le_antisymm hwf.count_le hfull
    have hsum := sum_get_zero (r := ctx.sentPackets) (by unfold QUIC_RECOVERY_MAX_SENT_PACKETS at hfull; omega) liveBytes
    refine ⟨Ring.wf_overwrite hwf p, ?_⟩
    rw [Ring.toList_overwrite hwf hcount p, map_append, sum_append]
    simp only [map_cons, map_nil, sum_cons, sum_nil]
    omega
  · rw [if_neg hfull] at hbytes ⊢
    have hlt : ctx.sentPackets.count < QUIC_RECOVERY_MAX_SENT_PACKETS := Nat.lt_of_not_le hfull
    refine ⟨Ring.wf_push hlt p, ?_⟩
    rw [Ring.toList_push hwf hlt p, map_append, sum_append]
    simp only [map_cons, map_nil, sum_cons, sum_nil]
    omega

theorem packetSent_accounted {ctx : QuicRecoveryCtx} (h : Accounted extra ctx) (a : SentArgs) :
    Accounted extra (quicRecoveryOnPacketSent ctx a) := by
  unfold quicRecoveryOnPacketSent
  dsimp only
  have hroom := (sentMakeRoom_roomy h).same (sentChunk_same _ a)
  generalize sentChunk (sentMakeRoom ctx) a = r at hroom
  obtain ⟨hwf, hbytes⟩ := sentStore_accounted hroom (sentRecord a r.1)
  have hlive : liveBytes (sentRecord a r.1) = if a.ackEliciting then a.bytesSent else 0 := by
    unfold liveBytes sentRecord
    cases a.ackEliciting <;> simp
  refine Accounted.same ?_ (sentArm_same _ a)
  generalize hc : sentStore r.2 (sentRecord a r.1) = c at hwf hbytes
  have hcb : c.bytesInFlight = r.2.bytesInFlight := by rw [← hc]; rfl
  have hcu : c.inflightUnderflows = 0 := by rw [← hc]; exact hroom.noUnderflow
  have hnotify : (sentNotify c a r.1).sentPackets = c.sentPackets ∧
      (sentNotify c a r.1).bytesInFlight = c.bytesInFlight + (if a.ackEliciting then a.bytesSent else 0) ∧
      (sentNotify c a r.1).inflightUnderflows = c.inflightUnderflows := by
    unfold sentNotify
    dsimp only
    by_cases he : a.ackEliciting <;> by_cases ht : a.pktType = .short <;> simp [he, ht, QuicRecoveryCtx.call]
  obtain ⟨h1, h2, h3⟩ := hnotify
  refine ⟨h1 ▸ hwf, ?_, h3.trans hcu⟩
  unfold QuicRecoveryCtx.inFlight at hbytes ⊢
  rw [h1, h2, hcb, ← hlive]
  exact hbytes

theorem sendNew_accounted {ctx : QuicRecoveryCtx} (h : Accounted extra ctx) (a : SentArgs) :
    Accounted extra (sendNew ctx a) := packetSent_accounted (h.same (noteLeftover_same ctx)) a

theorem sendAll_accounted {ctx : QuicRecoveryCtx} (h : Accounted extra ctx) (l : List SentArgs) :
    Accounted extra (sendAll ctx l) :=
  foldl_inv sendNew (fun _ _ => True) (Accounted extra) (fun _ a hc _ => sendNew_accounted hc a) l ctx
    h (stepsOk_of_forall _ _ _ _ (fun _ _ _ => trivial))

theorem sendImm_accounted {ctx : QuicRecoveryCtx} (h : Accounted extra ctx) (t : PktType) (f : List Byte)
    (now : Nat) (pn : Option Nat) : Accounted extra (sendImm ctx t f now pn) := by
  unfold sendImm
  cases pn with
  | none => exact h.same (call_same _ _)
  | some pn => exact packetSent_accounted (h.same (call_same _ _)) _

/-! ## The account through `detect_losses` and over whole runs -/

/-! ## A record that stays in its cell -/

/-- Storing one more record leaves the cell `idx` alone: the ring has room, or nothing to compact and an older record to
overwrite. -/
def StaysPut (r : SentRing) (idx : Nat) : Prop :=
  r.count < QUIC_RECOVERY_MAX_SENT_PACKETS ∨ (∀ p ∈ r.toList, p.acknowledged = false) ∧ idx ≠ r.slot 0

def InCell (r : SentRing) (idx : Nat) (p : QuicRecoverySentPacket) : Prop :=
  r.cells idx = p ∧ ∃ i, i < r.count ∧ r.slot i = idx

theorem inCell_get (hi : i < r.count) : InCell r (r.slot i) (r.get i) := ⟨rfl, i, hi, rfl⟩

variable {idx : Nat}

theorem inCell_set (h : InCell r idx p) (x : QuicRecoverySentPacket) : InCell (r.set idx x) idx x := by
  obtain ⟨-, i, hi, hs⟩ := h
  exact ⟨Function.update_self _ _ _, i, hi, hs⟩

theorem staysPut_set (hwf : r.Wf) (hi : i < r.count) (h : StaysPut r (r.slot i)) (hx : x.acknowledged = (r.get i).acknowledged) :
    StaysPut (r.set (r.slot i) x) (r.slot i) := by
  rcases h with h | ⟨hack, hne⟩
  · exact Or.inl h
  · refine Or.inr ⟨fun p hp => ?_, hne⟩
    rw [Ring.toList_set hwf hi] at hp
    rcases mem_or_eq_of_mem_set hp with hp | rfl
    · exact hack p hp
    · rw [hx]
      refine hack _ ?_
      rw [← Ring.toList_getElem r (i := i) (by simpa using hi)]
      exact getElem_mem _

theorem ringCompact_of_all (h : ∀ p ∈ r.toList, p.acknowledged = false) : ringCompact r = r :=
  Ring.compact_of_all (fun p hp => by rw [h p hp]; rfl)

theorem ringStore_inCell (hwf : r.Wf) (h : InCell r idx p) (hstay : r.count < QUIC_RECOVERY_MAX_SENT_PACKETS ∨ idx ≠ r.slot 0)
    (x : QuicRecoverySentPacket) : InCell (ringStore r x) idx p := by
  obtain ⟨hcell, i, hi, hs⟩ := h
  unfold ringStore
  by_cases hfull : QUIC_RECOVERY_MAX_SENT_PACKETS ≤ r.count
  · rw [if_pos hfull]
    have hcount : r.count = QUIC_RECOVERY_MAX_SENT_PACKETS := Nat.le_antisymm hwf.count_le hfull
    have hne : idx ≠ r.slot 0 := hstay.resolve_left (by omega)
    have hpos : i ≠ 0 := fun h0 => hne (by rw [← hs, h0])
    refine ⟨?_, i - 1, ?_, ?_⟩
    · show Function.update r.cells (r.slot 0) x idx = p
      rw [Function.update_of_ne hne]
      exact hcell
    · show i - 1 < r.count
      omega
    · rw [Ring.slot_overwrite hcount, Nat.sub_add_cancel (by omega)]
      exact hs
  · rw [if_neg hfull]
    have hlt : r.count < QUIC_RECOVERY_MAX_SENT_PACKETS := Nat.lt_of_not_le hfull
    have hslot : (r.push x).slot i = r.slot i := by
      rw [Ring.slot_push hwf hlt x (Nat.le_of_lt hi), if_neg (by omega)]
    have hhead : (r.push x).slot r.count = r.head := by
      rw [Ring.slot_push hwf hlt x (Nat.le_refl _), if_pos rfl]
    have hne : idx ≠ r.head := fun he => by
      have hinj := Ring.slot_inj (Ring.wf_push (r := r) hlt x) (i := i) (j := r.count)
        (Nat.lt_succ_of_lt hi) (Nat.lt_succ_self _) (by rw [hslot, hhead, hs, he])
      omega
    refine ⟨?_, i, Nat.lt_succ_of_lt hi, hslot.trans hs⟩
    show Function.update r.cells r.head x idx = p
    rw [Function.update_of_ne hne]
    exact hcell

/-! ## The ring a packet leaves behind -/

theorem sentCompact_ring : (sentCompact ctx).sentPackets =
    if QUIC_RECOVERY_MAX_SENT_PACKETS ≤ ctx.sentPackets.count then ringCompact ctx.sentPackets else ctx.sentPackets := by
  unfold sentCompact
  split <;> rfl

theorem sentMakeRoom_ring : (sentMakeRoom ctx).sentPackets = (sentCompact ctx).sentPackets := by
  unfold sentMakeRoom
  dsimp only
  split
  · split
    · exact inflightSub_ring _ _
    · rfl
  · rfl

theorem sentNotify_ring (a : SentArgs) (chunk : Option Nat) : (sentNotify ctx a chunk).sentPackets = ctx.sentPackets := by
  unfold sentNotify
  dsimp only
  split <;> split <;> rfl

theorem packetSent_ring (a : SentArgs) : (quicRecoveryOnPacketSent ctx a).sentPackets = ringStore (sentCompact ctx).sentPackets
    (sentRecord a (sentChunk (sentMakeRoom ctx) a).1) := by
  unfold quicRecoveryOnPacketSent
  dsimp only
  have hchunk := (sentChunk_same (sentMakeRoom ctx) a).ring
  rw [sentMakeRoom_ring] at hchunk
  rw [(sentArm_same _ a).ring, sentNotify_ring, sentStore, hchunk]

theorem packetSent_inCell {ctx : QuicRecoveryCtx} (hwf : ctx.sentPackets.Wf) (h : InCell ctx.sentPackets idx p)
    (hstay : StaysPut ctx.sentPackets idx) (a : SentArgs) : InCell (quicRecoveryOnPacketSent ctx a).sentPackets idx p := by
  rw [packetSent_ring, sentCompact_ring]
  rcases hstay with hlt | ⟨hack, hne⟩
  · rw [if_neg (Nat.not_le.2 hlt)]
    exact ringStore_inCell hwf h (Or.inl hlt) _
  · have hsame : (if QUIC_RECOVERY_MAX_SENT_PACKETS ≤ ctx.sentPackets.count then ringCompact ctx.sentPackets
        else ctx.sentPackets) = ctx.sentPackets := by
      split
      · exact ringCompact_of_all hack
      · rfl
    rw [hsame]
    exact ringStore_inCell hwf h (Or.inr hne) _

/-! ## `detect_losses` -/

/-- Turn `i` hands its packet to `send_imm_fn`, which sends it and has it recorded. -/
def LossHandsOver (env : RecoveryEnv) (now threshold : Nat) (w : LossWork) (i : Nat) : Prop :=
  i < w.ctx.sentPackets.count ∧
  lossDue w.ctx now threshold (w.ctx.sentPackets.get i) = true ∧
  (chunkFind w.ctx (w.ctx.sentPackets.get i).chunkId).any (fun c => c.state = .lost) = false ∧
  w.fastRetx < QUIC_LOSS_RETRANSMIT_PER_PASS ∧
  (env.lossImm w.fastRetx).isSome = true

/-- **The condition of a turn**: a record that is handed over stays in its cell. -/
def LossStepOk (env : RecoveryEnv) (now threshold : Nat) (w : LossWork) (i : Nat) : Prop :=
  LossHandsOver env now threshold w i → StaysPut w.ctx.sentPackets (w.ctx.sentPackets.slot i)

structure DetectOk (env : RecoveryEnv) (ctx : QuicRecoveryCtx) (now : Nat) : Prop where
  turns : StepsOk (lossStep env now (lossTimeThreshold ctx)) (LossStepOk env now (lossTimeThreshold ctx)) { ctx }
    (range' 0 QUIC_RECOVERY_MAX_SENT_PACKETS)

theorem lossDue_live {ctx : QuicRecoveryCtx} {now threshold : Nat}
    (h : lossDue ctx now threshold p = true) : p.acknowledged = false ∧ liveBytes p = p.bytesSent := by
  simp only [lossDue, Bool.and_eq_true, Bool.not_eq_true'] at h
  obtain ⟨⟨⟨⟨hack, hlost⟩, -⟩, helic⟩, -⟩ := h
  exact ⟨hack, if_pos ⟨helic, hack, hlost⟩⟩

theorem lossStale_accounted {ctx : QuicRecoveryCtx} (h : Accounted extra ctx) (hi : i < ctx.sentPackets.count)
    (hp : (ctx.sentPackets.get i).acknowledged = false) : Accounted extra (lossStale ctx (ctx.sentPackets.slot i)) :=
  h.leave_set hi hp (liveBytes_lost rfl)

/-- A lost packet in hand: it is out of the sum, its size is still counted, and the pointer reads it. -/
structure InHand (idx : Nat) (p : QuicRecoverySentPacket) (ctx : QuicRecoveryCtx) : Prop where
  account : Accounted p.bytesSent ctx
  inCell : InCell ctx.sentPackets idx p
  lost : p.lost = true

theorem InHand.same {ctx ctx' : QuicRecoveryCtx} (h : InHand idx p ctx) (hs : SameFlight ctx ctx') : InHand idx p ctx' :=
  ⟨h.account.same hs, by rw [hs.ring]; exact h.inCell, h.lost⟩

variable {w : LossWork}

theorem lossFirst_inHand (h : Accounted 0 w.ctx) (hi : i < w.ctx.sentPackets.count)
    (hlive : liveBytes (w.ctx.sentPackets.get i) = (w.ctx.sentPackets.get i).bytesSent) :
    InHand (w.ctx.sentPackets.slot i) { w.ctx.sentPackets.get i with lost := true }
      (lossFirst w (w.ctx.sentPackets.slot i)).ctx := by
  have hdead := liveBytes_lost (p := { w.ctx.sentPackets.get i with lost := true }) rfl
  have heq : (w.ctx.sentPackets.get i).bytesSent + liveBytes { w.ctx.sentPackets.get i with lost := true } =
      0 + liveBytes (w.ctx.sentPackets.get i) := by
    rw [hdead, hlive, Nat.add_zero, Nat.zero_add]
  have hset := h.set hi heq
  exact ⟨hset.same ⟨rfl, rfl, rfl⟩, inCell_set (inCell_get hi) _, rfl⟩

theorem sendImm_inHand {ctx : QuicRecoveryCtx} (h : InHand idx p ctx) (t : PktType) (f : List Byte) (now : Nat) {pn : Option Nat}
    (hstay : pn.isSome = true → StaysPut ctx.sentPackets idx) : InHand idx p (sendImm ctx t f now pn) := by
  refine ⟨sendImm_accounted h.account t f now pn, ?_, h.lost⟩
  unfold sendImm
  cases pn with
  | none => exact h.inCell
  | some pn =>
    have hcall : ∀ c : QuicRecoveryCtx, c.sentPackets = ctx.sentPackets → ∀ a,
        InCell (quicRecoveryOnPacketSent c a).sentPackets idx p := fun c hc a =>
      packetSent_inCell (hc ▸ h.account.wf) (hc ▸ h.inCell) (hc ▸ hstay rfl) a
    exact hcall (ctx.call (.sendImm t f)) rfl _

variable {env : RecoveryEnv}

theorem lossRetransmit_inHand {q p : QuicRecoverySentPacket} {c : Option QuicRecoveryChunk} (h : InHand idx p w.ctx)
    (hstay : w.fastRetx < QUIC_LOSS_RETRANSMIT_PER_PASS → (env.lossImm w.fastRetx).isSome = true → StaysPut w.ctx.sentPackets idx)
    : InHand idx p (lossRetransmit env now q c w).ctx := by
  unfold lossRetransmit
  by_cases hcap : w.fastRetx < QUIC_LOSS_RETRANSMIT_PER_PASS
  · rw [if_pos hcap]
    refine InHand.same ?_ (chunkPtr_same _ c _)
    exact sendImm_inHand (h.same (show SameFlight w.ctx { w.ctx with currentRetransChunkId := q.chunkId } from
      ⟨rfl, rfl, rfl⟩)) _ _ _
      (hstay hcap)
  · rw [if_neg hcap]
    exact h

theorem lossLeave_accounted {ctx : QuicRecoveryCtx} (h : InHand idx p ctx)
    (c : Option QuicRecoveryChunk) : Accounted 0 (lossLeave ctx idx c) := by
  obtain ⟨haccount, ⟨hcell, i, hi, rfl⟩, hlost⟩ := h
  have hsub : Accounted 0 (inflightSub ctx p.bytesSent) := Accounted.sub (by rw [Nat.zero_add]; exact haccount)
  unfold lossLeave
  dsimp only
  rw [hcell]
  refine Accounted.same ?_ (chunkPtr_same _ c _)
  have hring := inflightSub_ring ctx p.bytesSent
  have heq : 0 + liveBytes { p with frames := none } =
      0 + liveBytes ((inflightSub ctx p.bytesSent).sentPackets.get i) := by
    rw [hring, show ctx.sentPackets.get i = p from hcell, liveBytes_lost hlost,
      liveBytes_lost (p := { p with frames := none }) hlost]
  have hset := hsub.set (by rw [hring]; exact hi) heq
  rwa [hring] at hset

theorem lossStep_accounted {now threshold : Nat} (h : Accounted 0 w.ctx) (hok : LossStepOk env now threshold w i) :
    Accounted 0 (lossStep env now threshold w i).ctx := by
  unfold lossStep
  dsimp only
  split
  · rename_i hdue
    obtain ⟨hi, hdue⟩ := hdue
    obtain ⟨hack, hlive⟩ := lossDue_live hdue
    unfold lossHit
    dsimp only
    split
    · exact lossStale_accounted h hi hack
    · rename_i hchunk
      refine lossLeave_accounted (lossRetransmit_inHand (lossFirst_inHand h hi hlive) (fun hcap himm => ?_)) _
      have hstay := hok ⟨hi, hdue, Bool.eq_false_iff.2 hchunk, hcap, himm⟩
      exact staysPut_set h.wf hi hstay rfl
  · exact h

theorem lossEnd_accounted (h : Accounted extra w.ctx) (env : RecoveryEnv) (now : Nat) : Accounted extra (lossEnd env now w) := by
  unfold lossEnd
  split
  · refine sendAll_accounted ?_ _
    refine Accounted.same ?_ (call_same _ _)
    split
    · exact (h.same (lossEpoch_same w.ctx now)).same (lossNotify_same _ now)
    · exact h.same (lossEpoch_same w.ctx now)
  · exact h.same ⟨rfl, rfl, rfl⟩

theorem detectLosses_accounted {ctx : QuicRecoveryCtx} (h : Accounted 0 ctx)
    (hok : DetectOk env ctx now) : Accounted 0 (detectLosses env ctx now) := by
  have hturns := hok.turns
  unfold detectLosses
  generalize range' 0 QUIC_RECOVERY_MAX_SENT_PACKETS = turns at hturns ⊢
  exact lossEnd_accounted (foldl_inv _ _ (fun w : LossWork => Accounted 0 w.ctx)
    (fun _ _ hw hi => lossStep_accounted hw hi) turns { ctx } h hturns) env now

/-! ## A pass with four free records -/

theorem ringStore_count (r : SentRing) (p : QuicRecoverySentPacket) : (ringStore r p).count ≤ r.count + 1 := by
  unfold ringStore
  by_cases hfull : QUIC_RECOVERY_MAX_SENT_PACKETS ≤ r.count
  · rw [if_pos hfull]
    show r.count ≤ r.count + 1
    omega
  · rw [if_neg hfull]
    show r.count + 1 ≤ r.count + 1
    omega

theorem packetSent_count (a : SentArgs) : (quicRecoveryOnPacketSent ctx a).sentPackets.count ≤ ctx.sentPackets.count + 1 := by
  have hcompact : (sentCompact ctx).sentPackets.count ≤ ctx.sentPackets.count := by
    rw [sentCompact_ring]
    split
    · exact Ring.compact_count_le _ _
    · exact Nat.le_refl _
  rw [packetSent_ring]
  exact Nat.le_trans (ringStore_count _ _) (Nat.succ_le_succ hcompact)

theorem lossRetransmit_count (env : RecoveryEnv) (now : Nat) (p : QuicRecoverySentPacket) (c : Option QuicRecoveryChunk)
    (w : LossWork) : (lossRetransmit env now p c w).ctx.sentPackets.count + w.fastRetx ≤ w.ctx.sentPackets.count + (lossRetransmit
    env now p c w).fastRetx ∧ ((lossRetransmit env now p c w).fastRetx ≤ max w.fastRetx QUIC_LOSS_RETRANSMIT_PER_PASS) := by
  unfold lossRetransmit
  split
  · rename_i hcap
    dsimp only
    rw [(chunkPtr_same _ c _).ring]
    generalize hc : ({ w.ctx with currentRetransChunkId := p.chunkId } : QuicRecoveryCtx) = ctx
    have hcount : ctx.sentPackets.count = w.ctx.sentPackets.count := by rw [← hc]
    have himm : (sendImm ctx p.pktType (p.frames.getD []) now (env.lossImm w.fastRetx)).sentPackets.count ≤
        ctx.sentPackets.count + 1 := by
      unfold sendImm
      split
      · exact Nat.le_succ ctx.sentPackets.count
      · exact packetSent_count (ctx.call _) _
    omega
  · exact ⟨Nat.le_refl _, Nat.le_max_left _ _⟩

theorem lossStep_count (env : RecoveryEnv) (now threshold : Nat) (w : LossWork) (i : Nat) : (lossStep env now threshold w
    i).ctx.sentPackets.count + w.fastRetx ≤ w.ctx.sentPackets.count + (lossStep env now threshold w i).fastRetx ∧
    (lossStep env now threshold w i).fastRetx ≤ max w.fastRetx QUIC_LOSS_RETRANSMIT_PER_PASS := by
  unfold lossStep
  dsimp only
  split
  · unfold lossHit
    dsimp only
    split
    · refine ⟨?_, Nat.le_max_left _ _⟩
      show (inflightLeave w.ctx _).sentPackets.count + _ ≤ _
      rw [inflightLeave_ring]
    · generalize hw : lossFirst w (w.ctx.sentPackets.slot i) = w₁
      have hcount : w₁.ctx.sentPackets.count = w.ctx.sentPackets.count := by rw [← hw]; rfl
      have hretx : w₁.fastRetx = w.fastRetx := by rw [← hw]; rfl
      have hleave : ∀ (ctx : QuicRecoveryCtx) idx c,
          (lossLeave ctx idx c).sentPackets.count = ctx.sentPackets.count := fun ctx idx c => by
        unfold lossLeave
        dsimp only
        rw [(chunkPtr_same _ c _).ring]
        show (inflightSub ctx _).sentPackets.count = _
        rw [inflightSub_ring]
      dsimp only
      rw [hleave, ← hcount, ← hretx]
      exact lossRetransmit_count env now _ _ w₁
  · exact ⟨Nat.le_refl _, Nat.le_max_left _ _⟩

theorem detectOk_of_room {ctx : QuicRecoveryCtx}
    (h : ctx.sentPackets.count + QUIC_LOSS_RETRANSMIT_PER_PASS ≤ QUIC_RECOVERY_MAX_SENT_PACKETS) : DetectOk env ctx now := by
  constructor
  generalize range' 0 QUIC_RECOVERY_MAX_SENT_PACKETS = turns
  refine stepsOk_of_inv _ _ (fun w : LossWork => w.ctx.sentPackets.count ≤ ctx.sentPackets.count + w.fastRetx ∧
      w.fastRetx ≤ QUIC_LOSS_RETRANSMIT_PER_PASS) (fun w i hw hover => ?_) (fun w i hw => ?_) _ _
    (by dsimp only; omega)
  · have hcap := hover.2.2.2.1
    exact Or.inl (by omega)
  · have := lossStep_count env now (lossTimeThreshold ctx) w i
    omega

end MoqLiveCast
