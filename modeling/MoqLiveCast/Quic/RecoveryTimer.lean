import MoqLiveCast.Quic.FramesSent
/-!
# RecoveryTimer — the PTO timer while an ACK is due (`arm_pto_timer`, `quic_recovery_reset_pto`)

`arm_pto_timer` leaves the timer running exactly when an ack-eliciting record is unacknowledged.
-/
namespace MoqLiveCast

/-! ## Calls -/

def quicRecoveryResetPto (ctx : QuicRecoveryCtx) : QuicRecoveryCtx := { ctx with ptoTimer := none, ptoCount := 0 }

/-- A call into recovery, or the reset WebTransport asks for (`QuicConnectionResetRecoveryPto`). -/
inductive PtoCall where
  | recovery (call : RecoveryCall)
  | resetPto

def ptoStep (fuel : Nat) (ctx : QuicRecoveryCtx) : PtoCall → Option QuicRecoveryCtx
  | .recovery call => recoveryStep fuel ctx call
  | .resetPto => some (quicRecoveryResetPto ctx)

def AckDue (ctx : QuicRecoveryCtx) : Prop :=
  ∃ p ∈ ctx.sentPackets.toList, p.acknowledged = false ∧ p.ackEliciting = true

/-- **While an ACK is due, the PTO timer is active.** -/
def TimerRuns (ctx : QuicRecoveryCtx) : Prop := AckDue ctx → ctx.ptoTimer.isSome = true

def StaysAlive (ctx : QuicRecoveryCtx) : PtoCall → Prop
  | .recovery (.ptoTimer now env) =>
    (ptoProbes env (ptoHeal env (compactSentPackets (detectLosses env (ptoFired ctx) now)) now) now).status ≠ .dead
  | _ => True

def ResetsIdle (ctx : QuicRecoveryCtx) : PtoCall → Prop
  | .resetPto => ¬AckDue ctx
  | _ => True

/-! ## The ring stays well formed -/

theorem packetSent_wf {ctx : QuicRecoveryCtx} (h : ctx.sentPackets.Wf) (a : SentArgs) :
    (quicRecoveryOnPacketSent ctx a).sentPackets.Wf := by
  rw [packetSent_ring, sentCompact_ring]
  refine ringStore_wf ?_ _
  split
  · exact Ring.wf_compact h _
  · exact h

theorem sendImm_wf {ctx : QuicRecoveryCtx} (h : ctx.sentPackets.Wf) (t : PktType) (f : List Byte) (now : Nat)
    (pn : Option Nat) : (sendImm ctx t f now pn).sentPackets.Wf := by
  unfold sendImm
  cases pn with
  | none => exact h
  | some pn => exact @packetSent_wf (ctx.call (.sendImm t f)) h _

variable (ctx : QuicRecoveryCtx)

theorem noteLeftover_ring : (noteLeftover ctx).sentPackets = ctx.sentPackets := by
  unfold noteLeftover
  split <;> rfl

theorem chunkPtr_ring (c : Option QuicRecoveryChunk)
    (f : QuicRecoveryChunk → QuicRecoveryChunk) : (chunkPtr ctx c f).sentPackets = ctx.sentPackets := by
  cases c <;> rfl

theorem lossRetransmit_wf {env : RecoveryEnv} {now : Nat} {p : QuicRecoverySentPacket} {c : Option QuicRecoveryChunk}
    {w : LossWork} (h : w.ctx.sentPackets.Wf) : (lossRetransmit env now p c w).ctx.sentPackets.Wf := by
  unfold lossRetransmit
  split
  · dsimp only
    rw [chunkPtr_ring]
    exact @sendImm_wf { w.ctx with currentRetransChunkId := p.chunkId } h _ _ _ _
  · exact h

theorem ringWf_inv : RecoveryInv (fun _ _ => True) (fun ctx => ctx.sentPackets.Wf) where
  same hs h := hs.ring ▸ h
  call _ h := h
  mark hi := (markPacket_keeps hi).wf
  markAcked h := (chunkMarkAcked_keeps h).wf
  compact := (compactSentPackets_keeps _).wf
  clearSpace t := (recoveryClearSpace_keeps _ t).wf
  hit := by
    intro env now threshold w i hi _ h
    unfold lossHit
    dsimp only
    split
    · exact (lossStale_keeps _ _).wf h
    · exact (lossLeave_keeps _ _ _).wf (lossRetransmit_wf ((lossFirst_keeps hi).wf h))
  probe := by
    intro env now w c f _ _ _ h
    exact @sendImm_wf { w.ctx with currentRetransChunkId := c.chunkId } h _ _ _ _
  new := by
    intro ctx a _ h
    exact packetSent_wf (noteLeftover_ring ctx ▸ h) a

/-! ## What leaves the timer alone -/

theorem inflightSub_timer (b : Nat) : (inflightSub ctx b).ptoTimer = ctx.ptoTimer := by
  unfold inflightSub
  split <;> rfl

theorem inflightLeave_timer (p : QuicRecoverySentPacket) : (inflightLeave ctx p).ptoTimer = ctx.ptoTimer := by
  unfold inflightLeave
  split
  · exact inflightSub_timer ctx _
  · rfl

theorem sentMakeRoom_timer : (sentMakeRoom ctx).ptoTimer = ctx.ptoTimer := by
  have hcompact : (sentCompact ctx).ptoTimer = ctx.ptoTimer := by
    unfold sentCompact
    split <;> rfl
  unfold sentMakeRoom
  dsimp only
  split
  · split
    · rw [inflightSub_timer, hcompact]
    · exact hcompact
  · exact hcompact

theorem chunkAlloc_timer (now : Nat) : (chunkAlloc ctx now).2.ptoTimer = ctx.ptoTimer := by
  have hevict : ∀ victim, (chunkEvict (chunkReclaim ctx) victim).ptoTimer = ctx.ptoTimer := fun victim => by
    unfold chunkEvict
    split <;> rfl
  unfold chunkAlloc
  split
  · rfl
  · split
    · rfl
    · split
      · rfl
      · exact hevict _

theorem chunkFill_timer (a : SentArgs) (id : Nat) : (chunkFill ctx a id).ptoTimer = ctx.ptoTimer := by
  unfold chunkFill
  split <;> rfl

theorem sentChunk_timer (a : SentArgs) : (sentChunk ctx a).2.ptoTimer = ctx.ptoTimer := by
  unfold sentChunk
  dsimp only
  split
  · rfl
  · have halloc := chunkAlloc_timer { ctx with currentRetransChunkId := NO_CHUNK } a.now
    cases (chunkAlloc { ctx with currentRetransChunkId := NO_CHUNK } a.now).1 with
    | none => exact halloc
    | some id => exact (chunkFill_timer _ a id).trans halloc

theorem sentNotify_timer (a : SentArgs) (chunk : Option Nat) : (sentNotify ctx a chunk).ptoTimer = ctx.ptoTimer := by
  unfold sentNotify
  dsimp only
  split <;> split <;> rfl

theorem noteLeftover_timer : (noteLeftover ctx).ptoTimer = ctx.ptoTimer := by
  unfold noteLeftover
  split <;> rfl

theorem chunkPtr_timer (c : Option QuicRecoveryChunk)
    (f : QuicRecoveryChunk → QuicRecoveryChunk) : (chunkPtr ctx c f).ptoTimer = ctx.ptoTimer := by
  cases c <;> rfl

theorem lossNotify_timer (now : Nat) : (lossNotify ctx now).ptoTimer = ctx.ptoTimer := by
  unfold lossNotify
  dsimp only
  split <;> rfl

/-- What `quic_recovery_on_packet_sent` has done when it comes to the timer. -/
def sentStored (ctx : QuicRecoveryCtx) (a : SentArgs) : QuicRecoveryCtx :=
  let r := sentChunk (sentMakeRoom ctx) a
  sentNotify (sentStore r.2 (sentRecord a r.1)) a r.1

theorem packetSent_eq (a : SentArgs) : quicRecoveryOnPacketSent ctx a = sentArm (sentStored ctx a) a := rfl

theorem sentStored_timer (a : SentArgs) : (sentStored ctx a).ptoTimer = ctx.ptoTimer := by
  unfold sentStored
  dsimp only
  rw [sentNotify_timer]
  exact (sentChunk_timer _ a).trans (sentMakeRoom_timer ctx)

/-! ## The timer that runs -/

theorem armPtoTimer_runs : TimerRuns (armPtoTimer ctx) := by
  rintro ⟨p, hp, hack, hel⟩
  rw [(armPtoTimer_sameHeld ctx).ring] at hp
  have hany : ctx.sentPackets.toList.any (fun p => !p.acknowledged && p.ackEliciting) = true :=
    List.any_eq_true.2 ⟨p, hp, by rw [hack, hel]; rfl⟩
  unfold armPtoTimer
  rw [if_pos hany]
  rfl

structure Watched (ctx : QuicRecoveryCtx) : Prop where
  wf : ctx.sentPackets.Wf
  runs : TimerRuns ctx

theorem Watched.same {ctx ctx' : QuicRecoveryCtx} (h : Watched ctx) (hring : ctx'.sentPackets = ctx.sentPackets)
    (htimer : ctx'.ptoTimer = ctx.ptoTimer) : Watched ctx' := by
  refine ⟨hring ▸ h.wf, fun hdue => ?_⟩
  unfold AckDue at hdue
  rw [hring] at hdue
  rw [htimer]
  exact h.runs hdue

theorem Watched.setPacket {ctx : QuicRecoveryCtx} (h : Watched ctx) {idx : Nat} {x : QuicRecoverySentPacket}
    (hack : x.acknowledged = (ctx.sentPackets.cells idx).acknowledged)
    (hel : x.ackEliciting = (ctx.sentPackets.cells idx).ackEliciting) : Watched (ctx.setPacket idx x) := by
  refine ⟨Ring.wf_set h.wf _ _, ?_⟩
  rintro ⟨p, hp, hpack, hpel⟩
  rcases Ring.mem_toList_set hp with ⟨rfl, hcell⟩ | hp
  · exact h.runs ⟨_, hcell, hack ▸ hpack, hel ▸ hpel⟩
  · exact h.runs ⟨p, hp, hpack, hpel⟩

theorem Watched.compact {ctx : QuicRecoveryCtx} (h : Watched ctx) : Watched (compactSentPackets ctx) := by
  refine ⟨Ring.wf_compact h.wf _, ?_⟩
  rintro ⟨p, hp, hpack, hpel⟩
  have hmem : p ∈ (ringCompact ctx.sentPackets).toList := hp
  unfold ringCompact at hmem
  rw [Ring.toList_compact h.wf] at hmem
  exact h.runs ⟨p, (List.mem_filter.1 hmem).1, hpack, hpel⟩

theorem Watched.packetSent {ctx : QuicRecoveryCtx} (h : Watched ctx) (a : SentArgs) :
    Watched (quicRecoveryOnPacketSent ctx a) := by
  refine ⟨packetSent_wf h.wf a, ?_⟩
  by_cases harm : a.ackEliciting = true ∧ (sentStored ctx a).ptoTimer.isNone = true
  · rw [packetSent_eq, sentArm, if_pos harm]
    exact armPtoTimer_runs _
  · have htimer : (quicRecoveryOnPacketSent ctx a).ptoTimer = ctx.ptoTimer := by
      rw [packetSent_eq, sentArm, if_neg harm, sentStored_timer]
    rw [sentStored_timer] at harm
    rintro ⟨p, hp, hpack, hpel⟩
    rw [htimer]
    cases htm : ctx.ptoTimer with
    | some _ => rfl
    | none =>
      rw [htm] at harm
      rw [packetSent_ring] at hp
      have hcompact : Watched (sentCompact ctx) := by
        unfold sentCompact
        split
        · exact h.compact
        · exact h
      rcases mem_ringStore hcompact.wf hp with rfl | hp
      · exact absurd ⟨hpel, rfl⟩ harm
      · have hruns := hcompact.runs ⟨p, hp, hpack, hpel⟩
        have hsame : (sentCompact ctx).ptoTimer = none := by
          unfold sentCompact
          split <;> exact htm
        rw [hsame] at hruns
        exact hruns

theorem Watched.sendNew {ctx : QuicRecoveryCtx} (h : Watched ctx) (a : SentArgs) : Watched (sendNew ctx a) :=
  (h.same (noteLeftover_ring ctx) (noteLeftover_timer ctx)).packetSent a

theorem Watched.sendAll {ctx : QuicRecoveryCtx} (h : Watched ctx) (l : List SentArgs) : Watched (sendAll ctx l) :=
  foldl_inv _ (fun _ _ => True) Watched (fun _ a hc _ => hc.sendNew a) l ctx h
    (stepsOk_of_forall _ _ _ _ fun _ _ _ => trivial)

theorem Watched.sendImm {ctx : QuicRecoveryCtx} (h : Watched ctx) (t : PktType) (f : List Byte) (now : Nat)
    (pn : Option Nat) : Watched (sendImm ctx t f now pn) := by
  have hcall : Watched (ctx.call (.sendImm t f)) := h.same rfl rfl
  unfold MoqLiveCast.sendImm
  cases pn with
  | none => exact hcall
  | some pn => exact hcall.packetSent _

/-! ## `detect_losses` -/

theorem Watched.lossStale {ctx : QuicRecoveryCtx} (h : Watched ctx) (idx : Nat) : Watched (lossStale ctx idx) := by
  have hleft := h.same (inflightLeave_ring ctx (ctx.sentPackets.cells idx)) (inflightLeave_timer ctx _)
  unfold MoqLiveCast.lossStale
  refine hleft.setPacket ?_ ?_ <;> rw [inflightLeave_ring]

theorem Watched.lossLeave {ctx : QuicRecoveryCtx} (h : Watched ctx) (idx : Nat) (c : Option QuicRecoveryChunk) :
    Watched (lossLeave ctx idx c) := by
  have hleft := h.same (inflightSub_ring ctx (ctx.sentPackets.cells idx).bytesSent) (inflightSub_timer ctx _)
  unfold MoqLiveCast.lossLeave
  refine Watched.same ?_ (chunkPtr_ring _ c _) (chunkPtr_timer _ c _)
  refine hleft.setPacket ?_ ?_ <;> rw [inflightSub_ring]

theorem Watched.lossRetransmit {env : RecoveryEnv} {now : Nat} {p : QuicRecoverySentPacket}
    {c : Option QuicRecoveryChunk} {w : LossWork} (h : Watched w.ctx) : Watched (lossRetransmit env now p c w).ctx := by
  unfold MoqLiveCast.lossRetransmit
  split
  · have hnamed : Watched { w.ctx with currentRetransChunkId := p.chunkId } := h.same rfl rfl
    exact (hnamed.sendImm _ _ now _).same (chunkPtr_ring _ c _) (chunkPtr_timer _ c _)
  · exact h

theorem Watched.lossStep {env : RecoveryEnv} {now threshold : Nat} {w : LossWork} (h : Watched w.ctx) (i : Nat) :
    Watched (lossStep env now threshold w i).ctx := by
  unfold MoqLiveCast.lossStep lossHit
  dsimp only
  split
  · split
    · exact h.lossStale _
    · refine (Watched.lossRetransmit ?_).lossLeave _ _
      exact (@setPacket w.ctx h (w.ctx.sentPackets.slot i)
        { w.ctx.sentPackets.cells (w.ctx.sentPackets.slot i) with lost := true } rfl rfl).same rfl rfl
  · exact h

theorem Watched.lossPass {env : RecoveryEnv} {ctx : QuicRecoveryCtx} (h : Watched ctx) (now : Nat) :
    Watched (lossPass env ctx now).ctx := by
  unfold MoqLiveCast.lossPass lossTurns
  generalize List.range' 0 QUIC_RECOVERY_MAX_SENT_PACKETS = turns
  exact foldl_inv _ (fun _ _ => True) (fun w : LossWork => Watched w.ctx) (fun w i hw _ => hw.lossStep i) turns
    { ctx } h (stepsOk_of_forall _ _ _ _ fun _ _ _ => trivial)

theorem lossEpoch_timer (now : Nat) : (lossEpoch ctx now).ptoTimer = ctx.ptoTimer := by
  unfold lossEpoch
  split <;> rfl

theorem Watched.lossEnd {env : RecoveryEnv} {w : LossWork} (h : Watched w.ctx) (now : Nat) : Watched (lossEnd env now w) := by
  have hepoch : Watched (lossEpoch w.ctx now) := h.same (lossEpoch_same w.ctx now).ring (lossEpoch_timer w.ctx now)
  unfold MoqLiveCast.lossEnd
  split
  · refine Watched.sendAll ?_ _
    split
    · exact (hepoch.same (lossNotify_same _ now).ring (lossNotify_timer _ now)).same rfl rfl
    · exact hepoch.same rfl rfl
  · exact h.same rfl rfl

theorem Watched.detectLosses {env : RecoveryEnv} {ctx : QuicRecoveryCtx} (h : Watched ctx) (now : Nat) :
    Watched (detectLosses env ctx now) := by
  rw [detectLosses_pass]
  exact (h.lossPass now).lossEnd now

/-! ## Runs -/

theorem Watched.armed {ctx : QuicRecoveryCtx} (h : (armPtoTimer ctx).sentPackets.Wf) : Watched (armPtoTimer ctx) :=
  ⟨h, armPtoTimer_runs ctx⟩

theorem Watched.ptoFinish {env : RecoveryEnv} {w : ProbeWork} {now : Nat} (halive : w.status ≠ .dead)
    (h : (ptoFinish env w now).sentPackets.Wf) : Watched (ptoFinish env w now) := by
  unfold MoqLiveCast.ptoFinish at h ⊢
  rw [if_neg halive] at h ⊢
  exact Watched.armed h

theorem Watched.step {fuel : Nat} {ctx ctx' : QuicRecoveryCtx} {call : RecoveryCall} (halive : StaysAlive ctx (.recovery call))
    (hstep : recoveryStep fuel ctx call = some ctx') (h : Watched ctx) : Watched ctx' := by
  have hwf : ctx'.sentPackets.Wf :=
    ringWf_inv.step (newSendsOk_of_forall _ (fun _ _ => trivial) fuel ctx call) hstep h.wf
  cases call with
  | packetSent a =>
    rw [← Option.some.inj hstep]
    exact h.sendNew a
  | ackReceived ack now level env =>
    obtain ⟨w, -, rfl⟩ := Option.map_eq_some_iff.1 hstep
    exact Watched.armed hwf
  | checkLosses now env =>
    rw [← Option.some.inj hstep]
    exact (h.detectLosses now).compact
  | ptoTimer now env =>
    rw [← Option.some.inj hstep] at hwf ⊢
    unfold onPtoTimer at hwf ⊢
    unfold StaysAlive at halive
    exact Watched.ptoFinish halive hwf
  | handshakeDone =>
    obtain rfl := Option.some.inj hstep
    exact Watched.armed hwf
  | clearHandshake =>
    obtain rfl := Option.some.inj hstep
    exact Watched.armed hwf

theorem resetPto_runs_iff : TimerRuns (quicRecoveryResetPto ctx) ↔ ¬AckDue ctx :=
  ⟨fun h hdue => Bool.noConfusion (h hdue), fun h hdue => absurd hdue h⟩

/-- **The timer never misses while an ACK is due exactly when each reset finds no ACK due**, in every run of the recovery
layer in which no PTO expiry declares the connection dead. -/
theorem timerRuns_iff_resetsIdle {fuel : Nat} {calls : List PtoCall} (halive : StepsOkM (ptoStep fuel) StaysAlive {} calls) :
    (∀ pre post ctx, calls = pre ++ post → pre.foldlM (ptoStep fuel) {} = some ctx → TimerRuns ctx) ↔ StepsOkM (ptoStep fuel)
    ResetsIdle {} calls := by
  refine forall_prefixM_iff (ptoStep fuel) ResetsIdle StaysAlive (fun ctx => ctx.sentPackets.Wf) TimerRuns
    (fun ctx call ctx' hwf _ hs => ?_) (fun ctx call ctx' hwf ha hruns hs => ?_) (fun ctx call hs => ?_) calls {} halive
    ⟨by decide, by decide⟩ ?_
  · cases call with
    | recovery call => exact ringWf_inv.step (newSendsOk_of_forall _ (fun _ _ => trivial) fuel ctx call) hs hwf
    | resetPto =>
      rw [← Option.some.inj hs]
      exact hwf
  · cases call with
    | recovery call => exact iff_of_true (Watched.step ha hs ⟨hwf, hruns⟩).runs trivial
    | resetPto =>
      rw [← Option.some.inj hs]
      exact resetPto_runs_iff ctx
  · cases call with
    | recovery call => trivial
    | resetPto => cases hs
  · rintro ⟨p, hp, -, -⟩
    cases hp

def pingSent (pn t : Nat) : SentArgs :=
  { pn, ackEliciting := true, bytesSent := 30, frames := [1], pktType := .short, now := t }

def resetAfterPing : List PtoCall := [.recovery (.packetSent (pingSent 0 1)), .resetPto]

theorem timerRuns_iff_resetAfterPing : (∀ pre post ctx, resetAfterPing = pre ++ post → pre.foldlM (ptoStep 0) {} = some ctx →
    TimerRuns ctx) ↔ StepsOkM (ptoStep 0) ResetsIdle {} resetAfterPing :=
  timerRuns_iff_resetsIdle ⟨trivial, fun _ _ => ⟨trivial, fun _ _ => trivial⟩⟩

/-- **The packet that was sent has no timer**: the reset finds its ACK due. -/
theorem resetPto_leaves_no_timer : ∃ ctx, resetAfterPing.foldlM (ptoStep 0) {} = some ctx ∧ AckDue ctx ∧ ctx.ptoTimer = none :=
  ⟨_, rfl, ⟨_, List.mem_singleton_self _, rfl, rfl⟩, rfl⟩

end MoqLiveCast
