import MoqLiveCast.Quic.RecoveryLoss
/-!
# RecoveryInv — the rule of the invariants of loss recovery

An invariant is kept by every call when the steps the calls are made of keep it (`RecoveryInv`): those that touch neither
the ring nor the chunks, an acknowledged record, a chunk that is acknowledged, a record found lost, a probe, and a packet
sent by another callback than `send_imm_fn`, which may come with a condition.
-/
namespace MoqLiveCast

/-- Two states with the same ring, the same chunks and the same trace. -/
structure SameHeld (ctx ctx' : QuicRecoveryCtx) : Prop where
  ring : ctx'.sentPackets = ctx.sentPackets
  chunks : ctx'.chunks = ctx.chunks
  nextChunkId : ctx'.nextChunkId = ctx.nextChunkId
  trace : ctx'.trace = ctx.trace
  leftover : ctx'.leftoverTaken = ctx.leftoverTaken

theorem SameHeld.refl (ctx : QuicRecoveryCtx) : SameHeld ctx ctx := ⟨rfl, rfl, rfl, rfl, rfl⟩

theorem inflightSub_sameHeld (ctx : QuicRecoveryCtx) (b : Nat) : SameHeld ctx (inflightSub ctx b) := by
  unfold inflightSub
  split <;> exact ⟨rfl, rfl, rfl, rfl, rfl⟩

theorem inflightLeave_sameHeld (ctx : QuicRecoveryCtx) (p : QuicRecoverySentPacket) : SameHeld ctx (inflightLeave ctx p) := by
  unfold inflightLeave
  split
  · exact inflightSub_sameHeld ctx _
  · exact SameHeld.refl ctx

theorem updateRtt_sameHeld (ctx : QuicRecoveryCtx) (s : Nat) : SameHeld ctx (updateRtt ctx s) := by
  unfold updateRtt
  by_cases h : ctx.rttInitialized <;> simp only [h] <;> exact ⟨rfl, rfl, rfl, rfl, rfl⟩

theorem ackSample_sameHeld (w : AckWork) (p : QuicRecoverySentPacket) (pn now : Nat) :
    SameHeld w.ctx (ackSample w p pn now).ctx := by
  unfold ackSample
  split
  · exact updateRtt_sameHeld _ _
  · exact SameHeld.refl _

theorem armPtoTimer_sameHeld (ctx : QuicRecoveryCtx) : SameHeld ctx (armPtoTimer ctx) := by
  unfold armPtoTimer
  split <;> exact ⟨rfl, rfl, rfl, rfl, rfl⟩

theorem lossEpoch_sameHeld (ctx : QuicRecoveryCtx) (now : Nat) : SameHeld ctx (lossEpoch ctx now) := by
  unfold lossEpoch
  split <;> exact ⟨rfl, rfl, rfl, rfl, rfl⟩

theorem ackProgress_sameHeld (ctx : QuicRecoveryCtx) (n now : Nat) : SameHeld ctx (ackProgress ctx n now) := by
  unfold ackProgress
  split <;> exact ⟨rfl, rfl, rfl, rfl, rfl⟩

/-! ## New packets of a call -/

theorem detectLosses_pass (env : RecoveryEnv) (ctx : QuicRecoveryCtx) (now : Nat) :
    detectLosses env ctx now = lossEnd env now (lossPass env ctx now) := rfl

/-- What `flush_fn` finds at the end of a pass. -/
def lossFlush (w : LossWork) (now : Nat) : QuicRecoveryCtx :=
  (if w.appLossDetected then lossNotify (lossEpoch w.ctx now) now else lossEpoch w.ctx now).call .flush

section NewSends

variable (ok : QuicRecoveryCtx → SentArgs → Prop)

/-- The packets `flush_fn` sends at the end of a pass meet the condition. -/
def DetectSendsOk (env : RecoveryEnv) (ctx : QuicRecoveryCtx) (now : Nat) : Prop :=
  (lossPass env ctx now).lossDetected = true → StepsOk sendNew ok (lossFlush (lossPass env ctx now) now) env.flushed

def HealSendsOk (env : RecoveryEnv) (ctx : QuicRecoveryCtx) : Prop :=
  ctx.sentPackets.count = 0 ∧ 0 < ctx.bytesInFlight →
    StepsOk sendNew ok ({ ctx with bytesInFlight := 0 }.call .keepalive) env.healed

def KeepaliveSendsOk (env : RecoveryEnv) (ctx : QuicRecoveryCtx) (now : Nat) : Prop :=
  QUIC_KEEPALIVE_MS < sub64 now ctx.lastKeepaliveMs → StepsOk sendNew ok ((ctx.call .keepalive).call .flush) env.keptAlive

/-- **Every packet a call sends otherwise than by `send_imm_fn` meets the condition**, at the state before it. -/
def NewSendsOk (fuel : Nat) (ctx : QuicRecoveryCtx) : RecoveryCall → Prop
  | .packetSent a => ok ctx a
  | .ackReceived ack now level env => ∀ w, processAckRanges fuel ctx ack now level = some w → DetectSendsOk ok env w.ctx now
  | .checkLosses now env => DetectSendsOk ok env ctx now
  | .ptoTimer now env =>
    let detected := compactSentPackets (detectLosses env (ptoFired ctx) now)
    let w := ptoProbes env (ptoHeal env detected now) now
    DetectSendsOk ok env (ptoFired ctx) now ∧ HealSendsOk ok env detected ∧ (w.status ≠ .dead → KeepaliveSendsOk ok env w.ctx now)
  | .handshakeDone => True
  | .clearHandshake => True

theorem newSendsOk_of_forall (hok : ∀ ctx a, ok ctx a) (fuel : Nat) (ctx : QuicRecoveryCtx) (call : RecoveryCall) :
    NewSendsOk ok fuel ctx call := by
  have hall : ∀ (l : List SentArgs) (c : QuicRecoveryCtx), StepsOk sendNew ok c l := fun l c =>
    stepsOk_of_forall _ _ l c (fun a _ c => hok c a)
  cases call with
  | packetSent a => exact hok ctx a
  | ackReceived ack now level env => exact fun w _ _ => hall _ _
  | checkLosses now env => exact fun _ => hall _ _
  | ptoTimer now env => exact ⟨fun _ => hall _ _, fun _ => hall _ _, fun _ _ => hall _ _⟩
  | handshakeDone => trivial
  | clearHandshake => trivial

end NewSends

/-! ## The rule -/

/-- **What the steps of the calls keep.** -/
structure RecoveryInv (ok : QuicRecoveryCtx → SentArgs → Prop) (J : QuicRecoveryCtx → Prop) : Prop where
  same : ∀ {c c'}, SameHeld c c' → J c → J c'
  call : ∀ {ctx e}, (∀ pn id el t f, e ≠ .sent pn id el t f) → J ctx → J (ctx.call e)
  mark : ∀ {ctx i}, i < ctx.sentPackets.count → J ctx →
    J (ctx.setPacket (ctx.sentPackets.slot i) { ctx.sentPackets.get i with acknowledged := true })
  markAcked : ∀ {ctx id}, RecoveryEffect.acked id ∈ ctx.trace → J ctx → J (chunkMarkAcked ctx id)
  compact : ∀ {ctx}, J ctx → J (compactSentPackets ctx)
  clearSpace : ∀ {ctx} t, J ctx → J (recoveryClearSpace ctx t)
  hit : ∀ {env now threshold w i}, i < w.ctx.sentPackets.count →
    lossDue w.ctx now threshold (w.ctx.sentPackets.get i) = true → J w.ctx →
    J (lossHit env now w (w.ctx.sentPackets.slot i)).ctx
  probe : ∀ {env now w c f}, c ∈ w.ctx.chunks → c.state ≠ .acked → c.frames = some f → J w.ctx → J (probeSend env now w c).ctx
  new : ∀ {ctx a}, ok ctx a → J ctx → J (sendNew ctx a)

namespace RecoveryInv

variable {ok : QuicRecoveryCtx → SentArgs → Prop} {J : QuicRecoveryCtx → Prop} (h : RecoveryInv ok J)
include h

theorem sendAll {l : List SentArgs} {ctx : QuicRecoveryCtx} (hok : StepsOk sendNew ok ctx l) (hJ : J ctx) :
    J (sendAll ctx l) := foldl_inv sendNew ok J (fun _ _ hc ha => h.new ha hc) l ctx hJ hok

/-! ### ACKs -/

theorem markRecord {w : AckWork} {i : Nat} (hi : i < w.ctx.sentPackets.count) (pn now : Nat) (hJ : J w.ctx) :
    J (markRecord w (w.ctx.sentPackets.slot i) pn now).ctx := by
  unfold MoqLiveCast.markRecord
  dsimp only
  refine h.markAcked (List.mem_append_right _ List.mem_cons_self) ?_
  refine h.call (fun _ _ _ _ _ he => by cases he) ?_
  have hmarked := h.mark hi hJ
  generalize hm : w.ctx.setPacket (w.ctx.sentPackets.slot i) { w.ctx.sentPackets.get i with acknowledged := true } = c
    at hmarked
  have hm' : w.ctx.setPacket (w.ctx.sentPackets.slot i)
      { w.ctx.sentPackets.cells (w.ctx.sentPackets.slot i) with acknowledged := true } = c := hm
  rw [hm']
  have hcounted : J { c with packetsAcked := c.packetsAcked + 1 } :=
    h.same (c := c) ⟨rfl, rfl, rfl, rfl, rfl⟩ hmarked
  have hsampled := h.same (ackSample_sameHeld { w with
    newlyAckedCount := w.newlyAckedCount + 1, ctx := { c with packetsAcked := c.packetsAcked + 1 } }
    (w.ctx.sentPackets.get i) pn now) hcounted
  have hleft := h.same (inflightLeave_sameHeld _ (w.ctx.sentPackets.get i)) hsampled
  unfold ackNotify
  split
  · exact h.call (fun _ _ _ _ _ he => by cases he) hleft
  · exact hleft

theorem markPnAcked (w : AckWork) (pn : Nat) (level : TlsLevel) (now : Nat) (hJ : J w.ctx) :
    J (markPnAcked w pn level now).ctx := by
  unfold MoqLiveCast.markPnAcked
  dsimp only
  split
  · exact hJ
  · rename_i i hfind
    exact h.markRecord (w := { w with marked := w.marked ++ [pn] })
      (List.mem_range.1 (List.mem_of_find?_eq_some hfind)) pn now hJ

theorem ackRangeLoop {fuel : Nat} {level : TlsLevel} {now : Nat} {w w' : AckWork} {rStart rEnd : Nat}
    (hr : ackRangeLoop fuel level now w rStart rEnd = some w') (hJ : J w.ctx) : J w'.ctx := by
  obtain ⟨t, ht, rfl⟩ := Option.map_eq_some_iff.1 hr
  exact (whileLoop_inv _ _ (fun s : AckWork × Nat => J s.1.ctx)
    (fun s hs _ => h.markPnAcked s.1 s.2 level now hs) fuel (w, rStart) t hJ ht).1

theorem ackRangesLoop {fuel : Nat} {level : TlsLevel} {now : Nat} : ∀ (rs : List (Nat × Nat)) {w w' : AckWork} {prev : Nat},
      ackRangesLoop fuel level now w prev rs = some w' → J w.ctx → J w'.ctx
  | [], w, _, _, hr, hJ => by
    cases hr
    exact hJ
  | (gap, ackRange) :: rs, w, w', prev, hr, hJ => by
    unfold MoqLiveCast.ackRangesLoop at hr
    obtain ⟨w₁, h₁, h₂⟩ := Option.bind_eq_some_iff.1 hr
    exact RecoveryInv.ackRangesLoop rs h₂ (h.ackRangeLoop h₁ hJ)

theorem processAckRanges {fuel : Nat} {ctx : QuicRecoveryCtx} {ack : QuicAckFrame} {now : Nat} {level : TlsLevel}
    {w : AckWork} (hr : processAckRanges fuel ctx ack now level = some w) (hJ : J ctx) : J w.ctx := by
  unfold MoqLiveCast.processAckRanges at hr
  obtain ⟨w₁, h₁, h₂⟩ := Option.bind_eq_some_iff.1 hr
  refine h.ackRangesLoop _ h₂ (h.ackRangeLoop h₁ ?_)
  exact h.same (c := ctx) ⟨rfl, rfl, rfl, rfl, rfl⟩ hJ

/-! ### `detect_losses` -/

theorem lossStep (env : RecoveryEnv) (now threshold : Nat) (w : LossWork) (i : Nat) (hJ : J w.ctx) :
    J (lossStep env now threshold w i).ctx := by
  unfold MoqLiveCast.lossStep
  dsimp only
  split
  · rename_i hdue
    exact h.hit hdue.1 hdue.2 hJ
  · exact hJ

theorem lossPass (env : RecoveryEnv) (ctx : QuicRecoveryCtx) (now : Nat) (hJ : J ctx) : J (lossPass env ctx now).ctx := by
  unfold MoqLiveCast.lossPass lossTurns
  generalize List.range' 0 QUIC_RECOVERY_MAX_SENT_PACKETS = turns
  exact foldl_inv _ (fun _ _ => True) (fun w : LossWork => J w.ctx)
    (fun w i hw _ => h.lossStep env now (lossTimeThreshold ctx) w i hw) turns { ctx } hJ
    (stepsOk_of_forall _ _ _ _ (fun _ _ _ => trivial))

theorem lossNotify (ctx : QuicRecoveryCtx) (now : Nat) (hJ : J ctx) : J (lossNotify ctx now) := by
  unfold MoqLiveCast.lossNotify
  dsimp only
  refine h.call (fun _ _ _ _ _ he => by cases he) ?_
  split
  · refine h.call (fun _ _ _ _ _ he => by cases he) ?_
    exact h.same (c := ctx) ⟨rfl, rfl, rfl, rfl, rfl⟩ hJ
  · exact hJ

theorem lossEnd {env : RecoveryEnv} {w : LossWork} {now : Nat}
    (hok : w.lossDetected = true → StepsOk sendNew ok (lossFlush w now) env.flushed) (hJ : J w.ctx) : J (lossEnd env now w) := by
  unfold MoqLiveCast.lossEnd
  split
  · rename_i hlost
    refine h.sendAll (hok hlost) ?_
    refine h.call (fun _ _ _ _ _ he => by cases he) ?_
    have hepoch := h.same (lossEpoch_sameHeld w.ctx now) hJ
    split
    · exact h.lossNotify _ now hepoch
    · exact hepoch
  · exact h.same (c := w.ctx) ⟨rfl, rfl, rfl, rfl, rfl⟩ hJ

theorem detectLosses {env : RecoveryEnv} {ctx : QuicRecoveryCtx} {now : Nat} (hok : DetectSendsOk ok env ctx now)
    (hJ : J ctx) : J (detectLosses env ctx now) := by
  rw [detectLosses_pass]
  exact h.lossEnd hok (h.lossPass env ctx now hJ)

/-! ### The PTO timer -/

theorem probeStep (env : RecoveryEnv) (now : Nat) (w : ProbeWork) (i : Nat) (hJ : J w.ctx) : J (probeStep env now w i).ctx := by
  unfold MoqLiveCast.probeStep
  split
  · rename_i c _ hc
    split
    · exact hJ
    · rename_i hidle
      split
      · exact hJ
      · split
        · exact h.call (fun _ _ _ _ _ he => by cases he) hJ
        · split
          · exact hJ
          · cases hframes : c.frames with
            | none => exact absurd (Or.inr (by rw [hframes]; rfl)) hidle
            | some f => exact h.probe (List.mem_of_getElem? hc) (fun hs => hidle (Or.inl hs)) hframes hJ
  · exact hJ

theorem ptoProbes {env : RecoveryEnv} {ctx : QuicRecoveryCtx} {now : Nat} (hJ : J ctx) : J (ptoProbes env ctx now).ctx := by
  unfold MoqLiveCast.ptoProbes
  generalize List.range' 0 QUIC_RECOVERY_MAX_CHUNKS = turns
  exact foldl_inv _ (fun _ _ => True) (fun w : ProbeWork => J w.ctx) (fun w i hw _ => h.probeStep env now w i hw) turns
    { ctx } hJ (stepsOk_of_forall _ _ _ _ (fun _ _ _ => trivial))

theorem ptoHeal {env : RecoveryEnv} {ctx : QuicRecoveryCtx} {now : Nat} (hok : HealSendsOk ok env ctx) (hJ : J ctx) :
    J (ptoHeal env ctx now) := by
  unfold MoqLiveCast.ptoHeal
  split
  · rename_i hempty
    have hcleared : J { ctx with bytesInFlight := 0 } := h.same (c := ctx) ⟨rfl, rfl, rfl, rfl, rfl⟩ hJ
    have hsent := h.sendAll (hok hempty) (h.call (fun _ _ _ _ _ he => by cases he) hcleared)
    generalize MoqLiveCast.sendAll _ env.healed = c at hsent ⊢
    exact h.same (c := c) ⟨rfl, rfl, rfl, rfl, rfl⟩ hsent
  · exact hJ

theorem ptoKeepalive {env : RecoveryEnv} {ctx : QuicRecoveryCtx} {now : Nat} (hok : KeepaliveSendsOk ok env ctx now)
    (hJ : J ctx) : J (ptoKeepalive env ctx now) := by
  unfold MoqLiveCast.ptoKeepalive
  split
  · rename_i hlate
    have hcalled := h.call (e := .flush) (fun _ _ _ _ _ he => by cases he)
      (h.call (e := .keepalive) (fun _ _ _ _ _ he => by cases he) hJ)
    have hsent := h.sendAll (hok hlate) hcalled
    generalize MoqLiveCast.sendAll _ env.keptAlive = c at hsent ⊢
    exact h.same (c := c) ⟨rfl, rfl, rfl, rfl, rfl⟩ hsent
  · exact hJ

theorem ptoFinish {env : RecoveryEnv} {w : ProbeWork} {now : Nat}
    (hok : w.status ≠ .dead → KeepaliveSendsOk ok env w.ctx now) (hJ : J w.ctx) : J (ptoFinish env w now) := by
  unfold MoqLiveCast.ptoFinish
  split
  · exact hJ
  · rename_i halive
    have hkept := h.ptoKeepalive (hok halive) hJ
    generalize MoqLiveCast.ptoKeepalive env w.ctx now = c at hkept ⊢
    have hcounted : J { c with ptoCount := c.ptoCount + 1 } := h.same (c := c) ⟨rfl, rfl, rfl, rfl, rfl⟩ hkept
    exact h.same (armPtoTimer_sameHeld _) hcounted

/-! ### The calls -/

theorem step {fuel : Nat} {ctx ctx' : QuicRecoveryCtx} {call : RecoveryCall} (hok : NewSendsOk ok fuel ctx call)
    (hstep : recoveryStep fuel ctx call = some ctx') (hJ : J ctx) : J ctx' := by
  cases call with
  | packetSent a =>
    rw [← Option.some.inj hstep]
    exact h.new hok hJ
  | ackReceived ack now level env =>
    obtain ⟨w, hw, rfl⟩ := Option.map_eq_some_iff.1 hstep
    have hdetect := h.compact (h.detectLosses (hok w hw) (h.processAckRanges hw hJ))
    exact h.same (armPtoTimer_sameHeld _) (h.same (ackProgress_sameHeld _ w.newlyAckedCount now) hdetect)
  | checkLosses now env =>
    rw [← Option.some.inj hstep]
    exact h.compact (h.detectLosses hok hJ)
  | ptoTimer now env =>
    rw [← Option.some.inj hstep]
    obtain ⟨hdetect, hheal, halive⟩ := hok
    have hfired : J (ptoFired ctx) := h.same (c := ctx) ⟨rfl, rfl, rfl, rfl, rfl⟩ hJ
    exact h.ptoFinish halive (h.ptoProbes (h.ptoHeal hheal (h.compact (h.detectLosses hdetect hfired))))
  | handshakeDone =>
    rw [← Option.some.inj hstep]
    exact h.same (armPtoTimer_sameHeld _) (h.clearSpace _ hJ)
  | clearHandshake =>
    rw [← Option.some.inj hstep]
    exact h.same (armPtoTimer_sameHeld _) (h.clearSpace _ hJ)

theorem run {fuel : Nat} {calls : List RecoveryCall} {ctx ctx' : QuicRecoveryCtx} (hok : StepsOkM (recoveryStep fuel)
    (NewSendsOk ok fuel) ctx calls) (hrun : calls.foldlM (recoveryStep fuel) ctx = some ctx') (hJ : J ctx) : J ctx' :=
  foldlM_inv (recoveryStep fuel) (NewSendsOk ok fuel) J (fun _ _ _ hc hcall hs => h.step hcall hs hc) calls ctx ctx' hJ
    hok hrun

end RecoveryInv
end MoqLiveCast
