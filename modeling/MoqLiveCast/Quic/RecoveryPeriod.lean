import MoqLiveCast.Quic.CongestionControl
import MoqLiveCast.Quic.RecoveryInv
/-!
# RecoveryPeriod — how often the losses of one burst cut the window

A pass of `detect_losses` that finds application packets lost tells the controller, whenever they were sent: neither
recovery nor the controllers remember when the window was last cut.
-/
namespace MoqLiveCast

/-! ## Passes -/

structure Pass where
  env : RecoveryEnv
  ctx : QuicRecoveryCtx
  now : Nat

def lostAt (now threshold : Nat) (w : LossWork) (i : Nat) : List QuicRecoverySentPacket :=
  let p := w.ctx.sentPackets.get i
  if (i < w.ctx.sentPackets.count ∧ lossDue w.ctx now threshold p) ∧
      (chunkFind w.ctx p.chunkId).any (fun c => c.state = .lost) = false ∧ p.pktType = .short then [p]
  else []

def lostFrom (env : RecoveryEnv) (now threshold : Nat) : LossWork → List Nat → List QuicRecoverySentPacket
  | _, [] => []
  | w, i :: l => lostAt now threshold w i ++ lostFrom env now threshold (lossStep env now threshold w i) l

def lossPersistent (ctx : QuicRecoveryCtx) (now : Nat) : QuicRecoveryCtx :=
  if ctx.persistentCongestionDetected = false
      ∧ ctx.ptoBase * QUIC_PERSISTENT_CONGESTION_THRESHOLD % wordSize ≤ sub64 now ctx.lossEpochStartMs
      ∧ QUIC_PERSISTENT_CONGESTION_THRESHOLD ≤ ctx.ptoCount then
    { ctx with persistentCongestionDetected := true }.call (.ccPersistentCongestion now)
  else ctx

theorem lossNotify_eq (ctx : QuicRecoveryCtx) (now : Nat) :
    lossNotify ctx now = (lossPersistent ctx now).call (.ccCongestionEvent now) := rfl

namespace Pass

variable (p : Pass) (cc : QuicCc)

def work : LossWork := lossPass p.env p.ctx p.now

/-- **The application packets the pass finds lost.** -/
def lost : List QuicRecoverySentPacket :=
  lostFrom p.env p.now (lossTimeThreshold p.ctx) { ctx := p.ctx } (List.range' 0 QUIC_RECOVERY_MAX_SENT_PACKETS)

def ccBefore : QuicCc := cc.after p.work.ctx.trace

/-- The controller when it is to be told of congestion, after persistent congestion. -/
def ccTold : QuicCc := cc.after (lossPersistent (lossEpoch p.work.ctx p.now) p.now).trace

def ccAfter : QuicCc := cc.after (lossNotify (lossEpoch p.work.ctx p.now) p.now).trace

def Reduces : Prop := p.work.appLossDetected = true ∧ (p.ccAfter cc).getCwnd < (p.ccBefore cc).getCwnd

def ReducesByLoss : Prop := p.work.appLossDetected = true ∧ (p.ccAfter cc).getCwnd < (p.ccTold cc).getCwnd

end Pass

def callPass (fuel : Nat) (ctx : QuicRecoveryCtx) : RecoveryCall → Option Pass
  | .ackReceived ack now level env => (processAckRanges fuel ctx ack now level).map fun w => ⟨env, w.ctx, now⟩
  | .checkLosses now env => some ⟨env, ctx, now⟩
  | .ptoTimer now env => some ⟨env, ptoFired ctx, now⟩
  | _ => none

def PassOf (fuel : Nat) (calls pre : List RecoveryCall) (p : Pass) : Prop :=
  ∃ call post ctx, calls = pre ++ call :: post ∧ pre.foldlM (recoveryStep fuel) {} = some ctx ∧ callPass fuel ctx call = some p

def ReducedAt (fuel : Nat) (cc : QuicCc) (calls : List RecoveryCall) (t : Nat) : Prop :=
  ∃ pre p, PassOf fuel calls pre p ∧ p.now = t ∧ p.Reduces cc

/-- **Losses of application packets sent before the window was cut do not cut it again**, in no later pass. -/
def OneReduction (fuel : Nat) (cc : QuicCc) (calls : List RecoveryCall) : Prop :=
  ∀ pre p t, PassOf fuel calls pre p → ReducedAt fuel cc pre t → (∀ q ∈ p.lost, q.timeSentMs < t) → ¬ p.ReducesByLoss cc

/-- **Such losses find the window at its floor.** -/
def LateLossesAtFloor (fuel : Nat) (cc : QuicCc) (calls : List RecoveryCall) : Prop :=
  ∀ pre p t, PassOf fuel calls pre p → ReducedAt fuel cc pre t → (∀ q ∈ p.lost, q.timeSentMs < t) → p.lost ≠ [] →
    (p.ccTold cc).getCwnd ≤ 2 * QUIC_MIN_PKT_SIZE

/-! ## What a pass finds -/

theorem lossHit_appLoss (env : RecoveryEnv) (now : Nat) (w : LossWork) (idx : Nat) :
    (lossHit env now w idx).appLossDetected = (w.appLossDetected ||
      (!(chunkFind w.ctx (w.ctx.sentPackets.cells idx).chunkId).any (fun c => c.state = .lost) &&
        decide ((w.ctx.sentPackets.cells idx).pktType = .short))) := by
  unfold lossHit
  dsimp only
  split
  · rename_i hlost
    rw [hlost]
    simp
  · rename_i hlost
    rw [Bool.not_eq_true] at hlost
    rw [hlost]
    unfold lossRetransmit
    split <;> rfl

theorem lossStep_appLoss (env : RecoveryEnv) (now threshold : Nat) (w : LossWork) (i : Nat) :
    (lossStep env now threshold w i).appLossDetected = true ↔ w.appLossDetected = true ∨ lostAt now threshold w i ≠ [] := by
  have hcell : w.ctx.sentPackets.cells (w.ctx.sentPackets.slot i) = w.ctx.sentPackets.get i := rfl
  unfold lossStep lostAt
  dsimp only
  by_cases hdue : i < w.ctx.sentPackets.count ∧ lossDue w.ctx now threshold (w.ctx.sentPackets.get i) = true
  · rw [if_pos hdue, lossHit_appLoss, hcell]
    simp [hdue]
  · rw [if_neg hdue, if_neg (fun h => hdue h.1)]
    simp

theorem foldl_lossStep_appLoss (env : RecoveryEnv) (now threshold : Nat) : ∀ (l : List Nat) (w : LossWork),
    (l.foldl (lossStep env now threshold) w).appLossDetected = true ↔
      w.appLossDetected = true ∨ lostFrom env now threshold w l ≠ []
  | [], w => by simp [lostFrom]
  | i :: l, w => by
    rw [List.foldl_cons, foldl_lossStep_appLoss env now threshold l, lossStep_appLoss, lostFrom]
    simp only [ne_eq, List.append_eq_nil_iff, not_and_or, or_assoc]

theorem Pass.appLoss_iff (p : Pass) : p.work.appLossDetected = true ↔ p.lost ≠ [] := by
  unfold Pass.work Pass.lost lossPass lossTurns
  generalize List.range' 0 QUIC_RECOVERY_MAX_SENT_PACKETS = turns
  exact (foldl_lossStep_appLoss p.env p.now _ turns _).trans (or_iff_right Bool.false_ne_true)

theorem QuicCc.after_event (cc : QuicCc) (ctx : QuicRecoveryCtx) (now : Nat) :
    cc.after (ctx.call (.ccCongestionEvent now)).trace = (cc.after ctx.trace).onCongestionEvent now := by
  unfold QuicCc.after QuicRecoveryCtx.call
  rw [List.foldl_append]
  rfl

theorem Pass.reducesByLoss_iff (p : Pass) (cc : QuicCc) :
    p.ReducesByLoss cc ↔ p.lost ≠ [] ∧ 2 * QUIC_MIN_PKT_SIZE < (p.ccTold cc).getCwnd := by
  have hafter : p.ccAfter cc = (p.ccTold cc).onCongestionEvent p.now := by
    unfold Pass.ccAfter Pass.ccTold
    rw [lossNotify_eq, QuicCc.after_event]
  unfold Pass.ReducesByLoss
  rw [p.appLoss_iff, hafter, onCongestionEvent_lt_iff]

theorem lostFrom_append (env : RecoveryEnv) (now threshold : Nat) : ∀ (l l' : List Nat) (w : LossWork),
    lostFrom env now threshold w (l ++ l') =
      lostFrom env now threshold w l ++ lostFrom env now threshold (l.foldl (lossStep env now threshold) w) l'
  | [], _, _ => rfl
  | i :: l, l', w => by
    rw [List.cons_append, lostFrom, lostFrom, lostFrom_append env now threshold l l', List.append_assoc, List.foldl_cons]

theorem lostFrom_notDue {env : RecoveryEnv} {now threshold : Nat} {w : LossWork} : ∀ l : List Nat,
    (∀ i ∈ l, i < w.ctx.sentPackets.count → lossDue w.ctx now threshold (w.ctx.sentPackets.get i) = false) →
      lostFrom env now threshold w l = []
  | [], _ => rfl
  | i :: l, h => by
    have hi := h i List.mem_cons_self
    have hat : lostAt now threshold w i = [] := if_neg (fun hdue => by
      rw [hi hdue.1.1] at hdue
      exact Bool.noConfusion hdue.1.2)
    rw [lostFrom, hat, lossStep_notDue hi, lostFrom_notDue l (fun j hj => h j (List.mem_cons_of_mem _ hj))]
    rfl

theorem Pass.lost_eq {p : Pass} {k : Nat} (hk : k ≤ QUIC_RECOVERY_MAX_SENT_PACKETS)
    (hcount : (lossTurns p.env p.ctx p.now k).ctx.sentPackets.count ≤ k) :
    p.lost = lostFrom p.env p.now (lossTimeThreshold p.ctx) { ctx := p.ctx } (List.range' 0 k) := by
  obtain ⟨n, hsplit⟩ := lossTurns_split hk
  have hrest : lostFrom p.env p.now (lossTimeThreshold p.ctx) (lossTurns p.env p.ctx p.now k) (List.range' k n) = [] := by
    refine lostFrom_notDue _ (fun i hi hlt => ?_)
    have := (List.mem_range'_1.1 hi).1
    omega
  unfold lossTurns at hrest
  unfold Pass.lost
  rw [hsplit, lostFrom_append, hrest, List.append_nil]

/-! ## Runs -/

/-- **The losses of one burst cut the window once if and only if the later ones find it at its floor**: that is all that
keeps them from cutting it again. -/
theorem one_reduction_iff (fuel : Nat) (cc : QuicCc) (calls : List RecoveryCall) :
    OneReduction fuel cc calls ↔ LateLossesAtFloor fuel cc calls := by
  constructor
  · intro h pre p t hp hred hsent hlost
    refine Nat.le_of_not_lt (fun hlt => ?_)
    exact h pre p t hp hred hsent ((p.reducesByLoss_iff cc).2 ⟨hlost, hlt⟩)
  · intro h pre p t hp hred hsent hcut
    obtain ⟨hlost, hlt⟩ := (p.reducesByLoss_iff cc).1 hcut
    exact absurd hlt (Nat.not_lt.2 (h pre p t hp hred hsent hlost))

/-- Two packets, one of which is found lost, sent again and told to the controller. -/
def burstSentCtx : QuicRecoveryCtx :=
  sendNew (sendNew {} ⟨0, true, 1, [7], .short, 0⟩) ⟨1, true, 1, [8], .short, 900⟩

def burstFirst : Pass := ⟨{ lossImm := fun _ => some 2 }, burstSentCtx, 1000⟩

def burstCutCtx : QuicRecoveryCtx :=
  compactSentPackets (lossEnd burstFirst.env 1000 (lossTurns burstFirst.env burstSentCtx 1000 3))

def burstSecond : Pass := ⟨{}, burstCutCtx, 2000⟩

def burstCalls : List RecoveryCall :=
  [.packetSent ⟨0, true, 1, [7], .short, 0⟩, .packetSent ⟨1, true, 1, [8], .short, 900⟩, .checkLosses 1000 burstFirst.env]

theorem burstCalls_run : burstCalls.foldlM (recoveryStep 0) {} = some burstCutCtx := by
  unfold burstCutCtx
  rw [← detectLosses_eq (by decide) (by decide +kernel)]
  rfl

theorem burstFirst_reduces : burstFirst.Reduces (.newReno quicCcNewrenoCreate) := by
  unfold Pass.Reduces Pass.ccAfter Pass.ccBefore Pass.work
  rw [lossPass_eq (k := 3) (by decide) (by decide +kernel)]
  decide +kernel

theorem burstSecond_reduces : burstSecond.ReducesByLoss (.newReno quicCcNewrenoCreate) := by
  unfold Pass.ReducesByLoss Pass.ccAfter Pass.ccTold Pass.work
  rw [lossPass_eq (k := 3) (by decide) (by decide +kernel)]
  decide +kernel

theorem burstSecond_lost : ∀ q ∈ burstSecond.lost, q.timeSentMs < 1000 := by
  rw [Pass.lost_eq (k := 3) (by decide) (by decide +kernel)]
  decide +kernel

/-- **One burst cuts the window twice.** -/
theorem burst_reduces_twice : ¬ ∀ (fuel : Nat) (calls : List RecoveryCall),
    OneReduction fuel (.newReno quicCcNewrenoCreate) calls := by
  intro hclaim
  refine hclaim 0 (burstCalls ++ [.checkLosses 2000 {}]) burstCalls burstSecond 1000
    ⟨.checkLosses 2000 {}, [], burstCutCtx, rfl, burstCalls_run, rfl⟩ ⟨burstCalls.take 2, burstFirst, ?_, rfl,
      burstFirst_reduces⟩ burstSecond_lost burstSecond_reduces
  exact ⟨.checkLosses 1000 burstFirst.env, [], burstSentCtx, rfl, rfl, rfl⟩

end MoqLiveCast
