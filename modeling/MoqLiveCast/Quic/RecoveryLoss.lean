import MoqLiveCast.Lib.Run
import MoqLiveCast.Quic.AckFrame
import MoqLiveCast.Quic.Recovery
/-!
# RecoveryLoss — ACKs, losses and the PTO timer (`quic_recovery.c`)

`send_imm_fn`, `flush_fn` and `on_pto_keepalive` come back into recovery through `quic_recovery_on_packet_sent`.  What
they send is data of the call: a `RecoveryEnv`.  A pointer into the ring is the number of its cell, which is read again
after such a call; a pointer to a chunk is the chunk's id.
-/
namespace MoqLiveCast

open List

/-! ## `mark_pn_acked` -/

/-- `process_ack_ranges` at work; `marked` lists the packet numbers `mark_pn_acked` was called for. -/
structure AckWork where
  ctx : QuicRecoveryCtx
  newlyAckedCount : Nat := 0
  largestNewlyAckedPn : Nat := 0
  marked : List Nat := []

/-- The record `mark_pn_acked` looks for: packet numbers are those of a level. -/
def ackMatches (pn : Nat) (level : TlsLevel) (p : QuicRecoverySentPacket) : Bool :=
  p.pn = pn && !p.acknowledged && pktTypeToLevel p.pktType = level

def inflightLeave (ctx : QuicRecoveryCtx) (p : QuicRecoverySentPacket) : QuicRecoveryCtx :=
  if p.ackEliciting ∧ p.lost = false then inflightSub ctx p.bytesSent else ctx

/-- The RTT is sampled at the largest packet that is newly acknowledged and was not lost. -/
def ackSample (w : AckWork) (p : QuicRecoverySentPacket) (pn now : Nat) : AckWork :=
  if p.ackEliciting ∧ p.lost = false ∧ w.largestNewlyAckedPn < pn then
    { w with largestNewlyAckedPn := pn, ctx := updateRtt w.ctx (sub64 now p.timeSentMs) }
  else w

def ackNotify (ctx : QuicRecoveryCtx) (p : QuicRecoverySentPacket) (pn now : Nat) : QuicRecoveryCtx :=
  if p.ackEliciting ∧ p.lost = false ∧ p.pktType = .short then
    ctx.call (.ccPacketAcked pn p.bytesSent (sub64 now p.timeSentMs * 1000 % wordSize) now)
  else ctx

/-- The record in cell `idx` is acknowledged, and with it its chunk. -/
def markRecord (w : AckWork) (idx pn now : Nat) : AckWork :=
  let p := w.ctx.sentPackets.cells idx
  let ctx := w.ctx.setPacket idx { p with acknowledged := true }
  let w := { w with
    newlyAckedCount := w.newlyAckedCount + 1
    ctx := { ctx with packetsAcked := ctx.packetsAcked + 1 } }
  let w := ackSample w p pn now
  let ctx := ackNotify (inflightLeave w.ctx p) p pn now
  { w with ctx := chunkMarkAcked (ctx.call (.acked p.chunkId)) p.chunkId }

def markPnAcked (w : AckWork) (pn : Nat) (level : TlsLevel) (now : Nat) : AckWork :=
  let w := { w with marked := w.marked ++ [pn] }
  let ring := w.ctx.sentPackets
  match (range ring.count).find? (fun i => ackMatches pn level (ring.get i)) with
  | none => w
  | some i => markRecord w (ring.slot i) pn now

/-! ## `process_ack_ranges` -/

/-- `for (pn = r_start; pn <= r_end; pn++)`, in `uint64_t`. -/
def ackRangeLoop (fuel : Nat) (level : TlsLevel) (now : Nat) (w : AckWork) (rStart rEnd : Nat) : Option AckWork :=
  (whileLoop (fun s : AckWork × Nat => s.2 ≤ rEnd) (fun s => (markPnAcked s.1 s.2 level now, add64 s.2 1)) fuel
    (w, rStart)).map Prod.fst

/-- The ranges below the first one, each counted from the start of the one above. -/
def ackRangesLoop (fuel : Nat) (level : TlsLevel) (now : Nat) : AckWork → Nat → List (Nat × Nat) → Option AckWork
  | w, _, [] => some w
  | w, prevRangeMin, (gap, ackRange) :: rs =>
    let rEnd := sub64 (sub64 prevRangeMin gap) 2
    let rStart := sub64 rEnd ackRange
    (ackRangeLoop fuel level now w rStart rEnd).bind fun w => ackRangesLoop fuel level now w rStart rs

/-- `process_ack_ranges`; the answer of the source is whether `newlyAckedCount` is positive. -/
def processAckRanges (fuel : Nat) (ctx : QuicRecoveryCtx) (ack : QuicAckFrame) (now : Nat) (level : TlsLevel) : Option AckWork :=
  let ctx := { ctx with
    largestAckedPn := Function.update ctx.largestAckedPn level (max (ctx.largestAckedPn level) ack.largestAcknowledged) }
  let rangeStart := sub64 ack.largestAcknowledged ack.firstAckRange
  (ackRangeLoop fuel level now { ctx } rangeStart ack.largestAcknowledged).bind fun w =>
    ackRangesLoop fuel level now w rangeStart ack.ranges

/-! ## `detect_losses` -/

structure RecoveryEnv where
  /-- the packet number of the `k`-th packet `detect_losses` hands to `send_imm_fn`, when it is sent and recorded -/
  lossImm : Nat → Option Nat := fun _ => none
  /-- the same for the probes of `on_pto_timer` -/
  probeImm : Nat → Option Nat := fun _ => none
  /-- sent by `flush_fn` at the end of `detect_losses` -/
  flushed : List SentArgs := []
  /-- sent by `on_pto_keepalive` when what is in flight is cleared -/
  healed : List SentArgs := []
  /-- sent by `on_pto_keepalive` and the `flush_fn` after it -/
  keptAlive : List SentArgs := []

/-- `send_imm_fn` (`QuicConnectionSendImmediate`): a packet with these frames, recorded under `pn` if it is sent. -/
def sendImm (ctx : QuicRecoveryCtx) (pktType : PktType) (frames : List Byte) (now : Nat) (pn : Option Nat) : QuicRecoveryCtx :=
  let ctx := ctx.call (.sendImm pktType frames)
  match pn with
  | none => ctx
  | some pn => quicRecoveryOnPacketSent ctx
      { pn, ackEliciting := true, bytesSent := frames.length, frames, pktType, now }

def noteLeftover (ctx : QuicRecoveryCtx) : QuicRecoveryCtx :=
  if ctx.currentRetransChunkId ≠ NO_CHUNK then { ctx with leftoverTaken := ctx.leftoverTaken + 1 } else ctx

/-- A packet sent otherwise than by `send_imm_fn`. -/
def sendNew (ctx : QuicRecoveryCtx) (a : SentArgs) : QuicRecoveryCtx := quicRecoveryOnPacketSent (noteLeftover ctx) a

def sendAll (ctx : QuicRecoveryCtx) (l : List SentArgs) : QuicRecoveryCtx := l.foldl sendNew ctx

structure LossWork where
  ctx : QuicRecoveryCtx
  fastRetx : Nat := 0
  lossDetected : Bool := false
  appLossDetected : Bool := false

def QUIC_LOSS_RETRANSMIT_PER_PASS : Nat := 4
def QUIC_PERSISTENT_CONGESTION_THRESHOLD : Nat := 3

def lossTimeThreshold (ctx : QuicRecoveryCtx) : Nat :=
  max (9 * max (max ctx.smoothedRtt ctx.latestRtt) ctx.ptoBase % wordSize / 8) 1

/-- A record that may be lost: overtaken by three packets of its level or by time, and with frames to send again. -/
def lossDue (ctx : QuicRecoveryCtx) (now threshold : Nat) (p : QuicRecoverySentPacket) : Bool :=
  !p.acknowledged && !p.lost &&
  (decide ((3 : Int) ≤ (ctx.largestAckedPn (pktTypeToLevel p.pktType) : Int) - p.pn) ||
    decide (threshold < sub64 now p.timeSentMs)) &&
  p.ackEliciting && p.frames.isSome

def chunkPtr (ctx : QuicRecoveryCtx) (c : Option QuicRecoveryChunk) (f : QuicRecoveryChunk → QuicRecoveryChunk) :
    QuicRecoveryCtx :=
  match c with
  | none => ctx
  | some c => ctx.updateChunk c.chunkId f

def chunkRetransmitted (now : Nat) (c : QuicRecoveryChunk) : QuicRecoveryChunk :=
  { c with retransCount := c.retransCount + 1, lastRetransMs := now }

def lossRetransmit (env : RecoveryEnv) (now : Nat) (p : QuicRecoverySentPacket) (c : Option QuicRecoveryChunk)
    (w : LossWork) : LossWork :=
  if w.fastRetx < QUIC_LOSS_RETRANSMIT_PER_PASS then
    let ctx := { w.ctx with currentRetransChunkId := p.chunkId }
    let ctx := sendImm ctx p.pktType (p.frames.getD []) now (env.lossImm w.fastRetx)
    { w with
      ctx := chunkPtr ctx c (chunkRetransmitted now)
      fastRetx := w.fastRetx + 1 }
  else w

def lossStale (ctx : QuicRecoveryCtx) (idx : Nat) : QuicRecoveryCtx :=
  let p := ctx.sentPackets.cells idx
  (inflightLeave ctx p).setPacket idx { p with lost := true, frames := none }

def lossFirst (w : LossWork) (idx : Nat) : LossWork :=
  let p := w.ctx.sentPackets.cells idx
  let ctx := w.ctx.setPacket idx { p with lost := true }
  { w with
    ctx := { ctx with packetsLost := ctx.packetsLost + 1 }
    lossDetected := true
    appLossDetected := w.appLossDetected || p.pktType = .short }

/-- What is left to do for a lost packet, through the pointer `idx`: it leaves what is in flight, its frames go and its
chunk is LOST. -/
def lossLeave (ctx : QuicRecoveryCtx) (idx : Nat) (c : Option QuicRecoveryChunk) : QuicRecoveryCtx :=
  let p := ctx.sentPackets.cells idx
  chunkPtr ((inflightSub ctx p.bytesSent).setPacket idx { p with frames := none }) c (fun c => { c with state := .lost })

def lossHit (env : RecoveryEnv) (now : Nat) (w : LossWork) (idx : Nat) : LossWork :=
  let p := w.ctx.sentPackets.cells idx
  let c := chunkFind w.ctx p.chunkId
  if c.any (fun c => c.state = .lost) then { w with ctx := lossStale w.ctx idx }
  else
    let w := lossRetransmit env now p c (lossFirst w idx)
    { w with ctx := lossLeave w.ctx idx c }

/-- One turn of the loop over the ring, whose length is read again at every turn. -/
def lossStep (env : RecoveryEnv) (now threshold : Nat) (w : LossWork) (i : Nat) : LossWork :=
  let ring := w.ctx.sentPackets
  if i < ring.count ∧ lossDue w.ctx now threshold (ring.get i) then lossHit env now w (ring.slot i) else w

def lossEpoch (ctx : QuicRecoveryCtx) (now : Nat) : QuicRecoveryCtx :=
  if ctx.lossEpochStartMs = 0 then { ctx with lossEpochStartMs := now } else ctx

/-- A 1-RTT loss is told to congestion control, as persistent congestion when the epoch is long. -/
def lossNotify (ctx : QuicRecoveryCtx) (now : Nat) : QuicRecoveryCtx :=
  let ctx :=
    if ctx.persistentCongestionDetected = false
        ∧ ctx.ptoBase * QUIC_PERSISTENT_CONGESTION_THRESHOLD % wordSize ≤ sub64 now ctx.lossEpochStartMs
        ∧ QUIC_PERSISTENT_CONGESTION_THRESHOLD ≤ ctx.ptoCount then
      { ctx with persistentCongestionDetected := true }.call (.ccPersistentCongestion now)
    else ctx
  ctx.call (.ccCongestionEvent now)

def lossEnd (env : RecoveryEnv) (now : Nat) (w : LossWork) : QuicRecoveryCtx :=
  if w.lossDetected then
    let ctx := lossEpoch w.ctx now
    let ctx := if w.appLossDetected then lossNotify ctx now else ctx
    sendAll (ctx.call .flush) env.flushed
  else { w.ctx with lossEpochStartMs := 0, persistentCongestionDetected := false }

def detectLosses (env : RecoveryEnv) (ctx : QuicRecoveryCtx) (now : Nat) : QuicRecoveryCtx :=
  lossEnd env now ((range' 0 QUIC_RECOVERY_MAX_SENT_PACKETS).foldl (lossStep env now (lossTimeThreshold ctx)) { ctx })

theorem lossStep_notDue {env : RecoveryEnv} {now threshold : Nat} {w : LossWork} {i : Nat} (h : i < w.ctx.sentPackets.count →
    lossDue w.ctx now threshold (w.ctx.sentPackets.get i) = false) : lossStep env now threshold w i = w := by
  unfold lossStep
  exact if_neg (fun hdue => by rw [h hdue.1] at hdue; exact Bool.noConfusion hdue.2)

theorem foldl_lossStep_notDue {env : RecoveryEnv} {now threshold : Nat} {w : LossWork} : ∀ l : List Nat,
    (∀ i ∈ l, i < w.ctx.sentPackets.count → lossDue w.ctx now threshold (w.ctx.sentPackets.get i) = false) →
      l.foldl (lossStep env now threshold) w = w
  | [], _ => rfl
  | i :: l, h => by
    rw [foldl_cons, lossStep_notDue (h i mem_cons_self), foldl_lossStep_notDue l (fun j hj => h j (mem_cons_of_mem _ hj))]

def lossTurns (env : RecoveryEnv) (ctx : QuicRecoveryCtx) (now k : Nat) : LossWork :=
  (range' 0 k).foldl (lossStep env now (lossTimeThreshold ctx)) { ctx }

def lossPass (env : RecoveryEnv) (ctx : QuicRecoveryCtx) (now : Nat) : LossWork :=
  lossTurns env ctx now QUIC_RECOVERY_MAX_SENT_PACKETS

theorem lossTurns_split {k : Nat} (hk : k ≤ QUIC_RECOVERY_MAX_SENT_PACKETS) :
    ∃ n, range' 0 QUIC_RECOVERY_MAX_SENT_PACKETS = range' 0 k ++ range' k n := by
  obtain ⟨n, hn⟩ := Nat.exists_eq_add_of_le hk
  refine ⟨n, ?_⟩
  rw [hn, ← range'_append]
  simp

theorem lossPass_eq {env : RecoveryEnv} {ctx : QuicRecoveryCtx} {now k : Nat} (hk : k ≤ QUIC_RECOVERY_MAX_SENT_PACKETS)
    (hcount : (lossTurns env ctx now k).ctx.sentPackets.count ≤ k) : lossPass env ctx now = lossTurns env ctx now k := by
  obtain ⟨n, hsplit⟩ := lossTurns_split hk
  have hpass : lossPass env ctx now =
      (range' k n).foldl (lossStep env now (lossTimeThreshold ctx)) (lossTurns env ctx now k) := by
    unfold lossPass lossTurns
    rw [hsplit, foldl_append]
  rw [hpass, foldl_lossStep_notDue _ (fun i hi hlt => ?_)]
  have := (List.mem_range'_1.1 hi).1
  omega

theorem detectLosses_eq {env : RecoveryEnv} {ctx : QuicRecoveryCtx} {now k : Nat}
    (hk : k ≤ QUIC_RECOVERY_MAX_SENT_PACKETS) (hcount : (lossTurns env ctx now k).ctx.sentPackets.count ≤ k) :
    detectLosses env ctx now = lossEnd env now (lossTurns env ctx now k) := by
  rw [← lossPass_eq hk hcount]
  rfl

/-! ## `on_pto_timer` -/

def QUIC_PTO_PROBES_PER_TIMER : Nat := 4
def QUIC_KEEPALIVE_MS : Nat := 5000

inductive ProbeStatus where
  | going | stopped | dead
deriving DecidableEq

structure ProbeWork where
  ctx : QuicRecoveryCtx
  probesSent : Nat := 0
  status : ProbeStatus := .going

/-- A chunk that was sent again often, while nothing was acknowledged for long. -/
def probeGivesUp (ctx : QuicRecoveryCtx) (now : Nat) (c : QuicRecoveryChunk) : Bool :=
  decide (QUIC_RECOVERY_MAX_PTO ≤ c.retransCount) && decide (c.pktType = .short) &&
  !(decide (ctx.lastProgressMs ≠ 0) && decide (sub64 now ctx.lastProgressMs ≤ QUIC_RECOVERY_NO_PROGRESS_MS))

def probeCoolsDown (ctx : QuicRecoveryCtx) (now : Nat) (c : QuicRecoveryChunk) : Bool :=
  (decide (c.retransCount = 0) && decide (sub64 now c.firstSentMs < ctx.ptoBase)) ||
  decide (sub64 now c.lastRetransMs < ctx.ptoBase)

def probeSend (env : RecoveryEnv) (now : Nat) (w : ProbeWork) (c : QuicRecoveryChunk) : ProbeWork :=
  let ctx := { w.ctx with currentRetransChunkId := c.chunkId }
  let ctx := sendImm ctx c.pktType (c.frames.getD []) now (env.probeImm w.probesSent)
  { w with
    ctx := ctx.updateChunk c.chunkId (chunkRetransmitted now)
    probesSent := w.probesSent + 1 }

def probeStep (env : RecoveryEnv) (now : Nat) (w : ProbeWork) (i : Nat) : ProbeWork :=
  match w.status, w.ctx.chunks[i]? with
  | .going, some c =>
    if c.state = .acked ∨ c.frames.isNone then w
    else if QUIC_PTO_PROBES_PER_TIMER ≤ w.probesSent then { w with status := .stopped }
    else if probeGivesUp w.ctx now c then { w with ctx := w.ctx.call .connectionDead, status := .dead }
    else if probeCoolsDown w.ctx now c then w
    else probeSend env now w c
  | _, _ => w

def ptoHeal (env : RecoveryEnv) (ctx : QuicRecoveryCtx) (now : Nat) : QuicRecoveryCtx :=
  if ctx.sentPackets.count = 0 ∧ 0 < ctx.bytesInFlight then
    { sendAll ({ ctx with bytesInFlight := 0 }.call .keepalive) env.healed with lastKeepaliveMs := now }
  else ctx

def ptoKeepalive (env : RecoveryEnv) (ctx : QuicRecoveryCtx) (now : Nat) : QuicRecoveryCtx :=
  if QUIC_KEEPALIVE_MS < sub64 now ctx.lastKeepaliveMs then
    { sendAll ((ctx.call .keepalive).call .flush) env.keptAlive with lastKeepaliveMs := now }
  else ctx

def ptoProbes (env : RecoveryEnv) (ctx : QuicRecoveryCtx) (now : Nat) : ProbeWork :=
  (range' 0 QUIC_RECOVERY_MAX_CHUNKS).foldl (probeStep env now) { ctx }

def ptoRearm (ctx : QuicRecoveryCtx) : QuicRecoveryCtx := armPtoTimer { ctx with ptoCount := ctx.ptoCount + 1 }

def ptoFinish (env : RecoveryEnv) (w : ProbeWork) (now : Nat) : QuicRecoveryCtx :=
  if w.status = .dead then w.ctx else ptoRearm (ptoKeepalive env w.ctx now)

def ptoFired (ctx : QuicRecoveryCtx) : QuicRecoveryCtx := { ctx with ptoTimer := none }

def onPtoTimer (env : RecoveryEnv) (ctx : QuicRecoveryCtx) (now : Nat) : QuicRecoveryCtx :=
  ptoFinish env (ptoProbes env (ptoHeal env (compactSentPackets (detectLosses env (ptoFired ctx) now)) now) now) now

/-! ## ACKs, checks and the end of a packet number space -/

def ackProgress (ctx : QuicRecoveryCtx) (newlyAckedCount now : Nat) : QuicRecoveryCtx :=
  if 0 < newlyAckedCount then { ctx with ptoCount := 0, lastProgressMs := now } else ctx

/-- `quic_recovery_on_ack_received` after `process_ack_ranges`. -/
def ackFinish (env : RecoveryEnv) (w : AckWork) (now : Nat) : QuicRecoveryCtx :=
  armPtoTimer (ackProgress (compactSentPackets (detectLosses env w.ctx now)) w.newlyAckedCount now)

def quicRecoveryOnAckReceived (fuel : Nat) (env : RecoveryEnv) (ctx : QuicRecoveryCtx) (ack : QuicAckFrame) (now : Nat)
    (level : TlsLevel) : Option QuicRecoveryCtx :=
  (processAckRanges fuel ctx ack now level).map fun w => ackFinish env w now

def quicRecoveryCheckLosses (env : RecoveryEnv) (ctx : QuicRecoveryCtx) (now : Nat) : QuicRecoveryCtx :=
  compactSentPackets (detectLosses env ctx now)

def clearPacket (pktType : PktType) (ctx : QuicRecoveryCtx) (i : Nat) : QuicRecoveryCtx :=
  let idx := ctx.sentPackets.slot i
  let p := ctx.sentPackets.cells idx
  if p.acknowledged = false ∧ p.pktType = pktType then
    (inflightLeave ctx p).setPacket idx { p with acknowledged := true, frames := none }
  else ctx

def clearChunk (pktType : PktType) (c : QuicRecoveryChunk) : QuicRecoveryChunk :=
  if c.state ≠ .acked ∧ c.pktType = pktType then { c with state := .acked, frames := none } else c

def recoveryClearSpace (ctx : QuicRecoveryCtx) (pktType : PktType) : QuicRecoveryCtx :=
  let ctx := ctx.call (.discarded pktType)
  let ctx := (range ctx.sentPackets.count).foldl (clearPacket pktType) ctx
  { ctx with chunks := ctx.chunks.map (clearChunk pktType) }

def quicRecoveryHandshakeDone (ctx : QuicRecoveryCtx) : QuicRecoveryCtx := armPtoTimer (recoveryClearSpace ctx .initial)

def quicRecoveryClearHandshake (ctx : QuicRecoveryCtx) : QuicRecoveryCtx :=
  armPtoTimer (recoveryClearSpace ctx .handshake)

/-! ## Runs -/

inductive RecoveryCall where
  | packetSent (a : SentArgs)
  | ackReceived (ack : QuicAckFrame) (now : Nat) (level : TlsLevel) (env : RecoveryEnv)
  | checkLosses (now : Nat) (env : RecoveryEnv)
  | ptoTimer (now : Nat) (env : RecoveryEnv)
  | handshakeDone
  | clearHandshake

def recoveryStep (fuel : Nat) (ctx : QuicRecoveryCtx) : RecoveryCall → Option QuicRecoveryCtx
  | .packetSent a => some (sendNew ctx a)
  | .ackReceived ack now level env => quicRecoveryOnAckReceived fuel env ctx ack now level
  | .checkLosses now env => some (quicRecoveryCheckLosses env ctx now)
  | .ptoTimer now env => some (onPtoTimer env ctx now)
  | .handshakeDone => some (quicRecoveryHandshakeDone ctx)
  | .clearHandshake => some (quicRecoveryClearHandshake ctx)

theorem foldlM_packetSent (fuel : Nat) : ∀ (l : List SentArgs) (ctx : QuicRecoveryCtx),
    (l.map RecoveryCall.packetSent).foldlM (recoveryStep fuel) ctx = some (sendAll ctx l)
  | [], _ => rfl
  | a :: l, ctx => foldlM_packetSent fuel l (sendNew ctx a)

end MoqLiveCast
