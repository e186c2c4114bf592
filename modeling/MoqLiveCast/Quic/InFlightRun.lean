import MoqLiveCast.Quic.PlainSends
/-!
# InFlightRun — the bytes in flight over whole runs

Every call keeps the account, `detect_losses` under its condition.
-/
namespace MoqLiveCast

/-! ## The calls -/

variable {env : RecoveryEnv} {extra : Nat} {now : Nat}

theorem probeStep_accounted {w : ProbeWork} (h : Accounted extra w.ctx)
    (i : Nat) : Accounted extra (probeStep env now w i).ctx := by
  have hsend : ∀ c, Accounted extra (probeSend env now w c).ctx := fun c => by
    refine Accounted.same ?_ (updateChunk_same _ c.chunkId _)
    exact sendImm_accounted (h.same (show SameFlight w.ctx { w.ctx with currentRetransChunkId := c.chunkId } from
      ⟨rfl, rfl, rfl⟩)) _ _ _ _
  unfold probeStep
  split
  · split
    · exact h
    · split
      · exact h
      · split
        · exact h.same (call_same _ _)
        · split
          · exact h
          · exact hsend _
  · exact h

variable {ctx : QuicRecoveryCtx}

theorem ptoProbes_accounted (h : Accounted extra ctx) : Accounted extra (ptoProbes env ctx now).ctx := by
  unfold ptoProbes
  generalize List.range' 0 QUIC_RECOVERY_MAX_CHUNKS = turns
  exact foldl_inv _ (fun _ _ => True) (fun w : ProbeWork => Accounted extra w.ctx)
    (fun _ i hw _ => probeStep_accounted hw i) turns { ctx } h (stepsOk_of_forall _ _ _ _ (fun _ _ _ => trivial))

theorem ptoHeal_accounted (h : Accounted 0 ctx) : Accounted 0 (ptoHeal env ctx now) := by
  unfold ptoHeal
  split
  · rename_i hempty
    have hzero : ctx.inFlight = 0 := by
      have hnil : ctx.sentPackets.toList = [] := List.length_eq_zero_iff.1 (by rw [Ring.toList_length]; exact hempty.1)
      unfold QuicRecoveryCtx.inFlight
      rw [hnil]
      rfl
    have hcleared : Accounted 0 { ctx with bytesInFlight := 0 } := ⟨h.wf, hzero.symm, h.noUnderflow⟩
    exact (sendAll_accounted (hcleared.same (call_same _ .keepalive)) env.healed).same ⟨rfl, rfl, rfl⟩
  · exact h

theorem ptoKeepalive_accounted (h : Accounted extra ctx) : Accounted extra (ptoKeepalive env ctx now) := by
  unfold ptoKeepalive
  split
  · have hcalls := (h.same (call_same ctx .keepalive)).same (call_same _ .flush)
    exact (sendAll_accounted hcalls env.keptAlive).same ⟨rfl, rfl, rfl⟩
  · exact h

theorem ptoFinish_accounted {w : ProbeWork} (h : Accounted extra w.ctx) : Accounted extra (ptoFinish env w now) := by
  unfold ptoFinish ptoRearm
  split
  · exact h
  · refine Accounted.same ?_ (armPtoTimer_same _)
    exact (ptoKeepalive_accounted h).same ⟨rfl, rfl, rfl⟩

theorem onPtoTimer_accounted (h : Accounted 0 ctx)
    (hok : DetectOk env (ptoFired ctx) now) : Accounted 0 (onPtoTimer env ctx now) := by
  have hfired : Accounted 0 (ptoFired ctx) := h.same ⟨rfl, rfl, rfl⟩
  have hdetect := compactSentPackets_accounted (detectLosses_accounted hfired hok)
  exact ptoFinish_accounted (ptoProbes_accounted (ptoHeal_accounted hdetect))

theorem ackProgress_same (ctx : QuicRecoveryCtx) (n now : Nat) : SameFlight ctx (ackProgress ctx n now) := by
  unfold ackProgress
  split <;> exact ⟨rfl, rfl, rfl⟩

theorem ackFinish_accounted {w : AckWork} (h : Accounted 0 w.ctx)
    (hok : DetectOk env w.ctx now) : Accounted 0 (ackFinish env w now) := by
  have hdetect := compactSentPackets_accounted (detectLosses_accounted h hok)
  exact (hdetect.same (ackProgress_same _ w.newlyAckedCount now)).same (armPtoTimer_same _)

theorem handshakeDone_accounted (h : Accounted extra ctx) : Accounted extra (quicRecoveryHandshakeDone ctx) :=
  (recoveryClearSpace_accounted h _).same (armPtoTimer_same _)

theorem clearHandshake_accounted (h : Accounted extra ctx) : Accounted extra (quicRecoveryClearHandshake ctx) :=
  (recoveryClearSpace_accounted h _).same (armPtoTimer_same _)

/-- **The condition of a call**: its pass of `detect_losses` meets the one of its turns. -/
def RecoveryCallOk (fuel : Nat) (ctx : QuicRecoveryCtx) : RecoveryCall → Prop
  | .ackReceived ack now level env => ∀ w, processAckRanges fuel ctx ack now level = some w → DetectOk env w.ctx now
  | .checkLosses now env => DetectOk env ctx now
  | .ptoTimer now env => DetectOk env (ptoFired ctx) now
  | _ => True

theorem recoveryStep_accounted {fuel : Nat} {ctx ctx' : QuicRecoveryCtx} {call : RecoveryCall} (h : Accounted 0 ctx)
    (hok : RecoveryCallOk fuel ctx call) (hstep : recoveryStep fuel ctx call = some ctx') : Accounted 0 ctx' := by
  cases call with
  | packetSent a =>
    rw [← Option.some.inj hstep]
    exact sendNew_accounted h a
  | ackReceived ack now level env =>
    obtain ⟨w, hw, rfl⟩ := Option.map_eq_some_iff.1 hstep
    have hacked := processAckRanges_accounted h hw
    exact ackFinish_accounted hacked (hok w hw)
  | checkLosses now env =>
    rw [← Option.some.inj hstep]
    have hdetect := detectLosses_accounted h hok
    exact compactSentPackets_accounted hdetect
  | ptoTimer now env =>
    rw [← Option.some.inj hstep]
    exact onPtoTimer_accounted h hok
  | handshakeDone =>
    rw [← Option.some.inj hstep]
    exact handshakeDone_accounted h
  | clearHandshake =>
    rw [← Option.some.inj hstep]
    exact clearHandshake_accounted h

theorem accounted_init : Accounted 0 {} := ⟨⟨by decide, by decide⟩, rfl, rfl⟩

/-! ## Runs -/

/-- **The bytes in flight are those of the live records, and nothing is taken off twice**, in every state a run reaches
in which each record handed to `send_imm_fn` stays in its cell. -/
theorem bytesInFlight_eq_live (fuel : Nat) (calls : List RecoveryCall) (ctx : QuicRecoveryCtx)
    (hrun : calls.foldlM (recoveryStep fuel) {} = some ctx) (hok : StepsOkM (recoveryStep fuel) (RecoveryCallOk fuel) {} calls) :
    ctx.bytesInFlight = ctx.inFlight ∧ ctx.inflightUnderflows = 0 := by
  have h := foldlM_inv (recoveryStep fuel) (RecoveryCallOk fuel) (Accounted 0)
    (fun _ _ _ hs hcall hstep => recoveryStep_accounted hs hcall hstep) calls {} ctx accounted_init hok hrun
  exact ⟨h.bytes, h.noUnderflow⟩

theorem bytesInFlight_eq_live_resent :
    ∃ ctx, [RecoveryCall.packetSent ⟨0, true, 1, [1], .short, 0⟩, .checkLosses 1000 { lossImm := fun _ => some 1 }].foldlM
        (recoveryStep 0) {} = some ctx ∧ ctx.bytesInFlight = ctx.inFlight ∧ ctx.inflightUnderflows = 0 := by
  have hok : StepsOkM (recoveryStep 0) (RecoveryCallOk 0) {} [.packetSent ⟨0, true, 1, [1], .short, 0⟩,
      .checkLosses 1000 { lossImm := fun _ => some 1 }] := by
    refine ⟨trivial, fun ctx hctx => ⟨?_, fun _ _ => trivial⟩⟩
    refine detectOk_of_room ?_
    cases hctx
    decide
  exact ⟨_, rfl, bytesInFlight_eq_live 0 _ _ rfl hok⟩

/-! ## A record that moves -/

def Miscounted (ctx : QuicRecoveryCtx) : Prop := ctx.inFlight = ctx.bytesInFlight + 1 ∨ ctx.inflightUnderflows ≠ 0

theorem Miscounted.same {ctx ctx' : QuicRecoveryCtx} (h : Miscounted ctx) (hs : SameFlight ctx ctx') : Miscounted ctx' := by
  unfold Miscounted QuicRecoveryCtx.inFlight at *
  rw [hs.ring, hs.bytes, hs.underflows]
  exact h

/-- The full ring before the pass: an acknowledged record, one of one byte that is due, and records of two bytes sent
much later. -/
def fullRecord (j : Nat) (p : QuicRecoverySentPacket) : Prop :=
  if j = 0 then p.acknowledged = true
  else if j = 1 then ∃ id, p = ⟨0, id, 0, 1, true, false, false, .short, some [1]⟩
  else ∃ pn id, p = ⟨pn, id, 1000, 2, true, false, false, .short, some [1, 1]⟩

def laterPackets : List SentArgs := (List.range' 1 4094).map (fun pn => ⟨pn, true, 2, [1, 1], .short, 1000⟩)

/-- The state with the ring filled up to the first `k` cells. -/
structure Filling (k : Nat) (ctx : QuicRecoveryCtx) : Prop where
  account : Accounted 0 ctx
  calm : Calm ctx
  clock : SameClock {} ctx
  filled : Filled k fullRecord ctx.sentPackets

theorem sendNew_filling {k : Nat} (h : Filling k ctx) (hk : k < QUIC_RECOVERY_MAX_SENT_PACKETS)
    (a : SentArgs) (hgood : ∀ id, fullRecord k (sentRecord a (some id))) : Filling (k + 1) (sendNew ctx a) := by
  refine ⟨sendNew_accounted h.account a, sendNew_calm h.calm a, ?_, sendNew_filled h.calm h.filled hk a hgood⟩
  rw [sendNew_eq h.calm.current]
  exact h.clock.trans (packetSent_clock ctx a)

theorem sendAll_filling : ∀ (l : List SentArgs) {ctx : QuicRecoveryCtx} {k : Nat}, Filling k ctx → 2 ≤ k →
    k + l.length ≤ QUIC_RECOVERY_MAX_SENT_PACKETS →
    (∀ a ∈ l, ∃ pn, a = ⟨pn, true, 2, [1, 1], .short, 1000⟩) → Filling (k + l.length) (sendAll ctx l)
  | [], _, _, h, _, _, _ => h
  | a :: l, ctx, k, h, hk, hlen, hl => by
    rw [List.length_cons] at hlen ⊢
    obtain ⟨pn, ha⟩ := hl a List.mem_cons_self
    have hgood : ∀ id, fullRecord k (sentRecord a (some id)) := fun id => by
      unfold fullRecord
      rw [if_neg (by omega), if_neg (by omega), ha]
      exact ⟨pn, id, rfl⟩
    have hnext := sendAll_filling l (sendNew_filling h (by omega) a hgood) (by omega) (by omega)
      (fun b hb => hl b (List.mem_cons_of_mem _ hb))
    rw [Nat.add_right_comm, Nat.add_assoc] at hnext
    exact hnext

def afterHandshake : QuicRecoveryCtx :=
  quicRecoveryHandshakeDone (sendNew {} ⟨0, true, 1, [1], .initial, 0⟩)

theorem afterHandshake_filling : Filling 1 afterHandshake := by
  have hclock : SameClock {} afterHandshake :=
    ⟨by decide +kernel, by decide +kernel, by decide +kernel, by funext level; cases level <;> decide +kernel⟩
  have hsent := sendNew_accounted accounted_init ⟨0, true, 1, [1], .initial, 0⟩
  have haccount : Accounted 0 afterHandshake := handshakeDone_accounted hsent
  have hfirst : (afterHandshake.sentPackets.cells 0).acknowledged = true := by decide +kernel
  refine ⟨haccount, ⟨by decide +kernel, by decide +kernel⟩, hclock, by decide +kernel, by decide +kernel, ?_⟩
  intro j hj
  obtain rfl : j = 0 := by omega
  exact hfirst

def fullRing : QuicRecoveryCtx := sendAll (sendNew afterHandshake ⟨0, true, 1, [1], .short, 0⟩) laterPackets

theorem fullRing_filling : Filling QUIC_RECOVERY_MAX_SENT_PACKETS fullRing := by
  have hfirst : Filling 2 (sendNew afterHandshake ⟨0, true, 1, [1], .short, 0⟩) :=
    sendNew_filling afterHandshake_filling (by decide) _ (fun id => ⟨id, rfl⟩)
  have hlen : laterPackets.length = 4094 := by unfold laterPackets; rw [List.length_map, List.length_range']
  have hall := sendAll_filling laterPackets hfirst (Nat.le_refl 2) (by rw [hlen]; decide) (fun a ha => by
    obtain ⟨pn, -, rfl⟩ := List.mem_map.1 ha
    exact ⟨pn, rfl⟩)
  rw [hlen] at hall
  exact hall

/-- The ring after the packet that is due was sent again: its record was in cell 1, where the next one is now. -/
def movedRecord (j : Nat) (p : QuicRecoverySentPacket) : Prop :=
  if j = 0 then p.lost = true
  else if j = 4095 then p.timeSentMs = 1001
  else p.timeSentMs = 1000 ∧ (j = 1 → p.bytesSent = 2)

theorem movedRecord_frames {j : Nat} {p : QuicRecoverySentPacket} (h : movedRecord j p) :
    movedRecord j { p with frames := none } := h

theorem movedRecord_due (hclock : SameClock {} ctx) {j : Nat} {p : QuicRecoverySentPacket}
    (h : movedRecord j p) : lossDue ctx 1001 225 p = false := by
  rw [hclock.due]
  have hpn : ¬ (3 : Int) ≤ -(p.pn : Int) := by omega
  unfold movedRecord at h
  unfold lossDue
  split at h
  · rw [h]
    simp
  · split at h
    · rw [h]
      simp [hpn, sub64, wordSize]
    · rw [h.1]
      simp [hpn, sub64, wordSize]

def resentEnv : RecoveryEnv := { lossImm := fun _ => some 4095 }

theorem packetSent_moved {r : SentRing} (hring : ctx.sentPackets = r) (hfilled : Filled QUIC_RECOVERY_MAX_SENT_PACKETS
      (fun j p => if j = 1 then p.lost = true ∧ p.acknowledged = false else fullRecord j p) r) (pn : Nat) :
    Filled QUIC_RECOVERY_MAX_SENT_PACKETS movedRecord
      (quicRecoveryOnPacketSent ctx ⟨pn, true, 1, [1], .short, 1001⟩).sentPackets := by
  have hfull : QUIC_RECOVERY_MAX_SENT_PACKETS ≤ ctx.sentPackets.count := by
    rw [hring, hfilled.count]
  rw [packetSent_ring, sentCompact_ring, if_pos hfull, hring]
  have hmoved := Filled.compact (k := 4095) hfilled (Nat.le_refl _) (fun p hp => by
      rw [if_neg (by decide)] at hp
      exact hp)
    (fun j p hp => by
      split at hp
      · exact hp.2
      · rename_i hj
        unfold fullRecord at hp
        rw [if_neg (Nat.succ_ne_zero j), if_neg hj] at hp
        obtain ⟨pn, id, rfl⟩ := hp
        rfl)
  have hmoved' : Filled 4095 movedRecord (ringCompact r) := by
    refine ⟨hmoved.count, hmoved.head, fun j hj => ?_⟩
    have hp := hmoved.cells j hj
    unfold movedRecord
    by_cases h0 : j = 0
    · rw [if_pos (by omega)] at hp
      rw [if_pos h0]
      exact hp.1
    · rw [if_neg (by omega)] at hp
      unfold fullRecord at hp
      rw [if_neg (by omega), if_neg (by omega)] at hp
      obtain ⟨pn, id, hp⟩ := hp
      rw [if_neg h0, if_neg (by omega), hp]
      exact ⟨rfl, fun _ => rfl⟩
  have hroom : ¬ QUIC_RECOVERY_MAX_SENT_PACKETS ≤ (ringCompact r).count := by
    rw [hmoved'.count]
    decide
  unfold ringStore
  rw [if_neg hroom]
  exact hmoved'.push (by decide) rfl

theorem lossLeave_moved (haccount : Accounted 1 ctx) (hfilled : Filled QUIC_RECOVERY_MAX_SENT_PACKETS movedRecord ctx.sentPackets)
    (c : Option QuicRecoveryChunk) : Miscounted (lossLeave ctx 1 c) := by
  have hslot : ctx.sentPackets.slot 1 = 1 := hfilled.slot (Nat.le_refl _) (by decide)
  have hsize : (ctx.sentPackets.cells 1).bytesSent = 2 := (hfilled.cells 1 (by decide)).2 rfl
  have hsum := Ring.sum_set liveBytes haccount.wf (i := 1) (by rw [hfilled.count]; decide)
    { ctx.sentPackets.cells 1 with frames := none }
  have hget : ctx.sentPackets.get 1 = ctx.sentPackets.cells 1 := congrArg _ hslot
  have hlive : liveBytes { ctx.sentPackets.cells 1 with frames := none } = liveBytes (ctx.sentPackets.cells 1) := rfl
  rw [hslot, hget, hlive] at hsum
  have hbytes := haccount.bytes
  unfold lossLeave
  refine Miscounted.same ?_ (chunkPtr_same _ c _)
  generalize ({ ctx.sentPackets.cells 1 with frames := none } : QuicRecoverySentPacket) = x at hsum ⊢
  rw [hsize]
  unfold inflightSub
  by_cases hunder : ctx.bytesInFlight < 2
  · rw [if_pos hunder]
    exact Or.inr (Nat.succ_ne_zero _)
  · rw [if_neg hunder]
    left
    show ((ctx.sentPackets.set 1 _).toList.map liveBytes).sum = ctx.bytesInFlight - 2 + 1
    unfold QuicRecoveryCtx.inFlight at hbytes
    omega

theorem chunkPtr_clock (ctx : QuicRecoveryCtx) (c : Option QuicRecoveryChunk)
    (f : QuicRecoveryChunk → QuicRecoveryChunk) : SameClock ctx (chunkPtr ctx c f) := by
  cases c <;> exact ⟨rfl, rfl, rfl, rfl⟩

theorem lossLeave_clock (ctx : QuicRecoveryCtx) (idx : Nat) (c : Option QuicRecoveryChunk) :
    SameClock ctx (lossLeave ctx idx c) := by
  unfold lossLeave
  refine SameClock.trans ?_ (chunkPtr_clock _ c _)
  obtain ⟨h1, h2, h3, h4⟩ := inflightSub_clock ctx (ctx.sentPackets.cells idx).bytesSent
  exact ⟨h1, h2, h3, h4⟩

theorem lossRetransmit_moved {w : LossWork} (hcap : w.fastRetx = 0) {p q : QuicRecoverySentPacket} {idx : Nat}
    (hp : ∃ id, p = ⟨0, id, 0, 1, true, false, false, .short, some [1]⟩) (c : Option QuicRecoveryChunk)
    (hhand : InHand idx q w.ctx) (hq : q.bytesSent = 1)
    (hfilled : Filled QUIC_RECOVERY_MAX_SENT_PACKETS
      (fun j p => if j = 1 then p.lost = true ∧ p.acknowledged = false else fullRecord j p) w.ctx.sentPackets)
    (hclock : SameClock {} w.ctx) :
    Accounted 1 (lossRetransmit resentEnv 1001 p c w).ctx ∧
      Filled QUIC_RECOVERY_MAX_SENT_PACKETS movedRecord (lossRetransmit resentEnv 1001 p c w).ctx.sentPackets ∧
      SameClock {} (lossRetransmit resentEnv 1001 p c w).ctx := by
  obtain ⟨id, rfl⟩ := hp
  have haccount := hhand.account
  rw [hq] at haccount
  unfold lossRetransmit
  rw [if_pos (by rw [hcap]; decide), hcap]
  dsimp only
  generalize hs : (({ w.ctx with currentRetransChunkId := id } : QuicRecoveryCtx).call (.sendImm .short [1])) = s
  have himm : sendImm { w.ctx with currentRetransChunkId := id } .short ((some [1]).getD []) 1001
      (resentEnv.lossImm 0) = quicRecoveryOnPacketSent s ⟨4095, true, 1, [1], .short, 1001⟩ := by rw [← hs]; rfl
  rw [himm]
  have hsame : SameFlight w.ctx s := by rw [← hs]; exact ⟨rfl, rfl, rfl⟩
  have hsclock : SameClock w.ctx s := by rw [← hs]; exact ⟨rfl, rfl, rfl, rfl⟩
  refine ⟨(packetSent_accounted (haccount.same hsame) _).same (chunkPtr_same _ c _), ?_,
    ((hclock.trans hsclock).trans (packetSent_clock s _)).trans (chunkPtr_clock _ c _)⟩
  rw [(chunkPtr_same _ c _).ring]
  exact packetSent_moved hsame.ring hfilled 4095

theorem lossHit_moved (h : Filling QUIC_RECOVERY_MAX_SENT_PACKETS ctx) : Miscounted (lossHit resentEnv 1001 { ctx } 1).ctx ∧
    Filled QUIC_RECOVERY_MAX_SENT_PACKETS movedRecord (lossHit resentEnv 1001 { ctx } 1).ctx.sentPackets ∧ SameClock {}
    (lossHit resentEnv 1001 { ctx } 1).ctx := by
  obtain ⟨haccount, hcalm, hclock, hfilled⟩ := h
  have hslot : ctx.sentPackets.slot 1 = 1 := hfilled.slot (Nat.le_refl _) (by decide)
  have hget : ctx.sentPackets.get 1 = ctx.sentPackets.cells 1 := congrArg _ hslot
  obtain ⟨id, hp⟩ : ∃ id, ctx.sentPackets.cells 1 = ⟨0, id, 0, 1, true, false, false, .short, some [1]⟩ :=
    hfilled.cells 1 (by decide)
  have hchunk : ¬ (chunkFind ctx (ctx.sentPackets.cells 1).chunkId).any (fun c => c.state = .lost) = true := by
    cases hc : chunkFind ctx (ctx.sentPackets.cells 1).chunkId with
    | none => exact Bool.noConfusion
    | some c => simpa using hcalm.notLost c (lookup_mem _ hc)
  have hlost : Filled QUIC_RECOVERY_MAX_SENT_PACKETS
      (fun j p => if j = 1 then p.lost = true ∧ p.acknowledged = false else fullRecord j p)
      (ctx.sentPackets.set 1 { ctx.sentPackets.cells 1 with lost := true }) := by
    refine ⟨hfilled.count, hfilled.head, fun j hj => ?_⟩
    show if j = 1 then _ else _
    by_cases h1 : j = 1
    · rw [if_pos h1, h1]
      show (Function.update ctx.sentPackets.cells 1 _ 1).lost = true ∧ _
      rw [hp]
      exact ⟨rfl, rfl⟩
    · rw [if_neg h1]
      show fullRecord j (Function.update ctx.sentPackets.cells 1 _ j)
      rw [Function.update_of_ne h1]
      exact hfilled.cells j hj
  have hlive : liveBytes (ctx.sentPackets.get 1) = (ctx.sentPackets.get 1).bytesSent := by
    rw [hget, hp]
    rfl
  have hcount : 1 < ctx.sentPackets.count := by
    rw [hfilled.count]
    decide
  have hhand := lossFirst_inHand (w := { ctx }) haccount hcount hlive
  have hsize : ({ ctx.sentPackets.get 1 with lost := true } : QuicRecoverySentPacket).bytesSent = 1 := by
    show (ctx.sentPackets.get 1).bytesSent = 1
    rw [hget, hp]
  rw [show ctx.sentPackets.slot 1 = 1 from hslot] at hhand
  have hlost' : Filled QUIC_RECOVERY_MAX_SENT_PACKETS
      (fun j p => if j = 1 then p.lost = true ∧ p.acknowledged = false else fullRecord j p)
      (lossFirst { ctx } 1).ctx.sentPackets := hlost
  have hretx : (lossHit resentEnv 1001 { ctx } 1).ctx = lossLeave
      (lossRetransmit resentEnv 1001 (ctx.sentPackets.cells 1) (chunkFind ctx (ctx.sentPackets.cells 1).chunkId)
        (lossFirst { ctx } 1)).ctx 1 (chunkFind ctx (ctx.sentPackets.cells 1).chunkId) := by
    unfold lossHit
    dsimp only
    rw [if_neg hchunk]
  have hcapped : (lossFirst { ctx } 1).fastRetx = 0 := rfl
  obtain ⟨haccount', hfilled', hclock'⟩ := lossRetransmit_moved hcapped (p := ctx.sentPackets.cells 1) ⟨id, hp⟩
    (chunkFind ctx (ctx.sentPackets.cells 1).chunkId) hhand hsize hlost' (hclock.trans ⟨rfl, rfl, rfl, rfl⟩)
  rw [hretx]
  generalize (lossRetransmit resentEnv 1001 (ctx.sentPackets.cells 1)
    (chunkFind ctx (ctx.sentPackets.cells 1).chunkId) (lossFirst { ctx } 1)).ctx = c at haccount' hfilled' hclock' ⊢
  refine ⟨lossLeave_moved haccount' hfilled' _, ?_, hclock'.trans (lossLeave_clock c 1 _)⟩
  have hring : (lossLeave c 1 (chunkFind ctx (ctx.sentPackets.cells 1).chunkId)).sentPackets =
      c.sentPackets.set 1 { c.sentPackets.cells 1 with frames := none } := by
    unfold lossLeave
    rw [(chunkPtr_same _ _ _).ring]
    show (inflightSub c _).sentPackets.set 1 _ = _
    rw [inflightSub_ring]
  rw [hring]
  exact hfilled'.set (movedRecord_frames (hfilled'.cells 1 (by decide)))

def movedCalls : List RecoveryCall :=
  [.packetSent ⟨0, true, 1, [1], .initial, 0⟩, .handshakeDone, .packetSent ⟨0, true, 1, [1], .short, 0⟩] ++
    laterPackets.map .packetSent ++ [.checkLosses 1001 resentEnv]

theorem foldlM_opening (fuel : Nat) (ctx : QuicRecoveryCtx) (a b : SentArgs) :
    [RecoveryCall.packetSent a, .handshakeDone, .packetSent b].foldlM (recoveryStep fuel) ctx =
      some (sendNew (quicRecoveryHandshakeDone (sendNew ctx a)) b) := rfl

theorem foldlM_checkLosses (fuel : Nat) (ctx : QuicRecoveryCtx) (now : Nat) (env : RecoveryEnv) :
    [RecoveryCall.checkLosses now env].foldlM (recoveryStep fuel) ctx = some (quicRecoveryCheckLosses env ctx now) := rfl

theorem movedCalls_run : movedCalls.foldlM (recoveryStep 0) {} = some (quicRecoveryCheckLosses resentEnv fullRing 1001) := by
  unfold movedCalls fullRing afterHandshake
  rw [List.foldlM_append, List.foldlM_append, foldlM_opening, Option.bind_eq_bind, Option.bind_some, foldlM_packetSent,
    Option.bind_some, foldlM_checkLosses]

theorem compactSentPackets_miscounted (hwf : ctx.sentPackets.Wf) (h : Miscounted ctx) : Miscounted (compactSentPackets ctx) := by
  have hsum := Ring.sum_compact liveBytes hwf (fun p => !p.acknowledged)
    (fun p hp => liveBytes_acknowledged (by simpa using hp))
  unfold Miscounted QuicRecoveryCtx.inFlight at *
  show ((ringCompact ctx.sentPackets).toList.map liveBytes).sum = _ ∨ _
  unfold ringCompact
  rw [hsum]
  exact h

theorem lossEnd_same {w : LossWork} (env : RecoveryEnv) (now : Nat) (h : env.flushed = []) :
    SameFlight w.ctx (lossEnd env now w) := by
  unfold lossEnd
  split
  · rw [h]
    show SameFlight w.ctx ((if w.appLossDetected then lossNotify (lossEpoch w.ctx now) now
      else lossEpoch w.ctx now).call .flush)
    refine SameFlight.trans ?_ (call_same _ _)
    split
    · exact (lossEpoch_same w.ctx now).trans (lossNotify_same _ now)
    · exact lossEpoch_same w.ctx now
  · exact ⟨rfl, rfl, rfl⟩

theorem detectLosses_moved (h : Filling QUIC_RECOVERY_MAX_SENT_PACKETS ctx) :
    Miscounted (detectLosses resentEnv ctx 1001) ∧ (detectLosses resentEnv ctx 1001).sentPackets.Wf := by
  have hthreshold : lossTimeThreshold ctx = 225 := by
    rw [h.clock.threshold]
    decide
  have hturns : List.range' 0 QUIC_RECOVERY_MAX_SENT_PACKETS = 0 :: 1 :: List.range' 2 4094 := rfl
  obtain ⟨hmis, hfilled, hclock⟩ := lossHit_moved h
  have hfirst : lossStep resentEnv 1001 225 { ctx } 0 = { ctx } := by
    refine lossStep_notDue (fun _ => ?_)
    have hack : (ctx.sentPackets.get 0).acknowledged = true := h.filled.get (i := 0) (Nat.le_refl _) (by decide)
    unfold lossDue
    rw [hack]
    rfl
  have hsecond : lossStep resentEnv 1001 225 { ctx } 1 = lossHit resentEnv 1001 { ctx } 1 := by
    obtain ⟨id, hp⟩ : ∃ id, ctx.sentPackets.get 1 = ⟨0, id, 0, 1, true, false, false, .short, some [1]⟩ :=
      h.filled.get (i := 1) (Nat.le_refl _) (by decide)
    have hslot : ctx.sentPackets.slot 1 = 1 := h.filled.slot (Nat.le_refl _) (by decide)
    have hdue : lossDue ctx 1001 225 (ctx.sentPackets.get 1) = true := by
      rw [h.clock.due, hp]
      simp [lossDue, sub64, wordSize]
    have hcount : 1 < ctx.sentPackets.count := by
      rw [h.filled.count]
      decide
    unfold lossStep
    dsimp only
    rw [if_pos ⟨hcount, hdue⟩, hslot]
  unfold detectLosses
  rw [hthreshold, hturns, List.foldl_cons, hfirst, List.foldl_cons, hsecond, foldl_lossStep_notDue _ (fun i _ hi => ?_)]
  · have hsame := lossEnd_same (w := lossHit resentEnv 1001 { ctx } 1) resentEnv 1001 rfl
    refine ⟨hmis.same hsame, ?_⟩
    rw [hsame.ring]
    constructor
    · rw [hfilled.head]
      decide
    · rw [hfilled.count]
  · rw [hfilled.count] at hi
    exact movedRecord_due hclock (hfilled.get (Nat.le_refl _) hi)

theorem fullRing_miscounted : Miscounted (quicRecoveryCheckLosses resentEnv fullRing 1001) := by
  obtain ⟨hmis, hwf⟩ := detectLosses_moved fullRing_filling
  exact compactSentPackets_miscounted hwf hmis

/-- **The count is lost when a record moves**: with a full ring whose first record is acknowledged, the packet sent in
place of a lost one has the ring compacted, and the size taken off is that of the next record. -/
theorem bytesInFlight_lost : ¬ ∀ (fuel : Nat) (calls : List RecoveryCall) (ctx : QuicRecoveryCtx),
    calls.foldlM (recoveryStep fuel) {} = some ctx → ctx.bytesInFlight = ctx.inFlight ∧ ctx.inflightUnderflows = 0 := by
  intro hall
  obtain ⟨hbytes, hunder⟩ := hall 0 movedCalls _ movedCalls_run
  rcases fullRing_miscounted with h | h
  · omega
  · exact h hunder

end MoqLiveCast
