import MoqLiveCast.Quic.AckRanges
import MoqLiveCast.Quic.RecoveryInv
import Mathlib.Data.List.MinMax
/-!
# RttSamples — how often an ACK frame calls `update_rtt`

The packet numbers of a range are looked for from the lowest on, and each one above those sampled before is a sample of
its own.
-/
namespace MoqLiveCast

open List

/-! ## The calls of `update_rtt` -/

/-- The call in `mark_pn_acked`, if there is one: the packet and its sample. -/
def rttSample (w : AckWork) (pn : Nat) (level : TlsLevel) (now : Nat) : Option (Nat × Nat) :=
  match (List.range w.ctx.sentPackets.count).find? (fun i => ackMatches pn level (w.ctx.sentPackets.get i)) with
  | none => none
  | some i =>
    let p := w.ctx.sentPackets.get i
    if p.ackEliciting ∧ p.lost = false ∧ w.largestNewlyAckedPn < pn then some (pn, sub64 now p.timeSentMs) else none

/-- The calls while `mark_pn_acked` is called for one number after another. -/
def rttSamples (level : TlsLevel) (now : Nat) : AckWork → List Nat → List (Nat × Nat)
  | _, [] => []
  | w, pn :: pns => (rttSample w pn level now).toList ++ rttSamples level now (markPnAcked w pn level now) pns

theorem ackSample_largest (w : AckWork) (p : QuicRecoverySentPacket) (pn now : Nat) : (ackSample w p pn now).largestNewlyAckedPn =
      if p.ackEliciting ∧ p.lost = false ∧ w.largestNewlyAckedPn < pn then pn else w.largestNewlyAckedPn := by
  unfold ackSample
  split <;> rfl

theorem markPnAcked_largest (w : AckWork) (pn : Nat) (level : TlsLevel) (now : Nat) :
    (markPnAcked w pn level now).largestNewlyAckedPn = (rttSample w pn level now).elim w.largestNewlyAckedPn Prod.fst := by
  unfold markPnAcked rttSample
  dsimp only
  cases (List.range w.ctx.sentPackets.count).find? fun i => ackMatches pn level (w.ctx.sentPackets.get i) with
  | none => rfl
  | some i =>
    unfold markRecord
    dsimp only
    refine (ackSample_largest _ _ pn now).trans ?_
    show (if (w.ctx.sentPackets.get i).ackEliciting = true ∧ (w.ctx.sentPackets.get i).lost = false ∧
        w.largestNewlyAckedPn < pn then pn else w.largestNewlyAckedPn) = _
    split <;> rfl

/-! ## The packets that are sampled -/

/-- The states of recovery: the cells of the ring are in use up to its count, and a packet number is outstanding once in a
level. -/
structure RecoveryState where
  ctx : QuicRecoveryCtx
  wf : ctx.sentPackets.Wf
  apart : ctx.sentPackets.toList.Pairwise fun p q => p.acknowledged = false → q.acknowledged = false →
    pktTypeToLevel p.pktType = pktTypeToLevel q.pktType → p.pn ≠ q.pn

def openAt (ctx : QuicRecoveryCtx) (level : TlsLevel) (pn : Nat) : Option QuicRecoverySentPacket :=
  ctx.sentPackets.toList.find? (ackMatches pn level)

def chunkLive (ctx : QuicRecoveryCtx) (id : Nat) : Bool :=
  match chunkFind ctx id with
  | none => false
  | some c => c.state ≠ .acked

def goneBy (ctx : QuicRecoveryCtx) (level : TlsLevel) (seen : List Nat) (p : QuicRecoverySentPacket) : Bool :=
  (decide (pktTypeToLevel p.pktType = level) && seen.contains p.pn) ||
    (chunkLive ctx p.chunkId && (seen.filterMap (openAt ctx level)).any (fun q => q.chunkId = p.chunkId))

def ackReached (ctx : QuicRecoveryCtx) (level : TlsLevel) : List Nat → List Nat → List QuicRecoverySentPacket
  | _, [] => []
  | seen, pn :: pns =>
    ((openAt ctx level pn).filter (fun p => !goneBy ctx level seen p)).toList ++ ackReached ctx level (seen ++ [pn]) pns

def rttEligible (p : QuicRecoverySentPacket) : Bool := p.ackEliciting && !p.lost

/-- The packets of a frame that `mark_pn_acked` may sample, in the order it comes to them; it never samples number 0. -/
def rttCounted (ctx : QuicRecoveryCtx) (level : TlsLevel) (ack : QuicAckFrame) : List QuicRecoverySentPacket :=
  (ackReached ctx level [] (ackWalk ack)).filter (fun p => rttEligible p && decide (0 < p.pn))

/-- **What a frame newly acknowledges**: the packets outstanding under its numbers. -/
def newlyAcked (ctx : QuicRecoveryCtx) (level : TlsLevel) (ack : QuicAckFrame) : List QuicRecoverySentPacket :=
  (ackWalk ack).filterMap (openAt ctx level)

def largestNewlyAcked (ctx : QuicRecoveryCtx) (level : TlsLevel) (ack : QuicAckFrame) : Option QuicRecoverySentPacket :=
  (newlyAcked ctx level ack).argmax QuicRecoverySentPacket.pn

def rttOf (now : Nat) (p : QuicRecoverySentPacket) : Nat × Nat := (p.pn, sub64 now p.timeSentMs)

/-- The packets above `m` and those before them. -/
def rises : Nat → List QuicRecoverySentPacket → List QuicRecoverySentPacket
  | _, [] => []
  | m, p :: l => if m < p.pn then p :: rises p.pn l else rises m l

/-! ### What the walk has left -/

def bareRecord (p : QuicRecoverySentPacket) : QuicRecoverySentPacket := { p with frames := none }

def bareRecords (ctx : QuicRecoveryCtx) : List QuicRecoverySentPacket := ctx.sentPackets.toList.map bareRecord

def ackIf (b : QuicRecoverySentPacket → Bool) (p : QuicRecoverySentPacket) : QuicRecoverySentPacket :=
  bareRecord { p with acknowledged := p.acknowledged || b p }

theorem openAt_bare (ctx : QuicRecoveryCtx) (level : TlsLevel) (pn : Nat) :
    (openAt ctx level pn).map bareRecord = (bareRecords ctx).find? (ackMatches pn level) := by
  unfold openAt bareRecords
  rw [List.find?_map]
  rfl

theorem openAt_slot (ctx : QuicRecoveryCtx) (level : TlsLevel) (pn : Nat) :
    openAt ctx level pn = ((List.range ctx.sentPackets.count).find? (fun i =>
      ackMatches pn level (ctx.sentPackets.get i))).map ctx.sentPackets.get := by
  unfold openAt Ring.toList
  rw [List.find?_map]
  rfl

theorem rttSample_openAt (w : AckWork) (pn : Nat) (level : TlsLevel) (now : Nat) :
    rttSample w pn level now = ((openAt w.ctx level pn).filter
      (fun p => rttEligible p && decide (w.largestNewlyAckedPn < p.pn))).map (rttOf now) := by
  rw [openAt_slot]
  unfold rttSample
  cases hfind : (List.range w.ctx.sentPackets.count).find? (fun i => ackMatches pn level (w.ctx.sentPackets.get i)) with
  | none => rfl
  | some i =>
    have hm := List.find?_some hfind
    simp only [ackMatches, Bool.and_eq_true, decide_eq_true_eq] at hm
    obtain ⟨⟨hpn, -⟩, -⟩ := hm
    simp only [Option.map_some, Option.filter, rttEligible, hpn]
    by_cases hs : (w.ctx.sentPackets.get i).ackEliciting = true ∧ (w.ctx.sentPackets.get i).lost = false ∧
        w.largestNewlyAckedPn < pn
    · rw [if_pos hs, if_pos (by simpa [and_assoc] using hs)]
      simp only [Option.map_some, rttOf, hpn]
    · rw [if_neg hs, if_neg (by simpa [and_assoc] using hs)]
      rfl

/-! ### A chunk that is acknowledged -/

theorem chunkAckPacket_get (id : Nat) {ctx : QuicRecoveryCtx} (h : ctx.sentPackets.Wf) {i j : Nat}
    (hi : i < ctx.sentPackets.count) (hj : j < ctx.sentPackets.count) :
    bareRecord ((chunkAckPacket id ctx i).sentPackets.get j) =
      if j = i then ackIf (fun p => p.chunkId = id) (ctx.sentPackets.get j) else bareRecord (ctx.sentPackets.get j) := by
  unfold chunkAckPacket
  dsimp only
  have hring : ∀ p, (inflightLeave ctx p).sentPackets = ctx.sentPackets := fun p => (inflightLeave_sameHeld ctx p).ring
  split
  · rename_i hp
    show bareRecord (((inflightLeave ctx _).sentPackets.set _ _).get j) = _
    rw [hring, Ring.get_set h hi hj]
    split
    · rename_i he
      rw [he]
      have hid : (ctx.sentPackets.get i).chunkId = id := hp.1
      have hack : ((ctx.sentPackets.get i).acknowledged || decide ((ctx.sentPackets.get i).chunkId = id)) = true := by
        rw [decide_eq_true hid, Bool.or_true]
      unfold ackIf
      rw [hack]
      rfl
    · rfl
  · rename_i hp
    split
    · rename_i he
      rw [he]
      have hp' : ¬ ((ctx.sentPackets.get i).chunkId = id ∧ (ctx.sentPackets.get i).acknowledged = false) := hp
      unfold ackIf
      have hsame : ((ctx.sentPackets.get i).acknowledged || decide ((ctx.sentPackets.get i).chunkId = id)) =
          (ctx.sentPackets.get i).acknowledged := by
        cases hack : (ctx.sentPackets.get i).acknowledged with
        | true => rfl
        | false => simpa [hack] using hp'
      rw [hsame]
    · rfl

theorem chunkAckPacket_ring (id : Nat) (ctx : QuicRecoveryCtx) (i : Nat) : (chunkAckPacket id ctx i).sentPackets.count =
    ctx.sentPackets.count ∧ (ctx.sentPackets.Wf → (chunkAckPacket id ctx i).sentPackets.Wf) ∧ (chunkAckPacket id ctx i).chunks =
    ctx.chunks := by
  unfold chunkAckPacket
  dsimp only
  have hsame := inflightLeave_sameHeld ctx (ctx.sentPackets.cells (ctx.sentPackets.slot i))
  split
  · refine ⟨?_, fun h => ?_, hsame.chunks⟩
    · show (inflightLeave ctx _).sentPackets.count = _
      rw [hsame.ring]
    · have hw : (inflightLeave ctx (ctx.sentPackets.cells (ctx.sentPackets.slot i))).sentPackets.Wf := by
        rw [hsame.ring]
        exact h
      exact Ring.wf_set hw _ _
  · exact ⟨rfl, fun h => h, rfl⟩

theorem chunkAckPackets_get (id : Nat) {ctx : QuicRecoveryCtx} (h : ctx.sentPackets.Wf) (k : Nat) : k ≤ ctx.sentPackets.count →
      ((List.range k).foldl (chunkAckPacket id) ctx).sentPackets.count = ctx.sentPackets.count ∧
      ((List.range k).foldl (chunkAckPacket id) ctx).sentPackets.Wf ∧
      ((List.range k).foldl (chunkAckPacket id) ctx).chunks = ctx.chunks ∧
      ∀ j, j < ctx.sentPackets.count → bareRecord (((List.range k).foldl (chunkAckPacket id) ctx).sentPackets.get j) =
        if j < k then ackIf (fun p => p.chunkId = id) (ctx.sentPackets.get j) else bareRecord (ctx.sentPackets.get j) := by
  induction k with
  | zero =>
    intro _
    exact ⟨rfl, h, rfl, fun j _ => by rw [if_neg (Nat.not_lt_zero j)]; rfl⟩
  | succ k ih =>
    intro hk
    obtain ⟨hcount, hwf, hchunks, hget⟩ := ih (by omega)
    rw [range_succ, foldl_append]
    generalize (List.range k).foldl (chunkAckPacket id) ctx = c at hcount hwf hchunks hget
    show (chunkAckPacket id c k).sentPackets.count = _ ∧ (chunkAckPacket id c k).sentPackets.Wf ∧
      (chunkAckPacket id c k).chunks = _ ∧ ∀ j, _ → bareRecord ((chunkAckPacket id c k).sentPackets.get j) = _
    obtain ⟨h₁, h₂, h₃⟩ := chunkAckPacket_ring id c k
    refine ⟨h₁.trans hcount, h₂ hwf, h₃.trans hchunks, fun j hj => ?_⟩
    rw [chunkAckPacket_get id hwf (by omega) (by omega)]
    rcases Nat.lt_trichotomy j k with hlt | rfl | hgt
    · rw [if_neg (by omega), hget j hj, if_pos hlt, if_pos (by omega)]
    · rw [if_pos rfl, if_pos (by omega)]
      have hhere := hget j hj
      rw [if_neg (Nat.lt_irrefl j)] at hhere
      have hacked := congrArg (ackIf (fun p => p.chunkId = id)) hhere
      exact hacked
    · rw [if_neg (by omega), hget j hj, if_neg (by omega), if_neg (by omega)]

theorem chunkFind_update (ctx : QuicRecoveryCtx) (id k : Nat) (f : QuicRecoveryChunk → QuicRecoveryChunk)
    (hf : ∀ c, (f c).chunkId = c.chunkId) :
    chunkFind (ctx.updateChunk id f) k = (chunkFind ctx k).map (fun c => if c.chunkId = id then f c else c) :=
  lookup_map QuicRecoveryChunk.chunkId (fun c => by split; exacts [hf c, rfl]) k ctx.chunks

theorem chunkLive_of_chunks {ctx ctx' : QuicRecoveryCtx} (h : ctx'.chunks = ctx.chunks) (id : Nat) :
    chunkLive ctx' id = chunkLive ctx id := by
  unfold chunkLive chunkFind
  rw [h]

theorem chunkMarkAcked_effect {ctx : QuicRecoveryCtx} (h : ctx.sentPackets.Wf) (id : Nat) :
    (chunkMarkAcked ctx id).sentPackets.Wf ∧
    bareRecords (chunkMarkAcked ctx id) =
      ctx.sentPackets.toList.map (ackIf fun p => chunkLive ctx id && decide (p.chunkId = id)) ∧
    ∀ k, chunkLive (chunkMarkAcked ctx id) k = (chunkLive ctx k && decide (k ≠ id)) := by
  have hidle : chunkLive ctx id = false → ctx.sentPackets.Wf ∧
      bareRecords ctx = ctx.sentPackets.toList.map (ackIf fun p => chunkLive ctx id && decide (p.chunkId = id)) ∧
      ∀ k, chunkLive ctx k = (chunkLive ctx k && decide (k ≠ id)) := by
    intro hdead
    refine ⟨h, ?_, fun k => ?_⟩
    · refine map_congr_left fun p _ => ?_
      simp [ackIf, hdead]
    · by_cases hk : k = id
      · rw [hk, hdead, Bool.false_and]
      · simp [hk]
  unfold chunkMarkAcked
  split
  · rename_i hnone
    exact hidle (by unfold chunkLive; rw [hnone])
  · rename_i c hsome
    split
    · rename_i hacked
      exact hidle (by unfold chunkLive; rw [hsome]; simp [hacked])
    · rename_i hlive
      have hid : c.chunkId = id := lookup_key _ hsome
      have hon : chunkLive ctx id = true := by unfold chunkLive; rw [hsome]; simpa using hlive
      dsimp only
      generalize hu : ctx.updateChunk id (fun c => { c with state := .acked, frames := none }) = c'
      have hring : c'.sentPackets = ctx.sentPackets := by rw [← hu]; rfl
      have hwf : c'.sentPackets.Wf := by rw [hring]; exact h
      obtain ⟨hcount, hw, hchunks, hget⟩ := chunkAckPackets_get id hwf c'.sentPackets.count (Nat.le_refl _)
      refine ⟨hw, ?_, fun k => ?_⟩
      · rw [← hring]
        generalize (List.range c'.sentPackets.count).foldl (chunkAckPacket id) c' = c'' at hcount hget
        show c''.sentPackets.toList.map bareRecord = _
        refine ext_getElem (by simp [hcount]) fun j h₁ h₂ => ?_
        have hj : j < c'.sentPackets.count := by simpa using h₂
        rw [getElem_map, getElem_map, Ring.toList_getElem, Ring.toList_getElem, hget j hj, if_pos hj, hon]
        rfl
      · rw [chunkLive_of_chunks hchunks, ← hu]
        unfold chunkLive
        rw [chunkFind_update ctx id k (fun c => { c with state := .acked, frames := none }) (fun _ => rfl)]
        cases hk : chunkFind ctx k with
        | none => rfl
        | some d =>
          have hdk : d.chunkId = k := lookup_key _ hk
          simp only [Option.map_some, hdk]
          by_cases hkid : k = id
          · simp [hkid]
          · simp [hkid]

/-! ### The walk -/

/-- **The walk after the numbers `seen`**: the records they have acknowledged, and the chunks that are still live. -/
structure Walked (ctx : QuicRecoveryCtx) (level : TlsLevel) (seen : List Nat) (w : AckWork) : Prop where
  wf : w.ctx.sentPackets.Wf
  records : bareRecords w.ctx = ctx.sentPackets.toList.map (ackIf (goneBy ctx level seen))
  live : ∀ id, chunkLive w.ctx id = (chunkLive ctx id && !(seen.filterMap (openAt ctx level)).any (fun q => q.chunkId = id))

theorem goneBy_nil (ctx : QuicRecoveryCtx) (level : TlsLevel) (p : QuicRecoverySentPacket) : goneBy ctx level [] p = false := by
  simp [goneBy]

theorem walked_start (s : RecoveryState) (ack : QuicAckFrame) (level : TlsLevel) :
    Walked s.ctx level [] (ackStart s.ctx ack level) := by
  refine ⟨s.wf, ?_, fun id => ?_⟩
  · refine map_congr_left fun p _ => ?_
    simp [ackIf, goneBy_nil]
  · show chunkLive s.ctx id = _
    simp

section Step

variable {s : RecoveryState} {level : TlsLevel} {seen : List Nat} {w : AckWork}

theorem RecoveryState.open_unique (s : RecoveryState) {i j pn : Nat} (hi : i < s.ctx.sentPackets.toList.length)
    (hj : j < s.ctx.sentPackets.toList.length) (hmi : ackMatches pn level s.ctx.sentPackets.toList[i] = true)
    (hmj : ackMatches pn level s.ctx.sentPackets.toList[j] = true) : i = j := by
  have hapart := List.pairwise_iff_getElem.1 s.apart
  simp only [ackMatches, Bool.and_eq_true, decide_eq_true_eq, Bool.not_eq_true'] at hmi hmj
  obtain ⟨⟨hpi, hai⟩, hli⟩ := hmi
  obtain ⟨⟨hpj, haj⟩, hlj⟩ := hmj
  rcases Nat.lt_trichotomy i j with h | h | h
  · exact absurd (hpi.trans hpj.symm) (hapart i j hi hj h hai haj (hli.trans hlj.symm))
  · exact h
  · exact absurd (hpj.trans hpi.symm) (hapart j i hj hi h haj hai (hlj.trans hli.symm))

theorem RecoveryState.openAt_eq (s : RecoveryState) {pn : Nat} {p : QuicRecoverySentPacket}
    (hp : p ∈ s.ctx.sentPackets.toList) (hm : ackMatches pn level p = true) : openAt s.ctx level pn = some p := by
  obtain ⟨i, hi, rfl⟩ := getElem_of_mem hp
  unfold openAt
  cases hfind : s.ctx.sentPackets.toList.find? (ackMatches pn level) with
  | none => exact absurd hm (List.find?_eq_none.1 hfind _ (getElem_mem hi))
  | some q =>
    obtain ⟨j, hj, rfl⟩ := getElem_of_mem (List.mem_of_find?_eq_some hfind)
    obtain rfl := s.open_unique hi hj hm (List.find?_some hfind)
    rfl

theorem openAt_spec {ctx : QuicRecoveryCtx} {pn : Nat} {p : QuicRecoverySentPacket} (h : openAt ctx level pn = some p) :
    p ∈ ctx.sentPackets.toList ∧ ackMatches pn level p = true ∧ p.pn = pn ∧ p.acknowledged = false ∧ pktTypeToLevel p.pktType =
    level := by
  have hm := List.find?_some h
  refine ⟨List.mem_of_find?_eq_some h, hm, ?_⟩
  simp only [ackMatches, Bool.and_eq_true, decide_eq_true_eq, Bool.not_eq_true'] at hm
  exact ⟨hm.1.1, hm.1.2, hm.2⟩

theorem ackMatches_ackIf (pn : Nat) (level : TlsLevel) (b : QuicRecoverySentPacket → Bool) (p : QuicRecoverySentPacket) :
    ackMatches pn level (ackIf b p) = (ackMatches pn level p && !b p) := by
  show (decide (p.pn = pn) && !(p.acknowledged || b p) && decide (pktTypeToLevel p.pktType = level)) =
    (decide (p.pn = pn) && !p.acknowledged && decide (pktTypeToLevel p.pktType = level) && !b p)
  rw [Bool.not_or]
  cases decide (p.pn = pn) <;> cases p.acknowledged <;> cases b p <;> simp

theorem Walked.openAt (h : Walked s.ctx level seen w) (pn : Nat) : (openAt w.ctx level pn).map bareRecord =
    ((openAt s.ctx level pn).filter (fun p => !goneBy s.ctx level seen p)).map bareRecord := by
  rw [openAt_bare, h.records, List.find?_map]
  have hfind : s.ctx.sentPackets.toList.find? (ackMatches pn level ∘ ackIf (goneBy s.ctx level seen)) =
      (MoqLiveCast.openAt s.ctx level pn).filter (fun p => !goneBy s.ctx level seen p) := by
    cases hopen : MoqLiveCast.openAt s.ctx level pn with
    | none =>
      refine List.find?_eq_none.2 fun p hp hm => ?_
      simp only [Function.comp_apply, ackMatches_ackIf, Bool.and_eq_true] at hm
      exact List.find?_eq_none.1 hopen p hp hm.1
    | some q =>
      obtain ⟨hmem, hmatch, -⟩ := openAt_spec hopen
      cases hgone : goneBy s.ctx level seen q with
      | true =>
        simp only [Option.filter, hgone, Bool.not_true, Bool.false_eq_true, if_false]
        refine List.find?_eq_none.2 fun p hp hm => ?_
        simp only [Function.comp_apply, ackMatches_ackIf, Bool.and_eq_true] at hm
        have hpq := s.openAt_eq hp hm.1
        rw [hopen] at hpq
        cases hpq
        simp [hgone] at hm
      | false =>
        simp only [Option.filter, hgone, Bool.not_false, if_true]
        cases hf : s.ctx.sentPackets.toList.find? (ackMatches pn level ∘ ackIf (goneBy s.ctx level seen)) with
        | none =>
          refine absurd ?_ (List.find?_eq_none.1 hf q hmem)
          simp only [Function.comp_apply, ackMatches_ackIf, hmatch, hgone]
          rfl
        | some p =>
          have hm := List.find?_some hf
          simp only [Function.comp_apply, ackMatches_ackIf, Bool.and_eq_true] at hm
          have hpq := s.openAt_eq (List.mem_of_find?_eq_some hf) hm.1
          exact hpq.symm.trans hopen
  rw [hfind]
  cases hopen : (MoqLiveCast.openAt s.ctx level pn).filter (fun p => !goneBy s.ctx level seen p) with
  | none => rfl
  | some q =>
    have hgone : goneBy s.ctx level seen q = false := by
      have := (Option.filter_eq_some_iff.1 hopen).2
      simpa using this
    simp only [Option.map_some, ackIf, hgone, Bool.or_false]

theorem goneBy_snoc (s : RecoveryState) {pn : Nat} {p : QuicRecoverySentPacket} :
    goneBy s.ctx level (seen ++ [pn]) p = (goneBy s.ctx level seen p ||
      (decide (pktTypeToLevel p.pktType = level) && decide (p.pn = pn)) ||
      (chunkLive s.ctx p.chunkId && ((MoqLiveCast.openAt s.ctx level pn).any (fun q => q.chunkId = p.chunkId)))) := by
  unfold goneBy
  rw [filterMap_append, any_append, contains_append]
  have hone : ([pn].filterMap (MoqLiveCast.openAt s.ctx level)).any (fun q => q.chunkId = p.chunkId) =
      (MoqLiveCast.openAt s.ctx level pn).any (fun q => q.chunkId = p.chunkId) := by
    cases hopen : MoqLiveCast.openAt s.ctx level pn <;> simp [hopen]
  have hpn : [pn].contains p.pn = decide (p.pn = pn) := by simp
  rw [hone, hpn]
  cases decide (pktTypeToLevel p.pktType = level) <;> cases chunkLive s.ctx p.chunkId <;> cases seen.contains p.pn <;>
    cases decide (p.pn = pn) <;> simp

end Step

theorem markRecord_effect {w : AckWork} (hwf : w.ctx.sentPackets.Wf) {i : Nat} (hi : i < w.ctx.sentPackets.count) (pn now : Nat) :
    (markRecord w (w.ctx.sentPackets.slot i) pn now).ctx.sentPackets.Wf ∧
    bareRecords (markRecord w (w.ctx.sentPackets.slot i) pn now).ctx =
      (w.ctx.sentPackets.toList.set i { w.ctx.sentPackets.get i with acknowledged := true }).map
        (ackIf fun p => chunkLive w.ctx (w.ctx.sentPackets.get i).chunkId &&
          decide (p.chunkId = (w.ctx.sentPackets.get i).chunkId)) ∧
    ∀ k, chunkLive (markRecord w (w.ctx.sentPackets.slot i) pn now).ctx k =
      (chunkLive w.ctx k && decide (k ≠ (w.ctx.sentPackets.get i).chunkId)) := by
  unfold markRecord
  dsimp only
  show (chunkMarkAcked _ (w.ctx.sentPackets.get i).chunkId).sentPackets.Wf ∧
    bareRecords (chunkMarkAcked _ (w.ctx.sentPackets.get i).chunkId) = _ ∧
    ∀ k, chunkLive (chunkMarkAcked _ (w.ctx.sentPackets.get i).chunkId) k = _
  generalize hc : QuicRecoveryCtx.call _ _ = c
  have hnotify : ∀ (d : QuicRecoveryCtx) (p : QuicRecoverySentPacket), (ackNotify d p pn now).sentPackets = d.sentPackets ∧
      (ackNotify d p pn now).chunks = d.chunks := by
    intro d p
    unfold ackNotify
    split <;> exact ⟨rfl, rfl⟩
  have hsame : c.sentPackets = w.ctx.sentPackets.set (w.ctx.sentPackets.slot i)
      { w.ctx.sentPackets.get i with acknowledged := true } ∧ c.chunks = w.ctx.chunks := by
    rw [← hc]
    constructor
    · refine (hnotify _ _).1.trans ((inflightLeave_sameHeld _ _).ring.trans ?_)
      exact (ackSample_sameHeld _ _ pn now).ring
    · refine (hnotify _ _).2.trans ((inflightLeave_sameHeld _ _).chunks.trans ?_)
      exact (ackSample_sameHeld _ _ pn now).chunks
  obtain ⟨hring, hchunks⟩ := hsame
  have hwfc : c.sentPackets.Wf := by
    rw [hring]
    exact Ring.wf_set hwf _ _
  obtain ⟨h₁, h₂, h₃⟩ := chunkMarkAcked_effect hwfc (w.ctx.sentPackets.get i).chunkId
  refine ⟨h₁, ?_, fun k => ?_⟩
  · rw [h₂, chunkLive_of_chunks hchunks, hring, Ring.toList_set hwf hi]
  · rw [h₃, chunkLive_of_chunks hchunks]

section Step

variable {s : RecoveryState} {level : TlsLevel} {seen : List Nat} {w : AckWork}

theorem any_snoc (s : RecoveryState) (pn id : Nat) :
    ((seen ++ [pn]).filterMap (openAt s.ctx level)).any (fun q => q.chunkId = id) =
      ((seen.filterMap (openAt s.ctx level)).any (fun q => q.chunkId = id) ||
        (openAt s.ctx level pn).any (fun q => q.chunkId = id)) := by
  rw [filterMap_append, any_append]
  congr 1
  cases hopen : openAt s.ctx level pn <;> simp [hopen]

theorem goneBy_chunk {pn : Nat} {q : QuicRecoverySentPacket} (hopen : openAt s.ctx level pn = some q)
    (hgone : goneBy s.ctx level seen q = true) :
    chunkLive s.ctx q.chunkId = false ∨ (seen.filterMap (openAt s.ctx level)).any (fun r => r.chunkId = q.chunkId) = true := by
  obtain ⟨-, -, hpn, -, -⟩ := openAt_spec hopen
  unfold goneBy at hgone
  rcases Bool.or_eq_true _ _ ▸ hgone with h | h
  · right
    have hmem : pn ∈ seen := by
      rw [← hpn]
      have hin := (Bool.and_eq_true _ _ ▸ h).2
      exact List.contains_iff_mem.1 hin
    exact List.any_eq_true.2 ⟨q, List.mem_filterMap.2 ⟨pn, hmem, hopen⟩, by simp⟩
  · exact Or.inr (Bool.and_eq_true _ _ ▸ h).2

theorem Walked.idle (h : Walked s.ctx level seen w) {pn : Nat} (hnone : MoqLiveCast.openAt w.ctx level pn = none) {w' : AckWork}
    (hctx : w'.ctx = w.ctx) : Walked s.ctx level (seen ++ [pn]) w' := by
  have hgone : ∀ q, MoqLiveCast.openAt s.ctx level pn = some q → goneBy s.ctx level seen q = true := by
    intro q hq
    have hopen := h.openAt pn
    rw [hnone, hq] at hopen
    cases hg : goneBy s.ctx level seen q with
    | true => rfl
    | false => simp [Option.filter, hg] at hopen
  refine ⟨by rw [hctx]; exact h.wf, ?_, fun id => ?_⟩
  · rw [hctx, h.records]
    refine map_congr_left fun p hp => ?_
    have hack : (p.acknowledged || goneBy s.ctx level (seen ++ [pn]) p) = (p.acknowledged || goneBy s.ctx level seen p) := by
      rw [goneBy_snoc]
      cases hg : goneBy s.ctx level seen p with
      | true => simp
      | false =>
        cases ha : p.acknowledged with
        | true => simp
        | false =>
          have hown : (decide (pktTypeToLevel p.pktType = level) && decide (p.pn = pn)) = false := by
            by_contra hc
            simp only [Bool.not_eq_false, Bool.and_eq_true, decide_eq_true_eq] at hc
            have hpo := s.openAt_eq hp (show ackMatches pn level p = true by simp [ackMatches, hc.1, hc.2, ha])
            rw [hgone p hpo] at hg
            cases hg
          have hchunk : (chunkLive s.ctx p.chunkId &&
              (MoqLiveCast.openAt s.ctx level pn).any (fun q => q.chunkId = p.chunkId)) = false := by
            by_contra hc
            simp only [Bool.not_eq_false, Bool.and_eq_true, Option.any_eq_true, decide_eq_true_eq] at hc
            obtain ⟨hlive, q, hq, hid⟩ := hc
            rcases goneBy_chunk hq (hgone q hq) with hdead | hany
            · rw [hid, hlive] at hdead
              cases hdead
            · rw [hid] at hany
              simp [goneBy, hlive, hany] at hg
          rw [hown, hchunk]
          rfl
    unfold ackIf
    rw [hack]
  · rw [hctx, h.live, any_snoc]
    cases hlive : chunkLive s.ctx id with
    | false => rfl
    | true =>
      cases hopen : MoqLiveCast.openAt s.ctx level pn with
      | none => simp
      | some q =>
        by_cases hid : q.chunkId = id
        · rcases goneBy_chunk hopen (hgone q hopen) with hdead | hany
          · rw [hid, hlive] at hdead
            cases hdead
          · rw [hid] at hany
            simp [hany]
        · simp [hid]

theorem Walked.mark (h : Walked s.ctx level seen w) {pn : Nat} {i : Nat} (hi : i < w.ctx.sentPackets.count)
    (hm : ackMatches pn level (w.ctx.sentPackets.get i) = true) {v : AckWork} (hv : v.ctx = w.ctx) (now : Nat) :
    Walked s.ctx level (seen ++ [pn]) (markRecord v (w.ctx.sentPackets.slot i) pn now) := by
  obtain ⟨hwf', hrecords, hlive⟩ := markRecord_effect (w := v) (by rw [hv]; exact h.wf) (by rw [hv]; exact hi) pn now
  rw [hv] at hwf' hrecords hlive
  generalize markRecord v (w.ctx.sentPackets.slot i) pn now = w' at hwf' hrecords hlive
  have hlen : w.ctx.sentPackets.toList.length = s.ctx.sentPackets.toList.length := by
    have := congrArg List.length h.records
    simpa [bareRecords] using this
  -- the records of the walk are those of the state, with the acknowledgements so far
  have hget : ∀ j (hj : j < w.ctx.sentPackets.toList.length) (hs : j < s.ctx.sentPackets.toList.length),
      bareRecord w.ctx.sentPackets.toList[j] = ackIf (goneBy s.ctx level seen) s.ctx.sentPackets.toList[j] := by
    intro j hj hs
    have hj' := getElem_of_eq h.records (i := j) (by simpa [bareRecords] using hj)
    simpa [bareRecords] using hj'
  have hback : ∀ j (hj : j < w.ctx.sentPackets.toList.length) (hs : j < s.ctx.sentPackets.toList.length),
      ackMatches pn level w.ctx.sentPackets.toList[j] = true →
      ackMatches pn level s.ctx.sentPackets.toList[j] = true ∧ goneBy s.ctx level seen s.ctx.sentPackets.toList[j] = false := by
    intro j hj hs hmj
    have hb : ackMatches pn level (bareRecord w.ctx.sentPackets.toList[j]) = true := hmj
    rw [hget j hj hs, ackMatches_ackIf] at hb
    simpa using hb
  have hil : i < w.ctx.sentPackets.toList.length := by simpa using hi
  have his : i < s.ctx.sentPackets.toList.length := hlen ▸ hil
  have hgi : w.ctx.sentPackets.toList[i] = w.ctx.sentPackets.get i := Ring.toList_getElem _ hil
  have hmi : ackMatches pn level w.ctx.sentPackets.toList[i] = true := by rw [hgi]; exact hm
  obtain ⟨hmq, hgq⟩ := hback i hil his hmi
  generalize hq : s.ctx.sentPackets.toList[i] = q at hmq hgq
  have hopen : MoqLiveCast.openAt s.ctx level pn = some q :=
    s.openAt_eq (by rw [← hq]; exact getElem_mem _) hmq
  have hid : (w.ctx.sentPackets.get i).chunkId = q.chunkId := by
    rw [← hgi, ← hq]
    have hchunk := congrArg QuicRecoverySentPacket.chunkId (hget i hil his)
    exact hchunk
  have hlw : chunkLive w.ctx q.chunkId = chunkLive s.ctx q.chunkId := by
    rw [h.live]
    unfold goneBy at hgq
    obtain ⟨-, hnochunk⟩ := Bool.or_eq_false_iff.1 hgq
    cases hl : chunkLive s.ctx q.chunkId with
    | false => rfl
    | true => rw [hl, Bool.true_and] at hnochunk; rw [hnochunk]; rfl
  rw [hid] at hrecords hlive
  refine ⟨hwf', ?_, fun id => ?_⟩
  · have hset := set_eq_map (ackMatches pn level) (fun p => { p with acknowledged := true }) hil hmi
      (fun j hj hmj => s.open_unique (by omega) (by omega) (hback j hj (hlen ▸ hj) hmj).1 (by rw [hq]; exact hmq))
    rw [hrecords, ← hgi, hset, map_map]
    have hmap : w.ctx.sentPackets.toList.map ((ackIf fun p => chunkLive w.ctx q.chunkId && decide (p.chunkId = q.chunkId)) ∘
          fun p => if ackMatches pn level p = true then { p with acknowledged := true } else p) =
        (bareRecords w.ctx).map (ackIf fun p => ackMatches pn level p ||
          (chunkLive w.ctx q.chunkId && decide (p.chunkId = q.chunkId))) := by
      unfold bareRecords
      rw [map_map]
      refine map_congr_left fun p _ => ?_
      show ackIf _ (if ackMatches pn level p = true then { p with acknowledged := true } else p) =
        bareRecord { p with acknowledged := p.acknowledged || (ackMatches pn level p || _) }
      cases hp : ackMatches pn level p with
      | true => simp [ackIf, bareRecord]
      | false => rfl
    rw [hmap, h.records, map_map]
    refine map_congr_left fun p hp => ?_
    show ackIf (fun p => ackMatches pn level p || (chunkLive w.ctx q.chunkId && decide (p.chunkId = q.chunkId)))
      (ackIf (goneBy s.ctx level seen) p) = ackIf (goneBy s.ctx level (seen ++ [pn])) p
    have hchunk : (chunkLive s.ctx p.chunkId && decide (q.chunkId = p.chunkId)) =
        (chunkLive s.ctx q.chunkId && decide (p.chunkId = q.chunkId)) := by
      by_cases he : p.chunkId = q.chunkId
      · rw [he]
      · rw [decide_eq_false he, decide_eq_false (Ne.symm he), Bool.and_false, Bool.and_false]
    have hack : ((p.acknowledged || goneBy s.ctx level seen p) || (ackMatches pn level (ackIf (goneBy s.ctx level seen) p) ||
          (chunkLive w.ctx q.chunkId && decide (p.chunkId = q.chunkId)))) =
        (p.acknowledged || goneBy s.ctx level (seen ++ [pn]) p) := by
      rw [goneBy_snoc, hopen, Option.any_some, hchunk, ackMatches_ackIf, hlw]
      unfold ackMatches
      cases p.acknowledged <;> cases goneBy s.ctx level seen p <;> cases decide (p.pn = pn) <;>
        cases decide (pktTypeToLevel p.pktType = level) <;> simp
    unfold ackIf at hack ⊢
    exact congrArg (fun b => bareRecord { p with acknowledged := b }) hack
  · rw [hlive, h.live, any_snoc, hopen, Option.any_some]
    cases chunkLive s.ctx id <;> by_cases he : id = q.chunkId <;> simp [he, Ne.symm]

theorem Walked.step (h : Walked s.ctx level seen w) (pn now : Nat) :
    Walked s.ctx level (seen ++ [pn]) (markPnAcked w pn level now) := by
  have hslot := openAt_slot w.ctx level pn
  unfold markPnAcked
  dsimp only
  split
  · rename_i hnone
    exact h.idle (by rw [hslot, hnone]; rfl) rfl
  · rename_i i hsome
    have hm := List.find?_some hsome
    exact h.mark (v := { w with marked := w.marked ++ [pn] }) (List.mem_range.1 (List.mem_of_find?_eq_some hsome)) hm rfl now

theorem Walked.samples (now : Nat) : ∀ (pns : List Nat) {seen : List Nat} {w : AckWork}, Walked s.ctx level seen w →
    rttSamples level now w pns =
      (rises w.largestNewlyAckedPn ((ackReached s.ctx level seen pns).filter rttEligible)).map (rttOf now)
  | [], _, _, _ => rfl
  | pn :: pns, seen, w, h => by
    have ih := Walked.samples now pns (h.step pn now)
    rw [markPnAcked_largest] at ih
    have hopen := h.openAt pn
    have hsample := rttSample_openAt w pn level now
    rw [rttSamples, ih, ackReached, filter_append]
    cases hq : (MoqLiveCast.openAt s.ctx level pn).filter (fun p => !goneBy s.ctx level seen p) with
    | none =>
      rw [hq] at hopen
      have hnone : MoqLiveCast.openAt w.ctx level pn = none := by simpa using hopen
      rw [hnone] at hsample
      rw [hsample]
      rfl
    | some q =>
      rw [hq] at hopen
      obtain ⟨p, hp, hpq⟩ := Option.map_eq_some_iff.1 hopen
      have hpn : q.pn = pn := (openAt_spec (Option.eq_some_of_filter_eq_some hq)).2.2.1
      have hel := congrArg rttEligible hpq
      have hof := congrArg (rttOf now) hpq
      have hppn := congrArg QuicRecoverySentPacket.pn hpq
      change rttEligible p = rttEligible q at hel
      change rttOf now p = rttOf now q at hof
      change p.pn = q.pn at hppn
      rw [hp] at hsample
      simp only [Option.filter, hel, hppn] at hsample
      cases he : rttEligible q with
      | false =>
        rw [he] at hsample
        simp only [Bool.false_and, Bool.false_eq_true, if_false, Option.map_none] at hsample
        rw [hsample]
        simp [he]
      | true =>
        rw [he] at hsample
        by_cases hlt : w.largestNewlyAckedPn < q.pn
        · simp only [hlt, decide_true, Bool.and_true, if_true, Option.map_some, hof] at hsample
          rw [hsample]
          simp [he, rises, hlt, rttOf]
        · simp only [hlt, decide_false, Bool.and_false, Bool.false_eq_true, if_false, Option.map_none] at hsample
          rw [hsample]
          simp [he, rises, hlt]

end Step

/-! ## One sample -/

theorem ackReached_sub (ctx : QuicRecoveryCtx) (level : TlsLevel) : ∀ (pns seen : List Nat),
    ∀ p ∈ ackReached ctx level seen pns, p ∈ pns.filterMap (openAt ctx level)
  | [], _, _, h => absurd h not_mem_nil
  | pn :: pns, seen, p, h => by
    rcases List.mem_append.1 h with h | h
    · have hopen := Option.eq_some_of_filter_eq_some (Option.mem_toList.1 h)
      exact List.mem_filterMap.2 ⟨pn, mem_cons_self, hopen⟩
    · obtain ⟨n, hn, hopen⟩ := List.mem_filterMap.1 (ackReached_sub ctx level pns _ p h)
      exact List.mem_filterMap.2 ⟨n, mem_cons_of_mem _ hn, hopen⟩

theorem rttCounted_sub {ctx : QuicRecoveryCtx} {level : TlsLevel} {ack : QuicAckFrame} {p : QuicRecoverySentPacket}
    (h : p ∈ rttCounted ctx level ack) : p ∈ newlyAcked ctx level ack ∧ 0 < p.pn := by
  obtain ⟨hr, hp⟩ := List.mem_filter.1 h
  refine ⟨ackReached_sub ctx level _ _ p hr, ?_⟩
  have hpos := (Bool.and_eq_true _ _ ▸ hp).2
  exact of_decide_eq_true hpos

theorem newlyAcked_unique {ctx : QuicRecoveryCtx} {level : TlsLevel} {ack : QuicAckFrame} {p q : QuicRecoverySentPacket}
    (hp : p ∈ newlyAcked ctx level ack) (hq : q ∈ newlyAcked ctx level ack) (h : p.pn = q.pn) : p = q := by
  obtain ⟨n, -, hn⟩ := List.mem_filterMap.1 hp
  obtain ⟨m, -, hm⟩ := List.mem_filterMap.1 hq
  have hnp := (openAt_spec hn).2.2.1
  have hmq := (openAt_spec hm).2.2.1
  rw [← hnp, h, hmq, hm] at hn
  exact (Option.some.inj hn).symm

theorem rises_pos : ∀ (m : Nat) (l : List QuicRecoverySentPacket), rises m l = rises m (l.filter (fun p => decide (0 < p.pn)))
  | _, [] => rfl
  | m, p :: l => by
    by_cases hp : 0 < p.pn
    · rw [filter_cons_of_pos (by simpa using hp), rises, rises]
      rw [← rises_pos p.pn l, ← rises_pos m l]
    · rw [filter_cons_of_neg (by simpa using hp), rises, if_neg (by omega)]
      exact rises_pos m l

theorem rises_nil {m : Nat} : ∀ {l : List QuicRecoverySentPacket}, (∀ p ∈ l, p.pn ≤ m) → rises m l = []
  | [], _ => rfl
  | p :: l, h => by
    have hp := h p mem_cons_self
    rw [rises, if_neg (by omega)]
    exact rises_nil fun q hq => h q (mem_cons_of_mem _ hq)

theorem rttSamples_counted (s : RecoveryState) (ack : QuicAckFrame) (now : Nat) (level : TlsLevel) :
    rttSamples level now (ackStart s.ctx ack level) (ackWalk ack) = (rises 0 (rttCounted s.ctx level ack)).map (rttOf now) := by
  rw [(walked_start s ack level).samples now]
  show (rises 0 _).map _ = _
  rw [rises_pos, filter_filter]
  congr 3
  funext p
  exact Bool.and_comm _ _

/-- **One sample for an ACK**: `process_ack_ranges` ends, and `update_rtt` was called once if the largest packet that is
newly acknowledged is ack-eliciting and not lost, with its sample, and otherwise not at all. -/
def OneSample (s : RecoveryState) (ack : QuicAckFrame) (now : Nat) (level : TlsLevel) : Prop :=
  ∃ fuel w, processAckRanges fuel s.ctx ack now level = some w ∧ rttSamples level now (ackStart s.ctx ack level) w.marked =
      (((largestNewlyAcked s.ctx level ack).filter rttEligible).map (rttOf now)).toList

theorem oneSample_iff (s : RecoveryState) (ack : QuicAckFrame) (now : Nat) (level : TlsLevel) : OneSample s ack now level ↔
    RangesEnd ack ∧ (rttCounted s.ctx level ack).head? = (largestNewlyAcked s.ctx level ack).filter rttEligible := by
  obtain ⟨hends, hwalk⟩ := processAckRanges_walk s.ctx ack now level
  have hmarked : (markWalk level now (ackStart s.ctx ack level) (ackWalk ack)).marked = ackWalk ack := by
    rw [markWalk_marked]
    rfl
  have hiff : (rises 0 (rttCounted s.ctx level ack)).map (rttOf now) =
        (((largestNewlyAcked s.ctx level ack).filter rttEligible).map (rttOf now)).toList ↔
      (rttCounted s.ctx level ack).head? = (largestNewlyAcked s.ctx level ack).filter rttEligible := by
    cases hl : (largestNewlyAcked s.ctx level ack).filter rttEligible with
    | none =>
      cases hc : rttCounted s.ctx level ack with
      | nil => simp [rises]
      | cons p l =>
        have hpos := (rttCounted_sub (p := p) (by rw [hc]; exact mem_cons_self)).2
        simp [rises, hpos]
    | some q =>
      have hmax := Option.eq_some_of_filter_eq_some hl
      have hq : q ∈ newlyAcked s.ctx level ack := argmax_mem hmax
      cases hc : rttCounted s.ctx level ack with
      | nil => simp [rises]
      | cons p l =>
        obtain ⟨hp, hpos⟩ := rttCounted_sub (p := p) (by rw [hc]; exact mem_cons_self)
        rw [rises, if_pos hpos, List.head?_cons]
        constructor
        · intro h
          have hpq : rttOf now p = rttOf now q := (List.cons.inj h).1
          rw [newlyAcked_unique hp hq (congrArg Prod.fst hpq)]
        · intro h
          obtain rfl := Option.some.inj h
          have hrest : rises p.pn l = [] := rises_nil fun r hr => by
            have hrn := (rttCounted_sub (p := r) (by rw [hc]; exact mem_cons_of_mem _ hr)).1
            exact le_of_mem_argmax hrn hmax
          rw [hrest]
          rfl
  constructor
  · rintro ⟨fuel, w, hw, hsamples⟩
    have hend := hends fuel w hw
    obtain ⟨fuel', hw'⟩ := hwalk hend
    rw [processAckRanges_det hw hw', hmarked, rttSamples_counted] at hsamples
    exact ⟨hend, hiff.1 hsamples⟩
  · rintro ⟨hend, hfirst⟩
    obtain ⟨fuel, hw⟩ := hwalk hend
    refine ⟨fuel, _, hw, ?_⟩
    rw [hmarked, rttSamples_counted]
    exact hiff.2 hfirst

/-- **One sample for an ACK exactly if** no range ends at `2^64 - 1` and the first packet that may be sampled, if there is
one, is the largest that is newly acknowledged, when that one may be sampled. -/
theorem one_rtt_sample_iff (s : RecoveryState) (ack : QuicAckFrame) (now : Nat) (level : TlsLevel) : OneSample s ack now level ↔
    RangesEnd ack ∧ (rttCounted s.ctx level ack).head? = (largestNewlyAcked s.ctx level ack).filter rttEligible :=
  oneSample_iff s ack now level

def twoSent : RecoveryState where
  ctx := { sentPackets := ⟨fun i => { pn := i + 1, chunkId := NO_CHUNK, timeSentMs := 10 * (i + 1), ackEliciting := true
                                      pktType := .short }, 2, 2⟩ }
  wf := ⟨by decide, by decide⟩
  apart := by decide

/-- **Two samples for one ACK**, of packet 1 before packet 2. -/
theorem one_rtt_sample_twice :
    ¬ ∀ (s : RecoveryState) (ack : QuicAckFrame) (now : Nat) (level : TlsLevel), OneSample s ack now level := by
  intro hall
  have h := ((oneSample_iff twoSent ⟨2, 0, 1, []⟩ 50 .application).1 (hall _ _ _ _)).2
  exact absurd h (by decide)

end MoqLiveCast
