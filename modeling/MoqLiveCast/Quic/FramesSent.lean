import MoqLiveCast.Quic.FramesHeld
import MoqLiveCast.Quic.PlainSends
/-!
# FramesSent — every call leaves the frames of unacknowledged packets held

A packet is sent with a fresh chunk that holds its frames, or with the chunk its frames come from.
-/
namespace MoqLiveCast

open List

/-! ## A packet is sent -/

variable (ctx : QuicRecoveryCtx)

theorem sentMakeRoom_keeps : Keeps ctx (sentMakeRoom ctx) := by
  have hcompact : Keeps ctx (sentCompact ctx) := by
    unfold sentCompact
    split
    · exact compactSentPackets_keeps ctx
    · exact Keeps.refl ctx
  unfold sentMakeRoom
  dsimp only
  split
  · split
    · exact hcompact.trans (inflightSub_sameHeld _ _).keeps
    · exact hcompact
  · exact hcompact

theorem chunkFill_trace (a : SentArgs) (id : Nat) : (chunkFill ctx a id).trace = ctx.trace ∧ (chunkFill ctx a id).nextChunkId =
    ctx.nextChunkId ∧ (chunkFill ctx a id).leftoverTaken = ctx.leftoverTaken := by
  unfold chunkFill
  split <;> exact ⟨rfl, rfl, rfl⟩

variable {c : QuicRecoveryChunk}

theorem mem_chunkFill_of_ne {ctx : QuicRecoveryCtx} {a : SentArgs} {id : Nat}
    (hc : c ∈ ctx.chunks) (hid : c.chunkId ≠ id) : c ∈ (chunkFill ctx a id).chunks := by
  unfold chunkFill
  split
  · exact hc
  · exact List.mem_map.2 ⟨c, hc, if_neg hid⟩

theorem mem_chunkFill_of_eq {ctx : QuicRecoveryCtx} {a : SentArgs} {id : Nat}
    (hc : c ∈ ctx.chunks) (hid : c.chunkId = id) (hframes : a.frames ≠ []) :
    ∃ d ∈ (chunkFill ctx a id).chunks, d.chunkId = id ∧ d.state ≠ .acked ∧ d.frames = some a.frames ∧ d.pktType = a.pktType := by
  unfold chunkFill
  rw [if_neg hframes]
  refine ⟨_, mem_map_of_mem hc, ?_⟩
  dsimp only
  rw [if_pos hid]
  exact ⟨hid, fun h => ChunkState.noConfusion h, rfl, rfl⟩

theorem sentChunk_held {ctx : QuicRecoveryCtx} (hids : IdsBelow ctx) (a : SentArgs) (hsrc : ctx.currentRetransChunkId = NO_CHUNK ∨
    (a.frames ≠ [] → Safe ctx ctx.currentRetransChunkId a.pktType a.frames)) : ∃ id, (sentChunk ctx a).1 = some id ∧
    Keeps ctx (sentChunk ctx a).2 ∧ (a.frames ≠ [] → Safe (sentChunk ctx a).2 id a.pktType a.frames) := by
  cases hretrans : retransChunk ctx with
  | some c =>
    have hcurrent : ctx.currentRetransChunkId ≠ NO_CHUNK := fun h => by
      rw [retransChunk_none h] at hretrans
      cases hretrans
    have hfind : chunkFind ctx ctx.currentRetransChunkId = some c := by
      unfold retransChunk at hretrans
      rwa [if_pos hcurrent] at hretrans
    have hid : c.chunkId = ctx.currentRetransChunkId := lookup_key _ hfind
    have heq : sentChunk ctx a =
        (some c.chunkId, ({ ctx with currentRetransChunkId := NO_CHUNK } : QuicRecoveryCtx).updateChunk c.chunkId
          chunkResent) := by
      unfold sentChunk
      rw [hretrans]
    have hkeeps : Keeps ctx (sentChunk ctx a).2 := by
      rw [heq]
      refine Keeps.trans (b := { ctx with currentRetransChunkId := NO_CHUNK })
        (SameHeld.keeps ⟨rfl, rfl, rfl, rfl, rfl⟩) (updateChunk_keeps _ _ (fun c => ?_) (fun c hstate => ?_))
      · unfold chunkResent
        split <;> rfl
      · unfold chunkResent
        split
        · exact ⟨fun h => (by cases h), rfl, rfl⟩
        · exact ⟨hstate, rfl, rfl⟩
    refine ⟨c.chunkId, by rw [heq], hkeeps, fun hframes => ?_⟩
    rw [hid]
    exact hkeeps.safe hids _ _ _ (hsrc.resolve_left hcurrent hframes)
  | none =>
    obtain ⟨ctx', hkept, heq⟩ := sentChunk_new hretrans a
    have hring := (sentChunk_same ctx a).ring
    obtain ⟨htrace, hnext, hleft⟩ := chunkFill_trace (chunkPush ctx' a.now) a ctx.nextChunkId
    obtain ⟨evicted, hevicted⟩ := hkept.trace
    rw [heq] at hring ⊢
    have htrace' : (chunkFill (chunkPush ctx' a.now) a ctx.nextChunkId).trace =
        ctx.trace ++ evicted.map .evicted := htrace.trans hevicted
    have hfresh : ctx'.nextChunkId = ctx.nextChunkId := hkept.nextChunkId
    refine ⟨ctx.nextChunkId, rfl, ?_, fun hframes => ?_⟩
    · refine ⟨fun hw => hring ▸ hw, fun hi c hc => ?_, fun hi id t f hs => ?_, fun pn id el t f hs => ?_,
        fun _ p hp f hf => ⟨p, hring ▸ hp, rfl, rfl, hf⟩, hleft.trans hkept.leftoverTaken⟩
      · rw [hnext]
        show c.chunkId < ctx'.nextChunkId + 1
        rw [hfresh]
        rcases mem_chunkFill hc with hc | ⟨hid, -⟩
        · rcases List.mem_append.1 hc with hc | hc
          · exact Nat.lt_succ_of_lt (hi c (hkept.subset c hc))
          · rw [List.mem_singleton.1 hc, ← hfresh]
            exact Nat.lt_succ_self _
        · rw [hid]
          exact Nat.lt_succ_self _
      · unfold Safe
        rw [htrace']
        rcases hs with h | h | h | ⟨c, hc, hid, hstate, hrest⟩
        · exact Or.inl (mem_append_left _ h)
        · exact Or.inr (Or.inl (mem_append_left _ h))
        · exact Or.inr (Or.inr (Or.inl (mem_append_left _ h)))
        · rcases hkept.gone c hc with hc' | hacked | hgone
          · refine Or.inr (Or.inr (Or.inr ⟨c, mem_chunkFill_of_ne (mem_append_left _ hc') ?_, hid, hstate, hrest⟩))
            exact Nat.ne_of_lt (hi c hc)
          · exact absurd hacked hstate
          · rw [← hid]
            rw [hevicted] at hgone
            exact Or.inr (Or.inl hgone)
      · rw [htrace'] at hs
        rcases List.mem_append.1 hs with hs | hs
        · exact hs
        · obtain ⟨x, -, hx⟩ := List.mem_map.1 hs
          cases hx
    · exact Or.inr (Or.inr (Or.inr (mem_chunkFill_of_eq (mem_append_right _ mem_cons_self) hfresh hframes)))

theorem mem_ringStore {r : SentRing} (hwf : r.Wf) {x p : QuicRecoverySentPacket} (h : p ∈ (ringStore r x).toList) :
    p = x ∨ p ∈ r.toList := by
  unfold ringStore at h
  by_cases hfull : QUIC_RECOVERY_MAX_SENT_PACKETS ≤ r.count
  · rw [if_pos hfull, Ring.toList_overwrite hwf (Nat.le_antisymm hwf.count_le hfull)] at h
    rcases List.mem_append.1 h with h | h
    · exact Or.inr (mem_of_mem_tail h)
    · exact Or.inl (List.mem_singleton.1 h)
  · rw [if_neg hfull, Ring.toList_push hwf (Nat.lt_of_not_le hfull)] at h
    rcases List.mem_append.1 h with h | h
    · exact Or.inr h
    · exact Or.inl (List.mem_singleton.1 h)

theorem ringStore_wf {r : SentRing} (hwf : r.Wf) (x : QuicRecoverySentPacket) : (ringStore r x).Wf := by
  unfold ringStore
  by_cases hfull : QUIC_RECOVERY_MAX_SENT_PACKETS ≤ r.count
  · rw [if_pos hfull]
    exact Ring.wf_overwrite hwf x
  · rw [if_neg hfull]
    exact Ring.wf_push (Nat.lt_of_not_le hfull) x

theorem sentNotify_trace (a : SentArgs) (id : Nat) : ∃ l, (sentNotify ctx a (some id)).trace = ctx.trace ++
    RecoveryEffect.sent a.pn id a.ackEliciting a.pktType a.frames :: l ∧ ∀ e ∈ l, ∃ pn bytes now, e = .ccPacketSent pn bytes
    now := by
  unfold sentNotify
  dsimp only
  by_cases ht : a.pktType = .short
  · refine ⟨[.ccPacketSent a.pn a.bytesSent a.now], ?_, fun e he => ⟨_, _, _, List.mem_singleton.1 he⟩⟩
    rw [if_pos ht]
    cases a.ackEliciting <;> simp [QuicRecoveryCtx.call]
  · refine ⟨[], ?_, fun e he => absurd he not_mem_nil⟩
    rw [if_neg ht]
    cases a.ackEliciting <;> simp [QuicRecoveryCtx.call]

theorem sentNotify_leftover (a : SentArgs) (chunk : Option Nat) : (sentNotify ctx a chunk).leftoverTaken = ctx.leftoverTaken := by
  unfold sentNotify
  dsimp only
  split <;> split <;> rfl

theorem sentStore_held {ctx : QuicRecoveryCtx} (h : Held ctx) (a : SentArgs) {id : Nat} (hsafe : a.frames ≠ [] →
    Safe ctx id a.pktType a.frames) : Held (sentNotify (sentStore ctx (sentRecord a (some id))) a (some id)) := by
  obtain ⟨l, htrace, hl⟩ := sentNotify_trace (sentStore ctx (sentRecord a (some id))) a id
  obtain ⟨hchunks, -, hnext⟩ := sentNotify_chunks (sentStore ctx (sentRecord a (some id))) a (some id)
  have hring := sentNotify_ring (sentStore ctx (sentRecord a (some id))) a (some id)
  generalize sentNotify (sentStore ctx (sentRecord a (some id))) a (some id) = ctx' at *
  have hmono : ∀ {i t f}, Safe ctx i t f → Safe ctx' i t f := fun hs =>
    hs.mono (fun e he => by rw [htrace]; exact mem_append_left _ he) (fun c hc => by rw [hchunks]; exact hc)
  refine ⟨?_, ?_, fun pn i el t f hs hf => ?_, fun p hp f hf => ?_⟩
  · rw [hring]
    exact ringStore_wf h.wf _
  · unfold IdsBelow
    rw [hchunks, hnext]
    exact h.ids
  · rw [htrace] at hs
    rcases List.mem_append.1 hs with hs | hs
    · exact hmono (h.sent pn i el t f hs hf)
    · rcases List.mem_cons.1 hs with hs | hs
      · injection hs with _ hi _ ht hframes
        subst hi ht hframes
        exact hmono (hsafe hf)
      · obtain ⟨_, _, _, hcc⟩ := hl _ hs
        cases hcc
  · rw [hring] at hp
    rcases mem_ringStore h.wf hp with rfl | hp
    · have hframes : a.frames ≠ [] ∧ f = a.frames := by
        by_cases hnil : a.frames = []
        · simp [sentRecord, hnil] at hf
        · refine ⟨hnil, ?_⟩
          simp only [sentRecord, hnil, Option.isNone_some, Bool.false_eq_true, or_self, if_false, Option.some.injEq] at hf
          exact hf.symm
      rw [hframes.2]
      exact hmono (hsafe hframes.1)
    · exact hmono (h.records p hp f hf)

theorem packetSent_held {ctx : QuicRecoveryCtx} (h : Held ctx) (a : SentArgs) (hsrc : ctx.currentRetransChunkId = NO_CHUNK ∨
    (a.frames ≠ [] → Safe ctx ctx.currentRetransChunkId a.pktType a.frames)) : Held (quicRecoveryOnPacketSent ctx a) := by
  have hroom := sentMakeRoom_keeps ctx
  obtain ⟨-, hcurrent, -⟩ := sentMakeRoom_chunks ctx
  obtain ⟨id, hid, hkeeps, hsafe⟩ := sentChunk_held (hroom.ids h.ids) a (by
    rw [hcurrent]
    exact hsrc.imp_right (fun hs hframes => hroom.safe h.ids _ _ _ (hs hframes)))
  have hheld := hkeeps.held (hroom.held h)
  unfold quicRecoveryOnPacketSent
  dsimp only
  rw [hid]
  refine Keeps.held ?_ (sentStore_held hheld a hsafe)
  unfold sentArm
  split
  · exact (armPtoTimer_sameHeld _).keeps
  · exact Keeps.refl _

theorem packetSent_leftover (a : SentArgs) : (quicRecoveryOnPacketSent ctx a).leftoverTaken = ctx.leftoverTaken := by
  have harm : ∀ c : QuicRecoveryCtx, (sentArm c a).leftoverTaken = c.leftoverTaken := fun c => by
    unfold sentArm armPtoTimer
    split
    · split <;> rfl
    · rfl
  have hchunk : ∀ c : QuicRecoveryCtx, (sentChunk c a).2.leftoverTaken = c.leftoverTaken := fun c => by
    cases hretrans : retransChunk c with
    | some d =>
      unfold sentChunk
      rw [hretrans]
      rfl
    | none =>
      obtain ⟨c', hkept, heq⟩ := sentChunk_new hretrans a
      rw [heq, (chunkFill_trace _ a _).2.2]
      exact hkept.leftoverTaken
  unfold quicRecoveryOnPacketSent
  dsimp only
  rw [harm, sentNotify_leftover]
  exact (hchunk _).trans (sentMakeRoom_keeps ctx).leftover

/-! ## Steps that may send -/

def HeldSoFar (ctx : QuicRecoveryCtx) : Prop := ctx.leftoverTaken = 0 → Held ctx

theorem Keeps.heldSoFar {a b : QuicRecoveryCtx} (h : Keeps a b) (hheld : HeldSoFar a) : HeldSoFar b := fun hl =>
  h.held (hheld (h.leftover ▸ hl))

theorem sendNew_heldSoFar {ctx : QuicRecoveryCtx} (a : SentArgs) (h : HeldSoFar ctx) : HeldSoFar (sendNew ctx a) := by
  intro hl
  unfold sendNew at hl ⊢
  rw [packetSent_leftover] at hl
  unfold noteLeftover at hl ⊢
  by_cases hcurrent : ctx.currentRetransChunkId ≠ NO_CHUNK
  · rw [if_pos hcurrent] at hl
    exact absurd hl (Nat.succ_ne_zero _)
  · rw [if_neg hcurrent] at hl ⊢
    exact packetSent_held (h hl) a (Or.inl (not_not.1 hcurrent))

theorem sendImm_held {ctx : QuicRecoveryCtx} (h : Held ctx) (t : PktType) (f : List Byte) (now : Nat) (pn : Option Nat)
    (hsafe : f ≠ [] → Safe ctx ctx.currentRetransChunkId t f) : Held (sendImm ctx t f now pn) := by
  have hcall : Keeps ctx (ctx.call (.sendImm t f)) := call_keeps (fun _ _ _ _ _ he => by cases he)
  unfold sendImm
  cases pn with
  | none => exact hcall.held h
  | some pn => exact packetSent_held (hcall.held h) _ (Or.inr (fun hf => hcall.safe h.ids _ _ _ (hsafe hf)))

theorem sendImm_leftover (t : PktType) (f : List Byte) (now : Nat) (pn : Option Nat) :
    (sendImm ctx t f now pn).leftoverTaken = ctx.leftoverTaken := by
  unfold sendImm
  cases pn with
  | none => rfl
  | some pn => exact packetSent_leftover _ _

/-! ## `detect_losses` -/

theorem lossStale_keeps (idx : Nat) : Keeps ctx (lossStale ctx idx) :=
  (inflightLeave_sameHeld ctx _).keeps.trans (dropFrames_keeps _ _ rfl)

theorem lossFirst_keeps {w : LossWork} {i : Nat} (hi : i < w.ctx.sentPackets.count) :
    Keeps w.ctx (lossFirst w (w.ctx.sentPackets.slot i)).ctx := by
  unfold lossFirst
  refine Keeps.trans (setPacket_keeps (w.ctx.sentPackets.slot i) (fun f hf => ?_))
    (SameHeld.keeps ⟨rfl, rfl, rfl, rfl, rfl⟩)
  exact ⟨w.ctx.sentPackets.get i, mem_map_of_mem (List.mem_range.2 hi), rfl, rfl, hf⟩

theorem lossLeave_keeps (idx : Nat) (c : Option QuicRecoveryChunk) : Keeps ctx (lossLeave ctx idx c) := by
  unfold lossLeave
  refine Keeps.trans ?_ (chunkPtr_keeps _ c (fun _ => rfl) (fun _ _ => ⟨fun h => ChunkState.noConfusion h, rfl, rfl⟩))
  exact (inflightSub_sameHeld ctx _).keeps.trans (dropFrames_keeps _ _ rfl)

theorem lossRetransmit_leftover (env : RecoveryEnv) (now : Nat) (p : QuicRecoverySentPacket)
    (c : Option QuicRecoveryChunk) (w : LossWork) : (lossRetransmit env now p c w).ctx.leftoverTaken = w.ctx.leftoverTaken := by
  have hptr : ∀ (ctx : QuicRecoveryCtx) f, (chunkPtr ctx c f).leftoverTaken = ctx.leftoverTaken := fun ctx f => by
    cases c <;> rfl
  unfold lossRetransmit
  split
  · dsimp only
    rw [hptr, sendImm_leftover]
  · rfl

variable {env : RecoveryEnv}

theorem lossRetransmit_held {now : Nat} {p : QuicRecoverySentPacket} {w : LossWork} (h : Held w.ctx) (hp : ∀ f, p.frames =
    some f → Safe w.ctx p.chunkId p.pktType f) (c : Option QuicRecoveryChunk) : Held (lossRetransmit env now p c w).ctx := by
  unfold lossRetransmit
  split
  · dsimp only
    generalize hc : ({ w.ctx with currentRetransChunkId := p.chunkId } : QuicRecoveryCtx) = ctx
    have hsame : Keeps w.ctx ctx := by
      rw [← hc]
      exact SameHeld.keeps ⟨rfl, rfl, rfl, rfl, rfl⟩
    have hcurrent : ctx.currentRetransChunkId = p.chunkId := by rw [← hc]
    refine (chunkPtr_keeps _ c (f := chunkRetransmitted now) (fun _ => rfl) (fun _ hs => ⟨hs, rfl, rfl⟩)).held
      (sendImm_held (hsame.held h) _ _ _ _ (fun hf => ?_))
    rw [hcurrent]
    cases hframes : p.frames with
    | none =>
      rw [hframes] at hf
      exact absurd rfl hf
    | some f => exact hsame.safe h.ids _ _ _ (hp f hframes)
  · exact h

theorem lossHit_heldSoFar {now : Nat} {w : LossWork} {i : Nat} (hi : i < w.ctx.sentPackets.count)
    (hheld : HeldSoFar w.ctx) : HeldSoFar (lossHit env now w (w.ctx.sentPackets.slot i)).ctx := by
  have hfirst := lossFirst_keeps (w := w) hi
  have hcell : Held w.ctx → ∀ f, (w.ctx.sentPackets.get i).frames = some f →
      Safe w.ctx (w.ctx.sentPackets.get i).chunkId (w.ctx.sentPackets.get i).pktType f :=
    fun h => h.records _ (mem_map_of_mem (List.mem_range.2 hi))
  unfold lossHit
  dsimp only
  split
  · exact (lossStale_keeps w.ctx (w.ctx.sentPackets.slot i)).heldSoFar hheld
  · refine (lossLeave_keeps _ _ _).heldSoFar ?_
    intro hl
    have h := hheld (by rw [← hl, lossRetransmit_leftover]; exact hfirst.leftover.symm)
    exact lossRetransmit_held (hfirst.held h) (fun f hf => hfirst.safe h.ids _ _ _ (hcell h f hf)) _

/-! ## The calls -/

theorem probeSend_heldSoFar {now : Nat} {w : ProbeWork} (hc : c ∈ w.ctx.chunks) (hstate : c.state ≠ .acked) {f : List Byte}
    (hf : c.frames = some f) (hheld : HeldSoFar w.ctx) : HeldSoFar (probeSend env now w c).ctx := by
  unfold probeSend
  dsimp only
  generalize hctx : ({ w.ctx with currentRetransChunkId := c.chunkId } : QuicRecoveryCtx) = ctx
  have hsame : Keeps w.ctx ctx := by
    rw [← hctx]
    exact SameHeld.keeps ⟨rfl, rfl, rfl, rfl, rfl⟩
  have hsafe : Safe ctx ctx.currentRetransChunkId c.pktType f := by
    rw [← hctx]
    exact Or.inr (Or.inr (Or.inr ⟨c, hc, rfl, hstate, hf, rfl⟩))
  refine (updateChunk_keeps _ c.chunkId (f := chunkRetransmitted now) (fun _ => rfl)
    (fun _ hs => ⟨hs, rfl, rfl⟩)).heldSoFar ?_
  rw [hf]
  intro hl
  rw [sendImm_leftover] at hl
  exact sendImm_held (hsame.heldSoFar hheld hl) _ _ _ _ (fun _ => hsafe)

theorem heldSoFar_inv : RecoveryInv (fun _ _ => True) HeldSoFar where
  same h := (SameHeld.keeps h).heldSoFar
  call h := (call_keeps h).heldSoFar
  mark hi := (markPacket_keeps hi).heldSoFar
  markAcked h := (chunkMarkAcked_keeps h).heldSoFar
  compact := (compactSentPackets_keeps _).heldSoFar
  clearSpace t := (recoveryClearSpace_keeps _ t).heldSoFar
  hit hi _ := lossHit_heldSoFar hi
  probe hc hstate hf := probeSend_heldSoFar hc hstate hf
  new _ := sendNew_heldSoFar _

theorem held_init : Held {} :=
  ⟨⟨by decide, by decide⟩, fun _ hc => absurd hc not_mem_nil, fun _ _ _ _ _ hs => absurd hs not_mem_nil,
    fun _ hp => absurd hp not_mem_nil⟩

theorem run_heldSoFar {fuel : Nat} {calls : List RecoveryCall} {ctx : QuicRecoveryCtx}
    (hrun : calls.foldlM (recoveryStep fuel) {} = some ctx) : HeldSoFar ctx :=
  heldSoFar_inv.run (stepsOkM_of_forall _ _ calls _ fun call _ c =>
    newSendsOk_of_forall _ (fun _ _ => trivial) fuel c call) hrun fun _ => held_init

end MoqLiveCast
