import MoqLiveCast.Quic.Attributed
import MoqLiveCast.Quic.FramesRun
/-!
# AttributedRun — an acknowledgement retires the frames the acknowledged packet carried

`send_imm_fn` is called with the chunk of the frames it is to send, and a packet sent otherwise finds no chunk named:
then the packets of a chunk are alike in every state a run reaches.
-/
namespace MoqLiveCast

/-! ## A packet is sent -/

/-- A packet that may be recorded under a chunk: it carries what the packets before it carried. -/
structure Joins (ctx : QuicRecoveryCtx) (id : Nat) (a : SentArgs) : Prop where
  alike : ∀ {pn el t f}, RecoveryEffect.sent pn id el t f ∈ ctx.trace → f = a.frames ∧ (a.frames ≠ [] → t = a.pktType)
  live : a.frames ≠ [] → NotAcked ctx id

/-- What `sentChunk` does for a packet that is recorded under `id`. -/
structure ChunkJoined (ctx : QuicRecoveryCtx) (a : SentArgs) (id : Nat) (ctx' : QuicRecoveryCtx) : Prop where
  ring : ctx'.sentPackets = ctx.sentPackets
  next : ctx.nextChunkId ≤ ctx'.nextChunkId
  below : id < ctx'.nextChunkId
  trace : ∀ pn i el t f, RecoveryEffect.sent pn i el t f ∈ ctx'.trace ↔ RecoveryEffect.sent pn i el t f ∈ ctx.trace
  unique : ∀ c ∈ ctx'.chunks, ∀ d ∈ ctx'.chunks, c.chunkId = d.chunkId → c = d
  /-- a chunk was there before, or it is the packet's own -/
  chunks : ∀ d ∈ ctx'.chunks, (∃ c ∈ ctx.chunks, c.chunkId = d.chunkId ∧ (d.state = .acked ↔ c.state = .acked) ∧
    d.frames = c.frames ∧ d.pktType = c.pktType) ∨
    d.chunkId = id ∧ d.state ≠ .acked ∧ d.frames = heldFrames a.frames ∧ (a.frames ≠ [] → d.pktType = a.pktType)

section Sent

variable {ctx ctx' : QuicRecoveryCtx} {a : SentArgs} {id : Nat}

theorem sentRecord_frames {g : List Byte} (h : (sentRecord a (some id)).frames = some g) : g = a.frames ∧ g ≠ [] := by
  unfold sentRecord at h
  by_cases hnil : a.frames = []
  · simp [hnil] at h
  · simp only [hnil, Option.isNone_some, Bool.false_eq_true, or_self, if_false, Option.some.injEq] at h
    rw [← h]
    exact ⟨rfl, hnil⟩

theorem ChunkJoined.notAcked (hc : ChunkJoined ctx a id ctx') {i : Nat} (h : NotAcked ctx i) : NotAcked ctx' i := by
  intro d hd hid
  rcases hc.chunks d hd with ⟨c, hmem, hcid, hstate, -⟩ | ⟨-, hstate, -⟩
  · exact fun hacked => h c hmem (hcid.trans hid) (hstate.1 hacked)
  · exact hstate

theorem ChunkJoined.held (hc : ChunkJoined ctx a id ctx') (h : Attributed ctx) (hj : Joins ctx id a)
    {d : QuicRecoveryChunk} (hd : d ∈ ctx'.chunks) (hid : d.chunkId = id) (hstate : d.state ≠ .acked) :
    d.frames = heldFrames a.frames ∧ (a.frames ≠ [] → d.pktType = a.pktType) := by
  rcases hc.chunks d hd with ⟨c, hmem, hcid, hiff, hframes, htype⟩ | ⟨-, -, hframes, htype⟩
  · obtain ⟨pn, el, t, f, hs⟩ := h.source c hmem
    obtain ⟨hf, ht⟩ := h.chunk hs c hmem rfl (fun hacked => hstate (hiff.2 hacked))
    rw [hcid, hid] at hs
    obtain ⟨rfl, hta⟩ := hj.alike hs
    rw [hframes, htype]
    exact ⟨hf, fun hne => (ht hne).trans (hta hne)⟩
  · exact ⟨hframes, htype⟩

theorem ChunkJoined.stored (hc : ChunkJoined ctx a id ctx') (h : Attributed ctx) (hj : Joins ctx id a) :
    Attributed (sentNotify (sentStore ctx' (sentRecord a (some id))) a (some id)) := by
  obtain ⟨l, htrace, hl⟩ := sentNotify_trace (sentStore ctx' (sentRecord a (some id))) a id
  obtain ⟨hchunks, -, hnext⟩ := sentNotify_chunks (sentStore ctx' (sentRecord a (some id))) a (some id)
  have hring := sentNotify_ring (sentStore ctx' (sentRecord a (some id))) a (some id)
  generalize sentNotify (sentStore ctx' (sentRecord a (some id))) a (some id) = ctx'' at htrace hchunks hnext hring ⊢
  have hwf : ctx'.sentPackets.Wf := hc.ring ▸ h.wf
  have hold : ∀ {pn i el t f}, RecoveryEffect.sent pn i el t f ∈ ctx.trace →
      RecoveryEffect.sent pn i el t f ∈ ctx''.trace := fun hs => by
    rw [htrace]
    exact List.mem_append_left _ ((hc.trace _ _ _ _ _).2 hs)
  have hown : RecoveryEffect.sent a.pn id a.ackEliciting a.pktType a.frames ∈ ctx''.trace := by
    rw [htrace]
    exact List.mem_append_right _ List.mem_cons_self
  have hcases : ∀ {pn i el t f}, RecoveryEffect.sent pn i el t f ∈ ctx''.trace →
      RecoveryEffect.sent pn i el t f ∈ ctx.trace ∨ (i = id ∧ t = a.pktType ∧ f = a.frames) := fun hs => by
    rw [htrace] at hs
    rcases List.mem_append.1 hs with hs | hs
    · exact Or.inl ((hc.trace _ _ _ _ _).1 hs)
    · rcases List.mem_cons.1 hs with hs | hs
      · injection hs with _ hi _ ht hf
        exact Or.inr ⟨hi, ht, hf⟩
      · obtain ⟨_, _, _, hcc⟩ := hl _ hs
        cases hcc
  have hrecords : ∀ p ∈ ctx''.sentPackets.toList, p = sentRecord a (some id) ∨ p ∈ ctx.sentPackets.toList := fun p hp => by
    rw [hring] at hp
    rw [← hc.ring]
    exact mem_ringStore hwf hp
  have hopen : ∀ {i}, NotAcked ctx i → NotAcked ctx'' i := fun hn => by
    unfold NotAcked
    rw [hchunks]
    exact hc.notAcked hn
  have hchunks' : ctx''.chunks = ctx'.chunks := hchunks
  have hnext' : ctx''.nextChunkId = ctx'.nextChunkId := hnext
  refine ⟨?_, fun hs => ?_, fun hs hs' => ?_, ?_, fun d hd => ?_, fun hs d hd hid hstate => ?_, fun p hp => ?_,
    fun p hp hack hframes => ?_⟩
  · rw [hring]
    exact ringStore_wf hwf _
  · rw [hnext']
    rcases hcases hs with hs | ⟨rfl, -⟩
    · exact Nat.lt_of_lt_of_le (h.below hs) hc.next
    · exact hc.below
  · rcases hcases hs with hs | ⟨rfl, rfl, rfl⟩ <;> rcases hcases hs' with hs' | ⟨he, rfl, rfl⟩
    · exact h.alike hs hs'
    · obtain ⟨hf, ht⟩ := hj.alike (he ▸ hs)
      exact ⟨hf.symm, fun hne => (ht (hf ▸ hne)).symm⟩
    · exact hj.alike hs'
    · exact ⟨rfl, fun _ => rfl⟩
  · rw [hchunks']
    exact hc.unique
  · rw [hchunks'] at hd
    rcases hc.chunks d hd with ⟨c, hmem, hcid, -⟩ | ⟨hid, -⟩
    · obtain ⟨pn, el, t, f, hs⟩ := h.source c hmem
      exact ⟨pn, el, t, f, hcid ▸ hold hs⟩
    · exact ⟨_, _, _, _, hid ▸ hown⟩
  · rw [hchunks'] at hd
    rcases hcases hs with hs | ⟨rfl, rfl, rfl⟩
    · rcases hc.chunks d hd with ⟨c, hmem, hcid, hiff, hframes, htype⟩ | ⟨hdid, -, hframes, htype⟩
      · rw [hframes, htype]
        exact h.chunk hs c hmem (hcid.trans hid) (fun hacked => hstate (hiff.2 hacked))
      · obtain ⟨rfl, ht⟩ := hj.alike (hdid.symm.trans hid ▸ hs)
        exact ⟨hframes, fun hne => (htype hne).trans (ht hne).symm⟩
    · exact hc.held h hj hd hid hstate
  · rcases hrecords p hp with rfl | hp
    · exact ⟨a.frames, hown, fun g hg => sentRecord_frames hg⟩
    · obtain ⟨f, hs, hf⟩ := h.record p hp
      exact ⟨f, hold hs, hf⟩
  · rcases hrecords p hp with rfl | hp
    · obtain ⟨g, hg⟩ := Option.isSome_iff_exists.1 hframes
      obtain ⟨rfl, hne⟩ := sentRecord_frames hg
      exact hopen (hj.live hne)
    · exact hopen (h.live p hp hack hframes)

theorem sentChunk_retrans (h : Attributed ctx) {c : QuicRecoveryChunk} (hretrans : retransChunk ctx = some c) :
    (sentChunk ctx a).1 = some c.chunkId ∧ ChunkJoined ctx a c.chunkId (sentChunk ctx a).2 := by
  have hmem : c ∈ ctx.chunks := by
    unfold retransChunk at hretrans
    split at hretrans
    · exact lookup_mem _ hretrans
    · cases hretrans
  have heq : sentChunk ctx a = (some c.chunkId,
      ({ ctx with currentRetransChunkId := NO_CHUNK } : QuicRecoveryCtx).updateChunk c.chunkId chunkResent) := by
    unfold sentChunk
    rw [hretrans]
  have hresent : ∀ d : QuicRecoveryChunk, (chunkResent d).chunkId = d.chunkId ∧
      ((chunkResent d).state = .acked ↔ d.state = .acked) ∧ (chunkResent d).frames = d.frames ∧
      (chunkResent d).pktType = d.pktType := fun d => by
    unfold chunkResent
    split
    · rename_i hs
      rw [hs]
      exact ⟨rfl, by simp, rfl, rfl⟩
    · exact ⟨rfl, Iff.rfl, rfl, rfl⟩
  have hupdate : ∀ d : QuicRecoveryChunk, (if d.chunkId = c.chunkId then chunkResent d else d).chunkId = d.chunkId ∧
      ((if d.chunkId = c.chunkId then chunkResent d else d).state = .acked ↔ d.state = .acked) ∧
      (if d.chunkId = c.chunkId then chunkResent d else d).frames = d.frames ∧
      (if d.chunkId = c.chunkId then chunkResent d else d).pktType = d.pktType := fun d => by
    split
    · exact hresent d
    · exact ⟨rfl, Iff.rfl, rfl, rfl⟩
  obtain ⟨pn, el, t, f, hs⟩ := h.source c hmem
  rw [heq]
  refine ⟨rfl, rfl, Nat.le_refl _, h.below hs, fun _ _ _ _ _ => Iff.rfl, fun d hd e he hid => ?_, fun d hd => Or.inl ?_⟩
  · obtain ⟨d₀, hd₀, rfl⟩ := List.mem_map.1 hd
    obtain ⟨e₀, he₀, rfl⟩ := List.mem_map.1 he
    rw [(hupdate d₀).1, (hupdate e₀).1] at hid
    rw [h.unique d₀ hd₀ e₀ he₀ hid]
  · obtain ⟨d₀, hd₀, rfl⟩ := List.mem_map.1 hd
    obtain ⟨hid, hstate, hframes, htype⟩ := hupdate d₀
    exact ⟨d₀, hd₀, hid.symm, hstate, hframes, htype⟩

theorem sentChunk_fresh (h : Attributed ctx) (hretrans : retransChunk ctx = none) :
    (sentChunk ctx a).1 = some ctx.nextChunkId ∧ ChunkJoined ctx a ctx.nextChunkId (sentChunk ctx a).2 := by
  have hids : IdsBelow ctx := fun c hc => by
    obtain ⟨pn, el, t, f, hs⟩ := h.source c hc
    exact h.below hs
  obtain ⟨ctx', hkept, heq⟩ := sentChunk_new hretrans a
  have hring := (sentChunk_same ctx a).ring
  obtain ⟨htrace, hnext, -⟩ := chunkFill_trace (chunkPush ctx' a.now) a ctx.nextChunkId
  obtain ⟨evicted, hevicted⟩ := hkept.trace
  have hfresh : ctx'.nextChunkId = ctx.nextChunkId := hkept.nextChunkId
  have hnew : ∀ d ∈ ctx'.chunks, d.chunkId ≠ ctx.nextChunkId := fun d hd => Nat.ne_of_lt (hids d (hkept.subset d hd))
  obtain ⟨n, hchunks, hn⟩ : ∃ n, (chunkFill (chunkPush ctx' a.now) a ctx.nextChunkId).chunks = ctx'.chunks ++ [n] ∧
      n.chunkId = ctx.nextChunkId ∧ n.state ≠ .acked ∧ n.frames = heldFrames a.frames ∧
      (a.frames ≠ [] → n.pktType = a.pktType) := by
    unfold chunkFill heldFrames
    by_cases hnil : a.frames = []
    · rw [if_pos hnil, if_pos hnil]
      exact ⟨_, rfl, hfresh, fun he => ChunkState.noConfusion he, rfl, fun hne => absurd hnil hne⟩
    · rw [if_neg hnil, if_neg hnil]
      refine ⟨⟨ctx'.nextChunkId, .sending, a.now, a.bytesSent, some a.frames, 0, a.pktType, a.now⟩, ?_, hfresh,
        fun he => ChunkState.noConfusion he, rfl, fun _ => rfl⟩
      show (ctx'.chunks ++ [_]).map _ = _
      rw [List.map_append]
      refine congrArg₂ (· ++ ·) ?_ ?_
      · conv_rhs => rw [← List.map_id ctx'.chunks]
        exact List.map_congr_left (fun d hd => if_neg (hnew d hd))
      · simp [hfresh]
  rw [heq] at hring ⊢
  have hmem : ∀ d ∈ (chunkFill (chunkPush ctx' a.now) a ctx.nextChunkId).chunks, d ∈ ctx.chunks ∧ d.chunkId ≠ n.chunkId ∨
      d = n := fun d hd => by
    rw [hchunks] at hd
    rcases List.mem_append.1 hd with hd | hd
    · exact Or.inl ⟨hkept.subset d hd, hn.1 ▸ hnew d hd⟩
    · exact Or.inr (List.mem_singleton.1 hd)
  refine ⟨rfl, hring, ?_, ?_, fun pn i el t f => ?_, fun d hd e he hid => ?_, fun d hd => ?_⟩
  · rw [hnext]
    exact Nat.le_trans (Nat.le_of_eq hfresh.symm) (Nat.le_succ _)
  · rw [hnext]
    exact Nat.lt_succ_of_le (Nat.le_of_eq hfresh.symm)
  · rw [htrace]
    show _ ∈ ctx'.trace ↔ _
    rw [hevicted, List.mem_append]
    refine ⟨fun hs => hs.resolve_right (fun hs => ?_), Or.inl⟩
    obtain ⟨x, -, hx⟩ := List.mem_map.1 hs
    cases hx
  · rcases hmem d hd with ⟨hd, hdn⟩ | rfl <;> rcases hmem e he with ⟨he, hen⟩ | rfl
    · exact h.unique d hd e he hid
    · exact absurd hid hdn
    · exact absurd hid.symm hen
    · rfl
  · rcases hmem d hd with ⟨hd, -⟩ | rfl
    · exact Or.inl ⟨d, hd, rfl, Iff.rfl, rfl, rfl⟩
    · exact Or.inr hn

theorem sentMakeRoom_attributed (h : Attributed ctx) : Attributed (sentMakeRoom ctx) := by
  have hcompact : Attributed (sentCompact ctx) := by
    unfold sentCompact
    split
    · exact h.compact
    · exact h
  unfold sentMakeRoom
  dsimp only
  split
  · split
    · exact hcompact.same (inflightSub_sameHeld _ _)
    · exact hcompact
  · exact hcompact

theorem sentChunk_joined (h : Attributed ctx) (hsrc : ∀ c, retransChunk ctx = some c → Joins ctx c.chunkId a) :
    ∃ id, (sentChunk ctx a).1 = some id ∧ Joins ctx id a ∧ ChunkJoined ctx a id (sentChunk ctx a).2 := by
  cases hretrans : retransChunk ctx with
  | some c =>
    obtain ⟨hid, hjoined⟩ := sentChunk_retrans (a := a) h hretrans
    exact ⟨c.chunkId, hid, hsrc c hretrans, hjoined⟩
  | none =>
    obtain ⟨hid, hjoined⟩ := sentChunk_fresh (a := a) h hretrans
    refine ⟨ctx.nextChunkId, hid, ⟨fun hs => absurd (h.below hs) (Nat.lt_irrefl _), fun _ c hc he => ?_⟩, hjoined⟩
    obtain ⟨pn, el, t, f, hs⟩ := h.source c hc
    exact absurd (he ▸ h.below hs) (Nat.lt_irrefl _)

theorem sentMakeRoom_retrans (ctx : QuicRecoveryCtx) : retransChunk (sentMakeRoom ctx) = retransChunk ctx := by
  obtain ⟨hchunks, hcurrent, -⟩ := sentMakeRoom_chunks ctx
  unfold retransChunk chunkFind
  rw [hchunks, hcurrent]

theorem joins_room (hj : Joins ctx id a) : Joins (sentMakeRoom ctx) id a := by
  obtain ⟨hchunks, -, -⟩ := sentMakeRoom_chunks ctx
  refine ⟨fun hs => hj.alike ((sentMakeRoom_keeps ctx).sent _ _ _ _ _ hs), fun hne => ?_⟩
  unfold NotAcked
  rw [hchunks]
  exact hj.live hne

theorem packetSent_attributed (h : Attributed ctx) (hsrc : ∀ c, retransChunk ctx = some c → Joins ctx c.chunkId a) :
    Attributed (quicRecoveryOnPacketSent ctx a) ∧ ∀ i, NotAcked ctx i → NotAcked (quicRecoveryOnPacketSent ctx a) i := by
  have hroom := sentMakeRoom_attributed h
  obtain ⟨hchunks, -, -⟩ := sentMakeRoom_chunks ctx
  obtain ⟨hsent, -, -⟩ := packetSent_chunks ctx a
  obtain ⟨id, hid, hj, hjoined⟩ := sentChunk_joined (a := a) hroom (fun c hc => by
    rw [sentMakeRoom_retrans] at hc
    exact joins_room (hsrc c hc))
  refine ⟨?_, fun i hn => ?_⟩
  · have hstored := hjoined.stored hroom hj
    unfold quicRecoveryOnPacketSent
    dsimp only
    rw [hid]
    unfold sentArm
    split
    · exact hstored.same (armPtoTimer_sameHeld _)
    · exact hstored
  · unfold NotAcked
    rw [hsent]
    refine hjoined.notAcked ?_
    unfold NotAcked
    rw [hchunks]
    exact hn

theorem sendImm_attributed (h : Attributed ctx) {t : PktType} {f : List Byte} (now : Nat) (pn : Option Nat)
    (halike : ∀ {pn el t' f'}, RecoveryEffect.sent pn ctx.currentRetransChunkId el t' f' ∈ ctx.trace → f' = f ∧ (f ≠ [] → t' = t))
    (hlive : NotAcked ctx ctx.currentRetransChunkId) : Attributed (sendImm ctx t f now pn) ∧ ∀ i, NotAcked ctx i →
    NotAcked (sendImm ctx t f now pn) i := by
  have hcall := h.call (e := .sendImm t f) (fun _ _ _ _ _ he => by cases he)
  have hkeeps : Keeps ctx (ctx.call (.sendImm t f)) := call_keeps (fun _ _ _ _ _ he => by cases he)
  unfold sendImm
  cases pn with
  | none => exact ⟨hcall, fun _ hn => hn⟩
  | some pn =>
    refine packetSent_attributed hcall (fun c hc => ?_)
    have hid : c.chunkId = ctx.currentRetransChunkId := by
      unfold retransChunk at hc
      split at hc
      · exact lookup_key _ hc
      · cases hc
    rw [hid]
    exact ⟨fun hs => halike (hkeeps.sent _ _ _ _ _ hs), fun _ => hlive⟩

/-! ## `detect_losses` and the probes -/

theorem updateChunk_retransmitted (h : Attributed ctx) (i now : Nat) :
    Attributed (ctx.updateChunk i (chunkRetransmitted now)) := by
  refine h.mapChunks (fun c => ?_) (fun c _ hstate => ?_) (fun c _ hstate hacked => ?_)
  · split <;> rfl
  · split at hstate
    · rename_i hi
      rw [if_pos hi]
      exact ⟨hstate, rfl, rfl⟩
    · rename_i hi
      rw [if_neg hi]
      exact ⟨hstate, rfl, rfl⟩
  · split at hacked <;> exact absurd hacked hstate

theorem lossRetransmit_attributed (env : RecoveryEnv) (now : Nat) {p : QuicRecoverySentPacket} {w : LossWork}
    (h : Attributed w.ctx) {f : List Byte} (hf : p.frames = some f) (hsent : RecoveryEffect.sent p.pn p.chunkId p.ackEliciting
    p.pktType f ∈ w.ctx.trace) (hlive : NotAcked w.ctx p.chunkId) (c : Option QuicRecoveryChunk) : Attributed (lossRetransmit env
    now p c w).ctx ∧ NotAcked (lossRetransmit env now p c w).ctx p.chunkId := by
  unfold lossRetransmit
  split
  · dsimp only
    rw [hf, Option.getD_some]
    have hnamed : Attributed { w.ctx with currentRetransChunkId := p.chunkId } := h.same ⟨rfl, rfl, rfl, rfl, rfl⟩
    obtain ⟨hattr, hkept⟩ := sendImm_attributed (t := p.pktType) (f := f) hnamed now (env.lossImm w.fastRetx)
      (fun hs => h.alike hsent hs) hlive
    have hopen := hkept _ hlive
    cases c with
    | none => exact ⟨hattr, hopen⟩
    | some c =>
      refine ⟨updateChunk_retransmitted hattr _ _, fun d hd hid => ?_⟩
      obtain ⟨d₀, hd₀, rfl⟩ := List.mem_map.1 hd
      split at hid
      · rename_i hc
        rw [if_pos hc]
        exact hopen d₀ hd₀ hid
      · rename_i hc
        rw [if_neg hc]
        exact hopen d₀ hd₀ hid
  · exact ⟨h, hlive⟩

theorem lossHit_attributed {env : RecoveryEnv} {now threshold : Nat} {w : LossWork} {i : Nat}
    (hi : i < w.ctx.sentPackets.count) (hdue : lossDue w.ctx now threshold (w.ctx.sentPackets.get i) = true)
    (h : Attributed w.ctx) : Attributed (lossHit env now w (w.ctx.sentPackets.slot i)).ctx := by
  have hmem : w.ctx.sentPackets.get i ∈ w.ctx.sentPackets.toList := List.mem_map_of_mem (List.mem_range.2 hi)
  have hcell : w.ctx.sentPackets.cells (w.ctx.sentPackets.slot i) = w.ctx.sentPackets.get i := rfl
  obtain ⟨f, hsent, hf⟩ := h.record _ hmem
  unfold lossDue at hdue
  simp only [Bool.and_eq_true, Bool.not_eq_true'] at hdue
  obtain ⟨⟨⟨⟨hack, -⟩, -⟩, -⟩, hsome⟩ := hdue
  obtain ⟨g, hg⟩ := Option.isSome_iff_exists.1 hsome
  obtain ⟨rfl, -⟩ := hf g hg
  have hlive := h.live _ hmem hack hsome
  unfold lossHit
  dsimp only
  rw [hcell]
  split
  · have hleave := inflightLeave_sameHeld w.ctx (w.ctx.sentPackets.get i)
    refine (h.same hleave).setPacket _ ?_
    rw [hleave.ring]
    exact ⟨rfl, rfl, rfl, rfl, Or.inr rfl, fun he => he⟩
  · have hfirst : Attributed (lossFirst w (w.ctx.sentPackets.slot i)).ctx :=
      (h.setPacket (w.ctx.sentPackets.slot i) (q := { w.ctx.sentPackets.get i with lost := true })
        ⟨rfl, rfl, rfl, rfl, Or.inl rfl, fun he => he⟩).same ⟨rfl, rfl, rfl, rfl, rfl⟩
    obtain ⟨hattr, hopen⟩ := lossRetransmit_attributed env now hfirst hg hsent hlive
      (chunkFind w.ctx (w.ctx.sentPackets.get i).chunkId)
    generalize lossRetransmit env now _ _ _ = w' at hattr hopen ⊢
    have hgone : Attributed ((inflightSub w'.ctx (w'.ctx.sentPackets.cells (w.ctx.sentPackets.slot i)).bytesSent).setPacket
        (w.ctx.sentPackets.slot i) { w'.ctx.sentPackets.cells (w.ctx.sentPackets.slot i) with frames := none }) := by
      have hsub := inflightSub_sameHeld w'.ctx (w'.ctx.sentPackets.cells (w.ctx.sentPackets.slot i)).bytesSent
      refine (hattr.same hsub).setPacket _ ?_
      rw [hsub.ring]
      exact ⟨rfl, rfl, rfl, rfl, Or.inr rfl, fun he => he⟩
    unfold lossLeave
    dsimp only
    cases hfind : chunkFind w.ctx (w.ctx.sentPackets.get i).chunkId with
    | none => exact hgone
    | some c =>
      have hid : c.chunkId = (w.ctx.sentPackets.get i).chunkId := lookup_key _ hfind
      refine hgone.mapChunks (fun d => ?_) (fun d hd hstate => ?_) (fun d _ hstate hacked => ?_)
      · split <;> rfl
      · split
        · rename_i he
          refine ⟨hopen d ?_ (he.trans hid), rfl, rfl⟩
          rw [← (inflightSub_sameHeld w'.ctx _).chunks]
          exact hd
        · rename_i he
          rw [if_neg he] at hstate
          exact ⟨hstate, rfl, rfl⟩
      · split at hacked
        · cases hacked
        · exact absurd hacked hstate

theorem probeSend_attributed {env : RecoveryEnv} {now : Nat} {w : ProbeWork} {c : QuicRecoveryChunk}
    (hc : c ∈ w.ctx.chunks) (hstate : c.state ≠ .acked) {f : List Byte} (hf : c.frames = some f)
    (h : Attributed w.ctx) : Attributed (probeSend env now w c).ctx := by
  have hnamed : Attributed { w.ctx with currentRetransChunkId := c.chunkId } := h.same ⟨rfl, rfl, rfl, rfl, rfl⟩
  unfold probeSend
  dsimp only
  rw [hf, Option.getD_some]
  refine updateChunk_retransmitted (sendImm_attributed (t := c.pktType) (f := f) hnamed now _ (fun hs => ?_) ?_).1 _ _
  · obtain ⟨hframes, htype⟩ := h.chunk hs c hc rfl hstate
    rw [hf] at hframes
    obtain ⟨rfl, hne⟩ := heldFrames_of_some hframes.symm
    exact ⟨rfl, fun hne => (htype hne).symm⟩
  · intro d hd hid
    rw [h.unique d hd c hc hid]
    exact hstate

/-! ## Runs -/

theorem sendNew_attributed (hnone : retransChunk ctx = none) (h : Attributed ctx) : Attributed (sendNew ctx a) := by
  have hnote : SameHeld ctx { noteLeftover ctx with leftoverTaken := ctx.leftoverTaken } := by
    unfold noteLeftover
    split <;> exact ⟨rfl, rfl, rfl, rfl, rfl⟩
  have hattr : Attributed (noteLeftover ctx) := by
    refine h.fade ?_ (fun q hq => ⟨q, ?_, Fades.refl q⟩) ?_ ?_ (fun _ _ _ _ _ => ?_)
    · exact hnote.ring ▸ h.wf
    · exact hnote.ring ▸ hq
    · exact hnote.chunks
    · exact hnote.nextChunkId
    · rw [show (noteLeftover ctx).trace = ctx.trace from hnote.trace]
  have hretrans : retransChunk (noteLeftover ctx) = none := by
    rw [← hnone]
    unfold noteLeftover
    split <;> rfl
  refine (packetSent_attributed hattr (fun c hc => ?_)).1
  rw [hretrans] at hc
  cases hc

def NoneNamed (ctx : QuicRecoveryCtx) (_ : SentArgs) : Prop := retransChunk ctx = none

instance (ctx : QuicRecoveryCtx) (a : SentArgs) : Decidable (NoneNamed ctx a) :=
  inferInstanceAs (Decidable (retransChunk ctx = none))

theorem attributed_inv : RecoveryInv NoneNamed Attributed where
  same hs h := h.same hs
  call he h := h.call he
  mark _ h := h.setPacket _ ⟨rfl, rfl, rfl, rfl, Or.inl rfl, fun he => Bool.noConfusion he⟩
  markAcked _ h := chunkMarkAcked_attributed h _
  compact h := h.compact
  clearSpace t h := recoveryClearSpace_attributed h t
  hit hi hdue h := lossHit_attributed hi hdue h
  probe hc hstate hf h := probeSend_attributed hc hstate hf h
  new hok h := sendNew_attributed hok h

end Sent

/-- **An acknowledgement retires the frames the acknowledged packet carried**: in every state of a run in which every
packet sent otherwise than by `send_imm_fn` finds no chunk of the pool named, the packets of a chunk carry the same
frames, and their records and the chunk, while it lives, hold these. -/
theorem records_attributed (fuel : Nat) (calls : List RecoveryCall) (ctx : QuicRecoveryCtx)
    (hrun : calls.foldlM (recoveryStep fuel) {} = some ctx)
    (hok : StepsOkM (recoveryStep fuel) (NewSendsOk NoneNamed fuel) {} calls) : RecordsAttributed ctx :=
  (attributed_inv.run hok hrun attributed_init).recordsAttributed

theorem records_attributed_resent : RecordsAttributed (sendNew resentCtx ⟨2, true, 1, [8], .short, 1000⟩) := by
  refine records_attributed 0 ([.packetSent ⟨0, true, 1, [7], .short, 0⟩, .checkLosses 1000 { lossImm := fun _ => some 1 }] ++
    [.packetSent ⟨2, true, 1, [8], .short, 1000⟩]) _ ?_ ?_
  · rw [List.foldlM_append, resentCtx_run]
    rfl
  · have hfirst : retransChunk {} = none := rfl
    have hresent : retransChunk resentCtx = none := by decide +kernel
    refine stepsOkM_append _ _ ⟨hfirst, fun _ _ => ⟨fun _ => trivial, fun _ _ => trivial⟩⟩ (fun ctx hctx => ?_)
    rw [resentCtx_run] at hctx
    rw [← Option.some.inj hctx]
    exact ⟨hresent, fun _ _ => trivial⟩

/-- A packet that is found lost, when `send_imm_fn` fails. -/
def leftoverCtx : QuicRecoveryCtx :=
  compactSentPackets (lossEnd {} 1000 (lossTurns {} (sendNew {} ⟨0, true, 1, [7], .initial, 0⟩) 1000 1))

theorem leftoverCtx_run (fuel : Nat) : [RecoveryCall.packetSent ⟨0, true, 1, [7], .initial, 0⟩, .checkLosses 1000 {}].foldlM
    (recoveryStep fuel) {} = some leftoverCtx := by
  unfold leftoverCtx
  rw [← detectLosses_eq (by decide) (by decide +kernel)]
  rfl

/-- **A fresh packet takes over an older chunk**: its frames are not the chunk's, and its ACK retires those of the packet
that was lost. -/
theorem records_misattributed : ¬ ∀ (fuel : Nat) (calls : List RecoveryCall) (ctx : QuicRecoveryCtx),
    calls.foldlM (recoveryStep fuel) {} = some ctx → RecordsAttributed ctx := by
  intro hclaim
  have hrun : ([RecoveryCall.packetSent ⟨0, true, 1, [7], .initial, 0⟩, .checkLosses 1000 {}] ++
      [RecoveryCall.packetSent ⟨1, true, 1, [8], .initial, 1000⟩]).foldlM (recoveryStep 0) {} =
        some (sendNew leftoverCtx ⟨1, true, 1, [8], .initial, 1000⟩) := by
    rw [List.foldlM_append, leftoverCtx_run]
    rfl
  have hattr := hclaim 0 _ _ hrun
  have hfirst : RecoveryEffect.sent 0 0 true .initial [7] ∈
      (sendNew leftoverCtx ⟨1, true, 1, [8], .initial, 1000⟩).trace := by decide +kernel
  have hfresh : RecoveryEffect.sent 1 0 true .initial [8] ∈
      (sendNew leftoverCtx ⟨1, true, 1, [8], .initial, 1000⟩).trace := by decide +kernel
  have hlike := hattr.alike hfirst hfresh
  cases hlike

end MoqLiveCast
