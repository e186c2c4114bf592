import MoqLiveCast.Lib.Run
import MoqLiveCast.Quic.Varint
/-!
# ConnectionId — the connection ids the peer issues (`QuicConnectionFeedRaw`, NEW_CONNECTION_ID)

Every frame that parses is adopted.  The comparison with the sequence number in use decides only whether that one is
retired first.
-/
namespace MoqLiveCast

def QUIC_FRAME_NEW_CONNECTION_ID : Byte := 0x18
def QUIC_FRAME_RETIRE_CONNECTION_ID : Byte := 0x19
def QUIC_CID_MAX_LEN : Nat := 20
def QUIC_MAX_RESET_TOKENS : Nat := 4

/-! ## Frames -/

structure NewConnId where
  seq : Nat
  retirePriorTo : Nat
  cid : List Byte
  resetToken : List Byte
deriving DecidableEq

def quicFrameParseNewConnId (data : List Byte) : Option (NewConnId × Nat) :=
  match data with
  | [] => none
  | type :: rest =>
    if type ≠ QUIC_FRAME_NEW_CONNECTION_ID then none
    else
      (readVarint rest).bind fun (seq, rest) =>
        (readVarint rest).bind fun (retire, rest) =>
          match rest with
          | [] => none
          | cidLen :: rest =>
            if rest.length < cidLen.toNat + 16 then none
            else
              some (⟨seq, retire, rest.take cidLen.toNat, (rest.drop cidLen.toNat).take 16⟩,
                data.length - rest.length + cidLen.toNat + 16)

def quicFrameWriteRetireConnId (seq : Nat) : Option (List Byte) :=
  if 16 < 1 + quicVarintLen seq then none else some (QUIC_FRAME_RETIRE_CONNECTION_ID :: varintBytes seq)

/-! ## The handler -/

structure PeerCids where
  dstCid : List Byte
  dstCidSeq : Nat := 0
  retirePriorTo : Nat := 0
  resetTokens : List (List Byte) := []
  /-- the frames `quic_conn_queue_frames` took -/
  queued : List (List Byte) := []
deriving DecidableEq

/-- A frame of a packet, and whether `quic_conn_queue_frames` takes what is queued while it is handled. -/
structure CidEvent where
  data : List Byte
  queues : Bool

/-- The frame that is adopted: one that parses, with an id of 1 to 20 bytes. -/
def adopted (e : CidEvent) : Option NewConnId :=
  ((quicFrameParseNewConnId e.data).map Prod.fst).filter (fun f => 0 < f.cid.length && f.cid.length ≤ QUIC_CID_MAX_LEN)

def retireOld (c : PeerCids) (queues : Bool) (seq : Nat) : PeerCids :=
  if c.dstCidSeq < seq then
    match quicFrameWriteRetireConnId c.dstCidSeq with
    | some frm => if queues then { c with queued := c.queued ++ [frm] } else c
    | none => c
  else c

def storeResetToken (c : PeerCids) (token : List Byte) : PeerCids :=
  if c.resetTokens.length < QUIC_MAX_RESET_TOKENS then { c with resetTokens := c.resetTokens ++ [token] } else c

/-- The case NEW_CONNECTION_ID of `QuicConnectionFeedRaw`. -/
def onNewConnectionId (c : PeerCids) (e : CidEvent) : PeerCids :=
  match adopted e with
  | none => c
  | some f =>
    let c := retireOld { c with retirePriorTo := f.retirePriorTo } e.queues f.seq
    { storeResetToken c f.resetToken with dstCid := f.cid, dstCidSeq := f.seq }

/-! ## Runs -/

def Retired (c : PeerCids) (seq : Nat) : Prop := ∃ frm ∈ c.queued, quicFrameWriteRetireConnId seq = some frm

/-- **The id in use is never one that was retired, and its sequence number never goes down.** -/
structure AdoptionSafe (c : PeerCids) (es : List CidEvent) : Prop where
  inUse : ∀ pre post, es = pre ++ post → ¬ Retired (pre.foldl onNewConnectionId c) (pre.foldl onNewConnectionId c).dstCidSeq
  grows : ∀ pre e post, es = pre ++ e :: post →
    (pre.foldl onNewConnectionId c).dstCidSeq ≤ (onNewConnectionId (pre.foldl onNewConnectionId c) e).dstCidSeq

/-- A frame that is adopted does not come after one with a greater sequence number. -/
def InOrder (c : PeerCids) (e : CidEvent) : Prop := ∀ f, adopted e = some f → c.dstCidSeq ≤ f.seq

/-! ## What a frame does -/

theorem quicFrameParseNewConnId_lt {data : List Byte} {f : NewConnId} {n : Nat}
    (h : quicFrameParseNewConnId data = some (f, n)) : f.seq < 2 ^ 62 := by
  unfold quicFrameParseNewConnId at h
  split at h
  · cases h
  · split at h
    · cases h
    · obtain ⟨⟨seq, data1⟩, hseq, h⟩ := Option.bind_eq_some_iff.1 h
      obtain ⟨⟨retire, data2⟩, -, h⟩ := Option.bind_eq_some_iff.1 h
      dsimp only at h
      split at h
      · cases h
      · split at h
        · cases h
        · simp only [Option.some.injEq, Prod.mk.injEq] at h
          rw [← h.1]
          exact readVarint_lt hseq

theorem adopted_lt {e : CidEvent} {f : NewConnId} (h : adopted e = some f) : f.seq < 2 ^ 62 := by
  obtain ⟨hmap, -⟩ := Option.filter_eq_some_iff.1 h
  obtain ⟨⟨f', n⟩, hparse, rfl⟩ := Option.map_eq_some_iff.1 hmap
  exact quicFrameParseNewConnId_lt hparse

theorem writeRetire_inj {seq seq' : Nat} {frm : List Byte} (hlt : seq < 2 ^ 62) (hlt' : seq' < 2 ^ 62)
    (h : quicFrameWriteRetireConnId seq = some frm) (h' : quicFrameWriteRetireConnId seq' = some frm) : seq = seq' := by
  unfold quicFrameWriteRetireConnId at h h'
  split at h
  · cases h
  · split at h'
    · cases h'
    · rw [← Option.some.inj h] at h'
      have hbytes : varintBytes seq' = varintBytes seq := (List.cons.inj (Option.some.inj h')).2
      have hread := readVarint_varintBytes hlt []
      rw [← hbytes, readVarint_varintBytes hlt' []] at hread
      exact ((Prod.mk.inj (Option.some.inj hread)).1).symm

@[simp] theorem onNewConnectionId_seq (c : PeerCids) (e : CidEvent) :
    (onNewConnectionId c e).dstCidSeq = ((adopted e).map NewConnId.seq).getD c.dstCidSeq := by
  unfold onNewConnectionId
  cases adopted e <;> rfl

@[simp] theorem storeResetToken_queued (c : PeerCids) (token : List Byte) :
    (storeResetToken c token).queued = c.queued := by
  unfold storeResetToken
  split <;> rfl

theorem mem_queued {c : PeerCids} {e : CidEvent} {frm : List Byte} (h : frm ∈ (onNewConnectionId c e).queued) :
    frm ∈ c.queued ∨ ∃ f, adopted e = some f ∧ c.dstCidSeq < f.seq ∧ quicFrameWriteRetireConnId c.dstCidSeq = some frm := by
  unfold onNewConnectionId at h
  cases hf : adopted e with
  | none =>
    rw [hf] at h
    exact Or.inl h
  | some f =>
    rw [hf] at h
    simp only [storeResetToken_queued] at h
    unfold retireOld at h
    split at h
    · rename_i hlt
      split at h
      · rename_i frm' hfrm
        split at h
        · rcases List.mem_append.1 h with h | h
          · exact Or.inl h
          · rw [List.mem_singleton.1 h]
            exact Or.inr ⟨f, rfl, hlt, hfrm⟩
        · exact Or.inl h
      · exact Or.inl h
    · exact Or.inl h

/-- **Only ids before the one in use are retired.** -/
structure RetiredBelow (c : PeerCids) : Prop where
  seq_lt : c.dstCidSeq < 2 ^ 62
  below : ∀ frm ∈ c.queued, ∃ seq < c.dstCidSeq, quicFrameWriteRetireConnId seq = some frm

theorem RetiredBelow.step {c : PeerCids} {e : CidEvent} (h : RetiredBelow c) (hok : InOrder c e) :
    RetiredBelow (onNewConnectionId c e) := by
  cases hf : adopted e with
  | none =>
    unfold onNewConnectionId
    rw [hf]
    exact h
  | some f =>
    have hseq : (onNewConnectionId c e).dstCidSeq = f.seq := by simp [hf]
    refine ⟨hseq ▸ adopted_lt hf, fun frm hfrm => ?_⟩
    rw [hseq]
    rcases mem_queued hfrm with hold | ⟨f', hf', hlt, hnew⟩
    · obtain ⟨seq, hlt, hseq⟩ := h.below frm hold
      exact ⟨seq, Nat.lt_of_lt_of_le hlt (hok f hf), hseq⟩
    · cases hf.symm.trans hf'
      exact ⟨c.dstCidSeq, hlt, hnew⟩

theorem RetiredBelow.notRetired {c : PeerCids} (h : RetiredBelow c) : ¬ Retired c c.dstCidSeq := by
  rintro ⟨frm, hfrm, hwrite⟩
  obtain ⟨seq, hlt, hseq⟩ := h.below frm hfrm
  have heq := writeRetire_inj (Nat.lt_trans hlt h.seq_lt) h.seq_lt hseq hwrite
  omega

/-! ## The claim over runs -/

/-- **Adoption is safe if and only if no frame that is adopted comes after one with a greater sequence number**, in every
run from a connection that has seen none. -/
theorem adoption_safe_iff (dstCid : List Byte) (es : List CidEvent) :
    AdoptionSafe { dstCid } es ↔ StepsOk onNewConnectionId InOrder { dstCid } es := by
  have hinit : RetiredBelow { dstCid } := ⟨Nat.two_pow_pos 62, fun _ h => absurd h List.not_mem_nil⟩
  constructor
  · intro h
    rw [stepsOk_iff]
    intro pre e post hes f hf
    have hgrows := h.grows pre e post hes
    simpa [hf] using hgrows
  · intro h
    refine ⟨fun pre post hes => ?_, fun pre e post hes => ?_⟩
    · rw [hes, stepsOk_append] at h
      exact (foldl_inv onNewConnectionId InOrder RetiredBelow (fun _ _ hc hok => hc.step hok) pre _ hinit h.1).notRetired
    · have hok := (stepsOk_iff _ _ _ _).1 h pre e post hes
      cases hf : adopted e with
      | none => simp [hf]
      | some f =>
        simpa [hf] using hok f hf

def cidFrame (seq : Byte) : CidEvent := ⟨[0x18, seq, 0, 1, seq] ++ List.replicate 16 0, true⟩

/-- **A frame that is sent again brings back a retired id**: 1 and 2 are adopted, then 1 again. -/
theorem retired_adopted : ¬ ∀ (dstCid : List Byte) (es : List CidEvent), AdoptionSafe { dstCid } es := by
  intro hclaim
  have hsafe := (hclaim [0] [cidFrame 1, cidFrame 2, cidFrame 1]).inUse [cidFrame 1, cidFrame 2, cidFrame 1] [] rfl
  exact hsafe ⟨[0x19, 1], by decide +kernel, by decide +kernel⟩

end MoqLiveCast
