import Mathlib.Data.BitVec
import MoqLiveCast.Quic.ShortHeader
/-!
# KeyStateKept — what a packet that does not open does to the keys

Taking back the next generation restores the keys, the secrets and the peer's phase, not the counters that went with the
trial; and the spin bit is read before anything is authenticated.
-/
namespace MoqLiveCast

open List

section

variable (crypto : Crypto)

/-! ## The attempts -/

def currentAttempts (c : ShortConn) (data : List Byte) (p : ShortPkt) : List AeadQuery :=
  p.query p.pkt (c.readKeys .application) p.pn ::
    (altPns p).map (p.query (p.restored data) (c.readKeys .application))

def nextAttempts (c : ShortConn) (data : List Byte) (p : ShortPkt) : List AeadQuery :=
  match nextReadKeys crypto c with
  | none => []
  | some (keys, _) => [p.query (p.restored data) keys p.pn]

def attempts (c : ShortConn) (data : List Byte) : List AeadQuery :=
  if ignored c data = true then []
  else
    match shortHeader crypto c data with
    | .tryNextKeys p => nextAttempts crypto c data p
    | .decrypt p => currentAttempts c data p ++ nextAttempts crypto c data p
    | _ => []

variable (c : ShortConn)

theorem readSpin_readKeys (pkt : List Byte) : (c.readSpin pkt).readKeys = c.readKeys := rfl

theorem currentAttempts_readSpin (data : List Byte) (p : ShortPkt) (pkt : List Byte) :
    currentAttempts (c.readSpin pkt) data p = currentAttempts c data p := rfl

theorem nextAttempts_readSpin (data : List Byte) (p : ShortPkt) (pkt : List Byte) :
    nextAttempts crypto (c.readSpin pkt) data p = nextAttempts crypto c data p := rfl

variable {p : ShortPkt}

theorem openCurrent_eq_none {c : ShortConn} {data : List Byte} :
    openCurrent crypto c data p = none ↔ ∀ q ∈ currentAttempts c data p, q.decrypt crypto = none := by
  unfold openCurrent currentAttempts
  dsimp only
  rw [forall_mem_cons, forall_mem_map]
  cases (p.query p.pkt (c.readKeys .application) p.pn).decrypt crypto with
  | some payload => simp
  | none => simp [List.findSome?_eq_none_iff]

theorem rollForward_readKeys (keys : QuicCipherKeys) (secret : List Byte) :
    (rollForward crypto c keys secret).readKeys .application = keys := by
  unfold rollForward startPhase updateWriteKeys
  dsimp only
  split <;> simp

theorem tryNextKeys_eq_none {c : ShortConn} {data : List Byte} :
    (tryNextKeys crypto c data p).2 = none ↔ ∀ q ∈ nextAttempts crypto c data p, q.decrypt crypto = none := by
  unfold tryNextKeys nextAttempts
  cases nextReadKeys crypto c with
  | none => simp
  | some next =>
    dsimp only
    rw [readSpin_readKeys, rollForward_readKeys, forall_mem_singleton]
    cases (p.query (p.restored data) next.1 p.pn).decrypt crypto <;> simp

theorem feedShort_eq_none {c : ShortConn} {data : List Byte} :
    (feedShort crypto c data).2 = none ↔ ∀ q ∈ attempts crypto c data, q.decrypt crypto = none := by
  unfold feedShort attempts
  split
  · simp
  · rw [afterTrial_snd]
    unfold openShort
    cases hs : shortHeader crypto c data with
    | pending => simp
    | drop => simp
    | foreign p => simp
    | tryNextKeys p => exact tryNextKeys_eq_none crypto
    | decrypt p =>
      dsimp only
      rw [← nextAttempts_readSpin crypto c data p p.pkt, ← currentAttempts_readSpin c data p p.pkt,
        forall_mem_append, ← openCurrent_eq_none, ← tryNextKeys_eq_none]
      cases openCurrent crypto (c.readSpin p.pkt) data p <;> simp

/-! ## What stays -/

theorem length_overwrite (old new : List Byte) : (overwrite old new).length = old.length := by
  unfold overwrite
  rw [length_append, length_take, length_drop]
  omega

theorem overwrite_of_length {old new : List Byte} (h : old.length = new.length) : overwrite old new = new := by
  unfold overwrite
  rw [h, take_length, drop_eq_nil_of_le (by omega), append_nil]

theorem updateWriteKeys_of_not_saved {c : ShortConn} (h : ¬ c.appWriteSecretSaved = true) : updateWriteKeys crypto c = c := by
  unfold updateWriteKeys nextWriteKeys
  rw [if_neg h]

theorem updateWriteKeys_length : (updateWriteKeys crypto c).appWriteSecret.length = c.appWriteSecret.length := by
  unfold updateWriteKeys
  split
  · rfl
  · exact length_overwrite _ _

theorem updateWriteKeys_eq : updateWriteKeys crypto c =
    { c with
      writeKeys := Function.update c.writeKeys .application ((updateWriteKeys crypto c).writeKeys .application)
      appWriteSecret := (updateWriteKeys crypto c).appWriteSecret } := by
  unfold updateWriteKeys
  split
  · simp
  · simp

theorem rollback_rollForward (keys : QuicCipherKeys) (secret buf : List Byte) :
    rollback c ((rollForward crypto c keys secret).readSpin buf) = (startPhase c c.peerKeyPhase).readSpin buf := by
  unfold rollForward
  dsimp only
  rw [updateWriteKeys_eq]
  generalize hw : updateWriteKeys crypto _ = w
  have hlen : w.appWriteSecret.length = c.appWriteSecret.length := by
    rw [← hw]
    exact updateWriteKeys_length crypto _
  unfold rollback startPhase ShortConn.readSpin
  simp only [Function.update_idem, Function.update_eq_self, overwrite_of_length (length_overwrite _ _),
    overwrite_of_length hlen]
  by_cases hsaved : c.appWriteSecretSaved = true
  · rw [if_pos hsaved]
  · have hsame : w.appWriteSecret = c.appWriteSecret := by
      rw [← hw, updateWriteKeys_of_not_saved]
      exact hsaved
    rw [if_neg hsaved, hsame]

theorem tryNextKeys_of_none {c : ShortConn} {data : List Byte}
    (h : (tryNextKeys crypto c data p).2 = none) : (tryNextKeys crypto c data p).1 =
      if (nextReadKeys crypto c).isSome = true then (startPhase c c.peerKeyPhase).readSpin (p.restored data) else c := by
  unfold tryNextKeys at h ⊢
  cases hn : nextReadKeys crypto c with
  | none => rfl
  | some next =>
    rw [hn] at h
    dsimp only at h ⊢
    split at h
    · cases h
    · exact rollback_rollForward crypto c next.1 next.2 (p.restored data)

/-! ## The spin bit -/

theorem spinBit_unmask (first mask : Byte) : ((first ^^^ (mask &&& 0x1f)) >>> 5) &&& 0x01 = (first >>> 5) &&& 0x01 := by
  ext i hi
  simp only [BitVec.getElem_and, BitVec.getElem_ushiftRight, BitVec.getLsbD_xor, BitVec.getLsbD_and]
  rcases i with _ | i
  · simp
  · simp

theorem spinBitOf_hpRemove {keys : QuicCipherKeys} {data pkt : List Byte} {pnOffset pnLen : Nat} (ho : 0 < pnOffset)
    (h : quicCryptoHpRemoveShort crypto keys data pnOffset = some (pnLen, pkt)) :
    pkt.length = data.length ∧ spinBitOf pkt = spinBitOf data := by
  unfold quicCryptoHpRemoveShort at h
  split at h
  · cases h
  · split at h
    · cases h
    · simp only [Option.some.injEq, Prod.mk.injEq] at h
      obtain ⟨-, rfl⟩ := h
      cases data with
      | nil => simp [spinBitOf]
      | cons b data =>
        constructor
        · simp
        · unfold spinBitOf
          rw [set_cons_zero, mapIdx_cons, headD_cons, if_neg (by omega), headD_cons]
          exact spinBit_unmask _ _

theorem shortHeader_tryNextKeys {c : ShortConn} {data : List Byte}
    (h : shortHeader crypto c data = .tryNextKeys p) : p.restored data = data := by
  have hp : p.ctPos = 0 := by
    unfold shortHeader at h
    dsimp only at h
    repeat' split at h
    all_goals simp only [HeaderStep.tryNextKeys.injEq, reduceCtorEq] at h
    all_goals rw [← h]
  unfold ShortPkt.restored
  rw [hp]
  simp

structure Unmasked (data : List Byte) (p : ShortPkt) : Prop where
  spinBit : spinBitOf p.pkt = spinBitOf data
  nonempty : p.pkt ≠ []
  ctPos : 0 < p.ctPos

theorem shortHeader_unmasked {c : ShortConn} {data : List Byte}
    (h : shortHeader crypto c data = .foreign p ∨ shortHeader crypto c data = .decrypt p) : Unmasked data p := by
  unfold shortHeader at h
  dsimp only at h
  by_cases hi : (c.readKeys .application).initialized = false
  · rw [if_pos hi] at h
    rcases h with h | h <;> cases h
  · rw [if_neg hi] at h
    generalize hd : (if c.srcCid.length = 0 then QUIC_CID_LEN else c.srcCid.length) = dcidLen at h
    by_cases hl : data.length < 1 + dcidLen + 1 ∨ data.length < 1 + dcidLen + 1 + 16 ∨ QUIC_UDP_BUF_SIZE < data.length
    · rw [if_pos hl] at h
      rcases h with h | h <;> cases h
    · rw [if_neg hl] at h
      cases hr : quicCryptoHpRemoveShort crypto (c.readKeys .application) data (1 + dcidLen) with
      | none =>
        rw [hr] at h
        rcases h with h | h <;> cases h
      | some r =>
        obtain ⟨hlen, hspin⟩ := spinBitOf_hpRemove crypto (by omega) hr
        have hne : r.2 ≠ [] := fun hnil => by
          rw [hnil, length_nil] at hlen
          omega
        rw [hr] at h
        dsimp only at h
        repeat' split at h
        all_goals simp only [HeaderStep.foreign.injEq, HeaderStep.decrypt.injEq, reduceCtorEq, or_false, false_or] at h
        all_goals
          subst h
          exact ⟨hspin, hne, by dsimp only; omega⟩

theorem Unmasked.spinBit_restored {data : List Byte} (h : Unmasked data p) : spinBitOf (p.restored data) = spinBitOf data := by
  rw [← h.spinBit]
  have hc := h.ctPos
  unfold spinBitOf ShortPkt.restored
  cases hp : p.pkt with
  | nil => exact absurd hp h.nonempty
  | cons b pkt =>
    obtain ⟨n, hn⟩ := Nat.exists_eq_succ_of_ne_zero (Nat.pos_iff_ne_zero.1 hc)
    rw [hn]
    rfl

/-! ## What is not kept -/

def HeaderStep.readsSpin : HeaderStep → Bool
  | .foreign _ | .decrypt _ => true
  | _ => false

def HeaderStep.triesNext : HeaderStep → Bool
  | .tryNextKeys _ | .decrypt _ => true
  | _ => false

def PhaseUnused (c : KeyState) : Prop :=
  c.currentKeyPhase = c.peerKeyPhase ∧ c.pktsSentWithKey = 0 ∧ c.aeadPktCount .application = 0 ∧
    c.aeadLimitWarned .application = false

instance (c : KeyState) : Decidable (PhaseUnused c) := inferInstanceAs (Decidable (_ ∧ _))

def TriesUpdate (c : ShortConn) (data : List Byte) : Prop :=
  (shortHeader crypto c data).triesNext = true ∧ (nextReadKeys crypto c).isSome = true

instance (c : ShortConn) (data : List Byte) : Decidable (TriesUpdate crypto c data) := inferInstanceAs (Decidable (_ ∧ _))

/-- **The datagram finds nothing to change**: its spin bit is the one the connection has, if it is read, and the current
phase is unused, if the next one is tried. -/
def KeepsKeyState (c : ShortConn) (data : List Byte) : Prop :=
  ignored c data = false →
    ((shortHeader crypto c data).readsSpin = true ∨ TriesUpdate crypto c data → c.spinBit = spinBitOf data) ∧
      (TriesUpdate crypto c data → PhaseUnused c.toKeyState)

instance (c : ShortConn) (data : List Byte) : Decidable (KeepsKeyState crypto c data) :=
  inferInstanceAs (Decidable (_ → _ ∧ _))

theorem readSpin_keyState_iff (pkt : List Byte) : (c.readSpin pkt).toKeyState = c.toKeyState ↔ c.spinBit = spinBitOf pkt := by
  constructor
  · intro h
    exact (congrArg KeyState.spinBit h).symm
  · intro h
    unfold ShortConn.readSpin
    rw [← h]

theorem trial_keyState_iff (buf : List Byte) : ((startPhase c c.peerKeyPhase).readSpin buf).toKeyState = c.toKeyState ↔
    c.spinBit = spinBitOf buf ∧ PhaseUnused c.toKeyState := by
  constructor
  · intro h
    refine ⟨(congrArg KeyState.spinBit h).symm, (congrArg KeyState.currentKeyPhase h).symm,
      (congrArg KeyState.pktsSentWithKey h).symm, ?_, ?_⟩
    · have := congrFun (congrArg KeyState.aeadPktCount h) .application
      simpa [startPhase, ShortConn.readSpin] using this.symm
    · have := congrFun (congrArg KeyState.aeadLimitWarned h) .application
      simpa [startPhase, ShortConn.readSpin] using this.symm
  · rintro ⟨hspin, hphase, hpkts, hcount, hwarned⟩
    have hcounts : Function.update c.aeadPktCount .application 0 = c.aeadPktCount := by
      rw [← hcount, Function.update_eq_self]
    have hwarnings : Function.update c.aeadLimitWarned .application false = c.aeadLimitWarned := by
      rw [← hwarned, Function.update_eq_self]
    unfold startPhase ShortConn.readSpin
    dsimp only
    rw [hcounts, hwarnings, ← hspin, ← hpkts]
    nth_rewrite 2 [← hphase]
    rfl

theorem tryNextKeys_keyState_iff {c : ShortConn} {data : List Byte} (h : (tryNextKeys crypto c data p).2 = none)
    (hspin : spinBitOf (p.restored data) = spinBitOf data) : (tryNextKeys crypto c data p).1.toKeyState = c.toKeyState ↔
    ((nextReadKeys crypto c).isSome = true → c.spinBit = spinBitOf data ∧ PhaseUnused c.toKeyState) := by
  rw [tryNextKeys_of_none crypto h]
  split
  · rename_i hn
    rw [trial_keyState_iff, hspin]
    simp [hn]
  · rename_i hn
    simp [hn]

theorem retryNextKeys_keyState_iff {c : ShortConn} {data : List Byte} (h : (tryNextKeys crypto (c.readSpin p.pkt) data p).2 =
    none) (hu : Unmasked data p) : (tryNextKeys crypto (c.readSpin p.pkt) data p).1.toKeyState = c.toKeyState ↔
    c.spinBit = spinBitOf data ∧ ((nextReadKeys crypto c).isSome = true → PhaseUnused c.toKeyState) := by
  rw [tryNextKeys_of_none crypto h]
  split
  · rename_i hn
    have htrial := trial_keyState_iff c (p.restored data)
    rw [hu.spinBit_restored] at htrial
    refine Iff.trans htrial (and_congr_right fun _ => ?_)
    exact ⟨fun h _ => h, fun h => h hn⟩
  · rename_i hn
    rw [readSpin_keyState_iff, hu.spinBit]
    refine (and_iff_left ?_).symm
    intro h
    exact absurd h hn

theorem bufferPending_keyState (data : List Byte) : (bufferPending c data).toKeyState = c.toKeyState := by
  unfold bufferPending
  dsimp only
  repeat' split
  all_goals rfl

/-- **A datagram that opens nothing leaves the key state as it was exactly if it finds nothing to change.** -/
theorem keyState_kept_iff (c : ShortConn) (data : List Byte) (hfail : ∀ q ∈ attempts crypto c data, q.decrypt crypto = none) :
    (feedShort crypto c data).1.toKeyState = c.toKeyState ↔ KeepsKeyState crypto c data := by
  have hnone := (feedShort_eq_none crypto).2 hfail
  unfold feedShort at hnone ⊢
  unfold KeepsKeyState TriesUpdate
  by_cases hi : ignored c data = true
  · rw [if_pos hi]
    simp only [hi, Bool.true_eq_false, false_implies, iff_true]
    split <;> rfl
  · rw [if_neg hi, afterTrial_snd] at hnone
    rw [if_neg hi, afterTrial_of_none crypto hnone]
    unfold openShort at hnone ⊢
    simp only [Bool.not_eq_true] at hi
    simp only [hi, forall_const]
    cases hs : shortHeader crypto c data with
    | pending =>
      simp [HeaderStep.readsSpin, HeaderStep.triesNext, bufferPending_keyState]
    | drop =>
      simp [HeaderStep.readsSpin, HeaderStep.triesNext]
    | foreign p =>
      have hu := shortHeader_unmasked crypto (.inl hs)
      simp only [readSpin_keyState_iff, hu.spinBit, HeaderStep.readsSpin, HeaderStep.triesNext, Bool.false_eq_true,
        false_and, or_false, false_implies, and_true, forall_const]
    | tryNextKeys p =>
      rw [hs] at hnone
      have hspin := congrArg spinBitOf (shortHeader_tryNextKeys crypto hs)
      simp only [tryNextKeys_keyState_iff crypto hnone hspin, HeaderStep.readsSpin, HeaderStep.triesNext,
        Bool.false_eq_true, true_and, false_or]
      exact forall_and
    | decrypt p =>
      rw [hs] at hnone
      dsimp only at hnone ⊢
      have hu := shortHeader_unmasked crypto (.inr hs)
      cases ho : openCurrent crypto (c.readSpin p.pkt) data p with
      | some o =>
        rw [ho] at hnone
        cases hnone
      | none =>
        rw [ho] at hnone
        simp only [retryNextKeys_keyState_iff crypto hnone hu, HeaderStep.readsSpin, HeaderStep.triesNext, true_or,
          true_and, forall_const]

end

/-! ## A forged datagram -/

def forgedCrypto : Crypto where
  hpMask _ _ _ := replicate 16 0
  aeadOpen _ _ _ _ _ := none
  hkdfExpandLabel _ _ _ len := some (replicate len 0)

theorem forgedCrypto_decrypt (q : AeadQuery) : q.decrypt forgedCrypto = none := by
  unfold AeadQuery.decrypt quicCryptoDecrypt
  repeat' split
  all_goals rfl

def someKeys : QuicCipherKeys where
  key := replicate 16 0
  iv := replicate 12 0
  hpKey := replicate 16 0
  keyLen := 16
  initialized := true

def sendingConn (pktsSent : Nat) : ShortConn where
  readKeys := fun _ => someKeys
  writeKeys := fun _ => someKeys
  appReadSecret := replicate 32 0
  appReadSecretSaved := true
  pktsSentWithKey := pktsSent
  aeadPktCount := fun _ => pktsSent
  srcCid := [1, 2, 3, 4, 5, 6, 7, 8]

def forgedDatagram : List Byte := [0x40, 1, 2, 3, 4, 5, 6, 7, 8] ++ replicate 17 0

theorem keyState_kept_unused :
    (feedShort forgedCrypto (sendingConn 0) forgedDatagram).1.toKeyState = (sendingConn 0).toKeyState :=
  (keyState_kept_iff forgedCrypto (sendingConn 0) forgedDatagram fun q _ => forgedCrypto_decrypt q).2 (by decide +kernel)

theorem forged_resets_counters : ¬ ∀ (crypto : Crypto) (c : ShortConn) (data : List Byte),
    (∀ q ∈ attempts crypto c data, q.decrypt crypto = none) → (feedShort crypto c data).1.toKeyState = c.toKeyState := by
  intro h
  have hkept := h forgedCrypto (sendingConn 5) forgedDatagram fun q _ => forgedCrypto_decrypt q
  have hpkts := congrArg KeyState.pktsSentWithKey hkept
  revert hpkts
  decide +kernel

end MoqLiveCast
