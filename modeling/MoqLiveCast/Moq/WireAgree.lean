import Mathlib.Data.List.GetD
import MoqLiveCast.Moq.MlWire
/-!
# WireAgree — the two implementations of the moq-lite wire are one

What C answers is what C++ answers, read as a return code (`toRc`): the bytes, the values, the offsets and the verdicts,
failed or not (`wiresAgree`).
-/
namespace MoqLiveCast

def toRc {α : Type} (r : Bool × α) : Int × α := (if r.1 then 0 else -1, r.2)

def WireRead.toRc {α : Type} (r : WireRead Bool α) : WireRead Int α := ⟨if r.status then 0 else -1, r.off, r.out⟩

def MlMsgStatus.toMoq : MlMsgStatus → MoqMsgStatus
  | .ok => .ok
  | .needMore => .needMore
  | .tooLarge => .tooLarge

/-! ## Varints -/

variable (v : BitVec 64)

theorem moqVarintSize_eq : moqVarintSize v = mlVarintLen v := rfl

theorem toByte_shift (n : Nat) : toByte (v >>> (8 * n)) = BitVec.ofNat 8 (v.toNat / 256 ^ n) := by
  apply BitVec.eq_of_toNat_eq
  rw [toByte, BitVec.toNat_setWidth, BitVec.toNat_ushiftRight, BitVec.toNat_ofNat, Nat.shiftRight_eq_div_pow, Nat.pow_mul]

theorem toByte_or (u v : BitVec 64) : toByte (u ||| v) = toByte v ||| toByte u := by
  rw [toByte, BitVec.setWidth_or, BitVec.or_comm]
  rfl

theorem toByte_eq : toByte v = BitVec.ofNat 8 v.toNat := by
  have h := toByte_shift v 0
  simpa using h

theorem toByte_tagged (tag : Byte) (v : BitVec 64) : toByte (tag.setWidth 64 ||| v) = toByte v ||| tag := by
  rw [toByte_or]
  congr 1
  exact BitVec.setWidth_setWidth_of_le tag (by decide)

theorem moqVarintWrite_bytes {v : BitVec 64} (h : ¬MOQ_VARINT_MAX < v) (b : List Byte) :
    moqVarintWrite b v = (0, b ++ varintBytes v.toNat) := by
  have h8 := toByte_shift v 1
  have h16 := toByte_shift v 2
  have h24 := toByte_shift v 3
  have h32 := toByte_shift v 4
  have h40 := toByte_shift v 5
  have h48 := toByte_shift v 6
  have h56 := toByte_shift v 7
  simp only [Nat.reduceMul] at h8 h16 h24 h32 h40 h48 h56
  unfold moqVarintWrite varintBytes
  rw [if_neg h, moqVarintSize_eq, mlVarintLen]
  rcases quicVarintLen_cases v.toNat with hlen | hlen | hlen | hlen <;> rw [hlen]
  · simp only [moqBufAppend, toByte_eq, beBytes, Nat.pow_zero, Nat.div_one]
  · have htag := toByte_tagged 0x40 (v >>> 8)
    simp only [moqBufAppend, beBytes, Nat.pow_zero, Nat.div_one]
    rw [← toByte_eq, ← Nat.pow_one 256, ← h8, ← htag]
    rfl
  · have htag := toByte_tagged 0x80 (v >>> 24)
    simp only [moqBufAppend, beBytes, Nat.pow_zero, Nat.div_one]
    rw [← toByte_eq, ← h8, ← h16, ← h24, ← htag]
    rfl
  · have htag := toByte_tagged 0xc0 (v >>> 56)
    simp only [moqBufAppend, beBytes, Nat.pow_zero, Nat.div_one]
    rw [← toByte_eq, ← h8, ← h16, ← h24, ← h32, ← h40, ← h48, ← h56, ← htag]
    rfl

theorem mlWriteVarint_bytes {v : BitVec 64} (h : ¬kMlVarintMax < v) (out : List Byte) :
    mlWriteVarint out v = (true, out ++ varintBytes v.toNat) := by
  have hroom : ¬8 < quicVarintLen v.toNat := by
    rcases quicVarintLen_cases v.toNat with hlen | hlen | hlen | hlen <;> omega
  unfold mlWriteVarint quicVarintEncode
  rw [if_neg h, if_neg hroom]

theorem moqVarintWrite_eq (b : List Byte) (v : BitVec 64) : moqVarintWrite b v = toRc (mlWriteVarint b v) := by
  by_cases h : kMlVarintMax < v
  · unfold moqVarintWrite mlWriteVarint
    rw [if_pos h]
    exact if_pos h
  · rw [mlWriteVarint_bytes h, moqVarintWrite_bytes h]
    rfl

/-! ## Varints read -/

theorem foldl_getD {α β : Type} (f : β → α → β) (p : List α) (d : α) (off : Nat) : ∀ (k s : Nat) (v : β), off + s + k ≤ p.length →
      (List.range' s k).foldl (fun v i => f v (p.getD (off + i) d)) v = ((p.drop (off + s)).take k).foldl f v
  | 0, _, _, _ => by simp
  | k + 1, s, v, h => by
    have hlt : off + s < p.length := by omega
    rw [List.range'_succ, List.foldl_cons, foldl_getD f p d off k (s + 1) _ (by omega), List.drop_eq_getElem_cons hlt,
      List.take_succ_cons, List.foldl_cons, ← Nat.add_assoc, List.getD_eq_getElem p d hlt]

theorem moqVarintRead_eq (p : List Byte) (off : Nat) : moqVarintRead p off = (mlReadVarint p off).toRc := by
  unfold moqVarintRead mlReadVarint
  by_cases hend : p.length ≤ off
  · rw [if_pos hend, if_pos hend]
    rfl
  · have hlt : off < p.length := Nat.lt_of_not_le hend
    rw [if_neg hend, if_neg hend, List.drop_eq_getElem_cons hlt]
    unfold quicVarintDecode
    dsimp only
    have hfirst : p.getD off 0 = p[off] := List.getD_eq_getElem p 0 hlt
    have hlen : 1 <<< (p[off] >>> 6).toNat = 2 ^ (p[off].toNat / 64) := by
      rw [Nat.one_shiftLeft, BitVec.toNat_ushiftRight, Nat.shiftRight_eq_div_pow]
    have hlow : (BitVec.setWidth 64 (p[off] &&& 0x3f#8)).toNat = p[off].toNat % 64 := by
      have hb := p[off].isLt
      rw [BitVec.toNat_setWidth, BitVec.toNat_and]
      have hmask : p[off].toNat &&& (0x3f#8).toNat = p[off].toNat % 64 := Nat.and_two_pow_sub_one_eq_mod _ 6
      omega
    rw [hfirst, hlen, List.length_drop]
    generalize hn : 2 ^ (p[off].toNat / 64) = n
    have hn8 : 1 ≤ n ∧ n ≤ 8 := by
      have hb := p[off].isLt
      have := Nat.pow_le_pow_right (show 0 < 2 by omega) (show p[off].toNat / 64 ≤ 3 by omega)
      have := Nat.one_le_two_pow (n := p[off].toNat / 64)
      omega
    by_cases hshort : p.length - off < n
    · rw [if_pos hshort, if_pos (by omega)]
      rfl
    · rw [if_neg hshort, if_neg (by omega)]
      have hloop := foldl_getD (fun (v : BitVec 64) b => (v <<< 8) ||| b.setWidth 64) p 0 off (n - 1) 1
        (BitVec.setWidth 64 (p[off] &&& 0x3f#8)) (by omega)
      have hbytes := shiftOr_foldl ((p.drop (off + 1)).take (n - 1)) (BitVec.setWidth 64 (p[off] &&& 0x3f#8)) 64
        (by rw [hlow]; omega) (by
          have hl : ((p.drop (off + 1)).take (n - 1)).length ≤ 7 := by
            rw [List.length_take]
            omega
          have := Nat.pow_le_pow_right (show 0 < 256 by omega) hl
          omega)
      rw [hloop, ← hlow, ← hbytes]
      dsimp only
      rw [BitVec.ofNat_toNat, BitVec.setWidth_eq]
      rfl

/-! ## Strings and messages -/

theorem rcGiveUp_eq (r : Bool × List Byte) (f : List Byte → Bool × List Byte) :
    (if (toRc r).1 < 0 then (-1, (toRc r).2) else toRc (f (toRc r).2)) = toRc (okThen r f) := by
  obtain ⟨ok, x⟩ := r
  cases ok <;> rfl

theorem rcThen_eq (r : Bool × List Byte) {f : List Byte → Int × List Byte} {g : List Byte → Bool × List Byte}
    (h : ∀ b, f b = toRc (g b)) : rcThen (toRc r) f = toRc (okThen r g) := by
  obtain ⟨ok, x⟩ := r
  cases ok
  · rfl
  · exact h x

theorem rcCounted_eq (b p : List Byte) : (if (moqVarintWrite b (BitVec.ofNat 64 p.length)).1 < 0 then (-1, (moqVarintWrite b
    (BitVec.ofNat 64 p.length)).2) else moqBufAppend (moqVarintWrite b (BitVec.ofNat 64 p.length)).2 p) =
    toRc (mlWriteString b p) := by
  rw [moqVarintWrite_eq]
  exact rcGiveUp_eq _ fun out => (true, out ++ p)

theorem moqStrWriteN_eq (b p : List Byte) : moqStrWriteN b p = toRc (mlWriteString b p) := rcCounted_eq b p

def CString.toStd (s : Option CString) : List Byte := s.elim [] CString.bytes

theorem moqStrWrite_eq (b : List Byte) (s : Option CString) : moqStrWrite b s = toRc (mlWriteString b (CString.toStd s)) := by
  cases s with
  | none => exact moqStrWriteN_eq b []
  | some s => exact moqStrWriteN_eq b s.bytes

variable (out : List Byte)

theorem moqMsgBuild_eq (typed : Bool) (type : BitVec 64) (body : List Byte) :
    moqMsgBuild out typed type body = toRc (mlBuildMessage out typed type body) := by
  have htype : (if typed then moqVarintWrite out type else (0, out)) =
      toRc (if typed then mlWriteVarint out type else (true, out)) := by
    cases typed
    · rfl
    · exact moqVarintWrite_eq out type
  unfold moqMsgBuild mlBuildMessage
  rw [htype]
  generalize (if typed then mlWriteVarint out type else (true, out)) = r
  obtain ⟨ok, b⟩ := r
  cases ok
  · rfl
  · exact rcCounted_eq b body

theorem rcBuild_eq (typed : Bool) (type : BitVec 64) (r : Bool × List Byte) :
    rcBuild out typed type (toRc r) = toRc (okBuild out typed type r) := by
  obtain ⟨ok, body⟩ := r
  cases ok
  · rfl
  · exact moqMsgBuild_eq out typed type body

theorem moqMsgRead_eq (p : List Byte) (off : Nat) : moqMsgRead p off = ⟨(mlReadMessage p off).status.toMoq, (mlReadMessage p
    off).off, (mlReadMessage p off).out⟩ := by
  unfold moqMsgRead mlReadMessage
  rw [moqVarintRead_eq]
  generalize mlReadVarint p off = r
  obtain ⟨ok, o, n⟩ := r
  cases ok
  · rfl
  · dsimp only [WireRead.toRc]
    generalize n.getD 0 = v
    have hbig : MOQ_MAX_MESSAGE_SIZE < v ↔ kMlMaxMessageSize < v := Iff.rfl
    by_cases h : kMlMaxMessageSize < v
    · simp [h, hbig, MlMsgStatus.toMoq]
    · by_cases hmore : p.length - o < v.toNat <;> simp [h, hbig, hmore, MlMsgStatus.toMoq]

theorem moqStrRead_eq (p : List Byte) (off : Nat) : ((moqStrRead p off).status = 0 ↔ (mlReadString p off).status = true) ∧
    (moqStrRead p off).off = (mlReadString p off).off ∧ (moqStrRead p off).out = (mlReadString p off).out := by
  unfold moqStrRead mlReadString
  rw [moqVarintRead_eq]
  generalize mlReadVarint p off = r
  obtain ⟨ok, o, n⟩ := r
  cases ok
  · simp [WireRead.toRc]
  · dsimp only [WireRead.toRc]
    generalize n.getD 0 = v
    by_cases hlong : p.length - o < v.toNat <;> simp [hlong]

/-! ## What a publisher sends -/

theorem moqZigzagEncode_eq : moqZigzagEncode v = toRc (mlZigzagEncode v) := by
  have hrange : (v.slt MOQ_ZIGZAG_MIN ∨ MOQ_ZIGZAG_MAX.slt v) ↔ (v.slt kMlZigzagMin ∨ kMlZigzagMax.slt v) := Iff.rfl
  unfold moqZigzagEncode mlZigzagEncode
  by_cases h : v.slt kMlZigzagMin ∨ kMlZigzagMax.slt v
  · rw [if_pos h, if_pos (hrange.2 h)]
    rfl
  · rw [if_neg h, if_neg (fun h' => h (hrange.1 h'))]
    rfl

theorem moqWireFrame_eq (tsDelta : BitVec 64) (payload : List Byte) :
    moqWireFrame out tsDelta payload = toRc (mlAppendFrame out tsDelta payload) := by
  unfold moqWireFrame mlAppendFrame
  rw [moqZigzagEncode_eq]
  generalize mlZigzagEncode tsDelta = z
  obtain ⟨ok, zz⟩ := z
  cases ok
  · rfl
  · dsimp only [toRc]
    rw [moqVarintWrite_eq]
    generalize mlWriteVarint out (zz.getD 0) = r
    obtain ⟨ok, b⟩ := r
    cases ok
    · rfl
    · exact rcCounted_eq b payload

theorem moqWireAnnounceOk_eq (origin active : BitVec 64) :
    moqWireAnnounceOk out origin active = toRc (mlBuildAnnounceOk out origin active) := by
  unfold moqWireAnnounceOk mlBuildAnnounceOk
  rw [moqVarintWrite_eq, rcThen_eq _ (moqVarintWrite_eq · active), rcBuild_eq]

theorem moqWireAnnounceStart_eq (sfx : Option CString) (warm cold : BitVec 64) :
    moqWireAnnounceStart out sfx warm cold = toRc (mlAppendAnnounceStart out (CString.toStd sfx) warm cold) := by
  unfold moqWireAnnounceStart mlAppendAnnounceStart
  rw [moqStrWrite_eq, rcThen_eq _ (moqVarintWrite_eq · 0), rcThen_eq _ (moqVarintWrite_eq · warm),
    rcThen_eq _ (moqVarintWrite_eq · cold), rcBuild_eq]

theorem moqWireTrackInfo_eq (priority : Byte) (maxAgeMs timescale : BitVec 64) :
    moqWireTrackInfo out priority maxAgeMs timescale = toRc (mlBuildTrackInfo out priority maxAgeMs timescale) := by
  unfold moqWireTrackInfo mlBuildTrackInfo
  have hbyte : moqBufAppend [] [priority] = toRc (true, [priority]) := rfl
  rw [hbyte, rcThen_eq _ (moqVarintWrite_eq · maxAgeMs), rcThen_eq _ (moqVarintWrite_eq · timescale), rcBuild_eq]
  rfl

theorem moqWireGroupHeader_eq (subId seq frameStart : BitVec 64) :
    moqWireGroupHeader out subId seq frameStart = toRc (mlBuildGroupHeader out subId seq frameStart) := by
  unfold moqWireGroupHeader mlBuildGroupHeader
  rw [moqVarintWrite_eq, rcThen_eq _ (moqVarintWrite_eq · seq), rcThen_eq _ (moqVarintWrite_eq · frameStart), rcBuild_eq]

/-! ## All of it -/

/-- **C and C++ agree** on every argument and every byte string: on the bytes written, also by a writer that fails, on
the values read, on the offsets and on the verdicts; of a string, on whether it is read. -/
structure WiresAgree : Prop where
  varintSize : ∀ v, moqVarintSize v = mlVarintLen v
  varintWrite : ∀ b v, moqVarintWrite b v = toRc (mlWriteVarint b v)
  varintRead : ∀ p off, moqVarintRead p off = (mlReadVarint p off).toRc
  varintSkip : ∀ p off, moqVarintSkip p off = toRc (mlSkipVarint p off)
  zigzagEncode : ∀ v, moqZigzagEncode v = toRc (mlZigzagEncode v)
  zigzagDecode : ∀ v, moqZigzagDecode v = mlZigzagDecode v
  strWriteN : ∀ b p, moqStrWriteN b p = toRc (mlWriteString b p)
  strWrite : ∀ b s, moqStrWrite b s = toRc (mlWriteString b (CString.toStd s))
  strRead : ∀ p off, ((moqStrRead p off).status = 0 ↔ (mlReadString p off).status = true) ∧
    (moqStrRead p off).off = (mlReadString p off).off ∧ (moqStrRead p off).out = (mlReadString p off).out
  msgRead : ∀ p off, moqMsgRead p off = ⟨(mlReadMessage p off).status.toMoq, (mlReadMessage p off).off, (mlReadMessage p off).out⟩
  msgBuild : ∀ out typed type body, moqMsgBuild out typed type body = toRc (mlBuildMessage out typed type body)
  putStreamType : ∀ out type, (moqPutStreamType out type).2 = mlAppendVarint out type
  announceOk : ∀ out origin active, moqWireAnnounceOk out origin active = toRc (mlBuildAnnounceOk out origin active)
  announceStart : ∀ out sfx warm cold,
    moqWireAnnounceStart out sfx warm cold = toRc (mlAppendAnnounceStart out (CString.toStd sfx) warm cold)
  subscribeStart : ∀ out group, moqWireSubscribeStart out group = toRc (mlBuildSubscribeStart out group)
  subscribeEnd : ∀ out group, moqWireSubscribeEnd out group = toRc (mlBuildSubscribeEnd out group)
  trackInfo : ∀ out priority maxAgeMs timescale,
    moqWireTrackInfo out priority maxAgeMs timescale = toRc (mlBuildTrackInfo out priority maxAgeMs timescale)
  groupHeader : ∀ out subId seq frameStart,
    moqWireGroupHeader out subId seq frameStart = toRc (mlBuildGroupHeader out subId seq frameStart)
  frame : ∀ out tsDelta payload, moqWireFrame out tsDelta payload = toRc (mlAppendFrame out tsDelta payload)

theorem wiresAgree : WiresAgree where
  varintSize := moqVarintSize_eq
  varintWrite := moqVarintWrite_eq
  varintRead := moqVarintRead_eq
  varintSkip p off := by
    unfold moqVarintSkip mlSkipVarint
    rw [moqVarintRead_eq]
    rfl
  zigzagEncode := moqZigzagEncode_eq
  zigzagDecode _ := rfl
  strWriteN := moqStrWriteN_eq
  strWrite := moqStrWrite_eq
  strRead := moqStrRead_eq
  msgRead := moqMsgRead_eq
  msgBuild := moqMsgBuild_eq
  putStreamType out type := congrArg Prod.snd (moqVarintWrite_eq out type)
  announceOk := moqWireAnnounceOk_eq
  announceStart := moqWireAnnounceStart_eq
  subscribeStart out group := by
    unfold moqWireSubscribeStart mlBuildSubscribeStart
    rw [moqVarintWrite_eq, rcBuild_eq]
  subscribeEnd out group := by
    unfold moqWireSubscribeEnd mlBuildSubscribeEnd
    rw [moqVarintWrite_eq, rcBuild_eq]
  trackInfo := moqWireTrackInfo_eq
  groupHeader := moqWireGroupHeader_eq
  frame := moqWireFrame_eq

/-- **C tells a string that is cut off from one that is too long for what is there**, which C++ answers alike: no reading
of the C++ verdict gives the C one. -/
theorem moqStrRead_tells_more :
    ¬∃ verdict : Bool → Int, ∀ p off, (moqStrRead p off).status = verdict (mlReadString p off).status := by
  rintro ⟨verdict, h⟩
  have hcut : (-1 : Int) = verdict false := h [] 0
  have hlong : (-2 : Int) = verdict false := h [1] 0
  rw [← hcut] at hlong
  cases hlong

end MoqLiveCast
