import MoqLiveCast.Moq.Egress
import MoqLiveCast.Moq.WireAgree
/-!
# GroupWire — the frames of a group, byte by byte

A frame is a zigzag number, a length, and a payload that is a time and the codec's bytes.
-/
namespace MoqLiveCast

theorem mlWriteVarint_eq (out : List Byte) (v : BitVec 64) :
    mlWriteVarint out v = if kMlVarintMax < v then (false, out) else (true, out ++ varintBytes v.toNat) := by
  split
  · rename_i h
    exact if_pos h
  · rename_i h
    exact mlWriteVarint_bytes h out

/-! ## zigzag -/

theorem neg_lowBit (z : BitVec 64) : -(z &&& 1#64) = if z.getLsbD 0 then BitVec.allOnes 64 else 0#64 := by
  have hbit : z &&& 1#64 = if z.getLsbD 0 then 1#64 else 0#64 := by
    ext i hi
    by_cases h0 : i = 0
    · subst h0
      cases h : z.getLsbD 0 <;> simp [BitVec.getElem_eq_testBit_toNat, BitVec.getLsbD] at h ⊢ <;> simp [h]
    · cases h : z.getLsbD 0 <;> simp [h0]
  rw [hbit]
  split <;> rfl

theorem sshiftRight_63 (v : BitVec 64) : v.sshiftRight 63 = if v.msb then BitVec.allOnes 64 else 0#64 := by
  ext i hi
  rw [BitVec.getElem_sshiftRight]
  by_cases h0 : i = 0
  · subst h0
    have hmsb : v.msb = v[63] := by simp [BitVec.msb_eq_getLsbD_last]
    cases h : v.msb <;> simp [← hmsb, h]
  · rw [dif_neg (by omega)]
    cases v.msb
    · simp
    · rw [if_pos rfl, BitVec.getElem_allOnes]

theorem zigzag_pos {v : BitVec 64} (h : v.msb = false) : (v <<< 1) ^^^ v.sshiftRight 63 = v <<< 1 := by
  rw [sshiftRight_63, h]
  simp

theorem zigzag_neg {v : BitVec 64} (h : v.msb = true) : (v <<< 1) ^^^ v.sshiftRight 63 = ~~~(v <<< 1) := by
  rw [sshiftRight_63, h, if_pos rfl, BitVec.xor_allOnes]

theorem zigzag_roundTrip (v : BitVec 64) : mlZigzagDecode ((v <<< 1) ^^^ v.sshiftRight 63) = v := by
  have hlt := v.isLt
  unfold mlZigzagDecode
  rw [show (1 : BitVec 64) = 1#64 from rfl, neg_lowBit]
  cases h : v.msb with
  | false =>
    rw [zigzag_pos h]
    have hlow := BitVec.msb_eq_false_iff_two_mul_lt.1 h
    have hbit : (v <<< 1).getLsbD 0 = false := by simp
    rw [hbit, if_neg Bool.false_ne_true, BitVec.xor_zero]
    apply BitVec.eq_of_toNat_eq
    rw [BitVec.toNat_ushiftRight, BitVec.toNat_shiftLeft, Nat.shiftRight_eq_div_pow, Nat.shiftLeft_eq]
    omega
  | true =>
    rw [zigzag_neg h]
    have hhigh := BitVec.msb_eq_true_iff_two_mul_ge.1 h
    have hbit : (~~~(v <<< 1)).getLsbD 0 = true := by simp
    rw [hbit, if_pos rfl, BitVec.xor_allOnes]
    apply BitVec.eq_of_toNat_eq
    rw [BitVec.toNat_not, BitVec.toNat_ushiftRight, BitVec.toNat_not, BitVec.toNat_shiftLeft, Nat.shiftRight_eq_div_pow,
      Nat.shiftLeft_eq]
    omega

theorem zigzag_le {v : BitVec 64} (h : ¬(v.slt kMlZigzagMin ∨ kMlZigzagMax.slt v)) :
    ¬kMlVarintMax < (v <<< 1) ^^^ v.sshiftRight 63 := by
  have hlt := v.isLt
  obtain ⟨hmin, hmax⟩ := not_or.1 h
  rw [BitVec.slt_iff_toInt_lt] at hmin hmax
  have hMin : kMlZigzagMin.toInt = -2 ^ 61 := by decide
  have hMax : kMlZigzagMax.toInt = 2 ^ 61 - 1 := by decide
  have hLimit : kMlVarintMax.toNat = 2 ^ 62 - 1 := by decide
  rw [hMin] at hmin
  rw [hMax] at hmax
  rw [BitVec.lt_def, hLimit]
  cases hs : v.msb with
  | false =>
    have hlow := BitVec.msb_eq_false_iff_two_mul_lt.1 hs
    rw [BitVec.toInt_eq_toNat_of_msb hs] at hmax
    rw [zigzag_pos hs, BitVec.toNat_shiftLeft, Nat.shiftLeft_eq]
    omega
  | true =>
    have hhigh := BitVec.msb_eq_true_iff_two_mul_ge.1 hs
    rw [BitVec.toInt_eq_msb_cond, hs, if_pos rfl] at hmin
    rw [zigzag_neg hs, BitVec.toNat_not, BitVec.toNat_shiftLeft, Nat.shiftLeft_eq]
    omega

/-! ## Frames -/

def frameOnWire (z : BitVec 64) (payload : List Byte) : List Byte :=
  varintBytes z.toNat ++ varintBytes (BitVec.ofNat 64 payload.length).toNat ++ payload

theorem mlAppendFrame_eq_some {d : BitVec 64} {payload data : List Byte} : mlAppendFrame [] d payload = (true, data) ↔
    ¬(d.slt kMlZigzagMin ∨ kMlZigzagMax.slt d) ∧ ¬kMlVarintMax < BitVec.ofNat 64 payload.length ∧ data = frameOnWire
    ((d <<< 1) ^^^ d.sshiftRight 63) payload := by
  unfold mlAppendFrame mlZigzagEncode
  by_cases hd : d.slt kMlZigzagMin ∨ kMlZigzagMax.slt d
  · rw [if_pos hd]
    simp [hd]
  · rw [if_neg hd]
    dsimp only
    rw [if_pos rfl, Option.getD_some, mlWriteVarint_eq, if_neg (zigzag_le hd)]
    by_cases hl : kMlVarintMax < BitVec.ofNat 64 payload.length
    · have hw : okThen (true, [] ++ varintBytes ((d <<< 1) ^^^ d.sshiftRight 63).toNat)
          (mlWriteVarint · (BitVec.ofNat 64 payload.length)) = (false, _) := (mlWriteVarint_eq _ _).trans (if_pos hl)
      rw [hw]
      simp [okThen, hl]
    · have hw : okThen (true, [] ++ varintBytes ((d <<< 1) ^^^ d.sshiftRight 63).toNat)
          (mlWriteVarint · (BitVec.ofNat 64 payload.length)) = (true, _) := (mlWriteVarint_eq _ _).trans (if_neg hl)
      rw [hw]
      constructor
      · intro h
        exact ⟨hd, hl, (congrArg Prod.snd h).symm⟩
      · rintro ⟨-, -, rfl⟩
        rfl

def MediaFrame.payload (f : MediaFrame) : List Byte := varintBytes f.tsUs.toNat ++ f.codec

theorem encodeFrame_eq_some {prev : BitVec 64} {f : MediaFrame} {data : List Byte} : Egress.encodeFrame prev f = some data ↔
    ¬kMlVarintMax < f.tsUs ∧ ¬((f.tsUs - prev).slt kMlZigzagMin ∨ kMlZigzagMax.slt (f.tsUs - prev)) ∧ ¬kMlVarintMax < BitVec.ofNat
    64 f.payload.length ∧ data = frameOnWire (((f.tsUs - prev) <<< 1) ^^^ (f.tsUs - prev).sshiftRight 63) f.payload := by
  unfold Egress.encodeFrame
  rw [mlWriteVarint_eq]
  by_cases ht : kMlVarintMax < f.tsUs
  · simp [ht]
  · rw [if_neg ht]
    dsimp only
    rw [if_pos rfl, List.nil_append]
    have h : mlAppendFrame [] (f.tsUs - prev) f.payload = (true, data) ↔ _ := mlAppendFrame_eq_some
    unfold MediaFrame.payload at h ⊢
    constructor
    · intro hs
      split at hs
      · rename_i hok
        exact ⟨ht, h.1 (Prod.ext hok (Option.some.inj hs))⟩
      · cases hs
    · intro hs
      rw [h.2 hs.2]
      rfl

theorem endMarker_eq_some {us : BitVec 64} {data : List Byte} :
    Egress.endMarker us = some data ↔ ¬kMlVarintMax < us ∧ data = frameOnWire 0 (varintBytes us.toNat) := by
  have hlen : ¬kMlVarintMax < BitVec.ofNat 64 (varintBytes us.toNat).length := by
    rw [varintBytes_length]
    rcases quicVarintLen_cases us.toNat with h | h | h | h <;> rw [h] <;> decide
  have h : mlAppendFrame [] 0 (varintBytes us.toNat) = (true, frameOnWire 0 (varintBytes us.toNat)) ↔ _ :=
    mlAppendFrame_eq_some
  have hok := h.2 ⟨by decide, hlen, rfl⟩
  unfold Egress.endMarker
  rw [mlWriteVarint_eq]
  by_cases ht : kMlVarintMax < us
  · simp [ht]
  · rw [if_neg ht, List.nil_append]
    dsimp only
    rw [if_pos rfl, hok]
    simp [ht, eq_comm]

theorem varintBytes_ne_nil (val : Nat) : varintBytes val ≠ [] := by
  intro h
  have hlen := varintBytes_length val
  have hpos := quicVarintLen_cases val
  rw [h, List.length_nil] at hlen
  omega

theorem varintBytes_le (n : Nat) : (varintBytes n).length ≤ 8 := by
  rw [varintBytes_length]
  rcases quicVarintLen_cases n with h | h | h | h <;> omega

theorem encodeFrame_ne_nil {prev : BitVec 64} {f : MediaFrame} {data : List Byte}
    (h : Egress.encodeFrame prev f = some data) : data ≠ [] := by
  rw [(encodeFrame_eq_some.1 h).2.2.2]
  unfold frameOnWire
  simp [varintBytes_ne_nil]

end MoqLiveCast
