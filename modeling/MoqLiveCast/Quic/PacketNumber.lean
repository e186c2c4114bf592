import MoqLiveCast.Quic.PacketBuild
import MoqLiveCast.Quic.PacketKeys
import MoqLiveCast.Rtmp.ChunkStream
/-!
# PacketNumber — packet numbers cut short, in 64 bits (`quic_packet.c`)

`quicPnDecode64` computes as the source does; where no sum wraps it is `quicPnDecode`, which the receivers use.
-/
namespace MoqLiveCast

def quicPnEncode (pn : BitVec 64) (len : Nat) : List Byte := beBytes len pn.toNat

def truncatedPn (buf : List Byte) : BitVec 64 := buf.foldl (fun n b => n <<< 8 ||| b.setWidth 64) 0

def pnWindow (len : Nat) : BitVec 64 := 1#64 <<< (8 * len)

/-- The number in the window of `expected` with these bits. -/
def pnCandidate (buf : List Byte) (expected : BitVec 64) : BitVec 64 :=
  expected &&& ~~~(pnWindow buf.length - 1) ||| truncatedPn buf

def quicPnDecode64 (buf : List Byte) (expected : BitVec 64) : BitVec 64 :=
  let pnWin := pnWindow buf.length
  let pnHwin := pnWin / 2
  let candidate := pnCandidate buf expected
  if candidate + pnHwin ≤ expected then candidate + pnWin
  else if expected + pnHwin < candidate ∧ pnWin < candidate then candidate - pnWin
  else candidate

def PnNoWrap (buf : List Byte) (expected : BitVec 64) : Prop :=
  (pnCandidate buf expected).toNat + (pnWindow buf.length / 2).toNat < 2 ^ 64 ∧
    expected.toNat + (pnWindow buf.length / 2).toNat < 2 ^ 64 ∧
    (pnCandidate buf expected).toNat + (pnWindow buf.length).toNat < 2 ^ 64

/-! ## Bits -/

theorem pnWindow_toNat {len : Nat} (hlen : len ≤ 4) : (pnWindow len).toNat = 2 ^ (8 * len) := by
  have hlt : 2 ^ (8 * len) < 2 ^ 64 := Nat.pow_lt_pow_right (by omega) (by omega)
  unfold pnWindow
  rw [BitVec.toNat_shiftLeft, Nat.shiftLeft_eq, BitVec.toNat_one (by decide), Nat.one_mul, Nat.mod_eq_of_lt hlt]

theorem pnHalf_toNat {len : Nat} (hlen : len ≤ 4) : (pnWindow len / 2).toNat = 2 ^ (8 * len) / 2 := by
  rw [BitVec.toNat_udiv, pnWindow_toNat hlen]
  rfl

theorem and_window {len : Nat} (hlen : len ≤ 4) (x : BitVec 64) :
    (x &&& ~~~(pnWindow len - 1)).toNat = x.toNat / 2 ^ (8 * len) * 2 ^ (8 * len) := by
  have hwin := pnWindow_toNat hlen
  have hpos : 0 < 2 ^ (8 * len) := Nat.two_pow_pos _
  have hmask : (pnWindow len - 1).toNat = 2 ^ (8 * len) - 1 := by
    rw [BitVec.toNat_sub_of_le (by rw [BitVec.le_def, hwin]; exact hpos), hwin]
    rfl
  apply Nat.eq_of_testBit_eq
  intro i
  rw [← Nat.shiftRight_eq_div_pow, ← Nat.shiftLeft_eq, Nat.testBit_shiftLeft, Nat.testBit_shiftRight, BitVec.testBit_toNat,
    BitVec.getLsbD_and, BitVec.getLsbD_not, ← BitVec.testBit_toNat (pnWindow len - 1), hmask, Nat.testBit_two_pow_sub_one,
    BitVec.testBit_toNat]
  by_cases hi : 8 * len ≤ i
  · have hback : 8 * len + (i - 8 * len) = i := by omega
    by_cases h64 : i < 64
    · simp [hi, h64, hback]
    · rw [BitVec.getLsbD_of_ge x i (by omega)]
      simp [hi, hback, BitVec.getLsbD_of_ge x i (Nat.le_of_not_lt h64)]
  · have hlt : i < 8 * len := by omega
    simp [hi, hlt]

theorem truncatedPn_toNat {buf : List Byte} (hlen : buf.length ≤ 4) : (truncatedPn buf).toNat = readNBytes buf :=
  shiftOr_foldl buf 0 1 Nat.one_pos (by
    have hpow := Nat.pow_le_pow_right (show 0 < 256 by decide) hlen
    omega)

theorem pnCandidate_toNat {buf : List Byte} (hlen : buf.length ≤ 4) (expected : BitVec 64) :
    (pnCandidate buf expected).toNat = expected.toNat / 2 ^ (8 * buf.length) * 2 ^ (8 * buf.length) + readNBytes buf := by
  have hlt := readNBytes_lt buf
  have hpow : (256 : Nat) ^ buf.length = 2 ^ (8 * buf.length) := by rw [Nat.pow_mul]
  rw [hpow] at hlt
  unfold pnCandidate
  rw [BitVec.toNat_or, and_window hlen, truncatedPn_toNat hlen, ← Nat.shiftLeft_eq, Nat.shiftLeft_add_eq_or_of_lt hlt]

/-! ## Packet numbers -/

theorem quicPnDecode64_toNat {buf : List Byte} (hlen : buf.length ≤ 4) {expected : BitVec 64} (h : PnNoWrap buf expected) :
    (quicPnDecode64 buf expected).toNat = quicPnDecode buf expected.toNat := by
  obtain ⟨h1, h2, h3⟩ := h
  have hhalf := pnHalf_toNat hlen
  have hc := pnCandidate_toNat hlen expected
  have hup : pnCandidate buf expected + pnWindow buf.length / 2 ≤ expected ↔
      (pnCandidate buf expected).toNat + 2 ^ (8 * buf.length) / 2 ≤ expected.toNat := by
    rw [BitVec.le_def, BitVec.toNat_add_of_lt h1, hhalf]
  have hdown : expected + pnWindow buf.length / 2 < pnCandidate buf expected ∧ pnWindow buf.length < pnCandidate buf expected ↔
      expected.toNat + 2 ^ (8 * buf.length) / 2 < (pnCandidate buf expected).toNat ∧
        2 ^ (8 * buf.length) < (pnCandidate buf expected).toNat := by
    rw [BitVec.lt_def, BitVec.lt_def, BitVec.toNat_add_of_lt h2, hhalf, pnWindow_toNat hlen]
  unfold readNBytes at hc
  unfold quicPnDecode64 quicPnDecode
  dsimp only
  rw [← hc]
  by_cases hu : pnCandidate buf expected + pnWindow buf.length / 2 ≤ expected
  · rw [if_pos hu, if_pos (hup.1 hu), BitVec.toNat_add_of_lt h3, pnWindow_toNat hlen]
  · rw [if_neg hu, if_neg (mt hup.2 hu)]
    by_cases hd : expected + pnWindow buf.length / 2 < pnCandidate buf expected ∧ pnWindow buf.length < pnCandidate buf expected
    · rw [if_pos hd, if_pos (hdown.1 hd), BitVec.toNat_sub_of_le (Nat.le_of_lt hd.2), pnWindow_toNat hlen]
    · rw [if_neg hd, if_neg (mt hdown.2 hd)]

theorem closest_candidate {pn expected half : Nat} (hpos : 0 < half) (hhigh : expected < pn + half)
    (hlow : pn < 2 * half ∨ pn ≤ expected + half) :
    let candidate := expected / (2 * half) * (2 * half) + pn % (2 * half)
    (if candidate + half ≤ expected then candidate + 2 * half
      else if expected + half < candidate ∧ 2 * half < candidate then candidate - 2 * half else candidate) = pn := by
  dsimp only
  generalize hwin : 2 * half = win at *
  have hwpos : 0 < win := by omega
  have hE := Nat.div_add_mod' expected win
  have hP := Nat.div_add_mod' pn win
  have hEr := Nat.mod_lt expected hwpos
  have hPr := Nat.mod_lt pn hwpos
  generalize expected / win = q at *
  generalize pn / win = a at *
  generalize expected % win = r at *
  generalize pn % win = b at *
  have hstep : ∀ x y : Nat, x < y → x * win + win ≤ y * win := fun x y hxy => by
    rw [← Nat.succ_mul]
    exact Nat.mul_le_mul_right _ hxy
  rcases Nat.lt_trichotomy q a with hqa | rfl | haq
  · -- the number is in the window above, so it was cut short
    have h1 := hstep q a hqa
    have hnear : pn ≤ expected + half := hlow.resolve_left (by omega)
    have hnext : a = q + 1 := by
      rcases Nat.lt_or_ge (q + 1) a with h | h
      · have h2 := hstep (q + 1) a h
        rw [Nat.succ_mul] at h2
        omega
      · omega
    subst hnext
    rw [Nat.succ_mul] at hP
    rw [if_pos (by omega)]
    omega
  · rw [if_neg (by omega), if_neg (by omega)]
    omega
  · have h1 := hstep a q haq
    have hnext : q = a + 1 := by
      rcases Nat.lt_or_ge (a + 1) q with h | h
      · have h2 := hstep (a + 1) q h
        rw [Nat.succ_mul] at h2
        omega
      · omega
    subst hnext
    rw [Nat.succ_mul] at hE ⊢
    rw [if_neg (by omega), if_pos (by omega)]
    omega

theorem quicPnEncodeLen_spec (pn : Nat) : 1 ≤ quicPnEncodeLen pn ∧ quicPnEncodeLen pn ≤ 4 ∧
    (pn < 2 ^ (8 * quicPnEncodeLen pn) ∨ quicPnEncodeLen pn = 4) := by
  unfold quicPnEncodeLen
  (repeat' split) <;> omega

/-- **A packet number that is cut short is read back**, and no sum wraps. -/
theorem quicPnDecode_encode (pn expected : BitVec 64) (hpn : pn.toNat < 2 ^ 62) (hhigh : expected.toNat < pn.toNat + 2 ^
    (8 * quicPnEncodeLen pn.toNat - 1)) (hlow : pn.toNat < 2 ^ 32 ∨ pn.toNat ≤ expected.toNat + 2 ^ 31) :
    quicPnDecode64 (quicPnEncode pn (quicPnEncodeLen pn.toNat)) expected = pn ∧ PnNoWrap (quicPnEncode pn (quicPnEncodeLen
    pn.toNat)) expected := by
  obtain ⟨hone, hfour, hwhole⟩ := quicPnEncodeLen_spec pn.toNat
  generalize quicPnEncodeLen pn.toNat = len at *
  have hbuf : (quicPnEncode pn len).length = len := beBytes_length len _
  have hle : (quicPnEncode pn len).length ≤ 4 := by omega
  have hbits : readNBytes (quicPnEncode pn len) = pn.toNat % 2 ^ (8 * len) := by
    unfold quicPnEncode
    rw [readNBytes_beBytes, Nat.pow_mul]
  have hwin : 2 ^ (8 * len) = 2 * 2 ^ (8 * len - 1) := by
    rw [← Nat.pow_succ']
    congr 1
    omega
  have hhalf : 2 ^ (8 * len - 1) ≤ 2 ^ 31 := Nat.pow_le_pow_right (by decide) (by omega)
  have hmod : pn.toNat % 2 ^ (8 * len) < 2 ^ (8 * len) := Nat.mod_lt _ (Nat.two_pow_pos _)
  have hcand := pnCandidate_toNat hle expected
  rw [hbuf, hbits] at hcand
  have hdiv := Nat.div_mul_le_self expected.toNat (2 ^ (8 * len))
  have hwrap : PnNoWrap (quicPnEncode pn len) expected := by
    unfold PnNoWrap
    rw [pnHalf_toNat hle, pnWindow_toNat hle, hbuf, hcand]
    omega
  refine ⟨?_, hwrap⟩
  apply BitVec.eq_of_toNat_eq
  have hdecode := closest_candidate (Nat.two_pow_pos (8 * len - 1)) hhigh (by
    rcases hwhole with h | rfl
    · exact .inl (by omega)
    · exact hlow)
  dsimp only at hdecode
  rw [quicPnDecode64_toNat hle hwrap]
  unfold quicPnDecode
  unfold readNBytes at hbits
  dsimp only
  rw [hbits, hbuf, hwin, Nat.mul_div_cancel_left _ (by decide)]
  exact hdecode

theorem quicPnDecode_encode_sample : quicPnDecode64 (quicPnEncode 0x1234567890 4) 0x12b4567000 = 0x1234567890 ∧
    PnNoWrap (quicPnEncode 0x1234567890 4) 0x12b4567000 :=
  quicPnDecode_encode 0x1234567890 0x12b4567000 (by decide) (by decide) (by decide)

end MoqLiveCast
