import MoqLiveCast.Lib.Word
import MoqLiveCast.Quic.Listener
import MoqLiveCast.Quic.PacketKeys
/-!
# LongHeader — parsing a long-header packet (`quic_packet_parse_long`)

The header is read up to the Length field, header protection is removed, and the rest of the packet is handed to the
AEAD, as two ranges of the datagram.  The Length field counts the packet number, whose own length stands in the protected
first byte: the length of the ciphertext is their difference, in `size_t`.
-/
namespace MoqLiveCast

def QUIC_VERSION_V1 : Nat := 1

/-! ## The header in the clear -/

def readVersion : Reader Byte Nat :=
  Reader.map (fun bytes => bytes.foldl (fun n b => n * 256 + b.toNat) 0) (Reader.take 4)

/-- A connection id after its length; one that is too long is stored as empty. -/
def readCid : Reader Byte (List Byte) := fun data =>
  match data with
  | [] => none
  | cidLen :: rest =>
    Reader.map (fun cid => if 0 < cid.length ∧ cid.length ≤ QUIC_CID_MAX_LEN then cid else [])
      (Reader.take cidLen.toNat) rest

def readToken (rawType : Byte) : Reader Byte (List Byte) :=
  if rawType = QUIC_PKT_INITIAL then Reader.andThen readVarint Reader.take else Reader.done []

structure LongHeader where
  rawType : Byte
  dstCid : List Byte
  srcCid : List Byte
  token : List Byte
  /-- the Length field -/
  bodyLen : Nat
  pnOffset : Nat

/-- The fields up to the packet number; there is a sample for header protection after it. -/
def longHeader (data : List Byte) : Option LongHeader :=
  let first := data.headD 0
  let rawType := (first >>> 4) &&& 0x03
  if data.length < 7 then none
  else if first &&& 0x80 = 0 then none
  else
    (readVersion data.tail).bind fun (version, rest) =>
      if version ≠ QUIC_VERSION_V1 then none
      else
        (readCid rest).bind fun (dstCid, rest) =>
          (readCid rest).bind fun (srcCid, rest) =>
            (readToken rawType rest).bind fun (token, rest) =>
              (readVarint rest).bind fun (bodyLen, rest) =>
                let pnOffset := data.length - rest.length
                if data.length < pnOffset + 20 then none
                else some { rawType, dstCid, srcCid, token, bodyLen, pnOffset }

/-! ## The packet number -/

section

variable (crypto : Crypto)

def longMask (keys : QuicCipherKeys) (pkt : List Byte) (pnOffset : Nat) : List Byte :=
  crypto.hpMask keys.suite keys.hpKey ((pkt.drop (pnOffset + 4)).take 16)

def longPnLen (keys : QuicCipherKeys) (pkt : List Byte) (pnOffset : Nat) : Nat :=
  ((pkt.headD 0 ^^^ ((longMask crypto keys pkt pnOffset).headD 0 &&& 0x0f)) &&& 0x03).toNat + 1

def quicCryptoHpRemoveLong (keys : QuicCipherKeys) (pkt : List Byte) (pnOffset : Nat) : Option (Nat × List Byte) :=
  if keys.initialized = false then none
  else if pkt.length < pnOffset + 4 + 16 then none
  else
    let mask := longMask crypto keys pkt pnOffset
    let first := pkt.headD 0 ^^^ (mask.headD 0 &&& 0x0f)
    let pnLen := longPnLen crypto keys pkt pnOffset
    some (pnLen, (pkt.set 0 first).mapIdx fun i b =>
      if pnOffset ≤ i ∧ i < pnOffset + pnLen then b ^^^ mask.getD (1 + (i - pnOffset)) 0 else b)

/-! ## The AEAD call -/

/-- The arguments of `quic_crypto_decrypt`: the additional data are the first `aadLen` bytes of `pkt`, the ciphertext the
`ctLen` bytes at `ctPos`. -/
structure LongAead where
  keys : QuicCipherKeys
  pn : Nat
  pkt : List Byte
  aadLen : Nat
  ctPos : Nat
  ctLen : Nat

/-- `quic_packet_parse_long` up to its AEAD call. -/
def longAead (keys : QuicCipherKeys) (expectedPn : Nat) (data : List Byte) : Option (LongHeader × LongAead) :=
  (longHeader data).bind fun h =>
    (quicCryptoHpRemoveLong crypto keys data h.pnOffset).bind fun (pnLen, pkt) =>
      let pn := quicPnDecode ((pkt.drop h.pnOffset).take pnLen) expectedPn
      let ctLen := sub64 h.bodyLen pnLen
      let ctPos := h.pnOffset + pnLen
      if data.length < add64 ctPos ctLen then none
      else some (h, { keys, pn, pkt, aadLen := ctPos, ctPos, ctLen })

structure LongPacket where
  pktType : Byte
  dstCid : List Byte
  srcCid : List Byte
  token : List Byte
  pn : Nat
  payloadPos : Nat
  payloadLen : Nat
  consumed : Nat

/-- `quic_packet_parse_long`; `decrypt` is `quic_crypto_decrypt`, which answers the length of the plaintext. -/
def quicPacketParseLong (decrypt : LongAead → Option Nat) (keys : QuicCipherKeys) (expectedPn : Nat)
    (data : List Byte) : Option LongPacket :=
  (longAead crypto keys expectedPn data).bind fun (h, a) =>
    (decrypt a).map fun payloadLen =>
      { pktType := h.rawType, dstCid := h.dstCid, srcCid := h.srcCid, token := h.token, pn := a.pn,
        payloadPos := a.ctPos, payloadLen, consumed := add64 a.ctPos a.ctLen }

/-! ## Inside the datagram -/

theorem takes_readCid : Takes readCid 1 256 := by
  intro data cid rest h
  cases data with
  | nil => cases h
  | cons cidLen tail =>
    have hlt := cidLen.isLt
    unfold readCid at h
    have := (takes_take cidLen.toNat).map _ h
    rw [List.length_cons]
    omega

theorem takes_readToken (rawType : Byte) : Takes (readToken rawType) 0 (2 ^ 62 + 8) := by
  intro data token rest h
  unfold readToken at h
  split at h
  · obtain ⟨tokLen, mid, hlen, htok⟩ := Reader.andThen_eq_some.1 h
    have h1 := takes_readVarint hlen
    have h2 := takes_take tokLen htok
    have h3 := readVarint_lt hlen
    omega
  · have := takes_done _ h
    omega

variable {h : LongHeader}

theorem longHeader_bounds {data : List Byte} (hh : longHeader data = some h) :
    0 < h.pnOffset ∧ h.pnOffset < 2 ^ 63 ∧ h.pnOffset + 20 ≤ data.length ∧ h.bodyLen < 2 ^ 62 := by
  unfold longHeader at hh
  dsimp only at hh
  split at hh
  · cases hh
  · split at hh
    · cases hh
    · obtain ⟨⟨version, rest1⟩, hversion, hh⟩ := Option.bind_eq_some_iff.1 hh
      dsimp only at hh
      split at hh
      · cases hh
      · obtain ⟨⟨dstCid, rest2⟩, hdst, hh⟩ := Option.bind_eq_some_iff.1 hh
        obtain ⟨⟨srcCid, rest3⟩, hsrc, hh⟩ := Option.bind_eq_some_iff.1 hh
        obtain ⟨⟨token, rest4⟩, htok, hh⟩ := Option.bind_eq_some_iff.1 hh
        obtain ⟨⟨bodyLen, rest5⟩, hbody, hh⟩ := Option.bind_eq_some_iff.1 hh
        dsimp only at hh
        split at hh
        · cases hh
        · cases hh
          have h1 := (takes_take 4).map _ hversion
          have h2 := takes_readCid hdst
          have h3 := takes_readCid hsrc
          have h4 := takes_readToken _ htok
          have h5 := takes_readVarint hbody
          rw [List.length_tail] at h1
          refine ⟨?_, ?_, ?_, readVarint_lt hbody⟩
          all_goals
            dsimp only at *
            omega

/-! ## The two ranges -/

/-- The AEAD call, where one is made, gets ranges of the datagram, the length of the ciphertext without a wrap; what is
consumed is not empty and not more than the datagram. -/
def LongStaysInside (decrypt : LongAead → Option Nat) (keys : QuicCipherKeys) (expectedPn : Nat) (data : List Byte) :
    Prop :=
  (∀ h a, longAead crypto keys expectedPn data = some (h, a) →
    a.aadLen ≤ data.length ∧ a.ctPos + a.ctLen ≤ data.length ∧
      a.ctLen + longPnLen crypto keys data h.pnOffset = h.bodyLen) ∧
  ∀ p, quicPacketParseLong crypto decrypt keys expectedPn data = some p → 0 < p.consumed ∧ p.consumed ≤ data.length

def LengthCountsPn (keys : QuicCipherKeys) (data : List Byte) : Prop :=
  ∀ h, longHeader data = some h → keys.initialized = true → longPnLen crypto keys data h.pnOffset ≤ h.bodyLen

variable {crypto}

theorem longPnLen_bounds (keys : QuicCipherKeys) (pkt : List Byte) (pnOffset : Nat) :
    0 < longPnLen crypto keys pkt pnOffset ∧ longPnLen crypto keys pkt pnOffset ≤ 4 := by
  unfold longPnLen
  rw [BitVec.toNat_and]
  have h3 : ∀ x : Nat, x &&& (3 : Byte).toNat ≤ 3 := fun x => Nat.and_le_right
  exact ⟨Nat.succ_pos _, Nat.succ_le_succ (h3 _)⟩

variable {expectedPn : Nat} {keys : QuicCipherKeys}

theorem longAead_eq_some {data : List Byte} {a : LongAead} (ha : longAead crypto keys expectedPn data = some (h, a)) :
    longHeader data = some h ∧ keys.initialized = true ∧ a.aadLen = a.ctPos ∧ a.ctPos = h.pnOffset + longPnLen crypto keys data
    h.pnOffset ∧ a.ctLen = sub64 h.bodyLen (longPnLen crypto keys data h.pnOffset) ∧ add64 a.ctPos a.ctLen ≤ data.length := by
  unfold longAead quicCryptoHpRemoveLong at ha
  obtain ⟨h', hheader, ha⟩ := Option.bind_eq_some_iff.1 ha
  obtain ⟨⟨pnLen, pkt⟩, hhp, ha⟩ := Option.bind_eq_some_iff.1 ha
  split at hhp
  · cases hhp
  · next hinit =>
    split at hhp
    · cases hhp
    · cases hhp
      dsimp only at ha
      split at ha
      · cases ha
      · next hfits =>
        cases ha
        exact ⟨hheader, Bool.eq_true_of_not_eq_false hinit, rfl, rfl, rfl, Nat.not_lt.1 hfits⟩

theorem longAead_stop {data : List Byte} (hheader : longHeader data = some h) (pnLen : Nat) :
    add64 (h.pnOffset + pnLen) (sub64 h.bodyLen pnLen) = h.pnOffset + h.bodyLen := by
  obtain ⟨-, hoff, -, hbody⟩ := longHeader_bounds hheader
  unfold add64 sub64 wordSize
  omega

theorem longAead_of_short (hinit : keys.initialized = true) (expectedPn : Nat) {data : List Byte} (hheader : longHeader data = some h)
    (hshort : h.bodyLen < longPnLen crypto keys data h.pnOffset) :
    ∃ a, longAead crypto keys expectedPn data = some (h, a) ∧ h.bodyLen < a.ctLen := by
  obtain ⟨-, -, hsample, hbody⟩ := longHeader_bounds hheader
  have hpn := (@longPnLen_bounds crypto keys data h.pnOffset).2
  have hlong : ¬ data.length < h.pnOffset + 4 + 16 := by omega
  have hfits : ¬ data.length < h.pnOffset + h.bodyLen := by omega
  unfold longAead quicCryptoHpRemoveLong
  rw [hheader, Option.bind_some, hinit, if_neg (by decide), if_neg hlong, Option.bind_some]
  dsimp only
  rw [longAead_stop hheader, if_neg hfits]
  refine ⟨_, rfl, ?_⟩
  dsimp only
  unfold sub64 wordSize
  omega

theorem longAead_inside {data : List Byte} {a : LongAead} (ha : longAead crypto keys expectedPn data = some (h, a))
    (hcounts : longPnLen crypto keys data h.pnOffset ≤ h.bodyLen) : a.aadLen ≤ data.length ∧ a.ctPos + a.ctLen ≤ data.length ∧
    a.ctLen + longPnLen crypto keys data h.pnOffset = h.bodyLen := by
  obtain ⟨hheader, -, haad, hpos, hlen, hfits⟩ := longAead_eq_some ha
  obtain ⟨-, -, -, hbody⟩ := longHeader_bounds hheader
  have hword : h.bodyLen < wordSize := by
    unfold wordSize
    omega
  rw [hpos, hlen, longAead_stop hheader] at hfits
  rw [sub64_of_le hcounts hword] at hlen
  omega

theorem quicPacketParseLong_consumed {decrypt : LongAead → Option Nat} {data : List Byte} {p : LongPacket}
    (hp : quicPacketParseLong crypto decrypt keys expectedPn data = some p) : 0 < p.consumed ∧ p.consumed ≤ data.length := by
  unfold quicPacketParseLong at hp
  obtain ⟨⟨h, a⟩, ha, hp⟩ := Option.bind_eq_some_iff.1 hp
  obtain ⟨payloadLen, -, rfl⟩ := Option.map_eq_some_iff.1 hp
  obtain ⟨hheader, -, -, hpos, hlen, hfits⟩ := longAead_eq_some ha
  refine ⟨?_, hfits⟩
  dsimp only
  rw [hpos, hlen, longAead_stop hheader]
  exact Nat.add_pos_left (longHeader_bounds hheader).1 _

variable (crypto)

/-- **Parsing stays inside the datagram exactly when the Length field counts the packet number.** -/
theorem longStaysInside_iff (decrypt : LongAead → Option Nat) (keys : QuicCipherKeys) (expectedPn : Nat) (data : List Byte) :
    LongStaysInside crypto decrypt keys expectedPn data ↔ LengthCountsPn crypto keys data := by
  constructor
  · rintro ⟨hcall, -⟩ h hheader hinit
    by_contra hshort
    obtain ⟨a, ha, hwrap⟩ := longAead_of_short hinit expectedPn hheader (Nat.lt_of_not_le hshort)
    obtain ⟨-, -, hlen⟩ := hcall h a ha
    omega
  · intro hcounts
    refine ⟨fun h a ha => ?_, fun p hp => quicPacketParseLong_consumed hp⟩
    obtain ⟨hheader, hinit, -⟩ := longAead_eq_some ha
    exact longAead_inside ha (hcounts h hheader hinit)

end

/-! ## A Length field of 0 -/

/-- An Initial packet with empty connection ids, no token and a Length field of 0. -/
def lengthZero : List Byte := [0xc0, 0, 0, 0, 1, 0, 0, 0, 0] ++ List.replicate 20 0

def zeroMask : Crypto :=
  { hpMask := fun _ _ _ => [0, 0, 0, 0, 0], aeadOpen := fun _ _ _ _ _ => none, hkdfExpandLabel := fun _ _ _ _ => none }

theorem lengthZero_aead :
    (longAead zeroMask { initialized := true } 0 lengthZero).map (fun (h, a) => (h.bodyLen, a.aadLen, a.ctPos, a.ctLen)) =
      some (0, 10, 10, 2 ^ 64 - 1) := by decide

theorem lengthZero_length : lengthZero.length = 29 := by decide

/-- The AEAD is called with a ciphertext of `2 ^ 64 - 1` bytes. -/
theorem lengthZero_leaves_datagram :
    ¬ LongStaysInside zeroMask (fun _ => none) { initialized := true } 0 lengthZero := by
  rintro ⟨hcall, -⟩
  obtain ⟨⟨h, a⟩, ha, heq⟩ := Option.map_eq_some_iff.1 lengthZero_aead
  obtain ⟨-, hct, -⟩ := hcall h a ha
  injection heq with _ heq
  injection heq with _ heq
  injection heq with hpos hlen
  rw [hpos, hlen, lengthZero_length] at hct
  omega

end MoqLiveCast
