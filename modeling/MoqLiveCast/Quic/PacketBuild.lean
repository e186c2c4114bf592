import MoqLiveCast.Quic.Recovery
import MoqLiveCast.Quic.Varint
/-!
# PacketBuild — the sizes of packets (`quic_packet_build_long`, `quic_packet_build_short`)

Encryption is taken to succeed; it adds a tag of 16 bytes.
-/
namespace MoqLiveCast

def QUIC_MIN_PKT_SIZE : Nat := 1200
def QUIC_MAX_PKT_SIZE : Nat := 1500

def quicPnEncodeLen (pn : Nat) : Nat := if pn ≤ 0xff then 1 else if pn ≤ 0xffff then 2 else if pn ≤ 0xffffff then 3 else 4

/-- The bytes of a long header before its Length field; no packet that is sent carries a token. -/
def longHeaderLen (pktType : PktType) (dcidLen scidLen : Nat) : Nat :=
  1 + 4 + (1 + dcidLen) + (1 + scidLen) + if pktType = .initial then quicVarintLen 0 else 0

/-- An Initial packet is filled up to 1200 bytes, another one to what header protection samples. -/
def longPad (pktType : PktType) (headerLen pnLen payloadLen : Nat) : Nat :=
  if pktType = .initial then
    let bodyNopad := pnLen + payloadLen + 16
    QUIC_MIN_PKT_SIZE - (headerLen + quicVarintLen bodyNopad + bodyNopad)
  else (headerLen + 4 + 16) - (headerLen + pnLen + payloadLen + 16)

/-- `*out_len` of `quic_packet_build_long`.  The buffer for padding has `QUIC_MAX_PKT_SIZE` bytes. -/
def quicPacketBuildLong (pktType : PktType) (dcidLen scidLen pn payloadLen : Nat) : Option Nat :=
  let pnLen := quicPnEncodeLen pn
  let headerLen := longHeaderLen pktType dcidLen scidLen
  let pad := longPad pktType headerLen pnLen payloadLen
  let payloadLen := if payloadLen + pad ≤ QUIC_MAX_PKT_SIZE then payloadLen + pad else payloadLen
  let bodyLen := pnLen + payloadLen + 16
  let total := headerLen + quicVarintLen bodyLen + bodyLen
  if QUIC_MAX_PKT_SIZE < total then none else some total

/-- `*out_len` of `quic_packet_build_short`. -/
def quicPacketBuildShort (dcidLen pn payloadLen : Nat) : Nat :=
  let pnOffset := 1 + dcidLen
  let pnLen := quicPnEncodeLen pn
  let pad := (pnOffset + 4 + 16) - (pnOffset + pnLen + payloadLen + 16)
  pnOffset + pnLen + (payloadLen + pad) + 16

def packetLen (pktType : PktType) (dcidLen scidLen pn payloadLen : Nat) : Option Nat :=
  match pktType with
  | .initial | .handshake => quicPacketBuildLong pktType dcidLen scidLen pn payloadLen
  | _ => some (quicPacketBuildShort dcidLen pn payloadLen)

/-- **An Initial packet has 1200 bytes at least**, whatever it carries. -/
theorem initial_packetLen_ge {dcidLen scidLen pn payloadLen len : Nat}
    (h : packetLen .initial dcidLen scidLen pn payloadLen = some len) : QUIC_MIN_PKT_SIZE ≤ len := by
  have hmono : ∀ {a b : Nat}, a ≤ b → quicVarintLen a ≤ quicVarintLen b := fun {a b} hab => by
    unfold quicVarintLen
    (repeat' split) <;> omega
  unfold packetLen quicPacketBuildLong longPad QUIC_MIN_PKT_SIZE QUIC_MAX_PKT_SIZE at *
  simp only [if_true, Option.ite_none_left_eq_some, Option.some.injEq] at h
  obtain ⟨-, rfl⟩ := h
  split
  · -- the Length field of the padded body is no shorter
    refine Nat.le_trans ?_ (Nat.add_le_add_right (Nat.add_le_add_left (hmono (Nat.add_le_add_right
      (Nat.add_le_add_left (Nat.le_add_right payloadLen _) _) 16)) _) _)
    omega
  · omega

theorem initial_packetLen_ge_sample : QUIC_MIN_PKT_SIZE ≤ 1200 :=
  initial_packetLen_ge (show packetLen .initial 8 8 0 100 = some 1200 by decide)

end MoqLiveCast
