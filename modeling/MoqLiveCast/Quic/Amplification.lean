import MoqLiveCast.Lib.Run
import MoqLiveCast.Quic.PacketBuild
/-!
# Amplification — what a server sends before its client's address is validated (`quic_connection.c`)

Packets leave through `send_quic_packet`, which keeps the budget of three times the bytes received, and through
`build_and_send_ack` and `QuicConnectionClose`, which do not.  A datagram moves the connection to its source, whoever sent
it.  Counts of bytes stay below `2^64`.
-/
namespace MoqLiveCast

/-! ## Data -/

inductive SendPath where
  | packet | ack | close
deriving DecidableEq

structure SentDatagram where
  path : SendPath
  pktType : PktType
  len : Nat
  peerIp : Nat
deriving DecidableEq

structure SendConn where
  udpShared : Bool := true
  peerIp : Nat
  srcCidLen : Nat
  dstCidLen : Nat
  /-- the levels with write keys -/
  writeKeys : TlsLevel → Bool := fun level => level = .none
  nextPn : TlsLevel → Nat := fun _ => 0
  largestRxPn : TlsLevel → Nat := fun _ => 0
  needAck : TlsLevel → Bool := fun _ => false
  ackLargestPn : TlsLevel → Nat := fun _ => 0
  ackFirstRange : TlsLevel → Nat := fun _ => 0
  draining : Bool := false
  closing : Bool := false
  bytesRecvAddrVal : Nat := 0
  bytesSentAddrVal : Nat := 0
  peerAddressValidated : Bool := false
  /-- the datagrams received, with their sources -/
  received : List (Nat × Nat) := []
  sent : List SentDatagram := []

namespace SendConn

def takePn (c : SendConn) (level : TlsLevel) : SendConn :=
  { c with nextPn := Function.update c.nextPn level (c.nextPn level + 1) }

def hand (c : SendConn) (path : SendPath) (pktType : PktType) (len : Nat) : SendConn :=
  { c with sent := c.sent ++ [⟨path, pktType, len, c.peerIp⟩] }

end SendConn

/-! ## Sending -/

/-- The budget of `send_quic_packet`: whether the packet may go, and the count after it. -/
def takeBudget (c : SendConn) (pktType : PktType) (len : Nat) : Option SendConn :=
  if c.udpShared = true ∧ c.peerAddressValidated = false ∧ pktType ≠ .handshake then
    if c.bytesRecvAddrVal * 3 < c.bytesSentAddrVal + len then none
    else some { c with bytesSentAddrVal := c.bytesSentAddrVal + len }
  else some c

def sendQuicPacket (c : SendConn) (pktType : PktType) (payloadLen : Nat) : SendConn :=
  let level := pktTypeToLevel pktType
  let pn := c.nextPn level
  let c := c.takePn level
  if c.writeKeys level = false then c
  else
    match packetLen pktType c.dstCidLen c.srcCidLen pn payloadLen with
    | none => c
    | some len => (takeBudget c pktType len).elim c (fun c => c.hand .packet pktType len)

def levelPktType : TlsLevel → PktType
  | .application => .short
  | .handshake => .handshake
  | _ => .initial

def ackFrameLen (largest firstRange : Nat) : Nat :=
  1 + quicVarintLen largest + quicVarintLen 0 + quicVarintLen 0 + quicVarintLen firstRange

def buildAndSendAck (c : SendConn) (level : TlsLevel) : SendConn :=
  if c.draining = true ∨ c.needAck level = false then c
  else
    let c := { c with needAck := Function.update c.needAck level false }
    if c.writeKeys level = false ∧ c.writeKeys .none = false then c
    else
      let pn := c.nextPn level
      let c := c.takePn level
      match packetLen (levelPktType level) c.dstCidLen c.srcCidLen pn
          (ackFrameLen (c.ackLargestPn level) (c.ackFirstRange level)) with
      | none => c
      | some len => c.hand .ack (levelPktType level) len

def closeLevel (c : SendConn) : TlsLevel :=
  if c.writeKeys .application then .application else if c.writeKeys .handshake then .handshake else .none

def closeFrameLen (errorCode reasonLen : Nat) : Nat :=
  1 + quicVarintLen errorCode + quicVarintLen 0 + quicVarintLen reasonLen + reasonLen

/-- The frame's buffer has 512 bytes; a frame that does not fit is not sent. -/
def quicConnectionClose (c : SendConn) (errorCode reasonLen : Nat) : SendConn :=
  if c.closing = true then c
  else if 512 < closeFrameLen errorCode reasonLen then { c with closing := true }
  else
    let level := closeLevel c
    if c.writeKeys level = false then c
    else
      let pn := c.nextPn level
      let c := c.takePn level
      let c := { c with closing := true }
      match packetLen (levelPktType level) c.dstCidLen c.srcCidLen pn (closeFrameLen errorCode reasonLen) with
      | none => c
      | some len => c.hand .close (levelPktType level) len

/-! ## Receiving -/

/-- `record_rx_pn`: a gap makes the ACK that is due leave first. -/
def recordRxPn (c : SendConn) (level : TlsLevel) (pn : Nat) (ackEliciting : Bool) : SendConn :=
  let c := { c with largestRxPn := Function.update c.largestRxPn level (max (c.largestRxPn level) pn) }
  if ackEliciting = false then c
  else if c.needAck level = false then
    { c with
      ackLargestPn := Function.update c.ackLargestPn level pn
      ackFirstRange := Function.update c.ackFirstRange level 0
      needAck := Function.update c.needAck level true }
  else if pn = c.ackLargestPn level + 1 then
    { c with
      ackFirstRange := Function.update c.ackFirstRange level (c.ackFirstRange level + 1)
      ackLargestPn := Function.update c.ackLargestPn level pn }
  else if c.ackLargestPn level < pn then
    let c := buildAndSendAck c level
    { c with
      ackLargestPn := Function.update c.ackLargestPn level pn
      ackFirstRange := Function.update c.ackFirstRange level 0
      needAck := Function.update c.needAck level true }
  else c

def recvDatagram (c : SendConn) (fromIp len : Nat) : SendConn :=
  { c with
    bytesRecvAddrVal := c.bytesRecvAddrVal + len
    peerIp := fromIp
    received := c.received ++ [(fromIp, len)] }

/-- A packet of a datagram that authenticates; one of the Handshake type validates the address. -/
def recvPacket (c : SendConn) (pktType : PktType) (pn : Nat) (ackEliciting : Bool) : SendConn :=
  let c := if pktType = .handshake then { c with peerAddressValidated := true } else c
  recordRxPn c (pktTypeToLevel pktType) pn ackEliciting

/-! ## Runs -/

/-- What happens to a connection; frames are handled between a packet and the ACK at its end. -/
inductive SendEvent where
  | datagram (fromIp len : Nat)
  | packet (pktType : PktType) (pn : Nat) (ackEliciting : Bool)
  | ack (level : TlsLevel)
  | send (pktType : PktType) (payloadLen : Nat)
  | close (errorCode reasonLen : Nat)
  | keys (level : TlsLevel)
  | drain

def sendConnStep (c : SendConn) : SendEvent → SendConn
  | .datagram fromIp len => recvDatagram c fromIp len
  | .packet pktType pn ackEliciting => recvPacket c pktType pn ackEliciting
  | .ack level => buildAndSendAck c level
  | .send pktType payloadLen => sendQuicPacket c pktType payloadLen
  | .close errorCode reasonLen => quicConnectionClose c errorCode reasonLen
  | .keys level => { c with writeKeys := Function.update c.writeKeys level true }
  | .drain => { c with draining := true, closing := true }

def acceptConn (clientIp srcCidLen dstCidLen : Nat) : SendConn := { peerIp := clientIp, srcCidLen, dstCidLen }

/-! ## Bytes -/

def bytesTo (ip : Nat) (d : SentDatagram) : Nat := if d.peerIp = ip ∧ d.pktType ≠ .handshake then d.len else 0

def bytesFrom (ip : Nat) (r : Nat × Nat) : Nat := if r.1 = ip then r.2 else 0

def bytesUncounted (d : SentDatagram) : Nat := if d.path ≠ .packet ∧ d.pktType ≠ .handshake then d.len else 0

def bytesCounted (d : SentDatagram) : Nat := if d.path = .packet ∧ d.pktType ≠ .handshake then d.len else 0

/-- **Before its address is validated, a client is sent no more than three times what came from it.** -/
def Bounded (c : SendConn) : Prop :=
  c.peerAddressValidated = false → ∀ ip, (c.sent.map (bytesTo ip)).sum ≤ 3 * (c.received.map (bytesFrom ip)).sum

/-! ## The packets that leave -/

/-- The packet `send_quic_packet` builds, if the budget lets it go. -/
def leavesBySend (c : SendConn) (pktType : PktType) (payloadLen : Nat) : Option SentDatagram :=
  let level := pktTypeToLevel pktType
  if c.writeKeys level = false then none
  else
    ((packetLen pktType c.dstCidLen c.srcCidLen (c.nextPn level) payloadLen).filter
      fun len => (takeBudget c pktType len).isSome).map fun len => ⟨.packet, pktType, len, c.peerIp⟩

def leavesByAck (c : SendConn) (level : TlsLevel) : Option SentDatagram :=
  if (c.draining = true ∨ c.needAck level = false) ∨ (c.writeKeys level = false ∧ c.writeKeys .none = false) then none
  else
    (packetLen (levelPktType level) c.dstCidLen c.srcCidLen (c.nextPn level)
      (ackFrameLen (c.ackLargestPn level) (c.ackFirstRange level))).map fun len => ⟨.ack, levelPktType level, len, c.peerIp⟩

def leavesByClose (c : SendConn) (errorCode reasonLen : Nat) : Option SentDatagram :=
  let level := closeLevel c
  if c.closing = true ∨ 512 < closeFrameLen errorCode reasonLen ∨ c.writeKeys level = false then none
  else
    (packetLen (levelPktType level) c.dstCidLen c.srcCidLen (c.nextPn level) (closeFrameLen errorCode reasonLen)).map
      fun len => ⟨.close, levelPktType level, len, c.peerIp⟩

def leavesGap (c : SendConn) (level : TlsLevel) (pn : Nat) (ackEliciting : Bool) : Prop :=
  ackEliciting = true ∧ c.needAck level = true ∧ c.ackLargestPn level + 1 < pn

instance (c : SendConn) (level : TlsLevel) (pn : Nat) (ackEliciting : Bool) :
    Decidable (leavesGap c level pn ackEliciting) := inferInstanceAs (Decidable (_ ∧ _))

/-- The packet `record_rx_pn` sends for a packet number. -/
def leavesByRecord (c : SendConn) (level : TlsLevel) (pn : Nat) (ackEliciting : Bool) : Option SentDatagram :=
  if leavesGap c level pn ackEliciting then leavesByAck c level else none

def leaves (c : SendConn) : SendEvent → Option SentDatagram
  | .packet pktType pn ackEliciting => leavesByRecord c (pktTypeToLevel pktType) pn ackEliciting
  | .ack level => leavesByAck c level
  | .send pktType payloadLen => leavesBySend c pktType payloadLen
  | .close errorCode reasonLen => leavesByClose c errorCode reasonLen
  | _ => none

/-- The connection if the ACKs and the CONNECTION_CLOSE sent so far had been counted like the rest. -/
def SendConn.countAll (c : SendConn) : SendConn :=
  { c with bytesSentAddrVal := c.bytesSentAddrVal + (c.sent.map bytesUncounted).sum }

/-- **The packet that leaves passes the test of `send_quic_packet`** when all packets before it are counted. -/
def FitsBudget (c : SendConn) (e : SendEvent) : Prop :=
  ∀ d ∈ leaves c e, (takeBudget c.countAll d.pktType d.len).isSome

instance (c : SendConn) (e : SendEvent) : Decidable (FitsBudget c e) :=
  inferInstanceAs (Decidable (∀ d ∈ leaves c e, _))

end MoqLiveCast
