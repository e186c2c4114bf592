import MoqLiveCast.Quic.LongHeader
import MoqLiveCast.Quic.PacketConn
import MoqLiveCast.Quic.ShortHeader
/-!
# PacketFeed — the packets of a datagram (`QuicConnectionFeedRaw`)

One turn of the `while` opens the packet at the head of the data, notes its number (`record_rx_pn`) and runs the handlers of
its frames.  A call ends by returning, or goes on with packets that were kept until their keys were there.  What the TLS
library, the streams, recovery and the application leave of the fields read here is the `FeedEnv`.
-/
namespace MoqLiveCast

open Codec

def QUIC_PKT_HANDSHAKE : Byte := 2

/-! ## Connections -/

/-- The fields of a connection that the handlers of frames may write. -/
structure FeedHost extends ShortConn where
  handshakeDone : Bool := false
  /-- `on_datagram_` is set -/
  onDatagram : Bool := true

/-- A frame of a packet: the packet's space and number, and where in its payload it stands. -/
structure AppliedFrame where
  level : TlsLevel
  pn : Nat
  pos : Nat
deriving DecidableEq

structure FeedConn extends FeedHost where
  pendingHs : List Byte := []
  pendingHsCap : Nat := 0
  needAck : TlsLevel → Bool := fun _ => false
  ackLargestPn : TlsLevel → Nat := fun _ => 0
  ackFirstRange : TlsLevel → Nat := fun _ => 0
  /-- `data` and `len`, while a call is on -/
  buf : Option (List Byte) := none
  /-- the frames whose handlers ran -/
  applied : List AppliedFrame := []
  /-- the calls of `on_datagram_` -/
  delivered : List (AppliedFrame × List Byte) := []

inductive HostCall where
  /-- the handler of a frame, with the payload from it on -/
  | frame (level : TlsLevel) (bytes : List Byte)
  | queueAck

structure FeedEnv where
  crypto : Crypto
  host : FeedHost → HostCall → FeedHost

structure OpenedPacket where
  form : HeaderForm
  level : TlsLevel
  pn : Nat
  payload : List Byte
  size : Nat

/-! ## Opening -/

section

variable (crypto : Crypto)

def LongAead.decrypt (a : LongAead) : Option (List Byte) :=
  quicCryptoDecrypt crypto a.keys a.pn (a.pkt.take a.aadLen) ((a.pkt.drop a.ctPos).take a.ctLen)

def openLong (c : ShortConn) (level : TlsLevel) (data : List Byte) : Option OpenedPacket :=
  (longAead crypto (c.readKeys level) (c.largestRxPn level) data).bind fun (_, a) =>
    (a.decrypt crypto).map fun payload => ⟨.long, level, a.pn, payload, add64 a.ctPos a.ctLen⟩

/-- The length of a short-header packet, by its header and what it opens to. -/
def shortSize (c : ShortConn) (data payload : List Byte) : Nat :=
  match shortHeader crypto c data with
  | .tryNextKeys p => p.pnOffset + p.pnLen + payload.length + 16
  | .decrypt p => p.pnOffset + p.pnLen + payload.length + 16
  | _ => 0

/-- The rest of the datagram is appended to `pending_hs_data_`, which grows up to 65536 bytes. -/
def FeedConn.bufferHs (c : FeedConn) (data : List Byte) : FeedConn :=
  if c.pendingHsCap < c.pendingHs.length + data.length then
    let newCap := c.pendingHs.length + data.length + 4096
    if 65536 < newCap then c else { c with pendingHs := c.pendingHs ++ data, pendingHsCap := newCap }
  else { c with pendingHs := c.pendingHs ++ data }

def readLong (c : FeedConn) (data : List Byte) : FeedConn × Option OpenedPacket :=
  let rawType := (data.headD 0 >>> 4) &&& 0x03
  if rawType = QUIC_PKT_INITIAL then (c, openLong crypto c.toShortConn .none data)
  else if rawType = QUIC_PKT_HANDSHAKE then
    if (c.readKeys .handshake).initialized = false then (c.bufferHs data, none)
    else (c, openLong crypto c.toShortConn .handshake data)
  else (c, none)

def readShort (c : FeedConn) (data : List Byte) : FeedConn × Option OpenedPacket :=
  let (conn, opened) := afterTrial crypto (openShort crypto c.toShortConn data)
  ({ c with toShortConn := conn },
    opened.map fun o => ⟨.short, .application, o.pn, o.payload, shortSize crypto c.toShortConn data o.payload⟩)

/-- The packet at the head of the data; the call returns where it does not open. -/
def readPacket (c : FeedConn) (data : List Byte) : FeedConn × Option OpenedPacket :=
  if data.headD 0 &&& 0x80 ≠ 0 then readLong crypto c data else readShort crypto c data

end

/-! ## Packet numbers -/

/-- `record_rx_pn`; the ACK that leaves first where there is a gap is due again at once. -/
def FeedConn.recordRxPn (c : FeedConn) (level : TlsLevel) (pn : Nat) (ackEliciting : Bool) : FeedConn :=
  let c := { c with largestRxPn := Function.update c.largestRxPn level (max (c.largestRxPn level) pn) }
  if ackEliciting = false then c
  else if c.needAck level = false ∨ c.ackLargestPn level + 1 < pn then
    { c with
      ackLargestPn := Function.update c.ackLargestPn level pn
      ackFirstRange := Function.update c.ackFirstRange level 0
      needAck := Function.update c.needAck level true }
  else if pn = c.ackLargestPn level + 1 then
    { c with
      ackFirstRange := Function.update c.ackFirstRange level (c.ackFirstRange level + 1)
      ackLargestPn := Function.update c.ackLargestPn level pn }
  -- a number that is not above the largest one is "duplicate or reordered, ignored"
  else c

/-! ## Frames -/

section

variable (env : FeedEnv)

/-- What a handler does in `QuicConnectionFeedRaw` itself. -/
def handleFrame (c : FeedConn) (f : AppliedFrame) (data : List Byte) : FeedConn :=
  let type := data.headD 0
  if type = QUIC_FRAME_DATAGRAM ∨ type = QUIC_FRAME_DATAGRAM_LEN then
    match quicFrameParseDatagram data with
    | some (ddata, _) => if c.onDatagram then { c with delivered := c.delivered ++ [(f, ddata)] } else c
    | none => c
  else if type = QUIC_FRAME_CONNECTION_CLOSE ∨ type = QUIC_FRAME_CONNECTION_CLOSE_APP then { c with draining := true }
  else if type = QUIC_FRAME_NEW_CONNECTION_ID then
    match adopted ⟨data, true⟩ with
    | some ncid =>
      if c.resetTokens.length < QUIC_MAX_RESET_TOKENS then { c with resetTokens := c.resetTokens ++ [ncid.resetToken] }
      else c
    | none => c
  else c

def applyFrame (o : OpenedPacket) (c : FeedConn) (pos : Nat) : FeedConn :=
  let f : AppliedFrame := ⟨o.level, o.pn, pos⟩
  let c := handleFrame { c with applied := c.applied ++ [f] } f (o.payload.drop pos)
  { c with toFeedHost := env.host c.toFeedHost (.frame o.level (o.payload.drop pos)) }

def applyFrames (o : OpenedPacket) (c : FeedConn) : FeedConn :=
  (frameLoop o.form o.payload 0).foldl (applyFrame env o) c

/-! ## A turn -/

def FeedConn.buildAndSendAck (c : FeedConn) (level : TlsLevel) : FeedConn :=
  if c.draining then c else { c with needAck := Function.update c.needAck level false }

def FeedConn.queueAck (c : FeedConn) : FeedConn :=
  if c.needAck .application then
    { c with
      needAck := Function.update c.needAck .application false
      toFeedHost := env.host c.toFeedHost .queueAck }
  else c

/-- The ACK, and the data after the packet; what is left of the data is dropped where the packet takes more. -/
def afterPacket (o : OpenedPacket) (data : List Byte) (c : FeedConn) : FeedConn :=
  match o.form with
  | .long => { c.buildAndSendAck o.level with buf := some (data.drop o.size) }
  | .short => { c.queueAck env with buf := some (if o.size ≤ data.length then data.drop o.size else []) }

/-- `feed_replay`: data is looked into, unless it ends with one of the peer's tokens. -/
def FeedConn.enter (c : FeedConn) (data : List Byte) : FeedConn :=
  if data.headD 0 &&& 0x80 = 0 ∧ isStatelessReset c.toShortConn data = true then { c with closed := true, buf := none }
  else { c with buf := some data }

/-- What follows the `while`: packets kept until their keys were there come again. -/
def FeedConn.replay (c : FeedConn) : FeedConn :=
  if c.draining then { c with buf := none }
  else if c.handshakeDone = false ∧ 0 < c.pendingHs.length ∧ (c.readKeys .handshake).initialized = true then
    FeedConn.enter { c with pendingHs := [], pendingHsCap := 0 } c.pendingHs
  else if (c.readKeys .application).initialized = true ∧ 0 < c.pending1rtt.length then
    FeedConn.enter { c with pending1rtt := [], pending1rttCap := 0 } c.pending1rtt
  else { c with buf := none }

def FeedConn.goesOn (c : FeedConn) (data : List Byte) : Bool :=
  decide (0 < data.length) && !c.closed && !c.draining

/-- The packet at the head of the data, if the call looks at one and it opens. -/
def FeedConn.head (c : FeedConn) : Option OpenedPacket :=
  c.buf.bind fun data => if c.goesOn data then (readPacket env.crypto c data).2 else none

/-- One turn of the `while`, or what follows it. -/
def feedTurn (c : FeedConn) : FeedConn :=
  match c.buf with
  | none => c
  | some data =>
    if c.goesOn data = false then c.replay
    else
      match readPacket env.crypto c data with
      | (c, none) => { c with buf := none }
      | (c, some o) =>
        afterPacket env o data (applyFrames env o (c.recordRxPn o.level o.pn (payloadAckEliciting o.payload)))

/-! ## Runs -/

inductive FeedEvent where
  /-- `QuicConnectionFeedRaw` is called, when no call is on -/
  | datagram (data : List Byte)
  | turn

def feedStep (c : FeedConn) : FeedEvent → FeedConn
  | .datagram data => if c.buf ≠ none ∨ c.closed ∨ data.length < 1 then c else c.enter data
  | .turn => feedTurn env c

end
end MoqLiveCast
