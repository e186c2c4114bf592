import MoqLiveCast.Quic.ConnectionId
import MoqLiveCast.Quic.PacketKeys
import MoqLiveCast.Quic.Recovery
/-!
# ShortHeader — opening a short-header packet (`QuicConnectionFeedRaw`)

The packet is decrypted with the read keys, under the packet numbers its encoding may stand for, then with the keys of the
next generation, which are put in place for it and taken back if they do not open it either.  What `QuicConnectionFeedRaw`
counts before is in `Amplification`; the frames of a packet that opens are not read here.
-/
namespace MoqLiveCast

def QUIC_CID_LEN : Nat := 8
def QUIC_UDP_BUF_SIZE : Nat := 65536

/-! ## Data -/

structure KeyState where
  readKeys : TlsLevel → QuicCipherKeys
  writeKeys : TlsLevel → QuicCipherKeys
  appReadSecret : List Byte := []
  appWriteSecret : List Byte := []
  appReadSecretSaved : Bool := false
  appWriteSecretSaved : Bool := false
  peerKeyPhase : Byte := 0
  currentKeyPhase : Byte := 0
  pktsSentWithKey : Nat := 0
  aeadPktCount : TlsLevel → Nat := fun _ => 0
  aeadLimitWarned : TlsLevel → Bool := fun _ => false
  spinBit : Byte := 0

structure ShortConn extends KeyState where
  closed : Bool := false
  draining : Bool := false
  resetTokens : List (List Byte) := []
  srcCid : List Byte
  largestRxPn : TlsLevel → Nat := fun _ => 0
  pending1rtt : List Byte := []
  pending1rttCap : Nat := 0

/-- `pkt_buf` after header protection is removed, and what was read from it. -/
structure ShortPkt where
  pkt : List Byte
  pnOffset : Nat
  pnLen : Nat := 0
  pn : Nat := 0
  ctPos : Nat := 0

inductive HeaderStep where
  /-- kept for when the read keys are there -/
  | pending
  | drop
  /-- header protection cannot be removed, or the reserved bits are set -/
  | tryNextKeys (p : ShortPkt)
  /-- for another connection, or too short for a tag -/
  | foreign (p : ShortPkt)
  | decrypt (p : ShortPkt)

structure ShortOpened where
  pn : Nat
  keyPhase : Byte
  payload : List Byte

/-! ## The header -/

def reservedBits (pkt : List Byte) : Byte := (pkt.headD 0 >>> 3) &&& 0x03

def keyPhaseBit (pkt : List Byte) : Byte := (pkt.headD 0 >>> 2) &&& 0x01

def spinBitOf (pkt : List Byte) : Byte := (pkt.headD 0 >>> 5) &&& 0x01

def ShortConn.readSpin (c : ShortConn) (pkt : List Byte) : ShortConn := { c with spinBit := spinBitOf pkt }

section

variable (crypto : Crypto)

def shortHeader (c : ShortConn) (data : List Byte) : HeaderStep :=
  let keys := c.readKeys .application
  if keys.initialized = false then .pending
  else
    let dcidLen := if c.srcCid.length = 0 then QUIC_CID_LEN else c.srcCid.length
    let pnOffset := 1 + dcidLen
    if data.length < 1 + dcidLen + 1 ∨ data.length < pnOffset + 1 + 16 ∨ QUIC_UDP_BUF_SIZE < data.length then .drop
    else
      match quicCryptoHpRemoveShort crypto keys data pnOffset with
      | none => .tryNextKeys { pkt := data, pnOffset }
      | some (pnLen, pkt) =>
        if reservedBits pkt ≠ 0 then .tryNextKeys { pkt, pnOffset, pnLen }
        else
          let pn := quicPnDecode ((pkt.drop pnOffset).take pnLen) (c.largestRxPn .application)
          let p := { pkt, pnOffset, pnLen, pn, ctPos := pnOffset + pnLen }
          if dcidLen ≠ c.srcCid.length ∨ (pkt.drop 1).take dcidLen ≠ c.srcCid then .foreign p
          else if data.length < p.ctPos + 16 then .foreign p
          else .decrypt p

/-- The datagram is appended to `pending_1rtt_data_`, which grows up to 65536 bytes. -/
def bufferPending (c : ShortConn) (data : List Byte) : ShortConn :=
  if c.pending1rttCap < c.pending1rtt.length + data.length then
    let newCap := c.pending1rtt.length + data.length + 4096
    if 65536 < newCap then c
    else { c with pending1rtt := c.pending1rtt ++ data, pending1rttCap := newCap }
  else { c with pending1rtt := c.pending1rtt ++ data }

/-! ## Trial decryption -/

structure AeadQuery where
  keys : QuicCipherKeys
  pn : Nat
  aad : List Byte
  ct : List Byte

def AeadQuery.decrypt (q : AeadQuery) : Option (List Byte) := quicCryptoDecrypt crypto q.keys q.pn q.aad q.ct

def ShortPkt.query (p : ShortPkt) (buf : List Byte) (keys : QuicCipherKeys) (pn : Nat) : AeadQuery :=
  ⟨keys, pn, buf.take (p.pnOffset + p.pnLen), buf.drop p.ctPos⟩

/-- A failed attempt leaves garbage in the buffer; the ciphertext is copied again. -/
def ShortPkt.restored (p : ShortPkt) (data : List Byte) : List Byte := p.pkt.take p.ctPos ++ data.drop p.ctPos

/-- The packet numbers tried after the one decoded, for an encoding of one byte. -/
def altPns (p : ShortPkt) : List Nat :=
  if p.pnLen = 1 ∧ 256 ≤ p.pn then
    let wireVal := (p.pkt.getD p.pnOffset 0).toNat
    (([wireVal, wireVal + 256] ++ (if 512 ≤ p.pn then [p.pn - 512] else []) ++
      (if 768 ≤ p.pn then [p.pn - 768] else [])).filter (fun pn => decide (pn ≠ p.pn))).eraseDups
  else []

def openCurrent (c : ShortConn) (data : List Byte) (p : ShortPkt) : Option ShortOpened :=
  let keys := c.readKeys .application
  match (p.query p.pkt keys p.pn).decrypt crypto with
  | some payload => some ⟨p.pn, keyPhaseBit p.pkt, payload⟩
  | none =>
    (altPns p).findSome? fun pn =>
      ((p.query (p.restored data) keys pn).decrypt crypto).map fun payload => ⟨pn, keyPhaseBit p.pkt, payload⟩

/-- The read keys and secret of the next generation, if the secret was saved. -/
def nextReadKeys (c : ShortConn) : Option (QuicCipherKeys × List Byte) :=
  if c.appReadSecretSaved = true then quicCryptoDeriveKeyUpdateAead crypto (c.readKeys .application) c.appReadSecret
  else none

def nextWriteKeys (c : ShortConn) : Option (QuicCipherKeys × List Byte) :=
  if c.appWriteSecretSaved = true then quicCryptoDeriveKeyUpdateAead crypto (c.writeKeys .application) c.appWriteSecret
  else none

def updateWriteKeys (c : ShortConn) : ShortConn :=
  match nextWriteKeys crypto c with
  | none => c
  | some (keys, secret) =>
    { c with
      writeKeys := Function.update c.writeKeys .application keys
      appWriteSecret := overwrite c.appWriteSecret secret }

def startPhase (c : ShortConn) (keyPhase : Byte) : ShortConn :=
  { c with
    peerKeyPhase := keyPhase
    currentKeyPhase := keyPhase
    pktsSentWithKey := 0
    aeadPktCount := Function.update c.aeadPktCount .application 0
    aeadLimitWarned := Function.update c.aeadLimitWarned .application false }

def rollForward (c : ShortConn) (keys : QuicCipherKeys) (secret : List Byte) : ShortConn :=
  let c := { c with
    readKeys := Function.update c.readKeys .application keys
    appReadSecret := overwrite c.appReadSecret secret }
  startPhase (updateWriteKeys crypto c) (c.peerKeyPhase ^^^ 1)

def rollback (old c : ShortConn) : ShortConn :=
  { c with
    readKeys := Function.update c.readKeys .application (old.readKeys .application)
    writeKeys := Function.update c.writeKeys .application (old.writeKeys .application)
    appReadSecret := overwrite c.appReadSecret old.appReadSecret
    appWriteSecret :=
      if c.appWriteSecretSaved = true then overwrite c.appWriteSecret old.appWriteSecret else c.appWriteSecret
    peerKeyPhase := old.peerKeyPhase
    currentKeyPhase := old.peerKeyPhase }

def tryNextKeys (c : ShortConn) (data : List Byte) (p : ShortPkt) : ShortConn × Option ShortOpened :=
  match nextReadKeys crypto c with
  | none => (c, none)
  | some (keys, secret) =>
    let buf := p.restored data
    let c' := (rollForward crypto c keys secret).readSpin buf
    match (p.query buf (c'.readKeys .application) p.pn).decrypt crypto with
    | some payload => (c', some ⟨p.pn, keyPhaseBit buf, payload⟩)
    | none => (rollback c c', none)

/-! ## `QuicConnectionFeedRaw` -/

def syncKeyPhase (c : ShortConn) (keyPhase : Byte) : ShortConn :=
  if keyPhase = c.peerKeyPhase then c
  else startPhase (if c.currentKeyPhase = c.peerKeyPhase then updateWriteKeys crypto c else c) keyPhase

def afterTrial (r : ShortConn × Option ShortOpened) : ShortConn × Option ShortOpened :=
  match r with
  | (c, some o) => (syncKeyPhase crypto c o.keyPhase, some o)
  | (c, none) => (c, none)

@[simp] theorem afterTrial_snd (r : ShortConn × Option ShortOpened) : (afterTrial crypto r).2 = r.2 := by
  obtain ⟨c, o⟩ := r
  cases o <;> rfl

theorem afterTrial_of_none {r : ShortConn × Option ShortOpened} (h : r.2 = none) : afterTrial crypto r = r := by
  obtain ⟨c, o⟩ := r
  cases h
  rfl

/-- The two rounds of the loop are one: the first returns if nothing opens the packet. -/
def openShort (c : ShortConn) (data : List Byte) : ShortConn × Option ShortOpened :=
  match shortHeader crypto c data with
  | .pending => (bufferPending c data, none)
  | .drop => (c, none)
  | .tryNextKeys p => tryNextKeys crypto c data p
  | .foreign p => (c.readSpin p.pkt, none)
  | .decrypt p =>
    let c := c.readSpin p.pkt
    match openCurrent crypto c data p with
    | some o => (c, some o)
    | none => tryNextKeys crypto c data p

def isStatelessReset (c : ShortConn) (data : List Byte) : Bool :=
  decide (data.headD 0 &&& 0x40 ≠ 0) && decide (21 ≤ data.length) &&
    c.resetTokens.any (fun token => decide (token = data.drop (data.length - 16)))

def ignored (c : ShortConn) (data : List Byte) : Bool :=
  c.closed || decide (data.length < 1) || isStatelessReset c data || c.draining

/-- A datagram whose first byte has bit 7 clear, up to the frames of its first packet. -/
def feedShort (c : ShortConn) (data : List Byte) : ShortConn × Option ShortOpened :=
  if ignored c data = true then
    (if c.closed = false ∧ isStatelessReset c data = true then { c with closed := true } else c, none)
  else afterTrial crypto (openShort crypto c data)

end
end MoqLiveCast
