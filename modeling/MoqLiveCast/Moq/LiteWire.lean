import MoqLiveCast.Lib.Mem
/-!
# LiteWire — moq-lite on the wire, in C (`moqlite/moq_lite_wire.c`)

A `MoqBuf` is its bytes; a writer answers its return code and the buffer after it, failed or not.  A reader is given the
bytes up to the end it is told of, and an offset into them.

Allocation is taken to succeed, and pointers that a caller must give are not NULL.
-/
namespace MoqLiveCast

/-- What a reader answers: its verdict, the offset after it, and what it wrote through its result, if it did. -/
structure WireRead (σ α : Type) where
  status : σ
  off : Nat
  out : Option α
deriving DecidableEq

/-! ## `MoqBuf` -/

def moqBufAppend (b p : List Byte) : Int × List Byte := (0, b ++ p)

/-! ## `(i)` — a QUIC varint -/

def MOQ_VARINT_MAX : BitVec 64 := (1 <<< 62) - 1

def moqVarintSize (v : BitVec 64) : Nat :=
  if v ≤ 63 then 1 else if v ≤ 16383 then 2 else if v ≤ 1073741823 then 4 else 8

def toByte (v : BitVec 64) : Byte := v.setWidth 8

def moqVarintWrite (b : List Byte) (v : BitVec 64) : Int × List Byte :=
  if MOQ_VARINT_MAX < v then (-1, b)
  else
    match moqVarintSize v with
    | 1 => moqBufAppend b [toByte v]
    | 2 => moqBufAppend b [toByte (0x40#64 ||| (v >>> 8)), toByte v]
    | 4 => moqBufAppend b [toByte (0x80#64 ||| (v >>> 24)), toByte (v >>> 16), toByte (v >>> 8), toByte v]
    | _ => moqBufAppend b [toByte (0xc0#64 ||| (v >>> 56)), toByte (v >>> 48), toByte (v >>> 40), toByte (v >>> 32),
        toByte (v >>> 24), toByte (v >>> 16), toByte (v >>> 8), toByte v]

def moqVarintRead (p : List Byte) (off : Nat) : WireRead Int (BitVec 64) :=
  if p.length ≤ off then ⟨-1, off, none⟩
  else
    let first := p.getD off 0
    let n := 1 <<< (first >>> 6).toNat
    if p.length - off < n then ⟨-1, off, none⟩
    else
      let v := (List.range' 1 (n - 1)).foldl (fun (v : BitVec 64) i => (v <<< 8) ||| (p.getD (off + i) 0).setWidth 64)
        ((first &&& 0x3f#8).setWidth 64)
      ⟨0, off + n, some v⟩

def moqVarintSkip (p : List Byte) (off : Nat) : Int × Nat :=
  let r := moqVarintRead p off
  (r.status, r.off)

/-! ## zigzag -/

def MOQ_ZIGZAG_MIN : BitVec 64 := -(1 <<< 61)
def MOQ_ZIGZAG_MAX : BitVec 64 := (1 <<< 61) - 1

def moqZigzagEncode (v : BitVec 64) : Int × Option (BitVec 64) :=
  if v.slt MOQ_ZIGZAG_MIN ∨ MOQ_ZIGZAG_MAX.slt v then (-1, none) else (0, some ((v <<< 1) ^^^ v.sshiftRight 63))

def moqZigzagDecode (v : BitVec 64) : BitVec 64 := (v >>> 1) ^^^ -(v &&& 1)

/-! ## `(s)` — a string with its length before it -/

structure CString where
  bytes : List Byte
  noNul : 0 ∉ bytes

def moqStrWriteN (b p : List Byte) : Int × List Byte :=
  let r := moqVarintWrite b (BitVec.ofNat 64 p.length)
  if r.1 < 0 then (-1, r.2) else moqBufAppend r.2 p

def moqStrWrite (b : List Byte) (s : Option CString) : Int × List Byte :=
  match s with
  | none => moqStrWriteN b []
  | some s => moqStrWriteN b s.bytes

/-- `-1` when the length is not all there, `-2` when it goes past the end; by then the offset is behind the length. -/
def moqStrRead (p : List Byte) (off : Nat) : WireRead Int (List Byte) :=
  let r := moqVarintRead p off
  if r.status < 0 then ⟨-1, r.off, none⟩
  else
    let n := (r.out.getD 0).toNat
    if p.length - r.off < n then ⟨-2, r.off, none⟩
    else ⟨0, r.off + n, some ((p.drop r.off).take n)⟩

/-! ## Messages -/

def MOQ_MAX_MESSAGE_SIZE : BitVec 64 := 64 * 1024 * 1024

inductive MoqMsgStatus where
  | ok | needMore | tooLarge
deriving DecidableEq

def moqMsgRead (p : List Byte) (off : Nat) : WireRead MoqMsgStatus Nat :=
  let r := moqVarintRead p off
  if r.status < 0 then ⟨.needMore, off, none⟩
  else
    let n := r.out.getD 0
    if MOQ_MAX_MESSAGE_SIZE < n then ⟨.tooLarge, off, none⟩
    else if p.length - r.off < n.toNat then ⟨.needMore, off, none⟩
    else ⟨.ok, r.off, some n.toNat⟩

def moqMsgBuild (out : List Byte) (typed : Bool) (type : BitVec 64) (body : List Byte) : Int × List Byte :=
  let r := if typed then moqVarintWrite out type else (0, out)
  if r.1 < 0 then (-1, r.2)
  else
    let r := moqVarintWrite r.2 (BitVec.ofNat 64 body.length)
    if r.1 < 0 then (-1, r.2) else moqBufAppend r.2 body

def moqPutStreamType (out : List Byte) (streamType : BitVec 64) : Int × List Byte := moqVarintWrite out streamType

def rcThen (r : Int × List Byte) (f : List Byte → Int × List Byte) : Int × List Byte := if r.1 = 0 then f r.2 else r

/-- `if (rc == 0) rc = moq_msg_build(out, ...)`, with the body written so far. -/
def rcBuild (out : List Byte) (typed : Bool) (type : BitVec 64) (r : Int × List Byte) : Int × List Byte :=
  if r.1 = 0 then moqMsgBuild out typed type r.2 else (r.1, out)

def moqWireAnnounceOk (out : List Byte) (origin active : BitVec 64) : Int × List Byte :=
  rcBuild out false 0 (rcThen (moqVarintWrite [] origin) (moqVarintWrite · active))

def moqWireAnnounceStart (out : List Byte) (sfx : Option CString) (warm cold : BitVec 64) : Int × List Byte :=
  rcBuild out true 0 (rcThen (rcThen (rcThen (moqStrWrite [] sfx) (moqVarintWrite · 0)) (moqVarintWrite · warm))
    (moqVarintWrite · cold))

def moqWireSubscribeStart (out : List Byte) (group : BitVec 64) : Int × List Byte :=
  rcBuild out true 0 (moqVarintWrite [] group)

def moqWireSubscribeEnd (out : List Byte) (group : BitVec 64) : Int × List Byte :=
  rcBuild out true 1 (moqVarintWrite [] group)

def moqWireTrackInfo (out : List Byte) (priority : Byte) (maxAgeMs timescale : BitVec 64) : Int × List Byte :=
  rcBuild out false 0 (rcThen (rcThen (moqBufAppend [] [priority]) (moqVarintWrite · maxAgeMs)) (moqVarintWrite · timescale))

def moqWireGroupHeader (out : List Byte) (subId seq frameStart : BitVec 64) : Int × List Byte :=
  rcBuild out false 0 (rcThen (rcThen (moqVarintWrite [] subId) (moqVarintWrite · seq)) (moqVarintWrite · frameStart))

def moqWireFrame (out : List Byte) (tsDelta : BitVec 64) (payload : List Byte) : Int × List Byte :=
  let z := moqZigzagEncode tsDelta
  if z.1 < 0 then (-1, out)
  else
    let r := moqVarintWrite out (z.2.getD 0)
    if r.1 < 0 then (-1, r.2)
    else
      let r := moqVarintWrite r.2 (BitVec.ofNat 64 payload.length)
      if r.1 < 0 then (-1, r.2) else moqBufAppend r.2 payload

end MoqLiveCast
