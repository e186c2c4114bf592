import Mathlib.Logic.Function.Basic
import MoqLiveCast.Quic.Varint
/-!
# ChunkStream — messages in chunks (`net/rtmp/chunk_stream.cpp`, `rtmp_session_base.cpp`, `rtmp_session.cpp`)

A chunk begins with the number of its stream, in one to three bytes, and a header that leaves out what is as before.  A
read that lacks bytes keeps what it took so far: the basic header, the message header, or nothing.

The chunk size of a stream is the session's each time it is read, so it is not kept in the stream.
-/
namespace MoqLiveCast

def readNBytes (b : List Byte) : Nat := b.foldl (fun v x => v * 256 + x.toNat) 0

theorem readNBytes_beBytes (n val : Nat) : readNBytes (beBytes n val) = val % 256 ^ n := by
  unfold readNBytes
  rw [foldl_beBytes]
  omega

theorem readNBytes_lt (b : List Byte) : readNBytes b < 256 ^ b.length := beNat_lt b

structure RtmpMessage where
  csid : Nat
  timestamp : BitVec 32
  typeId : Byte
  streamId : BitVec 32
  payload : List Byte
deriving DecidableEq

structure ChunkStream where
  fmt : Nat
  csid : Nat
  timestampDelta : BitVec 32 := 0
  timestamp32 : BitVec 32 := 0
  msgLen : Nat := 0
  typeId : Byte := 0
  msgStreamId : BitVec 32 := 0
  remain : Nat := 0
  chunkData : List Byte := []
  extTsFlag : Bool := false
  inPayload : Bool := false
  chunkReady : Bool := false
deriving DecidableEq

namespace ChunkStream

def message (s : ChunkStream) : RtmpMessage := ⟨s.csid, s.timestamp32, s.typeId, s.msgStreamId, s.chunkData⟩

def reset (s : ChunkStream) : ChunkStream := { s with inPayload := false, chunkReady := false, chunkData := [] }

/-! ## Reading -/

/-- The formats 0, 1 and 2: a header of `len` bytes that begins with the time, and four more bytes where those three are not
enough.  `set` gets the header and the time; there is no rest where more is to be read. -/
def readMsgFormat (len fmt csid : Nat) (set : ChunkStream → List Byte → BitVec 32 → ChunkStream) (s : ChunkStream)
    (b : List Byte) : ChunkStream × Option (List Byte) :=
  if b.length < len then (s, none)
  else
    let s := { s with fmt, csid }
    let ts := readNBytes (b.take 3)
    if ts < 0xffffff then (set s (b.take len) (BitVec.ofNat 32 ts), some (b.drop len))
    else
      let s := { s with extTsFlag := true }
      if b.length < len + 4 then (s, none)
      else (set s (b.take len) (BitVec.ofNat 32 (readNBytes ((b.drop len).take 4))), some (b.drop (len + 4)))

def setFormat0 (s : ChunkStream) (h : List Byte) (ts : BitVec 32) : ChunkStream :=
  { s with
    timestamp32 := ts, timestampDelta := 0, msgLen := readNBytes ((h.drop 3).take 3), typeId := h.getD 6 0,
    msgStreamId := BitVec.ofNat 32 (readNBytes (h.drop 7)), remain := readNBytes ((h.drop 3).take 3) }

def setFormat1 (s : ChunkStream) (h : List Byte) (ts : BitVec 32) : ChunkStream :=
  { s with
    timestampDelta := ts, timestamp32 := s.timestamp32 + ts, msgLen := readNBytes ((h.drop 3).take 3), typeId := h.getD 6 0,
    remain := readNBytes ((h.drop 3).take 3) }

def setFormat2 (s : ChunkStream) (_ : List Byte) (ts : BitVec 32) : ChunkStream :=
  { s with timestampDelta := ts, timestamp32 := s.timestamp32 + ts, remain := s.msgLen }

def readMsgFormat0 (fmt csid : Nat) : ChunkStream → List Byte → ChunkStream × Option (List Byte) :=
  readMsgFormat 11 fmt csid setFormat0

def readMsgFormat1 (fmt csid : Nat) : ChunkStream → List Byte → ChunkStream × Option (List Byte) :=
  readMsgFormat 7 fmt csid setFormat1

def readMsgFormat2 (fmt csid : Nat) : ChunkStream → List Byte → ChunkStream × Option (List Byte) :=
  readMsgFormat 3 fmt csid setFormat2

def readExtTs (b : List Byte) : Option (BitVec 32 × List Byte) :=
  if b.length < 4 then none else some (BitVec.ofNat 32 (readNBytes (b.take 4)), b.drop 4)

/-- The time of a message whose first chunk has no header: by the format of the chunk before it, which for such a chunk says
nothing. -/
def repeatTimestamp (s : ChunkStream) (b : List Byte) : Option (BitVec 32 × List Byte) :=
  match s.fmt with
  | 0 => if s.extTsFlag then readExtTs b else some (s.timestamp32, b)
  | 1 | 2 =>
    if s.extTsFlag then (readExtTs b).map fun r => (s.timestamp32 + r.1, r.2)
    else some (s.timestamp32 + s.timestampDelta, b)
  | _ => some (s.timestamp32, b)

/-- The rest of a chunk that goes on: four bytes are the extended timestamp if they are the time. -/
def skipTimestamp (s : ChunkStream) (b : List Byte) : Option (List Byte) :=
  if s.extTsFlag then (readExtTs b).map fun r => if r.1 = s.timestamp32 then r.2 else b else some b

def readMsgFormat3 (fmt csid : Nat) (s : ChunkStream) (b : List Byte) : ChunkStream × Option (List Byte) :=
  if s.remain = 0 then
    match s.repeatTimestamp b with
    | none => (s, none)
    | some (ts, b) =>
      ({ s with timestamp32 := ts, chunkData := [], remain := s.msgLen, chunkReady := false, fmt, csid }, some b)
  else
    match s.skipTimestamp b with
    | none => (s, none)
    | some b => ({ s with fmt, csid }, some b)

def readMessageHeader (fmt csid : Nat) (s : ChunkStream) (b : List Byte) : ChunkStream × Option (List Byte) :=
  if s.inPayload then (s, some b)
  else
    let r := match fmt with
      | 0 => readMsgFormat0 fmt csid s b
      | 1 => readMsgFormat1 fmt csid s b
      | 2 => readMsgFormat2 fmt csid s b
      | _ => readMsgFormat3 fmt csid s b
    if r.2.isSome then ({ r.1 with inPayload := true }, r.2) else r

def readMessagePayload (chunkSize : Nat) (s : ChunkStream) (b : List Byte) : ChunkStream × Option (List Byte) :=
  let requireLen := min s.remain chunkSize
  if b.length < requireLen then (s, none)
  else
    ({ s with
       chunkData := s.chunkData ++ b.take requireLen, remain := s.remain - requireLen,
       chunkReady := s.chunkReady || s.remain - requireLen = 0, inPayload := false }, some (b.drop requireLen))

end ChunkStream

/-- What is buffered, the basic header, and the streams by the last byte of their number. -/
structure RtmpReader where
  buf : List Byte := []
  fmtReady : Bool := false
  fmt : Nat := 0
  csid : Nat := 0
  csMap : Nat → Option ChunkStream := fun _ => none

namespace RtmpReader

/-- `ReadFmtCsid`; the first byte is gone when the ones behind it are not there. -/
def readFmtCsid (r : RtmpReader) : RtmpReader × Bool :=
  match r.buf with
  | [] => (r, false)
  | x :: b =>
    let r := { r with buf := b, fmt := x.toNat / 64, csid := x.toNat % 64 }
    if x.toNat % 64 = 0 then
      match b with
      | [] => (r, false)
      | y :: b => ({ r with buf := b, csid := 64 + y.toNat }, true)
    else if x.toNat % 64 = 1 then
      match b with
      | y :: z :: b => ({ r with buf := b, csid := 64 + y.toNat + z.toNat }, true)
      | _ => (r, false)
    else (r, true)

def stream (r : RtmpReader) : ChunkStream := (r.csMap (r.csid % 256)).getD { fmt := r.fmt, csid := r.csid }

def setStream (r : RtmpReader) (s : ChunkStream) : RtmpReader :=
  { r with csMap := Function.update r.csMap (r.csid % 256) (some s) }

def readChunk (chunkSize : Nat) (r : RtmpReader) : RtmpReader × Bool :=
  let h := r.stream.readMessageHeader r.fmt r.csid r.buf
  match h.2 with
  | none => (r.setStream h.1, false)
  | some b =>
    let p := h.1.readMessagePayload chunkSize b
    match p.2 with
    | none => ({ r with buf := b }.setStream p.1, false)
    | some b => ({ r with buf := b, fmtReady := false }.setStream p.1, true)

def readChunkStream (chunkSize : Nat) (r : RtmpReader) : RtmpReader × Bool :=
  if r.fmtReady then r.readChunk chunkSize
  else
    let h := r.readFmtCsid
    if h.2 then { h.1 with fmtReady := true }.readChunk chunkSize else h

def push (r : RtmpReader) (x : List Byte) : RtmpReader := { r with buf := r.buf ++ x }

end RtmpReader

/-- What a session does with a message: `none` is an error, which closes it; `size` is its chunk size. -/
structure RtmpHandler (σ : Type) where
  size : σ → Nat
  handle : σ → RtmpMessage → Option σ

/-- A session that reads: `handled` are the messages it was given.  One that was closed reads no more. -/
structure RtmpInput (σ : Type) where
  reader : RtmpReader
  state : σ
  handled : List RtmpMessage := []
  closed : Bool := false

namespace RtmpInput

variable {σ : Type} (h : RtmpHandler σ)

def chunkRead (w : RtmpInput σ) (r : RtmpReader) : RtmpInput σ :=
  if r.stream.chunkReady then
    let w := { w with reader := r.setStream r.stream.reset, handled := w.handled ++ [r.stream.message] }
    match h.handle w.state r.stream.message with
    | none => { w with reader := {}, closed := true }
    | some t => { w with state := t }
  else { w with reader := r }

/-- `ReceiveChunkStream`, as long as there are chunks; a call with nothing buffered changes nothing. -/
def receiveLoop : Nat → RtmpInput σ → RtmpInput σ
  | 0, w => w
  | k + 1, w =>
    if w.closed then w
    else
      match w.reader.readChunkStream (h.size w.state) with
      | (r, false) => { w with reader := r }
      | (r, true) => receiveLoop k (w.chunkRead h r)

/-- A basic header takes a byte at least, and what is behind it may take none. -/
def receiveChunkStream (w : RtmpInput σ) : RtmpInput σ := receiveLoop h (2 * w.reader.buf.length + 2) w

def onRead (w : RtmpInput σ) (data : List Byte) : RtmpInput σ :=
  if w.closed then w else receiveChunkStream h { w with reader := w.reader.push data }

end RtmpInput

/-! ## Writing -/

/-- `GenData`: a time has three bytes, and a number that does not fit its byte loses its top. -/
def genData (fmt csid timestamp msgLen : Nat) (typeId : Byte) (msgStreamId : Nat) (data : List Byte) : List Byte :=
  (if csid < 64 then beBytes 1 (fmt * 64 + csid)
    else if csid - 64 < 256 then beBytes 1 (fmt * 64) ++ beBytes 1 csid
    else beBytes 1 (fmt * 64 + 1) ++ beBytes 2 csid) ++
  (match fmt with
    | 0 => beBytes 3 timestamp ++ beBytes 3 msgLen ++ typeId :: beBytes 4 msgStreamId
    | 1 => beBytes 3 timestamp ++ beBytes 3 msgLen ++ [typeId]
    | 2 => beBytes 3 timestamp
    | _ => []) ++ data

def csCount (len chunkSize : Nat) : Int :=
  (BitVec.ofNat 32 len).toInt.tdiv (BitVec.ofNat 32 chunkSize).toInt + if 0 < len % chunkSize then 1 else 0

def chunkAt (m : RtmpMessage) (chunkSize index : Nat) : List Byte :=
  let len := m.payload.length
  genData (if index = 0 then 0 else 3) (m.csid % 65536) m.timestamp.toNat len m.typeId m.streamId.toNat
    ((m.payload.drop (index * chunkSize)).take
      (if (index : Int) = csCount len chunkSize - 1 ∧ 0 < len % chunkSize then len % chunkSize else chunkSize))

def writeDataByChunkStream (m : RtmpMessage) (chunkSize : Nat) : List (List Byte) :=
  (List.range (csCount m.payload.length chunkSize).toNat).map (chunkAt m chunkSize)

end MoqLiveCast
