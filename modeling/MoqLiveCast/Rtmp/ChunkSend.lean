import MoqLiveCast.Lib.OrdMap
import MoqLiveCast.Lib.Run
import MoqLiveCast.Rtmp.ChunkStream
/-!
# ChunkSend — a peer that sends messages in chunks

A message begins with a header that says what is not as before: all (0), the time since the message before, the length
and the type (1), that time (2), or nothing (3). A chunk that goes on has no header. A time that does not fit three
bytes has four more, and so have the chunks without a time behind it. The time repeated behind a message of type 0 is
that message's own.
-/
namespace MoqLiveCast

/-- The low `n` bytes of a value, the least first. -/
def leBytes (n val : Nat) : List Byte := (beBytes n val).reverse

/-- What of a message is still to be sent, the time that is repeated, and whether a header of the stream had more than three
bytes for it; the format of the last chunk. -/
structure SentStream where
  message : RtmpMessage
  delta : BitVec 32
  rest : List Byte
  flagged : Bool
  lastFmt : Nat
deriving DecidableEq

def isExtended (delta : BitVec 32) : Bool := 0xffffff ≤ delta.toNat

/-- A message begins, or goes on; `wide` are three bytes for a number that two are enough for. -/
inductive ChunkEvent where
  | start (fmt : Nat) (wide : Bool) (m : RtmpMessage)
  | more (csid : Nat) (wide : Bool)

/-- The chunk size the peer has said, what it sent of each stream, and the messages it has sent; its reader's state, as long as
no message was refused. -/
structure ChunkPeer (σ : Type) where
  size : Nat
  reader : Option σ
  streams : List (Nat × SentStream) := []
  sent : List RtmpMessage := []

/-- How a peer writes: the bytes of a stream id, and the chunk size after a message. -/
structure ChunkRules where
  ids : BitVec 32 → List Byte
  size : Nat → RtmpMessage → Nat

/-- A stream id has its least byte first, and a message of type 1 says the chunk size. -/
def rtmpRules : ChunkRules := ⟨fun id => leBytes 4 id.toNat, fun n m => if m.typeId = 1 then readNBytes (m.payload.take 4) else n⟩

/-- A chunk stream's number as `ReadFmtCsid` reads it. -/
def readCsid (csid : Nat) : Nat := if csid < 64 then csid else 64 + (csid - 64) % 256 + (csid - 64) / 256

def asRead (m : RtmpMessage) : RtmpMessage := { m with csid := readCsid m.csid }

def RtmpMessage.body (m : RtmpMessage) : BitVec 32 × Byte × BitVec 32 × List Byte := (m.timestamp, m.typeId, m.streamId, m.payload)

/-! ## The bytes -/

def basicHeader (fmt csid : Nat) (wide : Bool) : List Byte :=
  if csid < 64 then beBytes 1 (fmt * 64 + csid)
  else if csid < 320 ∧ wide = false then beBytes 1 (fmt * 64) ++ beBytes 1 (csid - 64)
  else beBytes 1 (fmt * 64 + 1) ++ leBytes 2 (csid - 64)

def timeField (delta : BitVec 32) : List Byte := beBytes 3 (min delta.toNat 0xffffff)

def extField (delta : BitVec 32) : List Byte := if isExtended delta then beBytes 4 delta.toNat else []

def messageHeader (ids : BitVec 32 → List Byte) (fmt : Nat) (delta : BitVec 32) (m : RtmpMessage) : List Byte :=
  (match fmt with
    | 0 => timeField delta ++ beBytes 3 m.payload.length ++ m.typeId :: ids m.streamId
    | 1 => timeField delta ++ beBytes 3 m.payload.length ++ [m.typeId]
    | 2 => timeField delta
    | _ => []) ++ extField delta

namespace ChunkPeer

variable {σ : Type} (rules : ChunkRules) (h : RtmpHandler σ) (t : ChunkPeer σ)

def begun (fmt : Nat) (m : RtmpMessage) : SentStream :=
  match OrdMap.find t.streams m.csid with
  | none => ⟨m, m.timestamp, m.payload, isExtended m.timestamp, fmt⟩
  | some s =>
    let delta := match fmt with
      | 0 => m.timestamp
      | 3 => s.delta
      | _ => m.timestamp - s.message.timestamp
    ⟨m, delta, m.payload, s.flagged || (fmt ≠ 3 && isExtended delta), fmt⟩

def complete (m : RtmpMessage) : ChunkPeer σ :=
  { t with
    size := rules.size t.size m,
    reader := t.reader.bind fun p => h.handle p (asRead m), sent := t.sent ++ [m] }

def chunkSent (s : SentStream) : ChunkPeer σ :=
  let s := { s with rest := s.rest.drop t.size }
  let t := { t with streams := OrdMap.put t.streams s.message.csid s }
  if s.rest = [] then t.complete rules h s.message else t

def step : ChunkEvent → ChunkPeer σ
  | .start fmt _ m => t.chunkSent rules h (t.begun fmt m)
  | .more csid _ =>
    match OrdMap.find t.streams csid with
    | none => t
    | some s => t.chunkSent rules h { s with lastFmt := 3 }

def headOf : ChunkEvent → List Byte
  | .start fmt wide m => basicHeader fmt m.csid wide
  | .more csid wide => basicHeader 3 csid wide

def tailOf : ChunkEvent → List Byte
  | .start fmt _ m => messageHeader rules.ids fmt (t.begun fmt m).delta m ++ m.payload.take t.size
  | .more csid _ =>
    match OrdMap.find t.streams csid with
    | none => []
    | some s => extField s.delta ++ s.rest.take t.size

end ChunkPeer

section

variable {σ : Type} (rules : ChunkRules) (h : RtmpHandler σ)

def encode : ChunkPeer σ → List ChunkEvent → List Byte
  | _, [] => []
  | t, e :: es => ChunkPeer.headOf e ++ t.tailOf rules e ++ encode (t.step rules h e) es

/-- The first `n` bytes end inside a basic header. -/
def endsInside : ChunkPeer σ → List ChunkEvent → Nat → Bool
  | _, [], _ => false
  | t, e :: es, n =>
    let len := (ChunkPeer.headOf e ++ t.tailOf rules e).length
    if n < len then 0 < n && n < (ChunkPeer.headOf e).length else endsInside (t.step rules h e) es (n - len)

/-- **No cut is inside a basic header.** -/
def CutsOk (t : ChunkPeer σ) (events : List ChunkEvent) (pieces : List (List Byte)) : Prop :=
  ∀ k < pieces.length + 1, endsInside rules h t events (pieces.take k).flatten.length = false

/-- **What a compliant peer may send**: a message where none is on its way, that leaves out what is as before, and one that goes
on where there is more of it. -/
def Compliant (t : ChunkPeer σ) : ChunkEvent → Prop
  | .start fmt _ m =>
    0 < t.size ∧ fmt ≤ 3 ∧ 2 ≤ m.csid ∧ m.csid < 65600 ∧ m.payload.length < 2 ^ 24 ∧
      (∀ s ∈ OrdMap.find t.streams m.csid, s.rest = []) ∧
      (fmt ≠ 0 → ∃ s ∈ OrdMap.find t.streams m.csid, m.streamId = s.message.streamId ∧
        (2 ≤ fmt → m.typeId = s.message.typeId ∧ m.payload.length = s.message.payload.length) ∧
        (fmt = 3 → m.timestamp = s.message.timestamp + s.delta))
  | .more csid _ => 0 < t.size ∧ 2 ≤ csid ∧ csid < 65600 ∧ ∃ s ∈ OrdMap.find t.streams csid, s.rest ≠ []

/-- **The condition on a chunk**, as long as no message was refused: it is cut with the reader's chunk size, its stream is one of
its own to the reader, and a stream id has its bytes in the order of all other numbers.  A chunk without a header finds its stream with four more
bytes for the time now if ever; at the beginning of a message the last chunk had a time that was added, or nothing is to be
added, and where it goes on those four bytes are the time itself. -/
def ReadOk (t : ChunkPeer σ) (e : ChunkEvent) : Prop :=
  ∀ p ∈ t.reader, h.size p = t.size ∧
    match e with
    | .start fmt _ m =>
      (∀ e ∈ t.streams, e.1 ≠ m.csid → readCsid e.1 % 256 ≠ readCsid m.csid % 256) ∧
        rules.ids m.streamId = beBytes 4 m.streamId.toNat ∧
        (fmt = 3 → ∀ s ∈ OrdMap.find t.streams m.csid, s.flagged = isExtended s.delta ∧
          (s.lastFmt = 1 ∨ s.lastFmt = 2 ∨ s.delta = 0))
    | .more csid _ =>
      ∀ s ∈ OrdMap.find t.streams csid, s.flagged = isExtended s.delta ∧
        (isExtended s.delta = true → s.delta = s.message.timestamp)

end

end MoqLiveCast
