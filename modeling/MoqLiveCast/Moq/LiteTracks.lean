import MoqLiveCast.Lib.OrdMap
import MoqLiveCast.Media.StreamHeaders
import MoqLiveCast.Moq.MlWire
import MoqLiveCast.Moq.ServeTrack
/-!
# LiteTracks — the media a moq-lite session is sent (`moq_lite_session.cpp`)

A catalog says which tracks there are and what their decoders are set up with; the frames of the tracks whose codec is known
are written under the session's stream key as FLV packets, the first of each track behind a sequence header.  Which track a
frame is for is told by its group's subscription (`subs_`), so a frame comes here with the track's name.

`parseJson` is the parser of `json.hpp`.  Behind an exception of it (`value` finds another type) there is no session.
-/
namespace MoqLiveCast

inductive Json where
  | null
  | boolean (b : Bool)
  | number (text : Name)
  | string (s : Name)
  | array (items : List Json)
  | object (fields : List (Name × Json))

namespace Json

variable (fields : List (Name × Json)) (name : String)

def objectAt : Option (List (Name × Json)) :=
  match OrdMap.find fields name.toList with
  | some (.object fields) => some fields
  | _ => none

def stringValue : Option Name :=
  match OrdMap.find fields name.toList with
  | none => some []
  | some (.string s) => some s
  | some _ => none

/-- `value(name, 0)` gives something; a `bool` is a number too. -/
def hasNumber : Bool :=
  match OrdMap.find fields name.toList with
  | none | some (.number _) | some (.boolean _) => true
  | some _ => false

end Json

def hexDigit (c : Char) : Option Nat :=
  if '0' ≤ c ∧ c ≤ '9' then some (c.toNat - '0'.toNat)
  else if 'a' ≤ c ∧ c ≤ 'f' then some (c.toNat - 'a'.toNat + 10)
  else if 'A' ≤ c ∧ c ≤ 'F' then some (c.toNat - 'A'.toNat + 10)
  else none

def hexDecode : Name → Option (List Byte)
  | [] => some []
  | [_] => none
  | hi :: lo :: rest => do
    let hi ← hexDigit hi
    let lo ← hexDigit lo
    return BitVec.ofNat 8 (hi * 16 + lo) :: (← hexDecode rest)

/-! ## Tracks -/

/-- The two sections of a catalog that are read (`kKinds`). -/
inductive RenditionKind where
  | video | audio
deriving DecidableEq

namespace RenditionKind

def section_ : RenditionKind → String
  | .video => "video"
  | .audio => "audio"

def mediaType : RenditionKind → MediaType
  | .video => .video
  | .audio => .audio

def usable (codec : Name) : RenditionKind → Bool
  | .video => codec.take 5 = "avc1.".toList
  | .audio => codec.take 8 = "mp4a.40.".toList

/-- The packet of `EmitFlvVideoFrame` and `EmitFlvAudioFrame`. -/
def packet (tsMs : Int) (seq key : Bool) (data : List Byte) : RenditionKind → MediaPacket
  | .video => makeFlvVideoPacket tsMs seq key data
  | .audio => makeFlvAudioPacket tsMs seq data

def tagLen : RenditionKind → Nat
  | .video => 5
  | .audio => 2

end RenditionKind

structure MoqLiteTrack where
  kind : RenditionKind
  codec : Name := []
  codecConfig : List Byte := []
  m3Usable : Bool := false
  seqHdrSent : Bool := false
  delivered : Nat := 0
deriving DecidableEq

def readRendition (kind : RenditionKind) (tracks : List (Name × MoqLiteTrack)) : Name × Json → Option (List (Name × MoqLiteTrack))
  | (name, .object fields) => do
    let codec ← Json.stringValue fields "codec"
    if ["codedWidth", "codedHeight", "sampleRate", "numberOfChannels"].all (Json.hasNumber fields) = false then none
    let ti := (OrdMap.find tracks name).getD { kind }
    let described := match OrdMap.find fields "description".toList with
      | some (.string s) => hexDecode s
      | _ => none
    return OrdMap.put tracks name
      { ti with kind, codec, codecConfig := described.getD ti.codecConfig, m3Usable := kind.usable codec }
  | _ => some tracks

def readSection (fields : List (Name × Json)) (tracks : List (Name × MoqLiteTrack)) (kind : RenditionKind) :
    Option (List (Name × MoqLiteTrack)) :=
  (((Json.objectAt fields kind.section_).bind (Json.objectAt · "renditions")).getD []).foldlM (readRendition kind) tracks

def readCatalog (fields : List (Name × Json)) (tracks : List (Name × MoqLiteTrack)) : Option (List (Name × MoqLiteTrack)) :=
  if ((Json.objectAt fields "clock").getD []).any fun e =>
      (e.1 = "wall".toList || e.1 = "timescale".toList) && !(e.2 matches .number _) then none
  else [RenditionKind.video, .audio].foldlM (readSection fields) tracks

/-- The text that was parsed and what it says; before it there may be a time. -/
def catalogText (parseJson : List Byte → Option Json) (payload : List Byte) : Option (List Byte × Json) :=
  match parseJson payload with
  | some j => some (payload, j)
  | none =>
    match mlSkipVarint payload 0 with
    | (true, off) => (parseJson (payload.drop off)).map (payload.drop off, ·)
    | (false, _) => none

def kUsPerMs : Nat := 1000

/-- A frame's time in microseconds, and what is behind it; an end marker has nothing there. -/
def containerFrame (payload : List Byte) : Option (Nat × List Byte) :=
  match mlReadVarint payload 0 with
  | ⟨true, off, some us⟩ => if payload.length ≤ off then none else some (us.toNat, payload.drop off)
  | _ => none

/-! ## The session -/

/-- A frame that was written: its track's configuration by the catalog, and the header of its kind that the stream had. -/
structure WrittenFrame where
  kind : RenditionKind
  config : List Byte
  header : Option MediaPacket
deriving DecidableEq

/-- `stream` is the manager's entry under `stream_key_`, which is known (`keyKnown`) when the broadcast is. -/
structure LiteSubscriber where
  ownerId : Name
  stream : StreamKey
  keyKnown : Bool := false
  dead : Bool := false
  streamClaimed : Bool := false
  catalogJsonRaw : List Byte := []
  tracks : List (Name × MoqLiteTrack) := []
  written : List WrittenFrame := []

namespace LiteSubscriber

def pushCatalogToManager (s : LiteSubscriber) : LiteSubscriber :=
  if s.catalogJsonRaw = [] ∨ s.streamClaimed = false ∨ s.keyKnown = false then s
  else { s with stream := (s.stream.setCatalogJson s.ownerId s.catalogJsonRaw).1 }

def isStreamOwner (s : LiteSubscriber) : Bool := s.keyKnown && s.ownerId ≠ [] && s.stream.isPublisherOwner s.ownerId

def releaseStream (s : LiteSubscriber) : LiteSubscriber :=
  if s.streamClaimed = false then s
  else if s.keyKnown = false then { s with streamClaimed := false }
  else { s with streamClaimed := false, stream := (s.stream.releasePublisher s.ownerId).1 }

def closeSession (s : LiteSubscriber) : LiteSubscriber := if s.dead then s else { s with dead := true }.releaseStream

def ensureStreamClaimed (s : LiteSubscriber) (now : Int) : LiteSubscriber × Bool :=
  if s.streamClaimed then (s, true)
  else if s.dead ∨ s.keyKnown = false then (s, false)
  else
    match s.stream.claimPublisher s.ownerId now with
    | (stream, .rejected) => ({ s with streamClaimed := true, stream }.closeSession, false)
    | (stream, _) => ({ s with streamClaimed := true, stream }.pushCatalogToManager, true)

def onCatalogFrame (parseJson : List Byte → Option Json) (s : LiteSubscriber) (payload : List Byte) : Option LiteSubscriber :=
  match catalogText parseJson payload with
  | some (raw, .object fields) => do
    let tracks ← readCatalog fields s.tracks
    return { { s with catalogJsonRaw := raw }.pushCatalogToManager with tracks }
  | _ => some s

/-! ## Frames -/

section

variable (writerId : Nat → Name) (fails : Nat → MediaPacket → Bool)

def deliver (s : LiteSubscriber) (p : MediaPacket) : LiteSubscriber × Bool :=
  if s.isStreamOwner then ({ s with stream := s.stream.writerMediaPacket writerId fails p }, true) else (s, false)

def putTrack (s : LiteSubscriber) (name : Name) (ti : MoqLiteTrack) : LiteSubscriber :=
  { s with tracks := OrdMap.put s.tracks name ti }

/-- The flag is set, and `EmitFlvVideoSeqHdr` or `EmitFlvAudioSeqHdr` is called. -/
def emitSeqHdr (s : LiteSubscriber) (name : Name) (ti : MoqLiteTrack) (tsMs : Int) : LiteSubscriber :=
  let s := s.putTrack name { ti with seqHdrSent := true }
  if ti.codecConfig = [] then s else (s.deliver writerId fails (ti.kind.packet tsMs true true ti.codecConfig)).1

def emitFrame (s : LiteSubscriber) (name : Name) (ti : MoqLiteTrack) (tsMs : Int) (key : Bool) (data : List Byte) :
    LiteSubscriber :=
  match s.deliver writerId fails (ti.kind.packet tsMs false key data) with
  | (s', false) => s'
  | (s', true) => { s'.putTrack name { ti with delivered := ti.delivered + 1 } with
      written := s.written ++ [⟨ti.kind, ti.codecConfig, s.stream.seqHdr ti.kind.mediaType⟩] }

def onMediaFrame (s : LiteSubscriber) (name : Name) (keyPending : Bool) (payload : List Byte) (now : Int) : LiteSubscriber :=
  match OrdMap.find s.tracks name, containerFrame payload with
  | some ti, some (innerUs, data) =>
    if ti.m3Usable = false then s
    else
      let tsMs : Int := innerUs / kUsPerMs
      let key := ti.kind = .video && keyPending
      match s.ensureStreamClaimed now with
      | (s, false) => s
      | (s, true) =>
        let s := if ti.seqHdrSent then s else s.emitSeqHdr writerId fails name ti tsMs
        s.emitFrame writerId fails name { ti with seqHdrSent := true } tsMs key data
  | _, _ => s

end

/-! ## Runs -/

/-- What happens to the session, and what others do with its key. -/
inductive Event where
  | broadcast
  | frame (name : Name) (keyPending : Bool) (payload : List Byte) (now : Int) (fails : Nat → MediaPacket → Bool)
  | close
  | other (op : StreamOp)

section

variable (parseJson : List Byte → Option Json) (writerId : Nat → Name)

def step (s : LiteSubscriber) : Event → Option LiteSubscriber
  | .broadcast => some { s with keyKnown := true }
  | .frame name keyPending payload now fails =>
    if name = kCatalogTrack then s.onCatalogFrame parseJson payload
    else some (s.onMediaFrame writerId fails name keyPending payload now)
  | .close => some s.closeSession
  | .other op => some { s with stream := s.stream.step writerId op }

def run (s : LiteSubscriber) (evs : List Event) : Option LiteSubscriber := evs.foldlM (step parseJson writerId) s

end

end LiteSubscriber
end MoqLiveCast
