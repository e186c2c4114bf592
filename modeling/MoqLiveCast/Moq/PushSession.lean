import MoqLiveCast.Media.PublisherOwner
import MoqLiveCast.Moq.LiteTracks
import MoqLiveCast.Moq.PeerSubscribe
import MoqLiveCast.Moq.PushFeed
/-!
# PushSession — a MoQ push session and the stream keys (`moq_push.cpp`)

A PUBLISH claims the key of its names, a SUBSCRIBE makes the session a player there, and an object is written there as
FLV. The session has one pair of names for all of this; the next message puts its own in their place, and it is these
that the session goes by when it is closed. `me` is the session as a writer. The log has what matters to those who
watch: claims that are new, the configurations that came, and what was written where, with the key's publisher then.
`catalogJson` is the text of the configurations that were given to `FlvCatalogBuilder`. The downlinks are left out.
-/
namespace MoqLiveCast

def ctsBytes (ctsMs : Int) : List Byte :=
  let u := BitVec.ofInt 24 ctsMs
  [(u >>> 16).setWidth 8, (u >>> 8).setWidth 8, u.setWidth 8]

/-- The packet of `EmitFlvVideo`; `pts - dts` is also in its body. -/
def flvVideoPacket (dtsMs : Int) (seq key : Bool) (data : List Byte) (ctsMs : Int) : MediaPacket :=
  let p := makeFlvVideoPacket dtsMs seq key data
  let cts := if seq then 0 else ctsMs
  { p with pts := dtsMs + cts, body := p.body.take 2 ++ ctsBytes cts ++ data }

def headerPacket (dtsMs : Int) (cfg : List Byte) : RenditionKind → MediaPacket
  | .video => flvVideoPacket dtsMs true true cfg 0
  | .audio => makeFlvAudioPacket dtsMs true cfg

def framePacket (o : LocObject) : RenditionKind → MediaPacket
  | .video => flvVideoPacket o.tsMs.toInt false o.key o.payload o.ctsMs.toInt
  | .audio => makeFlvAudioPacket o.tsMs.toInt false o.payload

inductive PushMark where
  | claimed (key : Name)
  | config (kind : RenditionKind) (cfg : List Byte)
  | header (key : Name) (owner : Option Name) (kind : RenditionKind) (cfg : List Byte)
  | frame (key : Name) (owner : Option Name) (kind : RenditionKind)
deriving DecidableEq

/-- A `MoqPushSession`, as far as the keys go; `configs` is what its `catalog_builder_` was given. -/
structure MoqPushSession where
  app : Name := []
  stream : Name := []
  publisher : Bool := false
  subscriber : Bool := false
  playerAdded : Bool := false
  avcSeqSent : Bool := false
  aacSeqSent : Bool := false
  configs : List (RenditionKind × List Byte) := []
deriving DecidableEq

namespace MoqPushSession

variable (s : MoqPushSession)

def hasMedia : Bool := s.app ≠ [] && s.stream ≠ []

def getKey : Name := s.app ++ '/' :: s.stream

def named (app stream : List Byte) : MoqPushSession :=
  { s with
    app := if app = [] then s.app else nameOf app
    stream := if stream = [] then s.stream else nameOf stream }

def seqSent : RenditionKind → Bool
  | .video => s.avcSeqSent
  | .audio => s.aacSeqSent

def given (cfg : List Byte) : RenditionKind → MoqPushSession
  | .video => { s with avcSeqSent := true, configs := s.configs ++ [(.video, cfg)] }
  | .audio => { s with aacSeqSent := true, configs := s.configs ++ [(.audio, cfg)] }

end MoqPushSession

/-- The session, the streams of the manager by their keys, and the log. -/
structure PushWorld where
  session : MoqPushSession := {}
  streams : Name → StreamKey := fun key => { key }
  log : List PushMark := []

/-- What the session hears, when another one takes its place, and what others do with a key. -/
inductive PushInput where
  | heard (e : PushEvent) (now : Int) (fails : Nat → MediaPacket → Bool)
  | kicked
  | other (key : Name) (op : StreamOp)

namespace PushWorld

def kindOfAlias (trackAlias : BitVec 64) : Option RenditionKind :=
  if trackAlias = kAliasVideo then some .video else if trackAlias = kAliasAudio then some .audio else none

def putStream (w : PushWorld) (k : StreamKey) : PushWorld :=
  { w with streams := Function.update w.streams w.session.getKey k }

def mark (w : PushWorld) (m : PushMark) : PushWorld := { w with log := w.log ++ [m] }

section

variable (sessionId : SessionId) (w : PushWorld)

def stream : StreamKey := w.streams w.session.getKey

def isPublisherOwner : Bool :=
  if w.session.app = [] ∨ w.session.stream = [] then true else w.stream.isPublisherOwner sessionId.id

/-! ## Messages -/

section

variable (writerId : Nat → Name) (me : Nat)

def attachPlayer : PushWorld :=
  if w.session.playerAdded then w
  else
    let k := { w.stream with inited := me :: w.stream.inited }
    { w.putStream (k.addPlayer writerId (fun _ _ => false) me) with
      session := { w.session with playerAdded := true } }

def detachPlayer : PushWorld :=
  if w.session.playerAdded = false then w
  else { w.putStream (w.stream.removePlayer writerId me) with session := { w.session with playerAdded := false } }

def claim (now : Int) : PushWorld :=
  let r := w.stream.claimPublisher sessionId.id now
  let w' := w.putStream r.1
  if r.2 = .rejected then w'
  else
    let w' := { w' with session := { w.session with publisher := true } }
    if w.stream.owner = some sessionId.id then w' else w'.mark (.claimed w.session.getKey)

/-- `ParseControl`, behind the message; a body that throws or is read over its end leaves no session. -/
def onControl (m : ControlMessage) (now : Int) : Option PushWorld :=
  if m.type = kMoqtPublish then
    match parsePublish m.body ⟨0, []⟩ with
    | .ok b _ =>
      let w := { w with session := w.session.named b.app b.stream }
      if w.session.hasMedia then some (w.claim sessionId now) else some w
    | .short _ => some w
    | .stop _ _ => none
  else if m.type = kMoqtSubscribe then
    match parseSubscribe m.body ⟨0, []⟩ with
    | .ok b _ =>
      let w := { w with session := w.session.named b.app b.stream }
      if w.session.hasMedia then some ({ w with session := { w.session with subscriber := true } }.attachPlayer writerId me)
      else some w
    | .short _ => some w
    | .stop _ _ => none
  else some w

/-! ## Objects -/

section

variable (fails : Nat → MediaPacket → Bool)

/-- The ends of `EmitFlvVideo` and `EmitFlvAudio`. -/
def emit (p : MediaPacket) (m : PushMark) : PushWorld :=
  if w.isPublisherOwner sessionId then (w.putStream (w.stream.writerMediaPacket writerId fails p)).mark m else w

def emitHeader (kind : RenditionKind) (dtsMs : Int) (cfg : List Byte) : PushWorld :=
  w.emit sessionId writerId fails (headerPacket dtsMs cfg kind) (.header w.session.getKey w.stream.owner kind cfg)

def emitFrame (kind : RenditionKind) (o : LocObject) : PushWorld :=
  w.emit sessionId writerId fails (framePacket o kind) (.frame w.session.getKey w.stream.owner kind)

def publishCatalog (catalogJson : List (RenditionKind × List Byte) → List Byte) : PushWorld :=
  let json := catalogJson w.session.configs
  if json = [] then w else w.putStream (w.stream.setCatalogJson sessionId.id json).1

def onConfig (catalogJson : List (RenditionKind × List Byte) → List Byte) (kind : RenditionKind) (o : LocObject) : PushWorld :=
  let w := w.emitHeader sessionId writerId fails kind o.tsMs.toInt o.cfg
  { w with session := w.session.given o.cfg kind }.publishCatalog sessionId catalogJson

def onTrackObject (catalogJson : List (RenditionKind × List Byte) → List Byte) (kind : RenditionKind) (o : LocObject) :
    PushWorld :=
  let w := if o.cfg = [] then w else w.mark (.config kind o.cfg)
  if w.session.hasMedia = false ∨ o.payload = [] then w
  else
    let w := if o.cfg ≠ [] ∧ w.session.seqSent kind = false then w.onConfig sessionId writerId fails catalogJson kind o else w
    w.emitFrame sessionId writerId fails kind o

def onLocObject (catalogJson : List (RenditionKind × List Byte) → List Byte) (trackAlias : BitVec 64) (o : LocObject) :
    PushWorld :=
  match kindOfAlias trackAlias with
  | none => w
  | some kind => w.onTrackObject sessionId writerId fails catalogJson kind o

end

/-! ## Runs -/

def onSessionClose : PushWorld :=
  let w := w.detachPlayer writerId me
  if w.session.publisher && w.session.hasMedia then w.putStream (w.stream.releasePublisher sessionId.id).1 else w

def step (catalogJson : List (RenditionKind × List Byte) → List Byte) (w : PushWorld) : PushInput → Option PushWorld
  | .heard (.control m) now _ => w.onControl sessionId writerId me m now
  | .heard (.subgroup _) _ _ => some w
  | .heard (.object trackAlias o) _ fails =>
    some (w.onLocObject sessionId writerId fails catalogJson trackAlias o)
  | .kicked => some (w.detachPlayer writerId me)
  | .other key op =>
    some { w with streams := Function.update w.streams key ((w.streams key).step writerId op) }

def run (catalogJson : List (RenditionKind × List Byte) → List Byte) (w : PushWorld) (ins : List PushInput) : Option PushWorld :=
  ins.foldlM (step sessionId writerId me catalogJson) w

end

end

end PushWorld
end MoqLiveCast
