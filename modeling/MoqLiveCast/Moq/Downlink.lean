import Mathlib.Logic.Function.Basic
import MoqLiveCast.Moq.Egress
import MoqLiveCast.Moq.LiteTracks
import MoqLiveCast.Moq.LocWire
/-!
# Downlink — a subscriber's uni streams (`moq_push.cpp`)

Each track is one uni stream: a SUBGROUP header, and a LOC object for each media packet. What the transport does not
take at once waits in the track's queue, whose oldest buffers go when it is too long.
-/
namespace MoqLiveCast

/-- The stream of a downlink; one that is detached takes nothing. -/
structure DownStream where
  sid : Nat
  valid : Bool := true
deriving DecidableEq

structure Downlink where
  st : Option DownStream := none
  headerSent : Bool := false
  obj : Nat := 0
  waitKey : Bool := false
  congested : Bool := false
  sendQ : List (List Byte) := []
  sendQBytes : Nat := 0
deriving DecidableEq

def kMaxQBytes : Nat := 2 * 1024 * 1024

def kMaxQItems : Nat := 512

namespace Downlink

def clearSendQueue (d : Downlink) : Downlink := { d with sendQ := [], sendQBytes := 0, congested := false }

def trimTurns : List (List Byte) → Nat → List (List Byte) × Nat
  | [], bytes => ([], bytes)
  | b :: q, bytes =>
    if kMaxQBytes < bytes ∨ kMaxQItems < (b :: q).length then trimTurns q (bytes - b.length) else (b :: q, bytes)

def trimSendQueue (d : Downlink) : Downlink :=
  let r := trimTurns d.sendQ d.sendQBytes
  { d with sendQ := r.1, sendQBytes := r.2 }

def enqueueSend (d : Downlink) (buf : List Byte) : Downlink :=
  if buf = [] then d
  else { d with sendQ := d.sendQ ++ [buf], sendQBytes := d.sendQBytes + buf.length }.trimSendQueue

end Downlink

inductive DownMark where
  | opened (trackAlias : BitVec 64) (sid : Nat)
  | emitted (sid : Nat) (obj : List Byte)
  | taken (sid : Nat) (buf : List Byte)
deriving DecidableEq

/-- The subscriber's half of a `MoqPushSession`; the transport is an `EgressNet`. -/
structure PushDown where
  subscriber : Bool := false
  session : Bool := false
  writerClosed : Bool := false
  dl : RenditionKind → Downlink := fun _ => {}
  clock : PullClock := {}
  sends : Nat := 0
  opens : Nat := 0
  nextUni : Nat := 3
  log : List DownMark := []

def RenditionKind.trackAlias : RenditionKind → BitVec 64
  | .video => kAliasVideo
  | .audio => kAliasAudio

def RenditionKind.hdrOf (gop : GopCache) : RenditionKind → Option MediaPacket
  | .video => gop.videoHdr
  | .audio => gop.audioHdr

def RenditionKind.tagHdr : RenditionKind → Nat
  | .video => 5
  | .audio => 2

def flvCtsMs (body : List Byte) : BitVec 64 :=
  ((body.getD 2 0 ++ body.getD 3 0 ++ body.getD 4 0 : BitVec 24)).signExtend 64

/-- The object of a packet at the time `ts`; a sequence header is its configuration too. -/
def locObject (t : RenditionKind) (p : MediaPacket) (ts : Int) : List Byte :=
  let payload := p.body.drop t.tagHdr
  encodeLocObject 0 (BitVec.ofInt 64 ts) payload (p.isKeyFrame && !p.isSeqHdr) (if p.isSeqHdr then payload else [])
    (t = .video) (if t = .video ∧ p.isSeqHdr = false then flvCtsMs p.body else 0)

/-- `last_video_dts`, `last_audio_dts`, and whether the cached group is too old for video. -/
def staleGop (t : RenditionKind) (gop : List MediaPacket) : Prop :=
  t = .video ∧ 0 ≤ lastDtsOf .video gop ∧ 0 ≤ lastDtsOf .audio gop ∧ kStaleGopMs < lastDtsOf .audio gop - lastDtsOf .video gop

instance (t : RenditionKind) (gop : List MediaPacket) : Decidable (staleGop t gop) := inferInstanceAs (Decidable (_ ∧ _ ∧ _ ∧ _))

def gopReplay (t : RenditionKind) (gop : List MediaPacket) : List MediaPacket :=
  gop.filter fun p => p.avType = t.mediaType ∧
    ¬(t = .audio ∧ 0 ≤ lastDtsOf .video gop ∧ lastDtsOf .video gop + kAudioAheadMs < p.dts)

namespace PushDown

def setDl (s : PushDown) (t : RenditionKind) (d : Downlink) : PushDown := { s with dl := Function.update s.dl t d }

def mark (s : PushDown) (m : DownMark) : PushDown := { s with log := s.log ++ [m] }

section

variable (net : EgressNet) (s : PushDown) (t : RenditionKind)

def write (data : List Byte) : SendAnswer × PushDown :=
  match (s.dl t).st with
  | some ⟨sid, true⟩ =>
    let a := net.send s.sends
    (a, { s with sends := s.sends + 1, log := if a = .ok then s.log ++ [.taken sid data] else s.log })
  | _ => (.dead, s)

def clear : PushDown := s.setDl t (s.dl t).clearSendQueue

def drainTurns : List (List Byte) → PushDown → PushDown
  | [], s => s.setDl t { s.dl t with congested := false }
  | b :: q, s =>
    if b = [] then drainTurns q (s.setDl t { s.dl t with sendQ := q })
    else
      match s.write net t b with
      | (.full, s) => s.setDl t { s.dl t with congested := true }
      | (.dead, s) => s.clear t
      | (.ok, s) => drainTurns q (s.setDl t { s.dl t with sendQ := q, sendQBytes := (s.dl t).sendQBytes - b.length })

def drainSendQueue : PushDown :=
  if (s.dl t).st.any DownStream.valid then drainTurns net t (s.dl t).sendQ s else s.clear t

def counted : PushDown := s.setDl t { s.dl t with obj := (s.dl t).obj + 1 }

def enqueue (obj : List Byte) : PushDown := s.setDl t ((s.dl t).enqueueSend obj)

/-- `PullTs`: a time line set anew empties both queues. -/
def pullTs (p : MediaPacket) : PushDown :=
  let stamp := s.clock.stamp p
  let s := { s with clock := stamp.clock }
  if stamp.rebased then (s.clear .video).clear .audio else s

/-- The end of `EmitLoc`: the queue goes first. -/
def sendObject (obj : List Byte) : PushDown :=
  let s := s.drainSendQueue net t
  if (s.dl t).congested = false ∧ (s.dl t).sendQ = [] then
    match s.write net t obj with
    | (.ok, s) => s.counted t
    | (.full, s) => ((s.setDl t { s.dl t with congested := true }).enqueue t obj).counted t
    | (.dead, s) => s
  else (s.enqueue t obj).counted t

/-- `EmitLoc`; a packet without a payload is no object. -/
def emitLoc (p : MediaPacket) : PushDown :=
  match (s.dl t).st with
  | none => s
  | some st =>
    if p.body.length ≤ t.tagHdr then s
    else
      let obj := locObject t p (s.clock.stamp p).ts
      ((s.pullTs p).mark (.emitted st.sid obj)).sendObject net t obj

/-- `OpenUniDownlink` up to `SendGop`, and whether it comes to that. -/
def openStream : PushDown × Bool :=
  match net.uni s.opens with
  | none => ({ s with opens := s.opens + 1 }, false)
  | some k =>
    let sid := s.nextUni + 4 * k
    let hdr := encodeSubgroup t.trackAlias 0
    let s := { s with opens := s.opens + 1, nextUni := sid + 4 }.mark (.opened t.trackAlias sid)
    match (s.setDl t { st := some ⟨sid, true⟩ }).write net t hdr with
    | (.ok, s) => (s.setDl t { s.dl t with headerSent := true }, true)
    | (.full, s) => (s.setDl t { (s.dl t).enqueueSend hdr with congested := true, headerSent := true }, true)
    | (.dead, s) => (s.setDl t { s.dl t with st := none }, false)

/-- The header of the track's codec, and then the packets, but when they are too old. -/
def sendGop (gop : Option GopCache) : PushDown :=
  match gop with
  | none => s
  | some gop =>
    let s := { s with clock := s.clock.ensureBase gop.packets }
    let s := (t.hdrOf gop).elim s fun p => s.emitLoc net t p
    if staleGop t gop.packets then s.setDl t { s.dl t with waitKey := true }
    else (gopReplay t gop.packets).foldl (fun s p => s.emitLoc net t p) s

def openUniDownlink (gop : Option GopCache) : PushDown :=
  if (s.dl t).st.any DownStream.valid then s
  else
    let r := s.openStream net t
    if r.2 then r.1.sendGop net t gop else r.1

end

def subscribe (net : EgressNet) (s : PushDown) (trackAlias : BitVec 64) (gop : Option GopCache) : PushDown :=
  let s := { s with subscriber := true, session := true }
  if trackAlias = kAliasVideo then s.openUniDownlink net .video gop
  else if trackAlias = kAliasAudio then s.openUniDownlink net .audio gop
  else s

/-- The end of `WritePacket`: a subscriber that waits for a key frame starts with one. -/
def offerPacket (net : EgressNet) (s : PushDown) (t : RenditionKind) (p : MediaPacket) : PushDown :=
  if ¬((s.dl t).st.any DownStream.valid ∧ (s.dl t).headerSent) then s
  else if (s.dl t).waitKey then
    if p.isSeqHdr ∨ p.avType ≠ .video ∨ p.isKeyFrame = false then s
    else (s.setDl t { s.dl t with waitKey := false }).emitLoc net t p
  else s.emitLoc net t p

def writePacket (net : EgressNet) (s : PushDown) (p : MediaPacket) (gop : Option GopCache) : PushDown :=
  let writeTo := fun t : RenditionKind =>
    (if (s.dl t).st = none ∧ s.session then s.openUniDownlink net t gop else s).offerPacket net t p
  if s.writerClosed ∨ s.subscriber = false then s
  else if p.avType = .video then writeTo .video
  else if p.avType = .audio then writeTo .audio
  else s

def detached (s : PushDown) (t : RenditionKind) : PushDown :=
  s.setDl t { s.dl t with st := (s.dl t).st.map fun st => { st with valid := false } }

def close (s : PushDown) : PushDown := { s with session := false, dl := fun _ => {}, clock := {} }

end PushDown

/-- What a subscriber's session is asked; the cache is that of its stream. -/
inductive DownInput where
  | subscribe (trackAlias : BitVec 64) (gop : Option GopCache)
  | packet (p : MediaPacket) (gop : Option GopCache)
  | writable (t : RenditionKind)
  | detached (t : RenditionKind)
  | closeWriter
  | close

def PushDown.hear (net : EgressNet) (s : PushDown) : DownInput → PushDown
  | .subscribe trackAlias gop => s.subscribe net trackAlias gop
  | .packet p gop => s.writePacket net p gop
  | .writable t => s.drainSendQueue net t
  | .detached t => s.detached t
  | .closeWriter => { s with writerClosed := true }
  | .close => s.close

end MoqLiveCast
