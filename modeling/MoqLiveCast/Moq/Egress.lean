import MoqLiveCast.Lib.Outbox
import MoqLiveCast.Moq.MlWire
import MoqLiveCast.Moq.PullTime
/-!
# Egress — a moq-lite subscriber's group streams (`moq_lite_egress.cpp`)

A track is sent in groups, each on a uni stream of its own: the STREAM_TYPE and the GROUP header, a frame for each media
packet, and a marker with the FIN.  What the transport does not take at once waits in one queue for all groups.

The transport is known by its answers alone: `EgressNet` tells those to the n-th write and to the n-th open.  Beside the
egress stand the groups it opened and what became of each frame it offered to one.
-/
namespace MoqLiveCast

/-- What `QuicConnectionStreamSendEx` answers: 0, 1 and -1. -/
inductive SendAnswer where
  | ok | full | dead
deriving DecidableEq

/-- Each write's answer, and for each open how many uni streams the connection opened otherwise since the last one, or that
there is no credit. -/
structure EgressNet where
  send : Nat → SendAnswer
  uni : Nat → Option Nat

structure MediaFrame where
  pkt : MediaPacket
  tsUs : BitVec 64
  tagHdr : Nat
deriving DecidableEq

def MediaFrame.codec (f : MediaFrame) : List Byte := f.pkt.body.drop f.tagHdr

/-- A `PendingSeg`, with the frame that is in it, if one is. -/
structure Seg where
  sid : Nat
  data : List Byte
  fin : Bool := false
  frame : Option MediaFrame := none
deriving DecidableEq

structure Group where
  sid : Nat
  header : List Byte
deriving DecidableEq

/-- What became of a frame: taken by the transport or the queue, dropped for want of room, not to be encoded, or offered to a
stream found dead. -/
inductive Fate where
  | taken | dropped | unencoded | gone
deriving DecidableEq

structure Offer where
  sid : Nat
  frame : MediaFrame
  fate : Fate
deriving DecidableEq

def kPendingCapBytes : Nat := 2 * 1024 * 1024

def kAudioGroupUs : BitVec 64 := 1000000

def kStaleGopMs : Int := 400

/-- The server's first uni stream is 3, and each is 4 above the one before. -/
structure Egress where
  isVideo : Bool
  closed : Bool := false
  started : Bool := false
  subscribeId : BitVec 64 := 0
  subStreamId : Nat := 0
  groupSid : Nat := 0
  groupSeq : BitVec 64 := 0
  groupPrevUs : BitVec 64 := 0
  groupOpenUs : BitVec 64 := 0
  groupHadMedia : Bool := false
  out : Outbox Seg := {}
  pendingBytes : Nat := 0
  clock : PullClock := {}
  sends : Nat := 0
  opens : Nat := 0
  nextUni : Nat := 3
  groups : List Group := []
  offers : List Offer := []
deriving DecidableEq

namespace Egress

def called (e : Egress) : Egress := { e with sends := e.sends + 1 }

def leaveGroup (e : Egress) : Egress :=
  { e with groupSid := 0, groupSeq := e.groupSeq + 1, groupPrevUs := 0, groupOpenUs := 0, groupHadMedia := false }

def abandonGroup (e : Egress) : Egress := if e.groupSid = 0 then e else e.leaveGroup

/-- What is of `sid` at the front of the queue goes. -/
def cutFront (e : Egress) (sid : Nat) : Egress :=
  { e with
    out := e.out.cut Seg.sid sid
    pendingBytes := e.pendingBytes - ((e.out.pending.takeWhile fun s => s.sid = sid).map fun s => s.data.length).sum }

def flushTurns (net : EgressNet) : Nat → Egress → Egress
  | 0, e => e
  | k + 1, e =>
    match e.out.pending with
    | [] => e
    | seg :: _ =>
      match net.send e.sends with
      | .full => e.called
      | .dead =>
        let e' := e.called.cutFront seg.sid
        flushTurns net k (if e'.groupSid = seg.sid then e'.abandonGroup else e')
      | .ok => flushTurns net k { e.called with out := e.out.pass, pendingBytes := e.pendingBytes - seg.data.length }

def flushPending (net : EgressNet) (e : Egress) : Egress := flushTurns net e.out.pending.length e

/-- The queue's end of `Push`: a segment with the FIN is never dropped. -/
def enqueue (e : Egress) (seg : Seg) : Egress × Fate :=
  if seg.data ≠ [] ∧ seg.fin = false ∧ kPendingCapBytes < e.pendingBytes + seg.data.length then (e, .dropped)
  else ({ e with out := e.out.post seg, pendingBytes := e.pendingBytes + seg.data.length }, .taken)

def push (net : EgressNet) (e : Egress) (data : List Byte) (fin : Bool) (frame : Option MediaFrame) : Egress × Fate :=
  if e.groupSid = 0 then (e, .gone)
  else
    let e := e.flushPending net
    let seg : Seg := ⟨e.groupSid, data, fin, frame⟩
    if e.groupSid = 0 then (e, .gone)
    else if e.out.pending = [] then
      match net.send e.sends with
      | .ok => ({ e.called with out := e.out.give seg }, .taken)
      | .dead => (e.called.abandonGroup, .gone)
      | .full => e.called.enqueue seg
    else e.enqueue seg

def endMarker (endUs : BitVec 64) : Option (List Byte) :=
  let payload := mlWriteVarint [] endUs
  if payload.1 then
    let seg := mlAppendFrame [] 0 payload.2
    if seg.1 then some seg.2 else none
  else none

def closeGroup (net : EgressNet) (e : Egress) (cleanEnd : Bool) : Egress :=
  if e.groupSid = 0 then e
  else
    let endUs := if e.groupHadMedia then e.groupPrevUs else e.groupOpenUs
    let marker := if cleanEnd then endMarker endUs else none
    (e.push net (marker.getD []) true none).1.leaveGroup

def groupHeader (subscribeId groupSeq : BitVec 64) : Option (List Byte) :=
  let h := mlBuildGroupHeader (mlAppendVarint [] 0) subscribeId groupSeq 0
  if h.1 then some h.2 else none

def openGroup (net : EgressNet) (e : Egress) (tsUs : BitVec 64) : Egress × Bool :=
  match net.uni e.opens with
  | none => ({ e with opens := e.opens + 1 }, false)
  | some k =>
    let sid := e.nextUni + 4 * k
    let e := { e with opens := e.opens + 1, nextUni := sid + 4 }
    match groupHeader e.subscribeId e.groupSeq with
    | none => (e, false)
    | some h =>
      let a := net.send e.sends
      if a = .dead then (e.called, false)
      else
        ({ e.called with
            out := if a = .ok then e.out.give ⟨sid, h, false, none⟩ else e.out
            groupSid := sid, groupPrevUs := 0, groupOpenUs := tsUs, groupHadMedia := false
            groups := e.groups ++ [⟨sid, h⟩] }, true)

/-- The frame's outer time is the difference to the one before it in its group. -/
def encodeFrame (prevUs : BitVec 64) (f : MediaFrame) : Option (List Byte) :=
  let payload := mlWriteVarint [] f.tsUs
  if payload.1 then
    let seg := mlAppendFrame [] (f.tsUs - prevUs) (payload.2 ++ f.codec)
    if seg.1 then some seg.2 else none
  else none

def noted (e : Egress) (sid : Nat) (f : MediaFrame) (fate : Fate) : Egress :=
  { e with offers := e.offers ++ [⟨sid, f, fate⟩] }

/-- The end of `WritePacket`: the time of the last frame moves before the frame is pushed. -/
def offer (net : EgressNet) (e : Egress) (f : MediaFrame) : Egress :=
  match encodeFrame e.groupPrevUs f with
  | none => e.noted e.groupSid f .unencoded
  | some data =>
    let r := { e with groupPrevUs := f.tsUs, groupHadMedia := true }.push net data false (some f)
    r.1.noted e.groupSid f r.2

def wants (e : Egress) (p : MediaPacket) : Prop :=
  e.closed = false ∧ e.started = true ∧ p.body ≠ [] ∧ p.isSeqHdr = false ∧
    p.avType = if e.isVideo then MediaType.video else .audio

instance (e : Egress) (p : MediaPacket) : Decidable (e.wants p) := by
  unfold wants
  infer_instance

def tagHdr (e : Egress) : Nat := if e.isVideo then 5 else 2

/-- `FrameTsUs`: a time line set anew ends the group, without a marker. -/
def frameTsUs (net : EgressNet) (e : Egress) (p : MediaPacket) : BitVec 64 × Egress :=
  let s := e.clock.stamp p
  let e := { e with clock := s.clock }
  (BitVec.ofInt 64 (s.ts * 1000), if s.rebased then e.closeGroup net false else e)

/-- A key frame ends a group of video; a second, or a time that goes back, one of audio. -/
def endGroup (net : EgressNet) (e : Egress) (key : Bool) (tsUs : BitVec 64) : Egress :=
  if e.isVideo then if key then e.closeGroup net true else e
  else if (tsUs - e.groupOpenUs).slt kAudioGroupUs = false ∨ tsUs.slt e.groupPrevUs then e.closeGroup net true
  else e

def opensGroup (e : Egress) (key : Bool) : Bool := if e.isVideo then key else e.groupSid = 0

def beginGroup (net : EgressNet) (e : Egress) (key : Bool) (tsUs : BitVec 64) : Egress × Bool :=
  if e.opensGroup key then e.openGroup net tsUs else (e, e.groupSid ≠ 0)

/-- What `WritePacket` has done to the groups when it comes to the payload. -/
def atGroup (net : EgressNet) (e : Egress) (p : MediaPacket) : Egress × Bool :=
  let s := e.frameTsUs net p
  (s.2.endGroup net p.isKeyFrame s.1).beginGroup net p.isKeyFrame s.1

def frameOf (net : EgressNet) (e : Egress) (p : MediaPacket) : MediaFrame := ⟨p, (e.frameTsUs net p).1, e.tagHdr⟩

def writePacket (net : EgressNet) (e : Egress) (p : MediaPacket) : Egress :=
  if e.wants p then
    let r := e.atGroup net p
    if r.2 = false then r.1
    else if p.body.length ≤ e.tagHdr then r.1
    else r.1.offer net (e.frameOf net p)
  else e

def replayed (e : Egress) (gop : List MediaPacket) : List MediaPacket :=
  let media := gop.filter fun p => p.isSeqHdr = false
  let lastV := lastDtsOf .video media
  let lastA := lastDtsOf .audio media
  if e.isVideo ∧ 0 ≤ lastV ∧ 0 ≤ lastA ∧ kStaleGopMs < lastA - lastV then []
  else media.filter fun p => p.avType = (if e.isVideo then MediaType.video else .audio) ∧
    ¬(e.isVideo = false ∧ 0 ≤ lastV ∧ lastV + kAudioAheadMs < p.dts)

def sendGop (net : EgressNet) (e : Egress) (gop : Option (List MediaPacket)) : Egress :=
  match gop with
  | none => e
  | some gop => (e.replayed gop).foldl (writePacket net) { e with clock := e.clock.ensureBase gop }

/-- `Start` up to the replay: `SUBSCRIBE_START` goes out on the subscription's stream. -/
def accepted (net : EgressNet) (e : Egress) (subscribeId : BitVec 64) (subStreamId : Nat) : Egress × Bool :=
  if e.closed ∨ e.started ∨ subStreamId = 0 then (e, false)
  else if net.send e.sends = .dead then (e.called, false)
  else ({ e.called with subscribeId := subscribeId, subStreamId := subStreamId, started := true }, true)

def start (net : EgressNet) (e : Egress) (subscribeId : BitVec 64) (subStreamId : Nat)
    (gop : Option (List MediaPacket)) : Egress :=
  let r := e.accepted net subscribeId subStreamId
  if r.2 then r.1.sendGop net gop else r.1

def shut (e : Egress) : Egress :=
  { e with closed := true, started := false, out := e.out.clear, pendingBytes := 0, subStreamId := 0 }

def stop (net : EgressNet) (e : Egress) : Egress :=
  if e.closed then e
  else if e.groupSid = 0 then e.shut
  else if net.send e.sends = .ok then
    { e.shut.called with out := e.shut.out.give ⟨e.groupSid, [], true, none⟩, groupSid := 0 }
  else { e.shut.called with groupSid := 0 }

end Egress

/-- What is done to an egress; `start` is given the cached group of pictures. -/
inductive EgressOp where
  | start (subscribeId : BitVec 64) (subStreamId : Nat) (gop : Option (List MediaPacket))
  | packet (p : MediaPacket)
  | stop

def Egress.step (net : EgressNet) (e : Egress) : EgressOp → Egress
  | .start subscribeId subStreamId gop => e.start net subscribeId subStreamId gop
  | .packet p => e.writePacket net p
  | .stop => e.stop net

def Egress.run (net : EgressNet) (e : Egress) (ops : List EgressOp) : Egress := ops.foldl (Egress.step net) e

end MoqLiveCast
