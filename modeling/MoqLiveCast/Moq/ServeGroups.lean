import MoqLiveCast.Moq.GroupWire
import MoqLiveCast.Moq.StreamRecords
/-!
# ServeGroups — a video track's subscriptions, in the C client (`moqlite/moq_lite_client.c`)

Each subscription has a group open at most, a stream of its own.  Opening it is asynchronous: the frames that come before
the stream are kept and written behind the group's header.  A keyframe closes the group and opens the next; a subscription
starts from the frames since the last keyframe, which the track holds.

The streams of a subscription come in the order they were asked for (`OpenIntents`), at any time; which subscription's is
next is left open.  What is given to a stream is taken to be written, and allocation to succeed.
-/
namespace MoqLiveCast
namespace ServeGroups

/-- A `ServeFrame`.  `key` is what `moq_lite_track_frame` was told; the buffers do not keep it. -/
structure ServeFrame where
  tsUs : BitVec 64
  payload : List Byte
  key : Bool
deriving DecidableEq

structure Write where
  bytes : List Byte
  fin : Bool
deriving DecidableEq

/-- A stream of a group: what it was given, and whether it was reset. -/
structure GroupStream where
  writes : List Write := []
  reset : Bool := false
deriving DecidableEq

/-- A `MoqServeSub` of a media track.  `uni` is the place of its stream in `streams`; `opens` are the streams it waits for.
The id was read from a varint. -/
structure MoqServeSub where
  sid : BitVec 64
  sidFits : ¬ MOQ_VARINT_MAX < sid
  started : Bool := false
  groupSeq : BitVec 64 := 0
  uni : Option Nat := none
  groupPrevUs : BitVec 64 := 0
  groupOpenUs : BitVec 64 := 0
  groupHadMedia : Bool := false
  groupOpening : Bool := false
  pend : List ServeFrame := []
  opens : Nat := 0
  answer : List Write := []
  streams : List GroupStream := []
deriving DecidableEq

def MOQ_MAX_PEND_FRAMES : Nat := 64
def MOQ_HOLD_MAX_BYTES : Nat := 8 * 1024 * 1024

def frameSegment (prev : BitVec 64) (f : ServeFrame) : Int × List Byte :=
  let body := moqVarintWrite [] f.tsUs
  if body.1 = 0 then moqWireFrame [] (f.tsUs - prev) (moqBufAppend body.2 f.payload).2 else body

def groupHeader (sid seq : BitVec 64) : Int × List Byte :=
  let type := moqPutStreamType [] 0
  if type.1 < 0 then type else moqWireGroupHeader type.2 sid seq 0

namespace MoqServeSub

/-- `quic_client_stream_write` on the open group's stream. -/
def write (ss : MoqServeSub) (w : Write) : MoqServeSub :=
  match ss.uni with
  | none => ss
  | some i => { ss with streams := ss.streams.modify i fun g => { g with writes := g.writes ++ [w] } }

def serveWriteOne (ss : MoqServeSub) (f : ServeFrame) : MoqServeSub :=
  let seg := frameSegment ss.groupPrevUs f
  { (if seg.1 = 0 then ss.write ⟨seg.2, false⟩ else ss) with groupPrevUs := f.tsUs, groupHadMedia := true }

def serveFrameBuffer (ss : MoqServeSub) (f : ServeFrame) : MoqServeSub :=
  if MOQ_MAX_PEND_FRAMES ≤ ss.pend.length then ss else { ss with pend := ss.pend ++ [f] }

def serveFrameFlush (ss : MoqServeSub) : MoqServeSub :=
  { (if ss.uni.isSome then ss.pend.foldl serveWriteOne ss else ss) with pend := [] }

def answerStart (ss : MoqServeSub) : MoqServeSub :=
  let ack := moqWireSubscribeStart [] 0
  if ss.started = false ∧ ack.1 = 0 then { ss with started := true, answer := ss.answer ++ [⟨ack.2, false⟩] } else ss

def serveGroupOpenOnStream (ss : MoqServeSub) : MoqServeSub :=
  let head := groupHeader ss.sid ss.groupSeq
  let ss := answerStart { ss with uni := some ss.streams.length, opens := ss.opens - 1 }
  if head.1 < 0 then { ss with uni := none, streams := ss.streams ++ [{ reset := true }] }
  else serveFrameFlush { ss with streams := ss.streams ++ [{ writes := [⟨head.2, false⟩] }], groupOpening := false }

def serveGroupClose (ss : MoqServeSub) : MoqServeSub :=
  if ss.uni = none then { ss with pend := [], groupOpening := false }
  else
    let payload := moqVarintWrite [] (if ss.groupHadMedia then ss.groupPrevUs else ss.groupOpenUs)
    let seg := moqWireFrame [] 0 payload.2
    { (if payload.1 = 0 ∧ seg.1 = 0 then ss.write ⟨seg.2, true⟩ else ss) with
      uni := none, groupHadMedia := false, groupSeq := ss.groupSeq + 1 }

def askStream (ss : MoqServeSub) (tsUs : BitVec 64) : MoqServeSub :=
  { ss with groupOpening := true, groupOpenUs := tsUs, groupPrevUs := 0, groupHadMedia := false, opens := ss.opens + 1 }

def serveWriteFrame (ss : MoqServeSub) (f : ServeFrame) : MoqServeSub :=
  if ss.uni = none then
    serveFrameBuffer (if ss.groupOpening then ss else ss.askStream f.tsUs) f
  else ss.serveWriteOne f

/-- What `moq_lite_track_frame` does for a subscription: a keyframe is the border of a group, and no other frame opens one. -/
def trackFrame (f : ServeFrame) (ss : MoqServeSub) : MoqServeSub :=
  if f.key then (if ss.uni.isSome ∨ ss.groupOpening then ss.serveGroupClose else ss).serveWriteFrame f
  else if ss.uni = none ∧ ss.groupOpening = false then ss
  else ss.serveWriteFrame f

def onSessionUniOpen (ss : MoqServeSub) : MoqServeSub := if ss.opens = 0 then ss else ss.serveGroupOpenOnStream

end MoqServeSub

/-- A video `MoqPubTrack`, with its subscriptions and the frames published so far. -/
structure MoqPubTrack where
  dead : Bool := false
  hold : List ServeFrame := []
  holdBytes : Nat := 0
  subs : List MoqServeSub := []
  published : List ServeFrame := []
deriving DecidableEq

namespace MoqPubTrack

def holdClear (t : MoqPubTrack) : MoqPubTrack := { t with hold := [], holdBytes := 0 }

def holdPush (t : MoqPubTrack) (f : ServeFrame) : MoqPubTrack :=
  { t with hold := t.hold ++ [f], holdBytes := t.holdBytes + f.payload.length }

def keepHold (t : MoqPubTrack) (f : ServeFrame) : MoqPubTrack :=
  let t := (if f.key then t.holdClear else t).holdPush f
  if MOQ_HOLD_MAX_BYTES < t.holdBytes then t.holdClear else t

def moqLiteTrackFrame (t : MoqPubTrack) (f : ServeFrame) : MoqPubTrack :=
  if t.dead ∨ f.payload = [] then t
  else keepHold { t with subs := t.subs.map (MoqServeSub.trackFrame f), published := t.published ++ [f] } f

def moqLiteTrackEnd (t : MoqPubTrack) : MoqPubTrack :=
  if t.dead then t else { t.holdClear with subs := t.subs.map MoqServeSub.serveGroupClose, dead := true }

def subscribe (t : MoqPubTrack) (sid : { v : BitVec 64 // ¬ MOQ_VARINT_MAX < v }) : MoqPubTrack :=
  if t.dead then t else { t with subs := t.subs ++ [t.hold.foldl MoqServeSub.serveWriteFrame { sid := sid.1, sidFits := sid.2 }] }

end MoqPubTrack

inductive Event where
  | frame (f : ServeFrame)
  | trackEnd
  | subscribe (sid : { v : BitVec 64 // ¬ MOQ_VARINT_MAX < v })
  | uniOpen (sub : Nat)

def step (t : MoqPubTrack) : Event → MoqPubTrack
  | .frame f => t.moqLiteTrackFrame f
  | .trackEnd => t.moqLiteTrackEnd
  | .subscribe sid => t.subscribe sid
  | .uniOpen i => { t with subs := t.subs.modify i MoqServeSub.onSessionUniOpen }

/-! ## Groups as they should be -/

def groupOf (g : GroupStream) : Option (BitVec 64) :=
  let p := g.writes.flatMap Write.bytes
  let type := moqVarintRead p 0
  if type.status < 0 then none
  else ((StreamRecords.readGroupHeader (p.drop type.off)).out.join).map fun h => h.2.1

def runBytes : BitVec 64 → List ServeFrame → List (List Byte)
  | _, [] => []
  | prev, f :: fs =>
    frameOnWire (((f.tsUs - prev) <<< 1) ^^^ (f.tsUs - prev).sshiftRight 63) (varintBytes f.tsUs.toNat ++ f.payload) ::
      runBytes f.tsUs fs

def lastUs (prev : BitVec 64) (run : List ServeFrame) : BitVec 64 := (run.getLast?.map ServeFrame.tsUs).getD prev

/-- A group on its stream: the header, the frames, and the end with its FIN. -/
def groupWrites (sid seq : BitVec 64) (run : List ServeFrame) (closed : Bool) : List Write :=
  ⟨(groupHeader sid seq).2, false⟩ :: (runBytes 0 run).map (⟨·, false⟩) ++
    if closed then [⟨frameOnWire 0 (varintBytes (lastUs 0 run).toNat), true⟩] else []

def FromKey (run : List ServeFrame) : Prop := ∃ f ∈ run.head?, f.key = true

/-- **No group number twice, and on every stream the frames published, from a keyframe on and with none missing.** -/
structure GroupsWell (published : List ServeFrame) (ss : MoqServeSub) : Prop where
  distinct : (ss.streams.map groupOf).Nodup
  carries : ∀ g ∈ ss.streams, ∃ seq run closed,
    run <:+: published ∧ FromKey run ∧ g = { writes := groupWrites ss.sid seq run closed }

/-- **Every stream was ended.** -/
def AllClosed (ss : MoqServeSub) : Prop := ∀ g ∈ ss.streams, ∃ w ∈ g.writes.getLast?, w.fin = true

def IsBorder (t : MoqPubTrack) : Event → Prop
  | .frame f => t.dead = false ∧ f.payload ≠ [] ∧ f.key = true
  | .trackEnd => t.dead = false
  | _ => False

end ServeGroups
end MoqLiveCast
