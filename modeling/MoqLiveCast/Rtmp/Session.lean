import MoqLiveCast.Media.StreamHeaders
import MoqLiveCast.Media.PublisherOwner
import MoqLiveCast.Moq.PeerSubscribe
import MoqLiveCast.Rtmp.Amf0
/-!
# Session — a server's RTMP session (`net/rtmp/rtmp_session.cpp`, `rtmp_control_handler.cpp`, `rtmp_writer.cpp`)

The messages that a peer's chunks make up.  A command comes as the values it was decoded to, and a media message as the packet
`GetMediaPacket` makes of it.  There is one chunk size for what is read and what is written.

The session has one request, which the next PUBLISH or PLAY overwrites, and its key is the one that media is written under and
that the session gives up when it is closed.  The writers that it makes all have its remote address as their id; what the manager
does with one is done to the stream of the request's key, whichever key it was added under.
-/
namespace MoqLiveCast

structure RtmpRequest where
  publishFlag : Bool := false
  isReady : Bool := false
  app : List Byte := []
  streamName : List Byte := []
  key : Name := []
deriving DecidableEq

/-- A message to be sent: in one chunk as it is, or in chunks of the session's size. -/
inductive RtmpReply where
  | whole (m : RtmpMessage)
  | chunked (m : RtmpMessage)

structure RtmpSent where
  message : RtmpMessage
  chunks : List (List Byte)

/-- `RtmpSession`; `closed` is `closed_flag_`, and that it is not running. -/
structure RtmpSession where
  chunkSize : Nat := 128
  closed : Bool := false
  claimed : Bool := false
  playWriter : Option Nat := none
  req : RtmpRequest := {}
  sent : List RtmpSent := []

namespace RtmpSession

def send (s : RtmpSession) (r : RtmpReply) : RtmpSession :=
  if s.closed then s
  else
    match r with
    | .whole m =>
      { s with sent := s.sent ++ [⟨m, [genData 0 m.csid m.timestamp.toNat m.payload.length m.typeId m.streamId.toNat m.payload]⟩] }
    | .chunked m => { s with sent := s.sent ++ [⟨m, writeDataByChunkStream m s.chunkSize⟩] }

def sendAll (s : RtmpSession) (rs : List RtmpReply) : RtmpSession := rs.foldl send s

end RtmpSession

/-! ## Messages of the session -/

/-- `GenControlMessage`, of four or five bytes; the fifth is the limit type. -/
def controlMessage (typeId : Byte) (size value : Nat) : RtmpMessage :=
  ⟨3, 0, typeId, 0, beBytes 4 value ++ (if size = 5 then [2] else [])⟩

/-- `GenSetRecordedMessage` and `GenSetBeginMessage`. -/
def userControlMessage (event : Nat) : RtmpMessage := ⟨2, 0, 4, 1, beBytes 2 event ++ [0, 0, 0, 1]⟩

def commandMessage (payload : List Byte) : RtmpMessage := ⟨3, 0, 20, 1, payload⟩

def textItem (s : String) : AmfItem := { amfType := .string, descStr := amfText s }

def doubleOne : BitVec 64 := 0x3ff0000000000000
def doubleThirtyOne : BitVec 64 := 0x403f000000000000

def statusObject (code description : String) : List Byte :=
  (encodeObject [(amfText "code", textItem code), (amfText "description", textItem description),
    (amfText "level", textItem "status")]).getD []

def onStatus (code description : String) : RtmpMessage :=
  commandMessage (encodeString (amfText "onStatus") true ++ encodeNumber 0 ++ encodeNull ++ statusObject code description)

def g_config_chunk_size : Nat := 4096

/-- What `SendRtmpConnectResp` sends before the reply. -/
def connectControls : List RtmpReply :=
  [.whole (controlMessage 5 4 2500000), .whole (controlMessage 6 5 2500000), .whole (controlMessage 1 4 g_config_chunk_size)]

def connectResp : RtmpMessage :=
  commandMessage (encodeString (amfText "_result") true ++ encodeNumber doubleOne ++
    (encodeObject [(amfText "capabilities", { amfType := .number, number := doubleThirtyOne }),
      (amfText "fmsVer", textItem "FMS/3,0,1,123")]).getD [] ++
    statusObject "NetConnection.Connect.Success" "Connection succeeded.")

def createStreamResp (transactionId : BitVec 64) : RtmpMessage :=
  commandMessage (encodeString (amfText "_result") true ++ encodeNumber transactionId ++ encodeNull ++ encodeNumber doubleOne)

def playResp : List RtmpReply :=
  [.whole (userControlMessage 4), .whole (userControlMessage 0),
    .chunked (onStatus "NetStream.Play.Reset" "Playing and resetting stream."),
    .chunked (onStatus "NetStream.Play.Start" "Started playing stream."),
    .chunked (onStatus "NetStream.Data.Start" "Started playing stream."),
    .chunked (onStatus "NetStream.Play.PublishNotify" "Started playing notify.")]

def publishResp : RtmpMessage := onStatus "NetStream.Publish.Start" "Start publising."

/-- `RtmpWriter::WritePacket`: the message of a packet; `typeId` is the packet's own, for metadata. -/
def writerMessage (p : MediaPacket) (typeId : Byte) (streamId : BitVec 32) : Option RtmpMessage :=
  match p.avType with
  | .video => some ⟨6, BitVec.ofInt 32 p.dts, 9, streamId, p.body⟩
  | .audio => some ⟨4, BitVec.ofInt 32 p.dts, 8, streamId, p.body⟩
  | .metadata => some ⟨6, BitVec.ofInt 32 p.dts, typeId, streamId, p.body⟩
  | _ => none

/-! ## Commands -/

def normalizeRtmpApp (raw : List Byte) : List Byte := ((raw.takeWhile (· ≠ 0x3f)).reverse.dropWhile (· = 0x2f)).reverse

def stringMember (obj : List (List Byte × AmfItem)) (key : String) : Option (Option (List Byte)) :=
  match OrdMap.find obj (amfText key) with
  | none => some none
  | some item => if item.amfType = .string then some (some item.descStr) else none

/-- The values of a connect behind its name; the application is the last object's. -/
def connectApp (app : List Byte) (item : AmfItem) : Option (List Byte) :=
  if item.amfType = .object then do
    let raw ← stringMember item.amfObj "app"
    let _ ← stringMember item.amfObj "tcUrl"
    let _ ← stringMember item.amfObj "flashVer"
    return (raw.map normalizeRtmpApp).getD app
  else some app

def streamNameOf (items : List AmfItem) : List Byte :=
  (((items.drop 1).find? fun i => i.amfType = .string && i.descStr ≠ []).map (·.descStr)).getD []

def transactionIdOf (items : List AmfItem) : BitVec 64 :=
  (((items.drop 1).reverse.find? fun i => i.amfType = .number).map (·.number)).getD 0

def RtmpRequest.named (r : RtmpRequest) (publish : Bool) (name : List Byte) : RtmpRequest :=
  { r with publishFlag := publish, isReady := true, streamName := name, key := nameOf r.app ++ '/' :: nameOf name }

/-- What matters to those who watch: a claim of a key, and a packet that was written under one. -/
inductive RtmpMark where
  | claimed (key : Name)
  | written (key : Name)
deriving DecidableEq

/-- The session, the streams of the manager by their keys, and the log. -/
structure RtmpWorld where
  session : RtmpSession := {}
  streams : Name → StreamKey := fun key => { key }
  log : List RtmpMark := []

namespace RtmpWorld

variable (sessionId : SessionId) (writerId : Nat → Name) (w : RtmpWorld)

def stream : StreamKey := w.streams w.session.req.key

def putStream (k : StreamKey) : RtmpWorld := { w with streams := Function.update w.streams w.session.req.key k }

def mark (m : RtmpMark) : RtmpWorld := { w with log := w.log ++ [m] }

def reply (rs : List RtmpReply) : RtmpWorld := { w with session := w.session.sendAll rs }

/-- `OnPublishReady`: one claim of the session is enough. -/
def onPublishReady (now : Int) : RtmpWorld × Bool :=
  if w.session.claimed then (w, true)
  else if w.session.req.publishFlag = false ∨ w.session.req.key = [] then (w, true)
  else
    let r := w.stream.claimPublisher sessionId.id now
    let w' := w.putStream r.1
    if r.2 = .rejected then (w', false)
    else ({ w' with session := { w.session with claimed := true } }.mark (.claimed w.session.req.key), true)

def handleRtmpConnectCommand (items : List AmfItem) : RtmpWorld × Bool :=
  if items.length < 3 then (w, false)
  else
    match (items.drop 1).foldlM connectApp w.session.req.app with
    | none => (w, false)
    | some app =>
      let w := { w with session := { w.session with req := { w.session.req with app }, chunkSize := g_config_chunk_size } }
      (w.reply (connectControls ++ [.chunked connectResp]), true)

def handleRtmpCreatestreamCommand (items : List AmfItem) : RtmpWorld × Bool :=
  if items.length < 3 then (w, false) else (w.reply [.chunked (createStreamResp (transactionIdOf items))], true)

def handleRtmpPlayCommand (items : List AmfItem) : RtmpWorld × Bool :=
  if items.length < 3 then (w, false)
  else
    let w := { w with session := { w.session with req := w.session.req.named false (streamNameOf items) } }
    (w.reply playResp, true)

def handleRtmpPublishCommand (items : List AmfItem) (now : Int) : RtmpWorld × Bool :=
  if items.length < 3 then (w, false)
  else if w.session.req.app = [] ∨ streamNameOf items = [] then (w, false)
  else
    let w := { w with session := { w.session with req := w.session.req.named true (streamNameOf items) } }
    let r := w.onPublishReady sessionId now
    if r.2 then (r.1.reply [.chunked publishResp], true) else r

/-- `HandleClientCommandMessage`, behind the decoding. -/
def handleClientCommand (items : List AmfItem) (now : Int) : RtmpWorld × Bool :=
  match items with
  | [] => (w, false)
  | item :: _ =>
    if item.amfType ≠ .string then (w, false)
    else if item.descStr = amfText "connect" then w.handleRtmpConnectCommand items
    else if item.descStr = amfText "createStream" then w.handleRtmpCreatestreamCommand items
    else if item.descStr = amfText "publish" then w.handleRtmpPublishCommand sessionId items now
    else if item.descStr = amfText "play" then w.handleRtmpPlayCommand items
    else (w, true)

/-! ## The session's end -/

def close : RtmpWorld :=
  if w.session.closed then w
  else
    let w := { w with session := { w.session with closed := true } }
    if w.session.req.isReady && !w.session.req.publishFlag then
      match w.session.playWriter with
      | none => w
      | some p => w.putStream (w.stream.removePlayer writerId p)
    else if w.session.req.publishFlag && w.session.claimed && w.session.req.key ≠ [] then
      { w.putStream (w.stream.releasePublisher sessionId.id).1 with session := { w.session with claimed := false } }
    else w

/-! ## Messages -/

/-- A command, as `ReceiveChunkStream` has it handled: as long as a stream is played, it makes a new writer. -/
def onCommand (items : List AmfItem) (now : Int) (writer : Nat) (fails : Nat → MediaPacket → Bool) : RtmpWorld :=
  let r := w.handleClientCommand sessionId items now
  if r.2 = false then r.1.close sessionId writerId
  else if r.1.session.req.isReady && !r.1.session.req.publishFlag then
    { r.1.putStream (r.1.stream.addPlayer writerId fails writer) with session := { r.1.session with playWriter := some writer } }
  else r.1

/-- A media message; `catalog` is the text that is flushed with it, if one is. -/
def onMedia (pkt : Option MediaPacket) (catalog : Option (List Byte)) (fails : Nat → MediaPacket → Bool) : RtmpWorld :=
  match pkt with
  | none => w.close sessionId writerId
  | some p =>
    if w.session.claimed && w.stream.isPublisherOwner sessionId.id then
      let w := match catalog with
        | none => w
        | some json => w.putStream (w.stream.setCatalogJson sessionId.id json).1
      (w.putStream (w.stream.writerMediaPacket writerId fails p)).mark (.written w.session.req.key)
    else w

/-- `HandleRtmpControlMessage`: a chunk size is taken and said again. -/
def onControl (m : RtmpMessage) : RtmpWorld :=
  if m.typeId = 1 then
    if m.payload.length < 4 then w.close sessionId writerId
    else
      let size := readNBytes (m.payload.take 4)
      { w with session := { w.session with chunkSize := size } }.reply [.whole (controlMessage 1 4 size)]
  else if m.typeId = 5 ∧ m.payload.length < 4 then w.close sessionId writerId
  else w

end RtmpWorld

/-- What the peer's messages are, what the manager gives a writer of the session, an end of the connection, and what others do with
a key. -/
inductive RtmpInputEvent where
  | command (items : List AmfItem) (now : Int) (writer : Nat) (fails : Nat → MediaPacket → Bool)
  | media (pkt : Option MediaPacket) (catalog : Option (List Byte)) (fails : Nat → MediaPacket → Bool)
  | control (m : RtmpMessage)
  | amf3
  | written (p : MediaPacket) (typeId : Byte) (streamId : BitVec 32)
  | close
  | other (key : Name) (op : StreamOp)

namespace RtmpWorld

variable (sessionId : SessionId) (writerId : Nat → Name)

def step (w : RtmpWorld) : RtmpInputEvent → RtmpWorld
  | .command items now writer fails =>
    if w.session.closed then w else w.onCommand sessionId writerId items now writer fails
  | .media pkt catalog fails => if w.session.closed then w else w.onMedia sessionId writerId pkt catalog fails
  | .control m => if w.session.closed then w else w.onControl sessionId writerId m
  | .amf3 => w.close sessionId writerId
  | .written p typeId streamId => w.reply ((writerMessage p typeId streamId).map RtmpReply.chunked).toList
  | .close => w.close sessionId writerId
  | .other key op => { w with streams := Function.update w.streams key ((w.streams key).step writerId op) }

def run (w : RtmpWorld) (ins : List RtmpInputEvent) : RtmpWorld := ins.foldl (step sessionId writerId) w

end RtmpWorld
end MoqLiveCast
