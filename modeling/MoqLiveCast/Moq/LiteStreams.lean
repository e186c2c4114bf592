import MoqLiveCast.Lib.Feed
import MoqLiveCast.Moq.MlFront
import MoqLiveCast.Moq.PeerSubscribe
/-!
# LiteStreams — what a moq-lite session makes of the bytes of a stream (`moq_lite_session.cpp`)

`HandleStreamData` puts what arrives behind what is left, and goes from parser to parser as long as one takes a message
off the front. A `RecvStream` is the parser whose turn it is (`LiteStage`, for its `typed`, `done`, `stage` and
`group_hdr_done`) and its buffer. When it is reset or done, or the session is closed, there are no more turns; what is
left of the buffer is not looked at again. What a stream has it do is told as a `LiteAction`; what `OnMediaFrame`,
`OnAnnounceRoute` and `AttachPeerSubscribe` make of it is theirs, but that a frame may close the session.
-/
namespace MoqLiveCast

theorem lawful_id : LawfulBEq (BitVec 64) := inferInstance

attribute [local instance] lawful_id

def kStreamInternalError : BitVec 64 := 0x0
def kStreamCancelled : BitVec 64 := 0x1

def kSessionInternalError : BitVec 64 := 0x1
def kSessionUnauthorized : BitVec 64 := 0x2
def kSessionProtocolViolation : BitVec 64 := 0x3

def kBidiAnnounce : BitVec 64 := 0x1
def kBidiSubscribe : BitVec 64 := 0x2
def kBidiFetch : BitVec 64 := 0x3
def kBidiProbe : BitVec 64 := 0x4
def kBidiGoaway : BitVec 64 := 0x5
def kBidiTrack : BitVec 64 := 0x6

def kUniGroup : BitVec 64 := 0x0
def kUniSetup : BitVec 64 := 0x1

def kMaxRecvBuf : Nat := kMlMaxMessageSize.toNat + 1024

/-! ## The rest of the session -/

/-- What the peer's SETUP says; `peer_role_` is one of 0, 1 and 2. -/
structure LiteSetup where
  path : Name := []
  pathOnly : Name := []
  query : Name := []
  role : BitVec 64 := 0
deriving DecidableEq

/-- The track a subscribe id is for: the catalog, or one of media that is written to the manager or is not. -/
inductive LiteTrack where
  | catalog | usable | unused
deriving DecidableEq

/-- `wires` are the broadcasts an answer may name, `usedIds` the keys of `serve_subs_` and `pending_peer_subs_`, and
`claimRejected` says that `EnsureStreamClaimed` would be refused. -/
structure LiteSession where
  sawPeerSetup : Bool := false
  armed : Bool := false
  onRoute : LiteSetup → Bool := fun _ => true
  routed : Name := []
  streams : MediaStreams := []
  kindOf : List Byte → Name → Option ServeKind := fun _ _ => none
  missing : Name → Name → Bool := fun _ _ => false
  wires : List Name := []
  usedIds : List (BitVec 64) := []
  tracks : BitVec 64 → Option LiteTrack := fun _ => none
  claimRejected : Bool := false

structure LiteGroup where
  subId : BitVec 64
  group : BitVec 64
  frameIndex : BitVec 64
  tsAcc : BitVec 64
deriving DecidableEq

inductive LiteAction where
  | reset (code : BitVec 64)
  | close (code : BitVec 64) (reason : String)
  | setup (s : LiteSetup)
  | discover
  | arm
  | route (suffix : Name)
  | started
  | group (g : LiteGroup)
  | frame (g : LiteGroup) (payload : List Byte)
  | trackInfo (broadcast track : Name)
  | announced (scope : Name) (items : List (Name × Name))
  | attach (req : SubscribeRequest) (key : Name) (kind : ServeKind)
  | defer (req : SubscribeRequest) (key : Name)
deriving DecidableEq

/-! ## The stages of a stream -/

/-- Of a stream of the peer: its type; a SETUP; the header of a group and its frames; the requests of a subscriber.  Of one of
this end: ANNOUNCE_OK and what is announced after it; the answers to a SUBSCRIBE.

`answered` and `ending` are left within the call that entered them; in `rejected` the session is closed, and the call not
over. -/
inductive LiteStage where
  | untyped (uni : Bool)
  | setup
  | groupHeader
  | frames (g : LiteGroup)
  | rejected
  | announceOk
  | announces (nextId : BitVec 64)
  | answers
  | ending
  | ended
  | other
  | track
  | request
  | answered
  | running
  | subscribe
deriving DecidableEq

inductive LiteEnd where
  | reset | closed | done | hung
deriving DecidableEq

abbrev LiteTurn := Turn LiteStage LiteAction LiteEnd

def resetTurn (s : LiteStage) (code : BitVec 64) : LiteTurn := .halt s .reset [.reset code]

/-- `CloseSession`, behind what was done before it. -/
def closeTurn (s : LiteStage) (before : List LiteAction) (code : BitVec 64) (reason : String) : LiteTurn :=
  .halt s .closed (before ++ [.close code reason])

/-! ## Setup -/

def kParamProbe : BitVec 64 := 0x1
def kParamPath : BitVec 64 := 0x2
def kParamRole : BitVec 64 := 0x3
def kParamCost : BitVec 64 := 0x4
def kParamHop : BitVec 64 := 0x5

def orBad {α : Type} (r : Option α) (why : String) : Except String α :=
  match r with
  | none => .error why
  | some a => .ok a

def normalizePath : Name → Name
  | '/' :: rest => rest
  | path => path

/-- `OnSetupParam`, and the reason if the format is bad; a parameter that is not known is passed over. -/
def onSetupParam (s : LiteSetup) (id : BitVec 64) (val : List Byte) : LiteSetup × Option String :=
  if id = kParamPath then
    match (mlReadString val 0).read with
    | none          => (s, some "setup: malformed Path parameter")
    | some (p, off) =>
      if off ≠ val.length then (s, some "setup: malformed Path parameter")
      else
        let path := nameOf p
        if '?' ∈ path then
          ({ s with
            path := path
            pathOnly := normalizePath (path.takeWhile (· ≠ '?'))
            query := (path.dropWhile (· ≠ '?')).drop 1 }, none)
        else ({ s with path := path, pathOnly := normalizePath path }, none)
  else if id = kParamProbe then
    if (mlReadVarint val 0).status then (s, none) else (s, some "setup: malformed Probe parameter")
  else if id = kParamRole then
    match (mlReadVarint val 0).read with
    | none        => (s, some "setup: malformed Role parameter")
    | some (v, _) => ({ s with role := if v = 1 ∨ v = 2 then v else 0 }, none)
  else if id = kParamCost ∨ id = kParamHop then
    if (mlReadVarint val 0).status then (s, none) else (s, some "setup: malformed cost/hop parameter")
  else (s, none)

def readSetupParams (p : List Byte) : Nat → Nat → List (BitVec 64) → LiteSetup → Except String (LiteSetup × Nat)
  | 0, pos, _, s => .ok (s, pos)
  | n + 1, pos, seen, s => do
    let (pid, pos) ← orBad (mlReadVarint p pos).read "setup: parameter overruns message"
    let (plen, pos) ← orBad (mlReadVarint p pos).read "setup: parameter overruns message"
    if p.length - pos < plen.toNat then .error "setup: parameter overruns message"
    else if pid ∈ seen then .error "setup: duplicate parameter id"
    else
      -- `bad_format` is the address of `ok`, so a bad format is no failure
      let s := (onSetupParam s pid ((p.drop pos).take plen.toNat)).1
      readSetupParams p n (pos + plen.toNat) (seen ++ [pid]) s

def readSetup (p : List Byte) (pos : Nat) : Except String LiteSetup := do
  let (count, pos) ← orBad (mlReadVarint p pos).read "setup: bad parameter count"
  let (s, pos) ← readSetupParams p count.toNat pos [] {}
  if pos ≠ p.length then .error "setup: message length mismatch" else .ok s

namespace LiteSession

variable (e : LiteSession)

def onRole (role : BitVec 64) : List LiteAction :=
  if role = 1 then [.discover] else if role = 2 then [.arm] else [.discover, .arm]

def parseSetupStream (b : List Byte) : LiteTurn :=
  match (mlReadVarint b 0).read with
  | none => .wait .setup
  | some (msgLen, off) =>
    if b.length < off + msgLen.toNat then .wait .setup
    else
      match readSetup (b.take (off + msgLen.toNat)) off with
      | .error why => closeTurn .setup [] kSessionProtocolViolation why
      | .ok s =>
        if e.onRoute s = false then closeTurn .setup [.setup s] kSessionUnauthorized "unknown path"
        else .halt .setup .done (.setup s :: onRole s.role)

/-! ## The type of a stream -/

def onStreamTypeSeen (uni : Bool) (type : BitVec 64) (n : Nat) : LiteTurn :=
  if uni then
    if type = kUniSetup then
      if e.sawPeerSetup then closeTurn (.untyped uni) [] kSessionProtocolViolation "second setup stream"
      else .take .setup n []
    else if type = kUniGroup then .take .groupHeader n []
    else resetTurn (.untyped uni) kStreamInternalError
  else if type = kBidiAnnounce then .take .request n []
  else if type = kBidiSubscribe then .take .subscribe n []
  else if type = kBidiTrack then .take .track n []
  else if type = kBidiFetch ∨ type = kBidiProbe then resetTurn (.untyped uni) kStreamCancelled
  else if type = kBidiGoaway then .take .other n []
  else resetTurn (.untyped uni) kStreamInternalError

def parseStreamType (uni : Bool) (b : List Byte) : LiteTurn :=
  match (mlReadVarint b 0).read with
  | none => .wait (.untyped uni)
  | some (type, off) => e.onStreamTypeSeen uni type off

/-! ## Groups -/

def readGroupHeader (body : List Byte) : Option LiteGroup := do
  let (subId, pos) ← (mlReadVarint body 0).read
  let (seq, pos) ← (mlReadVarint body pos).read
  let (frameStart, pos) ← (mlReadVarint body pos).read
  if pos = body.length then some ⟨subId, seq, frameStart, 0⟩ else none

def parseGroupHeader (b : List Byte) : LiteTurn :=
  match frontMessage b with
  | .needMore => .wait .groupHeader
  | .tooLarge => resetTurn .groupHeader kStreamInternalError
  | .whole _ body size =>
    match readGroupHeader body with
    | none => resetTurn .groupHeader kStreamInternalError
    | some g =>
      if (e.tracks g.subId).isNone then resetTurn .groupHeader kStreamCancelled else .take (.frames g) size [.group g]

/-- `OnMediaFrame` wants to write the frame: behind the varint before it there is something. -/
def wantsClaim (subId : BitVec 64) (payload : List Byte) : Bool :=
  e.tracks subId = some .usable &&
    match (mlReadVarint payload 0).read with
    | none => false
    | some (_, off) => off < payload.length

/-- A frame in the loop of `ParseGroupStream`. -/
def parseFrame (g : LiteGroup) (b : List Byte) : LiteTurn :=
  match frontTyped b with
  | .needMore => .wait (.frames g)
  | .tooLarge => resetTurn (.frames g) kStreamInternalError
  | .whole zz payload size =>
    let g := { g with tsAcc := g.tsAcc + mlZigzagDecode zz }
    if e.wantsClaim g.subId payload && e.claimRejected then
      .take .rejected size [.frame g payload, .close kSessionInternalError "publisher claim rejected"]
    else .take (.frames { g with frameIndex := g.frameIndex + 1 }) size [.frame g payload]

end LiteSession

/-- The loop goes on when the session is closed: nothing is made of a frame, but one that is too large resets the stream. -/
def parseRejected (b : List Byte) : LiteTurn :=
  match frontTyped b with
  | .needMore => .wait .rejected
  | .tooLarge => resetTurn .rejected kStreamInternalError
  | .whole _ _ size => .take .rejected size []

/-! ## Answers on a stream of this end -/

/-- The first part of `ParseAnnounceStream`. -/
def parseAnnounceOk (b : List Byte) : LiteTurn :=
  match frontMessage b with
  | .needMore => .wait .announceOk
  | .tooLarge => resetTurn .announceOk kStreamInternalError
  | .whole _ body size =>
    match (do
      let (_, pos) ← (mlReadVarint body 0).read
      let (_, pos) ← (mlReadVarint body pos).read
      if pos = body.length then some () else none) with
    | none   => closeTurn .announceOk [] kSessionProtocolViolation "announce: malformed ANNOUNCE_OK"
    | some _ => .take (.announces 0) size []

def skipHops (body : List Byte) : Nat → Nat → Option Nat
  | 0, pos => some pos
  | n + 1, pos => do
    let (_, pos) ← (mlReadVarint body pos).read
    skipHops body n pos

def skipCosts (body : List Byte) (pos : Nat) : Option Nat := do
  let (_, pos) ← (mlReadVarint body pos).read
  let (_, pos) ← (mlReadVarint body pos).read
  some pos

/-- `ParseAnnounceBody`; the next number of a route, and the route that starts. -/
def parseAnnounceBody (nextId type : BitVec 64) (body : List Byte) : Except String (BitVec 64 × List LiteAction) :=
  if type = 0 then do
    let (suffix, pos) ← orBad (mlReadString body 0).read "announce: malformed ANNOUNCE_START"
    let (hops, pos) ← orBad (mlReadVarint body pos).read "announce: malformed ANNOUNCE_START"
    if 32 < hops then .error "announce: hop count over maximum"
    else
      let pos ← orBad (skipHops body hops.toNat pos) "announce: malformed hop list"
      let pos ← orBad (skipCosts body pos) "announce: malformed route cost"
      if pos ≠ body.length then .error "announce: ANNOUNCE_START length mismatch"
      else .ok (nextId + 1, [.route (nameOf suffix)])
  else if type = 1 then do
    let (id, pos) ← orBad (mlReadVarint body 0).read "announce: malformed ANNOUNCE_END"
    if pos ≠ body.length then .error "announce: malformed ANNOUNCE_END"
    else if nextId ≤ id then .error "announce: ANNOUNCE_END references an unknown announce id"
    else .ok (nextId, [])
  else if type = 2 then do
    let (id, pos) ← orBad (mlReadVarint body 0).read "announce: malformed ANNOUNCE_UPDATE"
    let (hops, pos) ← orBad (mlReadVarint body pos).read "announce: malformed ANNOUNCE_UPDATE"
    if 32 < hops then .error "announce: malformed ANNOUNCE_UPDATE"
    else if nextId ≤ id then .error "announce: ANNOUNCE_UPDATE references an unknown announce id"
    else
      let pos ← orBad (skipHops body hops.toNat pos) "announce: malformed update hop list"
      let pos ← orBad (skipCosts body pos) "announce: malformed ANNOUNCE_UPDATE cost"
      if pos ≠ body.length then .error "announce: malformed ANNOUNCE_UPDATE cost" else .ok (nextId, [])
  else .ok (nextId, [])

/-- A message in the loop of `ParseAnnounceStream`. -/
def parseAnnounce (nextId : BitVec 64) (b : List Byte) : LiteTurn :=
  match frontTyped b with
  | .needMore => .wait (.announces nextId)
  | .tooLarge => resetTurn (.announces nextId) kStreamInternalError
  | .whole type body size =>
    match parseAnnounceBody nextId type body with
    | .error why => closeTurn (.announces nextId) [] kSessionProtocolViolation why
    | .ok r => .take (.announces r.1) size r.2

def readVarints (body : List Byte) : Nat → Nat → Bool
  | 0, pos => pos = body.length
  | n + 1, pos =>
    match (mlReadVarint body pos).read with
    | none => false
    | some (_, pos) => readVarints body n pos

/-- The answers to a SUBSCRIBE; one of another type is passed over. -/
inductive SubscribeAnswer where
  | start | finish | drop | skipped | malformed
deriving DecidableEq

def subscribeAnswer (type : BitVec 64) (body : List Byte) : SubscribeAnswer :=
  if type = 0 then if readVarints body 1 0 then .start else .malformed
  else if type = 1 then if readVarints body 1 0 then .finish else .malformed
  else if type = 2 then if readVarints body 3 0 then .drop else .malformed
  else .skipped

/-- An answer in the loop of `ParseSubscribeStream`, before SUBSCRIBE_END. -/
def parseAnswer (b : List Byte) : LiteTurn :=
  match frontTyped b with
  | .needMore => .wait .answers
  | .tooLarge => resetTurn .answers kStreamInternalError
  | .whole type body size =>
    match subscribeAnswer type body with
    | .start => .take .answers size [.started]
    | .finish => .take .ending size []
    | .drop => .take .answers size []
    | .skipped => .take .answers size []
    | .malformed => closeTurn .answers [] kSessionProtocolViolation "subscribe: malformed response"

/-- The loop is not told that the stream is done: it takes one answer of each call behind SUBSCRIBE_END, and the rest of
the call is thrown away. -/
def parseEnded (b : List Byte) : LiteTurn :=
  match frontTyped b with
  | .needMore => .drop .ended
  | .tooLarge => resetTurn .ended kStreamInternalError
  | .whole type body _ =>
    match subscribeAnswer type body with
    | .start => .take .ended b.length [.started]
    | .finish => .drop .ended
    | .drop => .drop .ended
    | .skipped => .drop .ended
    | .malformed => closeTurn .ended [] kSessionProtocolViolation "subscribe: malformed response"

/-! ## Requests of a subscriber -/

namespace LiteSession

variable (e : LiteSession)

def answerTrack (broadcast track : Name) : LiteTurn :=
  if (resolveServeTrack e.kindOf e.routed e.streams broadcast track).isSome ||
      e.missing (serveApp e.routed ++ '/' :: broadcast) broadcast then
    .halt .track .done [.trackInfo broadcast track]
  else resetTurn .track kStreamCancelled

def parsePeerTrack (b : List Byte) : LiteTurn :=
  if e.armed = false then resetTurn .track kStreamCancelled
  else
    match frontMessage b with
    | .needMore => .wait .track
    | .tooLarge => resetTurn .track kStreamInternalError
    | .whole _ body _ =>
      match (do
        let (broadcast, pos) ← (mlReadString body 0).read
        let (track, pos) ← (mlReadString body pos).read
        if pos = body.length then some (nameOf broadcast, nameOf track) else none) with
      | none => resetTurn .track kStreamInternalError
      | some (broadcast, track) => e.answerTrack broadcast track

/-- The first part of `ParsePeerAnnounce`; the call returns, whatever follows the request. -/
def parsePeerAnnounce (b : List Byte) : LiteTurn :=
  if e.armed = false then resetTurn .request kStreamCancelled
  else
    match frontMessage b with
    | .needMore => .wait .request
    | .tooLarge => resetTurn .request kStreamInternalError
    | .whole _ body size =>
      match (mlReadString body 0).read with
      | none => resetTurn .request kStreamInternalError
      | some (p, off) =>
        if off ≠ body.length then resetTurn .request kStreamInternalError
        else if (announceGrid 0 (nameOf p) e.wires true).isNone then resetTurn .request kStreamInternalError
        else .take .answered size [.announced (nameOf p) (gridItems (nameOf p) e.wires)]

/-- `ParsePeerSubscribe`, behind its message. -/
def answerSubscribe (req : SubscribeRequest) : LiteTurn :=
  if req.subId ∈ e.usedIds then closeTurn .subscribe [] kSessionProtocolViolation "duplicate subscribe id"
  else
    match resolveServeTrack e.kindOf e.routed e.streams req.broadcast req.track with
    | some (key, kind) => .halt .subscribe .done [.attach req key kind]
    | none =>
      let key := serveApp e.routed ++ '/' :: req.broadcast
      if e.missing key req.broadcast then .halt .subscribe .done [.defer req key] else resetTurn .subscribe kStreamCancelled

def parsePeerSubscribe (b : List Byte) : LiteTurn :=
  if e.armed = false then resetTurn .subscribe kStreamCancelled
  else
    match frontMessage b with
    | .needMore => .wait .subscribe
    | .tooLarge => resetTurn .subscribe kStreamInternalError
    | .whole _ body _ =>
      match readSubscribe body with
      | none => resetTurn .subscribe kStreamInternalError
      | some req => e.answerSubscribe req

end LiteSession

/-- The second part of `ParsePeerAnnounce`: what follows the request has no meaning. -/
def parseRunning (b : List Byte) : LiteTurn := if b = [] then .wait .running else resetTurn .running kStreamInternalError

/-! ## A call -/

def LiteSession.parse (e : LiteSession) : LiteStage → List Byte → LiteTurn
  | .untyped uni, b => e.parseStreamType uni b
  | .setup, b => e.parseSetupStream b
  | .groupHeader, b => e.parseGroupHeader b
  | .frames g, b => e.parseFrame g b
  | .rejected, b => parseRejected b
  | .announceOk, b => parseAnnounceOk b
  | .announces nextId, b => parseAnnounce nextId b
  | .answers, b => parseAnswer b
  | .ending, _ => .drop .ended
  | .ended, b => parseEnded b
  | .other, _ => .halt .other .done []
  | .track, b => e.parsePeerTrack b
  | .request, b => e.parsePeerAnnounce b
  | .answered, _ => .wait .running
  | .running, b => parseRunning b
  | .subscribe, b => e.parsePeerSubscribe b

abbrev LiteStream := Fed LiteStage Byte LiteAction LiteEnd

/-- A stream that ends in its type is reset, and one that ends in its SETUP closes the session; a session that was closed
within a call takes no other. -/
def finishCall (fin : Bool) (r : LiteStream) : LiteStream :=
  if r.halted.isSome then r
  else
    match r.state with
    | .untyped _ => if fin then { r with out := r.out ++ [.reset kStreamInternalError], halted := some .reset } else r
    | .setup =>
      if fin then
        let reason := if (mlReadVarint r.buf 0).status then "truncated setup body" else "truncated setup"
        { r with out := r.out ++ [.close kSessionProtocolViolation reason], halted := some .closed }
      else r
    | .rejected => { r with halted := some .closed }
    | _ => r

def LiteSession.handleStreamData (e : LiteSession) (r : LiteStream) (chunk : List Byte) (fin : Bool) : LiteStream :=
  if r.halted = some .reset ∨ r.halted = some .closed then r
  else if kMaxRecvBuf < (r.buf ++ chunk).length then
    { r with buf := [], out := r.out ++ [.reset kStreamInternalError], halted := some .reset }
  else finishCall fin (feed e.parse .hung r chunk)

def LiteSession.handleCalls (e : LiteSession) : LiteStream → List (List Byte) → LiteStream
  | r, [] => r
  | r, [c] => e.handleStreamData r c true
  | r, c :: cs => e.handleCalls (e.handleStreamData r c false) cs

inductive LiteOpener where
  | peer (uni : Bool)
  | own (type : BitVec 64)
deriving DecidableEq

def LiteOpener.stage : LiteOpener → LiteStage
  | .peer uni => .untyped uni
  | .own type => if type = kBidiAnnounce then .announceOk else if type = kBidiSubscribe then .answers else .other

def LiteOpener.stream (o : LiteOpener) : LiteStream := ⟨o.stage, [], [], none⟩

end MoqLiveCast
