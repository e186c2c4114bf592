import MoqLiveCast.Cluster.Manager
import MoqLiveCast.Cluster.PullSession
import MoqLiveCast.Media.PublishNotice
import MoqLiveCast.Media.StreamHeaders
/-!
# PullLife — the life of a pull link, from its first demand to its end (`cluster/cluster_pull.cpp`, `cluster_manager.cpp`)

A link may be stopped and started again before it is taken out, and its session with the center is closed when it stops: the
library then says nothing of that session but that it is closed (`moq_lite_client.c`).  Beside the link are its tracks, its
catalog, the stream of its key with what others do to it, and the key's entry in the negative cache.

Callbacks are for tracks that the link has subscribed.
-/
namespace MoqLiveCast

/-- A rendition of the catalog, with what its sequence header takes. -/
structure PulledRendition where
  rendition : MoqCatalogRendition
  codec : Name
  config : List Byte
  usable : Bool
deriving DecidableEq

/-- `seq_hdr_sig_`'s text is the codec, a colon and the size: it says both. -/
def PulledRendition.sig (r : PulledRendition) : Name × Nat := (r.codec, r.config.length)

def PulledRendition.header (r : PulledRendition) : MediaPacket :=
  match r.rendition.kind with
  | .video => makeFlvVideoPacket 0 true false r.config
  | .audio => makeFlvAudioPacket 0 true r.config

/-- A link, its key and its session.  `claimedAt`, `takenOver` and `headers` are of the latest claim: when it was, whether a
local publisher has taken over since, and the headers written since; `bare` says that media was written with a header missing,
`idleCloses` when the link was closed for idleness and since when it had its claim, `timedOut` that it did not get its stream
in time. -/
structure PullLife where
  opts : ClusterOptions
  owner : Name
  link : ClusterPullLink
  stream : StreamKey
  now : Int
  gone : Bool := false
  negativeUntil : Option Int := none
  sessionOpen : Bool := false
  catalog : List (Name × PulledRendition) := []
  seqHdrSig : List (Name × Name × Nat) := []
  tracks : PullSession := {}
  claimedAt : Option Int := none
  takenOver : Bool := false
  headers : List (Name × List Byte) := []
  bare : Bool := false
  idleCloses : List (Option Int × Int) := []
  timedOut : Bool := false

/-- What happens to a link: a demand for its key, the timer, the library's callbacks, and what others do to its stream. -/
inductive LifeEvent where
  | demand (ans : Answers)
  | timer (ans : Answers)
  | connected (ans : Answers) (ok : Bool)
  | closed
  | catalog (raw : List Byte) (info : Option (List (Name × PulledRendition)))
  | frame (name : Name) (group : Nat) (f : PullFrame)
  | groupEnd (name : Name) (group : Nat)
  | subscribed (name : Name) (firstGroup : Nat)
  | trackEnd
  | elsewhere (op : StreamOp)

namespace PullLife

section

variable (writerId : Nat → Name) (fails : Nat → MediaPacket → Bool) (s : PullLife)

def answers (ans : Answers) : Answers := { ans with now := s.now }

/-- The link goes on to `l`: a claim that it gives up is released, its session is open from its creation on, and is closed
when the link stops or waits for its close. -/
def put (l : ClusterPullLink) : PullLife :=
  { s with
    link := l
    stream := if s.link.claimed && !l.claimed then (s.stream.releasePublisher s.owner).1 else s.stream
    sessionOpen := (s.sessionOpen || (!s.link.session && l.session)) && !l.stopped && !l.closePending }

def clearSessionHandles : PullLife := { s with tracks := { line := s.tracks.line.clearSession } }

def writeMedia (p : MediaPacket) : PullLife := { s with stream := s.stream.step writerId (.packet p fails) }

/-- **The stream has the sequence headers of the catalog**, written since the latest claim. -/
def Headed : Prop :=
  ∀ e ∈ s.catalog, ∀ r ∈ OrdMap.find s.catalog e.1, r.usable = true → r.config ≠ [] → (e.1, r.config) ∈ s.headers

instance : Decidable s.Headed := by
  unfold Headed
  infer_instance

def emit (tracks : PullSession) : PullLife :=
  let out := (tracks.line.written.drop s.tracks.line.written.length).map (·.packet)
  if out = [] then { s with tracks }
  else
    { out.foldl (writeMedia writerId fails) { s with tracks } with
      link := { s.link with lastMediaMs := s.now }
      bare := s.bare || s.claimedAt.isSome && !decide s.Headed }

/-! ## The catalog -/

def sendSequenceHeader (name : Name) : PullLife :=
  match OrdMap.find s.catalog name with
  | none => s
  | some r =>
    if r.usable = false ∨ r.config = [] then s
    else if OrdMap.find s.seqHdrSig name = some r.sig then s
    else
      { s.writeMedia writerId fails r.header with
        seqHdrSig := OrdMap.put s.seqHdrSig name r.sig, headers := s.headers ++ [(name, r.config)] }

def takeCatalog (raw : List Byte) (catalog : List (Name × PulledRendition)) : PullLife :=
  let tracks := { s.tracks with line := s.tracks.line.step (.catalog (catalog.map fun e => (e.1, e.2.rendition))) }
  let s := { s with catalog, tracks, stream := (s.stream.setCatalogJson s.owner raw).1 }
  (catalog.map Prod.fst).foldl (sendSequenceHeader writerId fails) s

def claimed (stream : StreamKey) : PullLife :=
  { s with link := { s.link with claimed := true }, stream, claimedAt := some s.now, takenOver := false, headers := [] }

def handleCatalogFrame (raw : List Byte) (info : Option (List (Name × PulledRendition))) : PullLife :=
  match info with
  | none => s
  | some catalog =>
    if raw = [] then s
    else if s.stream.exists_ = true ∧ s.stream.isPublisherOwner s.owner = false then s.put s.link.abandonLocalWins
    else if s.link.claimed then s.takeCatalog writerId fails raw catalog
    else
      let claim := s.stream.claimPublisher s.owner s.now
      if claim.2 = .takeOver ∨ claim.2 = .rejected then { s with stream := claim.1 }.put s.link.abandonLocalWins
      else (s.claimed claim.1).takeCatalog writerId fails raw catalog

def handleMediaFrame (name : Name) (group : Nat) (f : PullFrame) : PullLife :=
  if s.link.claimed = false then s
  else if s.stream.isPublisherOwner s.owner = false then s.put s.link.abandonLocalWins
  else if f.data = [] then s
  else if (OrdMap.find s.catalog name).isSome then s.emit writerId fails (s.tracks.step (s.now, .frame name group f)) else s

/-! ## The timer -/

def freeSessionIfClosed : PullLife :=
  let link := s.link.freeSessionIfClosed s.opts s.now
  if s.link.session ∧ link.session = false then s.clearSessionHandles.put link else s.put link

def reopen (ans : Answers) : PullLife :=
  if s.link.stopped = false ∧ s.link.session = false ∧ s.link.connecting = false ∧ s.link.retryAtMs ≤ s.now then
    s.put (s.link.createSession s.opts (s.answers ans))
  else s

/-- `OnTick` as far as the tracks, where a group that does not come is skipped. -/
def drained (ans : Answers) : PullLife :=
  let s := s.freeSessionIfClosed.reopen ans
  s.emit writerId fails (s.tracks.step (s.now, .tick))

def acquireOver : Prop :=
  s.link.stopped = false ∧ s.link.claimed = false ∧ 0 < s.link.acquireDeadlineMs ∧ s.link.acquireDeadlineMs ≤ s.now

def idleOver : Prop :=
  s.link.stopped = false ∧ s.link.claimed = true ∧ 0 < s.link.lastMediaMs ∧ s.opts.pullIdleTimeoutMs < s.now - s.link.lastMediaMs

instance : Decidable s.acquireOver := by
  unfold acquireOver
  infer_instance

instance : Decidable s.idleOver := by
  unfold idleOver
  infer_instance

def giveUp : PullLife :=
  if s.acquireOver then { s.put { s.link with acquireTimedOut := true }.stop with timedOut := true } else s

def closeIdle : PullLife :=
  if s.idleOver then { s.put s.link.stop with idleCloses := s.idleCloses ++ [(s.claimedAt, s.now)] } else s

def onTick (ans : Answers) : PullLife := (s.drained writerId fails ans).giveUp.closeIdle

def onTimer (ans : Answers) : PullLife :=
  let s := s.onTick writerId fails ans
  if s.link.fullyStopped then
    { s with
      gone := true
      link := { s.link with claimed := false }
      negativeUntil :=
        if s.link.acquireTimedOut ∧ 0 < s.opts.negativeCacheMs then some (s.now + s.opts.negativeCacheMs) else s.negativeUntil
      stream := if s.link.claimed then (s.stream.releasePublisher s.owner).1 else s.stream }
  else if s.link.stopped = false ∧ s.stream.players = [] ∧ ClusterManager.kPullIdleDemandMs < s.now - s.link.lastDemandMs then
    s.put s.link.stop
  else s

/-! ## Runs -/

def demand (ans : Answers) : PullLife :=
  let l := s.link.touchDemand s.now
  s.put (if l.stopped then l.start s.opts (s.answers ans) else l)

def takesOver (stream : StreamKey) (now : Int) : StreamOp → Bool
  | .claim x _ => (stream.claimPublisher x now).2 = .takeOver
  | _ => false

def atNow (now : Int) : StreamOp → StreamOp
  | .claim x _ => .claim x now
  | op => op

def call : LifeEvent → PullLife
  | .demand ans => s.demand ans
  | .timer ans => s.onTimer writerId fails ans
  | .closed =>
    if s.link.session then s.clearSessionHandles.put (s.link.handleClosed s.now) else s
  | .elsewhere op =>
    { s with stream := s.stream.step writerId (atNow s.now op), takenOver := s.takenOver || takesOver s.stream s.now op }
  | .connected ans ok =>
    if s.sessionOpen then
      let ans := s.answers ans
      { s.put (s.link.onSessionConnected ans ok) with sessionOpen := ok && ans.broadcast && ans.subscribe }
    else s
  | .catalog raw info => if s.sessionOpen then s.handleCatalogFrame writerId fails raw info else s
  | .frame name group f => if s.sessionOpen then s.handleMediaFrame writerId fails name group f else s
  | .groupEnd name group => if s.sessionOpen then s.emit writerId fails (s.tracks.step (s.now, .groupEnd name group)) else s
  | .subscribed name first => if s.sessionOpen then s.emit writerId fails (s.tracks.step (s.now, .subscribed name first)) else s
  | .trackEnd => if s.sessionOpen then s.put s.link.requestReconnect else s

def step (s : PullLife) (e : Nat × LifeEvent) : PullLife :=
  if s.gone then s else { s with now := s.now + e.1 }.call writerId fails e.2

end

/-- A new link for a key: `EnsurePulled` makes it and starts it. -/
def started (opts : ClusterOptions) (owner key : Name) (stream : StreamKey) (now : Int) (ans : Answers) : PullLife :=
  let s : PullLife := { opts, owner, link := { localKey := key, lastDemandMs := now, retryAtMs := now }, stream, now }
  s.put (s.link.start opts (s.answers ans))

end PullLife
end MoqLiveCast
