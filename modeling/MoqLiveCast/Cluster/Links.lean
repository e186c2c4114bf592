import Mathlib.Data.Char
import Mathlib.Data.List.Lex
import MoqLiveCast.Lib.OrdMap
import MoqLiveCast.Lib.Run
import MoqLiveCast.Media.StreamManager
/-!
# Links — the life of a push link and of a pull link (`cluster/cluster_push.cpp`, `cluster_pull.cpp`)

A link has a session with the center at most, and reconnects until it is stopped. A session is closed asynchronously:
its close comes later, and a tick after that frees it. A push link has its writer attached, a player of the stream,
while it is linked and not paused.

What a call finds outside the link (`Answers`) is as it may: the clock, the `MediaStreamManager` and the moq-lite library.  Times are `int64_t`, taken not to overflow.
-/
namespace MoqLiveCast

structure ClusterOptions where
  reconnectMinMs : Int := 500
  reconnectMaxMs : Int := 10000
  pullAcquireTimeoutMs : Int := 5000
  pullIdleTimeoutMs : Int := 30000
  negativeCacheMs : Int := 5000
  maxPullConnections : Nat := 128
deriving DecidableEq

/-- `ClusterBackoffMs`: it doubles with every attempt, and is spread by the key and the time. -/
def clusterBackoffMs (opts : ClusterOptions) (attempt : Nat) (key : Name) (nowMs : Int) : Int :=
  let minMs := if 0 < opts.reconnectMinMs then opts.reconnectMinMs else 500
  let maxMs := if minMs ≤ opts.reconnectMaxMs then opts.reconnectMaxMs else minMs
  let delay := (List.range attempt).foldl (fun (delay : Int) _ => if delay < maxMs then delay * 2 else delay) minMs
  let delay := if maxMs < delay then maxMs else delay
  let delay := if delay < minMs then minMs else delay
  let span := (delay / 5 + 1).toNat
  let h := key.foldl (fun (h : BitVec 64) c => h * 131 + BitVec.ofNat 64 (c.toNat % 256)) (BitVec.ofInt 64 nowMs)
  delay - (span / 2 : Nat) + (h.toNat % span : Nat)

/-- What a call finds: the time, the stream of its key, and whether a session, a connection, a broadcast and a subscription
can be had. -/
structure Answers where
  now : Int
  hasPublisher : Bool := false
  isOwner : Bool := false
  playerCount : Nat := 0
  catalogJson : Option (List Byte) := none
  sessionNew : Bool := true
  connect : Bool := true
  broadcast : Bool := true
  subscribe : Bool := true
deriving DecidableEq

def kFreeDelayMs : Int := 100

/-! ## The push link -/

def kPauseGraceMs : Int := 30000

/-- A `ClusterPushLink`; its writer is there as long as the link. -/
structure ClusterPushLink where
  localKey : Name
  catalogJson : List Byte
  session : Bool := false
  writerAdded : Bool := false
  linked : Bool := false
  connecting : Bool := false
  stopped : Bool := false
  closePending : Bool := false
  sessionDead : Bool := false
  paused : Bool := false
  pausedAtMs : Int := 0
  freeAtMs : Int := 0
  retryAtMs : Int := 0
  attempt : Nat := 0
deriving DecidableEq

namespace ClusterPushLink

variable (opts : ClusterOptions) (ans : Answers) (p : ClusterPushLink)

def fullyStopped : Bool := p.stopped && !p.session

def createSession : ClusterPushLink :=
  if p.session ∨ p.stopped then p
  else
    let retryAtMs := ans.now + clusterBackoffMs opts p.attempt p.localKey ans.now
    if ans.sessionNew = false then { p with retryAtMs }
    else if ans.connect = false then
      { p with session := true, connecting := false, closePending := true, freeAtMs := ans.now + kFreeDelayMs, retryAtMs }
    else { p with session := true, connecting := true }

def start : ClusterPushLink := if p.stopped ∨ p.session then p else p.createSession opts ans

def detachWriter : ClusterPushLink := { p with writerAdded := false }

def pause (now : Int) : ClusterPushLink :=
  if p.paused then p else { p.detachWriter with paused := true, pausedAtMs := now }

def resume (catalogJson : List Byte) : ClusterPushLink := { p with paused := false, pausedAtMs := 0, catalogJson }

def stop : ClusterPushLink :=
  if p.stopped then p else { p.detachWriter with stopped := true, linked := false, connecting := false }

def handleConnected : ClusterPushLink :=
  if ans.broadcast = false then { p with connecting := false }
  else { p with connecting := false, linked := true, attempt := 0 }

def onSessionConnected (ok : Bool) : ClusterPushLink :=
  if p.stopped then p else if ok then p.handleConnected ans else { p with connecting := false }

def handleClosed (now : Int) : ClusterPushLink :=
  { p.detachWriter with
    linked := false, connecting := false, sessionDead := true, closePending := true, freeAtMs := now + kFreeDelayMs }

def freeSessionIfClosed (now : Int) : ClusterPushLink :=
  if p.closePending = false ∨ p.session = false ∨ p.sessionDead = false ∨ now < p.freeAtMs then p
  else
    let p := { p with session := false, sessionDead := false, closePending := false }
    if p.stopped then p
    else { p with attempt := p.attempt + 1, retryAtMs := now + clusterBackoffMs opts (p.attempt + 1) p.localKey now }

def onTick : ClusterPushLink :=
  let p := p.freeSessionIfClosed opts ans.now
  let p := if p.stopped = false ∧ p.paused ∧ 0 < p.pausedAtMs ∧ kPauseGraceMs < ans.now - p.pausedAtMs then p.stop else p
  if p.stopped = false ∧ p.session = false ∧ p.connecting = false ∧ p.retryAtMs ≤ ans.now then p.createSession opts ans
  else p

/-- **A paused link has no writer attached.** -/
def Quiet : Prop := p.paused = true → p.writerAdded = false

end ClusterPushLink

/-! ## The pull link -/

structure ClusterPullLink where
  localKey : Name
  session : Bool := false
  claimed : Bool := false
  linked : Bool := false
  connecting : Bool := false
  stopped : Bool := false
  closePending : Bool := false
  sessionDead : Bool := false
  reconnectRequested : Bool := false
  acquireTimedOut : Bool := false
  acquireDeadlineSet : Bool := false
  acquireDeadlineMs : Int := 0
  lastDemandMs : Int := 0
  lastMediaMs : Int := 0
  freeAtMs : Int := 0
  retryAtMs : Int := 0
  attempt : Nat := 0
deriving DecidableEq

inductive PullCall where
  | connected (ok : Bool)
  | closed
  | catalog (valid : Bool) (claim : StreamKey.PublishClaim)
  | media (emitted : Bool)
  | trackEnd

namespace ClusterPullLink

variable (opts : ClusterOptions) (ans : Answers) (l : ClusterPullLink)

def fullyStopped : Bool := l.stopped && !l.session

def createSession : ClusterPullLink :=
  if l.session ∨ l.stopped then l
  else
    let l := if l.acquireDeadlineSet then l else
      { l with acquireDeadlineMs := ans.now + opts.pullAcquireTimeoutMs, acquireDeadlineSet := true }
    let retryAtMs := ans.now + clusterBackoffMs opts l.attempt l.localKey ans.now
    if ans.sessionNew = false then { l with retryAtMs }
    else if ans.connect = false then
      { l with session := true, connecting := false, closePending := true, freeAtMs := ans.now + kFreeDelayMs, retryAtMs }
    else { l with session := true, connecting := true }

def start : ClusterPullLink :=
  if l.stopped = false ∧ l.session then l
  else
    let l := { l with stopped := false, acquireTimedOut := false, acquireDeadlineSet := false }
    if l.session = false ∧ l.connecting = false then l.createSession opts ans else l

def touchDemand (now : Int) : ClusterPullLink := { l with lastDemandMs := now }

def stop : ClusterPullLink :=
  if l.stopped then l else { l with stopped := true, claimed := false, linked := false, connecting := false }

def abandonLocalWins : ClusterPullLink := { l with stopped := true, linked := false, connecting := false }

def onSessionConnected (ok : Bool) : ClusterPullLink :=
  if l.stopped then l
  else if ok = false then { l with connecting := false }
  else { l with connecting := false, attempt := 0, linked := l.linked || ans.broadcast && ans.subscribe }

def handleClosed (now : Int) : ClusterPullLink :=
  { l with linked := false, connecting := false, sessionDead := true, closePending := true, freeAtMs := now + kFreeDelayMs }

def handleCatalogFrame (valid : Bool) (claim : StreamKey.PublishClaim) : ClusterPullLink :=
  if l.stopped ∨ valid = false then l
  else if ans.hasPublisher ∧ ans.isOwner = false then l.abandonLocalWins
  else if l.claimed then l
  else if claim = .takeOver ∨ claim = .rejected then l.abandonLocalWins
  else { l with claimed := true }

def handleMediaFrame (emitted : Bool) : ClusterPullLink :=
  if l.stopped ∨ l.claimed = false then l
  else if ans.isOwner = false then l.abandonLocalWins
  else if emitted then { l with lastMediaMs := ans.now } else l

def requestReconnect : ClusterPullLink := if l.stopped then l else { l with reconnectRequested := true }

def call : PullCall → ClusterPullLink
  | .connected ok => l.onSessionConnected ans ok
  | .closed => l.handleClosed ans.now
  | .catalog valid claim => l.handleCatalogFrame ans valid claim
  | .media emitted => l.handleMediaFrame ans emitted
  | .trackEnd => l.requestReconnect

def freeSessionIfClosed (now : Int) : ClusterPullLink :=
  if l.session = false then l
  else
    let l := if l.reconnectRequested ∧ l.closePending = false then
        { l with reconnectRequested := false, closePending := true }
      else l
    if l.closePending = false ∨ l.sessionDead = false ∨ now < l.freeAtMs then l
    else
      let l := { l with session := false, sessionDead := false, closePending := false }
      if l.stopped then l
      else { l with attempt := l.attempt + 1, retryAtMs := now + clusterBackoffMs opts (l.attempt + 1) l.localKey now }

def onTick : ClusterPullLink :=
  let l := l.freeSessionIfClosed opts ans.now
  let l := if l.stopped = false ∧ l.session = false ∧ l.connecting = false ∧ l.retryAtMs ≤ ans.now then
      l.createSession opts ans
    else l
  let l := if l.stopped = false ∧ l.claimed = false ∧ 0 < l.acquireDeadlineMs ∧ l.acquireDeadlineMs ≤ ans.now then
      { l with acquireTimedOut := true }.stop
    else l
  if l.stopped = false ∧ l.claimed ∧ 0 < l.lastMediaMs ∧ opts.pullIdleTimeoutMs < ans.now - l.lastMediaMs then l.stop
  else l

end ClusterPullLink
end MoqLiveCast
