import MoqLiveCast.Lib.OrdMap
import MoqLiveCast.Moq.Announce
import MoqLiveCast.Moq.Egress
import MoqLiveCast.Moq.ServeTrack
/-!
# PeerSubscribe — a moq-lite session as publisher: the peer's subscriptions (`moq_lite_session.cpp`)

A SUBSCRIBE is read from a bidi stream of its own. It is attached when there is a catalog that has its track, waits when
the stream is to be pulled from elsewhere, and its stream is reset else. A track of media is served by a writer of its
own, that the `MediaStreamManager` feeds; the catalog is sent by the session, in a group for each version.

Each call is given the streams there are (`MediaStreams`).
-/
namespace MoqLiveCast

def nameOf (bs : List Byte) : Name := bs.map fun b => Char.ofNat b.toNat

/-! ## The request -/

structure SubscribeRequest where
  subId : BitVec 64
  broadcast : Name
  track : Name
  priority : Byte
  maxAgeMs : BitVec 64
  startGroup : BitVec 64
  endGroupRaw : BitVec 64
  startFrame : BitVec 64
  endFrameRaw : BitVec 64
deriving DecidableEq

def WireRead.read {α : Type} (r : WireRead Bool α) : Option (α × Nat) := if r.status then r.out.map (·, r.off) else none

def readSubscribe (p : List Byte) : Option SubscribeRequest := do
  let (subId, pos) ← (mlReadVarint p 0).read
  let (broadcast, pos) ← (mlReadString p pos).read
  let (track, pos) ← (mlReadString p pos).read
  let priority ← p[pos]?
  let (maxAgeMs, pos) ← (mlReadVarint p (pos + 1)).read
  let (startGroup, pos) ← (mlReadVarint p pos).read
  let (endGroupRaw, pos) ← (mlReadVarint p pos).read
  let (startFrame, pos) ← (mlReadVarint p pos).read
  let (endFrameRaw, pos) ← (mlReadVarint p pos).read
  if pos = p.length then
    some ⟨subId, nameOf broadcast, nameOf track, priority, maxAgeMs, startGroup, endGroupRaw, startFrame, endFrameRaw⟩
  else none

/-! ## The session -/

open OrdMap (put find erase)

structure ServeSub where
  sid : Nat
  broadcast : Name
  key : Name
  track : Name
  priority : Byte
  maxAgeMs : BitVec 64
  startGroup : BitVec 64
  endGroup : BitVec 64
  startFrame : BitVec 64
  endFrame : BitVec 64
  catalogGroup : BitVec 64 := 0
  catalogRev : Nat := 0
deriving DecidableEq

structure PendingPeerSub where
  sid : Nat
  req : SubscribeRequest
  key : Name
  deadlineMs : Int
deriving DecidableEq

def PendingPeerSub.serve (p : PendingPeerSub) (key : Name) : ServeSub :=
  ⟨p.sid, p.req.broadcast, key, p.req.track, p.req.priority, p.req.maxAgeMs, p.req.startGroup,
    if p.req.endGroupRaw = 0 then 0 else p.req.endGroupRaw - 1, p.req.startFrame,
    if p.req.endFrameRaw = 0 then 0 else p.req.endFrameRaw - 1, 0, 0⟩

structure PeerEgress where
  key : Name
  egress : Egress
deriving DecidableEq

structure PeerSession where
  routed : Name := []
  setUp : Bool := false
  armed : Bool := false
  dead : Bool := false
  deferredMs : Int := 3000
  requested : List Nat := []
  resets : List Nat := []
  serveSubs : List (BitVec 64 × ServeSub) := []
  pending : List (BitVec 64 × PendingPeerSub) := []
  egress : List (BitVec 64 × PeerEgress) := []
  players : List (BitVec 64) := []
  sends : Nat := 0
  opens : Nat := 0
  asked : List (Nat × BitVec 64) := []
  answered : List Nat := []
  groups : List (BitVec 64 × List Byte) := []
  ended : List Nat := []
deriving DecidableEq

def catalogRevOf (ms : MediaStreams) (key : Name) : Option (List Byte × Nat) :=
  match ms.find? fun e => e.1 = key with
  | none => none
  | some e => if e.2.catalogJson = [] then none else some (e.2.catalogJson, e.2.catalogRev)

def gopAt (ms : MediaStreams) (key : Name) : Option (List MediaPacket) :=
  (ms.find? fun e => e.1 = key).map fun e => e.2.cache.packets

namespace PeerSession

/-- The peer's SETUP is read, once: the path is routed, and the session serves unless the peer is a publisher only. -/
def setup (s : PeerSession) (path : Name) (serves : Bool) : PeerSession :=
  if s.dead ∨ s.setUp then s else { s with setUp := true, routed := path, armed := serves }

def resetStream (s : PeerSession) (sid : Nat) : PeerSession := { s with resets := sid :: s.resets }

section

variable (kindOf : List Byte → Name → Option ServeKind) (own : EgressNet) (net : BitVec 64 → EgressNet)

def sendCatalogGroup (s : PeerSession) (subId groupSeq : BitVec 64) (json : List Byte) : PeerSession × Bool :=
  let s' := { s with opens := s.opens + 1 }
  match own.uni s.opens with
  | none => (s', false)
  | some _ =>
    let body := okThen (mlBuildGroupHeader (mlAppendVarint [] 0) subId groupSeq 0) (mlAppendFrame · 0 json)
    if body.1 = false then (s', false)
    else
      let s' := { s' with sends := s.sends + 1 }
      match own.send s.sends with
      | .dead => (s', false)
      | .full => (s', true)
      | .ok => ({ s' with groups := s.groups ++ [(subId, body.2)] }, true)

def setCatalogSent (s : PeerSession) (subId group : BitVec 64) (rev : Nat) : PeerSession :=
  { s with serveSubs := s.serveSubs.map fun e =>
      if e.1 = subId then (e.1, { e.2 with catalogGroup := group, catalogRev := rev }) else e }

def serveCatalog (ms : MediaStreams) (s : PeerSession) (sid : Nat) (subId : BitVec 64) (key : Name) : PeerSession :=
  match catalogRevOf ms key with
  | none => s.resetStream sid
  | some (json, rev) =>
    if (mlBuildSubscribeStart [] 0).1 = false then s
    else if own.send s.sends = .dead then { s with sends := s.sends + 1 }
    else
      let r := sendCatalogGroup own { s with sends := s.sends + 1, answered := sid :: s.answered } subId 0 json
      if r.2 then r.1.setCatalogSent subId 0 rev else r.1

/-- The writer is registered, and started: it answers, and replays the cache. -/
def serveMedia (ms : MediaStreams) (s : PeerSession) (sid : Nat) (subId : BitVec 64) (key : Name) (isVideo : Bool) :
    PeerSession :=
  let e : Egress := { isVideo := isVideo }
  { s with
    egress := put s.egress subId ⟨key, e.start (net subId) subId sid (gopAt ms key)⟩
    players := subId :: s.players
    answered := if (e.accepted (net subId) subId sid).2 then sid :: s.answered else s.answered }

def attach (ms : MediaStreams) (s : PeerSession) (p : PendingPeerSub) : PeerSession :=
  if p.sid ∉ s.requested ∨ p.sid ∈ s.resets then s
  else
    match resolveServeTrack kindOf s.routed ms p.req.broadcast p.req.track with
    | none => s
    | some (key, kind) =>
      let s := { s with serveSubs := put s.serveSubs p.req.subId (p.serve key) }
      match kind with
      | .catalog => serveCatalog own ms s p.sid p.req.subId key
      | .video => serveMedia net ms s p.sid p.req.subId key true
      | .audio => serveMedia net ms s p.sid p.req.subId key false

def subscribe (ms : MediaStreams) (s : PeerSession) (sid : Nat) (body : List Byte) (missing : Bool) (now : Int) : PeerSession :=
  if s.dead ∨ sid ∈ s.resets ∨ sid ∈ s.requested then s
  else
    let s := { s with requested := sid :: s.requested }
    if s.armed = false then s.resetStream sid
    else
      match readSubscribe body with
      | none => s.resetStream sid
      | some req =>
        if (find s.serveSubs req.subId).isSome ∨ (find s.pending req.subId).isSome then { s with dead := true }
        else
          let s := { s with asked := (sid, req.subId) :: s.asked }
          match resolveServeTrack kindOf s.routed ms req.broadcast req.track with
          | some (key, _) => attach kindOf own net ms s ⟨sid, req, key, 0⟩
          | none =>
            if missing then
              let p : PendingPeerSub := ⟨sid, req, serveApp s.routed ++ '/' :: req.broadcast, now + s.deferredMs⟩
              { s with pending := put s.pending req.subId p }
            else s.resetStream sid

def updateOne (json : List Byte) (rev : Nat) (s : PeerSession) (subId : BitVec 64) : PeerSession :=
  match find s.serveSubs subId with
  | none => s
  | some v =>
    let r := sendCatalogGroup own s subId (v.catalogGroup + 1) json
    if r.2 then r.1.setCatalogSent subId (v.catalogGroup + 1) rev else r.1

/-- The turn of one waiting subscription in `RetryPendingPeerSubscribes`. -/
def retryOne (ms : MediaStreams) (s : PeerSession) (subId : BitVec 64) : PeerSession :=
  match find s.pending subId with
  | none => s
  | some p =>
    let gone := { s with pending := erase s.pending subId }
    if p.sid ∉ s.requested ∨ p.sid ∈ s.resets then gone
    else
      match resolveServeTrack kindOf s.routed ms p.req.broadcast p.req.track with
      | none => s
      | some _ => attach kindOf own net ms gone p

def outdated (s : PeerSession) (key : Name) (rev : Nat) : List (BitVec 64) :=
  (s.serveSubs.filter fun e => e.2.track = kCatalogTrack ∧ e.2.key = key ∧ e.2.catalogRev < rev).map (·.1)

def waiting (s : PeerSession) (key : Name) : List (BitVec 64) := (s.pending.filter fun e => e.2.key = key).map (·.1)

def updateCatalogs (s : PeerSession) (key : Name) (json : List Byte) (rev : Nat) : PeerSession :=
  (s.outdated key rev).foldl (updateOne own json rev) s

def catalogUpdated (ms : MediaStreams) (s : PeerSession) (key : Name) (rev : Nat) : PeerSession :=
  if s.dead ∨ key = [] then s
  else
    match catalogRevOf ms key with
    | none => s
    | some (json, curRev) =>
      let s := s.updateCatalogs own key json (min rev curRev)
      (s.waiting key).foldl (retryOne kindOf own net ms) s

def sweep (s : PeerSession) (now : Int) : PeerSession :=
  if s.dead then s
  else
    { s with
      resets := ((s.pending.filter fun e => e.2.deadlineMs ≤ now).map fun e => e.2.sid) ++ s.resets
      pending := s.pending.filter fun e => now < e.2.deadlineMs }

def packet (s : PeerSession) (key : Name) (p : MediaPacket) : PeerSession :=
  { s with egress := s.egress.map fun e =>
      if e.1 ∈ s.players ∧ e.2.key = key then (e.1, ⟨e.2.key, e.2.egress.writePacket (net e.1) p⟩) else e }

end

/-- `TeardownEgress`, when the session is destroyed. -/
def destroy (s : PeerSession) : PeerSession := { s with dead := true, players := [], egress := [] }

end PeerSession

inductive PeerOp where
  | setup (path : Name) (serves : Bool)
  | subscribe (ms : MediaStreams) (sid : Nat) (body : List Byte) (missing : Bool) (now : Int)
  | catalogUpdated (ms : MediaStreams) (key : Name) (rev : Nat)
  | sweep (now : Int)
  | packet (key : Name) (p : MediaPacket)
  | ended (sid : Nat)
  | close
  | destroy

def PeerSession.step (kindOf : List Byte → Name → Option ServeKind) (own : EgressNet) (net : BitVec 64 → EgressNet)
    (s : PeerSession) : PeerOp → PeerSession
  | .setup path serves => s.setup path serves
  | .subscribe ms sid body missing now => s.subscribe kindOf own net ms sid body missing now
  | .catalogUpdated ms key rev => s.catalogUpdated kindOf own net ms key rev
  | .sweep now => s.sweep now
  | .packet key p => s.packet net key p
  | .ended sid => { s with ended := sid :: s.ended }
  | .close => { s with dead := true }
  | .destroy => s.destroy

def PeerSession.run (kindOf : List Byte → Name → Option ServeKind) (own : EgressNet) (net : BitVec 64 → EgressNet)
    (s : PeerSession) (ops : List PeerOp) : PeerSession := ops.foldl (PeerSession.step kindOf own net) s

end MoqLiveCast
