import Mathlib.Data.Char
import Mathlib.Data.List.Dedup
import Mathlib.Data.List.Lex
import Mathlib.Data.List.Sort
import MoqLiveCast.Media.StreamManager
import MoqLiveCast.Moq.MlWire
/-!
# Announce — announcing broadcasts to a peer (`AnnounceGrid`, `AnnounceBroadcast`)

A peer asks on a stream of its own what there is under a path, is told once, and of every change after that.  Broadcasts
have numbers that are not on the wire: both ends count the ANNOUNCE_START messages of the stream.

The transport takes what is written on a stream, or refuses it; beside a stream stand the messages it took.
-/
namespace MoqLiveCast

def nameBytes (n : Name) : List Byte := n.map fun c => BitVec.ofNat 8 c.toNat

def mlAppendAnnounceEnd (out : List Byte) (id : BitVec 64) : Bool × List Byte := okBuild out true 1 (mlWriteVarint [] id)

def announceSuffixOf (wire scope : Name) : Option Name :=
  if scope = [] then some wire
  else if wire = scope then some []
  else if scope.length < wire.length ∧ wire.take scope.length = scope ∧ wire[scope.length]? = some '/' then
    some (wire.drop (scope.length + 1))
  else none

/-- What is sent on an announce stream.  The broadcast that ends is named here alone, not on the wire. -/
inductive AnnounceMsg where
  | ok (active : Nat)
  | start (suffix : Name)
  | finish (suffix : Name) (id : Nat)
deriving DecidableEq

namespace AnnounceMsg

def build (out : List Byte) : AnnounceMsg → Bool × List Byte
  | .ok active => mlBuildAnnounceOk out 0 (BitVec.ofNat 64 active)
  | .start suffix => mlAppendAnnounceStart out (nameBytes suffix) 0 0
  | .finish _ id => mlAppendAnnounceEnd out (BitVec.ofNat 64 id)

def buildAll (ms : List AnnounceMsg) : Bool × List Byte := ms.foldl (fun r m => okThen r (m.build ·)) (true, [])

end AnnounceMsg

/-- A `PeerAnnounce` and its stream; `sent` is what the transport took of it, `unsent` that it refused an answer that named a
broadcast, and `lost` are those whose ANNOUNCE_END it refused. -/
structure AnnounceStream where
  sid : Nat
  scope : Name
  nextId : Nat
  ids : List (Name × Nat)
  sent : List AnnounceMsg
  unsent : Bool := false
  lost : List Name := []
deriving DecidableEq

/-- The broadcasts under the path, in order, each once, with the path below. -/
def gridItems (scope : Name) (wires : List Name) : List (Name × Name) :=
  (wires.insertionSort (· ≤ ·)).dedup.filterMap fun wire => (announceSuffixOf wire scope).map (wire, ·)

def gridAnswer (items : List (Name × Name)) : List AnnounceMsg := .ok items.length :: items.map fun i => .start i.2

/-- `AnnounceGrid`; the numbers are given before the answer is sent. -/
def announceGrid (sid : Nat) (scope : Name) (wires : List Name) (taken : Bool) : Option AnnounceStream :=
  let items := gridItems scope wires
  if (AnnounceMsg.buildAll (gridAnswer items)).1 then
    some ⟨sid, scope, items.length, items.zipIdx.map fun i => (i.1.1, i.2), if taken then gridAnswer items else [],
      !taken && items ≠ [], []⟩
  else none

/-- `AnnounceBroadcast` on one stream; a number is taken up with the message, and given up with or without it. -/
def AnnounceStream.push (a : AnnounceStream) (wire : Name) (added taken : Bool) : AnnounceStream :=
  if added then
    if a.ids.any fun i => i.1 = wire then a
    else
      match announceSuffixOf wire a.scope with
      | none => a
      | some suffix =>
        if ((AnnounceMsg.start suffix).build []).1 && taken then
          { a with ids := a.ids ++ [(wire, a.nextId)], nextId := a.nextId + 1, sent := a.sent ++ [.start suffix] }
        else a
  else
    match a.ids.find? fun i => i.1 = wire with
    | none => a
    | some i =>
      let suffix := (announceSuffixOf wire a.scope).getD []
      let ids := a.ids.filter fun i => i.1 ≠ wire
      if ((AnnounceMsg.finish suffix i.2).build []).1 = false then a
      else if taken then { a with ids := ids, sent := a.sent ++ [.finish suffix i.2] }
      else { a with ids := ids, lost := a.lost ++ [suffix] }

/-- The streams whose request was read, and those that were answered. -/
structure Announcer where
  asked : List Nat := []
  streams : List AnnounceStream := []

/-- A request is read, or a broadcast comes or goes; the transport takes what is sent or not. -/
inductive AnnounceOp where
  | request (sid : Nat) (scope : Name) (wires : List Name) (taken : Bool)
  | broadcast (wire : Name) (added : Bool) (taken : Nat → Bool)

def Announcer.step (s : Announcer) : AnnounceOp → Announcer
  | .request sid scope wires taken =>
    if sid ∈ s.asked then s else ⟨sid :: s.asked, s.streams ++ (announceGrid sid scope wires taken).toList⟩
  | .broadcast wire added taken =>
    if wire = [] then s else { s with streams := s.streams.map fun a => a.push wire added (taken a.sid) }

def Announcer.run (s : Announcer) (ops : List AnnounceOp) : Announcer := ops.foldl step s

/-! ## The other end -/

/-- The broadcasts by their numbers; there is none in the place of one that ended. -/
abbrev Routes := List (Option Name)

/-- A broadcast starts that is not there, or ends that is there under the number. -/
def hear (r : Routes) : AnnounceMsg → Option Routes
  | .ok _ => some r
  | .start suffix => if some suffix ∈ r then none else some (r ++ [some suffix])
  | .finish suffix id => if r[id]? = some (some suffix) then some (r.set id none) else none

/-- **Both ends agree on the numbers**, and no broadcast is there twice. -/
def Agreed (a : AnnounceStream) : Prop := (a.sent.foldlM hear []).isSome

instance (a : AnnounceStream) : Decidable (Agreed a) := by
  unfold Agreed
  infer_instance

end MoqLiveCast
