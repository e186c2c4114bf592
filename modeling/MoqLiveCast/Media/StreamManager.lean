import MoqLiveCast.Moq.PullTime
/-!
# StreamManager — one stream key of the `MediaStreamManager` (`utils/av/media_stream_manager.cpp`, `gop_cache.cpp`)

Each operation looks at the entry of its own key, so a key's entry is the state; there is none until a player or a
publisher comes.  A writer is its pointer, and `writerId` is what `GetWriterId` answers; `fails` says which packets a
writer does not take.  Beside the entry stand the writers whose init flag is set, what each was given, and the callbacks.

Times are `int64_t`, taken not to overflow.
-/
namespace MoqLiveCast

/-- A `std::string` that is a name; an empty owner is none. -/
abbrev Name := List Char

/-! ## The cache -/

structure GopCache where
  audioHdr : Option MediaPacket := none
  videoHdr : Option MediaPacket := none
  packets : List MediaPacket := []
deriving DecidableEq

def GopCache.input (c : GopCache) (p : MediaPacket) : GopCache :=
  if p.isSeqHdr then
    if p.avType = .audio then { c with audioHdr := some p }
    else if p.avType = .video then { c with videoHdr := some p }
    else c
  else { c with packets := (if p.avType = .video ∧ p.isKeyFrame then [] else c.packets) ++ [p] }

def GopCache.hasMedia (c : GopCache) : Bool := c.videoHdr.isSome || c.audioHdr.isSome || c.packets ≠ []

def GopCache.replay (c : GopCache) : List MediaPacket :=
  ((c.videoHdr.toList ++ c.audioHdr.toList).filter fun p => p.body ≠ []) ++ c.packets

/-! ## The stream -/

structure MediaStream where
  publisherExist : Bool := false
  clockResetPending : Bool := false
  publisherId : Name := []
  claimWindowMs : Int := 0
  claimTakeovers : Nat := 0
  lastInVideoDts : Int := -1
  lastInAudioDts : Int := -1
  lastInDts : Int := -1
  lastOutDts : Int := -1
  tsShift : Int := 0
  cache : GopCache := {}
  writers : List Nat := []
  catalogJson : List Byte := []
  catalogRev : Nat := 0
deriving DecidableEq

namespace MediaStream

def lastIn (st : MediaStream) (p : MediaPacket) : Int :=
  match p.avType with
  | .video => st.lastInVideoDts
  | .audio => st.lastInAudioDts
  | _ => st.lastInDts

def setLastIn (st : MediaStream) (p : MediaPacket) (dts : Int) : MediaStream :=
  match p.avType with
  | .video => { st with lastInVideoDts := dts }
  | .audio => { st with lastInAudioDts := dts }
  | _ => { st with lastInDts := dts }

def reshift (st : MediaStream) (shift : Int) : MediaStream :=
  { st with tsShift := shift, lastInVideoDts := -1, lastInAudioDts := -1, lastInDts := -1 }

/-- The shift is for a new publisher's clock, or for a track that went back by more than a second, or stays. -/
def shifted (st : MediaStream) (p : MediaPacket) : MediaStream :=
  let dts := notBelow0 p.dts
  if st.clockResetPending = true ∧ 0 ≤ st.lastOutDts then st.reshift (st.lastOutDts + 40 - dts)
  else if p.isSeqHdr = false ∧ 0 ≤ st.lastIn p ∧ dts + 1000 < st.lastIn p then
    st.reshift (notBelow0 st.lastOutDts + 40 - dts)
  else st

def normalizeDts (st : MediaStream) (p : MediaPacket) : MediaStream × MediaPacket :=
  let dts := notBelow0 p.dts
  let cts := (if p.pts < 0 then dts else p.pts) - dts
  let st := { st.shifted p with clockResetPending := false }
  let st := if p.isSeqHdr then st else st.setLastIn p dts
  let out := notBelow0 (dts + st.tsShift)
  let pts := if out + cts < 0 then out else out + cts
  (if p.isSeqHdr then st else { st with lastOutDts := out }, { p with dts := out, pts := pts })

end MediaStream

/-! ## The key -/

inductive Notice where
  | onPublish | onUnpublish
deriving DecidableEq

structure StreamKey where
  key : Name
  stream : Option MediaStream := none
  inited : List Nat := []
  received : List (Nat × MediaPacket) := []
  notices : List Notice := []

namespace StreamKey

/-- `GetAppStreamname`: a key without a slash is told to nobody. -/
def notify (s : StreamKey) (n : Notice) : StreamKey := if '/' ∈ s.key then { s with notices := s.notices ++ [n] } else s

def entered (s : StreamKey) (st : MediaStream) : StreamKey := { s with stream := some st }

section

variable (writerId : Nat → Name)

def putWriter (ws : List Nat) (w : Nat) : List Nat := ws.filter (fun w' => writerId w' ≠ writerId w) ++ [w]

def reap (s : StreamKey) (st : MediaStream) : StreamKey :=
  if st.writers = [] ∧ st.publisherExist = false then { s with stream := none } else s.entered st

/-- `RemovePlayer`: one that was replaced under its id is left alone. -/
def removePlayer (s : StreamKey) (w : Nat) : StreamKey :=
  match s.stream with
  | none => s
  | some st =>
    match st.writers.find? fun w' => writerId w' = writerId w with
    | none => s.reap st
    | some w' => if w' = w then s.reap { st with writers := st.writers.erase w } else s

def writeAll (fails : MediaPacket → Bool) : List MediaPacket → List MediaPacket × Bool
  | [] => ([], true)
  | p :: ps => if fails p then ([p], false) else (p :: (writeAll fails ps).1, (writeAll fails ps).2)

/-- The init flag is set, and `WriterGop` is called. -/
def replayTo (fails : Nat → MediaPacket → Bool) (s : StreamKey) (cache : GopCache) (w : Nat) : StreamKey × Bool :=
  let r := writeAll (fails w) cache.replay
  ({ s with inited := w :: s.inited, received := s.received ++ r.1.map (w, ·) }, r.2)

def addPlayer (fails : Nat → MediaPacket → Bool) (s : StreamKey) (w : Nat) : StreamKey :=
  match s.stream with
  | none => s.entered { writers := [w] }
  | some st =>
    let s := s.entered { st with writers := putWriter writerId st.writers w }
    if st.cache.hasMedia ∧ w ∉ s.inited then
      let r := s.replayTo fails st.cache w
      if r.2 then r.1 else r.1.removePlayer writerId w
    else s

def addPublisher (s : StreamKey) : StreamKey :=
  match s.stream with
  | none => (s.entered { publisherExist := true }).notify .onPublish
  | some st => s.entered { st with publisherExist := true }

def removePublisher (s : StreamKey) : StreamKey :=
  match s.stream with
  | none => s
  | some st =>
    let st := { st with publisherExist := false, publisherId := [], clockResetPending := true, cache := {} }
    (if st.writers = [] then { s with stream := none } else s.entered st).notify .onUnpublish

def kTakeOverWindowMs : Int := 10000

def kMaxTakeOverPerWindow : Nat := 3

inductive PublishClaim where
  | created | reused | takeOver | rejected
deriving DecidableEq

def countTakeover (st : MediaStream) (now : Int) : MediaStream :=
  if st.claimWindowMs ≠ 0 ∧ now - st.claimWindowMs ≤ kTakeOverWindowMs then
    { st with claimTakeovers := st.claimTakeovers + 1 }
  else { st with claimWindowMs := now, claimTakeovers := 1 }

def refused (st : MediaStream) (now : Int) : Prop :=
  st.claimWindowMs ≠ 0 ∧ now - st.claimWindowMs ≤ kTakeOverWindowMs ∧ kMaxTakeOverPerWindow < st.claimTakeovers + 1

instance (st : MediaStream) (now : Int) : Decidable (refused st now) := by
  unfold refused
  infer_instance

def claimPublisher (s : StreamKey) (owner : Name) (now : Int) : StreamKey × PublishClaim :=
  match s.stream with
  | none => ((s.entered { publisherExist := true, publisherId := owner }).notify .onPublish, .created)
  | some st =>
    if st.publisherId = [] ∨ st.publisherId = owner then
      (s.entered { st with publisherExist := true, publisherId := owner }, .reused)
    else if refused st now then (s.entered (countTakeover st now), .rejected)
    else (s.entered { countTakeover st now with publisherId := owner, publisherExist := true, cache := {} }, .takeOver)

def isPublisherOwner (s : StreamKey) (owner : Name) : Bool :=
  match s.stream with
  | none => false
  | some st => st.publisherId = [] || st.publisherId = owner

def releasePublisher (s : StreamKey) (owner : Name) : StreamKey × Bool :=
  match s.stream with
  | none => (s, false)
  | some st => if st.publisherId ≠ [] ∧ st.publisherId ≠ owner then (s, false) else (s.removePublisher, true)

def setCatalogJson (s : StreamKey) (owner : Name) (json : List Byte) : StreamKey × Bool :=
  match s.stream with
  | none => (s, false)
  | some st =>
    if json = [] then (s, false)
    else if st.publisherId ≠ [] ∧ st.publisherId ≠ owner then (s, false)
    else if st.catalogJson = json then (s, true)
    else (s.entered { st with catalogJson := json, catalogRev := st.catalogRev + 1 }, true)

def getCatalogJson (s : StreamKey) : Option (List Byte × Nat) :=
  match s.stream with
  | none => none
  | some st => if st.catalogJson = [] then none else some (st.catalogJson, st.catalogRev)

/-- One writer's turn in the fan-out, with the writers that failed so far: one that is not yet inited gets the cache, where
the packet already is. -/
def fanOut (fails : Nat → MediaPacket → Bool) (cache : GopCache) (p : MediaPacket) (r : StreamKey × List Nat) (w : Nat) :
    StreamKey × List Nat :=
  if w ∉ r.1.inited then
    let r' := r.1.replayTo fails cache w
    if r'.2 then (r'.1, r.2) else (r'.1, r.2 ++ [w])
  else
    let s := { r.1 with received := r.1.received ++ [(w, p)] }
    if fails w p then (s, r.2 ++ [w]) else (s, r.2)

def fed (st : MediaStream) (p : MediaPacket) : MediaStream × MediaPacket :=
  let r := st.normalizeDts p
  ({ r.1 with cache := r.1.cache.input r.2 }, r.2)

def writerMediaPacket (fails : Nat → MediaPacket → Bool) (s : StreamKey) (p : MediaPacket) : StreamKey :=
  let s := s.addPublisher
  match s.stream with
  | none => s
  | some st =>
    let r := fed st p
    let t := r.1.writers.foldl (fanOut fails r.1.cache r.2) (s.entered r.1, [])
    t.2.foldl (removePlayer writerId) t.1

end

end StreamKey

inductive StreamOp where
  | addPlayer (w : Nat) (fails : Nat → MediaPacket → Bool)
  | removePlayer (w : Nat)
  | addPublisher
  | removePublisher
  | claim (owner : Name) (now : Int)
  | release (owner : Name)
  | packet (p : MediaPacket) (fails : Nat → MediaPacket → Bool)
  | setCatalog (owner : Name) (json : List Byte)

def StreamKey.step (writerId : Nat → Name) (s : StreamKey) : StreamOp → StreamKey
  | .addPlayer w fails => s.addPlayer writerId fails w
  | .removePlayer w => s.removePlayer writerId w
  | .addPublisher => s.addPublisher
  | .removePublisher => s.removePublisher
  | .claim owner now => (s.claimPublisher owner now).1
  | .release owner => (s.releasePublisher owner).1
  | .packet p fails => s.writerMediaPacket writerId fails p
  | .setCatalog owner json => (s.setCatalogJson owner json).1

def StreamKey.run (writerId : Nat → Name) (s : StreamKey) (ops : List StreamOp) : StreamKey :=
  ops.foldl (StreamKey.step writerId) s

end MoqLiveCast
