import MoqLiveCast.Moq.Vi64
/-!
# PushParse — what the MoQ push ingest reads (`moq_push.cpp`)

The parsers of control messages, SUBGROUP headers and objects, each over the bytes buffered so far.  A pointer into them
is an offset.
-/
namespace MoqLiveCast

open Scanner

/-- Why a call does not return: the standard library throws, a byte behind the buffer is read, or a loop has no end. -/
inductive PushStop where
  | thrown | overread | endless
deriving DecidableEq

abbrev PushScan := Scanner Byte PushStop

def kMoqtSetup : BitVec 64 := 0x2f00
def kMoqtPublish : BitVec 64 := 0x1d
def kMoqtSubscribe : BitVec 64 := 0x03
def kMoqtGoaway : BitVec 64 := 0x10
def kLocTimescale : BitVec 64 := 0x08
def kLocFrameMark : BitVec 64 := 0x09
def kLocVideoConfig : BitVec 64 := 0x0d
def kLocCompositionTime : BitVec 64 := 0x0e
def kLocAudioConfig : BitVec 64 := 0x0f
def kLocTimestamp : BitVec 64 := 0x10
def kAliasVideo : BitVec 64 := 1
def kAliasAudio : BitVec 64 := 2

def readBytes (n : BitVec 64) : PushScan Nat := Scanner.take n.toNat

/-- `PTRDIFF_MAX`: a longer string or vector is not made. -/
def maxSize : Nat := 9223372036854775807

def bytesOf (v n : Nat) : PushScan (List Byte) := span .overread v n

def copyBytes (v n : Nat) : PushScan (List Byte) := if maxSize < n then stop .thrown else bytesOf v n

def firstOf (v : Nat) : PushScan Byte := do
  let bytes ← bytesOf v 1
  return bytes.headD 0

def moqReadU16 : PushScan Nat := fun p c =>
  if p.length < c.off + 2 then .short c
  else .ok ((p.getD c.off 0).toNat * 256 + (p.getD (c.off + 1) 0).toNat) { c with off := c.off + 2 }

/-! ## Control messages -/

structure ControlMessage where
  type : BitVec 64
  body : List Byte
deriving DecidableEq

def parseControl : PushScan ControlMessage := do
  let type ← moqReadVi64
  let length ← moqReadU16
  let body ← Scanner.take length
  let bytes ← bytesOf body length
  return ⟨type, bytes⟩

/-- The first two fields of a namespace are the app and the stream; those behind them are read and not kept. -/
def parseNamespace : Nat → Nat → List Byte → List Byte → PushScan (List Byte × List Byte)
  | 0, _, app, stream => return (app, stream)
  | left + 1, i, app, stream => do
    let flen ← moqReadVi64
    let f ← readBytes flen
    let field ← copyBytes f flen.toNat
    parseNamespace left (i + 1) (if i = 0 then field else app) (if i = 1 then field else stream)

structure PublishBody where
  requestId : BitVec 64
  app : List Byte
  stream : List Byte
  name : List Byte
  trackAlias : BitVec 64
  nparam : BitVec 64
deriving DecidableEq

def parsePublish : PushScan PublishBody := do
  let requestId ← moqReadVi64
  let nsN ← moqReadVi64
  let (app, stream) ← parseNamespace nsN.toNat 0 [] []
  let nlen ← moqReadVi64
  let namep ← readBytes nlen
  let trackAlias ← moqReadVi64
  let nparam ← moqReadVi64
  let name ← copyBytes namep nlen.toNat
  return ⟨requestId, app, stream, name, trackAlias, nparam⟩

structure SubscribeBody where
  requestId : BitVec 64
  app : List Byte
  stream : List Byte
  name : List Byte
  trackAlias : BitVec 64
deriving DecidableEq

def videoName : List Byte := [0x76, 0x69, 0x64, 0x65, 0x6f]

def audioName : List Byte := [0x61, 0x75, 0x64, 0x69, 0x6f]

def readAlias : PushScan (BitVec 64) := fun b c =>
  match (moqReadVi64 : PushScan (BitVec 64)) b c with
  | .ok trackAlias c' => .ok trackAlias c'
  | .short c' => .ok 0 c'
  | .stop e c' => .stop e c'

def aliasOfName (trackAlias : BitVec 64) (name : List Byte) : BitVec 64 :=
  if trackAlias = 0 then if name = videoName then kAliasVideo else if name = audioName then kAliasAudio else 0 else trackAlias

def parseSubscribe : PushScan SubscribeBody := do
  let requestId ← moqReadVi64
  let nsN ← moqReadVi64
  let (app, stream) ← parseNamespace nsN.toNat 0 [] []
  let nlen ← moqReadVi64
  let namep ← readBytes nlen
  let name ← copyBytes namep nlen.toNat
  let trackAlias ← readAlias
  return ⟨requestId, app, stream, name, aliasOfName trackAlias name⟩

/-! ## Objects -/

structure SubgroupHeader where
  trackAlias : BitVec 64
  group : BitVec 64
  hasProps : Bool
deriving DecidableEq

/-- `if (off >= ss.buf.size()) return false; off += 1;` -/
def skipByte : PushScan Unit := fun b c => if b.length ≤ c.off then .short c else .ok () { c with off := c.off + 1 }

def readSubgroupId (flags : BitVec 64) : PushScan (BitVec 64) := if (flags >>> 1) &&& 3 = 2 then moqReadVi64 else pure 0

def skipPriority (flags : BitVec 64) : PushScan Unit := if flags &&& 0x20 = 0 then skipByte else pure ()

def parseSubgroupHeader : PushScan SubgroupHeader := do
  let flags ← moqReadVi64
  let trackAlias ← moqReadVi64
  let group ← moqReadVi64
  let _ ← readSubgroupId flags
  skipPriority flags
  return ⟨trackAlias, group, flags &&& 1 ≠ 0⟩

/-- What the properties say so far; the config is where its bytes are, and how many. -/
structure LocProps where
  tsMs : BitVec 64 := 0
  ctsMs : BitVec 64 := 0
  key : Bool := false
  cfg : Nat := 0
  cfgLen : Nat := 0
deriving DecidableEq

def LocProps.number (o : LocProps) (type val : BitVec 64) : LocProps :=
  { o with
    tsMs := if type = kLocTimestamp then val else o.tsMs
    ctsMs := if type = kLocCompositionTime then val else o.ctsMs }

/-- One of an odd type is `vlen` bytes; `mark` is the first one of a frame mark. -/
def LocProps.bytes (o : LocProps) (type : BitVec 64) (v vlen : Nat) (mark : Byte) : LocProps :=
  let config := type = kLocVideoConfig ∨ type = kLocAudioConfig
  { o with
    key := o.key || (mark &&& 1 ≠ 0)
    cfg := if config then v else o.cfg
    cfgLen := if config then vlen else o.cfgLen }

/-- `if (type == kLocFrameMark && vlen > 0 && (v[0] & 0x01))`, as far as the byte goes. -/
def frameMark (type vlen : BitVec 64) (v : Nat) : PushScan Byte :=
  if type = kLocFrameMark ∧ vlen ≠ 0 then firstOf v else pure 0

def parseProps (pend : Nat) : Nat → BitVec 64 → LocProps → PushScan LocProps
  | 0, _, _ => stop .endless
  | turns + 1, prev, o => do
    let off ← pos
    if off < pend then
      let dlt ← moqReadVi64
      let type := prev + dlt
      if type &&& 1 = 0 then
        let val ← moqReadVi64
        parseProps pend turns type (o.number type val)
      else
        let vlen ← moqReadVi64
        let v ← readBytes vlen
        let mark ← frameMark type vlen v
        parseProps pend turns type (o.bytes type v vlen.toNat mark)
    else return o

/-- What a turn does depends on the offset and the last type alone, so the loop never ends if it makes more turns than
there are such pairs. -/
def propTurns (pend : Nat) : Nat := pend * wordSize + 1

def parsePropBlock : PushScan LocProps := do
  let plen ← moqReadVi64
  let pend ← blockEnd plen.toNat
  let o ← parseProps pend (propTurns pend) 0 {}
  let off ← pos
  if pend < off then short
  else
    seek pend
    return o

structure LocObject where
  tsMs : BitVec 64
  ctsMs : BitVec 64
  key : Bool
  cfg : List Byte
  payload : List Byte
deriving DecidableEq

def readProps (hasProps : Bool) : PushScan LocProps := if hasProps then parsePropBlock else pure {}

/-- `if (cfg && cfg_len) cfg_copy.assign(cfg, cfg + cfg_len);` -/
def copyConfig (o : LocProps) : PushScan (List Byte) := if o.cfgLen = 0 then pure [] else copyBytes o.cfg o.cfgLen

def parseObject (hasProps : Bool) : PushScan (BitVec 64 × Option LocObject) := do
  let delta ← moqReadVi64
  let o ← readProps hasProps
  let payloadLen ← moqReadVi64
  if payloadLen = 0 then
    let _ ← moqReadVi64
    return (delta, none)
  else
    let payload ← readBytes payloadLen
    let cfg ← copyConfig o
    let pay ← copyBytes payload payloadLen.toNat
    return (delta, some ⟨o.tsMs, o.ctsMs, o.key, cfg, pay⟩)

/-! ## What the push ingest cuts out of its buffer

Each parser stays in the buffer as long as no length it comes to wraps around with the offset behind it. -/

open Scanner

/-- The parsers that cut out parts of a buffer by a length in it. -/
inductive PushParser where
  | publish | subscribe | control | subgroupHeader | object (hasProps : Bool)
deriving DecidableEq

def PushParser.lengths (p : PushParser) (b : List Byte) : List (Nat × Nat) :=
  match p with
  | .publish => (parsePublish b ⟨0, []⟩).cursor.tests
  | .subscribe => (parseSubscribe b ⟨0, []⟩).cursor.tests
  | .control => (parseControl b ⟨0, []⟩).cursor.tests
  | .subgroupHeader => (parseSubgroupHeader b ⟨0, []⟩).cursor.tests
  | .object hasProps => (parseObject hasProps b ⟨0, []⟩).cursor.tests

def PushParser.slices (p : PushParser) (b : List Byte) : List (Nat × Nat) := accepted b (p.lengths b)

variable {b : List Byte}

theorem toNat_lt_wordSize (v : BitVec 64) : v.toNat < wordSize := v.isLt

theorem keeps_readBytes (n : BitVec 64) : Keeps b (Within b) (fun v => v ≤ b.length) (readBytes n) :=
  keeps_take (toNat_lt_wordSize n)

theorem keeps_bytesOf (v n : Nat) : Keeps b (Within b) (fun _ => True) (bytesOf v n) := keeps_span _ v n

theorem keeps_copyBytes (v n : Nat) : Keeps b (Within b) (fun _ => True) (copyBytes v n) := by
  apply Keeps.ite
  · exact fun _ => Keeps.stop _
  · exact fun _ => keeps_bytesOf v n

theorem keeps_frameMark (type vlen : BitVec 64) (v : Nat) : Keeps b (Within b) (fun _ => True) (frameMark type vlen v) := by
  apply Keeps.ite
  · exact fun _ => (keeps_bytesOf v 1).bind fun _ _ => Keeps.pure trivial
  · exact fun _ => Keeps.pure trivial

theorem keeps_readU16 : Keeps b (Within b) (fun n => n < wordSize) moqReadU16 := by
  intro c hc
  unfold moqReadU16
  split
  · exact ⟨hc, fun _ _ he => by cases he⟩
  · refine ⟨⟨by simp only [Answer.cursor]; omega, hc.2⟩, fun a c' he => ?_⟩
    have h1 := (b.getD c.off 0).isLt
    have h2 := (b.getD (c.off + 1) 0).isLt
    cases he
    unfold wordSize
    omega

theorem keeps_skipByte : Keeps b (Within b) (fun _ => True) skipByte := by
  intro c hc
  unfold skipByte
  split
  · exact ⟨hc, fun _ _ _ => trivial⟩
  · exact ⟨⟨by simp only [Answer.cursor]; omega, hc.2⟩, fun _ _ _ => trivial⟩

theorem keeps_readAlias : Keeps b (Within b) (fun _ => True) readAlias := by
  intro c hc
  have h := (keeps_vi64 (ε := PushStop) (b := b) c hc).1
  unfold readAlias
  cases hr : (moqReadVi64 : PushScan (BitVec 64)) b c with
  | ok v c' => rw [hr] at h; exact ⟨h, fun _ _ _ => trivial⟩
  | short c' => rw [hr] at h; exact ⟨h, fun _ _ _ => trivial⟩
  | stop e c' => rw [hr] at h; exact ⟨h, fun _ _ _ => trivial⟩

/-! ## The parsers -/

theorem keeps_parseNamespace : ∀ (left i : Nat) (app stream : List Byte),
    Keeps b (Within b) (fun _ => True) (parseNamespace left i app stream)
  | 0, _, _, _ => Keeps.pure trivial
  | left + 1, i, _, _ =>
    keeps_vi64.bind fun flen _ => (keeps_readBytes flen).bind fun f _ => (keeps_copyBytes f _).bind fun _ _ =>
      keeps_parseNamespace left (i + 1) _ _

theorem keeps_parsePublish : Keeps b (Within b) (fun _ => True) parsePublish :=
  keeps_vi64.bind fun _ _ => keeps_vi64.bind fun _ _ => (keeps_parseNamespace _ _ _ _).bind fun (_, _) _ =>
    keeps_vi64.bind fun nlen _ => (keeps_readBytes nlen).bind fun _ _ => keeps_vi64.bind fun _ _ =>
      keeps_vi64.bind fun _ _ => (keeps_copyBytes _ _).bind fun _ _ => Keeps.pure trivial

theorem keeps_parseSubscribe : Keeps b (Within b) (fun _ => True) parseSubscribe :=
  keeps_vi64.bind fun _ _ => keeps_vi64.bind fun _ _ => (keeps_parseNamespace _ _ _ _).bind fun (_, _) _ =>
    keeps_vi64.bind fun nlen _ => (keeps_readBytes nlen).bind fun _ _ => (keeps_copyBytes _ _).bind fun _ _ =>
      keeps_readAlias.bind fun _ _ => Keeps.pure trivial

theorem keeps_parseControl : Keeps b (Within b) (fun _ => True) parseControl :=
  keeps_vi64.bind fun _ _ => keeps_readU16.bind fun _ hlen => (keeps_take hlen).bind fun _ _ =>
    (keeps_bytesOf _ _).bind fun _ _ => Keeps.pure trivial

theorem keeps_parseSubgroupHeader : Keeps b (Within b) (fun _ => True) parseSubgroupHeader :=
  keeps_vi64.bind fun _ _ => keeps_vi64.bind fun _ _ => keeps_vi64.bind fun _ _ =>
    Keeps.bind (P := fun _ => True) (Keeps.ite (fun _ => keeps_vi64) fun _ => Keeps.pure trivial) fun _ _ =>
      Keeps.bind (P := fun _ => True) (Keeps.ite (fun _ => keeps_skipByte) fun _ => Keeps.pure trivial) fun _ _ =>
        Keeps.pure trivial

theorem keeps_parseProps (pend : Nat) : ∀ (turns : Nat) (prev : BitVec 64) (o : LocProps),
    Keeps b (Within b) (fun _ => True) (parseProps pend turns prev o)
  | 0, _, _ => Keeps.stop _
  | turns + 1, _, _ => by
    apply keeps_pos.bind
    intro off _
    apply Keeps.ite
    · intro _
      apply keeps_vi64.bind
      intro dlt _
      apply Keeps.ite
      · exact fun _ => keeps_vi64.bind fun _ _ => keeps_parseProps pend turns _ _
      · exact fun _ => keeps_vi64.bind fun vlen _ => (keeps_readBytes vlen).bind fun _ _ =>
          (keeps_frameMark _ _ _).bind fun _ _ => keeps_parseProps pend turns _ _
    · exact fun _ => Keeps.pure trivial

theorem keeps_parsePropBlock : Keeps b (Within b) (fun _ => True) parsePropBlock := by
  apply keeps_vi64.bind
  intro plen _
  apply (keeps_blockEnd (toNat_lt_wordSize plen)).bind
  intro pend hpend
  apply (keeps_parseProps pend _ _ _).bind
  intro o _
  apply keeps_pos.bind
  intro off _
  apply Keeps.ite
  · exact fun _ => Keeps.short
  · exact fun _ => (keeps_seek hpend).bind fun _ _ => Keeps.pure trivial

theorem keeps_readProps (hasProps : Bool) : Keeps b (Within b) (fun _ => True) (readProps hasProps) :=
  Keeps.ite (fun _ => keeps_parsePropBlock) fun _ => Keeps.pure trivial

theorem keeps_copyConfig (o : LocProps) : Keeps b (Within b) (fun _ => True) (copyConfig o) :=
  Keeps.ite (fun _ => Keeps.pure trivial) fun _ => keeps_copyBytes _ _

theorem keeps_parseObject (hasProps : Bool) : Keeps b (Within b) (fun _ => True) (parseObject hasProps) := by
  apply keeps_vi64.bind
  intro delta _
  apply (keeps_readProps hasProps).bind
  intro o _
  apply keeps_vi64.bind
  intro payloadLen _
  apply Keeps.ite
  · exact fun _ => keeps_vi64.bind fun _ _ => Keeps.pure trivial
  · exact fun _ => (keeps_readBytes payloadLen).bind fun _ _ => (keeps_copyConfig o).bind fun _ _ =>
      (keeps_copyBytes _ _).bind fun _ _ => Keeps.pure trivial

theorem PushParser.lengths_within (p : PushParser) (b : List Byte) : ∀ t ∈ p.lengths b, t.1 ≤ b.length ∧ t.2 < wordSize := by
  cases p with
  | publish => exact (keeps_parsePublish _ (within_start b)).1.2
  | subscribe => exact (keeps_parseSubscribe _ (within_start b)).1.2
  | control => exact (keeps_parseControl _ (within_start b)).1.2
  | subgroupHeader => exact (keeps_parseSubgroupHeader _ (within_start b)).1.2
  | object hasProps => exact (keeps_parseObject hasProps _ (within_start b)).1.2

/-- **A parser stays in the buffer exactly when no length it comes to reaches `2^64` with the offset behind it.** -/
theorem push_slices_within_iff (p : PushParser) (b : List Byte) (hb : b.length < wordSize) :
    (∀ s ∈ p.slices b, s.1 + s.2 ≤ b.length) ↔ ∀ s ∈ p.lengths b, s.1 + s.2 < wordSize :=
  Within.accepted_iff (c := ⟨0, p.lengths b⟩) ⟨Nat.zero_le _, p.lengths_within b⟩ hb

/-- The body of a PUBLISH whose first namespace field claims `2^64 - 11` bytes. -/
def wrappingPublish : List Byte := [0x00, 0x01, 0xff, 0xff, 0xff, 0xff, 0xff, 0xff, 0xff, 0xff, 0xf5]

theorem wrappingPublish_leaves : ¬ ∀ s ∈ PushParser.publish.slices wrappingPublish, s.1 + s.2 ≤ wrappingPublish.length := by
  decide +kernel

theorem push_slices_within_iff_wrappingPublish : (∀ s ∈ PushParser.publish.slices wrappingPublish,
    s.1 + s.2 ≤ wrappingPublish.length) ↔ ∀ s ∈ PushParser.publish.lengths wrappingPublish, s.1 + s.2 < wordSize :=
  push_slices_within_iff .publish wrappingPublish (by decide)

end MoqLiveCast
