import MoqLiveCast.Moq.ClientWire
/-!
# ClientRead — a stream the C client subscribed to (`sub_parse_stream`)

The stream is the client's `rx` buffer, taken apart from its front.  Malformed properties empty the buffer.  A part that
`get_bytes` lets through is a pointer and a length; where it leaves the buffer and is looked at, a byte behind it is read.
-/
namespace MoqLiveCast

open Scanner

/-- Why `parse_object` gives up (the call then goes on), or why a call does not return. -/
inductive SubStop where
  | malformed | overread | endless
deriving DecidableEq

abbrev SubScan := Scanner Byte SubStop

def getBytes (n : BitVec 64) : SubScan Nat := Scanner.take n.toNat

/-- The properties of an `obj_t`; a configuration is where its bytes are, and how many. -/
structure SubProps where
  dts : BitVec 64 := 0
  cts : BitVec 64 := 0
  key : Bool := false
  vcfg : Nat := 0
  vcfgLen : Nat := 0
  acfg : Nat := 0
  acfgLen : Nat := 0
deriving DecidableEq

def SubProps.number (o : SubProps) (type v : BitVec 64) : SubProps :=
  { o with
    dts := if type = kLocTimestamp then v else o.dts
    cts := if type = kLocCompositionTime then v else o.cts }

def SubProps.bytes (o : SubProps) (type : BitVec 64) (raw n : Nat) (mark : Byte) : SubProps :=
  { o with
    key := o.key || (mark &&& 1 ≠ 0)
    vcfg := if type = kLocVideoConfig then raw else o.vcfg
    vcfgLen := if type = kLocVideoConfig then n else o.vcfgLen
    acfg := if type = kLocAudioConfig then raw else o.acfg
    acfgLen := if type = kLocAudioConfig then n else o.acfgLen }

def rawFirst (v : Nat) : SubScan Byte := do
  let bytes ← span .overread v 1
  return bytes.headD 0

/-- `if (n > 0 && (raw[0] & 1))` of a frame mark, as far as the byte goes. -/
def subFrameMark (type n : BitVec 64) (raw : Nat) : SubScan Byte :=
  if type = kLocFrameMark ∧ n ≠ 0 then rawFirst raw else pure 0

/-- `parse_props`, over the block's own bytes; too little in it is malformed. -/
def parseSubProps (len : Nat) : Nat → BitVec 64 → SubProps → SubScan SubProps
  | 0, _, _ => stop .endless
  | turns + 1, prev, o => do
    let off ← pos
    if off < len then
      let delta ← getVi64
      let type := prev + delta
      if type &&& 1 = 0 then
        let v ← getVi64
        parseSubProps len turns type (o.number type v)
      else
        let n ← getVi64
        let raw ← getBytes n
        let mark ← subFrameMark type n raw
        parseSubProps len turns type (o.bytes type raw n.toNat mark)
    else return o

def inBlock {α : Type} (v n : Nat) (m : SubScan α) : SubScan α := fun b c =>
  if b.length < v + n then .stop .overread c
  else match m ((b.drop v).take n) ⟨0, []⟩ with
    | .ok a _ => .ok a c
    | .short _ => .stop .malformed c
    | .stop e _ => .stop e c

/-- An `obj_t`: its properties with where their block begins, and where its payload is. -/
structure SubObject where
  block : Nat
  props : SubProps
  payload : Nat
  payloadLen : Nat
deriving DecidableEq

def readSubProps (hasProps : Bool) : SubScan (Nat × SubProps) :=
  if hasProps then do
    let plen ← getVi64
    let props ← getBytes plen
    let o ← inBlock props plen.toNat (parseSubProps plen.toNat (propTurns plen.toNat) 0 {})
    return (props, o)
  else pure (0, {})

def parseSubObject (hasProps : Bool) : SubScan SubObject := do
  let _ ← getVi64
  let (block, o) ← readSubProps hasProps
  let payloadLen ← getVi64
  if payloadLen = 0 then
    let _ ← getVi64
    return ⟨block, o, 0, 0⟩
  else
    let payload ← getBytes payloadLen
    return ⟨block, o, payload, payloadLen.toNat⟩

def getSubgroupId (flags : BitVec 64) : SubScan (BitVec 64) := if (flags >>> 1) &&& 3 = 2 then getVi64 else pure 0

def passByte : SubScan Unit := fun b c => if b.length ≤ c.off then .short c else .ok () { c with off := c.off + 1 }

def passPriority (flags : BitVec 64) : SubScan Unit := if flags &&& 0x20 = 0 then passByte else pure ()

def parseSubgroup : SubScan SubgroupHeader := do
  let flags ← getVi64
  let trackAlias ← getVi64
  let group ← getVi64
  let _ ← getSubgroupId flags
  passPriority flags
  return ⟨trackAlias, group, flags &&& 1 ≠ 0⟩

/-! ## A stream -/

/-- `malloc` and `memcpy`; there is no memory for more than `PTRDIFF_MAX` bytes, and then nothing is copied. -/
def copyOut (v n : Nat) : SubScan (Option (List Byte)) :=
  if n = 0 ∨ maxSize < n then pure none else do
    let bytes ← span .overread v n
    return some bytes

def newConfig (o : SubObject) : SubScan (Option (List Byte)) :=
  if o.props.vcfgLen ≠ 0 then copyOut (o.block + o.props.vcfg) o.props.vcfgLen
  else copyOut (o.block + o.props.acfg) o.props.acfgLen

/-- An object on a track of media: what it does to the configuration, and what `on_data` is handed. -/
structure SubFrame where
  props : SubProps
  config : Option (List Byte)
  payload : List Byte
deriving DecidableEq

def readFrame (hasProps : Bool) : SubScan SubFrame := do
  let o ← parseSubObject hasProps
  let config ← newConfig o
  let payload ← span .overread o.payload o.payloadLen
  return ⟨o.props, config, payload⟩

structure SubStream where
  headerDone : Bool := false
  hasProps : Bool := false
  group : BitVec 64 := 0
  trackAlias : BitVec 64 := 0
  codec : MoqtCodec := .h264
  announced : Bool := false
  config : List Byte := []
deriving DecidableEq

/-- What the application is told: that the track is there, or a frame, with the configuration it finds at the stream. -/
inductive SubEvent where
  | ready (codec : MoqtCodec) (config : List Byte)
  | data (config payload : List Byte) (dts pts : BitVec 64) (key : Bool)
deriving DecidableEq

def codecOf (trackAlias : BitVec 64) (codec : MoqtCodec) : MoqtCodec :=
  if trackAlias = kAliasVideo then .h264 else if trackAlias = kAliasAudio then .aac else codec

def SubStream.sawHeader (s : SubStream) (h : SubgroupHeader) : SubStream :=
  { s with
    headerDone := true, hasProps := h.hasProps, group := h.group, trackAlias := h.trackAlias
    codec := codecOf h.trackAlias s.codec }

def SubStream.sawFrame (s : SubStream) (f : SubFrame) : SubStream :=
  { s with announced := true, config := f.config.getD s.config }

def SubStream.frameEvents (s : SubStream) (f : SubFrame) : List SubEvent :=
  let config := f.config.getD s.config
  (if s.announced then [] else [.ready s.codec config]) ++
    if f.payload ≠ [] then [.data config f.payload f.props.dts (f.props.dts + f.props.cts) f.props.key] else []

/-- A turn of one parser.  An object of which nothing is taken is parsed for ever. -/
def subScan {α : Type} (s : SubStream) (m : SubScan α) (f : α → SubStream × List SubEvent) (rx : List Byte) :
    Turn SubStream SubEvent SubStop :=
  match m rx ⟨0, []⟩ with
  | .short _ => .wait s
  | .stop .malformed _ => .drop s
  | .stop e _ => .halt s e []
  | .ok a c => if c.off = 0 then .halt (f a).1 .endless (f a).2 else .take (f a).1 c.off (f a).2

/-- One turn of `sub_parse_stream`.  A track that is neither video nor audio is parsed for nothing. -/
def subTurn (s : SubStream) (rx : List Byte) : Turn SubStream SubEvent SubStop :=
  if s.headerDone = false then subScan s parseSubgroup (fun h => (s.sawHeader h, [])) rx
  else if s.trackAlias ≠ kAliasVideo ∧ s.trackAlias ≠ kAliasAudio then
    subScan s (parseSubObject s.hasProps) (fun _ => (s, [])) rx
  else subScan s (readFrame s.hasProps) (fun f => (s.sawFrame f, s.frameEvents f)) rx

abbrev SubRun := Fed SubStream Byte SubEvent SubStop

def SubRun.init : SubRun := ⟨{}, [], [], none⟩

def subOnIncoming (r : SubRun) (data : List Byte) : SubRun := feed subTurn .endless r data

/-! ## The turns are steady -/

def SubUndefined (e : SubStop) : Prop := e = .overread

theorem subUndefined_overread : SubUndefined .overread := rfl

theorem steady_getVi64 : Steady SubUndefined (getVi64 : SubScan (BitVec 64)) := getVi64_eq (ε := SubStop) ▸ steady_vi64 _

theorem steady_inBlock {α : Type} (v n : Nat) (m : SubScan α) : Steady SubUndefined (inBlock v n m) where
  answers {b c a c'} x h := by
    unfold inBlock at h ⊢
    split at h
    · cases h
    · rw [if_neg (by rw [List.length_append]; omega), List.drop_append_of_le_length (by omega),
        List.take_append_of_le_length (by rw [List.length_drop]; omega)]
      exact h
  ends {b c e c'} x h he := by
    unfold inBlock at h ⊢
    split at h
    · cases h
      exact absurd subUndefined_overread he
    · rw [if_neg (by rw [List.length_append]; omega), List.drop_append_of_le_length (by omega),
        List.take_append_of_le_length (by rw [List.length_drop]; omega)]
      exact h

theorem steady_readSubProps (hasProps : Bool) : Steady SubUndefined (readSubProps hasProps) :=
  Steady.ite (steady_getVi64.bind fun _ => (Steady.take _).bind fun _ => (steady_inBlock _ _ _).bind fun _ => Steady.pure _)
    (Steady.pure _)

theorem steady_parseSubObject (hasProps : Bool) : Steady SubUndefined (parseSubObject hasProps) :=
  steady_getVi64.bind fun _ => (steady_readSubProps hasProps).bind fun (_, _) => steady_getVi64.bind fun _ =>
    Steady.ite (steady_getVi64.bind fun _ => Steady.pure _) ((Steady.take _).bind fun _ => Steady.pure _)

theorem steady_passByte : Steady SubUndefined passByte where
  answers {b c a c'} x h := by
    unfold passByte at h ⊢
    split at h
    · cases h
    · rw [if_neg (by rw [List.length_append]; omega)]
      exact h
  ends {b c e c'} x h _ := by
    unfold passByte at h
    split at h <;> cases h

theorem steady_parseSubgroup : Steady SubUndefined parseSubgroup :=
  steady_getVi64.bind fun _ => steady_getVi64.bind fun _ => steady_getVi64.bind fun _ =>
    (Steady.ite steady_getVi64 (Steady.pure _)).bind fun _ => (Steady.ite steady_passByte (Steady.pure _)).bind fun _ =>
      Steady.pure _

theorem steady_copyOut (v n : Nat) : Steady SubUndefined (copyOut v n) :=
  Steady.ite (Steady.pure _) ((Steady.span subUndefined_overread v n).bind fun _ => Steady.pure _)

theorem steady_readFrame (hasProps : Bool) : Steady SubUndefined (readFrame hasProps) :=
  (steady_parseSubObject hasProps).bind fun _ => (Steady.ite (steady_copyOut _ _) (steady_copyOut _ _)).bind fun _ =>
    (Steady.span subUndefined_overread _ _).bind fun _ => Steady.pure _

/-! ## The offset stays in the buffer -/

section Keeps

variable {b : List Byte}

theorem keeps_getVi64 : Keeps b (Within b) (fun _ => True) (getVi64 : SubScan (BitVec 64)) :=
  getVi64_eq (ε := SubStop) ▸ keeps_vi64

theorem keeps_getBytes (n : BitVec 64) : Keeps b (Within b) (fun v => v ≤ b.length) (getBytes n) :=
  keeps_take (toNat_lt_wordSize n)

theorem keeps_inBlock {α : Type} (v n : Nat) (m : SubScan α) : Keeps b (Within b) (fun _ => True) (inBlock v n m) := by
  intro c hc
  refine ⟨?_, fun _ _ _ => trivial⟩
  unfold inBlock
  split
  · exact hc
  · split <;> exact hc

theorem keeps_readSubProps (hasProps : Bool) : Keeps b (Within b) (fun _ => True) (readSubProps hasProps) :=
  Keeps.ite (fun _ => keeps_getVi64.bind fun plen _ => (keeps_getBytes plen).bind fun _ _ =>
    (keeps_inBlock _ _ _).bind fun _ _ => Keeps.pure trivial) fun _ => Keeps.pure trivial

theorem keeps_parseSubObject (hasProps : Bool) : Keeps b (Within b) (fun _ => True) (parseSubObject hasProps) :=
  keeps_getVi64.bind fun _ _ => (keeps_readSubProps hasProps).bind fun (_, _) _ => keeps_getVi64.bind fun payloadLen _ =>
    Keeps.ite (fun _ => keeps_getVi64.bind fun _ _ => Keeps.pure trivial)
      fun _ => (keeps_getBytes payloadLen).bind fun _ _ => Keeps.pure trivial

theorem keeps_passByte : Keeps b (Within b) (fun _ => True) passByte := by
  intro c hc
  unfold passByte
  split
  · exact ⟨hc, fun _ _ _ => trivial⟩
  · exact ⟨⟨by simp only [Answer.cursor]; omega, hc.2⟩, fun _ _ _ => trivial⟩

theorem keeps_parseSubgroup : Keeps b (Within b) (fun _ => True) parseSubgroup :=
  keeps_getVi64.bind fun _ _ => keeps_getVi64.bind fun _ _ => keeps_getVi64.bind fun _ _ =>
    Keeps.bind (P := fun _ => True) (Keeps.ite (fun _ => keeps_getVi64) fun _ => Keeps.pure trivial) fun _ _ =>
      Keeps.bind (P := fun _ => True) (Keeps.ite (fun _ => keeps_passByte) fun _ => Keeps.pure trivial) fun _ _ =>
        Keeps.pure trivial

theorem keeps_copyOut (v n : Nat) : Keeps b (Within b) (fun _ => True) (copyOut v n) :=
  Keeps.ite (fun _ => Keeps.pure trivial) fun _ => (keeps_span _ v n).bind fun _ _ => Keeps.pure trivial

theorem keeps_readFrame (hasProps : Bool) : Keeps b (Within b) (fun _ => True) (readFrame hasProps) :=
  (keeps_parseSubObject hasProps).bind fun _ _ =>
    Keeps.bind (P := fun _ => True) (Keeps.ite (fun _ => keeps_copyOut _ _) fun _ => keeps_copyOut _ _) fun _ _ =>
      (keeps_span _ _ _).bind fun _ _ => Keeps.pure trivial

end Keeps

section SubScan

variable {α : Type} {s : SubStream} {m : SubScan α} {f : α → SubStream × List SubEvent} {b : List Byte}

theorem subScan_wait {s' : SubStream} (h : subScan s m f b = .wait s') : s' = s := by
  unfold subScan at h
  split at h
  · cases h; rfl
  · cases h
  · cases h
  · split at h <;> cases h

theorem subScan_append (hm : Steady SubUndefined m) {t : Turn SubStream SubEvent SubStop} (x : List Byte) (h : subScan s m f b =
    t) (hwait : ∀ s, t ≠ .wait s) (hund : ∀ s e out, t = .halt s e out → ¬ SubUndefined e) : subScan s m f (b ++ x) = t := by
  cases hr : m b ⟨0, []⟩ with
  | short c =>
    simp only [subScan, hr] at h
    exact absurd h.symm (hwait s)
  | ok a c => simpa only [subScan, hr, hm.answers x hr] using h
  | stop e c =>
    cases e with
    | malformed => simpa only [subScan, hr, hm.ends x hr (by simp [SubUndefined])] using h
    | endless => simpa only [subScan, hr, hm.ends x hr (by simp [SubUndefined])] using h
    | overread =>
      simp only [subScan, hr] at h
      exact absurd subUndefined_overread (hund _ _ _ h.symm)

theorem subScan_take (hm : Keeps b (Within b) (fun _ => True) m) {s' : SubStream} {n : Nat} {out : List SubEvent}
    (h : subScan s m f b = .take s' n out) : 0 < n ∧ n ≤ b.length := by
  have hin := (hm _ (within_start b)).1.1
  unfold subScan at h
  split at h
  · cases h
  · cases h
  · cases h
  · rename_i a c hr
    rw [hr] at hin
    split at h
    · cases h
    · cases h
      exact ⟨by omega, hin⟩

end SubScan

theorem subTurn_elim {P : (List Byte → Turn SubStream SubEvent SubStop) → Prop} (s : SubStream)
    (hheader : P (subScan s parseSubgroup fun h => (s.sawHeader h, [])))
    (hskip : P (subScan s (parseSubObject s.hasProps) fun _ => (s, [])))
    (hframe : P (subScan s (readFrame s.hasProps) fun f => (s.sawFrame f, s.frameEvents f))) : P (subTurn s) := by
  have heq : subTurn s = if s.headerDone = false then subScan s parseSubgroup fun h => (s.sawHeader h, [])
      else if s.trackAlias ≠ kAliasVideo ∧ s.trackAlias ≠ kAliasAudio then
        subScan s (parseSubObject s.hasProps) fun _ => (s, [])
      else subScan s (readFrame s.hasProps) fun f => (s.sawFrame f, s.frameEvents f) := by
    funext rx
    unfold subTurn
    split
    · rfl
    · split <;> rfl
  rw [heq]
  split
  · exact hheader
  · split
    · exact hskip
    · exact hframe

theorem subTurn_append {s : SubStream} {b : List Byte} {t : Turn SubStream SubEvent SubStop} (x : List Byte)
    (hwait : ∀ s, t ≠ .wait s) (hund : ∀ s e out, t = .halt s e out → ¬ SubUndefined e) :
    subTurn s b = t → subTurn s (b ++ x) = t :=
  subTurn_elim (P := fun turn => turn b = t → turn (b ++ x) = t) s
    (fun h => subScan_append steady_parseSubgroup x h hwait hund)
    (fun h => subScan_append (steady_parseSubObject _) x h hwait hund)
    (fun h => subScan_append (steady_readFrame _) x h hwait hund)

theorem subTurn_steady : SteadyTurns subTurn SubUndefined wordSize where
  wait {s b s'} x h := by
    have hs : s' = s := subTurn_elim (P := fun turn => turn b = .wait s' → s' = s) s subScan_wait subScan_wait subScan_wait h
    rw [hs]
  take x h := subTurn_append x (fun _ he => by cases he) (fun _ _ _ he => by cases he) h
  halt x h he := subTurn_append x (fun _ he => by cases he) (fun _ _ _ heq => by cases heq; exact he) h
  moves {s b s' n out} _ h :=
    subTurn_elim (P := fun turn => turn b = .take s' n out → 0 < n ∧ n ≤ b.length) s (subScan_take keeps_parseSubgroup)
      (subScan_take (keeps_parseSubObject _)) (subScan_take (keeps_readFrame _)) h

end MoqLiveCast
