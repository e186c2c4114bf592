import MoqLiveCast.Lib.Feed
import MoqLiveCast.Moq.PushParse
/-!
# PushFeed — a stream of the push ingest, chunk by chunk (`OnData`, `Pump`)

The first integer of a stream tells what kind it is.  The parsers change their mind about nothing they have answered, so
a stream of a kind that is known is heard the same however it is cut.  A stream of no kind has its buffer cleared and is
asked for its kind again with the next chunk.
-/
namespace MoqLiveCast

open List

open Scanner

/-- `unknown` is a stream whose first integer is not there yet, or was of no kind. -/
inductive StreamKind where
  | unknown | control | request | data
deriving DecidableEq

structure StreamState where
  kind : StreamKind := .unknown
  headerDone : Bool := false
  hasProps : Bool := false
  trackAlias : BitVec 64 := 0
  lastObj : BitVec 64 := 0
  lastObjSet : Bool := false
deriving DecidableEq

/-- What a stream is heard to say: a control message, a SUBGROUP header, or an object for `OnLocObject`. -/
inductive PushEvent where
  | control (m : ControlMessage)
  | subgroup (h : SubgroupHeader)
  | object (trackAlias : BitVec 64) (o : LocObject)
deriving DecidableEq

/-- SETUP and GOAWAY are for the control stream, PUBLISH and SUBSCRIBE each for a stream of its own. -/
def kindOfType (type : BitVec 64) : Option StreamKind :=
  if type = kMoqtSetup ∨ type = kMoqtGoaway then some .control
  else if type = kMoqtPublish ∨ type = kMoqtSubscribe then some .request
  else if type &&& 0x10 ≠ 0 then some .data
  else none

def stopOf {α : Type} : Answer PushStop α → Option PushStop
  | .stop e _ => some e
  | _ => none

def controlStop (m : ControlMessage) : Option PushStop :=
  if m.type = kMoqtPublish then stopOf (parsePublish m.body ⟨0, []⟩)
  else if m.type = kMoqtSubscribe then stopOf (parseSubscribe m.body ⟨0, []⟩)
  else none

def scanTurn {α : Type} (ss : StreamState) (m : PushScan α) (f : α → Cursor → Turn StreamState PushEvent PushStop)
    (buf : List Byte) : Turn StreamState PushEvent PushStop :=
  match m buf ⟨0, []⟩ with
  | .short _ => .wait ss
  | .stop e _ => .halt ss e []
  | .ok a c => f a c

def pumpControl (ss : StreamState) (buf : List Byte) : Turn StreamState PushEvent PushStop :=
  scanTurn ss parseControl (fun m c =>
    match controlStop m with
    | none => .take ss c.off [.control m]
    | some e => .halt ss e [.control m]) buf

def pumpHeader (ss : StreamState) (buf : List Byte) : Turn StreamState PushEvent PushStop :=
  scanTurn ss parseSubgroupHeader (fun h c =>
    .take { ss with hasProps := h.hasProps, trackAlias := h.trackAlias, headerDone := true } c.off [.subgroup h]) buf

def StreamState.sawObject (ss : StreamState) (delta : BitVec 64) (o : Option LocObject) : StreamState :=
  match o with
  | none => ss
  | some _ => { ss with lastObj := if ss.lastObjSet then ss.lastObj + delta + 1 else delta, lastObjSet := true }

def pumpObject (ss : StreamState) (buf : List Byte) : Turn StreamState PushEvent PushStop :=
  scanTurn ss (parseObject ss.hasProps) (fun (delta, o) c =>
    .take (ss.sawObject delta o) c.off (o.toList.map (.object ss.trackAlias))) buf

def pumpKnown (ss : StreamState) (buf : List Byte) : Turn StreamState PushEvent PushStop :=
  if ss.kind = .control ∨ ss.kind = .request then pumpControl ss buf
  else if ss.headerDone = false then pumpHeader ss buf
  else pumpObject ss buf

def pumpTurn (ss : StreamState) (buf : List Byte) : Turn StreamState PushEvent PushStop :=
  if ss.kind = .unknown then
    match (moqReadVi64 : PushScan (BitVec 64)) buf ⟨0, []⟩ with
    | .short _ => .wait ss
    | .stop e _ => .halt ss e []
    | .ok type _ =>
      match kindOfType type with
      | none => .drop ss
      | some kind => pumpKnown { ss with kind := kind } buf
  else pumpKnown ss buf

abbrev PushStream := Fed StreamState Byte PushEvent PushStop

def PushStream.init : PushStream := ⟨{}, [], [], none⟩

def onData (r : PushStream) (chunk : List Byte) : PushStream :=
  if chunk = [] then r else feed pumpTurn .endless r chunk

/-! ## The parsers change their mind about nothing -/

def Undefined (e : PushStop) : Prop := e = .overread

theorem undefined_overread : Undefined .overread := rfl

theorem steady_bytesOf (v n : Nat) : Steady Undefined (bytesOf v n) := Steady.span undefined_overread v n

theorem steady_copyBytes (v n : Nat) : Steady Undefined (copyBytes v n) :=
  Steady.ite (Steady.stop _) (steady_bytesOf v n)

theorem steady_frameMark (type vlen : BitVec 64) (v : Nat) : Steady Undefined (frameMark type vlen v) :=
  Steady.ite ((steady_bytesOf v 1).bind fun _ => Steady.pure _) (Steady.pure _)

theorem steady_readU16 : Steady Undefined moqReadU16 where
  answers {b c a c'} x h := by
    unfold moqReadU16 at h ⊢
    split at h
    · cases h
    · rename_i hlen
      have hget : ∀ i < 2, (b ++ x).getD (c.off + i) 0 = b.getD (c.off + i) 0 := fun i hi => by
        simp [List.getElem?_append_left (show c.off + i < b.length from by omega)]
      rw [if_neg (by rw [length_append]; omega), hget 1 (by decide), show c.off = c.off + 0 from rfl,
        hget 0 (by decide)]
      exact h
  ends {b c e c'} x h _ := by
    unfold moqReadU16 at h
    split at h <;> cases h

theorem steady_skipByte : Steady Undefined skipByte where
  answers {b c a c'} x h := by
    unfold skipByte at h ⊢
    split at h
    · cases h
    · rw [if_neg (by rw [length_append]; omega)]
      exact h
  ends {b c e c'} x h _ := by
    unfold skipByte at h
    split at h <;> cases h

theorem steady_parseControl : Steady Undefined parseControl :=
  (steady_vi64 _).bind fun _ => steady_readU16.bind fun _ => (Steady.take _).bind fun _ =>
    (steady_bytesOf _ _).bind fun _ => Steady.pure _

theorem steady_parseSubgroupHeader : Steady Undefined parseSubgroupHeader :=
  (steady_vi64 _).bind fun _ => (steady_vi64 _).bind fun _ => (steady_vi64 _).bind fun _ =>
    (Steady.ite (steady_vi64 _) (Steady.pure _)).bind fun _ => (Steady.ite steady_skipByte (Steady.pure _)).bind fun _ =>
      Steady.pure _

theorem steady_parseProps (pend : Nat) : ∀ (turns : Nat) (prev : BitVec 64) (o : LocProps),
    Steady Undefined (parseProps pend turns prev o)
  | 0, _, _ => Steady.stop _
  | turns + 1, _, _ => by
    apply Steady.pos.bind
    intro off
    apply Steady.ite
    · apply (steady_vi64 _).bind
      intro dlt
      apply Steady.ite
      · exact (steady_vi64 _).bind fun _ => steady_parseProps pend turns _ _
      · exact (steady_vi64 _).bind fun _ => (Steady.take _).bind fun _ => (steady_frameMark _ _ _).bind fun _ =>
          steady_parseProps pend turns _ _
    · exact Steady.pure _

theorem steady_parsePropBlock : Steady Undefined parsePropBlock :=
  (steady_vi64 _).bind fun _ => (Steady.blockEnd _).bind fun pend => (steady_parseProps pend _ _ _).bind fun _ =>
    Steady.pos.bind fun _ => Steady.ite Steady.short ((Steady.seek _).bind fun _ => Steady.pure _)

theorem steady_parseObject (hasProps : Bool) : Steady Undefined (parseObject hasProps) :=
  (steady_vi64 _).bind fun _ => (Steady.ite steady_parsePropBlock (Steady.pure _)).bind fun _ =>
    (steady_vi64 _).bind fun _ => Steady.ite ((steady_vi64 _).bind fun _ => Steady.pure _)
      ((Steady.take _).bind fun _ => (Steady.ite (Steady.pure _) (steady_copyBytes _ _)).bind fun _ =>
        (steady_copyBytes _ _).bind fun _ => Steady.pure _)

/-! ## Where a stream of the push ingest may be cut -/

open Scanner

variable {b : List Byte}

/-! ## What the parsers take -/

theorem copyBytes_eq_ok {v n : Nat} {c c' : Cursor} {x : List Byte} (h : copyBytes v n b c = .ok x c') :
    v + n ≤ b.length ∧ c' = c ∧ x = (b.drop v).take n := by
  unfold copyBytes at h
  split at h
  · cases h
  · exact span_eq_ok h

theorem copyConfig_eq_ok {o : LocProps} {c c' : Cursor} {x : List Byte} (h : copyConfig o b c = .ok x c') : c' = c := by
  unfold copyConfig at h
  split at h
  · cases h; rfl
  · exact (copyBytes_eq_ok h).2.1

theorem moqReadU16_eq_ok {c c' : Cursor} {n : Nat} (h : moqReadU16 b c = .ok n c') :
    n < 65536 ∧ c'.off = c.off + 2 ∧ c'.off ≤ b.length := by
  unfold moqReadU16 at h
  split at h
  · cases h
  · have h1 := (b.getD c.off 0).isLt
    have h2 := (b.getD (c.off + 1) 0).isLt
    cases h
    exact ⟨by omega, rfl, by simp only; omega⟩

theorem parseControl_take {c c1 c2 : Cursor} {type : BitVec 64} {n v : Nat} {c3 : Cursor} (hc : c.off = 0)
    (h1 : (moqReadVi64 : PushScan (BitVec 64)) b c = .ok type c1) (h2 : moqReadU16 b c1 = .ok n c2) (h3 : (Scanner.take n :
    PushScan Nat) b c2 = .ok v c3) : 0 < c3.off ∧ c3.off ≤ b.length ∧ v + n ≤ b.length ∧ c3.off = v + n := by
  obtain ⟨-, hoff1, -, -⟩ := moqReadVi64_eq_ok h1
  have hlead := moqLead_le (b.getD c.off 0)
  obtain ⟨hn, hoff2, -⟩ := moqReadU16_eq_ok h2
  obtain ⟨hv, hoff3, hle⟩ := take_eq_ok h3
  rw [add64, Nat.mod_eq_of_lt (by unfold wordSize; omega)] at hoff3
  omega

variable {c : Cursor}

theorem parseControl_eq_ok {m : ControlMessage} (h : parseControl b ⟨0, []⟩ = .ok m c) : 0 < c.off ∧ c.off ≤ b.length := by
  obtain ⟨type, c1, h1, h⟩ := bind_eq_ok.1 h
  obtain ⟨n, c2, h2, h⟩ := bind_eq_ok.1 h
  obtain ⟨v, c3, h3, h⟩ := bind_eq_ok.1 h
  obtain ⟨x, c4, h4, h⟩ := bind_eq_ok.1 h
  obtain ⟨hpos, hle, -, -⟩ := parseControl_take rfl h1 h2 h3
  obtain ⟨-, hc4, -⟩ := span_eq_ok h4
  cases h
  exact hc4 ▸ ⟨hpos, hle⟩

theorem parseControl_ne_stop {e : PushStop} : parseControl b ⟨0, []⟩ ≠ .stop e c := by
  intro h
  rcases bind_eq_stop.1 h with h | ⟨type, c1, h1, h⟩
  · exact moqReadVi64_ne_stop h
  rcases bind_eq_stop.1 h with h | ⟨n, c2, h2, h⟩
  · unfold moqReadU16 at h
    split at h <;> cases h
  rcases bind_eq_stop.1 h with h | ⟨v, c3, h3, h⟩
  · exact take_ne_stop h
  rcases bind_eq_stop.1 h with h | ⟨x, c4, h4, h⟩
  · obtain ⟨-, -, hle, -⟩ := parseControl_take rfl h1 h2 h3
    rw [bytesOf, span_ok hle] at h
    cases h
  · cases h

theorem readSubgroupId_eq_ok {flags v : BitVec 64} {c c' : Cursor} (h : readSubgroupId flags b c = .ok v c') :
    c.off ≤ c'.off := by
  unfold readSubgroupId at h
  split at h
  · obtain ⟨-, hoff, -, -⟩ := moqReadVi64_eq_ok h
    omega
  · cases h
    exact Nat.le_refl _

theorem skipPriority_eq_ok {flags : BitVec 64} {u : Unit} {c c' : Cursor} (h : skipPriority flags b c = .ok u c') :
    c.off ≤ c'.off := by
  unfold skipPriority at h
  split at h
  · unfold skipByte at h
    split at h
    · cases h
    · cases h
      exact Nat.le_succ _
  · cases h
    exact Nat.le_refl _

theorem parseSubgroupHeader_eq_ok {sg : SubgroupHeader} (h : parseSubgroupHeader b ⟨0, []⟩ = .ok sg c) :
    0 < c.off ∧ c.off ≤ b.length := by
  have hle := (keeps_parseSubgroupHeader _ (within_start b)).1.1
  rw [h] at hle
  obtain ⟨flags, c1, h1, h⟩ := bind_eq_ok.1 h
  obtain ⟨a, c2, h2, h⟩ := bind_eq_ok.1 h
  obtain ⟨g, c3, h3, h⟩ := bind_eq_ok.1 h
  obtain ⟨v, c4, h4, h⟩ := bind_eq_ok.1 h
  obtain ⟨u, c5, h5, h⟩ := bind_eq_ok.1 h
  obtain ⟨-, hoff, -, -⟩ := moqReadVi64_eq_ok h3
  have := readSubgroupId_eq_ok h4
  have := skipPriority_eq_ok h5
  cases h
  exact ⟨by omega, hle⟩

theorem parseSubgroupHeader_ne_stop {e : PushStop} : parseSubgroupHeader b ⟨0, []⟩ ≠ .stop e c := by
  intro h
  rcases bind_eq_stop.1 h with h | ⟨flags, c1, h1, h⟩
  · exact moqReadVi64_ne_stop h
  rcases bind_eq_stop.1 h with h | ⟨a, c2, h2, h⟩
  · exact moqReadVi64_ne_stop h
  rcases bind_eq_stop.1 h with h | ⟨g, c3, h3, h⟩
  · exact moqReadVi64_ne_stop h
  rcases bind_eq_stop.1 h with h | ⟨v, c4, h4, h⟩
  · unfold readSubgroupId at h
    split at h
    · exact moqReadVi64_ne_stop h
    · cases h
  rcases bind_eq_stop.1 h with h | ⟨u, c5, h5, h⟩
  · unfold skipPriority at h
    split at h
    · unfold skipByte at h
      split at h <;> cases h
    · cases h
  · cases h

theorem parseObject_eq_ok {hasProps : Bool} {r : BitVec 64 × Option LocObject} (hb : b.length < wordSize)
    (h : parseObject hasProps b ⟨0, []⟩ = .ok r c) : 0 < c.off ∧ c.off ≤ b.length := by
  have hle := (keeps_parseObject hasProps _ (within_start b)).1.1
  rw [h] at hle
  obtain ⟨delta, c1, h1, h⟩ := bind_eq_ok.1 h
  obtain ⟨o, c2, h2, h⟩ := bind_eq_ok.1 h
  obtain ⟨payloadLen, c3, h3, h⟩ := bind_eq_ok.1 h
  obtain ⟨-, hoff3, -, -⟩ := moqReadVi64_eq_ok h3
  split at h
  · obtain ⟨status, c4, h4, h⟩ := bind_eq_ok.1 h
    obtain ⟨-, hoff4, -, -⟩ := moqReadVi64_eq_ok h4
    cases h
    exact ⟨by omega, hle⟩
  · obtain ⟨v, c4, h4, h⟩ := bind_eq_ok.1 h
    obtain ⟨cfg, c5, h5, h⟩ := bind_eq_ok.1 h
    obtain ⟨pay, c6, h6, h⟩ := bind_eq_ok.1 h
    obtain ⟨hv, hoff4, -⟩ := take_eq_ok h4
    have hc5 := copyConfig_eq_ok h5
    obtain ⟨hfits, hc6, -⟩ := copyBytes_eq_ok h6
    cases h
    rw [add64, Nat.mod_eq_of_lt (by omega)] at hoff4
    rw [hc6, hc5] at hle ⊢
    exact ⟨by omega, hle⟩

/-! ## Turns -/

section ScanTurn

variable {α : Type} {ss : StreamState} {m : PushScan α} {f : α → Cursor → Turn StreamState PushEvent PushStop}

variable (ss m f) in
theorem scanTurn_cases (b : List Byte) : (∃ c, m b ⟨0, []⟩ = .short c ∧ scanTurn ss m f b = .wait ss) ∨
    (∃ e c, m b ⟨0, []⟩ = .stop e c ∧ scanTurn ss m f b = .halt ss e []) ∨
    ∃ a c, m b ⟨0, []⟩ = .ok a c ∧ scanTurn ss m f b = f a c := by
  unfold scanTurn
  cases h : m b ⟨0, []⟩ with
  | short c => exact .inl ⟨c, rfl, rfl⟩
  | stop e c => exact .inr (.inl ⟨e, c, rfl, rfl⟩)
  | ok a c => exact .inr (.inr ⟨a, c, rfl, rfl⟩)

theorem scanTurn_ok {a : α} {c : Cursor} (h : m b ⟨0, []⟩ = .ok a c) : scanTurn ss m f b = f a c := by
  unfold scanTurn
  rw [h]

theorem scanTurn_wait (hf : ∀ a c s, f a c ≠ .wait s) {s : StreamState} (h : scanTurn ss m f b = .wait s) : s = ss := by
  rcases scanTurn_cases ss m f b with ⟨c, -, hs⟩ | ⟨e, c, -, hs⟩ | ⟨a, c, -, hs⟩
  · exact Turn.wait.inj (h.symm.trans hs)
  · cases h.symm.trans hs
  · exact absurd (hs.symm.trans h) (hf a c s)

theorem scanTurn_steady (hm : Steady Undefined m) {t : Turn StreamState PushEvent PushStop} (x : List Byte)
    (h : scanTurn ss m f b = t) (hwait : ∀ s, t ≠ .wait s) (hund : ∀ s e out, t = .halt s e out → ¬ Undefined e) :
    scanTurn ss m f (b ++ x) = t := by
  rcases scanTurn_cases ss m f b with ⟨c, -, hs⟩ | ⟨e, c, hr, hs⟩ | ⟨a, c, hr, hs⟩
  · exact absurd (h.symm.trans hs) (hwait ss)
  · have hx := hm.ends x hr (hund _ _ _ (h.symm.trans hs))
    unfold scanTurn
    rw [hx, ← h, hs]
  · rw [scanTurn_ok (hm.answers x hr), ← h, hs]

theorem scanTurn_take {s : StreamState} {n : Nat} {out : List PushEvent} (h : scanTurn ss m f b = .take s n out) :
    ∃ a c, m b ⟨0, []⟩ = .ok a c ∧ f a c = .take s n out := by
  rcases scanTurn_cases ss m f b with ⟨c, -, hs⟩ | ⟨e, c, -, hs⟩ | ⟨a, c, hr, hs⟩
  · cases h.symm.trans hs
  · cases h.symm.trans hs
  · exact ⟨a, c, hr, hs.symm.trans h⟩

end ScanTurn

variable {ss : StreamState}

theorem pumpKnown_elim {P : Turn StreamState PushEvent PushStop → Prop} {b : List Byte}
    (hcontrol : P (pumpControl ss b)) (hheader : P (pumpHeader ss b)) (hobject : P (pumpObject ss b)) : P (pumpKnown ss b) := by
  unfold pumpKnown
  split
  · exact hcontrol
  · split
    · exact hheader
    · exact hobject

theorem pumpKnown_wait {ss ss' : StreamState} {b : List Byte} (h : pumpKnown ss b = .wait ss') : ss' = ss := by
  revert h
  apply pumpKnown_elim (P := fun t => t = .wait ss' → ss' = ss)
  · exact scanTurn_wait fun m c s => by split <;> exact fun h => by cases h
  · exact scanTurn_wait fun h c s he => by cases he
  · exact scanTurn_wait fun (delta, o) c s he => by cases he

theorem pumpKnown_append {t : Turn StreamState PushEvent PushStop} (x : List Byte) (h : pumpKnown ss b = t)
    (hwait : ∀ s, t ≠ .wait s) (hund : ∀ s e out, t = .halt s e out → ¬ Undefined e) : pumpKnown ss (b ++ x) = t := by
  unfold pumpKnown at h ⊢
  split at h
  · exact (if_pos ‹_›).trans (scanTurn_steady steady_parseControl x h hwait hund)
  · rw [if_neg ‹_›]
    split at h
    · exact (if_pos ‹_›).trans (scanTurn_steady steady_parseSubgroupHeader x h hwait hund)
    · exact (if_neg ‹_›).trans (scanTurn_steady (steady_parseObject _) x h hwait hund)

theorem pumpKnown_take {ss ss' : StreamState} {n : Nat} {out : List PushEvent} (h : pumpKnown ss b = .take ss' n out) :
    ss'.kind = ss.kind ∧ (b.length < wordSize → 0 < n ∧ n ≤ b.length) := by
  revert h
  apply pumpKnown_elim (P := fun t => t = .take ss' n out → ss'.kind = ss.kind ∧ (b.length < wordSize → 0 < n ∧ n ≤ b.length))
  · intro h
    obtain ⟨m, c, hr, hs⟩ := scanTurn_take h
    have hmoves := parseControl_eq_ok hr
    split at hs
    · cases hs
      exact ⟨rfl, fun _ => hmoves⟩
    · cases hs
  · intro h
    obtain ⟨sg, c, hr, hs⟩ := scanTurn_take h
    cases hs
    exact ⟨rfl, fun _ => parseSubgroupHeader_eq_ok hr⟩
  · intro h
    obtain ⟨⟨delta, o⟩, c, hr, hs⟩ := scanTurn_take h
    cases hs
    refine ⟨?_, fun hb => parseObject_eq_ok hb hr⟩
    cases o <;> rfl

theorem pumpKnown_ne_drop {ss s : StreamState} : pumpKnown ss b ≠ .drop s := by
  apply pumpKnown_elim (P := fun t => t ≠ .drop s)
  · rcases scanTurn_cases ss parseControl _ b with ⟨c, -, hs⟩ | ⟨e, c, -, hs⟩ | ⟨m, c, -, hs⟩
    · exact fun h => by cases hs.symm.trans h
    · exact fun h => by cases hs.symm.trans h
    · intro h
      have := hs.symm.trans h
      split at this <;> cases this
  · rcases scanTurn_cases ss parseSubgroupHeader _ b with ⟨c, -, hs⟩ | ⟨e, c, -, hs⟩ | ⟨m, c, -, hs⟩ <;>
      exact fun h => by cases hs.symm.trans h
  · rcases scanTurn_cases ss (parseObject ss.hasProps) _ b with
      ⟨c, -, hs⟩ | ⟨e, c, -, hs⟩ | ⟨⟨delta, o⟩, c, -, hs⟩ <;> exact fun h => by cases hs.symm.trans h

variable {kind : StreamKind}

theorem kindOfType_ne_unknown {type : BitVec 64} (h : kindOfType type = some kind) : kind ≠ .unknown := by
  unfold kindOfType at h
  intro hk
  subst hk
  split at h
  · cases h
  · split at h
    · cases h
    · split at h <;> cases h

theorem pumpTurn_known (h : ss.kind ≠ .unknown) : pumpTurn ss b = pumpKnown ss b := if_neg h

theorem pumpTurn_unknown (h : ss.kind = .unknown) {type : BitVec 64}
    (hr : (moqReadVi64 : PushScan (BitVec 64)) b ⟨0, []⟩ = .ok type c) :
    pumpTurn ss b = match kindOfType type with
      | none => .drop ss
      | some kind => pumpKnown { ss with kind := kind } b := by
  cases hk : kindOfType type with
  | none => simp [pumpTurn, h, hr, hk]
  | some kind => simp [pumpTurn, h, hr, hk]

theorem pumpTurn_short (h : ss.kind = .unknown)
    (hr : (moqReadVi64 : PushScan (BitVec 64)) b ⟨0, []⟩ = .short c) : pumpTurn ss b = .wait ss := by
  unfold pumpTurn
  simp only [if_pos h, hr]

theorem pumpTurn_cases (ss : StreamState) (b : List Byte) :
    (ss.kind = .unknown ∧ (∃ c, (moqReadVi64 : PushScan (BitVec 64)) b ⟨0, []⟩ = .short c) ∧ pumpTurn ss b = .wait ss) ∨
    (ss.kind = .unknown ∧ (∃ type c, (moqReadVi64 : PushScan (BitVec 64)) b ⟨0, []⟩ = .ok type c ∧ kindOfType type = none) ∧
      pumpTurn ss b = .drop ss) ∨
    ∃ kind, kind ≠ .unknown ∧ (∀ x, pumpTurn ss (b ++ x) = pumpKnown { ss with kind := kind } (b ++ x)) ∧
      pumpTurn ss b = pumpKnown { ss with kind := kind } b := by
  by_cases hk : ss.kind = .unknown
  · cases hr : (moqReadVi64 : PushScan (BitVec 64)) b ⟨0, []⟩ with
    | short c => exact .inl ⟨hk, ⟨c, rfl⟩, pumpTurn_short hk hr⟩
    | stop e c => exact absurd hr moqReadVi64_ne_stop
    | ok type c =>
      have hturn := pumpTurn_unknown hk hr
      cases hkind : kindOfType type with
      | none =>
        rw [hkind] at hturn
        exact .inr (.inl ⟨hk, ⟨type, c, rfl, hkind⟩, hturn⟩)
      | some kind =>
        rw [hkind] at hturn
        refine .inr (.inr ⟨kind, kindOfType_ne_unknown hkind, fun x => ?_, hturn⟩)
        rw [pumpTurn_unknown hk ((steady_vi64 Undefined).answers x hr), hkind]
  · exact .inr (.inr ⟨ss.kind, hk, fun x => pumpTurn_known hk, pumpTurn_known hk⟩)

theorem pumpTurn_steady : SteadyTurns pumpTurn Undefined wordSize where
  wait {ss b ss'} x h := by
    rcases pumpTurn_cases ss b with ⟨-, -, ht⟩ | ⟨-, -, ht⟩ | ⟨kind, hkind, hx, ht⟩
    · rw [Turn.wait.inj (h.symm.trans ht)]
    · cases h.symm.trans ht
    · rw [hx, pumpKnown_wait (ht.symm.trans h), pumpTurn_known hkind]
  take {ss b ss' n out} x h := by
    rcases pumpTurn_cases ss b with ⟨-, -, ht⟩ | ⟨-, -, ht⟩ | ⟨kind, hkind, hx, ht⟩
    · cases h.symm.trans ht
    · cases h.symm.trans ht
    · rw [hx]
      exact pumpKnown_append x (ht.symm.trans h) (fun s hs => by cases hs) (fun s e out hs => by cases hs)
  halt {ss b ss' e out} x h he := by
    rcases pumpTurn_cases ss b with ⟨-, -, ht⟩ | ⟨-, -, ht⟩ | ⟨kind, hkind, hx, ht⟩
    · cases h.symm.trans ht
    · cases h.symm.trans ht
    · rw [hx]
      exact pumpKnown_append x (ht.symm.trans h) (fun s hs => by cases hs) (fun s e out hs => by cases hs; exact he)
  moves {ss b ss' n out} hb h := by
    rcases pumpTurn_cases ss b with ⟨-, -, ht⟩ | ⟨-, -, ht⟩ | ⟨kind, hkind, hx, ht⟩
    · cases h.symm.trans ht
    · cases h.symm.trans ht
    · exact (pumpKnown_take (ht.symm.trans h)).2 hb

/-! ## A stream in pieces -/

/-- What is heard of a stream, unless a byte behind the buffer is read: then it depends on whatever is there. -/
def heard (pieces : List (List Byte)) : Option (List PushEvent) :=
  let r := pieces.foldl onData .init
  if r.halted = some .overread then none else some r.out

/-- **However the bytes are cut, the same is heard.** -/
def HeardAlike (bytes : List Byte) : Prop := ∃ events, ∀ pieces : List (List Byte), pieces.flatten = bytes → heard pieces = some events

def startsMessage (bytes : List Byte) : Bool :=
  match (moqReadVi64 : PushScan (BitVec 64)) bytes ⟨0, []⟩ with
  | .short _ => false
  | .stop _ _ => false
  | .ok type _ =>
    match kindOfType type with
    | none => false
    | some .data => match parseSubgroupHeader bytes ⟨0, []⟩ with | .ok _ _ => true | _ => false
    | some _ => match parseControl bytes ⟨0, []⟩ with | .ok _ _ => true | _ => false

/-- No part of the bytes makes a parser read behind it; and their first integer, once there, has a kind, or nothing
behind it could start a stream. -/
structure Separable (bytes : List Byte) : Prop where
  defined : ∀ p q, bytes = p ++ q → (onData .init p).halted ≠ some .overread
  first : ∀ type c, (moqReadVi64 : PushScan (BitVec 64)) bytes ⟨0, []⟩ = .ok type c →
    (kindOfType type).isSome ∨ ∀ n, c.off ≤ n → startsMessage (bytes.drop n) = false

theorem onData_nil (r : PushStream) : onData r [] = r := rfl

theorem foldl_onData_eq : ∀ (pieces : List (List Byte)) (r : PushStream),
    pieces.foldl onData r = (pieces.filter fun c => c ≠ []).foldl (feed pumpTurn .endless) r
  | [], _ => rfl
  | c :: cs, r => by
    rw [foldl_cons, foldl_onData_eq cs]
    by_cases hc : c = []
    · simp [hc, onData]
    · simp [hc, onData]

variable {p : List Byte}

theorem onData_init (h : p ≠ []) : onData .init p = drainTurns pumpTurn .endless (p.length + 1) ⟨{}, p, [], none⟩ := by
  simp [onData, h, feed, PushStream.init]

theorem cleanTurns_known (hp : p ≠ [])
    (hkind : ∀ type c, (moqReadVi64 : PushScan (BitVec 64)) p ⟨0, []⟩ = .ok type c → (kindOfType type).isSome)
    (hdef : (onData .init p).halted ≠ some .overread) : CleanTurns pumpTurn Undefined (p.length + 1) {} p := by
  rw [onData_init hp] at hdef
  rcases pumpTurn_cases {} p with ⟨-, -, ht⟩ | ⟨-, ⟨type, c, hr, hnone⟩, -⟩ | ⟨kind, hk, -, ht⟩
  · simp only [CleanTurns, ht]
  · have := hkind type c hr
    rw [hnone] at this
    cases this
  · have hturn : pumpTurn {} p = pumpTurn { kind := kind } p := by rw [ht, pumpTurn_known hk]
    rw [cleanTurns_congr hturn]
    rw [drainTurns_congr hturn] at hdef
    apply @cleanTurns_of_halted _ _ _ _ _ .endless _ (fun ss : StreamState => ss.kind ≠ .unknown) _ _ _
      ⟨{ kind := kind }, p, [], none⟩ hk
    · intro e he hund
      exact hdef (by rw [he, hund])
    · intro ss b' ss' n out hs htake
      rw [pumpTurn_known hs] at htake
      rw [(pumpKnown_take htake).1]
      exact hs
    · intro ss b' ss' hs
      rw [pumpTurn_known hs]
      exact pumpKnown_ne_drop

theorem foldl_onData_known {bytes : List Byte} (hb : bytes.length < wordSize) (h : Separable bytes)
    (hkind : ∀ type c, (moqReadVi64 : PushScan (BitVec 64)) bytes ⟨0, []⟩ = .ok type c → (kindOfType type).isSome) :
    ∀ (cs : List (List Byte)) (p : List Byte), bytes = p ++ cs.flatten → cs.foldl onData (onData .init p) = onData .init bytes
  | [], p, hp => by
    rw [flatten_nil, append_nil] at hp
    rw [foldl_nil, hp]
  | c :: cs, p, hp => by
    rw [flatten_cons, ← append_assoc] at hp
    have ih := foldl_onData_known hb h hkind cs (p ++ c) hp
    rw [foldl_cons, ← ih]
    congr 1
    by_cases hc : c = []
    · rw [hc, onData_nil, append_nil]
    by_cases hp0 : p = []
    · rw [hp0, onData_nil, nil_append]
    · have hclean := cleanTurns_known hp0 (fun type c' hr => hkind type c' (by
        rw [hp, append_assoc]
        exact (steady_vi64 Undefined).answers _ hr)) (h.defined p _ (by rw [hp, append_assoc]))
      rw [onData, if_neg hc, onData, if_neg hp0, onData, if_neg (by simp [hp0])]
      refine feed_feed pumpTurn_steady c ?_ hclean
      rw [hp, length_append] at hb
      simp only [PushStream.init, nil_append]
      omega

/-! ## A stream of no kind -/

theorem startsMessage_eq {type : BitVec 64}
    (hr : (moqReadVi64 : PushScan (BitVec 64)) b ⟨0, []⟩ = .ok type c) (hk : kindOfType type = some kind) :
    startsMessage b = if kind = .data then (match parseSubgroupHeader b ⟨0, []⟩ with | .ok _ _ => true | _ => false)
      else match parseControl b ⟨0, []⟩ with | .ok _ _ => true | _ => false := by
  unfold startsMessage
  simp only [hr, hk]
  cases kind <;> rfl

theorem startsMessage_append (x : List Byte) (h : startsMessage b = true) : startsMessage (b ++ x) = true := by
  cases hr : (moqReadVi64 : PushScan (BitVec 64)) b ⟨0, []⟩ with
  | short c => simp [startsMessage, hr] at h
  | stop e c => exact absurd hr moqReadVi64_ne_stop
  | ok type c =>
    cases hk : kindOfType type with
    | none => simp [startsMessage, hr, hk] at h
    | some kind =>
      rw [startsMessage_eq hr hk] at h
      rw [startsMessage_eq ((steady_vi64 Undefined).answers x hr) hk]
      split
      · rw [if_pos ‹_›] at h
        cases hs : parseSubgroupHeader b ⟨0, []⟩ with
        | ok sg c' => rw [steady_parseSubgroupHeader.answers x hs]
        | short c' => simp [hs] at h
        | stop e c' => simp [hs] at h
      · rw [if_neg ‹_›] at h
        cases hs : parseControl b ⟨0, []⟩ with
        | ok m c' => rw [steady_parseControl.answers x hs]
        | short c' => simp [hs] at h
        | stop e c' => simp [hs] at h

theorem pumpTurn_first {type : BitVec 64}
    (hr : (moqReadVi64 : PushScan (BitVec 64)) b ⟨0, []⟩ = .ok type c) (hk : kindOfType type = some kind) :
    pumpTurn {} b = if kind = .data then pumpHeader { kind := kind } b else pumpControl { kind := kind } b := by
  have hne := kindOfType_ne_unknown hk
  rw [pumpTurn_unknown rfl hr, hk]
  cases kind with
  | unknown => exact absurd rfl hne
  | control => rfl
  | request => rfl
  | data => rfl

theorem pumpTurn_silent (h : startsMessage b = false) : pumpTurn {} b = .drop {} ∨ ∃ ss, pumpTurn {} b = .wait ss := by
  cases hr : (moqReadVi64 : PushScan (BitVec 64)) b ⟨0, []⟩ with
  | short c => exact .inr ⟨_, pumpTurn_short rfl hr⟩
  | stop e c => exact absurd hr moqReadVi64_ne_stop
  | ok type c =>
    cases hk : kindOfType type with
    | none => exact .inl (by rw [pumpTurn_unknown rfl hr, hk])
    | some kind =>
      rw [startsMessage_eq hr hk] at h
      rw [pumpTurn_first hr hk]
      right
      split
      · rw [if_pos ‹_›] at h
        cases hs : parseSubgroupHeader b ⟨0, []⟩ with
        | ok sg c' => simp [hs] at h
        | short c' => exact ⟨_, by unfold pumpHeader scanTurn; rw [hs]⟩
        | stop e c' => exact absurd hs parseSubgroupHeader_ne_stop
      · rw [if_neg ‹_›] at h
        cases hs : parseControl b ⟨0, []⟩ with
        | ok m c' => simp [hs] at h
        | short c' => exact ⟨_, by unfold pumpControl scanTurn; rw [hs]⟩
        | stop e c' => exact absurd hs parseControl_ne_stop

theorem pumpTurn_speaks (h : startsMessage b = true) :
    (∃ s n ev, pumpTurn {} b = .take s n [ev]) ∨ ∃ s e ev, pumpTurn {} b = .halt s e [ev] := by
  cases hr : (moqReadVi64 : PushScan (BitVec 64)) b ⟨0, []⟩ with
  | short c => simp [startsMessage, hr] at h
  | stop e c => exact absurd hr moqReadVi64_ne_stop
  | ok type c =>
    cases hk : kindOfType type with
    | none => simp [startsMessage, hr, hk] at h
    | some kind =>
      rw [startsMessage_eq hr hk] at h
      rw [pumpTurn_first hr hk]
      split
      · rw [if_pos ‹_›] at h
        cases hs : parseSubgroupHeader b ⟨0, []⟩ with
        | ok sg c' => exact .inl ⟨_, _, _, by unfold pumpHeader scanTurn; rw [hs]⟩
        | short c' => simp [hs] at h
        | stop e c' => simp [hs] at h
      · rw [if_neg ‹_›] at h
        cases hs : parseControl b ⟨0, []⟩ with
        | ok m c' =>
          unfold pumpControl
          rw [scanTurn_ok hs]
          cases controlStop m with
          | none => exact .inl ⟨_, _, _, rfl⟩
          | some e => exact .inr ⟨_, _, _, rfl⟩
        | short c' => simp [hs] at h
        | stop e c' => simp [hs] at h

/-- A stream of no kind after the part `p`: nothing was heard, and what is buffered begins where no message starts. -/
structure Unheard (bytes p : List Byte) (first : Nat) (r : PushStream) : Prop where
  out : r.out = []
  halted : r.halted = none
  buffered : ∃ n, n ≤ p.length ∧ r.buf = p.drop n ∧ (n = 0 ∨ first ≤ n)
  turns : ∀ x, pumpTurn r.state (r.buf ++ x) = pumpTurn {} (r.buf ++ x)

theorem Unheard.chunk {bytes p c q : List Byte} {type : BitVec 64} {c0 : Cursor} {r : PushStream}
    (h : Unheard bytes p c0.off r) (hbytes : bytes = p ++ c ++ q)
    (htype : (moqReadVi64 : PushScan (BitVec 64)) bytes ⟨0, []⟩ = .ok type c0) (hnone : kindOfType type = none)
    (hquiet : ∀ n, c0.off ≤ n → startsMessage (bytes.drop n) = false) : Unheard bytes (p ++ c) c0.off (onData r c) := by
  by_cases hc : c = []
  · subst hc
    rw [onData_nil, append_nil]
    exact h
  obtain ⟨n, hn, hbuf, hfirst⟩ := h.buffered
  have hdrop : r.buf ++ c = (p ++ c).drop n := by rw [hbuf, drop_append_of_le_length hn]
  have hle : n ≤ (p ++ c).length := by rw [length_append]; omega
  have hquiet0 : startsMessage (r.buf ++ c) = false := by
    have hwhole : bytes.drop n = r.buf ++ c ++ q := by rw [hbytes, drop_append_of_le_length hle, hdrop]
    have hbytesn : startsMessage (bytes.drop n) = false := by
      rcases hfirst with rfl | hf
      · simp [startsMessage, htype, hnone]
      · exact hquiet n hf
    cases hs : startsMessage (r.buf ++ c) with
    | false => rfl
    | true =>
      have := startsMessage_append q hs
      rw [← hwhole, hbytesn] at this
      cases this
  have hfeed : onData r c = drainTurns pumpTurn .endless ((r.buf ++ c).length + 1) { r with buf := r.buf ++ c } := by
    simp [onData, hc, feed, h.halted]
  have hturn := h.turns c
  rw [hfeed]
  rcases pumpTurn_silent hquiet0 with ht | ⟨ss, ht⟩
  · rw [ht] at hturn
    simp only [drainTurns, hturn]
    refine ⟨h.out, h.halted, ⟨(p ++ c).length, Nat.le_refl _, by simp, .inr ?_⟩, fun x => rfl⟩
    rcases hfirst with rfl | hf
    · rcases pumpTurn_cases {} (r.buf ++ c) with ⟨-, -, ht'⟩ | ⟨-, ⟨type', c', hr, -⟩, -⟩ | ⟨kind, -, -, ht'⟩
      · cases ht.symm.trans ht'
      · have hcb : r.buf ++ c = p ++ c := by rw [hdrop, drop_zero]
        rw [hcb] at hr
        have hq := (steady_vi64 Undefined).answers q hr
        rw [← hbytes, htype] at hq
        cases hq
        exact (moqReadVi64_eq_ok hr).2.2.1
      · exact absurd (ht'.symm.trans ht) pumpKnown_ne_drop
    · omega
  · rw [ht] at hturn
    simp only [drainTurns, hturn]
    exact ⟨h.out, h.halted, ⟨n, hle, hdrop, hfirst⟩, fun x => (pumpTurn_steady.wait x ht).symm⟩

theorem Unheard.foldl {bytes : List Byte} {type : BitVec 64} {c0 : Cursor}
    (htype : (moqReadVi64 : PushScan (BitVec 64)) bytes ⟨0, []⟩ = .ok type c0) (hnone : kindOfType type = none)
    (hquiet : ∀ n, c0.off ≤ n → startsMessage (bytes.drop n) = false) :
    ∀ (cs : List (List Byte)) (p : List Byte) (r : PushStream), Unheard bytes p c0.off r → bytes = p ++ cs.flatten →
      Unheard bytes bytes c0.off (cs.foldl onData r)
  | [], p, r, h, hp => by
    rw [flatten_nil, append_nil] at hp
    exact hp ▸ h
  | c :: cs, p, r, h, hp => by
    rw [flatten_cons, ← append_assoc] at hp
    exact Unheard.foldl htype hnone hquiet cs (p ++ c) _ (h.chunk hp htype hnone hquiet) hp

theorem unheard_init (bytes : List Byte) (first : Nat) : Unheard bytes [] first .init :=
  ⟨rfl, rfl, ⟨0, Nat.le_refl _, rfl, .inl rfl⟩, fun _ => rfl⟩

/-! ## The segmentation theorem -/

theorem Separable.heardAlike {bytes : List Byte} (hb : bytes.length < wordSize) (h : Separable bytes) : HeardAlike bytes := by
  by_cases hkind : ∀ type c, (moqReadVi64 : PushScan (BitVec 64)) bytes ⟨0, []⟩ = .ok type c → (kindOfType type).isSome
  · refine ⟨(onData .init bytes).out, fun pieces hp => ?_⟩
    have hall := foldl_onData_known hb h hkind pieces [] (by rw [nil_append, hp])
    rw [onData_nil] at hall
    have hdef := h.defined bytes [] (append_nil _).symm
    simp only [heard, hall, if_neg hdef]
  · simp only [not_forall] at hkind
    obtain ⟨type, c, htype, hsome⟩ := hkind
    refine ⟨[], fun pieces hp => ?_⟩
    have hs := Unheard.foldl htype (by simpa using hsome) ((h.first type c htype).resolve_left hsome) pieces [] .init
      (unheard_init bytes _) (by rw [nil_append, hp])
    simp [heard, hs.out, hs.halted]

theorem onData_halted {r : PushStream} (h : r.halted.isSome) (c : List Byte) : onData r c = r := by
  unfold onData feed
  split
  · rfl
  · rfl

theorem onData_unkind {type : BitVec 64} (hr : (moqReadVi64 : PushScan (BitVec 64)) p ⟨0, []⟩ = .ok type c)
    (hnone : kindOfType type = none) : onData .init p = .init := by
  have hp : p ≠ [] := by
    rintro rfl
    have := (moqReadVi64_eq_ok hr).1
    simp at this
  have ht := pumpTurn_unknown (show ({} : StreamState).kind = .unknown from rfl) hr
  rw [hnone] at ht
  rw [onData_init hp]
  simp only [drainTurns, ht]
  rfl

theorem heard_startsMessage (h : startsMessage p = true) : heard [p] ≠ some [] := by
  have hp : p ≠ [] := by rintro rfl; cases h
  intro hh
  simp only [heard, foldl_cons, foldl_nil, onData_init hp] at hh
  split at hh
  · cases hh
  · have hout := Option.some.inj hh
    rcases pumpTurn_speaks h with ⟨s, n, ev, ht⟩ | ⟨s, e, ev, ht⟩
    · simp only [drainTurns, ht] at hout
      obtain ⟨out, he⟩ := @drainTurns_out _ _ _ _ pumpTurn .endless p.length ⟨s, p.drop n, [] ++ [ev], none⟩
      rw [he] at hout
      cases hout
    · simp only [drainTurns, ht] at hout
      cases hout

theorem HeardAlike.separable {bytes : List Byte} (h : HeardAlike bytes) : Separable bytes := by
  obtain ⟨events, hall⟩ := h
  constructor
  · intro p q hp hover
    have := hall [p, q] (by simp [hp])
    simp only [heard, foldl_cons, foldl_nil, onData_halted (r := onData .init p) (by rw [hover]; rfl), hover,
      if_true] at this
    cases this
  · intro type c htype
    by_cases hsome : (kindOfType type).isSome
    · exact .inl hsome
    right
    intro n hn
    by_contra hmsg
    rw [Bool.not_eq_false] at hmsg
    have hnone : kindOfType type = none := by simpa using hsome
    have hlt : n < bytes.length := by
      by_contra hge
      rw [drop_eq_nil_of_le (by omega)] at hmsg
      cases hmsg
    have hcut : bytes.take n ++ bytes.drop n = bytes := take_append_drop n bytes
    have hhead := moqReadVi64_of_append (p := bytes.take n) (q := bytes.drop n) (hcut.symm ▸ htype) (by rw [length_take]; omega)
    have hone := hall [bytes] (by simp)
    have htwo := hall [bytes.take n, bytes.drop n] (by simp)
    simp only [heard, foldl_cons, foldl_nil, onData_unkind htype hnone] at hone
    simp only [heard, foldl_cons, foldl_nil, onData_unkind hhead hnone] at htwo
    exact heard_startsMessage hmsg (htwo.trans hone.symm)

/-- **However a stream is cut the same is heard, exactly when it is separable.** -/
theorem push_cuts_iff (bytes : List Byte) (hb : bytes.length < wordSize) : HeardAlike bytes ↔ Separable bytes :=
  ⟨HeardAlike.separable, Separable.heardAlike hb⟩

def unkindStream : List Byte := [0x05, 0x1d, 0x00, 0x00]

theorem unkindStream_heard : heard [unkindStream] = some [] ∧
    heard [[0x05], [0x1d, 0x00, 0x00]] = some [.control ⟨kMoqtPublish, []⟩] := by
  decide +kernel

theorem unkindStream_not_alike : ¬ HeardAlike unkindStream := by
  rintro ⟨events, hall⟩
  have hone := hall [unkindStream] (by decide)
  have htwo := hall [[0x05], [0x1d, 0x00, 0x00]] (by decide)
  rw [unkindStream_heard.1] at hone
  rw [unkindStream_heard.2, ← hone] at htwo
  cases htwo

theorem push_cuts_iff_unkindStream : HeardAlike unkindStream ↔ Separable unkindStream :=
  push_cuts_iff unkindStream (by decide)

end MoqLiveCast
