import MoqLiveCast.Lib.Run
import MoqLiveCast.Moq.LiteWire
/-!
# StreamRecords — the record of a stream, in the C client (`moqlite/moq_lite_client.c`)

What comes in on a stream is collected in its record and parsed there; a record that is done is removed, since there are
as many group streams as groups. A stream without a record is taken for a new one. So what the peer sends on a stream
after its record is done is read again from STREAM_TYPE on: `frame_of_rejected_group`. Allocation does not fail, and the
session is not dead.
-/
namespace MoqLiveCast
namespace StreamRecords

inductive StreamKind where
  | setup | group | announce | subscribe | track
deriving DecidableEq

structure MoqStream where
  kind : StreamKind
  isLocal : Bool
  uni : Bool
  typed : Bool
  fin : Bool := false
  done : Bool := false
  hdrDone : Bool := false
  subIdInGroup : BitVec 64 := 0
  group : BitVec 64 := 0
  frameIndex : BitVec 64 := 0
  tsAcc : BitVec 64 := 0
  groupEndNotified : Bool := false
  buf : List Byte := []
deriving DecidableEq

def MOQ_MAX_RECV_BUF : Nat := MOQ_MAX_MESSAGE_SIZE.toNat + 1024

def streamInternalError : Nat := 0x0
def streamCancelled : Nat := 0x1

/-- What a call does to the outside: a STREAM_TYPE was read, the stream was reset, a frame or the end of a group was
delivered, or a handler did what it does. -/
inductive Act (α : Type) where
  | streamType (type : BitVec 64)
  | reset (errorCode : Nat)
  | frame (sub group frameIndex tsDelta : BitVec 64) (payload : List Byte)
  | groupEnd (sub group : BitVec 64)
  | handled (a : α)
deriving DecidableEq

section Parse

variable {σ α : Type}

/-! ## `parse_group` -/

def readGroupHeader (p : List Byte) : WireRead MoqMsgStatus (Option (BitVec 64 × BitVec 64 × BitVec 64)) :=
  let m := moqMsgRead p 0
  match m.status with
  | .ok =>
    let body := p.take (m.off + m.out.getD 0)
    let sub := moqVarintRead body m.off
    let seq := moqVarintRead body sub.off
    let start := moqVarintRead body seq.off
    let whole := sub.status = 0 ∧ seq.status = 0 ∧ start.status = 0 ∧ start.off = body.length
    ⟨.ok, body.length, some (if whole then some (sub.out.getD 0, seq.out.getD 0, start.out.getD 0) else none)⟩
  | st => ⟨st, 0, none⟩

/-- `sub_deliver_frame`: an empty payload and a lone timestamp are no frame. -/
def subDeliverFrame (sub group frameIndex tsDelta : BitVec 64) (payload : List Byte) : List (Act α) :=
  let ts := moqVarintRead payload 0
  if payload.length = 0 ∨ ts.status = 0 ∧ payload.length ≤ ts.off then [] else [.frame sub group frameIndex tsDelta payload]

/-- The loop over the frames; a turn takes two bytes at least, so `n` is the length of the buffer.  It says whether it has
come to a frame that is too large. -/
def groupFrames (known : BitVec 64 → Bool) : Nat → MoqStream → Bool × MoqStream × List (Act α)
  | 0, r => (false, r, [])
  | n + 1, r =>
    let zz := moqVarintRead r.buf 0
    if zz.status < 0 then (false, r, [])
    else
      let m := moqMsgRead r.buf zz.off
      match m.status with
      | .tooLarge => (true, { r with done := true }, [.reset streamInternalError])
      | .needMore => (false, r, [])
      | .ok =>
        let delta := moqZigzagDecode (zz.out.getD 0)
        let len := m.out.getD 0
        let payload := (r.buf.drop m.off).take len
        let acts := if known r.subIdInGroup then subDeliverFrame r.subIdInGroup r.group r.frameIndex delta payload else []
        let (tooLarge, r, more) := groupFrames known n
          { r with tsAcc := r.tsAcc + delta, buf := r.buf.drop (m.off + len), frameIndex := r.frameIndex + 1 }
        (tooLarge, r, acts ++ more)

def parseFrames (known : BitVec 64 → Bool) (r : MoqStream) : MoqStream × List (Act α) :=
  let (tooLarge, r, acts) := groupFrames known r.buf.length r
  if tooLarge ∨ r.fin = false then (r, acts)
  else
    let ended := r.hdrDone ∧ r.groupEndNotified = false
    ({ r with groupEndNotified := r.groupEndNotified || ended, done := true },
      acts ++ if ended ∧ known r.subIdInGroup then [.groupEnd r.subIdInGroup r.group] else [])

/-- `parse_group`; `known` are the session's subscriptions. -/
def parseGroup (known : BitVec 64 → Bool) (r : MoqStream) : MoqStream × List (Act α) :=
  if r.hdrDone then parseFrames known r
  else
    let h := readGroupHeader r.buf
    match h.status, h.out with
    | .needMore, _ => (if r.fin then { r with done := true } else r, [])
    | .ok, some (some (sub, seq, start)) =>
      if known sub then
        parseFrames known { r with
          hdrDone := true, subIdInGroup := sub, group := seq, frameIndex := start, tsAcc := 0, buf := r.buf.drop h.off }
      else ({ r with done := true }, [.reset streamCancelled])
    | _, _ => ({ r with done := true }, [.reset streamInternalError])

/-! ## `stream_parse` -/

/-- A session at the time of a call: its subscriptions, and what its handlers do to a stream of theirs. -/
structure Session (σ α : Type) where
  known : σ → BitVec 64 → Bool
  request : σ → MoqStream → MoqStream × List (Act α)

/-- The kind STREAM_TYPE gives a stream of the peer's; an unknown one is refused. -/
def kindOf (uni : Bool) (type : BitVec 64) : Option StreamKind :=
  if uni then some (if type = 0x1 then .setup else .group)
  else if type = 0x1 then some .announce
  else if type = 0x2 then some .subscribe
  else if type = 0x6 then some .track
  else none

variable (se : Session σ α)

def parseTyped (now : σ) (r : MoqStream) : MoqStream × List (Act α) :=
  match r.kind with
  | .setup => ({ r with done := true }, [])
  | .group => parseGroup (se.known now) r
  | _ => se.request now r

def streamParse (now : σ) (r : MoqStream) : MoqStream × List (Act α) :=
  if r.done then (r, [])
  else if r.typed then parseTyped se now r
  else
    let t := moqVarintRead r.buf 0
    if t.status < 0 then ({ r with done := r.fin }, [])
    else
      let type := t.out.getD 0
      let r := { r with typed := true, buf := r.buf.drop t.off }
      match kindOf r.uni type with
      | none => ({ r with done := true }, [.streamType type, .reset streamCancelled])
      | some kind =>
        let (r, acts) := parseTyped se now { r with kind }
        (r, .streamType type :: acts)

/-! ## The callbacks -/

def streamAdd (uni : Bool) (kind : StreamKind) (isLocal : Bool) : MoqStream := { kind, isLocal, uni, typed := isLocal }

/-- How a callback ends: the record of the stream, if it still has one; whether it is done; and what was done. -/
structure CallEnd (α : Type) where
  record : Option MoqStream
  done : Bool
  acts : List (Act α)

def parseThenRemove (now : σ) (r : MoqStream) : CallEnd α :=
  let (r, acts) := streamParse se now r
  ⟨if r.done then none else some r, r.done, acts⟩

def recordOf (uni : Bool) (found : Option MoqStream) : MoqStream :=
  found.getD (streamAdd uni (if uni then .group else .announce) false)

def onSessionStreamData (uni : Bool) (now : σ) (found : Option MoqStream) (data : List Byte) : CallEnd α :=
  let r := recordOf uni found
  if r.done then ⟨some r, true, []⟩
  else if data ≠ [] ∧ MOQ_MAX_RECV_BUF < r.buf.length + data.length then
    ⟨some { r with done := true, buf := [] }, true, [.reset streamInternalError]⟩
  else parseThenRemove se now { r with buf := r.buf ++ data }

def onSessionStreamFin (uni : Bool) (now : σ) (found : Option MoqStream) : CallEnd α :=
  if found = none ∧ uni then ⟨none, false, []⟩
  else
    let r := recordOf uni found
    if r.done then ⟨some r, true, []⟩ else parseThenRemove se now { r with fin := true }

inductive Call (σ : Type) where
  | data (now : σ) (bytes : List Byte)
  | fin (now : σ)

def callOn (uni : Bool) (found : Option MoqStream) : Call σ → CallEnd α
  | .data now bytes => onSessionStreamData se uni now found bytes
  | .fin now => onSessionStreamFin se uni now found

/-- A stream in a session: its record, whether a record of it has been done, and what has been done for it. -/
structure StreamRun (α : Type) where
  record : Option MoqStream
  finished : Bool
  acts : List (Act α) := []

def step (uni : Bool) (st : StreamRun α) (c : Call σ) : StreamRun α :=
  let e := callOn se uni st.record c
  { record := e.record, finished := st.finished || e.done, acts := st.acts ++ e.acts }

def start (record : Option MoqStream) : StreamRun α := { record, finished := record.any MoqStream.done }

/-! ## After the end -/

/-- **Once a record of the stream has been done, the call does nothing.** -/
def StaysFinished (uni : Bool) (st : StreamRun α) (c : Call σ) : Prop :=
  st.finished = true → (step se uni st c).acts = st.acts

def NoType (p : List Byte) : Prop := (moqVarintRead p 0).status < 0

instance (p : List Byte) : Decidable (NoType p) := inferInstanceAs (Decidable (_ < _))

/-- **Once a record of the stream has been done, what comes in finds it still there, or does not make up a STREAM_TYPE with
what came since** (nor is it larger than a buffer may be). -/
def BringsNoType (uni : Bool) (st : StreamRun α) : Call σ → Prop
  | .data _ bytes =>
    let r := recordOf uni st.record
    st.finished = true → r.done = true ∨ (bytes = [] ∨ r.buf.length + bytes.length ≤ MOQ_MAX_RECV_BUF) ∧ NoType (r.buf ++ bytes)
  | .fin _ => True

instance (uni : Bool) (st : StreamRun α) (c : Call σ) : Decidable (BringsNoType uni st c) := by
  unfold BringsNoType
  cases c <;> infer_instance

/-- What a stream that has been done is: its record is done, or gone, or new and without a type. -/
def Over (st : StreamRun α) : Prop :=
  st.finished = true → ∀ r ∈ st.record, r.done = true ∨ r.typed = false ∧ r.fin = false ∧ NoType r.buf

variable {se} {uni : Bool} {st : StreamRun α} {now : σ} {r : MoqStream}

theorem noType_nil : NoType [] := by decide

variable (se now) in
theorem streamParse_untyped (hdone : r.done = false) (htyped : r.typed = false) :
    NoType r.buf ∧ streamParse se now r = (if r.fin then { r with done := true } else r, []) ∨
      ¬ NoType r.buf ∧ (streamParse se now r).2 ≠ [] := by
  unfold streamParse NoType
  by_cases hno : (moqVarintRead r.buf 0).status < 0
  · refine .inl ⟨hno, ?_⟩
    simp only [hdone, htyped, Bool.false_eq_true, if_false, hno, if_true]
    cases r
    simp only at hdone
    subst hdone
    split <;> simp_all
  · refine .inr ⟨hno, ?_⟩
    simp only [hdone, htyped, Bool.false_eq_true, if_false, hno]
    split <;> simp

theorem Over.record (h : Over st) (hfin : st.finished = true) (hdone : (recordOf uni st.record).done = false) :
    (recordOf uni st.record).typed = false ∧ (recordOf uni st.record).fin = false ∧ NoType (recordOf uni st.record).buf := by
  unfold recordOf at hdone ⊢
  cases hrec : st.record with
  | none => exact ⟨rfl, rfl, noType_nil⟩
  | some r =>
    rw [hrec] at hdone
    exact (h hfin r hrec).resolve_left fun ht => absurd (hdone.symm.trans ht) (by decide)

variable (se now) in
theorem parseThenRemove_untyped (hdone : r.done = false) (htyped : r.typed = false) : NoType r.buf ∧ parseThenRemove se now r =
    (if r.fin then ⟨none, true, []⟩ else ⟨some r, false, []⟩) ∨ ¬ NoType r.buf ∧ (parseThenRemove se now r).acts ≠ [] := by
  unfold parseThenRemove
  rcases streamParse_untyped se now hdone htyped with ⟨hno, hparse⟩ | ⟨hno, hacts⟩
  · refine .inl ⟨hno, ?_⟩
    rw [hparse]
    cases hfin : r.fin <;> simp [hdone]
  · exact .inr ⟨hno, hacts⟩

theorem parseThenRemove_done (hdone : (parseThenRemove se now r).done = true) :
    ∀ r' ∈ (parseThenRemove se now r).record, r'.done = true := by
  unfold parseThenRemove at hdone ⊢
  simp only at hdone
  simp [hdone]

theorem callOn_done {found : Option MoqStream} (c : Call σ) (hdone : (callOn se uni found c).done = true) :
    ∀ r ∈ (callOn se uni found c).record, r.done = true := by
  cases c with
  | data now bytes =>
    simp only [callOn, onSessionStreamData] at hdone ⊢
    split_ifs at hdone ⊢ with hd hover
    · simpa using hd
    · simp
    · exact parseThenRemove_done hdone
  | fin now =>
    simp only [callOn, onSessionStreamFin] at hdone ⊢
    split_ifs at hdone ⊢ with hnone hd
    · simpa using hd
    · exact parseThenRemove_done hdone

/-! A call of a stream that has been done: what it does, and what it leaves. -/

theorem Over.fin (h : Over st) (hfin : st.finished = true) : (onSessionStreamFin se uni now st.record).acts = [] := by
  simp only [onSessionStreamFin]
  split_ifs with hnone hd
  · rfl
  · rfl
  · obtain ⟨htyped, -, hno⟩ := h.record hfin (by simpa using hd)
    rcases parseThenRemove_untyped se now (r := { recordOf uni st.record with fin := true }) (by simpa using hd)
      htyped with ⟨-, hparse⟩ | ⟨hsome, -⟩
    · rw [hparse]
      rfl
    · exact absurd hno hsome

theorem Over.data (h : Over st) (hfin : st.finished = true) (bytes : List Byte) :
    (onSessionStreamData se uni now st.record bytes).acts = [] ↔ BringsNoType uni st (.data now bytes) := by
  simp only [onSessionStreamData, BringsNoType, hfin, true_implies]
  split_ifs with hd hover
  · simp [hd]
  · simp [hd, hover.1, Nat.not_le.mpr hover.2]
  · obtain ⟨htyped, -, -⟩ := h.record hfin (by simpa using hd)
    have hfits : bytes = [] ∨ (recordOf uni st.record).buf.length + bytes.length ≤ MOQ_MAX_RECV_BUF := by
      by_cases hb : bytes = []
      · exact .inl hb
      · exact .inr (Nat.not_lt.mp fun hlt => hover ⟨hb, hlt⟩)
    rcases parseThenRemove_untyped se now
      (r := { recordOf uni st.record with buf := (recordOf uni st.record).buf ++ bytes }) (by simpa using hd) htyped with
      ⟨hno, hparse⟩ | ⟨hno, hacts⟩
    · rw [hparse]
      exact iff_of_true (by split <;> rfl) (.inr ⟨hfits, hno⟩)
    · exact iff_of_false hacts fun hok => hno (hok.resolve_left hd).2

theorem staysFinished_iff (h : Over st) (c : Call σ) : StaysFinished se uni st c ↔ BringsNoType uni st c := by
  unfold StaysFinished step
  cases hfin : st.finished with
  | false => cases c <;> simp [BringsNoType, hfin]
  | true =>
    cases c with
    | data now bytes => simpa [callOn] using h.data hfin bytes
    | fin now => simpa [callOn, BringsNoType] using h.fin hfin

theorem over_step (h : Over st) (c : Call σ) (hok : BringsNoType uni st c) : Over (step se uni st c) := by
  intro hafter r hr
  cases hdone : (callOn se uni st.record c).done with
  | true => exact .inl (callOn_done c hdone r hr)
  | false =>
    have hfin : st.finished = true := by simpa [step, hdone] using hafter
    right
    change r ∈ (callOn se uni st.record c).record at hr
    cases c with
    | data now bytes =>
      have hacts : (onSessionStreamData se uni now st.record bytes).acts = [] := (h.data hfin bytes).mpr hok
      simp only [callOn, onSessionStreamData] at hr hdone hacts
      split_ifs at hr hdone hacts with hd hover
      obtain ⟨htyped, hnofin, -⟩ := h.record hfin (by simpa using hd)
      rcases parseThenRemove_untyped se now
        (r := { recordOf uni st.record with buf := (recordOf uni st.record).buf ++ bytes }) (by simpa using hd) htyped with
        ⟨hno, hparse⟩ | ⟨-, hsome⟩
      · have hopen : ¬ (recordOf uni st.record).fin = true := by simp [hnofin]
        rw [hparse, if_neg hopen] at hr
        obtain rfl := Option.mem_some_iff.mp hr
        exact ⟨htyped, hnofin, hno⟩
      · exact absurd hacts hsome
    | fin now =>
      simp only [callOn, onSessionStreamFin] at hr hdone
      split_ifs at hr hdone with hnone hd
      · cases hr
      · obtain ⟨htyped, -, hno⟩ := h.record hfin (by simpa using hd)
        rcases parseThenRemove_untyped se now (r := { recordOf uni st.record with fin := true })
          (by simpa using hd) htyped with ⟨-, hparse⟩ | ⟨hsome, -⟩
        · rw [hparse] at hdone
          cases hdone
        · exact absurd hno hsome

theorem over_start (record : Option MoqStream) : Over (α := α) (start record) := by
  intro hfin r hr
  obtain rfl : record = some r := hr
  exact .inl (by simpa [start] using hfin)

/-- **Once a record of the stream has been done, no call does anything, in every run and exactly when every call after it
brings no type.** -/
theorem finished_stays_iff (se : Session σ α) (uni : Bool) (record : Option MoqStream) (calls : List (Call σ)) :
    (∀ pre c post, calls = pre ++ c :: post → StaysFinished se uni (pre.foldl (step se uni) (start record)) c) ↔
    StepsOk (step se uni) (BringsNoType uni) (start record) calls := by
  rw [← stepsOk_iff]
  refine stepsOk_congr (step se uni) Over (fun st c h => staysFinished_iff h c) ?_ calls (start record) (over_start record)
  exact fun st c h hok => over_step h c ((staysFinished_iff h c).mp hok)

end Parse

/-! ## A stream that is not refused for good -/

def oneSubscription : Session Unit Unit := { known := fun _ sub => sub = 1, request := fun _ r => (r, []) }

/-- A group of subscription 7, and what comes after it on its stream: bytes that read as a group of subscription 1. -/
def rejectedThenMore : List (Call Unit) :=
  [.data () [0x00, 0x03, 0x07, 0x00, 0x00], .data () [0x00, 0x03, 0x01, 0x00, 0x00, 0x00, 0x02, 0x05, 0xAA]]

/-- A group is rejected, and a later part of its stream is a group of another subscription. -/
theorem frame_of_rejected_group : ¬ (∀ pre c post, rejectedThenMore = pre ++ c :: post → StaysFinished oneSubscription true
    (pre.foldl (step oneSubscription true) (start none)) c) ∧ (rejectedThenMore.foldl (step oneSubscription true)
    (start none)).acts = [.streamType 0, .reset streamCancelled, .streamType 0, .frame 1 0 0 0 [0x05, 0xAA]] := by
  constructor
  · intro h
    have hmore := h (rejectedThenMore.take 1) (.data () [0x00, 0x03, 0x01, 0x00, 0x00, 0x00, 0x02, 0x05, 0xAA]) [] rfl
    revert hmore
    unfold StaysFinished
    decide +kernel
  · decide +kernel

end StreamRecords
end MoqLiveCast
