import MoqLiveCast.Lib.Run
import MoqLiveCast.Quic.ClientApi
/-!
# OpenIntents — what a stream was opened for (`moqlite/moq_lite_client.c`)

A stream is opened by a task, and the callback that gets it is not told which.  So every request but SETUP's leaves an
intent in `pending`, and the callback takes the first intent of the stream's class: a group stream's for a unidirectional
stream, any other's for a bidirectional one.  A unidirectional stream without an intent is SETUP's.

An open that fails is not reported, and its intent stays for the next stream: `stream_shifted`.  A subscription that died
meanwhile has its stream reset, whatever it was opened for; that is left out.
-/
namespace MoqLiveCast

open List

/-- What a stream is for: SETUP, or a `PendingOpen` (its kind, with its subscription or its box). -/
inductive OpenFor where
  | setup | announce
  | track (sub : Nat)
  | subscribe (sub : Nat)
  | trackGroup (box : Nat)
deriving DecidableEq

namespace OpenFor

def isGroup : OpenFor → Bool
  | .trackGroup _ => true
  | _ => false

def isUni : OpenFor → Bool
  | .setup | .trackGroup _ => true
  | _ => false

end OpenFor

namespace OpenIntents

def pendingPopKind (uni : Bool) : List OpenFor → Option (OpenFor × List OpenFor)
  | [] => none
  | p :: ps => if p.isGroup = uni then some (p, ps) else (pendingPopKind uni ps).map fun (po, rest) => (po, p :: rest)

def onSessionUniOpen (pending : List OpenFor) : Option OpenFor × List OpenFor :=
  match pendingPopKind true pending with
  | some (po, rest) => (some po, rest)
  | none => (some .setup, pending)

def onSessionBidiOpen (pending : List OpenFor) : Option OpenFor × List OpenFor :=
  match pendingPopKind false pending with
  | some (po, rest) => (some po, rest)
  | none => (none, pending)

/-- A session's client and intents, and the streams it was handed, each with what it was taken for.  Beside them what the
session does not know: the requests whose open is still in the queue, and what each stream was opened for. -/
structure OpenRun where
  client : QcClient
  pending : List OpenFor := []
  attached : List (Nat × Option OpenFor) := []
  asked : List OpenFor := []
  opened : List (Nat × OpenFor) := []

/-- `pending_push3` and the open that goes with it; SETUP's goes without. -/
def request (r : OpenRun) (p : OpenFor) : OpenRun :=
  { r with
    client := r.client.quicClientOpen p.isUni
    pending := if p = .setup then r.pending else r.pending ++ [p]
    asked := if r.client.Drops (.openStream p.isUni) then r.asked else r.asked ++ [p] }

def onOpen (r : OpenRun) (uni : Bool) (sid : Nat) : OpenRun :=
  let (po, pending) := if uni then onSessionUniOpen r.pending else onSessionBidiOpen r.pending
  { r with pending, attached := r.attached ++ [(sid, po)] }

/-- An event of the client that neither asks for a stream nor runs a task. -/
structure OtherEvent where
  event : QcClient.Event
  other : match event with
    | .push (.openStream _) | .turn _ => False
    | _ => True

inductive Event where
  | request (p : OpenFor)
  | turn (now : Nat)
  | other (e : OtherEvent)

section Step

variable (q : QueueFn)

/-- A turn of `async_cb`: the request of an open leaves the queue with it. -/
def turn (r : OpenRun) (now : Nat) : OpenRun :=
  let ran := r.client.asyncTurn q now
  match r.client.tasks, r.asked with
  | .openStream _ :: _, p :: asked =>
    match ran.2 with
    | .opened uni sid => onOpen { r with client := ran.1, asked, opened := r.opened ++ [(sid, p)] } uni sid
    | _ => { r with client := ran.1, asked }
  | _, _ => { r with client := ran.1 }

def step (r : OpenRun) : Event → OpenRun
  | .request p => request r p
  | .turn now => turn q r now
  | .other e => { r with client := (r.client.step q e.event).1 }

end Step

/-! ## What a stream should be taken for -/

/-- **Every stream was taken for what it was opened for.** -/
def OpensRight (r : OpenRun) : Prop := r.attached = r.opened.map fun (sid, p) => (sid, some p)

def HasCredit (ctx : QuicStreamCtx) (uni : Bool) : Prop :=
  let sid := if uni then ctx.nextLocalUniId else ctx.nextLocalBidiId
  let limit := if uni then ctx.maxStreamsUniPeer else ctx.maxStreamsBidiPeer
  sid ≠ NO_STREAM ∧ ¬ (limit ≤ sid / 4 ∧ 0 < limit)

instance (ctx : QuicStreamCtx) (uni : Bool) : Decidable (HasCredit ctx uni) := inferInstanceAs (Decidable (_ ∧ _))

/-- **No open with an intent is dropped or fails, and no group stream is asked for while SETUP's open is waiting.** -/
def IntentsKept (r : OpenRun) : Event → Prop
  | .request p => (p ≠ .setup → ¬ r.client.Drops (.openStream p.isUni)) ∧ (p.isGroup = true → .setup ∉ r.asked)
  | .turn _ =>
    match r.client.tasks, r.asked with
    | .openStream uni :: _, p :: _ =>
      p ≠ .setup → r.client.state = .connected ∧ r.client.closing = false ∧ HasCredit r.client.ctx uni
    | _, _ => True
  | .other _ => True

instance (r : OpenRun) (e : Event) : Decidable (IntentsKept r e) := by
  unfold IntentsKept
  split
  · infer_instance
  · split <;> infer_instance
  · infer_instance

def openTasks (ts : List QcTask) : List Bool :=
  ts.filterMap fun t => match t with
    | .openStream uni => some uni
    | _ => none

/-- The intents of each class are the requests of that class whose open waits, in order; and no group stream waits behind
SETUP's. -/
structure Aligned (r : OpenRun) : Prop where
  tasks : openTasks r.client.tasks = r.asked.map OpenFor.isUni
  intents : ∀ uni, r.pending.filter (fun p => p.isGroup = uni) =
    (r.asked.filter (fun p => p ≠ .setup)).filter fun p => p.isGroup = uni
  setup : r.asked.Pairwise fun p p' => p = .setup → p'.isGroup = false
  right : OpensRight r

theorem pendingPopKind_some {uni : Bool} {p : OpenFor} : ∀ {l ps : List OpenFor},
    l.filter (fun p => p.isGroup = uni) = p :: ps → ∃ rest, pendingPopKind uni l = some (p, rest) ∧
      rest.filter (fun p => p.isGroup = uni) = ps ∧
      rest.filter (fun p => p.isGroup ≠ uni) = l.filter fun p => p.isGroup ≠ uni
  | [], _, h => by cases h
  | x :: l, ps, h => by
    unfold pendingPopKind
    by_cases hx : x.isGroup = uni
    · simp only [filter_cons, hx, decide_true, if_true, List.cons.injEq] at h
      obtain ⟨rfl, rfl⟩ := h
      exact ⟨l, if_pos hx, rfl, by simp [hx]⟩
    · simp only [filter_cons, hx, decide_false, Bool.false_eq_true, if_false] at h
      obtain ⟨rest, hpop, hsame, hother⟩ := pendingPopKind_some h
      refine ⟨x :: rest, by rw [if_neg hx, hpop]; rfl, ?_, ?_⟩
      · simpa [filter_cons, hx] using hsame
      · simpa [filter_cons, hx] using hother

theorem pendingPopKind_none {uni : Bool} : ∀ {l : List OpenFor},
    l.filter (fun p => p.isGroup = uni) = [] → pendingPopKind uni l = none
  | [], _ => rfl
  | x :: l, h => by
    by_cases hx : x.isGroup = uni
    · simp [hx] at h
    · simp only [filter_cons, hx, decide_false, Bool.false_eq_true, if_false] at h
      unfold pendingPopKind
      rw [if_neg hx, pendingPopKind_none h]
      rfl

theorem isUni_eq {p : OpenFor} (h : p ≠ .setup) : p.isUni = p.isGroup := by
  cases p with
  | setup => exact absurd rfl h
  | _ => rfl

theorem openTasks_snoc (ts : List QcTask) (uni : Bool) : openTasks (ts ++ [.openStream uni]) = openTasks ts ++ [uni] := by
  simp [openTasks]

section Steps

variable {q : QueueFn} {r : OpenRun}

theorem onOpen_aligned (h : Aligned r) {p : OpenFor} {asked : List OpenFor} (hasked : r.asked = p :: asked)
    {client : QcClient} (htasks : openTasks client.tasks = asked.map OpenFor.isUni) (sid : Nat) :
    Aligned (onOpen { r with client, asked, opened := r.opened ++ [(sid, p)] } p.isUni sid) := by
  have hsetup := h.setup
  rw [hasked, pairwise_cons] at hsetup
  have hright : ∀ rest, OpensRight { r with
      client, asked, pending := rest, opened := r.opened ++ [(sid, p)], attached := r.attached ++ [(sid, some p)] } := fun rest => by
    show r.attached ++ [(sid, some p)] = (r.opened ++ [(sid, p)]).map _
    rw [h.right, map_append]
    rfl
  have hintents := h.intents
  rw [hasked] at hintents
  by_cases hp : p = .setup
  · subst hp
    have hnone : r.pending.filter (fun p => p.isGroup = true) = [] := by
      rw [hintents true, filter_filter, filter_eq_nil_iff]
      intro x hx
      rcases List.mem_cons.1 hx with rfl | hx
      · simp
      · simp [hsetup.1 x hx rfl]
    have hopen : onSessionUniOpen r.pending = (some .setup, r.pending) := by
      unfold onSessionUniOpen
      rw [pendingPopKind_none hnone]
    unfold onOpen
    simp only [OpenFor.isUni, if_true, hopen]
    refine ⟨htasks, fun uni => ?_, hsetup.2, hright r.pending⟩
    simpa using hintents uni
  · have hhead := hintents p.isGroup
    have hcons : ((p :: asked).filter (fun p => p ≠ .setup)).filter (fun x => x.isGroup = p.isGroup) =
        p :: (asked.filter (fun p => p ≠ .setup)).filter fun x => x.isGroup = p.isGroup := by simp [hp]
    rw [hcons] at hhead
    obtain ⟨rest, hpop, hsame, hother⟩ := pendingPopKind_some hhead
    have hopen : (if p.isUni = true then onSessionUniOpen r.pending else onSessionBidiOpen r.pending) = (some p, rest) := by
      rw [isUni_eq hp]
      cases hk : p.isGroup with
      | true =>
        rw [hk] at hpop
        simp [onSessionUniOpen, hpop]
      | false =>
        rw [hk] at hpop
        simp [onSessionBidiOpen, hpop]
    unfold onOpen
    simp only [hopen]
    refine ⟨htasks, fun uni => ?_, hsetup.2, hright rest⟩
    by_cases huni : p.isGroup = uni
    · rw [← huni]
      exact hsame
    · -- the other class keeps its intents
      have hneg : ∀ x : OpenFor, decide (x.isGroup ≠ p.isGroup) = decide (x.isGroup = uni) := fun x => by
        cases hx : x.isGroup <;> cases hk : p.isGroup <;> cases uni <;> simp_all
      have hkept : rest.filter (fun x => x.isGroup = uni) = r.pending.filter fun x => x.isGroup = uni := by
        simpa only [hneg] using hother
      have hskip : ((p :: asked).filter (fun p => p ≠ .setup)).filter (fun x => x.isGroup = uni) =
          (asked.filter (fun p => p ≠ .setup)).filter fun x => x.isGroup = uni := by simp [hp, huni]
      show rest.filter (fun x => x.isGroup = uni) = _
      rw [hkept, hintents uni, hskip]

theorem doOpenStream_opens (q : QueueFn) {c : QcClient} {uni : Bool} (h : HasCredit c.ctx uni) :
    ∃ sid, (c.doOpenStream q uni).2 = .opened uni sid := by
  cases uni with
  | true =>
    have hroom : ¬ (c.ctx.maxStreamsUniPeer ≤ c.ctx.nextLocalUniId / 4 ∧ 0 < c.ctx.maxStreamsUniPeer) := h.2
    have hopen : (quicStreamOpenUni q c.ctx).1 = c.ctx.nextLocalUniId := by
      unfold quicStreamOpenUni
      dsimp only
      rw [if_neg hroom]
    refine ⟨c.ctx.nextLocalUniId, ?_⟩
    simp only [QcClient.doOpenStream, if_true, hopen]
    exact if_neg h.1
  | false =>
    have hroom : ¬ (c.ctx.maxStreamsBidiPeer ≤ c.ctx.nextLocalBidiId / 4 ∧ 0 < c.ctx.maxStreamsBidiPeer) := h.2
    have hopen : (quicStreamOpen q c.ctx).1 = c.ctx.nextLocalBidiId := by
      unfold quicStreamOpen
      dsimp only
      rw [if_neg hroom]
    refine ⟨c.ctx.nextLocalBidiId, ?_⟩
    simp only [QcClient.doOpenStream, Bool.false_eq_true, if_false, hopen]
    exact if_neg h.1

theorem openFailed_aligned (h : Aligned r) {asked : List OpenFor} (hasked : r.asked = .setup :: asked) {client : QcClient}
    (htasks : openTasks client.tasks = asked.map OpenFor.isUni) : Aligned { r with client, asked } := by
  have hsetup := h.setup
  rw [hasked, pairwise_cons] at hsetup
  refine ⟨htasks, fun uni => ?_, hsetup.2, h.right⟩
  have hintents := h.intents uni
  rw [hasked] at hintents
  simpa using hintents

theorem Aligned.client (h : Aligned r) {client : QcClient} (hopens : openTasks client.tasks = openTasks r.client.tasks) :
    Aligned { r with client } := ⟨hopens.trans h.tasks, h.intents, h.setup, h.right⟩

theorem runTask_open (q : QueueFn) (now : Nat) (c : QcClient) (uni : Bool) :
    (∃ sid, (c.runTask q now (.openStream uni)).2 = .opened uni sid) ∨ (c.runTask q now (.openStream uni)).2 = .openFailed uni := by
  have hopen : ∀ sid, (∃ id, (if sid = NO_STREAM then QcClient.Done.openFailed uni else .opened uni sid) = .opened uni id) ∨
      (if sid = NO_STREAM then QcClient.Done.openFailed uni else .opened uni sid) = .openFailed uni := fun sid => by
    split
    · exact .inr rfl
    · exact .inl ⟨sid, rfl⟩
  unfold QcClient.runTask
  dsimp only
  split
  · exact hopen _
  · exact .inr rfl

theorem runTask_opens (q : QueueFn) (now : Nat) {c : QcClient} {uni : Bool} (h : c.state = .connected ∧ c.closing = false ∧
    HasCredit c.ctx uni) : ∃ sid, (c.runTask q now (.openStream uni)).2 = .opened uni sid := by
  obtain ⟨hstate, hclosing, hcredit⟩ := h
  obtain ⟨sid, hsid⟩ := doOpenStream_opens q hcredit
  refine ⟨sid, ?_⟩
  unfold QcClient.runTask
  dsimp only
  rw [if_pos ⟨hstate, hclosing⟩]
  exact hsid

theorem turn_aligned (h : Aligned r) (now : Nat) (hok : IntentsKept r (.turn now)) : Aligned (turn q r now) := by
  have htail := QcClient.asyncTurn_tasks q now r.client
  have htasks := h.tasks
  unfold IntentsKept at hok
  unfold turn
  cases hts : r.client.tasks with
  | nil =>
    refine h.client ?_
    rw [htail, hts]
    rfl
  | cons t ts =>
    rw [hts] at htasks htail hok
    by_cases hopen : ∃ uni, t = .openStream uni
    · obtain ⟨uni, rfl⟩ := hopen
      have hran : r.client.asyncTurn q now = QcClient.runTask q now { r.client with tasks := ts } (.openStream uni) := by
        unfold QcClient.asyncTurn
        rw [hts]
      cases hasked : r.asked with
      | nil =>
        rw [hasked] at htasks
        cases htasks
      | cons p asked =>
        rw [hasked] at htasks hok
        obtain ⟨rfl, hrest⟩ : uni = p.isUni ∧ openTasks ts = asked.map OpenFor.isUni := by
          simpa [openTasks] using htasks
        have hleft : openTasks (r.client.asyncTurn q now).1.tasks = asked.map OpenFor.isUni := by
          rw [htail]
          exact hrest
        dsimp only
        rcases runTask_open q now { r.client with tasks := ts } p.isUni with ⟨sid, hdone⟩ | hdone
        · rw [hran] at hleft ⊢
          rw [hdone]
          exact onOpen_aligned h hasked hleft sid
        · have hp : p = .setup := by
            by_contra hp
            obtain ⟨sid, hsid⟩ := runTask_opens q now (c := { r.client with tasks := ts }) (hok hp)
            rw [hdone] at hsid
            cases hsid
          subst hp
          rw [hran] at hleft ⊢
          rw [hdone]
          exact openFailed_aligned h hasked hleft
    · have hskip : openTasks (t :: ts) = openTasks ts := by
        cases t with
        | openStream uni => exact absurd ⟨uni, rfl⟩ hopen
        | _ => rfl
      have hsame : openTasks (r.client.asyncTurn q now).1.tasks = openTasks r.client.tasks := by
        rw [htail, hts, hskip]
        rfl
      cases t with
      | openStream uni => exact absurd ⟨uni, rfl⟩ hopen
      | _ => exact h.client hsame

theorem request_aligned (h : Aligned r) {p : OpenFor} (hok : IntentsKept r (.request p)) : Aligned (request r p) := by
  obtain ⟨hroom, hbehind⟩ := hok
  unfold request
  by_cases hdrops : r.client.Drops (.openStream p.isUni)
  · have hp : p = .setup := by
      by_contra hp
      exact hroom hp hdrops
    subst hp
    have hsame : r.client.quicClientOpen OpenFor.setup.isUni = r.client := if_pos hdrops
    rw [hsame, if_pos hdrops, if_pos rfl]
    exact h
  · have hpush : r.client.quicClientOpen p.isUni = { r.client with tasks := r.client.tasks ++ [.openStream p.isUni] } :=
      if_neg hdrops
    rw [hpush, if_neg hdrops]
    refine ⟨?_, fun uni => ?_, ?_, h.right⟩
    · show openTasks (r.client.tasks ++ [.openStream p.isUni]) = (r.asked ++ [p]).map OpenFor.isUni
      rw [openTasks_snoc, h.tasks, map_append]
      rfl
    · show (if p = .setup then r.pending else r.pending ++ [p]).filter _ = ((r.asked ++ [p]).filter _).filter _
      have hintents := h.intents uni
      by_cases hp : p = .setup
      · rw [if_pos hp, hintents]
        simp [hp]
      · rw [if_neg hp, filter_append, filter_append, filter_append, hintents]
        simp [hp]
    · show (r.asked ++ [p]).Pairwise _
      refine List.pairwise_append.2 ⟨h.setup, pairwise_singleton _ _, fun x hx y hy hsetup => ?_⟩
      rw [List.mem_singleton.1 hy]
      cases hgroup : p.isGroup with
      | false => rfl
      | true => exact absurd (hsetup ▸ hx) (hbehind hgroup)

theorem step_aligned (h : Aligned r) (e : Event) (hok : IntentsKept r e) : Aligned (step q r e) := by
  cases e with
  | request p => exact request_aligned h hok
  | turn now => exact turn_aligned h now hok
  | other e =>
    refine h.client ?_
    obtain ⟨event, other⟩ := e
    cases event with
    | push t =>
      show openTasks (r.client.taskPush t).tasks = _
      unfold QcClient.taskPush
      split
      · rfl
      · cases t with
        | openStream uni => cases other
        | _ => simp [openTasks]
    | turn now => cases other
    | _ => rfl

end Steps

/-- **In every run that keeps its intents, every stream is taken for what it was opened for.** -/
theorem intents_match (q : QueueFn) (client : QcClient) (hidle : client.tasks = []) (events : List Event)
    (hok : StepsOk (step q) IntentsKept { client } events) (pre post : List Event) (hpre : events = pre ++ post) :
    OpensRight (pre.foldl (step q) { client }) := by
  have hstart : Aligned { client } := by
    refine ⟨?_, fun _ => rfl, List.Pairwise.nil, rfl⟩
    show openTasks client.tasks = []
    rw [hidle]
    rfl
  rw [hpre, stepsOk_append] at hok
  exact (foldl_inv (step q) IntentsKept Aligned (fun r e h he => step_aligned h e he) pre { client } hstart hok.1).right

/-- A connected client whose peer allows one unidirectional stream, SETUP's, which is open. -/
def oneUniStream : QcClient := { state := .connected, ctx := { nextLocalUniId := 6, maxStreamsUniPeer := 1 } }

/-- A group stream of box 1 is refused; the peer raises the limit; box 2 asks for one. -/
def refusedThenOpened : List Event :=
  [.request (.trackGroup 1), .turn 0, .other ⟨.layer ⟨.onMaxStreams 100 false, trivial⟩, trivial⟩, .request (.trackGroup 2),
   .turn 0]

/-- **The stream of box 2 goes to box 1.** -/
theorem stream_shifted :
    let r := refusedThenOpened.foldl (step fun _ _ => true) { client := oneUniStream }
    r.opened = [(6, .trackGroup 2)] ∧ r.attached = [(6, some (.trackGroup 1))] ∧ r.pending = [.trackGroup 2] ∧
      ¬ OpensRight r := by
  refine ⟨by decide +kernel, by decide +kernel, by decide +kernel, ?_⟩
  unfold OpensRight
  decide +kernel

theorem intents_match_sample :
    OpensRight (([.request .setup, .request .announce, .turn 0] : List Event).foldl (step fun _ _ => true)
      { client := { state := .connected, ctx := {} } }) :=
  intents_match (fun _ _ => true) { state := .connected, ctx := {} } rfl
    [.request .setup, .request .announce, .turn 0, .turn 0] (by decide +kernel) _ [.turn 0] rfl

end OpenIntents
end MoqLiveCast
