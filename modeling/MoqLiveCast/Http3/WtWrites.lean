import Mathlib.Data.List.Nodup
import Mathlib.Data.List.Perm.Basic
import Mathlib.Data.List.Range
import MoqLiveCast.Http3.Frames
import MoqLiveCast.Lib.Run
/-!
# WtWrites — what is written to a WebTransport stream (`webtransport_client_api.c`, `webtransport_server_api.c`)

A client's writes are tasks, which the loop thread takes one by one and hands to QUIC.  QUIC takes a write whole and calls it back
later, or has no room for it, or fails: then it calls back before it returns.  The stream's header is glued to its first write.
-/
namespace MoqLiveCast

open List

structure WtStream where
  streamId : Nat
  headerSent : Bool := false
  headerStripped : Bool := false
  isUni : Bool
deriving DecidableEq

namespace WtStream

def streamType (s : WtStream) : Nat := if s.isUni ∧ s.streamId % 4 = 2 then H3_STREAM_TYPE_WEBTRANSPORT else 0x41

def header (s : WtStream) : List Byte :=
  (if s.streamType < 64 then [BitVec.ofNat 8 s.streamType]
    else [0x40 ||| BitVec.ofNat 8 (s.streamType / 256 % 64), BitVec.ofNat 8 (s.streamType % 256)]) ++ [0x00]

def opened (k : Nat) (isUni : Bool) : WtStream := ⟨4 * k + if isUni then 2 else 0, false, false, isUni⟩

end WtStream

/-- What `QuicConnectionStreamSendEx` answers: 0, 1 and -1. -/
inductive WriteAnswer where
  | accepted | congested | failed
deriving DecidableEq

structure WriteTask where
  call : Nat
  data : List Byte
deriving DecidableEq

/-- A stream of the client with the tasks for it, the bytes that QUIC took of it, the writes that QUIC has yet to call back, and
what was called back so far; `calls` and `handed` tell the calls, and the writes that were handed to QUIC. -/
structure WtWriter where
  stream : WtStream
  tasks : List WriteTask := []
  taken : List Byte := []
  held : List Nat := []
  called : List (Nat × Int) := []
  calls : Nat := 0
  handed : List (WriteAnswer × WriteTask) := []
deriving DecidableEq

inductive WriteEvent where
  | write (data : List Byte)
  | turn (answer : WriteAnswer)
  | done (i : Nat) (ret : Int)

namespace WtWriter

def write (w : WtWriter) (data : List Byte) : WtWriter :=
  { w with tasks := w.tasks ++ [⟨w.calls, data⟩], calls := w.calls + 1 }

def streamSendEx (w : WtWriter) (t : WriteTask) (bytes : List Byte) (answer : WriteAnswer) : WtWriter :=
  let w := { w with handed := w.handed ++ [(answer, t)] }
  match answer with
  | .accepted => { w with taken := w.taken ++ bytes, held := w.held ++ [t.call] }
  | .congested => w
  | .failed => { w with called := w.called ++ [(t.call, -1)] }

def doStreamWrite (w : WtWriter) (t : WriteTask) (answer : WriteAnswer) : WtWriter :=
  if w.stream.streamId % 4 = 3 then { w with called := w.called ++ [(t.call, -1)] }
  else if w.stream.headerSent then w.streamSendEx t t.data answer
  else { w.streamSendEx t (w.stream.header ++ t.data) answer with stream := { w.stream with headerSent := true } }

/-- The stream's next task in `async_cb`, if there is one. -/
def turn (w : WtWriter) (answer : WriteAnswer) : WtWriter :=
  match w.tasks with
  | [] => w
  | t :: ts => { w with tasks := ts }.doStreamWrite t answer

/-- `wt_write_done_cb` for a write that QUIC has. -/
def done (w : WtWriter) (i : Nat) (ret : Int) : WtWriter :=
  match w.held[i]? with
  | none => w
  | some c => { w with held := w.held.eraseIdx i, called := w.called ++ [(c, ret)] }

def step (w : WtWriter) : WriteEvent → WtWriter
  | .write data => w.write data
  | .turn answer => w.turn answer
  | .done i ret => w.done i ret

def start (k : Nat) (isUni : Bool) : WtWriter := { stream := WtStream.opened k isUni }

def run (k : Nat) (isUni : Bool) (es : List WriteEvent) : WtWriter := es.foldl step (start k isUni)

def accepted (w : WtWriter) : List WriteTask := (w.handed.filter fun h => h.1 = .accepted).map Prod.snd

/-- How often the call `i` waits, is with QUIC, or was called back. -/
def settled (w : WtWriter) (i : Nat) : Nat :=
  (w.tasks.map WriteTask.call).count i + w.held.count i + (w.called.map Prod.fst).count i

/-- **The stream is whole**: what QUIC took is the header and the writes that it took, in the order of the calls, and every call
waits, is with QUIC, or was called back, once. -/
def Framed (w : WtWriter) : Prop :=
  w.taken = (if w.accepted = [] then [] else w.stream.header) ++ w.accepted.flatMap WriteTask.data ∧
    (w.accepted.map WriteTask.call).Pairwise (· < ·) ∧ ∀ i < w.calls, w.settled i = 1

/-- **The condition**: QUIC has room for every write, and if it takes one it has taken the first. -/
def Kept (answers : List WriteAnswer) : Prop :=
  .congested ∉ answers ∧ (.accepted ∈ answers → answers.head? = some .accepted)

def answers : Nat → List WriteEvent → List WriteAnswer
  | _, [] => []
  | n, .write _ :: es => answers (n + 1) es
  | 0, .turn _ :: es => answers 0 es
  | n + 1, .turn a :: es => a :: answers n es
  | n, .done _ _ :: es => answers n es

/-! ## The ledger -/

/-- The data that is taken when the header is glued to the first write only. -/
def glued (header : List Byte) : List (WriteAnswer × WriteTask) → List Byte
  | [] => []
  | h :: hs =>
    (if h.1 = .accepted then header ++ h.2.data else []) ++
      ((hs.filter fun h => h.1 = .accepted).map Prod.snd).flatMap WriteTask.data

theorem glued_append (header : List Byte) (hs : List (WriteAnswer × WriteTask)) (h : WriteAnswer × WriteTask) :
    glued header (hs ++ [h]) =
      glued header hs ++ if h.1 = .accepted then (if hs = [] then header else []) ++ h.2.data else [] := by
  cases hs with
  | nil => by_cases ha : h.1 = .accepted <;> simp [glued, ha]
  | cons x hs => by_cases ha : h.1 = .accepted <;> simp [glued, filter_append, ha]

/-- **What was handed to QUIC, and what became of it.** -/
structure Ledger (w : WtWriter) : Prop where
  ours : w.stream.streamId % 4 ≠ 3
  sent : w.stream.headerSent = true ↔ w.handed ≠ []
  numbered : (w.handed.map fun h => h.2.call) ++ w.tasks.map WriteTask.call = range w.calls
  answered : (w.held ++ w.called.map Prod.fst).Perm ((w.handed.filter fun h => h.1 ≠ .congested).map fun h => h.2.call)
  taken : w.taken = glued w.stream.header w.handed

theorem ledger_start (k : Nat) (isUni : Bool) : (start k isUni).Ledger := by
  refine ⟨?_, by simp [start, WtStream.opened], rfl, List.Perm.refl _, rfl⟩
  cases isUni <;> simp [start, WtStream.opened]

theorem turn_spec {w : WtWriter} (h : w.Ledger) {t : WriteTask} {ts : List WriteTask} (htasks : w.tasks = t :: ts)
    (answer : WriteAnswer) : (w.turn answer).stream = { w.stream with headerSent := true } ∧ (w.turn answer).tasks = ts ∧
      (w.turn answer).calls = w.calls ∧ (w.turn answer).handed = w.handed ++ [(answer, t)] ∧
      (w.turn answer).taken = w.taken ++
        (if answer = .accepted then (if w.handed = [] then w.stream.header else []) ++ t.data else []) ∧
      ((w.turn answer).held ++ (w.turn answer).called.map Prod.fst).Perm
        (w.held ++ w.called.map Prod.fst ++ if answer = .congested then [] else [t.call]) := by
  unfold turn
  rw [htasks]
  dsimp only
  unfold doStreamWrite
  rw [if_neg h.ours]
  by_cases hs : w.stream.headerSent = true
  · have hkept : { w.stream with headerSent := true } = w.stream := by rw [← hs]
    rw [if_pos hs, if_neg (h.sent.1 hs), hkept]
    cases answer with
    | accepted => simpa [streamSendEx] using (perm_append_singleton _ _).symm.append_left w.held
    | congested => simp [streamSendEx]
    | failed => simp [streamSendEx]
  · have hfirst : w.handed = [] := by
      by_contra hne
      exact hs (h.sent.2 hne)
    rw [if_neg hs, if_pos hfirst]
    cases answer with
    | accepted => simpa [streamSendEx] using (perm_append_singleton _ _).symm.append_left w.held
    | congested => simp [streamSendEx]
    | failed => simp [streamSendEx]

theorem Ledger.turn {w : WtWriter} (h : w.Ledger) (answer : WriteAnswer) : (w.turn answer).Ledger := by
  cases htasks : w.tasks with
  | nil =>
    have hsame : w.turn answer = w := by
      unfold WtWriter.turn
      rw [htasks]
    rw [hsame]
    exact h
  | cons t ts =>
    obtain ⟨hstream, hrest, hcalls, hhanded, htaken, hsettled⟩ := turn_spec h htasks answer
    have hnumbered := h.numbered
    rw [htasks] at hnumbered
    refine ⟨?_, ?_, ?_, ?_, ?_⟩
    · rw [hstream]
      exact h.ours
    · simp [hstream, hhanded]
    · rw [hhanded, hrest, hcalls, ← hnumbered]
      simp
    · refine hsettled.trans ?_
      rw [hhanded, filter_append, map_append]
      refine h.answered.append ?_
      cases answer <;> simp
    · rw [htaken, hhanded, glued_append, h.taken, hstream]
      rfl

theorem Ledger.write {w : WtWriter} (h : w.Ledger) (data : List Byte) : (w.write data).Ledger := by
  refine ⟨h.ours, h.sent, ?_, h.answered, h.taken⟩
  unfold WtWriter.write
  dsimp only
  rw [map_append, ← append_assoc, h.numbered, range_succ]
  rfl

theorem Ledger.done {w : WtWriter} (h : w.Ledger) (i : Nat) (ret : Int) : (w.done i ret).Ledger := by
  unfold WtWriter.done
  split
  · exact h
  · rename_i c hc
    refine ⟨h.ours, h.sent, h.numbered, List.Perm.trans ?_ h.answered, h.taken⟩
    obtain ⟨hi, rfl⟩ := List.getElem?_eq_some_iff.1 hc
    dsimp only
    rw [map_append, ← append_assoc]
    refine (perm_append_singleton _ _).trans ?_
    rw [← cons_append]
    exact (getElem_cons_eraseIdx_perm hi).append_right _

theorem Ledger.step {w : WtWriter} (h : w.Ledger) (e : WriteEvent) : (w.step e).Ledger := by
  cases e with
  | write data => exact h.write data
  | turn answer => exact h.turn answer
  | done i ret => exact h.done i ret

theorem ledger_run (k : Nat) (isUni : Bool) (es : List WriteEvent) : (run k isUni es).Ledger :=
  foldl_inv step (fun _ _ => True) Ledger (fun _ e h _ => h.step e) es _ (ledger_start k isUni)
    (stepsOk_of_forall step _ es _ fun _ _ _ => trivial)

/-! ## Whole streams -/

theorem Ledger.nodup {w : WtWriter} (h : w.Ledger) :
    ((w.handed.map fun h => h.2.call) ++ w.tasks.map WriteTask.call).Nodup := h.numbered ▸ nodup_range

theorem Ledger.settled_add {w : WtWriter} (h : w.Ledger) {i : Nat} (hi : i < w.calls) :
    w.settled i + ((w.handed.filter fun h => h.1 = .congested).map fun h => h.2.call).count i = 1 := by
  have hone : ((w.handed.map fun h => h.2.call) ++ w.tasks.map WriteTask.call).count i = 1 :=
    count_eq_one_of_mem h.nodup (h.numbered ▸ List.mem_range.2 hi)
  have hanswered := h.answered.count_eq i
  have hsplit := ((filter_append_perm (fun h : WriteAnswer × WriteTask => h.1 = .congested) w.handed).map
    fun h => h.2.call).count_eq i
  rw [map_append, count_append] at hsplit
  rw [count_append] at hone hanswered
  unfold settled
  simp only [ne_eq, decide_not] at hanswered
  omega

theorem Ledger.settled_iff {w : WtWriter} (h : w.Ledger) :
    (∀ i < w.calls, w.settled i = 1) ↔ .congested ∉ w.handed.map Prod.fst := by
  constructor
  · intro hall hmem
    obtain ⟨x, hx, hcong⟩ := List.mem_map.1 hmem
    have hin : x.2.call ∈ range w.calls := by
      rw [← h.numbered]
      exact mem_append_left _ (mem_map_of_mem hx)
    have hlost : x.2.call ∈ (w.handed.filter fun h => h.1 = .congested).map fun h => h.2.call :=
      List.mem_map.2 ⟨x, List.mem_filter.2 ⟨hx, by simp [hcong]⟩, rfl⟩
    have hpos := List.count_pos_iff.2 hlost
    have hsum := h.settled_add (List.mem_range.1 hin)
    have hone := hall _ (List.mem_range.1 hin)
    omega
  · intro hroom i hi
    have hnone : (w.handed.filter fun h => h.1 = .congested) = [] := by
      rw [filter_eq_nil_iff]
      intro x hx hcong
      exact hroom (List.mem_map.2 ⟨x, hx, by simpa using hcong⟩)
    have hsum := h.settled_add hi
    rw [hnone, map_nil, count_nil] at hsum
    exact hsum

theorem header_ne_nil (s : WtStream) : s.header ≠ [] := by
  unfold WtStream.header
  simp

theorem glued_iff {header : List Byte} (hne : header ≠ []) (hs : List (WriteAnswer × WriteTask)) :
    glued header hs = (if (hs.filter fun h => h.1 = .accepted).map Prod.snd = [] then [] else header) ++
        ((hs.filter fun h => h.1 = .accepted).map Prod.snd).flatMap WriteTask.data ↔
      (.accepted ∈ hs.map Prod.fst → (hs.map Prod.fst).head? = some .accepted) := by
  cases hs with
  | nil => simp [glued]
  | cons h hs =>
    by_cases ha : h.1 = .accepted
    · simp [glued, ha]
    · have hmem : .accepted ∈ hs.map Prod.fst ↔ (hs.filter fun h => h.1 = .accepted).map Prod.snd ≠ [] := by
        rw [Ne, map_eq_nil_iff, filter_eq_nil_iff, mem_map]
        simp
      have hfirst : .accepted ∈ (h :: hs).map Prod.fst ↔ (hs.filter fun h => h.1 = .accepted).map Prod.snd ≠ [] := by
        rw [← hmem, map_cons, mem_cons, or_iff_right (Ne.symm ha)]
      have hhead : ((h :: hs).map Prod.fst).head? ≠ some .accepted := by simpa using ha
      rw [hfirst, filter_cons_of_neg (by simpa using ha), glued, if_neg ha, nil_append]
      by_cases hacc : (hs.filter fun h => h.1 = .accepted).map Prod.snd = []
      · rw [if_pos hacc]
        exact iff_of_true rfl fun hn => absurd hacc hn
      · rw [if_neg hacc]
        refine iff_of_false (fun heq => ?_) fun hkept => hhead (hkept hacc)
        have hlen := congrArg List.length heq
        rw [length_append] at hlen
        exact hne (List.length_eq_zero_iff.1 (by omega))

theorem Ledger.ordered {w : WtWriter} (h : w.Ledger) : (w.accepted.map WriteTask.call).Pairwise (· < ·) := by
  have hrange : ((w.handed.map fun h => h.2.call) ++ w.tasks.map WriteTask.call).Pairwise (· < ·) :=
    h.numbered ▸ pairwise_lt_range
  refine List.Pairwise.sublist ?_ (List.pairwise_append.1 hrange).1
  unfold accepted
  rw [map_map]
  exact List.filter_sublist.map _

theorem handed_answers : ∀ (es : List WriteEvent) {w : WtWriter}, w.Ledger →
    (es.foldl step w).handed.map Prod.fst = w.handed.map Prod.fst ++ answers w.tasks.length es
  | [], w, _ => (append_nil _).symm
  | e :: es, w, h => by
    rw [foldl_cons, handed_answers es (h.step e)]
    cases e with
    | write data => simp [step, WtWriter.write, answers]
    | done i ret =>
      have hsame : (w.done i ret).handed = w.handed ∧ (w.done i ret).tasks = w.tasks := by
        unfold WtWriter.done
        split <;> exact ⟨rfl, rfl⟩
      rw [step, hsame.1, hsame.2, answers]
    | turn answer =>
      cases htasks : w.tasks with
      | nil => simp [step, WtWriter.turn, htasks, answers]
      | cons t ts =>
        obtain ⟨-, hrest, -, hhanded, -, -⟩ := turn_spec h htasks answer
        rw [step, hhanded, hrest, length_cons, answers]
        simp

/-- **A stream that the client opens is whole exactly when QUIC has room for every write, and takes the first if it takes one.** -/
theorem framed_iff_kept (k : Nat) (isUni : Bool) (es : List WriteEvent) : (run k isUni es).Framed ↔ Kept (answers 0 es) := by
  have h := ledger_run k isUni es
  have hanswers : (run k isUni es).handed.map Prod.fst = answers 0 es := handed_answers es (ledger_start k isUni)
  unfold Framed Kept
  rw [← hanswers, h.taken, ← h.settled_iff]
  unfold accepted
  rw [glued_iff (header_ne_nil _)]
  constructor
  · rintro ⟨hfirst, -, hall⟩
    exact ⟨hall, hfirst⟩
  · rintro ⟨hall, hfirst⟩
    exact ⟨hfirst, h.ordered, hall⟩

/-- **No room for the first write**: the second goes without a header, and the first is never called back. -/
theorem header_lost : ¬∀ (k : Nat) (isUni : Bool) (es : List WriteEvent), (run k isUni es).Framed := by
  intro hall
  obtain ⟨htaken, -, -⟩ := hall 1 false [.write [1], .turn .congested, .write [2], .turn .accepted]
  revert htaken
  decide

end WtWriter

/-! ## The server's writes -/

/-- `wt_stream` of the server, on the send side, with the bytes that QUIC took. -/
structure WtServerWriter where
  isUni : Bool
  peerInitiated : Bool
  headerSent : Bool := false
  taken : List Byte := []

namespace WtServerWriter

def header (w : WtServerWriter) : List Byte := [0x40, if w.isUni then 0x54 else 0x41, 0x00]

def refuses (w : WtServerWriter) : Bool := w.peerInitiated && w.isUni

/-- `wt_stream_write`: the header counts as sent once it was taken. -/
def wtStreamWrite (w : WtServerWriter) (data : List Byte) (answer : WriteAnswer) : WtServerWriter :=
  if w.refuses then w
  else if w.headerSent = false ∧ w.peerInitiated = false then
    if answer = .accepted then { w with headerSent := true, taken := w.taken ++ (w.header ++ data) } else w
  else if answer = .accepted then { w with taken := w.taken ++ data } else w

def writes (w : WtServerWriter) (ws : List (List Byte × WriteAnswer)) : WtServerWriter :=
  ws.foldl (fun w x => w.wtStreamWrite x.1 x.2) w

/-- The data of the writes that are taken. -/
def accepted (w : WtServerWriter) (ws : List (List Byte × WriteAnswer)) : List (List Byte) :=
  if w.refuses then [] else (ws.filter fun x => x.2 = .accepted).map Prod.fst

theorem writes_taken : ∀ (ws : List (List Byte × WriteAnswer)) (w : WtServerWriter), (w.writes ws).taken = w.taken ++
    (if w.headerSent ∨ w.peerInitiated ∨ w.accepted ws = [] then [] else w.header) ++ (w.accepted ws).flatten
  | [], w => by simp [writes, accepted]
  | (data, answer) :: ws, ⟨isUni, peerInitiated, headerSent, taken⟩ => by
    have ih := writes_taken ws (wtStreamWrite ⟨isUni, peerInitiated, headerSent, taken⟩ data answer)
    unfold writes at ih ⊢
    rw [foldl_cons, ih]
    cases answer <;> cases isUni <;> cases peerInitiated <;> cases headerSent <;>
      simp [wtStreamWrite, accepted, refuses, header] <;> rfl

/-- **What the server writes on a stream is what the client finds behind the header**, whatever QUIC answers: on a stream that it opened
the header is never lost, and on one of the client there is none. -/
theorem server_writes_read (isUni peerInitiated : Bool) (ws : List (List Byte × WriteAnswer)) : (if peerInitiated then (writes
    ⟨isUni, true, false, []⟩ ws).taken else wtPayload (writes ⟨isUni, false, false, []⟩ ws).taken) = (accepted ⟨isUni,
    peerInitiated, false, []⟩ ws).flatten := by
  cases peerInitiated with
  | true => rw [if_pos rfl, writes_taken]; simp
  | false =>
    rw [if_neg Bool.false_ne_true, writes_taken]
    by_cases hnone : accepted ⟨isUni, false, false, []⟩ ws = []
    · rw [hnone]
      rfl
    · rw [if_neg (by simpa using hnone)]
      cases isUni <;> rfl

end WtServerWriter
end MoqLiveCast
