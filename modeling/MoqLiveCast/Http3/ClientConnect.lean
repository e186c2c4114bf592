import MoqLiveCast.Http3.Client
/-!
# ClientConnect — when a client is connected

The first chunk that comes to the data path while the client waits for the answer to its CONNECT is taken as the answer, whatever is
in it and wherever it comes.
-/
namespace MoqLiveCast

def fieldsOf (block : List Byte) : List (List Byte × List Byte) :=
  (qpackDecode block QPACK_MAX_FIELDS {}).fields.map (QpackHeaderField.pair block)

def Is2xx (status : List Byte) : Prop := status.length = 3 ∧ status.head? = some 0x32

instance (status : List Byte) : Decidable (Is2xx status) := inferInstanceAs (Decidable (_ ∧ _))

/-- **A whole HEADERS frame with a status 2xx** is among these bytes. -/
def Answered (bytes : List Byte) : Prop :=
  ∃ f ∈ h3FramesOf bytes.length bytes, f.1 = 1 ∧ ∃ p ∈ fieldsOf f.2, p.1 = h3Text ":status" ∧ Is2xx p.2

instance (bytes : List Byte) : Decidable (Answered bytes) := inferInstanceAs (Decidable (∃ f ∈ _, _ ∧ ∃ p ∈ _, _ ∧ _))

def AnsweredNow (log : List WtEvent) : Prop := ∃ sid ∈ connectsOf log, Answered (arrivedOn sid log)

instance (log : List WtEvent) : Decidable (AnsweredNow log) := inferInstanceAs (Decidable (∃ sid ∈ _, _))

def AnsweredBy (log : List WtEvent) : Prop := ∃ n ≤ log.length, AnsweredNow (log.take n)

instance (log : List WtEvent) : Decidable (AnsweredBy log) :=
  decidable_of_iff (∃ n < log.length + 1, AnsweredNow (log.take n)) <| by
    simp only [Order.lt_add_one_iff, AnsweredBy]

def WtEvent.Connected : WtEvent → Prop
  | .onConnect => True
  | .onStreamOpen _ => True
  | _ => False

/-- **A client is connected by the server's answer.** -/
def ConnectedByAnswer (log : List WtEvent) : Prop :=
  ∀ before e after, log = before ++ e :: after → e.Connected → AnsweredBy before

/-- **The condition**: a chunk that comes to the data path while the client waits is on the stream of a CONNECT and brings the rest
of an answer 2xx, or the answer was there before. -/
def AnswerOk (c : WtClient) : WtInput → Prop
  | .quicStream sid data _ =>
    c.state = .connectingWt → ¬(sid % 4 = 3 ∧ c.findStream sid = none ∧ (WtClient.builtinType data).isSome) →
      AnsweredNow (c.log ++ [.arrived sid data])
  | _ => True

instance (c : WtClient) : ∀ i : WtInput, Decidable (AnswerOk c i)
  | .quicStream _ _ _ => inferInstanceAs (Decidable (_ → _ → _))
  | .turn _ _ => inferInstanceAs (Decidable True)
  | .quicConnected => inferInstanceAs (Decidable True)
  | .quicClose => inferInstanceAs (Decidable True)

theorem AnsweredNow.answeredBy {log : List WtEvent} (h : AnsweredNow log) : AnsweredBy log :=
  ⟨log.length, Nat.le_refl _, by rwa [List.take_length]⟩

theorem AnsweredBy.append {log : List WtEvent} (h : AnsweredBy log) (more : List WtEvent) : AnsweredBy (log ++ more) := by
  obtain ⟨n, hn, hnow⟩ := h
  refine ⟨n, ?_, ?_⟩
  · rw [List.length_append]
    omega
  · rwa [List.take_append_of_le_length hn]

theorem ConnectedByAnswer.snoc {log : List WtEvent} (h : ConnectedByAnswer log) {e : WtEvent}
    (he : e.Connected → AnsweredBy log) : ConnectedByAnswer (log ++ [e]) := by
  intro before x after heq hx
  rcases List.eq_nil_or_concat after with rfl | ⟨init, y, rfl⟩
  · obtain ⟨rfl, hlast⟩ := List.append_inj' heq rfl
    simp only [List.cons.injEq, and_true] at hlast
    exact he (hlast ▸ hx)
  · rw [List.concat_eq_append, ← List.cons_append, ← List.append_assoc] at heq
    obtain ⟨rfl, -⟩ := List.append_inj' heq rfl
    exact h before x init rfl hx

theorem ConnectedByAnswer.snoc_other {log : List WtEvent} (h : ConnectedByAnswer log) {e : WtEvent} (he : ¬e.Connected) :
    ConnectedByAnswer (log ++ [e]) := h.snoc fun hc => absurd hc he

namespace WtClient

/-- A client that is connected has been told, and has told, by the answer. -/
structure AnswerInv (c : WtClient) : Prop where
  told : ConnectedByAnswer c.log
  connected : c.state = .connected → AnsweredBy c.log

theorem AnswerInv.runTask {c : WtClient} (h : c.AnswerInv) (t : WtTask) (sid : Option Nat) : (c.runTask t sid).AnswerInv := by
  cases t with
  | connect host path port =>
    unfold WtClient.runTask
    dsimp only
    split
    · exact ⟨h.told, fun hc => (nomatch hc)⟩
    · exact h
  | close => exact ⟨h.told, fun hc => (nomatch hc)⟩
  | openStream isUni =>
    unfold WtClient.runTask
    dsimp only
    split
    · rename_i hopen
      have hby := h.connected hopen.1
      cases sid with
      | none => exact h
      | some sid => exact ⟨h.told.snoc fun _ => hby, fun _ => hby.append _⟩
    · exact h
  | streamWrite k =>
    unfold WtClient.runTask
    dsimp only
    split
    · exact h
    · split <;> exact ⟨h.told, h.connected⟩

theorem AnswerInv.onBuiltin {c : WtClient} (h : c.AnswerInv) (stype : Nat) (sdata : List Byte) (connectSid : Option Nat) :
    (c.onBuiltin stype sdata connectSid).AnswerInv := by
  unfold WtClient.onBuiltin
  split
  · cases connectSid with
    | none => exact ⟨h.told, fun hc => (nomatch hc)⟩
    | some k =>
      unfold sendWtConnect
      dsimp only
      cases sendWtConnectInternal c.target.path c.target.authority with
      | none => exact ⟨h.told, fun hc => (nomatch hc)⟩
      | some hdr => exact ⟨h.told.snoc_other id, fun hc => (nomatch hc)⟩
  · exact h

theorem AnswerInv.onWtData {c : WtClient} (h : c.AnswerInv) (sid : Nat) (data : List Byte) : (c.onWtData sid data).AnswerInv := by
  obtain ⟨s, -, -, -, -, streams, heq⟩ := onWtData_spec c sid data
  rw [heq]
  generalize (if s.headerStripped = false ∧ 2 ≤ data.length then wtHeaderLen data else none).elim data data.drop = payload
  by_cases hp : payload = []
  · rw [if_pos hp, List.append_nil]
    exact ⟨h.told, h.connected⟩
  · rw [if_neg hp]
    exact ⟨h.told.snoc_other id, fun hc => (h.connected hc).append _⟩

theorem AnswerInv.step {c : WtClient} (h : c.AnswerInv) (i : WtInput) (hok : AnswerOk c i) : (c.step i).AnswerInv := by
  cases i with
  | turn t sid => exact h.runTask t sid
  | quicConnected => exact ⟨h.told, fun hc => (nomatch hc)⟩
  | quicClose => exact ⟨h.told.snoc_other id, fun hc => (h.connected hc).append _⟩
  | quicStream sid data connectSid =>
    have harrived : (c.note (.arrived sid data)).AnswerInv :=
      ⟨h.told.snoc_other id, fun hc => (h.connected hc).append _⟩
    change (c.onQuicStream sid data connectSid).AnswerInv
    unfold WtClient.onQuicStream
    dsimp only
    split
    · exact harrived.onBuiltin _ _ _
    · rename_i hpath
      split
      · rename_i hwaits
        have hnow : AnsweredNow (c.log ++ [.arrived sid data]) := by
          refine hok hwaits fun ⟨huni, hnew, htype⟩ => ?_
          rw [if_pos ⟨huni, hnew⟩] at hpath
          rw [hpath] at htype
          exact Bool.false_ne_true htype
        exact ⟨harrived.told.snoc fun _ => hnow.answeredBy, fun _ => hnow.answeredBy.append _⟩
      · exact harrived.onWtData sid data

/-- **A client is connected by the server's answer**, in every run in which the first chunk that it takes as the answer brings it. -/
theorem connected_by_answer (is : List WtInput) (hok : StepsOk step AnswerOk {} is) : ConnectedByAnswer (run is).log := by
  have hstart : ({} : WtClient).AnswerInv := by
    refine ⟨fun before e after heq => ?_, fun hc => (nomatch hc)⟩
    simp at heq
  exact (foldl_inv step AnswerOk AnswerInv (fun _ i h ho => h.step i ho) is _ hstart hok).told

def answerFrame : List Byte := 0x01 :: BitVec.ofNat 8 sendWtConnectResponse.length :: sendWtConnectResponse

/-- A connection is made and SETTINGS arrive; a chunk arrives on the stream of the CONNECT, and a stream is opened. -/
def connectRun (answer : List Byte) : List WtInput :=
  [.turn (.connect (h3Text "localhost") (h3Text "/moq") 443) none, .quicConnected, .quicStream 3 [0x00, 0x04, 0x00] (some 0),
    .quicStream 0 answer none, .turn (.openStream true) (some 2)]

theorem connected_by_200 : StepsOk step AnswerOk {} (connectRun answerFrame) ∧ ConnectedByAnswer (run (connectRun answerFrame)).log := by
  have hok : StepsOk step AnswerOk {} (connectRun answerFrame) := by decide +kernel
  exact ⟨hok, connected_by_answer _ hok⟩

def refusalFrame : List Byte := [0x01, 0x08, 0x00, 0x00, 0x5f, 0x0b, 0x03, 0x34, 0x30, 0x34]

/-- **The server says 404, and the client is connected.** -/
theorem connected_by_404 : ¬∀ is : List WtInput, ConnectedByAnswer (run is).log := by
  intro hall
  have htold := hall (connectRun refusalFrame) ((run (connectRun refusalFrame)).log.take 3) .onConnect
    ((run (connectRun refusalFrame)).log.drop 4) (by decide +kernel) trivial
  revert htold
  decide +kernel

end WtClient

end MoqLiveCast
