import MoqLiveCast.Moq.LiteStreams
/-!
# LiteSteady — the parsers that more bytes do not disturb

Each parser but those of a stream that is past its end reads one message and says what follows from it: the same whatever is
behind the message (`parse_steady`), and from no more than the message.
-/
namespace MoqLiveCast

/-- **A reader of what stands at the front**: what it has read stays so when more bytes are there, and it is read from the
bytes it covers. -/
structure FrontReads {α : Type} (front : List Byte → MlFront α) : Prop where
  append : ∀ {b : List Byte} (x : List Byte), front b ≠ .needMore → front (b ++ x) = front b
  bounds : ∀ {b body : List Byte} {mark : α} {size : Nat}, front b = .whole mark body size → 0 < size ∧ size ≤ b.length
  exact : ∀ {b body : List Byte} {mark : α} {size : Nat}, front b = .whole mark body size →
    front (b.take size) = .whole mark body size

theorem frontReads_message : FrontReads frontMessage := ⟨frontMessage_append, frontMessage_bounds, frontMessage_take⟩

theorem frontReads_typed : FrontReads frontTyped := ⟨frontTyped_append, frontTyped_bounds, frontTyped_take⟩

def frontType (b : List Byte) : MlFront (BitVec 64) :=
  match (mlReadVarint b 0).read with
  | none => .needMore
  | some (type, off) => .whole type [] off

/-- A SETUP, with the offset behind its length; its body is the message from the front. -/
def frontSetup (b : List Byte) : MlFront Nat :=
  match (mlReadVarint b 0).read with
  | none => .needMore
  | some (msgLen, off) =>
    if b.length < off + msgLen.toNat then .needMore else .whole off (b.take (off + msgLen.toNat)) (off + msgLen.toNat)

theorem take_size {b : List Byte} {n : Nat} (h : n ≤ b.length) : (b.take n).take n = b.take n ∧ n ≤ (b.take n).length := by
  rw [List.take_take, Nat.min_self, List.length_take]
  exact ⟨rfl, by omega⟩

theorem frontReads_type : FrontReads frontType where
  append {b} x h := by
    rcases mlReadVarint_cases b 0 with ⟨hnone, -⟩ | ⟨k, v, hsome⟩
    · simp [frontType, hnone, WireRead.read] at h
    · have hb := mlReadVarint_bounds hsome
      have happ := mlReadVarint_same hsome (List.take_append_of_le_length (Nat.le_refl _) : (b ++ x).take b.length = _) hb.2.2
        (by simp)
      simp [frontType, hsome, happ]
  bounds {b body mark size} h := by
    rcases mlReadVarint_cases b 0 with ⟨hnone, -⟩ | ⟨k, v, hsome⟩
    · simp [frontType, hnone, WireRead.read] at h
    · have hb := mlReadVarint_bounds hsome
      simp only [frontType, hsome, WireRead.read, if_true, Option.map_some, MlFront.whole.injEq] at h
      omega
  exact {b body mark size} h := by
    rcases mlReadVarint_cases b 0 with ⟨hnone, -⟩ | ⟨k, v, hsome⟩
    · simp [frontType, hnone, WireRead.read] at h
    · have hb := mlReadVarint_bounds hsome
      simp only [frontType, hsome, WireRead.read, if_true, Option.map_some, MlFront.whole.injEq] at h
      obtain ⟨rfl, rfl, rfl⟩ := h
      obtain ⟨htake, hlen⟩ := take_size hb.2.2
      simp [frontType, mlReadVarint_same hsome htake (Nat.le_refl _) hlen, WireRead.read]

theorem frontSetup_whole {b body : List Byte} {off size : Nat} (h : frontSetup b = .whole off body size) :
    ∃ v : BitVec 64, mlReadVarint b 0 = ⟨true, off, some v⟩ ∧ size = off + v.toNat ∧ size ≤ b.length ∧ body = b.take size := by
  rcases mlReadVarint_cases b 0 with ⟨hnone, -⟩ | ⟨k, v, hsome⟩
  · simp [frontSetup, hnone, WireRead.read] at h
  · simp only [frontSetup, hsome, WireRead.read, if_true, Option.map_some] at h
    split at h
    · cases h
    · cases h
      exact ⟨v, hsome, rfl, by omega, rfl⟩

theorem frontSetup_same {b q body : List Byte} {off size m : Nat} (h : frontSetup b = .whole off body size)
    (hq : q.take m = b.take m) (hm : size ≤ m) (hlen : m ≤ q.length) : frontSetup q = .whole off body size := by
  obtain ⟨v, hread, rfl, hle, rfl⟩ := frontSetup_whole h
  have htake : q.take (off + v.toNat) = b.take (off + v.toNat) := by
    have := congrArg (List.take (off + v.toNat)) hq
    simpa only [List.take_take, Nat.min_eq_left hm] using this
  simp only [frontSetup, mlReadVarint_same hread hq (by omega) hlen, WireRead.read, if_true, Option.map_some, htake]
  exact if_neg (by omega)

theorem frontReads_setup : FrontReads frontSetup where
  append {b} x h := by
    cases hf : frontSetup b with
    | needMore => exact absurd hf h
    | tooLarge =>
      rcases mlReadVarint_cases b 0 with ⟨hnone, -⟩ | ⟨k, v, hsome⟩
      · simp [frontSetup, hnone, WireRead.read] at hf
      · simp only [frontSetup, hsome, WireRead.read, if_true, Option.map_some] at hf
        split at hf <;> cases hf
    | whole off body size =>
      obtain ⟨-, -, -, hle, -⟩ := frontSetup_whole hf
      exact frontSetup_same hf (List.take_append_of_le_length (Nat.le_refl _)) hle (by simp)
  bounds {b body off size} h := by
    obtain ⟨v, hread, rfl, hle, -⟩ := frontSetup_whole h
    have := mlReadVarint_bounds hread
    omega
  exact {b body off size} h := by
    obtain ⟨-, -, -, hle, -⟩ := frontSetup_whole h
    obtain ⟨htake, hlen⟩ := take_size hle
    exact frontSetup_same h htake (Nat.le_refl _) hlen

/-! ## Parsers that read one message -/

def TakesOr (n : Nat) : LiteTurn → Prop
  | .wait _ => False
  | .take t k _ => k = n ∧ t ≠ .ended ∧ t ≠ .running
  | .drop _ => False
  | .halt _ _ _ => True

/-- **A steady parser** of a stage: it waits as it is, throws nothing away, and a message is taken or refused by itself. -/
structure SteadyParse (s : LiteStage) (parse : List Byte → LiteTurn) : Prop where
  wait : ∀ {b t}, parse b = .wait t → t = s
  drop : ∀ {b t}, parse b ≠ .drop t
  append : ∀ {b : List Byte} (x : List Byte), parse b ≠ .wait s → parse (b ++ x) = parse b
  bounds : ∀ {b t n out}, parse b = .take t n out → 0 < n ∧ n ≤ b.length
  exact : ∀ {b t n out}, parse b = .take t n out → parse (b.take n) = .take t n out
  enters : ∀ {b t n out}, parse b = .take t n out → t ≠ .ended ∧ t ≠ .running

theorem SteadyParse.const {s t : LiteStage} {en : LiteEnd} {out : List LiteAction} {parse : List Byte → LiteTurn}
    (h : ∀ b, parse b = .halt t en out) : SteadyParse s parse where
  wait {b t} hw := by simp [h] at hw
  drop {b t} := by simp [h]
  append {b} x _ := by rw [h, h]
  bounds {b t n o} ht := by simp [h] at ht
  exact {b t n o} ht := by simp [h] at ht
  enters {b t n o} ht := by simp [h] at ht

def TurnFor {α : Type} (s : LiteStage) : MlFront α → LiteTurn → Prop
  | .needMore, t => t = .wait s
  | .tooLarge, t => ∀ n, TakesOr n t
  | .whole _ _ size, t => TakesOr size t

theorem SteadyParse.front {α : Type} {front : List Byte → MlFront α} (hf : FrontReads front) {s : LiteStage}
    {parse : List Byte → LiteTurn} (hturn : ∀ b, TurnFor s (front b) (parse b))
    (hby : ∀ b c, front b = front c → parse b = parse c) : SteadyParse s parse where
  wait {b t} hb := by
    have ht := hturn b
    rw [hb] at ht
    cases hr : front b with
    | needMore => simp only [hr, TurnFor, Turn.wait.injEq] at ht; exact ht
    | tooLarge => simp only [hr, TurnFor] at ht; exact (ht 0).elim
    | whole mark body size => simp only [hr, TurnFor] at ht; exact ht.elim
  drop {b t} hb := by
    have ht := hturn b
    rw [hb] at ht
    cases hr : front b with
    | needMore => simp [hr, TurnFor] at ht
    | tooLarge => simp only [hr, TurnFor] at ht; exact (ht 0).elim
    | whole mark body size => simp only [hr, TurnFor] at ht; exact ht.elim
  append {b} x hb := by
    have hne : front b ≠ .needMore := by
      intro hr
      have ht := hturn b
      rw [hr] at ht
      exact hb ht
    exact hby _ _ (hf.append x hne)
  bounds {b t n o} hb := by
    have ht := hturn b
    rw [hb] at ht
    cases hr : front b with
    | needMore => simp [hr, TurnFor] at ht
    | tooLarge => simp only [hr, TurnFor] at ht; exact absurd ((ht 0).1.symm.trans (ht 1).1) (by decide)
    | whole mark body size =>
      rw [hr] at ht
      have hn : n = size := ht.1
      exact hn ▸ hf.bounds hr
  exact {b t n o} hb := by
    have ht := hturn b
    rw [hb] at ht
    cases hr : front b with
    | needMore => simp [hr, TurnFor] at ht
    | tooLarge => simp only [hr, TurnFor] at ht; exact absurd ((ht 0).1.symm.trans (ht 1).1) (by decide)
    | whole mark body size =>
      rw [hr] at ht
      have hn : n = size := ht.1
      rw [← hb, hn]
      exact hby _ _ ((hf.exact hr).trans hr.symm)
  enters {b t n o} hb := by
    have ht := hturn b
    rw [hb] at ht
    cases hr : front b with
    | needMore => simp [hr, TurnFor] at ht
    | tooLarge => simp only [hr, TurnFor] at ht; exact (ht 0).2
    | whole mark body size =>
      rw [hr] at ht
      exact ht.2

def LiteStage.late : LiteStage → Bool
  | .rejected => true
  | .ending => true
  | .ended => true
  | .answered => true
  | .running => true
  | _ => false

namespace LiteSession

variable (e : LiteSession)

theorem steady_streamType (uni : Bool) : SteadyParse (.untyped uni) (e.parseStreamType uni) := by
  refine .front frontReads_type (fun b => ?_) fun b c h => ?_
  · unfold parseStreamType frontType
    cases (mlReadVarint b 0).read with
    | none => rfl
    | some r =>
      dsimp only [onStreamTypeSeen, resetTurn, closeTurn, TurnFor]
      repeat' split
      all_goals simp [TakesOr]
  · unfold parseStreamType
    unfold frontType at h
    cases hb : (mlReadVarint b 0).read <;> cases hc : (mlReadVarint c 0).read <;> simp_all

/-- What `ParseSetupStream` does with the message at the front. -/
def onFrontSetup : MlFront Nat → LiteTurn
  | .needMore | .tooLarge => .wait .setup
  | .whole off p _ =>
    match readSetup p off with
    | .error why => closeTurn .setup [] kSessionProtocolViolation why
    | .ok s =>
      if e.onRoute s = false then closeTurn .setup [.setup s] kSessionUnauthorized "unknown path"
      else .halt .setup .done (.setup s :: onRole s.role)

theorem parseSetupStream_front (b : List Byte) : e.parseSetupStream b = e.onFrontSetup (frontSetup b) := by
  unfold parseSetupStream frontSetup
  cases (mlReadVarint b 0).read with
  | none => rfl
  | some r => dsimp only; split <;> rfl

theorem steady_setupStream : SteadyParse .setup e.parseSetupStream := by
  refine .front frontReads_setup (fun b => ?_) fun b c h => ?_
  · unfold parseSetupStream frontSetup
    cases (mlReadVarint b 0).read with
    | none => rfl
    | some r =>
      dsimp only [closeTurn]
      repeat' split
      all_goals simp_all [TurnFor, TakesOr]
  · rw [e.parseSetupStream_front, e.parseSetupStream_front, h]

theorem steady_groupHeader : SteadyParse .groupHeader e.parseGroupHeader := by
  refine .front frontReads_message (fun b => ?_) fun b c h => by simp only [parseGroupHeader, h]
  unfold parseGroupHeader
  cases frontMessage b with
  | needMore => rfl
  | tooLarge => exact fun n => trivial
  | whole mark body size =>
    dsimp only [resetTurn, TurnFor]
    repeat' split
    all_goals simp [TakesOr]

theorem steady_frame (g : LiteGroup) : SteadyParse (.frames g) (e.parseFrame g) := by
  refine .front frontReads_typed (fun b => ?_) fun b c h => by simp only [parseFrame, h]
  unfold parseFrame
  cases frontTyped b with
  | needMore => rfl
  | tooLarge => exact fun n => trivial
  | whole zz payload size =>
    dsimp only [TurnFor]
    split <;> simp [TakesOr]

theorem steady_announceOk : SteadyParse .announceOk parseAnnounceOk := by
  refine .front frontReads_message (fun b => ?_) fun b c h => by simp only [parseAnnounceOk, h]
  unfold parseAnnounceOk
  cases frontMessage b with
  | needMore => rfl
  | tooLarge => exact fun n => trivial
  | whole mark body size =>
    dsimp only [closeTurn, TurnFor]
    split <;> simp [TakesOr]

theorem steady_announce (nextId : BitVec 64) : SteadyParse (.announces nextId) (parseAnnounce nextId) := by
  refine .front frontReads_typed (fun b => ?_) fun b c h => by simp only [parseAnnounce, h]
  unfold parseAnnounce
  cases frontTyped b with
  | needMore => rfl
  | tooLarge => exact fun n => trivial
  | whole type body size =>
    dsimp only [closeTurn, TurnFor]
    split <;> simp [TakesOr]

theorem steady_answer : SteadyParse .answers parseAnswer := by
  refine .front frontReads_typed (fun b => ?_) fun b c h => by simp only [parseAnswer, h]
  unfold parseAnswer
  cases frontTyped b with
  | needMore => rfl
  | tooLarge => exact fun n => trivial
  | whole type body size =>
    dsimp only [closeTurn, TurnFor]
    split <;> simp [TakesOr]

theorem steady_peerTrack : SteadyParse .track e.parsePeerTrack := by
  by_cases ha : e.armed = false
  · exact .const fun b => if_pos ha
  · refine .front frontReads_message (fun b => ?_) fun b c h => by simp only [parsePeerTrack, h]
    unfold parsePeerTrack
    rw [if_neg ha]
    cases frontMessage b with
    | needMore => rfl
    | tooLarge => exact fun n => trivial
    | whole mark body size =>
      dsimp only [resetTurn, answerTrack, TurnFor]
      repeat' split
      all_goals simp [TakesOr]

theorem steady_peerAnnounce : SteadyParse .request e.parsePeerAnnounce := by
  by_cases ha : e.armed = false
  · exact .const fun b => if_pos ha
  · refine .front frontReads_message (fun b => ?_) fun b c h => by simp only [parsePeerAnnounce, h]
    unfold parsePeerAnnounce
    rw [if_neg ha]
    cases frontMessage b with
    | needMore => rfl
    | tooLarge => exact fun n => trivial
    | whole mark body size =>
      dsimp only [resetTurn, TurnFor]
      repeat' split
      all_goals simp [TakesOr]

theorem steady_peerSubscribe : SteadyParse .subscribe e.parsePeerSubscribe := by
  by_cases ha : e.armed = false
  · exact .const fun b => if_pos ha
  · refine .front frontReads_message (fun b => ?_) fun b c h => by simp only [parsePeerSubscribe, h]
    unfold parsePeerSubscribe
    rw [if_neg ha]
    cases frontMessage b with
    | needMore => rfl
    | tooLarge => exact fun n => trivial
    | whole mark body size =>
      dsimp only [resetTurn, closeTurn, answerSubscribe, TurnFor]
      repeat' split
      all_goals simp [TakesOr]

theorem parse_steady {s : LiteStage} (hs : s.late = false) : SteadyParse s (e.parse s) := by
  cases s with
  | untyped uni => exact e.steady_streamType uni
  | setup => exact e.steady_setupStream
  | groupHeader => exact e.steady_groupHeader
  | frames g => exact e.steady_frame g
  | announceOk => exact steady_announceOk
  | announces nextId => exact steady_announce nextId
  | answers => exact steady_answer
  | other => exact .const fun b => rfl
  | track => exact e.steady_peerTrack
  | request => exact e.steady_peerAnnounce
  | subscribe => exact e.steady_peerSubscribe
  | rejected => cases hs
  | ending => cases hs
  | ended => cases hs
  | answered => cases hs
  | running => cases hs

end LiteSession

end MoqLiveCast
