import MoqLiveCast.Moq.LiteSteady
/-!
# LiteCuts — when it makes no difference how the bytes of a stream are cut

The cut makes a difference when something follows an ANNOUNCE_REQUEST that was answered (`surplus_after_request`),
when a piece of what follows SUBSCRIBE_END can be taken for an answer, and when a frame that is too large follows one
that closed the session; and only then (`lite_cuts_alike`).
-/
namespace MoqLiveCast

open List

namespace LiteSession

variable (e : LiteSession)

def call (fin : Bool) (r : LiteStream) (chunk : List Byte) : LiteStream := finishCall fin (feed e.parse .hung r chunk)

def Rests : LiteStage → List Byte → Prop
  | .answered, x => x = []
  | .ending, x => ∀ ys zs ws, x = ys ++ zs ++ ws → parseEnded zs = .drop .ended
  | .rejected, x => frontTyped x ≠ .tooLarge
  | _, _ => True

/-- **The condition on the bytes of a stream**: nothing follows an ANNOUNCE_REQUEST that was answered, no piece of what follows
SUBSCRIBE_END starts with an answer that is START, malformed or too large, and no frame that is too large follows one whose
claim was rejected. -/
def Calm (s : LiteStage) (b : List Byte) : Prop := ∀ out t x, TakenTo e.parse s b out t x → Rests t x

def Fits : LiteStream → List (List Byte) → Prop
  | _, [] => True
  | r, c :: cs => (r.halted = some .reset ∨ r.halted = some .closed ∨ (r.buf ++ c).length ≤ kMaxRecvBuf) ∧
      Fits (e.handleStreamData r c false) cs

/-- **Two ways to cut the bytes of a stream have the session do the same.** -/
def CutsAlike (o : LiteOpener) (b : List Byte) : Prop :=
  ∀ cs ds : List (List Byte), cs ≠ [] → ds ≠ [] → cs.flatten = b → ds.flatten = b → e.Fits o.stream cs → e.Fits o.stream ds →
    (e.handleCalls o.stream cs).out = (e.handleCalls o.stream ds).out

/-! ## One call -/

variable {r : LiteStream}

theorem handleStreamData_fits {c : List Byte} (fin : Bool) (h : r.halted = some .reset ∨ r.halted = some .closed ∨ (r.buf ++
    c).length ≤ kMaxRecvBuf) : e.handleStreamData r c fin = e.call fin r c := by
  unfold handleStreamData call
  by_cases hend : r.halted = some .reset ∨ r.halted = some .closed
  · rw [if_pos hend]
    have hsome : r.halted.isSome = true := by rcases hend with h | h <;> simp [h]
    simp [feed, finishCall, hsome]
  · have hle : (r.buf ++ c).length ≤ kMaxRecvBuf := by tauto
    rw [if_neg hend, if_neg (Nat.not_lt.2 hle)]

theorem call_halted (fin : Bool) (c : List Byte) (h : r.halted.isSome) : e.call fin r c = r := by
  simp [call, feed, finishCall, h]

theorem call_live (fin : Bool) (c : List Byte) (h : r.halted = none) :
    e.call fin r c = finishCall fin (drainTurns e.parse .hung ((r.buf ++ c).length + 1) { r with buf := r.buf ++ c }) := by
  simp [call, feed, h]

theorem finishCall_halted (fin : Bool) (h : r.halted.isSome) : finishCall fin r = r := by
  simp [finishCall, h]

theorem finishCall_open (h : r.state ≠ .rejected) : finishCall false r = r := by
  unfold finishCall
  split
  · rfl
  · cases hs : r.state <;> simp_all

theorem finishCall_late (fin : Bool) (h : r.state.late = true) : (finishCall fin r).out = r.out := by
  unfold finishCall
  split
  · rfl
  · cases hs : r.state <;> simp_all [LiteStage.late]

theorem steady_rejected : SteadyParse .rejected parseRejected := by
  refine .front frontReads_typed (fun b => ?_) fun b c h => by simp only [parseRejected, h]
  unfold parseRejected
  cases frontTyped b with
  | needMore => rfl
  | tooLarge => exact fun n => trivial
  | whole zz payload size => simp [TurnFor, TakesOr]

variable {out : List LiteAction} {s t : LiteStage}

theorem parse_bounds {b : List Byte} {n : Nat} (h : e.parse s b = .take t n out) : 0 < n ∧ n ≤ b.length := by
  by_cases hs : s.late = false
  · exact (e.parse_steady hs).bounds h
  · cases s with
    | rejected => exact steady_rejected.bounds h
    | ended =>
      replace h : parseEnded b = .take t n out := h
      unfold parseEnded at h
      cases hf : frontTyped b with
      | needMore => simp [hf] at h
      | tooLarge => simp [hf, resetTurn] at h
      | whole type body size =>
        have hb := frontTyped_bounds hf
        simp only [hf] at h
        split at h
        · cases h
          omega
        all_goals cases h
    | running =>
      replace h : parseRunning b = .take t n out := h
      unfold parseRunning resetTurn at h
      split at h <;> cases h
    | ending => cases h
    | answered => cases h
    | _ => exact (hs rfl).elim

theorem drain_fuel (k : Nat) (r : LiteStream) (hk : r.buf.length < k) :
    drainTurns e.parse .hung k r = drainTurns e.parse .hung (r.buf.length + 1) r :=
  drainTurns_fuel (fun _ => e.parse_bounds) k r (Nat.lt_succ_self _) hk

theorem drain_taken {b x : List Byte} (h : TakenTo e.parse s b out t x)
    (r : LiteStream) (hr : r.state = s) (hb : r.buf = b) : drainTurns e.parse .hung (b.length + 1) r =
      drainTurns e.parse .hung (x.length + 1) { r with state := t, buf := x, out := r.out ++ out } :=
  h.drain e.parse_bounds r hr hb

variable {e}

theorem Calm.next {s t : LiteStage} {b : List Byte} {n : Nat} {out : List LiteAction} (h : e.Calm s b)
    (ht : e.parse s b = .take t n out) : e.Calm t (b.drop n) := fun _ _ _ hto => h _ _ _ (.next ht hto)

theorem Calm.rests {s : LiteStage} {b : List Byte} (h : e.Calm s b) : Rests s b := h _ _ _ (.here s b)

theorem drain_rejected (d : List Byte) : ∀ (k : Nat) (r : LiteStream), r.state = .rejected → r.halted = none →
    e.Calm .rejected (r.buf ++ d) → r.buf.length < k →
      (drainTurns e.parse .hung k r).state = .rejected ∧ (drainTurns e.parse .hung k r).halted = none ∧
        (drainTurns e.parse .hung k r).out = r.out
  | 0, _, _, _, _, hk => absurd hk (Nat.not_lt_zero _)
  | k + 1, r, hs, hh, hc, hk => by
    have hparse : e.parse r.state r.buf = parseRejected r.buf := by rw [hs]; rfl
    have hbehind : ∀ b, e.parse .rejected b = parseRejected b := fun _ => rfl
    simp only [drainTurns, hparse]
    cases hf : frontTyped r.buf with
    | needMore => simp [parseRejected, hf, hh]
    | tooLarge =>
      have happ := frontTyped_append d (b := r.buf) (by simp [hf])
      exact absurd (happ.trans hf) hc.rests
    | whole zz payload size =>
      obtain ⟨hpos, hle⟩ := frontTyped_bounds hf
      have happ := frontTyped_append d (b := r.buf) (by simp [hf])
      have hnext := @Calm.next e .rejected .rejected _ size [] hc (by
        rw [hbehind]
        simp [parseRejected, happ, hf])
      rw [drop_append_of_le_length hle] at hnext
      simp only [parseRejected, hf, append_nil]
      exact drain_rejected d k _ rfl hh hnext (by rw [length_drop]; omega)

/-- **What a call leaves, with `d` to come**: an end; a stream whose bytes are calm; or one past its end on which `d` has no
effect. -/
inductive Good (e : LiteSession) (d : List Byte) (r : LiteStream) : Prop
  | ended (h : r.halted.isSome)
  | live (hh : r.halted = none) (hs : r.state.late = false) (hc : e.Calm r.state (r.buf ++ d))
  | running (hh : r.halted = none) (hs : r.state = .running) (hb : r.buf = []) (hd : d = [])
  | spent (hh : r.halted = none) (hs : r.state = .ended) (hb : r.buf = [])
      (hd : ∀ ys zs ws, d = ys ++ zs ++ ws → parseEnded zs = .drop .ended)

theorem drain_cut (d : List Byte) : ∀ (k : Nat) (r : LiteStream), r.halted = none → r.state.late = false →
    e.Calm r.state (r.buf ++ d) → r.buf.length < k → Good e d (finishCall false (drainTurns e.parse .hung k r)) ∧
      (e.call true (finishCall false (drainTurns e.parse .hung k r)) d).out =
        (finishCall true (drainTurns e.parse .hung ((r.buf ++ d).length + 1) { r with buf := r.buf ++ d })).out
  | 0, _, _, _, _, hk => absurd hk (Nat.not_lt_zero _)
  | k + 1, r, hh, hs, hc, hk => by
    have hsteady := e.parse_steady hs
    cases ht : e.parse r.state r.buf with
    | drop t => exact absurd ht hsteady.drop
    | wait t =>
      have hstate := hsteady.wait ht
      subst hstate
      have hdrain : drainTurns e.parse .hung (k + 1) r = r := by simp [drainTurns, ht]
      have hopen : finishCall false r = r := finishCall_open (by rintro hr; rw [hr] at hs; cases hs)
      rw [hdrain, hopen]
      exact ⟨.live hh hs hc, by rw [e.call_live true d hh]⟩
    | halt t en o =>
      have happ := hsteady.append d (by rw [ht]; simp)
      have hdrain : drainTurns e.parse .hung (k + 1) r = ⟨t, [], r.out ++ o, some en⟩ := by simp [drainTurns, ht]
      have hwhole : drainTurns e.parse .hung ((r.buf ++ d).length + 1) { r with buf := r.buf ++ d } =
          ⟨t, [], r.out ++ o, some en⟩ := by simp [drainTurns, happ, ht]
      rw [hdrain, hwhole, finishCall_halted false rfl, finishCall_halted true rfl, e.call_halted true d rfl]
      exact ⟨.ended rfl, rfl⟩
    | take t n o =>
      obtain ⟨hpos, hle⟩ := hsteady.bounds ht
      have happ := (hsteady.append d (by rw [ht]; simp)).trans ht
      have hnext := hc.next happ
      have hdropd : (r.buf ++ d).drop n = r.buf.drop n ++ d := drop_append_of_le_length hle
      rw [hdropd] at hnext
      have hlen : (r.buf.drop n).length < k := by rw [length_drop]; omega
      have hwhole : drainTurns e.parse .hung ((r.buf ++ d).length + 1) { r with buf := r.buf ++ d } =
          drainTurns e.parse .hung ((r.buf.drop n ++ d).length + 1)
            { r with state := t, buf := r.buf.drop n ++ d, out := r.out ++ o } := by
        rw [drainTurns]
        simp only [happ, hdropd]
        apply e.drain_fuel
        rw [← hdropd, length_drop, length_append]
        omega
      have hstep : drainTurns e.parse .hung (k + 1) r =
          drainTurns e.parse .hung k { r with state := t, buf := r.buf.drop n, out := r.out ++ o } := by
        simp only [drainTurns, ht]
      rw [hwhole, hstep]
      by_cases hlate : t.late = false
      · exact drain_cut d k { r with state := t, buf := r.buf.drop n, out := r.out ++ o } hh hlate hnext hlen
      · obtain ⟨hne, hnr⟩ := hsteady.enters ht
        obtain ⟨j, rfl⟩ : ∃ j, k = j + 1 := ⟨k - 1, by omega⟩
        cases t with
        | answered =>
          have hnil : r.buf.drop n ++ d = [] := hnext.rests
          obtain ⟨hbuf, rfl⟩ := List.append_eq_nil_iff.1 hnil
          simp only [hbuf, drainTurns, parse, append_nil]
          rw [finishCall_open (by simp)]
          refine ⟨.running hh rfl rfl rfl, ?_⟩
          rw [e.call_live true [] (by exact hh)]
          simp [finishCall, hh, drainTurns, parse, parseRunning]
        | ending =>
          have hrest : ∀ ys zs ws, d = ys ++ zs ++ ws → parseEnded zs = .drop .ended := fun ys zs ws heq =>
            hnext.rests (r.buf.drop n ++ ys) zs ws (by rw [heq]; simp)
          simp only [drainTurns, parse]
          rw [finishCall_open (by simp)]
          refine ⟨.spent hh rfl rfl hrest, ?_⟩
          have hd := hrest [] d [] (by simp)
          rw [e.call_live true d (by exact hh)]
          simp [finishCall, hh, drainTurns, parse, hd]
        | rejected =>
          obtain ⟨hs1, hh1, ho1⟩ := drain_rejected d (j + 1)
            { r with state := .rejected, buf := r.buf.drop n, out := r.out ++ o } rfl hh hnext hlen
          obtain ⟨hs2, hh2, ho2⟩ := drain_rejected [] ((r.buf.drop n ++ d).length + 1)
            { r with state := .rejected, buf := r.buf.drop n ++ d, out := r.out ++ o } rfl hh
            (by rw [append_nil]; exact hnext) (Nat.lt_succ_self _)
          have hclosed : (finishCall false (drainTurns e.parse .hung (j + 1)
              { r with state := .rejected, buf := r.buf.drop n, out := r.out ++ o })).halted = some .closed := by
            simp [finishCall, hh1, hs1]
          refine ⟨.ended (by rw [hclosed]; rfl), ?_⟩
          rw [e.call_halted true d (by rw [hclosed]; rfl), finishCall_late _ (by rw [hs1]; rfl),
            finishCall_late _ (by rw [hs2]; rfl), ho1, ho2]
        | ended => exact absurd rfl hne
        | running => exact absurd rfl hnr
        | _ => exact (hlate rfl).elim

theorem Good.call {c d : List Byte} (h : Good e (c ++ d) r) :
    Good e d (e.call false r c) ∧ (e.call true (e.call false r c) d).out = (e.call true r (c ++ d)).out := by
  cases h with
  | ended h =>
    rw [e.call_halted false c h, e.call_halted true d h, e.call_halted true (c ++ d) h]
    exact ⟨.ended h, rfl⟩
  | live hh hs hc =>
    rw [← append_assoc] at hc
    have hcut := drain_cut d ((r.buf ++ c).length + 1) { r with buf := r.buf ++ c } hh hs hc (Nat.lt_succ_self _)
    rw [e.call_live false c hh, e.call_live true (c ++ d) hh, ← append_assoc]
    exact hcut
  | running hh hs hb hd =>
    obtain ⟨rfl, rfl⟩ := List.append_eq_nil_iff.1 hd
    have hstay : ∀ fin, e.call fin r [] = r := by
      intro fin
      obtain ⟨s, b, o, hal⟩ := r
      simp only at hs hb hh
      subst hs hb hh
      simp [LiteSession.call, feed, drainTurns, parse, parseRunning, finishCall]
    rw [hstay, append_nil]
    exact ⟨.running hh hs hb rfl, rfl⟩
  | spent hh hs hb hd =>
    have hstay : ∀ fin zs, parseEnded zs = .drop .ended → e.call fin r zs = r := by
      intro fin zs hz
      obtain ⟨s, b, o, hal⟩ := r
      simp only at hs hb hh
      subst hs hb hh
      simp [LiteSession.call, feed, drainTurns, parse, hz, finishCall]
    rw [hstay false c (hd [] c d (by simp)), hstay true d (hd c d [] (by simp)), hstay true (c ++ d) (hd [] (c ++ d) [] (by simp))]
    exact ⟨.spent hh hs hb fun ys zs ws heq => hd (c ++ ys) zs ws (by rw [heq]; simp), rfl⟩

def calls (e : LiteSession) : LiteStream → List (List Byte) → LiteStream
  | r, [] => r
  | r, [c] => e.call true r c
  | r, c :: cs => e.calls (e.call false r c) cs

theorem handleCalls_fits : ∀ (cs : List (List Byte)) (r : LiteStream), e.Fits r cs → e.handleCalls r cs = e.calls r cs
  | [], _, _ => rfl
  | [_], _, hf => e.handleStreamData_fits true hf.1
  | c :: d :: cs, r, hf => by
    obtain ⟨hfit, hrest⟩ := hf
    rw [e.handleStreamData_fits false hfit] at hrest
    have hcalls : e.handleCalls r (c :: d :: cs) = e.handleCalls (e.call false r c) (d :: cs) := by
      rw [← e.handleStreamData_fits false hfit]
      rfl
    rw [hcalls, handleCalls_fits (d :: cs) _ hrest]
    rfl

theorem calls_whole : ∀ (cs : List (List Byte)) (r : LiteStream), cs ≠ [] → Good e cs.flatten r →
    (e.calls r cs).out = (e.call true r cs.flatten).out
  | [], _, h, _ => absurd rfl h
  | [c], r, _, _ => by simp [calls]
  | c :: d :: cs, r, _, hg => by
    obtain ⟨hgood, hout⟩ := hg.call
    exact (calls_whole (d :: cs) _ (cons_ne_nil _ _) hgood).trans hout

/-! ## A boundary past the end of the stream -/

theorem takenTo_late {b x : List Byte} (h : TakenTo e.parse s b out t x) (hs : s.late = false) (ht : t.late = true) :
    ∃ p y out1 out2 t1, b = p ++ y ∧ t1.late = true ∧ t1 ≠ .ended ∧ t1 ≠ .running ∧ (∀ z, TakenTo e.parse s (p ++ z) out1 t1 z) ∧
    TakenTo e.parse t1 y out2 t x := by
  induction h with
  | here s b => rw [hs] at ht; cases ht
  | @next s s1 t b x n o out hturn rest ih =>
    have hsteady := e.parse_steady hs
    obtain ⟨-, hle⟩ := hsteady.bounds hturn
    have hexact := hsteady.exact hturn
    have hbehind : ∀ z, e.parse s (b.take n ++ z) = .take s1 n o := fun z =>
      (hsteady.append z (by rw [hexact]; simp)).trans hexact
    have hdrop : ∀ z, (b.take n ++ z).drop n = z := fun z =>
      drop_left' (by rw [length_take]; omega)
    by_cases hs1 : s1.late = false
    · obtain ⟨p, y, out1, out2, t1, hb, hlate, hne, hnr, hto, hrest⟩ := ih hs1 ht
      refine ⟨b.take n ++ p, y, o ++ out1, out2, t1, ?_, hlate, hne, hnr, fun z => ?_, hrest⟩
      · rw [append_assoc, ← hb, take_append_drop]
      · rw [append_assoc]
        refine .next (hbehind _) ?_
        rw [hdrop]
        exact hto z
    · obtain ⟨hne, hnr⟩ := hsteady.enters hturn
      refine ⟨b.take n, b.drop n, o, out, s1, (take_append_drop n b).symm, by simpa using hs1, hne, hnr, fun z => ?_, rest⟩
      have := TakenTo.next (hbehind z) (TakenTo.here s1 _)
      rwa [append_nil, hdrop] at this

theorem call_taken {p out} (h : ∀ z, TakenTo e.parse s (p ++ z) out t z) (fin : Bool) (z : List Byte) :
    e.call fin ⟨s, [], [], none⟩ (p ++ z) = finishCall fin (drainTurns e.parse .hung (z.length + 1) ⟨t, z, out, none⟩) := by
  rw [e.call_live fin _ rfl]
  have hto := e.drain_taken (h z) ⟨s, p ++ z, [], none⟩ rfl rfl
  rw [nil_append, hto]
  simp

variable (e)

theorem finishCall_out (fin : Bool) (r : LiteStream) : ∃ out, (finishCall fin r).out = r.out ++ out := by
  unfold finishCall
  split
  · exact ⟨[], by simp⟩
  · split
    · split
      · exact ⟨_, rfl⟩
      · exact ⟨[], by simp⟩
    · split
      · exact ⟨_, rfl⟩
      · exact ⟨[], by simp⟩
    · exact ⟨[], by simp⟩
    · exact ⟨[], by simp⟩

theorem finishCall_buf (fin : Bool) (r : LiteStream) : (finishCall fin r).buf = r.buf := by
  unfold finishCall
  split
  · rfl
  · split <;> try split
    all_goals rfl

theorem drain_buf : ∀ (k : Nat) (r : LiteStream), (drainTurns e.parse .hung k r).buf.length ≤ r.buf.length
  | 0, r => by simp [drainTurns]
  | k + 1, r => by
    cases ht : e.parse r.state r.buf with
    | wait s => simp [drainTurns, ht]
    | drop s => simp [drainTurns, ht]
    | halt s en out => simp [drainTurns, ht]
    | take s n out =>
      have := drain_buf k { r with state := s, buf := r.buf.drop n, out := r.out ++ out }
      simp only [drainTurns, ht]
      simp only [length_drop] at this
      omega

theorem fits_of_le : ∀ (cs : List (List Byte)) (r : LiteStream), (r.buf ++ cs.flatten).length ≤ kMaxRecvBuf → e.Fits r cs
  | [], _, _ => trivial
  | c :: cs, r, h => by
    simp only [flatten_cons, length_append] at h
    have hfit : r.halted = some .reset ∨ r.halted = some .closed ∨ (r.buf ++ c).length ≤ kMaxRecvBuf := by
      simp only [length_append]
      omega
    refine ⟨hfit, fits_of_le cs _ ?_⟩
    rw [e.handleStreamData_fits false hfit, length_append]
    by_cases hh : r.halted.isSome
    · rw [e.call_halted false c hh]
      omega
    · rw [e.call_live false c (by simpa using hh), finishCall_buf]
      have := e.drain_buf ((r.buf ++ c).length + 1) { r with buf := r.buf ++ c }
      simp only [length_append] at this ⊢
      omega

theorem call_out (fin : Bool) (r : LiteStream) (c : List Byte) : ∃ out, (e.call fin r c).out = r.out ++ out := by
  by_cases hh : r.halted.isSome
  · rw [e.call_halted fin c hh]
    exact ⟨[], by simp⟩
  · rw [e.call_live fin c (by simpa using hh)]
    obtain ⟨out, hout⟩ := @drainTurns_out _ _ _ _ e.parse .hung ((r.buf ++ c).length + 1) { r with buf := r.buf ++ c }
    obtain ⟨o, ho⟩ := finishCall_out fin (drainTurns e.parse .hung ((r.buf ++ c).length + 1) { r with buf := r.buf ++ c })
    exact ⟨out ++ o, by rw [ho, hout, append_assoc]⟩

theorem call_ended {zs : List Byte} (hz : parseEnded zs ≠ .drop .ended) (out : List LiteAction) :
    ∃ a, (e.call false ⟨.ended, [], out, none⟩ zs).out = out ++ [a] := by
  have hparse : ∀ b, e.parse .ended b = parseEnded b := fun _ => rfl
  rw [e.call_live false zs rfl]
  simp only [nil_append, drainTurns, hparse]
  unfold parseEnded at hz ⊢
  cases hf : frontTyped zs with
  | needMore => simp [hf] at hz
  | tooLarge => exact ⟨.reset kStreamInternalError, by simp [resetTurn, finishCall]⟩
  | whole type body size =>
    simp only [hf] at hz ⊢
    cases ha : subscribeAnswer type body with
    | start =>
      refine ⟨.started, ?_⟩
      obtain ⟨k, hk⟩ : ∃ k, zs.length = k + 1 := ⟨zs.length - 1, by have := frontTyped_bounds hf; omega⟩
      have hnil : parseEnded [] = .drop .ended := rfl
      have hall : zs.drop (k + 1) = [] := drop_eq_nil_of_le (by omega)
      simp [hk, drainTurns, hparse, hall, hnil, finishCall]
    | malformed => exact ⟨_, by simp [closeTurn, finishCall]; rfl⟩
    | finish => simp [ha] at hz
    | drop => simp [ha] at hz
    | skipped => simp [ha] at hz

theorem cuts_differ {p y : List Byte} (hto : ∀ z, TakenTo e.parse s (p ++ z) out t z) (ht : t.late = true) (hne : t ≠ .ended)
    (hnr : t ≠ .running) {out' t' x} (hrest : TakenTo e.parse t y out' t' x) (hx : ¬ Rests t' x) (hal : ∀ cs ds :
    List (List Byte), cs ≠ [] → ds ≠ [] → cs.flatten = p ++ y → ds.flatten = p ++ y → (e.calls ⟨s, [], [], none⟩ cs).out =
    (e.calls ⟨s, [], [], none⟩ ds).out) : False := by
  cases t with
  | answered =>
    cases hrest with
    | next h _ => cases h
    | here =>
      have hsame := hal [p ++ y] [p ++ [], y] (by simp) (by simp) (by simp) (by simp)
      simp only [calls] at hsame
      rw [call_taken hto, call_taken hto] at hsame
      have hy : y ≠ [] := hx
      simp [drainTurns, parse, finishCall, call, feed, parseRunning, resetTurn, hy] at hsame
  | ending =>
    cases hrest with
    | next h _ => cases h
    | here =>
      obtain ⟨ys, zs, ws, heq, hz⟩ : ∃ ys zs ws, y = ys ++ zs ++ ws ∧ parseEnded zs ≠ .drop .ended := by
        simpa [Rests] using hx
      have hsame := hal [p ++ y] [p ++ ys, zs, ws] (by simp) (by simp) (by simp) (by simp [heq])
      simp only [calls] at hsame
      rw [call_taken hto, call_taken hto] at hsame
      have hend : ∀ fin z, finishCall fin (drainTurns e.parse .hung (List.length z + 1) ⟨.ending, z, out, none⟩) =
          ⟨.ended, [], out, none⟩ := fun fin z => by simp [drainTurns, parse, finishCall]
      rw [hend, hend] at hsame
      obtain ⟨a, ha⟩ := e.call_ended hz out
      obtain ⟨o, ho⟩ := e.call_out true (e.call false ⟨.ended, [], out, none⟩ zs) ws
      rw [ho, ha] at hsame
      simp at hsame
  | rejected =>
    have hlarge : ∀ {s y out t x}, TakenTo e.parse s y out t x → s = .rejected → ¬ Rests t x → t.late = true → ∀ o,
        (drainTurns e.parse .hung (y.length + 1) ⟨s, y, o, none⟩).out = o ++ [.reset kStreamInternalError] := by
      intro s y out t x h
      induction h with
      | here s b =>
        rintro rfl hnot - o
        have hf : frontTyped b = .tooLarge := by simpa [Rests] using hnot
        simp [drainTurns, parse, parseRejected, hf, resetTurn]
      | @next s s1 t b x n o1 out hturn rest ih =>
        rintro rfl hnot hlate o
        have hturn' : parseRejected b = .take s1 n o1 := hturn
        unfold parseRejected at hturn'
        cases hf : frontTyped b with
        | needMore => simp [hf] at hturn'
        | tooLarge => simp [hf, resetTurn] at hturn'
        | whole zz payload size =>
          simp only [hf, Turn.take.injEq] at hturn'
          obtain ⟨rfl, rfl, rfl⟩ := hturn'
          obtain ⟨hpos, hle⟩ := frontTyped_bounds hf
          have hih := ih rfl hnot hlate o
          have hlen : (b.drop size).length < b.length := by rw [length_drop]; omega
          rw [drainTurns]
          simp only [hturn, append_nil]
          rw [e.drain_fuel _ _ hlen]
          exact hih
    have hlate : t'.late = true := by
      cases t' <;> first | rfl | exact absurd trivial hx
    have hout := hlarge hrest rfl hx hlate out
    have hsame := hal [p ++ y] [p ++ [], y] (by simp) (by simp) (by simp) (by simp)
    simp only [calls] at hsame
    rw [call_taken hto, call_taken hto] at hsame
    have hclosed : finishCall false (drainTurns e.parse .hung (([] : List Byte).length + 1) ⟨.rejected, [], out, none⟩) =
        ⟨.rejected, [], out, some .closed⟩ := by
      have hnil : frontTyped [] = .needMore := rfl
      simp [drainTurns, parse, parseRejected, hnil, finishCall]
    rw [hclosed, e.call_halted true y rfl] at hsame
    obtain ⟨o, ho⟩ := finishCall_out true (drainTurns e.parse .hung (y.length + 1) ⟨.rejected, y, out, none⟩)
    rw [hout] at ho
    rw [ho] at hsame
    simp at hsame
  | ended => exact hne rfl
  | running => exact hnr rfl
  | _ => cases ht

end LiteSession

/-! ## All cuts -/

theorem LiteOpener.stage_open (o : LiteOpener) : o.stage.late = false := by
  cases o with
  | peer uni => rfl
  | own type =>
    by_cases ha : type = kBidiAnnounce
    · rw [stage, if_pos ha]
      rfl
    · rw [stage, if_neg ha]
      split <;> rfl

open LiteSession

/-- **However the bytes of a stream are cut, the session does the same**, if they are calm; and if all of them fit into the
buffer, only then. -/
theorem lite_cuts_alike (e : LiteSession) (o : LiteOpener) (b : List Byte) :
    (e.Calm o.stage b → e.CutsAlike o b) ∧ (b.length ≤ kMaxRecvBuf → e.CutsAlike o b → e.Calm o.stage b) := by
  constructor
  · intro hcalm cs ds hcs hds hb hb' hf hf'
    have hwhole : ∀ cs : List (List Byte), cs ≠ [] → cs.flatten = b → e.Fits o.stream cs →
        (e.handleCalls o.stream cs).out = (e.call true o.stream b).out := by
      rintro cs hne rfl hfit
      rw [handleCalls_fits cs _ hfit, calls_whole cs _ hne (.live rfl o.stage_open hcalm)]
    rw [hwhole cs hcs hb hf, hwhole ds hds hb' hf']
  · intro hlen halike out t x hto
    by_contra hx
    have hlate : t.late = true := by
      cases t <;> first | rfl | exact absurd trivial hx
    obtain ⟨p, y, out1, out2, t1, rfl, ht1, hne, hnr, hreach, hrest⟩ := takenTo_late hto o.stage_open hlate
    refine e.cuts_differ hreach ht1 hne hnr hrest hx fun cs ds hcs hds hb hb' => ?_
    have hfit : ∀ cs : List (List Byte), cs.flatten = p ++ y → e.Fits o.stream cs := fun cs hcs =>
      e.fits_of_le cs o.stream (by rw [hcs]; exact hlen)
    have hsame := halike cs ds hcs hds hb hb' (hfit cs hb) (hfit ds hb')
    rw [handleCalls_fits cs _ (hfit cs hb), handleCalls_fits ds _ (hfit ds hb')] at hsame
    exact hsame

def servingSession : LiteSession := { armed := true }

/-- The bytes of an announce stream: its type, and a request for all there is. -/
def announceRequest : List Byte := [0x01, 0x01, 0x00]

theorem lite_cuts_alike_sample : servingSession.CutsAlike (.peer false) announceRequest := by
  refine (lite_cuts_alike servingSession (.peer false) announceRequest).1 fun out t x hto => ?_
  have htype : servingSession.parse (.untyped false) announceRequest = .take .request 1 [] := by decide +kernel
  have hrequest : servingSession.parse .request (announceRequest.drop 1) = .take .answered 2 [.announced [] []] := by
    decide +kernel
  cases hto with
  | here => trivial
  | next h rest =>
    obtain ⟨rfl, rfl, rfl⟩ := Turn.take.inj (htype.symm.trans h)
    cases rest with
    | here => trivial
    | next h rest =>
      obtain ⟨rfl, rfl, rfl⟩ := Turn.take.inj (hrequest.symm.trans h)
      cases rest with
      | here => rfl
      | next h rest => cases h

/-- **A byte behind the request resets the stream if it comes with the next call**, and else not. -/
theorem surplus_after_request : ¬ servingSession.CutsAlike (.peer false) (announceRequest ++ [0x7f]) := by
  intro h
  have hsame := h [announceRequest ++ [0x7f]] [announceRequest, [0x7f]] (by simp) (by simp) (by simp) (by simp)
    (servingSession.fits_of_le _ _ (by decide +kernel)) (servingSession.fits_of_le _ _ (by decide +kernel))
  have hone : (servingSession.handleCalls (LiteOpener.peer false).stream [announceRequest ++ [0x7f]]).out = [.announced [] []] := by
    decide +kernel
  have htwo : (servingSession.handleCalls (LiteOpener.peer false).stream [announceRequest, [0x7f]]).out =
      [.announced [] [], .reset kStreamInternalError] := by decide +kernel
  rw [hone, htwo] at hsame
  simp at hsame

end MoqLiveCast
