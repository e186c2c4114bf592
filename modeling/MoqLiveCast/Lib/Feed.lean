import Mathlib.Data.List.Basic
/-!
# Feed — a machine that is fed a byte string in pieces

What arrives goes to the end of a buffer, and turns are made as long as they take something off its front.  When no
turn changes its mind because more bytes are there (`SteadyTurns`), it makes no difference where the string was cut
(`feed_feed`), unless bytes were thrown away or the machine went wrong on a part of it.  Of a string that is known
beforehand it is enough that every turn on a part of it goes on as expected (`Follows`).
-/
namespace MoqLiveCast

open List

/-- One turn: nothing whole is there, or the first `n` symbols are taken, or all is thrown away, or the call never
returns. -/
inductive Turn (σ ω ε : Type) where
  | wait (s : σ)
  | take (s : σ) (n : Nat) (out : List ω)
  | drop (s : σ)
  | halt (s : σ) (e : ε) (out : List ω)
deriving DecidableEq

/-- The state, what is buffered, what came out, and why there are no more turns. -/
structure Fed (σ β ω ε : Type) where
  state : σ
  buf : List β
  out : List ω
  halted : Option ε
deriving DecidableEq

section Feed

variable {σ β ω ε : Type} (turn : σ → List β → Turn σ ω ε) (endless : ε)

def drainTurns : Nat → Fed σ β ω ε → Fed σ β ω ε
  | 0, r => { r with buf := [], halted := some endless }
  | k + 1, r =>
    match turn r.state r.buf with
    | .wait s => { r with state := s }
    | .take s n out => drainTurns k { r with state := s, buf := r.buf.drop n, out := r.out ++ out }
    | .drop s => { r with state := s, buf := [] }
    | .halt s e out => { state := s, buf := [], out := r.out ++ out, halted := some e }

/-- A turn that takes nothing is made for ever, so one more turn than there are symbols is enough. -/
def feed (r : Fed σ β ω ε) (chunk : List β) : Fed σ β ω ε :=
  if r.halted.isSome then r else drainTurns turn endless ((r.buf ++ chunk).length + 1) { r with buf := r.buf ++ chunk }

/-- **The turns throw nothing away and do not end for a reason of `und`.** -/
def CleanTurns (und : ε → Prop) : Nat → σ → List β → Prop
  | 0, _, _ => True
  | k + 1, s, b =>
    match turn s b with
    | .wait _ => True
    | .take s n _ => CleanTurns und k s (b.drop n)
    | .drop _ => False
    | .halt _ e _ => ¬ und e

/-- **More bytes behind change no turn** that was not a wait, and a wait is as good as its state; what a turn takes from a
buffer shorter than `limit` is there, and not nothing. -/
structure SteadyTurns (und : ε → Prop) (limit : Nat) : Prop where
  wait : ∀ {s b s'} (x : List β), turn s b = .wait s' → turn s (b ++ x) = turn s' (b ++ x)
  take : ∀ {s b s' n out} (x : List β), turn s b = .take s' n out → turn s (b ++ x) = .take s' n out
  halt : ∀ {s b s' e out} (x : List β), turn s b = .halt s' e out → ¬ und e → turn s (b ++ x) = .halt s' e out
  moves : ∀ {s b s' n out}, b.length < limit → turn s b = .take s' n out → 0 < n ∧ n ≤ b.length

variable {turn endless} {und : ε → Prop} {limit : Nat}

theorem drainTurns_fuel (hm : ∀ {s b s' n out}, b.length < limit → turn s b = .take s' n out → 0 < n ∧ n ≤ b.length) :
    ∀ (k : Nat) (r : Fed σ β ω ε), r.buf.length < limit → r.buf.length < k →
      drainTurns turn endless k r = drainTurns turn endless (r.buf.length + 1) r
  | 0, _, _, hk => absurd hk (Nat.not_lt_zero _)
  | k + 1, r, hl, hk => by
    cases ht : turn r.state r.buf with
    | wait s => simp [drainTurns, ht]
    | drop s => simp [drainTurns, ht]
    | halt s e out => simp [drainTurns, ht]
    | take s n out =>
      obtain ⟨hn, hle⟩ := hm hl ht
      obtain ⟨l, hbuf⟩ : ∃ l, r.buf.length = l + 1 := ⟨r.buf.length - 1, by omega⟩
      have hlim : (r.buf.drop n).length < limit := by rw [length_drop]; omega
      have hdrop : (r.buf.drop n).length < k := by rw [length_drop]; omega
      have hdrop' : (r.buf.drop n).length < l + 1 := by rw [length_drop]; omega
      rw [hbuf]
      simp only [drainTurns, ht]
      rw [drainTurns_fuel hm k _ hlim hdrop, ← drainTurns_fuel hm (l + 1) _ hlim hdrop']
      rfl

theorem drainTurns_enough (h : SteadyTurns turn und limit) (k : Nat) (r : Fed σ β ω ε) (hl : r.buf.length < limit)
    (hk : r.buf.length < k) : drainTurns turn endless k r = drainTurns turn endless (r.buf.length + 1) r :=
  drainTurns_fuel h.moves k r hl hk

theorem drainTurns_append (h : SteadyTurns turn und limit) (x : List β) : ∀ (k : Nat) (r : Fed σ β ω ε),
    (r.buf ++ x).length < limit → r.buf.length < k → r.halted = none → CleanTurns turn und k r.state r.buf →
      drainTurns turn endless ((r.buf ++ x).length + 1) { r with buf := r.buf ++ x } =
        feed turn endless (drainTurns turn endless k r) x
  | 0, _, _, hk, _, _ => absurd hk (Nat.not_lt_zero _)
  | k + 1, r, hl, hk, hr, hc => by
    have hlen : ∀ n, 0 < n → n ≤ r.buf.length → (r.buf.drop n ++ x).length < (r.buf ++ x).length := fun n hn hle => by
      rw [length_append, length_append, length_drop]
      omega
    unfold CleanTurns at hc
    cases ht : turn r.state r.buf with
    | wait s =>
      simp only [drainTurns, ht, feed, hr, Option.isSome_none, Bool.false_eq_true, if_false, h.wait x ht]
    | drop s => simp only [ht] at hc
    | halt s e out =>
      simp only [ht] at hc
      simp only [drainTurns, ht, h.halt x ht hc, feed, Option.isSome_some, if_true]
    | take s n out =>
      simp only [ht] at hc
      obtain ⟨hn, hle⟩ := h.moves (by rw [length_append] at hl; omega) ht
      have hlim := Nat.lt_trans (hlen n hn hle) hl
      have hdrop : (r.buf ++ x).drop n = r.buf.drop n ++ x := drop_append_of_le_length hle
      have ih := drainTurns_append h x k { r with state := s, buf := r.buf.drop n, out := r.out ++ out }
        hlim (by simp only [length_drop]; omega) hr hc
      rw [drainTurns]
      simp only [h.take x ht, hdrop]
      rw [drainTurns_enough h _ _ hlim (hlen n hn hle), ih, drainTurns]
      simp only [ht]

theorem drainTurns_congr {k : Nat} {r : Fed σ β ω ε} {s : σ} (h : turn r.state r.buf = turn s r.buf) :
    drainTurns turn endless (k + 1) r = drainTurns turn endless (k + 1) { r with state := s } := by
  simp only [drainTurns, h]

theorem cleanTurns_congr {k : Nat} {s s' : σ} {b : List β} (h : turn s b = turn s' b) :
    CleanTurns turn und (k + 1) s b ↔ CleanTurns turn und (k + 1) s' b := by
  simp only [CleanTurns, h]

theorem cleanTurns_of_halted (Good : σ → Prop) (hgood : ∀ {s b s' n out}, Good s → turn s b = .take s' n out → Good s')
    (hdrop : ∀ {s b s'}, Good s → turn s b ≠ .drop s') : ∀ (k : Nat) (r : Fed σ β ω ε), Good r.state →
      (∀ e, (drainTurns turn endless k r).halted = some e → ¬ und e) → CleanTurns turn und k r.state r.buf
  | 0, _, _, _ => trivial
  | k + 1, r, hs, hh => by
    unfold CleanTurns
    unfold drainTurns at hh
    cases ht : turn r.state r.buf with
    | wait s => trivial
    | drop s => exact absurd ht (hdrop hs)
    | halt s e out =>
      simp only [ht] at hh
      exact hh e rfl
    | take s n out =>
      simp only [ht] at hh
      exact cleanTurns_of_halted Good hgood hdrop k _ (hgood hs ht) hh

theorem drainTurns_out : ∀ (k : Nat) (r : Fed σ β ω ε), ∃ out, (drainTurns turn endless k r).out = r.out ++ out
  | 0, r => ⟨[], by simp [drainTurns]⟩
  | k + 1, r => by
    cases ht : turn r.state r.buf with
    | wait s => exact ⟨[], by simp [drainTurns, ht]⟩
    | drop s => exact ⟨[], by simp [drainTurns, ht]⟩
    | halt s e out => exact ⟨out, by simp [drainTurns, ht]⟩
    | take s n out =>
      obtain ⟨out', h⟩ := drainTurns_out k { r with state := s, buf := r.buf.drop n, out := r.out ++ out }
      refine ⟨out ++ out', ?_⟩
      simp only [drainTurns, ht]
      rw [h, append_assoc]

theorem feed_feed (h : SteadyTurns turn und limit) {r : Fed σ β ω ε} {p : List β} (x : List β)
    (hl : (r.buf ++ p ++ x).length < limit) (hc : CleanTurns turn und ((r.buf ++ p).length + 1) r.state (r.buf ++ p)) :
    feed turn endless (feed turn endless r p) x = feed turn endless r (p ++ x) := by
  by_cases hr : r.halted.isSome
  · simp [feed, hr]
  · have hnone : r.halted = none := by simpa using hr
    have := @drainTurns_append _ _ _ _ _ endless _ _ h x _ { r with buf := r.buf ++ p } hl (Nat.lt_succ_self _) hnone hc
    rw [show feed turn endless r p = drainTurns turn endless ((r.buf ++ p).length + 1) { r with buf := r.buf ++ p } from
      if_neg hr, ← this, show feed turn endless r (p ++ x) = _ from if_neg hr]
    simp only [append_assoc]

/-! ## Boundaries -/

/-- **Turn by turn something is taken** off `b` from `s` on, and `x` is left in `t`; `out` came out. -/
inductive TakenTo (turn : σ → List β → Turn σ ω ε) : σ → List β → List ω → σ → List β → Prop
  | here (s : σ) (b : List β) : TakenTo turn s b [] s b
  | next {s s1 t : σ} {b x : List β} {n : Nat} {o out : List ω} (h : turn s b = .take s1 n o)
      (rest : TakenTo turn s1 (b.drop n) out t x) : TakenTo turn s b (o ++ out) t x

theorem TakenTo.drain (hm : ∀ {s b s' n out}, turn s b = .take s' n out → 0 < n ∧ n ≤ b.length) {s t : σ} {b x : List β}
    {out : List ω} (h : TakenTo turn s b out t x) (r : Fed σ β ω ε) (hr : r.state = s) (hb : r.buf = b) :
    drainTurns turn endless (b.length + 1) r =
      drainTurns turn endless (x.length + 1) { r with state := t, buf := x, out := r.out ++ out } := by
  induction h generalizing r with
  | here s b => simp [← hr, ← hb]
  | @next s s1 t b x n o out h rest ih =>
    obtain ⟨hn, hle⟩ := hm h
    have hlen : (b.drop n).length < b.length := by rw [length_drop]; omega
    rw [drainTurns]
    simp only [hr, hb, h]
    rw [drainTurns_fuel (fun _ => hm) _ _ (Nat.lt_succ_self _) hlen, ih _ rfl rfl]
    simp

/-! ## Strings that are taken whole -/

/-- **From `s` the string is taken whole, word by word**, and ends in `s'`: each word is taken whatever follows it, and
no part of a word is. -/
inductive Spells (turn : σ → List β → Turn σ ω ε) : σ → List β → List ω → σ → Prop
  | nil (s : σ) : Spells turn s [] [] s
  | cons {s s1 s' : σ} {word xs : List β} {o out : List ω} (hne : word ≠ [])
      (whole : ∀ rest, turn s (word ++ rest) = .take s1 word.length o)
      (part : ∀ ys zs, word = ys ++ zs → zs ≠ [] → ∃ t, turn s ys = .wait t) (hrest : Spells turn s1 xs out s') :
      Spells turn s (word ++ xs) (o ++ out) s'

def Stalls (turn : σ → List β → Turn σ ω ε) (s : σ) (ts : List β) : Prop :=
  ∀ ys zs, ts = ys ++ zs → ∃ t, turn s ys = .wait t

theorem stalls_nil {s t : σ} (h : turn s [] = .wait t) : Stalls turn s [] := fun ys zs heq =>
  ⟨t, by rw [(List.append_eq_nil_iff.1 heq.symm).1, h]⟩

theorem Spells.drain {s s' t : σ} {xs ts : List β} {out : List ω} (h : Spells turn s xs out s') (ht : turn s' ts = .wait t)
    (r : Fed σ β ω ε) (hr : r.state = s) (hb : r.buf = xs ++ ts) (k : Nat) (hk : (xs ++ ts).length < k) :
    drainTurns turn endless k r = { r with state := t, buf := ts, out := r.out ++ out } := by
  induction h generalizing r k with
  | nil s =>
    obtain ⟨k, rfl⟩ : ∃ j, k = j + 1 := ⟨k - 1, by omega⟩
    rw [nil_append] at hb
    simp [drainTurns, hr, hb, ht]
  | @cons s s1 s' word xs o out hne whole part hrest ih =>
    obtain ⟨k, rfl⟩ : ∃ j, k = j + 1 := ⟨k - 1, by omega⟩
    have hpos := List.length_pos_iff.2 hne
    rw [append_assoc] at hb hk
    have hlen : (xs ++ ts).length < k := by rw [length_append] at hk; omega
    simp only [drainTurns, hr, hb, whole (xs ++ ts), drop_left]
    rw [ih ht _ rfl rfl k hlen]
    simp

theorem Spells.clean {s s' : σ} {xs ts : List β} {out : List ω} (h : Spells turn s xs out s') (ht : Stalls turn s' ts) :
    ∀ (p q : List β), xs ++ ts = p ++ q → ∀ k, CleanTurns turn und k s p := by
  induction h with
  | nil s =>
    intro p q heq k
    obtain ⟨t, hwait⟩ := ht p q heq
    cases k with
    | zero => trivial
    | succ k => simp [CleanTurns, hwait]
  | @cons s s1 s' word xs o out hne whole part hrest ih =>
    intro p q heq k
    cases k with
    | zero => trivial
    | succ k =>
      unfold CleanTurns
      rw [append_assoc] at heq
      rcases List.append_eq_append_iff.1 heq with ⟨vs, hp, hxs⟩ | ⟨vs, hword, hq⟩
      · rw [hp]
        simp only [whole vs, drop_left]
        exact ih ht vs q hxs k
      · by_cases hv : vs = []
        · subst hv
          rw [append_nil] at hword
          have hw := whole []
          rw [append_nil] at hw
          rw [← hword]
          simp only [hw, drop_length]
          exact ih ht [] (xs ++ ts) rfl k
        · obtain ⟨t, hwait⟩ := part p vs hword hv
          simp only [hwait]

theorem Spells.feed_pieces (hst : SteadyTurns turn und limit) {s s' t : σ} {xs ts : List β} {out : List ω}
    (h : Spells turn s xs out s') (hstall : Stalls turn s' ts) (ht : turn s' ts = .wait t) (hl : (xs ++ ts).length < limit)
    (hstart : turn s [] = .wait s) : ∀ cs : List (List β), cs.flatten = xs ++ ts → cs.foldl (feed turn endless) ⟨s, [], [],
    none⟩ = (⟨t, ts, out, none⟩ : Fed σ β ω ε) := by
  have hwhole : feed turn endless ⟨s, [], [], none⟩ (xs ++ ts) = (⟨t, ts, out, none⟩ : Fed σ β ω ε) := by
    simp only [feed, Option.isSome_none, Bool.false_eq_true, if_false, nil_append]
    rw [h.drain ht _ rfl rfl _ (Nat.lt_succ_self _)]
    simp
  have hnil : feed turn endless ⟨s, [], [], none⟩ [] = (⟨s, [], [], none⟩ : Fed σ β ω ε) := by
    simp [feed, drainTurns, hstart]
  have hsome : ∀ (cs : List (List β)) (p : List β), xs ++ ts = p ++ cs.flatten →
      cs.foldl (feed turn endless) (feed turn endless ⟨s, [], [], none⟩ p) = (⟨t, ts, out, none⟩ : Fed σ β ω ε) := by
    intro cs
    induction cs with
    | nil =>
      intro p hp
      rw [flatten_nil, append_nil] at hp
      exact hp ▸ hwhole
    | cons c cs ih =>
      intro p hp
      have hpc : ([] ++ p ++ c).length < limit := by
        rw [hp] at hl
        simp only [flatten_cons, nil_append, length_append] at hl ⊢
        omega
      rw [foldl_cons, feed_feed hst c hpc (h.clean hstall p _ hp _)]
      exact ih (p ++ c) (by rw [hp, flatten_cons, append_assoc])
  intro cs hcs
  have := hsome cs [] (by rw [nil_append, hcs])
  rwa [hnil] at this

/-! ## A string that is expected -/

/-- What a turn leaves of an expectation of the rest of a string (`Exp`, with what came out so far): it goes on behind what
was taken, and what came out of the last turn is `Ok`. -/
def Meets (Exp : σ → List β → List ω → Prop) (Ok : List ω → Prop) (rest : List β) (out : List ω) (len : Nat) : Turn σ ω ε → Prop
  | .wait s => Exp s rest out
  | .take s n o => n ≤ len ∧ Exp s (rest.drop n) (out ++ o)
  | .drop _ => False
  | .halt _ _ o => Ok (out ++ o)

/-- **What is expected stays expected turn by turn**, whatever part of it is there, and what comes out is always `Ok`. -/
structure Follows (turn : σ → List β → Turn σ ω ε) (Exp : σ → List β → List ω → Prop) (Ok : List ω → Prop) : Prop where
  ok : ∀ {s rest out}, Exp s rest out → Ok out
  meets : ∀ {s rest out b}, Exp s rest out → b <+: rest → Meets Exp Ok rest out b.length (turn s b)

/-- What is to come is expected behind what is buffered, as long as there are turns. -/
def Awaits (Exp : σ → List β → List ω → Prop) (Ok : List ω → Prop) (r : Fed σ β ω ε) (rest : List β) : Prop :=
  Ok r.out ∧ (r.halted = none → Exp r.state (r.buf ++ rest) r.out)

variable {Exp : σ → List β → List ω → Prop} {Ok : List ω → Prop}

theorem Follows.drain (h : Follows turn Exp Ok) {rest : List β} : ∀ (k : Nat) {r : Fed σ β ω ε},
    Exp r.state (r.buf ++ rest) r.out → r.halted = none → Awaits Exp Ok (drainTurns turn endless k r) rest
  | 0, r, hr, _ => ⟨h.ok hr, fun hh => nomatch hh⟩
  | k + 1, r, hr, hh => by
    have hmeets := h.meets hr (prefix_append r.buf rest)
    unfold drainTurns
    cases ht : turn r.state r.buf with
    | wait s =>
      rw [ht] at hmeets
      exact ⟨h.ok hr, fun _ => hmeets⟩
    | drop s =>
      rw [ht] at hmeets
      exact hmeets.elim
    | halt s e out =>
      rw [ht] at hmeets
      exact ⟨hmeets, fun hh => nomatch hh⟩
    | take s n out =>
      rw [ht] at hmeets
      obtain ⟨hn, hnext⟩ := hmeets
      rw [drop_append_of_le_length hn] at hnext
      exact h.drain k hnext hh

theorem Follows.feed (h : Follows turn Exp Ok) {rest chunk : List β} {r : Fed σ β ω ε} (hr : Awaits Exp Ok r (chunk ++ rest)) :
    Awaits Exp Ok (feed turn endless r chunk) rest := by
  unfold MoqLiveCast.feed
  split
  · rename_i hs
    exact ⟨hr.1, fun hn => by simp [hn] at hs⟩
  · rename_i hs
    have hnone : r.halted = none := by simpa using hs
    refine h.drain _ ?_ hnone
    rw [append_assoc]
    exact hr.2 hnone

end Feed
end MoqLiveCast
