import MoqLiveCast.Lib.Word
import Mathlib.Data.List.Basic
/-!
# Scan — scanners of a byte string that is not all there yet

A scanner moves an offset over the bytes received so far. It answers with a value, or that it has too little (or nothing
of use), or that its call never returns. Each length it tests against the end goes into a log, with the offset it is
counted from; the sum is the machine's, so it can wrap.
-/
namespace MoqLiveCast

open List

/-- The offset, and the lengths tested so far with the offsets they were counted from. -/
structure Cursor where
  off : Nat
  tests : List (Nat × Nat)
deriving DecidableEq

inductive Answer (ε α : Type) where
  | ok (a : α) (c : Cursor)
  | short (c : Cursor)
  | stop (e : ε) (c : Cursor)
deriving DecidableEq

def Answer.cursor {ε α : Type} : Answer ε α → Cursor
  | .ok _ c => c
  | .short c => c
  | .stop _ c => c

def Scanner (β ε α : Type) := List β → Cursor → Answer ε α

namespace Scanner

variable {β ε α γ : Type}

protected def pure (a : α) : Scanner β ε α := fun _ c => .ok a c

protected def bind (m : Scanner β ε α) (f : α → Scanner β ε γ) : Scanner β ε γ := fun b c =>
  match m b c with
  | .ok a c' => f a b c'
  | .short c' => .short c'
  | .stop e c' => .stop e c'

instance : Monad (Scanner β ε) where
  pure := Scanner.pure
  bind := Scanner.bind

def short : Scanner β ε α := fun _ c => .short c

def stop (e : ε) : Scanner β ε α := fun _ c => .stop e c

def pos : Scanner β ε Nat := fun _ c => .ok c.off c

def seek (off : Nat) : Scanner β ε Unit := fun _ c => .ok () { c with off := off }

/-- `if (off + n > len) return false;` in 64 bits. -/
def room (n : Nat) : Scanner β ε Unit := fun b c =>
  if b.length < add64 c.off n then .short { c with tests := c.tests ++ [(c.off, n)] }
  else .ok () { c with tests := c.tests ++ [(c.off, n)] }

/-- The next `n` symbols have room: where they are, with the offset behind them. -/
def take (n : Nat) : Scanner β ε Nat := do
  room n
  let v ← pos
  seek (add64 v n)
  return v

/-- The end of a block of `n` symbols that has room. -/
def blockEnd (n : Nat) : Scanner β ε Nat := do
  room n
  let off ← pos
  return add64 off n

/-- The `n` symbols from `v` on, if they are there. -/
def span (why : ε) (v n : Nat) : Scanner β ε (List β) := fun b c =>
  if b.length < v + n then .stop why c else .ok ((b.drop v).take n) c

def accepted (b : List β) (tests : List (Nat × Nat)) : List (Nat × Nat) :=
  tests.filter fun t => add64 t.1 t.2 ≤ b.length

variable {b : List β} {c c' : Cursor} {f : α → Scanner β ε γ} {m : Scanner β ε α}

theorem bind_ok {a : α} (h : m b c = .ok a c') : (m >>= f) b c = f a b c' := by
  change Scanner.bind m f b c = _
  simp only [Scanner.bind, h]

theorem bind_short (h : m b c = .short c') : (m >>= f) b c = .short c' := by
  change Scanner.bind m f b c = _
  simp only [Scanner.bind, h]

theorem bind_stop {e : ε} (h : m b c = .stop e c') : (m >>= f) b c = .stop e c' := by
  change Scanner.bind m f b c = _
  simp only [Scanner.bind, h]

theorem bind_eq_ok {d : γ} : (m >>= f) b c = .ok d c' ↔ ∃ a c1, m b c = .ok a c1 ∧ f a b c1 = .ok d c' := by
  constructor
  · intro h
    cases hm : m b c with
    | ok a c1 => exact ⟨a, c1, rfl, by rwa [bind_ok hm] at h⟩
    | short c1 => rw [bind_short hm] at h; cases h
    | stop e c1 => rw [bind_stop hm] at h; cases h
  · rintro ⟨a, c1, hm, hf⟩
    rw [bind_ok hm, hf]

theorem bind_eq_stop {e : ε} :
    (m >>= f) b c = .stop e c' ↔ m b c = .stop e c' ∨ ∃ a c1, m b c = .ok a c1 ∧ f a b c1 = .stop e c' := by
  constructor
  · intro h
    cases hm : m b c with
    | ok a c1 => exact .inr ⟨a, c1, rfl, by rwa [bind_ok hm] at h⟩
    | short c1 => rw [bind_short hm] at h; cases h
    | stop e' c1 =>
      rw [bind_stop hm] at h
      cases h
      exact .inl rfl
  · rintro (h | ⟨a, c1, hm, hf⟩)
    · exact bind_stop h
    · rw [bind_ok hm, hf]

@[simp] theorem pos_apply (b : List β) (c : Cursor) : (pos : Scanner β ε Nat) b c = .ok c.off c := rfl

/-! ## What a scanner keeps of its cursor -/

/-- **On `b` the scanner keeps `Inv`**, and a value it answers is good. -/
def Keeps (b : List β) (Inv : Cursor → Prop) (Post : α → Prop) (m : Scanner β ε α) : Prop :=
  ∀ c, Inv c → Inv (m b c).cursor ∧ ∀ a c', m b c = .ok a c' → Post a

section Keeps

variable {b : List β} {Inv : Cursor → Prop} {P : α → Prop} {Q : γ → Prop} {m : Scanner β ε α}

theorem Keeps.bind {f : α → Scanner β ε γ} (hm : Keeps b Inv P m) (hf : ∀ a, P a → Keeps b Inv Q (f a)) :
    Keeps b Inv Q (m >>= f) := by
  intro c hc
  obtain ⟨hinv, hpost⟩ := hm c hc
  cases h : m b c with
  | ok a c' =>
    rw [bind_ok h]
    rw [h] at hinv
    exact hf a (hpost a c' h) c' hinv
  | short c' =>
    rw [bind_short h]
    rw [h] at hinv
    exact ⟨hinv, fun _ _ he => by cases he⟩
  | stop e c' =>
    rw [bind_stop h]
    rw [h] at hinv
    exact ⟨hinv, fun _ _ he => by cases he⟩

theorem Keeps.pure {a : α} (h : P a) : Keeps b Inv P (Pure.pure a : Scanner β ε α) := fun _ hc =>
  ⟨hc, fun _ _ he => by cases he; exact h⟩

theorem Keeps.short : Keeps b Inv P (Scanner.short : Scanner β ε α) := fun _ hc => ⟨hc, fun _ _ he => by cases he⟩

theorem Keeps.stop (e : ε) : Keeps b Inv P (Scanner.stop e : Scanner β ε α) := fun _ hc =>
  ⟨hc, fun _ _ he => by cases he⟩

theorem Keeps.ite {p : Prop} [Decidable p] {m' : Scanner β ε α} (h : p → Keeps b Inv P m) (h' : ¬ p → Keeps b Inv P m') :
    Keeps b Inv P (if p then m else m') := by
  split
  · exact h ‹_›
  · exact h' ‹_›

end Keeps

/-- **The cursor is in the string, and so is every offset a length was counted from**; the lengths are words. -/
def Within (b : List β) (c : Cursor) : Prop := c.off ≤ b.length ∧ ∀ t ∈ c.tests, t.1 ≤ b.length ∧ t.2 < wordSize

theorem within_start (b : List β) : Within b ⟨0, []⟩ := ⟨Nat.zero_le _, fun _ ht => by cases ht⟩

theorem Within.test {c : Cursor} {n : Nat} (h : Within b c) (hn : n < wordSize) :
    Within b { c with tests := c.tests ++ [(c.off, n)] } := by
  refine ⟨h.1, fun t ht => ?_⟩
  rcases List.mem_append.1 ht with ht | ht
  · exact h.2 t ht
  · rw [List.mem_singleton.1 ht]
    exact ⟨h.1, hn⟩

section Within

variable {b : List β} {n : Nat}

theorem keeps_pos : Keeps b (Within b) (fun off => off ≤ b.length) (pos : Scanner β ε Nat) := fun _ hc =>
  ⟨hc, fun _ _ he => by cases he; exact hc.1⟩

theorem keeps_seek (hn : n ≤ b.length) : Keeps b (Within b) (fun _ => True) (seek n : Scanner β ε Unit) := fun _ hc =>
  ⟨⟨hn, hc.2⟩, fun _ _ _ => trivial⟩

theorem room_cases (b : List β) (c : Cursor) :
    (b.length < add64 c.off n ∧ (room n : Scanner β ε Unit) b c = .short { c with tests := c.tests ++ [(c.off, n)] }) ∨
      (add64 c.off n ≤ b.length ∧ (room n : Scanner β ε Unit) b c = .ok () { c with tests := c.tests ++ [(c.off, n)] }) := by
  by_cases h : b.length < add64 c.off n
  · exact .inl ⟨h, if_pos h⟩
  · exact .inr ⟨Nat.not_lt.1 h, if_neg h⟩

theorem take_eq_ok {c c' : Cursor} {v : Nat} (h : (take n : Scanner β ε Nat) b c = .ok v c') :
    v = c.off ∧ c'.off = add64 c.off n ∧ c'.off ≤ b.length := by
  rcases room_cases (ε := ε) (n := n) b c with ⟨-, hr⟩ | ⟨hle, hr⟩
  · rw [take, bind_short hr] at h
    cases h
  · rw [take, bind_ok hr] at h
    cases h
    exact ⟨rfl, rfl, hle⟩

theorem take_ne_stop {c c' : Cursor} {e : ε} : (take n : Scanner β ε Nat) b c ≠ .stop e c' := by
  rcases room_cases (ε := ε) (n := n) b c with ⟨-, hr⟩ | ⟨-, hr⟩
  · rw [take, bind_short hr]
    exact fun h => by cases h
  · rw [take, bind_ok hr]
    exact fun h => by cases h

theorem keeps_take (hn : n < wordSize) : Keeps b (Within b) (fun v => v ≤ b.length) (take n : Scanner β ε Nat) := by
  intro c hc
  rcases room_cases (ε := ε) (n := n) b c with ⟨-, hr⟩ | ⟨h, hr⟩
  · rw [take, bind_short hr]
    exact ⟨hc.test hn, fun _ _ he => by cases he⟩
  · rw [take, bind_ok hr]
    exact ⟨⟨h, (hc.test hn).2⟩, fun _ _ he => by cases he; exact hc.1⟩

theorem keeps_blockEnd (hn : n < wordSize) : Keeps b (Within b) (fun pend => pend ≤ b.length) (blockEnd n : Scanner β ε Nat) := by
  intro c hc
  rcases room_cases (ε := ε) (n := n) b c with ⟨-, hr⟩ | ⟨h, hr⟩
  · rw [blockEnd, bind_short hr]
    exact ⟨hc.test hn, fun _ _ he => by cases he⟩
  · rw [blockEnd, bind_ok hr]
    exact ⟨hc.test hn, fun _ _ he => by cases he; exact h⟩

end Within

theorem keeps_span {Inv : Cursor → Prop} (why : ε) (v n : Nat) :
    Keeps b Inv (fun _ => True) (span why v n : Scanner β ε (List β)) := by
  intro c hc
  unfold span
  split
  · exact ⟨hc, fun _ _ _ => trivial⟩
  · exact ⟨hc, fun _ _ _ => trivial⟩

theorem span_eq_ok {why : ε} {v n : Nat} {x : List β} (h : span why v n b c = .ok x c') :
    v + n ≤ b.length ∧ c' = c ∧ x = (b.drop v).take n := by
  unfold span at h
  split at h
  · cases h
  · cases h
    exact ⟨by omega, rfl, rfl⟩

theorem span_ok {why : ε} {v n : Nat} (h : v + n ≤ b.length) (c : Cursor) :
    span why v n b c = .ok ((b.drop v).take n) c := if_neg (Nat.not_lt.2 h)

theorem Within.accepted_iff {c : Cursor} (h : Within b c) (hb : b.length < wordSize) :
    (∀ t ∈ accepted b c.tests, t.1 + t.2 ≤ b.length) ↔ ∀ t ∈ c.tests, t.1 + t.2 < wordSize := by
  unfold accepted add64
  constructor
  · intro hall t ht
    by_contra hw
    have hin := h.2 t ht
    have hmod : (t.1 + t.2) % wordSize = t.1 + t.2 - wordSize := by
      rw [Nat.mod_eq_sub_mod (Nat.not_lt.1 hw), Nat.mod_eq_of_lt (by omega)]
    have := hall t (List.mem_filter.2 ⟨ht, by simp only [hmod, decide_eq_true_eq]; omega⟩)
    omega
  · intro hall t ht
    obtain ⟨ht, hacc⟩ := List.mem_filter.1 ht
    rw [decide_eq_true_eq, Nat.mod_eq_of_lt (hall t ht)] at hacc
    exact hacc

/-! ## More bytes behind -/

/-- **What the scanner answers for good on a part, it answers on the whole**, `und` aside. -/
structure Steady (und : ε → Prop) (m : Scanner β ε α) : Prop where
  answers : ∀ {b c a c'} (x : List β), m b c = .ok a c' → m (b ++ x) c = .ok a c'
  ends : ∀ {b c e c'} (x : List β), m b c = .stop e c' → ¬ und e → m (b ++ x) c = .stop e c'

section Steady

variable {und : ε → Prop} {m : Scanner β ε α}

theorem Steady.bind {f : α → Scanner β ε γ} (hm : Steady und m) (hf : ∀ a, Steady und (f a)) : Steady und (m >>= f) where
  answers {b c a c'} x h := by
    cases hr : m b c with
    | ok a' c1 =>
      rw [bind_ok hr] at h
      rw [bind_ok (hm.answers x hr)]
      exact (hf a').answers x h
    | short c1 => rw [bind_short hr] at h; cases h
    | stop e c1 => rw [bind_stop hr] at h; cases h
  ends {b c e c'} x h he := by
    cases hr : m b c with
    | ok a' c1 =>
      rw [bind_ok hr] at h
      rw [bind_ok (hm.answers x hr)]
      exact (hf a').ends x h he
    | short c1 => rw [bind_short hr] at h; cases h
    | stop e' c1 =>
      rw [bind_stop hr] at h
      cases h
      exact bind_stop (hm.ends x hr he)

theorem Steady.pure (a : α) : Steady und (Pure.pure a : Scanner β ε α) := ⟨fun _ h => h, fun _ h _ => by cases h⟩

theorem Steady.short : Steady und (Scanner.short : Scanner β ε α) := ⟨fun _ h => (by cases h), fun _ h _ => (by cases h)⟩

theorem Steady.stop (e : ε) : Steady und (Scanner.stop e : Scanner β ε α) := ⟨fun _ h => (by cases h), fun _ h _ => h⟩

theorem Steady.pos : Steady und (Scanner.pos : Scanner β ε Nat) := ⟨fun _ h => h, fun _ h _ => by cases h⟩

theorem Steady.seek (n : Nat) : Steady und (Scanner.seek n : Scanner β ε Unit) := ⟨fun _ h => h, fun _ h _ => by cases h⟩

theorem Steady.room (n : Nat) : Steady und (Scanner.room n : Scanner β ε Unit) where
  answers {b c a c'} x h := by
    unfold Scanner.room at h ⊢
    split at h
    · cases h
    · rename_i hn
      rw [if_neg (by rw [length_append]; omega)]
      exact h
  ends {b c e c'} x h _ := by
    unfold Scanner.room at h
    split at h <;> cases h

theorem Steady.take (n : Nat) : Steady und (Scanner.take n : Scanner β ε Nat) :=
  (Steady.room n).bind fun _ => Steady.pos.bind fun _ => (Steady.seek _).bind fun _ => Steady.pure _

theorem Steady.blockEnd (n : Nat) : Steady und (Scanner.blockEnd n : Scanner β ε Nat) :=
  (Steady.room n).bind fun _ => Steady.pos.bind fun _ => Steady.pure _

theorem Steady.span {why : ε} (hover : und why) (v n : Nat) : Steady und (Scanner.span why v n : Scanner β ε (List β)) where
  answers {b c a c'} x h := by
    obtain ⟨hle, rfl, rfl⟩ := span_eq_ok h
    rw [span_ok (by rw [length_append]; omega), drop_append_of_le_length (by omega),
      take_append_of_le_length (by rw [length_drop]; omega)]
  ends {b c e c'} x h he := by
    unfold Scanner.span at h
    split at h
    · cases h
      exact absurd hover he
    · cases h

theorem Steady.ite {p : Prop} [Decidable p] {m' : Scanner β ε α} (h : Steady und m) (h' : Steady und m') :
    Steady und (if p then m else m') := by
  split
  · exact h
  · exact h'

end Steady

/-! ## A string that is taken whole -/

/-- **The scanner asks for more on every part of `xs`**, wherever it starts below the word's end. -/
def Waits (m : Scanner β ε α) (xs : List β) : Prop :=
  ∀ pre ys zs tests, (pre ++ xs).length < wordSize → xs = ys ++ zs → zs ≠ [] → ∃ c, m (pre ++ ys) ⟨pre.length, tests⟩ = .short c

/-- **The scanner takes exactly `xs`, for a value of `P`**, and asks for more on every part of it. -/
structure Scans (m : Scanner β ε α) (P : α → Prop) (xs : List β) : Prop where
  whole : ∀ pre rest tests, (pre ++ xs).length < wordSize →
    ∃ a tests', m (pre ++ (xs ++ rest)) ⟨pre.length, tests⟩ = .ok a ⟨(pre ++ xs).length, tests'⟩ ∧ P a
  part : Waits m xs

section Scans

variable {m : Scanner β ε α} {P : α → Prop} {xs ys : List β}

variable {f : α → Scanner β ε γ}

theorem Waits.bind (hm : Scans m P xs) (hf : ∀ a, P a → Waits (f a) ys) : Waits (m >>= f) (xs ++ ys) := by
  intro pre us zs tests hlen heq hne
  rw [← append_assoc] at hlen
  have hx : (pre ++ xs).length < wordSize := by rw [length_append] at hlen; omega
  rcases List.append_eq_append_iff.1 heq.symm with ⟨vs, hxs, hzs⟩ | ⟨vs, hus, hys⟩
  · by_cases hv : vs = []
    · subst hv
      rw [append_nil] at hxs
      obtain ⟨a, t1, h1, ha⟩ := hm.whole pre [] tests hx
      obtain ⟨c, h2⟩ := hf a ha (pre ++ xs) [] ys t1 hlen rfl (by simpa [hzs] using hne)
      refine ⟨c, ?_⟩
      rw [append_nil] at h1 h2
      rw [← hxs, bind_ok h1, h2]
    · obtain ⟨c, h1⟩ := hm.part pre us vs tests hx hxs hv
      exact ⟨c, bind_short h1⟩
  · obtain ⟨a, t1, h1, ha⟩ := hm.whole pre vs tests hx
    obtain ⟨c, h2⟩ := hf a ha (pre ++ xs) vs zs t1 hlen hys hne
    refine ⟨c, ?_⟩
    rw [hus, bind_ok h1, ← append_assoc, h2]

theorem Scans.bind {Q : γ → Prop} (hm : Scans m P xs) (hf : ∀ a, P a → Scans (f a) Q ys) : Scans (m >>= f) Q (xs ++ ys) where
  whole pre rest tests hlen := by
    rw [← append_assoc] at hlen
    obtain ⟨a, t1, h1, ha⟩ := hm.whole pre (ys ++ rest) tests (by rw [length_append] at hlen; omega)
    obtain ⟨d, t2, h2, hd⟩ := (hf a ha).whole (pre ++ xs) rest t1 hlen
    refine ⟨d, t2, ?_, hd⟩
    rw [append_assoc xs, bind_ok h1]
    simpa only [append_assoc] using h2
  part := Waits.bind hm fun a ha => (hf a ha).part

theorem Waits.nil : Waits m [] := fun _ _ _ _ _ heq hne => absurd (List.append_eq_nil_iff.1 heq.symm).2 hne

theorem Scans.pure {a : α} (h : P a) : Scans (Pure.pure a : Scanner β ε α) P [] where
  whole pre rest tests _ := ⟨a, tests, by rw [append_nil]; rfl, h⟩
  part := Waits.nil

theorem Scans.map {f : α → γ} {Q : γ → Prop} (h : Scans m P xs) (hf : ∀ a, P a → Q (f a)) :
    Scans (m >>= fun a => Pure.pure (f a)) Q xs := by
  have hb : Scans (m >>= fun a => Pure.pure (f a)) Q (xs ++ []) := h.bind fun a ha => Scans.pure (hf a ha)
  rwa [append_nil] at hb

theorem take_whole (pre xs rest : List β) (tests : List (Nat × Nat)) (h : (pre ++ xs).length < wordSize) :
    (take xs.length : Scanner β ε Nat) (pre ++ (xs ++ rest)) ⟨pre.length, tests⟩ = .ok pre.length ⟨(pre ++ xs).length, tests ++
    [(pre.length, xs.length)]⟩ := by
  rw [length_append] at h
  have hadd : add64 pre.length xs.length = (pre ++ xs).length := by
    rw [add64, Nat.mod_eq_of_lt h, length_append]
  rcases room_cases (ε := ε) (n := xs.length) (pre ++ (xs ++ rest)) ⟨pre.length, tests⟩ with ⟨hlt, -⟩ | ⟨-, hr⟩
  · rw [hadd] at hlt
    simp only [length_append] at hlt
    omega
  · rw [take, bind_ok hr]
    simp only [← hadd]
    rfl

theorem waits_take (xs : List β) : Waits (take xs.length : Scanner β ε Nat) xs := by
  intro pre ys zs tests h heq hne
  have hz := List.length_pos_iff.2 hne
  rw [length_append] at h
  have hxs : xs.length = ys.length + zs.length := by rw [heq, length_append]
  rcases room_cases (ε := ε) (n := xs.length) (pre ++ ys) ⟨pre.length, tests⟩ with ⟨-, hr⟩ | ⟨hle, -⟩
  · exact ⟨_, bind_short hr⟩
  · rw [add64, Nat.mod_eq_of_lt h, length_append] at hle
    omega

theorem Waits.bind_left (h : Waits m xs) : Waits (m >>= f) xs := by
  intro pre ys zs tests hlen heq hne
  obtain ⟨c, hc⟩ := h pre ys zs tests hlen heq hne
  exact ⟨c, bind_short hc⟩

theorem blockEnd_whole (pre xs rest : List β) (tests : List (Nat × Nat)) (h : (pre ++ xs).length < wordSize) :
    (blockEnd xs.length : Scanner β ε Nat) (pre ++ (xs ++ rest)) ⟨pre.length, tests⟩ = .ok (pre ++ xs).length ⟨pre.length,
    tests ++ [(pre.length, xs.length)]⟩ := by
  rw [length_append] at h
  have hadd : add64 pre.length xs.length = (pre ++ xs).length := by
    rw [add64, Nat.mod_eq_of_lt h, length_append]
  rcases room_cases (ε := ε) (n := xs.length) (pre ++ (xs ++ rest)) ⟨pre.length, tests⟩ with ⟨hlt, -⟩ | ⟨-, hr⟩
  · rw [hadd] at hlt
    simp only [length_append] at hlt
    omega
  · rw [blockEnd, bind_ok hr]
    simp only [← hadd]
    rfl

theorem waits_blockEnd (xs : List β) : Waits (blockEnd xs.length : Scanner β ε Nat) xs := by
  intro pre ys zs tests h heq hne
  have hz := List.length_pos_iff.2 hne
  rw [length_append] at h
  have hxs : xs.length = ys.length + zs.length := by rw [heq, length_append]
  rcases room_cases (ε := ε) (n := xs.length) (pre ++ ys) ⟨pre.length, tests⟩ with ⟨-, hr⟩ | ⟨hle, -⟩
  · exact ⟨_, bind_short hr⟩
  · rw [add64, Nat.mod_eq_of_lt h, length_append] at hle
    omega

end Scans
end Scanner
end MoqLiveCast
