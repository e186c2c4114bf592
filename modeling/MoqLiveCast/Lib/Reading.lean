import MoqLiveCast.Lib.Mem
/-!
# Reading — programs that read a block, and whether they stay in it

A program reads cells of a block by their index, hands parts of it to others, and subtracts lengths as machines do.  What it does
is its result (`run`), and that it stays inside a block of `n` cells (`Inside`): each index is below `n`, each part ends there,
and no difference wraps.  What is behind the block then plays no part (`Inside.congr`).
-/
namespace MoqLiveCast

inductive Reading (β α : Type) where
  | done (a : α)
  | read (i : Nat) (k : β → Reading β α)
  | hand (start len : Nat) (k : Reading β α)
  | minus (w a b : Nat) (k : Nat → Reading β α)

namespace Reading

variable {β α γ : Type}

protected def bind : Reading β α → (α → Reading β γ) → Reading β γ
  | done a, f => f a
  | read i k, f => .read i fun x => (k x).bind f
  | hand start len k, f => .hand start len (k.bind f)
  | minus w a b k, f => .minus w a b fun d => (k d).bind f

instance : Monad (Reading β) where
  pure := done
  bind := Reading.bind

def cell (i : Nat) : Reading β β := .read i .done

def cells (i : Nat) : Nat → Reading β (List β)
  | 0 => .done []
  | n + 1 => .read i fun x => (cells (i + 1) n).bind fun xs => .done (x :: xs)

def handOver (start len : Nat) : Reading β Unit := .hand start len (.done ())

def difference (w a b : Nat) : Reading β Nat := .minus w a b .done

def run (mem : Nat → β) : Reading β α → α
  | done a => a
  | read i k => (k (mem i)).run mem
  | hand _ _ k => k.run mem
  | minus w a b k => (k ((a + 2 ^ w - b) % 2 ^ w)).run mem

/-- **The program stays inside** the first `n` cells. -/
def Inside (n : Nat) (mem : Nat → β) : Reading β α → Prop
  | done _ => True
  | read i k => i < n ∧ (k (mem i)).Inside n mem
  | hand start len k => start + len ≤ n ∧ k.Inside n mem
  | minus w a b k => b ≤ a ∧ (k ((a + 2 ^ w - b) % 2 ^ w)).Inside n mem

section

variable (mem : Nat → β) (n : Nat)

@[simp] theorem run_pure (a : α) : (pure a : Reading β α).run mem = a := rfl

@[simp] theorem inside_pure (a : α) : (pure a : Reading β α).Inside n mem := trivial

@[simp] theorem run_bind : ∀ (m : Reading β α) (f : α → Reading β γ), (m >>= f).run mem = (f (m.run mem)).run mem
  | done _, _ => rfl
  | read i k, f => run_bind (k (mem i)) f
  | hand _ _ k, f => run_bind k f
  | minus _ _ _ k, f => run_bind (k _) f

@[simp] theorem inside_bind : ∀ (m : Reading β α) (f : α → Reading β γ),
    (m >>= f).Inside n mem ↔ m.Inside n mem ∧ (f (m.run mem)).Inside n mem
  | done _, _ => (iff_of_eq (true_and _)).symm
  | read i k, f => (and_congr_right fun _ => inside_bind (k (mem i)) f).trans and_assoc.symm
  | hand _ _ k, f => (and_congr_right fun _ => inside_bind k f).trans and_assoc.symm
  | minus _ _ _ k, f => (and_congr_right fun _ => inside_bind (k _) f).trans and_assoc.symm

@[simp] theorem run_cell (i : Nat) : (cell i : Reading β β).run mem = mem i := rfl

@[simp] theorem inside_cell (i : Nat) : (cell i : Reading β β).Inside n mem ↔ i < n := iff_of_eq (and_true _)

@[simp] theorem inside_handOver (start len : Nat) : (handOver start len : Reading β Unit).Inside n mem ↔ start + len ≤ n :=
  iff_of_eq (and_true _)

@[simp] theorem inside_difference (w a b : Nat) : (difference w a b : Reading β Nat).Inside n mem ↔ b ≤ a := iff_of_eq (and_true _)

theorem run_difference {a b : Nat} (w : Nat) (hle : b ≤ a) : (difference w a b : Reading β Nat).run mem = (a - b) % 2 ^ w := by
  have hsplit : a + 2 ^ w - b = a - b + 2 ^ w := Nat.sub_add_comm hle
  show (a + 2 ^ w - b) % 2 ^ w = (a - b) % 2 ^ w
  rw [hsplit, Nat.add_mod_right]

@[simp] theorem run_cells : ∀ (i len : Nat), (cells i len : Reading β (List β)).run mem = slice mem i len
  | _, 0 => rfl
  | i, len + 1 => by
    have hrest : ((cells (i + 1) len : Reading β (List β)) >>= fun xs => pure (mem i :: xs)).run mem =
        mem i :: slice mem (i + 1) len := by
      rw [run_bind, run_cells (i + 1) len, run_pure]
    refine hrest.trans ?_
    unfold slice
    rw [List.range'_succ, List.map_cons]

theorem inside_cells : ∀ (i len : Nat), 0 < len → ((cells i len : Reading β (List β)).Inside n mem ↔ i + len ≤ n)
  | _, 0, hpos => absurd hpos (Nat.lt_irrefl 0)
  | i, 1, _ => by
    show i < n ∧ True ↔ _
    rw [and_true]
    exact Iff.rfl
  | i, len + 2, _ => by
    have hrest : ((cells (i + 1) (len + 1) : Reading β (List β)) >>= fun xs => pure (mem i :: xs)).Inside n mem ↔
        i + 1 + (len + 1) ≤ n := by
      rw [inside_bind, inside_cells (i + 1) (len + 1) (Nat.succ_pos len), and_iff_left (inside_pure mem n _)]
    refine (and_congr_right fun _ => hrest).trans ?_
    omega

end

theorem Inside.congr {n : Nat} {mem mem' : Nat → β} (hsame : ∀ i < n, mem i = mem' i) : ∀ {m : Reading β α},
    m.Inside n mem → m.Inside n mem' ∧ m.run mem = m.run mem'
  | done _, _ => ⟨trivial, rfl⟩
  | read i k, h => by
    obtain ⟨hlt, hk⟩ := h
    obtain ⟨hinside, hrun⟩ := hk.congr hsame
    rw [hsame i hlt] at hinside hrun
    refine ⟨⟨hlt, hinside⟩, ?_⟩
    simp only [run]
    rw [hsame i hlt]
    exact hrun
  | hand _ _ _, h => ⟨⟨h.1, (h.2.congr hsame).1⟩, (h.2.congr hsame).2⟩
  | minus _ _ _ _, h => ⟨⟨h.1, (h.2.congr hsame).1⟩, (h.2.congr hsame).2⟩

end Reading
end MoqLiveCast
