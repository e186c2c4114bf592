import Mathlib.Algebra.Ring.Int.Defs
import MoqLiveCast.Lib.Mem
import MoqLiveCast.Lib.Run
import Mathlib.Data.List.Forall2
/-!
# DataBuffer — the buffer of a packet is a queue of bytes (`utils/data_buffer.hpp`)

The content lies somewhere behind a head room of 200 bytes and goes down to it when the room at the end is used up.  A call has no
result where it writes outside of its allocation, gives `memcpy` two parts that overlap, or where an `int` overflows.
-/
namespace MoqLiveCast

open List

def EXTRA_LEN : Nat := 10 * 1024
def PRE_RESERVE_HEADER_SIZE : Nat := 200

structure DataBuffer where
  buffer : Mem
  alloc : Nat
  bufferSize : Nat
  dataLen : Nat := 0
  start : Nat := PRE_RESERVE_HEADER_SIZE
  stop : Nat := PRE_RESERVE_HEADER_SIZE

def asInt (n : Nat) : Option Nat := if n < 2 ^ 31 then some n else none

def copyInto (buffer : Mem) (alloc off : Nat) (data : List (Option Byte)) : Option Mem :=
  if off + data.length ≤ alloc then some (buffer.write off data) else none

def Overlap (dst src len : Nat) : Prop := dst < src + len ∧ src < dst + len

instance (dst src len : Nat) : Decidable (Overlap dst src len) := inferInstanceAs (Decidable (_ ∧ _))

namespace DataBuffer

def data (b : DataBuffer) : List (Option Byte) := b.buffer.read b.start b.dataLen

def make (dataSize : Nat) : Option DataBuffer :=
  if dataSize + PRE_RESERVE_HEADER_SIZE < 2 ^ 64 then
    some { buffer := Mem.fresh.zero 0 dataSize, alloc := dataSize + PRE_RESERVE_HEADER_SIZE, bufferSize := dataSize }
  else none

/-- The copy constructor, and what `operator=` leaves of another buffer: the bytes go from the head of one allocation to that of the
other. -/
def copyOf (input : DataBuffer) : Option DataBuffer := do
  let buffer ← copyInto Mem.fresh (input.bufferSize + PRE_RESERVE_HEADER_SIZE) 0 (input.buffer.read 0 input.dataLen)
  return { input with buffer, alloc := input.bufferSize + PRE_RESERVE_HEADER_SIZE }

def getNewSize (newLen : Nat) : Option Nat :=
  if newLen ≤ 50 * 1024 then some (50 * 1024)
  else if newLen ≤ 100 * 1024 then some (100 * 1024)
  else if newLen ≤ 200 * 1024 then some (200 * 1024)
  else if newLen ≤ 500 * 1024 then some (500 * 1024)
  else asInt (newLen + 10 * 1024)

/-- `buffer_size_ - PRE_RESERVE_HEADER_SIZE`, which wraps. -/
def room (b : DataBuffer) : Nat :=
  if b.bufferSize < PRE_RESERVE_HEADER_SIZE then 2 ^ 64 + b.bufferSize - PRE_RESERVE_HEADER_SIZE
  else b.bufferSize - PRE_RESERVE_HEADER_SIZE

def appendNew (b : DataBuffer) (input : List Byte) : Option DataBuffer := do
  let newLen ← asInt (b.dataLen + input.length + EXTRA_LEN)
  let newLen ← getNewSize newLen
  let buffer ← copyInto Mem.fresh newLen PRE_RESERVE_HEADER_SIZE b.data
  let buffer ← copyInto buffer newLen (PRE_RESERVE_HEADER_SIZE + b.dataLen) (input.map some)
  let dataLen := b.dataLen + input.length
  return { buffer, alloc := newLen, bufferSize := newLen, dataLen, stop := PRE_RESERVE_HEADER_SIZE + dataLen }

/-- `AppendData` behind the content when that has gone down to the head room, through a copy if the content is not shorter than what is
before it. -/
def appendDown (b : DataBuffer) (input : List Byte) : Option DataBuffer := do
  if b.dataLen < b.start ∧ Overlap PRE_RESERVE_HEADER_SIZE b.start b.dataLen then none
  else
    let buffer ← copyInto b.buffer b.alloc PRE_RESERVE_HEADER_SIZE b.data
    let buffer ← copyInto buffer b.alloc (PRE_RESERVE_HEADER_SIZE + b.dataLen) (input.map some)
    let dataLen := b.dataLen + input.length
    let stop ← asInt (PRE_RESERVE_HEADER_SIZE + dataLen)
    return { b with buffer, dataLen, start := PRE_RESERVE_HEADER_SIZE, stop }

def appendData (b : DataBuffer) (input : List Byte) : Option DataBuffer :=
  if input = [] then some b
  else if b.room < b.stop + input.length then
    if b.room ≤ b.dataLen + input.length then b.appendNew input else b.appendDown input
  else do
    let buffer ← copyInto b.buffer b.alloc b.stop (input.map some)
    let stop ← asInt (b.stop + input.length)
    return { b with buffer, dataLen := b.dataLen + input.length, stop }

def reset (b : DataBuffer) : DataBuffer := { b with dataLen := 0, start := PRE_RESERVE_HEADER_SIZE, stop := PRE_RESERVE_HEADER_SIZE }

/-- `ConsumeData`, or `nullptr` and no change; a negative length takes the head room in. -/
def consumeData (b : DataBuffer) (consumeLen : Int) : Option DataBuffer :=
  if b.dataLen < consumeLen ∨ b.start + consumeLen < 0 then none
  else
    let b := { b with start := (b.start + consumeLen).toNat, dataLen := (b.dataLen - consumeLen).toNat }
    some (if b.dataLen = 0 then b.reset else b)

end DataBuffer

/-! ## Runs -/

/-- The calls, with the buffers by their number; `copy` makes one more, and `assign i j` is `*i = *j`. -/
inductive DataOp where
  | make (size : Nat)
  | append (i : Nat) (input : List Byte)
  | consume (i n : Nat)
  | reset (i : Nat)
  | copy (i : Nat)
  | assign (i j : Nat)

def dataStep (s : List DataBuffer) : DataOp → Option (List DataBuffer)
  | .make size => (DataBuffer.make size).map fun b => s ++ [b]
  | .append i input =>
    match s[i]? with
    | none => some s
    | some b => (b.appendData input).map (s.set i)
  | .consume i n =>
    match s[i]? with
    | none => some s
    | some b => some (s.set i ((b.consumeData n).getD b))
  | .reset i =>
    match s[i]? with
    | none => some s
    | some b => some (s.set i b.reset)
  | .copy i =>
    match s[i]? with
    | none => some s
    | some b => b.copyOf.map fun b' => s ++ [b']
  | .assign i j =>
    match s[i]?, s[j]? with
    | some _, some b =>
      -- `buffer_` is new before the bytes of `input` are copied, which are its own then
      if i = j ∧ Overlap 0 0 b.dataLen then none else b.copyOf.map (s.set i)
    | _, _ => some s

def queueStep (s : List (List Byte)) : DataOp → List (List Byte)
  | .make _ => s ++ [[]]
  | .append i input =>
    match s[i]? with
    | none => s
    | some q => s.set i (q ++ input)
  | .consume i n =>
    match s[i]? with
    | none => s
    | some q => s.set i (if n ≤ q.length then q.drop n else q)
  | .reset i =>
    match s[i]? with
    | none => s
    | some _ => s.set i []
  | .copy i =>
    match s[i]? with
    | none => s
    | some q => s ++ [q]
  | .assign i j =>
    match s[i]?, s[j]? with
    | some _, some q => s.set i q
    | _, _ => s

/-- The buffers have the content of the queues, and refuse to give more than they have. -/
def SameContent (s : List DataBuffer) (qs : List (List Byte)) : Prop :=
  s.map DataBuffer.data = qs.map (fun q => q.map some) ∧
    ∀ b ∈ s, ∀ n : Nat, b.consumeData n = none ↔ b.data.length < n

/-- What `AppendData` needs: below a size of 200, where the room wraps, the allocation has to have it behind the content; a new
allocation has to have an `int` for its size; and a content that goes down is not to overlap with itself, unless it goes through a
copy. -/
def AppendFits (b : DataBuffer) (len : Nat) : Prop :=
  if b.bufferSize < PRE_RESERVE_HEADER_SIZE then b.stop + len ≤ b.alloc
  else if b.bufferSize < b.stop + len + PRE_RESERVE_HEADER_SIZE then
    if b.bufferSize ≤ b.dataLen + len + PRE_RESERVE_HEADER_SIZE then
      b.dataLen + len + EXTRA_LEN ≤ 500 * 1024 ∨ b.dataLen + len + EXTRA_LEN + 10 * 1024 < 2 ^ 31
    else
      (b.start ≤ b.dataLen ∨ ¬Overlap PRE_RESERVE_HEADER_SIZE b.start b.dataLen) ∧ PRE_RESERVE_HEADER_SIZE + b.dataLen + len < 2 ^ 31
  else b.stop + len < 2 ^ 31

/-- **The condition** on a call: `AppendFits`, and only what is empty is copied. -/
def StepFits (s : List DataBuffer) : DataOp → Prop
  | .make size => size + PRE_RESERVE_HEADER_SIZE < 2 ^ 64
  | .append i input => input ≠ [] → ∀ b, s[i]? = some b → AppendFits b input.length
  | .consume _ _ => True
  | .reset _ => True
  | .copy i => ∀ b, s[i]? = some b → b.dataLen = 0
  | .assign i j => i < s.length → ∀ b, s[j]? = some b → b.dataLen = 0

/-! ## One buffer and its queue -/

structure Holds (b : DataBuffer) (q : List Byte) : Prop where
  data : b.data = q.map some
  start_le : PRE_RESERVE_HEADER_SIZE ≤ b.start
  stop_eq : b.stop = b.start + b.dataLen
  inside : b.stop ≤ b.alloc
  size_le : b.bufferSize ≤ b.alloc
  small : b.bufferSize < PRE_RESERVE_HEADER_SIZE → b.alloc = b.bufferSize + PRE_RESERVE_HEADER_SIZE
  empty : b.dataLen = 0 → b.start = PRE_RESERVE_HEADER_SIZE

namespace DataBuffer

theorem data_length (b : DataBuffer) : b.data.length = b.dataLen := slice_length _ _ _

end DataBuffer

variable {b : DataBuffer} {q : List Byte}

theorem Holds.length (h : Holds b q) : b.dataLen = q.length := by
  rw [← DataBuffer.data_length, h.data, length_map]

theorem copyInto_eq {buffer : Mem} {alloc off : Nat} {data : List (Option Byte)} (h : off + data.length ≤ alloc) :
    copyInto buffer alloc off data = some (buffer.write off data) := if_pos h

theorem copyInto_none {buffer : Mem} {alloc off : Nat} {data : List (Option Byte)} (h : alloc < off + data.length) :
    copyInto buffer alloc off data = none := if_neg (Nat.not_le.2 h)

theorem make_holds {size : Nat} (h : size + PRE_RESERVE_HEADER_SIZE < 2 ^ 64) :
    ∃ b, DataBuffer.make size = some b ∧ Holds b [] := by
  refine ⟨_, if_pos h, ⟨rfl, Nat.le_refl _, rfl, Nat.le_add_left _ _, Nat.le_add_right _ _, fun _ => rfl, fun _ => rfl⟩⟩

theorem read_copied (buffer : Mem) {off n : Nat} {front : List (Option Byte)} (hn : front.length = n) (input : List Byte) :
    ((buffer.write off front).write (off + n) (input.map some)).read off (n + input.length) = front ++ input.map some := by
  have happend := Mem.read_write_append (buffer.write off front) off n (input.map some)
  rw [length_map] at happend
  rw [happend, ← hn, Mem.read_write_self]

theorem getNewSize_some {n : Nat} (h : n ≤ 500 * 1024 ∨ n + 10 * 1024 < 2 ^ 31) :
    ∃ m, DataBuffer.getNewSize n = some m ∧ n ≤ m ∧ 50 * 1024 ≤ m := by
  unfold DataBuffer.getNewSize
  by_cases h50 : n ≤ 50 * 1024
  · exact ⟨_, if_pos h50, h50, Nat.le_refl _⟩
  · rw [if_neg h50]
    by_cases h100 : n ≤ 100 * 1024
    · exact ⟨_, if_pos h100, h100, by decide⟩
    · rw [if_neg h100]
      by_cases h200 : n ≤ 200 * 1024
      · exact ⟨_, if_pos h200, h200, by decide⟩
      · rw [if_neg h200]
        by_cases h500 : n ≤ 500 * 1024
        · exact ⟨_, if_pos h500, h500, by decide⟩
        · rw [if_neg h500]
          exact ⟨n + 10 * 1024, if_pos (h.resolve_left h500), Nat.le_add_right _ _, by omega⟩

theorem getNewSize_none {n : Nat} (h : ¬(n ≤ 500 * 1024 ∨ n + 10 * 1024 < 2 ^ 31)) : DataBuffer.getNewSize n = none := by
  unfold DataBuffer.getNewSize asInt
  rw [if_neg (by omega), if_neg (by omega), if_neg (by omega), if_neg (by omega), if_neg (by omega)]

theorem appendNew_holds (h : Holds b q) {input : List Byte} (hne : input ≠ [])
    (hfit : b.dataLen + input.length + EXTRA_LEN ≤ 500 * 1024 ∨ b.dataLen + input.length + EXTRA_LEN + 10 * 1024 < 2 ^ 31) :
    ∃ b', b.appendNew input = some b' ∧ Holds b' (q ++ input) := by
  obtain ⟨m, hm, hle, hmin⟩ := getNewSize_some hfit
  have hpos : 0 < input.length := List.length_pos_iff.2 hne
  have hint : asInt (b.dataLen + input.length + EXTRA_LEN) = some (b.dataLen + input.length + EXTRA_LEN) := if_pos (by omega)
  have hextra : EXTRA_LEN = 10 * 1024 := rfl
  have hhead : PRE_RESERVE_HEADER_SIZE = 200 := rfl
  have hlen := b.data_length
  unfold DataBuffer.appendNew
  rw [hint]
  simp only [Option.bind_eq_bind, Option.bind_some, hm]
  rw [copyInto_eq (by omega), Option.bind_some, copyInto_eq (by rw [length_map]; omega)]
  refine ⟨_, rfl, ?_, Nat.le_refl _, rfl, ?_, Nat.le_refl _, fun hsmall => ?_, fun hzero => ?_⟩
  · exact (read_copied _ hlen input).trans (by rw [h.data, map_append])
  · dsimp only
    omega
  · dsimp only at hsmall
    omega
  · dsimp only at hzero
    omega

theorem appendNew_none {input : List Byte} (hfit : ¬(b.dataLen + input.length + EXTRA_LEN ≤ 500 * 1024 ∨ b.dataLen + input.length
    + EXTRA_LEN + 10 * 1024 < 2 ^ 31)) : b.appendNew input = none := by
  unfold DataBuffer.appendNew asInt
  split
  · simp only [Option.bind_eq_bind, Option.bind_some]
    rw [getNewSize_none hfit]
    rfl
  · rfl

theorem appendDown_holds (h : Holds b q) {input : List Byte} (hne : input ≠ []) (hroom : PRE_RESERVE_HEADER_SIZE + b.dataLen +
    input.length ≤ b.alloc) (hapart : b.start ≤ b.dataLen ∨ ¬Overlap PRE_RESERVE_HEADER_SIZE b.start b.dataLen) (hint :
    PRE_RESERVE_HEADER_SIZE + b.dataLen + input.length < 2 ^ 31) : ∃ b', b.appendDown input = some b' ∧
    Holds b' (q ++ input) := by
  have hpos : 0 < input.length := List.length_pos_iff.2 hne
  have hlen := b.data_length
  have hfits : asInt (PRE_RESERVE_HEADER_SIZE + (b.dataLen + input.length)) = some (PRE_RESERVE_HEADER_SIZE + (b.dataLen + input.length)) :=
    if_pos (by omega)
  unfold DataBuffer.appendDown
  rw [if_neg fun hboth => hapart.elim (Nat.not_le.2 hboth.1) fun hnot => hnot hboth.2]
  simp only [Option.bind_eq_bind]
  rw [copyInto_eq (by omega), Option.bind_some, copyInto_eq (by rw [length_map]; omega), Option.bind_some, hfits]
  refine ⟨_, rfl, ?_, Nat.le_refl _, rfl, ?_, h.size_le, h.small, fun hzero => ?_⟩
  · exact (read_copied _ hlen input).trans (by rw [h.data, map_append])
  · dsimp only
    omega
  · dsimp only at hzero
    omega

theorem appendDown_none {input : List Byte} (hnot : ¬((b.start ≤ b.dataLen ∨ ¬Overlap PRE_RESERVE_HEADER_SIZE b.start b.dataLen) ∧
    PRE_RESERVE_HEADER_SIZE + b.dataLen + input.length < 2 ^ 31 ∧ PRE_RESERVE_HEADER_SIZE + b.dataLen + input.length ≤ b.alloc)) :
    b.appendDown input = none := by
  have hlen := b.data_length
  unfold DataBuffer.appendDown
  by_cases hover : b.dataLen < b.start ∧ Overlap PRE_RESERVE_HEADER_SIZE b.start b.dataLen
  · exact if_pos hover
  · rw [if_neg hover]
    simp only [Option.bind_eq_bind]
    by_cases hfront : PRE_RESERVE_HEADER_SIZE + b.dataLen ≤ b.alloc
    · rw [copyInto_eq (by omega), Option.bind_some]
      by_cases hroom : PRE_RESERVE_HEADER_SIZE + b.dataLen + input.length ≤ b.alloc
      · have hint : asInt (PRE_RESERVE_HEADER_SIZE + (b.dataLen + input.length)) = none := by
          refine if_neg fun hlt => hnot ⟨?_, by omega, hroom⟩
          rcases Nat.lt_or_ge b.dataLen b.start with hlt | hge
          · exact .inr fun ho => hover ⟨hlt, ho⟩
          · exact .inl hge
        rw [copyInto_eq (by rw [length_map]; omega), Option.bind_some, hint]
        rfl
      · rw [copyInto_none (by rw [length_map]; omega)]
        rfl
    · rw [copyInto_none (by omega)]
      rfl

theorem append_behind (h : Holds b q) {input : List Byte} (hne : input ≠ [])
    (hroom : ¬b.room < b.stop + input.length) (hfits : b.stop + input.length ≤ b.alloc) (hint : b.stop + input.length < 2 ^ 31) :
    ∃ b', b.appendData input = some b' ∧ Holds b' (q ++ input) := by
  have hpos : 0 < input.length := List.length_pos_iff.2 hne
  have hstop := h.stop_eq
  unfold DataBuffer.appendData
  rw [if_neg hne, if_neg hroom, copyInto_eq (by rw [length_map]; exact hfits)]
  simp only [Option.bind_eq_bind, Option.bind_some]
  rw [show asInt (b.stop + input.length) = some (b.stop + input.length) from if_pos hint]
  refine ⟨_, rfl, ?_, h.start_le, ?_, hfits, h.size_le, h.small, fun hzero => ?_⟩
  · have happend := Mem.read_write_append b.buffer b.start b.dataLen (input.map some)
    rw [length_map, ← hstop] at happend
    exact happend.trans (by rw [map_append, ← h.data]; rfl)
  · dsimp only
    omega
  · dsimp only at hzero
    omega

theorem append_outside {input : List Byte} (hne : input ≠ []) (hroom : ¬b.room < b.stop + input.length)
    (hnot : ¬(b.stop + input.length ≤ b.alloc ∧ b.stop + input.length < 2 ^ 31)) : b.appendData input = none := by
  unfold DataBuffer.appendData
  rw [if_neg hne, if_neg hroom]
  by_cases hfits : b.stop + input.length ≤ b.alloc
  · rw [copyInto_eq (by rw [length_map]; exact hfits)]
    simp only [Option.bind_eq_bind, Option.bind_some]
    rw [show asInt (b.stop + input.length) = none from if_neg fun hint => hnot ⟨hfits, hint⟩]
    rfl
  · rw [copyInto_none (by rw [length_map]; omega)]
    rfl

theorem appendData_iff (h : Holds b q) {input : List Byte} (hne : input ≠ []) : (AppendFits b input.length →
    ∃ b', b.appendData input = some b' ∧ Holds b' (q ++ input)) ∧ (¬AppendFits b input.length → b.appendData input = none) := by
  have hhead : PRE_RESERVE_HEADER_SIZE = 200 := rfl
  have hextra : EXTRA_LEN = 10 * 1024 := rfl
  have hstop := h.stop_eq
  have hstart := h.start_le
  have hsize := h.size_le
  have hinside := h.inside
  unfold AppendFits
  by_cases hsmall : b.bufferSize < PRE_RESERVE_HEADER_SIZE
  · have halloc := h.small hsmall
    have hroom : b.room = 2 ^ 64 + b.bufferSize - PRE_RESERVE_HEADER_SIZE := if_pos hsmall
    rw [if_pos hsmall]
    refine ⟨fun hfit => append_behind h hne (by omega) hfit (by omega), fun hnot => ?_⟩
    by_cases hover : b.room < b.stop + input.length
    · unfold DataBuffer.appendData
      rw [if_neg hne, if_pos hover]
      split
      · exact appendNew_none (by omega)
      · exact appendDown_none fun hdown => by omega
    · exact append_outside hne hover fun hfit => hnot hfit.1
  · have hroom : b.room = b.bufferSize - PRE_RESERVE_HEADER_SIZE := if_neg hsmall
    rw [if_neg hsmall]
    by_cases hover : b.bufferSize < b.stop + input.length + PRE_RESERVE_HEADER_SIZE
    · have hcall : b.appendData input =
          if b.bufferSize ≤ b.dataLen + input.length + PRE_RESERVE_HEADER_SIZE then b.appendNew input else b.appendDown input := by
        unfold DataBuffer.appendData
        rw [if_neg hne, if_pos (by omega)]
        exact if_congr (by omega) rfl rfl
      rw [if_pos hover, hcall]
      split
      · exact ⟨appendNew_holds h hne, appendNew_none⟩
      · refine ⟨fun hfit => appendDown_holds h hne (by omega) hfit.1 hfit.2, fun hnot => appendDown_none fun hdown => ?_⟩
        exact hnot ⟨hdown.1, hdown.2.1⟩
    · rw [if_neg hover]
      exact ⟨fun hint => append_behind h hne (by omega) (by omega) hint, fun hnot => append_outside hne (by omega) fun hfit => hnot hfit.2⟩

theorem reset_holds (h : Holds b q) : Holds b.reset [] where
  data := rfl
  start_le := Nat.le_refl _
  stop_eq := rfl
  inside := by
    have hle := h.inside
    have hstop := h.stop_eq
    have hstart := h.start_le
    unfold DataBuffer.reset
    dsimp only
    omega
  size_le := h.size_le
  small := h.small
  empty _ := rfl

theorem consumeData_holds (h : Holds b q) (n : Nat) : (b.consumeData n = none ↔ b.data.length < n) ∧ Holds ((b.consumeData n).getD
    b) (if n ≤ q.length then q.drop n else q) := by
  have hlen := h.length
  rw [b.data_length]
  by_cases hover : b.dataLen < n
  · have hnone : b.consumeData n = none := if_pos (.inl (by omega))
    rw [hnone, if_neg (by omega)]
    exact ⟨iff_of_true rfl hover, h⟩
  · have hstart : (b.start + (n : Int)).toNat = b.start + n := by omega
    have hleft : ((b.dataLen : Int) - n).toNat = b.dataLen - n := by omega
    have hsome : b.consumeData n = some (if b.dataLen - n = 0 then b.reset else { b with start := b.start + n, dataLen := b.dataLen - n }) := by
      unfold DataBuffer.consumeData
      rw [if_neg (by omega)]
      dsimp only
      rw [hstart, hleft]
      rfl
    have hdrop : (if n ≤ q.length then q.drop n else q) = q.drop n := if_pos (by omega)
    rw [hsome, hdrop, Option.getD_some]
    refine ⟨iff_of_false (fun hnone => nomatch hnone) hover, ?_⟩
    have hstop := h.stop_eq
    have hle := h.start_le
    by_cases hzero : b.dataLen - n = 0
    · rw [if_pos hzero, List.drop_eq_nil_iff.2 (by omega)]
      exact reset_holds h
    · rw [if_neg hzero]
      refine ⟨?_, ?_, ?_, h.inside, h.size_le, h.small, fun hnone => absurd hnone hzero⟩
      · rw [map_drop, ← h.data]
        exact (slice_drop b.buffer b.start b.dataLen n).symm
      · dsimp only
        omega
      · dsimp only
        omega

theorem copyOf_iff (h : Holds b q) :
    (b.dataLen = 0 → ∃ b', b.copyOf = some b' ∧ Holds b' q) ∧ (b.dataLen ≠ 0 → ∀ b', b.copyOf = some b' → b'.data ≠ q.map some) := by
  have hhead : PRE_RESERVE_HEADER_SIZE = 200 := rfl
  have hread : (b.buffer.read 0 b.dataLen).length = b.dataLen := slice_length _ _ _
  have hlen := h.length
  have hstart := h.start_le
  have hinside := h.inside
  have hstop := h.stop_eq
  refine ⟨fun hzero => ?_, fun hne b' hcopy hsame => ?_⟩
  · have hcall : b.copyOf = some { b with
        buffer := Mem.fresh.write 0 (b.buffer.read 0 b.dataLen), alloc := b.bufferSize + PRE_RESERVE_HEADER_SIZE } := by
      unfold DataBuffer.copyOf
      rw [copyInto_eq (by omega)]
      rfl
    have hempty := h.empty hzero
    refine ⟨_, hcall, ?_, hstart, hstop, ?_, Nat.le_add_right _ _, fun _ => rfl, h.empty⟩
    · rw [List.length_eq_zero_iff.1 (hlen.symm.trans hzero)]
      unfold DataBuffer.data Mem.read
      rw [hzero]
      rfl
    · dsimp only
      omega
  · -- the last byte of the copy is behind all that is copied
    unfold DataBuffer.copyOf at hcopy
    obtain ⟨buffer, hbuffer, hb'⟩ := Option.bind_eq_some_iff.1 hcopy
    have hwrite : buffer = Mem.fresh.write 0 (b.buffer.read 0 b.dataLen) := by
      unfold copyInto at hbuffer
      split at hbuffer
      · exact (Option.some.inj hbuffer).symm
      · cases hbuffer
    rw [← Option.some.inj hb'] at hsame
    have hlast := congrArg (·[b.dataLen - 1]?) hsame
    unfold DataBuffer.data Mem.read at hlast
    dsimp only at hlast
    rw [slice_getElem?, if_pos (by omega), hwrite, Mem.write_outside _ _ _ (by omega), List.getElem?_map,
      List.getElem?_eq_getElem (by omega : b.dataLen - 1 < q.length)] at hlast
    exact nomatch Option.some.inj hlast

/-! ## All buffers -/

section Related

variable {α β : Type} {R : α → β → Prop}

theorem forall₂_look {s : List α} {t : List β} (h : Forall₂ R s t) (i : Nat) :
    s[i]? = none ∧ t[i]? = none ∨ ∃ a b, s[i]? = some a ∧ t[i]? = some b ∧ R a b := by
  induction h generalizing i with
  | nil => exact .inl ⟨rfl, rfl⟩
  | cons hab _ ih =>
    cases i with
    | zero => exact .inr ⟨_, _, rfl, rfl, hab⟩
    | succ i => exact ih i

theorem forall₂_set {s : List α} {t : List β} (h : Forall₂ R s t) {a : α} {b : β} (hab : R a b) (i : Nat) :
    Forall₂ R (s.set i a) (t.set i b) := by
  induction h generalizing i with
  | nil => exact .nil
  | cons hxy hrest ih =>
    cases i with
    | zero => exact .cons hab hrest
    | succ i => exact .cons hxy (ih i)

theorem forall₂_snoc {s : List α} {t : List β} (h : Forall₂ R s t) {a : α} {b : β} (hab : R a b) :
    Forall₂ R (s ++ [a]) (t ++ [b]) := rel_append h (.cons hab .nil)

end Related

theorem sameContent_of_holds {s : List DataBuffer} {qs : List (List Byte)} (h : Forall₂ Holds s qs) : SameContent s qs := by
  induction h with
  | nil => exact ⟨rfl, fun _ hb => nomatch hb⟩
  | cons hb _ ih =>
    refine ⟨?_, fun b hmem => ?_⟩
    · rw [map_cons, map_cons, hb.data, ih.1]
    · rcases List.mem_cons.1 hmem with rfl | hmem
      · exact fun n => (consumeData_holds hb n).1
      · exact ih.2 b hmem

theorem dataStep_iff {s : List DataBuffer} {qs : List (List Byte)} (h : Forall₂ Holds s qs) (op : DataOp) : (StepFits s op →
    ∃ s', dataStep s op = some s' ∧ Forall₂ Holds s' (queueStep qs op)) ∧ (¬StepFits s op → ∀ s', dataStep s op = some s' →
    ¬SameContent s' (queueStep qs op)) := by
  cases op with
  | make size =>
    refine ⟨fun hfit => ?_, fun hnot s' hs' => ?_⟩
    · obtain ⟨b, hb, hholds⟩ := make_holds hfit
      exact ⟨s ++ [b], by rw [dataStep, hb]; rfl, forall₂_snoc h hholds⟩
    · have hnone : DataBuffer.make size = none := if_neg hnot
      rw [dataStep, hnone] at hs'
      cases hs'
  | append i input =>
    rcases forall₂_look h i with ⟨hs, hq⟩ | ⟨b, q, hs, hq, hholds⟩
    · refine ⟨fun _ => ⟨s, by simp only [dataStep, hs], by simpa only [queueStep, hq] using h⟩, fun hnot => absurd (fun _ b hb => ?_) hnot⟩
      rw [hs] at hb
      cases hb
    · simp only [dataStep, queueStep, hs, hq, StepFits, Option.some.injEq, forall_eq']
      by_cases hne : input = []
      · refine ⟨fun _ => ⟨s.set i b, ?_, forall₂_set h ?_ i⟩, fun hnot => absurd (fun hn => absurd hne hn) hnot⟩
        · rw [show b.appendData input = some b from if_pos hne]
          rfl
        · rw [hne, append_nil]
          exact hholds
      · obtain ⟨hgood, hbad⟩ := appendData_iff hholds hne
        refine ⟨fun hfit => ?_, fun hnot s' hs' => ?_⟩
        · obtain ⟨b', hb', hholds'⟩ := hgood (hfit hne)
          exact ⟨s.set i b', by rw [hb']; rfl, forall₂_set h hholds' i⟩
        · rw [hbad fun hfit => hnot fun _ => hfit] at hs'
          cases hs'
  | consume i n =>
    refine ⟨fun _ => ?_, fun hnot => absurd trivial hnot⟩
    rcases forall₂_look h i with ⟨hs, hq⟩ | ⟨b, q, hs, hq, hholds⟩
    · exact ⟨s, by simp only [dataStep, hs], by simpa only [queueStep, hq] using h⟩
    · simp only [dataStep, queueStep, hs, hq]
      exact ⟨_, rfl, forall₂_set h (consumeData_holds hholds n).2 i⟩
  | reset i =>
    refine ⟨fun _ => ?_, fun hnot => absurd trivial hnot⟩
    rcases forall₂_look h i with ⟨hs, hq⟩ | ⟨b, q, hs, hq, hholds⟩
    · exact ⟨s, by simp only [dataStep, hs], by simpa only [queueStep, hq] using h⟩
    · simp only [dataStep, queueStep, hs, hq]
      exact ⟨_, rfl, forall₂_set h (reset_holds hholds) i⟩
  | copy i =>
    rcases forall₂_look h i with ⟨hs, hq⟩ | ⟨b, q, hs, hq, hholds⟩
    · refine ⟨fun _ => ⟨s, by simp only [dataStep, hs], by simpa only [queueStep, hq] using h⟩, fun hnot => absurd (fun b hb => ?_) hnot⟩
      rw [hs] at hb
      cases hb
    · obtain ⟨hgood, hbad⟩ := copyOf_iff hholds
      simp only [dataStep, queueStep, hs, hq, StepFits, Option.some.injEq, forall_eq']
      refine ⟨fun hzero => ?_, fun hnot s' hs' hsame => ?_⟩
      · obtain ⟨b', hb', hholds'⟩ := hgood hzero
        exact ⟨s ++ [b'], by rw [hb']; rfl, forall₂_snoc h hholds'⟩
      · obtain ⟨b', hb', rfl⟩ := Option.map_eq_some_iff.1 hs'
        have hlast := congrArg getLast? hsame.1
        simp only [map_append, map_cons, map_nil, getLast?_concat, Option.some.injEq] at hlast
        exact hbad hnot b' hb' hlast
  | assign i j =>
    rcases forall₂_look h i with ⟨hsi, hqi⟩ | ⟨old, oldQ, hsi, hqi, -⟩
    · refine ⟨fun _ => ⟨s, by simp only [dataStep, hsi], by simpa only [queueStep, hqi] using h⟩, fun hnot => absurd (fun hi => ?_) hnot⟩
      rw [List.getElem?_eq_getElem hi] at hsi
      cases hsi
    · rcases forall₂_look h j with ⟨hs, hq⟩ | ⟨b, q, hs, hq, hholds⟩
      · refine ⟨fun _ => ⟨s, by simp only [dataStep, hsi, hs], by simpa only [queueStep, hqi, hq] using h⟩,
          fun hnot => absurd (fun _ b hb => ?_) hnot⟩
        rw [hs] at hb
        cases hb
      · obtain ⟨hgood, hbad⟩ := copyOf_iff hholds
        obtain ⟨hi, -⟩ := List.getElem?_eq_some_iff.1 hsi
        simp only [dataStep, queueStep, hsi, hs, hqi, hq, StepFits, Option.some.injEq, forall_eq', hi, true_implies]
        refine ⟨fun hzero => ?_, fun hnot s' hs' hsame => ?_⟩
        · obtain ⟨b', hb', hholds'⟩ := hgood hzero
          refine ⟨s.set i b', ?_, forall₂_set h hholds' i⟩
          rw [if_neg fun hself => by have := hself.2.1; omega, hb']
          rfl
        · split at hs'
          · cases hs'
          · obtain ⟨b', hb', rfl⟩ := Option.map_eq_some_iff.1 hs'
            have hat := congrArg (·[i]?) hsame.1
            obtain ⟨hiq, -⟩ := List.getElem?_eq_some_iff.1 hqi
            simp only [List.getElem?_map, List.getElem?_set_self hi, List.getElem?_set_self hiq, Option.map_some, Option.some.injEq] at hat
            exact hbad hnot b' hb' hat

theorem holds_iff : ∀ (ops : List DataOp) {s : List DataBuffer} {qs : List (List Byte)}, Forall₂ Holds s qs →
    ((∀ pre, pre <+: ops → ∃ s', pre.foldlM dataStep s = some s' ∧ SameContent s' (pre.foldl queueStep qs)) ↔
      StepsOkM dataStep StepFits s ops)
  | [], s, qs, h => by
    refine iff_of_true (fun pre hpre => ?_) trivial
    rw [List.prefix_nil.1 hpre]
    exact ⟨s, rfl, sameContent_of_holds h⟩
  | op :: ops, s, qs, h => by
    obtain ⟨hgood, hbad⟩ := dataStep_iff h op
    by_cases hfit : StepFits s op
    · obtain ⟨s', hs', h'⟩ := hgood hfit
      have hnext : ∀ t, dataStep s op = some t → t = s' := fun t ht => Option.some.inj (ht.symm.trans hs')
      have ih := holds_iff ops h'
      constructor
      · intro hall
        refine ⟨hfit, fun t ht => ?_⟩
        rw [hnext t ht]
        refine ih.1 fun pre hpre => ?_
        obtain ⟨u, hu, hsame⟩ := hall (op :: pre) (List.cons_prefix_cons.2 ⟨rfl, hpre⟩)
        obtain ⟨t', ht', hu'⟩ := (foldlM_cons_some dataStep).1 hu
        rw [hnext t' ht'] at hu'
        exact ⟨u, hu', hsame⟩
      · rintro ⟨-, hrest⟩ pre hpre
        rcases List.prefix_cons_iff.1 hpre with rfl | ⟨tail, rfl, htail⟩
        · exact ⟨s, rfl, sameContent_of_holds h⟩
        · obtain ⟨u, hu, hsame⟩ := ih.2 (hrest s' hs') tail htail
          exact ⟨u, (foldlM_cons_some dataStep).2 ⟨s', hs', hu⟩, hsame⟩
    · refine iff_of_false (fun hall => ?_) fun hok => hfit hok.1
      obtain ⟨u, hu, hsame⟩ := hall [op] (List.cons_prefix_cons.2 ⟨rfl, nil_prefix⟩)
      obtain ⟨t, ht, hu'⟩ := (foldlM_cons_some dataStep).1 hu
      rw [← Option.some.inj hu'] at hsame
      exact hbad hfit t ht hsame

/-- **`DataBuffer` is a queue of bytes exactly in the runs** whose calls all fit.

A known deviation: the copy constructor takes the bytes of the head room. -/
theorem data_buffers_queue (ops : List DataOp) :
    (∀ pre, pre <+: ops → ∃ s, pre.foldlM dataStep [] = some s ∧ SameContent s (pre.foldl queueStep [])) ↔
      StepsOkM dataStep StepFits [] ops := holds_iff ops .nil

def DataOp.added : DataOp → Nat
  | .append _ input => input.length
  | _ => 0

theorem copied_head_room : ¬∀ ops : List DataOp, (ops.map DataOp.added).sum < 2 ^ 31 →
    ∃ s, ops.foldlM dataStep [] = some s ∧ SameContent s (ops.foldl queueStep []) := by
  intro hall
  obtain ⟨s, hs, hsame, -⟩ := hall [.make 1024, .append 0 [7], .copy 0] (by decide)
  obtain rfl := Option.some.inj (hs.symm.trans (rfl : _ = some _))
  exact absurd hsame (by decide)

end MoqLiveCast
