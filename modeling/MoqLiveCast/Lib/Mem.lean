import Mathlib.Algebra.Ring.Nat
import Mathlib.Data.List.Basic
/-!
# Mem — byte memory with unwritten cells

A buffer is a function from positions to cells, `none` for a byte `malloc` or `realloc` left unwritten.  `slice f a n`
is the `n` values of `f` from `a` on: the part of a stream a frame carries, or the part of a buffer a call reads.
-/
namespace MoqLiveCast

open List

abbrev Byte := BitVec 8

/-! ## Bytes of a number -/

def beNat (bytes : List Byte) : Nat := bytes.foldl (fun v b => v * 256 + b.toNat) 0

theorem foldl_be : ∀ (bytes : List Byte) (v : Nat),
    bytes.foldl (fun v b => v * 256 + b.toNat) v = v * 256 ^ bytes.length + beNat bytes
  | [], v => by simp [beNat]
  | b :: bytes, v => by
    have hcons : beNat (b :: bytes) = b.toNat * 256 ^ bytes.length + beNat bytes := by
      show bytes.foldl _ (0 * 256 + b.toNat) = _
      rw [foldl_be bytes, Nat.zero_mul, Nat.zero_add]
    rw [hcons, foldl_cons, foldl_be bytes, length_cons, Nat.pow_succ', Nat.add_mul, Nat.mul_assoc, Nat.add_assoc]

theorem beNat_cons (b : Byte) (bytes : List Byte) : beNat (b :: bytes) = b.toNat * 256 ^ bytes.length + beNat bytes := by
  show bytes.foldl _ (0 * 256 + b.toNat) = _
  rw [foldl_be bytes, Nat.zero_mul, Nat.zero_add]

theorem beNat_append (a b : List Byte) : beNat (a ++ b) = beNat a * 256 ^ b.length + beNat b := by
  show (a ++ b).foldl _ 0 = _
  rw [foldl_append, foldl_be b]
  rfl

theorem beNat_lt : ∀ bytes : List Byte, beNat bytes < 256 ^ bytes.length
  | [] => Nat.one_pos
  | b :: bytes => by
    have hb : b.toNat < 256 := b.isLt
    have ih := beNat_lt bytes
    rw [beNat_cons, length_cons, Nat.pow_succ']
    calc b.toNat * 256 ^ bytes.length + beNat bytes
        < b.toNat * 256 ^ bytes.length + 256 ^ bytes.length := by omega
      _ = (b.toNat + 1) * 256 ^ bytes.length := by rw [Nat.add_mul, Nat.one_mul]
      _ ≤ 256 * 256 ^ bytes.length := Nat.mul_le_mul_right _ hb

theorem beNat_zeros : ∀ n : Nat, beNat (replicate n 0) = 0
  | 0 => rfl
  | n + 1 => by
    rw [replicate_succ, beNat_cons, beNat_zeros n]
    exact Nat.zero_mul _

theorem beNat_inj : ∀ {a b : List Byte}, a.length = b.length → beNat a = beNat b → a = b
  | [], [], _, _ => rfl
  | x :: a, y :: b, hlen, h => by
    have hlen' : a.length = b.length := Nat.succ.inj hlen
    have ha := beNat_lt a
    have hb := beNat_lt b
    rw [beNat_cons, beNat_cons, hlen'] at h
    rw [hlen'] at ha
    have hpos : 0 < 256 ^ b.length := Nat.pow_pos (by decide)
    have hxy : x.toNat = y.toNat := by
      have hx := congrArg (· / 256 ^ b.length) h
      simp only [Nat.add_comm (_ * _)] at hx
      rwa [Nat.add_mul_div_right _ _ hpos, Nat.add_mul_div_right _ _ hpos, Nat.div_eq_of_lt ha, Nat.div_eq_of_lt hb,
        Nat.zero_add, Nat.zero_add] at hx
    rw [hxy] at h
    rw [BitVec.eq_of_toNat_eq hxy, beNat_inj hlen' (Nat.add_left_cancel h)]

theorem shiftOr_toNat {v : BitVec 64} (h : v.toNat < 2 ^ 56) (b : Byte) :
    ((v <<< 8) ||| b.setWidth 64).toNat = v.toNat * 256 + b.toNat := by
  have hb := b.isLt
  rw [BitVec.toNat_or, BitVec.toNat_shiftLeft, BitVec.toNat_setWidth, Nat.shiftLeft_eq, Nat.mod_eq_of_lt (by omega),
    Nat.mod_eq_of_lt (by omega), Nat.mul_comm, ← Nat.two_pow_add_eq_or_of_lt hb]

theorem shiftOr_foldl : ∀ (l : List Byte) (v : BitVec 64) (m : Nat), v.toNat < m → m * 256 ^ l.length ≤ 2 ^ 64 →
    (l.foldl (fun (v : BitVec 64) b => (v <<< 8) ||| b.setWidth 64) v).toNat = l.foldl (fun v b => v * 256 + b.toNat) v.toNat
  | [], _, _, _, _ => rfl
  | b :: l, v, m, hv, hm => by
    have hpow : 0 < 256 ^ l.length := Nat.pow_pos (by omega)
    have hsmall : m * 256 ≤ 2 ^ 64 := by
      rw [length_cons, Nat.pow_succ', ← Nat.mul_assoc] at hm
      exact Nat.le_trans (Nat.le_mul_of_pos_right _ hpow) hm
    have hstep := shiftOr_toNat (v := v) (by omega) b
    have hb := b.isLt
    rw [foldl_cons, foldl_cons, ← hstep]
    refine shiftOr_foldl l _ (m * 256) (by omega) ?_
    rw [Nat.mul_assoc, ← Nat.pow_succ']
    exact hm

/-- The low `n` bytes of a value, the greatest first. -/
def beBytes : Nat → Nat → List Byte
  | 0, _ => []
  | n + 1, val => BitVec.ofNat 8 (val / 256 ^ n) :: beBytes n val

@[simp] theorem beBytes_length : ∀ (n val : Nat), (beBytes n val).length = n
  | 0, _ => rfl
  | n + 1, val => by rw [beBytes, length_cons, beBytes_length n val]

theorem foldl_beBytes : ∀ (n val v : Nat), (beBytes n val).foldl (fun v b => v * 256 + b.toNat) v = v * 256 ^ n + val % 256 ^ n
  | 0, val, v => by simp [beBytes, Nat.mod_one]
  | n + 1, val, v => by
    rw [beBytes, foldl_cons, foldl_beBytes n val, BitVec.toNat_ofNat]
    have hsplit : val % 256 ^ (n + 1) = val / 256 ^ n % 256 * 256 ^ n + val % 256 ^ n := by
      rw [Nat.pow_succ, Nat.mod_mul, Nat.add_comm, Nat.mul_comm (256 ^ n)]
    rw [hsplit, Nat.add_mul, Nat.mul_assoc, ← Nat.pow_succ', Nat.add_assoc]

/-! ## Slices -/

section Slice

variable {α : Type}

def slice (f : Nat → α) (a n : Nat) : List α := (range' a n).map f

variable (f : Nat → α)

@[simp] theorem slice_length (a n : Nat) : (slice f a n).length = n := by simp [slice]

@[simp] theorem slice_zero (a : Nat) : slice f a 0 = [] := rfl

theorem slice_append (a m n : Nat) : slice f a m ++ slice f (a + m) n = slice f a (m + n) := by
  rw [slice, slice, ← map_append, range'_append_1]
  rfl

theorem slice_append_of_le {a b c : Nat} (hab : a ≤ b) (hbc : b ≤ c) :
    slice f a (b - a) ++ slice f b (c - b) = slice f a (c - a) := by
  have hb : b = a + (b - a) := by omega
  calc slice f a (b - a) ++ slice f b (c - b)
      = slice f a (b - a) ++ slice f (a + (b - a)) (c - b) := by rw [← hb]
    _ = slice f a (b - a + (c - b)) := slice_append f a _ _
    _ = slice f a (c - a) := by rw [show b - a + (c - b) = c - a from by omega]

theorem slice_grow {a b : Nat} (h : a ≤ b) : slice f 0 a ++ slice f a (b - a) = slice f 0 b := by
  have := slice_append_of_le f (Nat.zero_le a) h
  rwa [Nat.sub_zero, Nat.sub_zero] at this

theorem slice_drop (a n k : Nat) : (slice f a n).drop k = slice f (a + k) (n - k) := by
  rw [slice, ← map_drop, drop_range', slice, Nat.mul_one]

theorem slice_getElem? (a n i : Nat) : (slice f a n)[i]? = if i < n then some (f (a + i)) else none := by
  rw [slice, List.getElem?_map]
  by_cases h : i < n
  · rw [if_pos h, List.getElem?_range' h]; simp
  · rw [if_neg h, List.getElem?_eq_none (by simpa using h)]; rfl

theorem slice_congr {f g : Nat → α} {a n : Nat} (h : ∀ i, a ≤ i → i < a + n → f i = g i) : slice f a n = slice g a n := by
  refine map_congr_left (fun i hi => ?_)
  rw [mem_range'_1] at hi
  exact h i hi.1 hi.2

theorem slice_eq_slice {f g : Nat → α} {a b n : Nat} (h : ∀ i < n, f (a + i) = g (b + i)) : slice f a n = slice g b n := by
  unfold slice
  rw [range'_eq_map_range, range'_eq_map_range, map_map, map_map]
  exact map_congr_left (fun i hi => h i (List.mem_range.1 hi))

theorem slice_map {β : Type} (g : α → β) (f : Nat → α) (a n : Nat) : (slice f a n).map g = slice (fun i => g (f i)) a n := by
  rw [slice, map_map]; rfl

end Slice

/-! ## Buffers -/

abbrev Mem := Nat → Option Byte

def Mem.fresh : Mem := fun _ => none

def Mem.write (m : Mem) (off : Nat) (d : List (Option Byte)) : Mem :=
  fun i => if off ≤ i ∧ i < off + d.length then (d[i - off]?).getD none else m i

def Mem.read (m : Mem) (off len : Nat) : List (Option Byte) := slice m off len

def Mem.move (m : Mem) (dst src len : Nat) : Mem := m.write dst (m.read src len)

def Mem.zero (m : Mem) (off len : Nat) : Mem := m.write off (replicate len (some 0))

variable (m : Mem)

theorem Mem.write_outside (off : Nat) (d : List (Option Byte)) {i : Nat}
    (h : i < off ∨ off + d.length ≤ i) : m.write off d i = m i := by
  unfold Mem.write
  exact if_neg (by omega)

theorem Mem.write_inside (off : Nat) (d : List (Option Byte)) {i : Nat} (h1 : off ≤ i)
    (h2 : i < off + d.length) : m.write off d i = (d[i - off]?).getD none := by
  unfold Mem.write
  exact if_pos ⟨h1, h2⟩

theorem Mem.write_slice (off : Nat) (f : Nat → Option Byte) (a n : Nat) {i : Nat} (h1 : off ≤ i)
    (h2 : i < off + n) : m.write off (slice f a n) i = f (a + (i - off)) := by
  rw [Mem.write_inside m off _ h1 (by simpa using h2), slice_getElem?, if_pos (by omega)]
  rfl

theorem Mem.read_write_self (off : Nat) (d : List (Option Byte)) : (m.write off d).read off d.length = d := by
  apply ext_getElem?
  intro i
  rw [Mem.read, slice_getElem?]
  split
  · rename_i h
    rw [Mem.write_inside m off d (by omega) (by omega), Nat.add_sub_cancel_left, List.getElem?_eq_getElem h]
    rfl
  · rename_i h
    rw [List.getElem?_eq_none (by omega)]

theorem Mem.read_write_below {off a n : Nat} (d : List (Option Byte)) (h : a + n ≤ off) :
    (m.write off d).read a n = m.read a n := by
  apply slice_congr
  intro i _ hi
  exact Mem.write_outside m off d (by omega)

theorem Mem.read_write_append (a n : Nat) (d : List (Option Byte)) :
    (m.write (a + n) d).read a (n + d.length) = m.read a n ++ d := by
  have h := slice_append (m.write (a + n) d) a n d.length
  unfold Mem.read at *
  rw [← h]
  congr 1
  · exact Mem.read_write_below m d (Nat.le_refl _)
  · exact Mem.read_write_self m (a + n) d

theorem Mem.move_inside (dst src len : Nat) {i : Nat} (h1 : dst ≤ i) (h2 : i < dst + len) :
    m.move dst src len i = m (src + (i - dst)) := Mem.write_slice m dst m src len h1 h2

theorem Mem.read_move (dst src len : Nat) : (m.move dst src len).read dst len = m.read src len := by
  have h := Mem.read_write_self m dst (m.read src len)
  rwa [show (m.read src len).length = len from slice_length _ _ _] at h

end MoqLiveCast
