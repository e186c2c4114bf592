import MoqLiveCast.Moq.MlWire
/-!
# MlFront — the message at the front of a buffer

A parser of a moq-lite session looks at the front of what it has: a message with its length before it, and a varint
before that where messages have a type (a FRAME has its difference in time there).
-/
namespace MoqLiveCast

/-! ## Varints -/

theorem mlReadVarint_found {p : List Byte} {off k : Nat} {r : Option (BitVec 64)} (h : mlReadVarint p off = ⟨true, k, r⟩) :
    ∃ v n, quicVarintDecode (p.drop off) = some (v, n) ∧ off < p.length ∧ k = off + n ∧ r = some (BitVec.ofNat 64 v) := by
  unfold mlReadVarint at h
  by_cases hoff : p.length ≤ off
  · simp [if_pos hoff] at h
  · rw [if_neg hoff] at h
    cases hd : quicVarintDecode (p.drop off) with
    | none => simp [hd] at h
    | some c =>
      obtain ⟨v, n⟩ := c
      simp only [hd, WireRead.mk.injEq, true_and] at h
      exact ⟨v, n, rfl, by omega, h.1.symm, h.2.symm⟩

theorem mlReadVarint_bounds {p : List Byte} {off k : Nat} {r : Option (BitVec 64)} (h : mlReadVarint p off = ⟨true, k, r⟩) :
    off < k ∧ k ≤ off + 8 ∧ k ≤ p.length := by
  obtain ⟨v, n, hd, hoff, rfl, -⟩ := mlReadVarint_found h
  obtain ⟨hpos, h8, hlen⟩ := quicVarintDecode_bounds hd
  rw [List.length_drop] at hlen
  omega

theorem mlReadVarint_same {p q : List Byte} {off k m : Nat} {r : Option (BitVec 64)} (h : mlReadVarint p off = ⟨true, k, r⟩)
    (hq : q.take m = p.take m) (hk : k ≤ m) (hlen : m ≤ q.length) : mlReadVarint q off = ⟨true, k, r⟩ := by
  obtain ⟨v, n, hd, hoff, rfl, rfl⟩ := mlReadVarint_found h
  obtain ⟨hpos, -, -⟩ := quicVarintDecode_bounds hd
  have htake : (q.drop off).take n = (p.drop off).take n := by
    have := congrArg (fun l => (l.drop off).take n) hq
    simpa only [List.drop_take, List.take_take, Nat.min_eq_left (show n ≤ m - off by omega)] using this
  have hd' := quicVarintDecode_same hd (q.drop off) htake (by rw [List.length_drop]; omega)
  unfold mlReadVarint
  rw [if_neg (by omega), hd']

theorem mlReadVarint_cases (p : List Byte) (off : Nat) :
    (mlReadVarint p off = ⟨false, off, none⟩ ∧ p.length < off + 8) ∨ ∃ k v, mlReadVarint p off = ⟨true, k, some v⟩ := by
  unfold mlReadVarint
  by_cases hoff : p.length ≤ off
  · exact .inl ⟨if_pos hoff, by omega⟩
  · rw [if_neg hoff]
    cases hd : quicVarintDecode (p.drop off) with
    | none =>
      have hshort := quicVarintDecode_short hd
      rw [List.length_drop] at hshort
      exact .inl ⟨rfl, by omega⟩
    | some c => exact .inr ⟨_, _, rfl⟩

/-! ## Messages -/

/-- What stands at the front: a part of a message, a length above the limit, or a message with what stands before its
length. -/
inductive MlFront (α : Type) where
  | needMore
  | tooLarge
  | whole (mark : α) (body : List Byte) (size : Nat)
deriving DecidableEq

/-- `MlReadMessage`, and the body it points at; the message ends at the offset `size`. -/
def frontAt {α : Type} (mark : α) (b : List Byte) (off : Nat) : MlFront α :=
  let r := mlReadMessage b off
  match r.status with
  | .needMore => .needMore
  | .tooLarge => .tooLarge
  | .ok => .whole mark ((b.drop r.off).take (r.out.getD 0)) (r.off + r.out.getD 0)

def frontMessage (b : List Byte) : MlFront Unit := frontAt () b 0

def frontTyped (b : List Byte) : MlFront (BitVec 64) :=
  let r := mlReadVarint b 0
  if r.status then frontAt (r.out.getD 0) b r.off else .needMore

section

variable {α : Type} {mark mark' : α} {b q body : List Byte} {off size : Nat}

theorem frontAt_none (h : mlReadVarint b off = ⟨false, off, none⟩) : frontAt mark b off = .needMore := by
  unfold frontAt mlReadMessage
  simp [h]

theorem frontAt_some {k : Nat} {v : BitVec 64} (h : mlReadVarint b off = ⟨true, k, some v⟩) :
    frontAt mark b off = if kMlMaxMessageSize < v then .tooLarge else if b.length - k < v.toNat then .needMore
      else .whole mark ((b.drop k).take v.toNat) (k + v.toNat) := by
  unfold frontAt mlReadMessage
  simp only [h, Bool.true_eq_false, if_false, Option.getD_some]
  by_cases hmax : kMlMaxMessageSize < v
  · simp only [if_pos hmax]
  · by_cases hlen : b.length - k < v.toNat
    · simp only [if_neg hmax, if_pos hlen]
    · simp only [if_neg hmax, if_neg hlen, Option.getD_some]

theorem frontAt_whole (h : frontAt mark b off = .whole mark' body size) : ∃ k v, mlReadVarint b off = ⟨true, k, some v⟩ ∧
    ¬ kMlMaxMessageSize < v ∧ off < k ∧ size ≤ b.length ∧ mark' = mark ∧ size = k + v.toNat ∧ body = (b.drop k).take v.toNat := by
  rcases mlReadVarint_cases b off with ⟨hnone, -⟩ | ⟨k, v, hsome⟩
  · rw [frontAt_none hnone] at h
    cases h
  · have hb := mlReadVarint_bounds hsome
    rw [frontAt_some hsome] at h
    split at h
    · cases h
    · rename_i hmax
      split at h
      · cases h
      · rename_i hlen
        cases h
        exact ⟨k, v, hsome, hmax, hb.1, by omega, rfl, rfl, rfl⟩

theorem frontAt_tooLarge (h : frontAt mark b off = .tooLarge) :
    ∃ k v, mlReadVarint b off = ⟨true, k, some v⟩ ∧ kMlMaxMessageSize < v := by
  rcases mlReadVarint_cases b off with ⟨hnone, -⟩ | ⟨k, v, hsome⟩
  · rw [frontAt_none hnone] at h
    cases h
  · rw [frontAt_some hsome] at h
    split at h
    · exact ⟨k, v, hsome, ‹_›⟩
    · split at h <;> cases h

theorem frontAt_same {m : Nat} (h : frontAt mark b off = .whole mark' body size) (hq : q.take m = b.take m) (hm : size ≤ m)
    (hlen : m ≤ q.length) : frontAt mark q off = .whole mark' body size := by
  obtain ⟨k, v, hread, hmax, -, -, rfl, rfl, rfl⟩ := frontAt_whole h
  have hslice : (q.drop k).take v.toNat = (b.drop k).take v.toNat := by
    have := congrArg (fun l => (l.drop k).take v.toNat) hq
    simpa only [List.drop_take, List.take_take, Nat.min_eq_left (show v.toNat ≤ m - k by omega)] using this
  rw [frontAt_some (mlReadVarint_same hread hq (by omega) hlen), if_neg hmax, if_neg (by omega), hslice]

theorem frontAt_bounds (h : frontAt mark b off = .whole mark' body size) : off < size ∧ size ≤ b.length := by
  obtain ⟨k, v, -, -, hoff, hle, -, rfl, -⟩ := frontAt_whole h
  omega

theorem frontAt_append (x : List Byte) (h : frontAt mark b off ≠ .needMore) : frontAt mark (b ++ x) off = frontAt mark b off := by
  have htake : (b ++ x).take b.length = b.take b.length := List.take_append_of_le_length (Nat.le_refl _)
  have hlen : b.length ≤ (b ++ x).length := by simp
  cases hf : frontAt mark b off with
  | needMore => exact absurd hf h
  | tooLarge =>
    obtain ⟨k, v, hread, hmax⟩ := frontAt_tooLarge hf
    rw [frontAt_some (mlReadVarint_same hread htake (mlReadVarint_bounds hread).2.2 hlen), if_pos hmax]
  | whole mark' body size => exact frontAt_same hf htake (frontAt_bounds hf).2 hlen

end

section

variable {b body : List Byte} {type : BitVec 64} {size : Nat}

theorem frontMessage_append (x : List Byte) (h : frontMessage b ≠ .needMore) : frontMessage (b ++ x) = frontMessage b :=
  frontAt_append x h

theorem frontMessage_bounds (h : frontMessage b = .whole () body size) : 0 < size ∧ size ≤ b.length := frontAt_bounds h

theorem frontMessage_take (h : frontMessage b = .whole () body size) : frontMessage (b.take size) = .whole () body size := by
  have hle := (frontMessage_bounds h).2
  exact frontAt_same h (by rw [List.take_take, Nat.min_self]) (Nat.le_refl _) (by rw [List.length_take]; omega)

theorem frontTyped_none (h : mlReadVarint b 0 = ⟨false, 0, none⟩) : frontTyped b = .needMore := by
  unfold frontTyped
  simp [h]

theorem frontTyped_some {k : Nat} (h : mlReadVarint b 0 = ⟨true, k, some type⟩) : frontTyped b = frontAt type b k := by
  unfold frontTyped
  simp [h]

theorem frontTyped_append (x : List Byte) (h : frontTyped b ≠ .needMore) : frontTyped (b ++ x) = frontTyped b := by
  rcases mlReadVarint_cases b 0 with ⟨hnone, -⟩ | ⟨k, v, hsome⟩
  · exact absurd (frontTyped_none hnone) h
  · have htake : (b ++ x).take b.length = b.take b.length := List.take_append_of_le_length (Nat.le_refl _)
    rw [frontTyped_some hsome] at h ⊢
    rw [frontTyped_some (mlReadVarint_same hsome htake (mlReadVarint_bounds hsome).2.2 (by simp)), frontAt_append x h]

theorem frontTyped_bounds (h : frontTyped b = .whole type body size) : 0 < size ∧ size ≤ b.length := by
  rcases mlReadVarint_cases b 0 with ⟨hnone, -⟩ | ⟨k, v, hsome⟩
  · rw [frontTyped_none hnone] at h
    cases h
  · rw [frontTyped_some hsome] at h
    have := frontAt_bounds h
    omega

theorem frontTyped_take (h : frontTyped b = .whole type body size) : frontTyped (b.take size) = .whole type body size := by
  rcases mlReadVarint_cases b 0 with ⟨hnone, -⟩ | ⟨k, v, hsome⟩
  · rw [frontTyped_none hnone] at h
    cases h
  · rw [frontTyped_some hsome] at h
    have hb := frontAt_bounds h
    have htake : (b.take size).take size = b.take size := by rw [List.take_take, Nat.min_self]
    have hlen : size ≤ (b.take size).length := by rw [List.length_take]; omega
    rw [frontTyped_some (mlReadVarint_same hsome htake (by omega) hlen), frontAt_same h htake (Nat.le_refl _) hlen]

end

end MoqLiveCast
