import MoqLiveCast.Rtmp.ChunkWrite
/-!
# ChunkPieces — for which chunk sizes the writer sends the whole message

The size is whatever four bytes a SET_CHUNK_SIZE has.  As an `int` it is 0, or negative from 2^31 on, when the number of chunks is
computed; the offset of a chunk is a product of 32 bits.
-/
namespace MoqLiveCast

structure ChunkPiece where
  off : Nat
  len : Int

/-- The piece at an index, in `WriteDataByChunkStream`'s own arithmetic. -/
def chunkPiece (len chunkSize index : Nat) : ChunkPiece where
  off := index * chunkSize % 2 ^ 32
  len :=
    (BitVec.ofNat 32
      (if (index : Int) = csCount len chunkSize - 1 ∧ 0 < len % chunkSize then len % chunkSize else chunkSize)).toInt

def chunkPieces (len chunkSize : Nat) : Option (List ChunkPiece) :=
  if (BitVec.ofNat 32 chunkSize).toInt = 0 then none
  else some ((List.range (csCount len chunkSize).toNat).map (chunkPiece len chunkSize))

/-- **The writer is safe**: it divides by no zero, no piece is longer than a chunk or goes out of the message, and together they are
the message. -/
def WriterSafe (payload : List Byte) (chunkSize : Nat) : Prop :=
  ∃ pieces, chunkPieces payload.length chunkSize = some pieces ∧
    (∀ p ∈ pieces, 0 ≤ p.len ∧ p.len ≤ chunkSize ∧ p.off + p.len ≤ payload.length) ∧
    pieces.flatMap (fun p => (payload.drop p.off).take p.len.toNat) = payload

theorem flatMap_parts {α : Type} (xs : List α) (n : Nat) : ∀ k : Nat,
    (List.range k).flatMap (fun i => (xs.drop (i * n)).take n) = xs.take (k * n)
  | 0 => by simp
  | k + 1 => by
    rw [List.range_succ, List.flatMap_append, flatMap_parts xs n k, Nat.succ_mul, List.take_add]
    simp

section

variable {len chunkSize : Nat}

theorem toInt_eq_zero (hlt : chunkSize < 2 ^ 32) : (BitVec.ofNat 32 chunkSize).toInt = 0 ↔ chunkSize = 0 := by
  rcases Nat.lt_or_ge chunkSize (2 ^ 31) with h | h
  · rw [toInt_small h]
    omega
  · rw [toInt_large h hlt]
    omega

theorem chunkPiece_eq (hpos : 0 < chunkSize) (hlen : len < 2 ^ 31) (hfits : chunkSize + len < 2 ^ 32) {i : Nat}
    (hi : i * chunkSize < len) : chunkPiece len chunkSize i = ⟨i * chunkSize, (min chunkSize (len - i * chunkSize) : Nat)⟩ := by
  have hdiv := Nat.div_add_mod len chunkSize
  have hmod := Nat.mod_lt len hpos
  have hoff : i * chunkSize % 2 ^ 32 = i * chunkSize := Nat.mod_eq_of_lt (by omega)
  have hcount := csCount_eq hlen hfits
  have hpiece : (if (i : Int) = csCount len chunkSize - 1 ∧ 0 < len % chunkSize then len % chunkSize else chunkSize) =
      min chunkSize (len - i * chunkSize) := by
    rw [hcount]
    unfold chunkCount
    by_cases hrest : 0 < len % chunkSize
    · rw [if_pos hrest]
      by_cases hlast : i = len / chunkSize
      · rw [if_pos ⟨by omega, hrest⟩, hlast, Nat.mul_comm]
        omega
      · have hlt := (lt_chunkCount hpos).2 hi
        unfold chunkCount at hlt
        rw [if_pos hrest] at hlt
        have hnext : (i + 1) * chunkSize ≤ len / chunkSize * chunkSize := Nat.mul_le_mul_right _ (by omega)
        rw [Nat.succ_mul, Nat.mul_comm (len / chunkSize)] at hnext
        rw [if_neg fun h => hlast (by omega)]
        omega
    · have hlt := (lt_chunkCount hpos).2 hi
      unfold chunkCount at hlt
      rw [if_neg hrest] at hlt
      have hnext : (i + 1) * chunkSize ≤ len / chunkSize * chunkSize := Nat.mul_le_mul_right _ (by omega)
      rw [Nat.succ_mul, Nat.mul_comm (len / chunkSize)] at hnext
      rw [if_neg fun h => hrest h.2]
      omega
  unfold chunkPiece
  rw [hoff, hpiece, toInt_small (by omega)]

end

/-- **The writer is safe exactly for** a size that is not 0 and that the message's length does not lift over 32 bits. -/
theorem writer_safe_iff (payload : List Byte) (chunkSize : BitVec 32) (hsome : 0 < payload.length) (hint : payload.length < 2 ^ 31) :
    WriterSafe payload chunkSize.toNat ↔ chunkSize ≠ 0 ∧ chunkSize.toNat + payload.length < 2 ^ 32 := by
  have hlt := chunkSize.isLt
  have hzero : chunkSize ≠ 0 ↔ 0 < chunkSize.toNat := by
    rw [Nat.pos_iff_ne_zero, Ne, Ne, ← BitVec.toNat_inj]
    rfl
  rw [hzero]
  generalize chunkSize.toNat = size at hlt ⊢
  constructor
  · rintro ⟨pieces, hpieces, -, hwhole⟩
    unfold chunkPieces at hpieces
    split at hpieces
    · cases hpieces
    · rename_i hsize
      rw [toInt_eq_zero hlt] at hsize
      refine ⟨Nat.pos_of_ne_zero hsize, ?_⟩
      by_contra hover
      have hnone := csCount_none hint hlt (Nat.le_of_not_lt hover)
      rw [← Option.some.inj hpieces, Int.toNat_eq_zero.2 hnone] at hwhole
      rw [← hwhole] at hsome
      exact Nat.lt_irrefl 0 hsome
  · rintro ⟨hpos, hfits⟩
    have hmem : ∀ i ∈ List.range (chunkCount payload.length size), i * size < payload.length := fun i hi =>
      (lt_chunkCount hpos).1 (List.mem_range.1 hi)
    refine ⟨(List.range (chunkCount payload.length size)).map (chunkPiece payload.length size), ?_, ?_, ?_⟩
    · unfold chunkPieces
      rw [if_neg ((toInt_eq_zero hlt).not.2 (by omega)), csCount_eq hint hfits, Int.toNat_natCast]
    · intro p hp
      obtain ⟨i, hi, rfl⟩ := List.mem_map.1 hp
      have hin := hmem i hi
      rw [chunkPiece_eq hpos hint hfits hin]
      dsimp only
      omega
    · have hparts : (List.range (chunkCount payload.length size)).flatMap
          (fun i => (payload.drop (chunkPiece payload.length size i).off).take (chunkPiece payload.length size i).len.toNat) =
          (List.range (chunkCount payload.length size)).flatMap fun i => (payload.drop (i * size)).take size := by
        refine List.flatMap_congr fun i hi => ?_
        rw [chunkPiece_eq hpos hint hfits (hmem i hi)]
        dsimp only
        rw [Int.toNat_natCast, ← List.length_drop, List.take_eq_take_iff]
        omega
      have hall : payload.length ≤ chunkCount payload.length size * size := by
        by_contra hless
        exact Nat.lt_irrefl _ ((lt_chunkCount hpos).2 (Nat.lt_of_not_le hless))
      rw [List.flatMap_map, hparts, flatMap_parts, List.take_of_length_le hall]

theorem writer_safe_sample : WriterSafe [1, 2, 3] 2 := (writer_safe_iff [1, 2, 3] 2 (by decide) (by decide)).2 (by decide)

/-- A size of 0 is divided by, and with one of 2^32 - 1 nothing is sent. -/
theorem writer_unsafe : ¬(∀ (payload : List Byte) (chunkSize : BitVec 32), 0 < payload.length → payload.length < 2 ^ 31 →
    WriterSafe payload chunkSize.toNat) ∧ chunkPieces 1 0 = none ∧ chunkPieces 1 (2 ^ 32 - 1) = some [] := by
  refine ⟨fun hall => ?_, rfl, rfl⟩
  obtain ⟨pieces, hpieces, -⟩ := hall [1] 0 (by decide) (by decide)
  cases hpieces

end MoqLiveCast
