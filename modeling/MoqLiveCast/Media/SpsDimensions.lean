import MoqLiveCast.Media.Sps
/-!
# SpsDimensions — which sets are read with the dimensions of the standard

The bits of a set are taken one after the other by what reads them, so that the reader has each value of the set.
-/
namespace MoqLiveCast

open List

/-! ## Emulation prevention -/

theorem remove_other {b : Byte} {rest : List Byte} (hother : ¬[0, 0, 3] <+: b :: rest) :
    removeEmulationPreventionBytes (b :: rest) = b :: removeEmulationPreventionBytes rest := by
  rw [removeEmulationPreventionBytes]
  rintro tail rfl rfl
  exact hother ⟨tail, rfl⟩

theorem remove_nonzero {b : Byte} (hb : b ≠ 0) (rest : List Byte) :
    removeEmulationPreventionBytes (b :: rest) = b :: removeEmulationPreventionBytes rest := by
  apply remove_other
  rintro ⟨tail, htail⟩
  exact hb (List.cons.inj htail).1.symm

theorem remove_zero {b : Byte} (hb : b ≠ 0) (rest : List Byte) :
    removeEmulationPreventionBytes (0 :: b :: rest) = 0 :: b :: removeEmulationPreventionBytes rest := by
  have hother : ¬[0, 0, 3] <+: 0 :: b :: rest := by
    rintro ⟨tail, htail⟩
    exact hb (List.cons.inj (List.cons.inj htail).2).1.symm
  rw [remove_other hother, remove_nonzero hb]

theorem remove_prevent : ∀ (bytes : List Byte) (zeros : Nat), zeros ≤ 2 →
    removeEmulationPreventionBytes (replicate zeros 0 ++ preventEmulation zeros bytes) = replicate zeros 0 ++ bytes
  | [], 0, _ => rfl
  | [], 1, _ => rfl
  | [], 2, _ => rfl
  | b :: bytes, zeros, hle => by
    have h0 : removeEmulationPreventionBytes (preventEmulation 0 bytes) = bytes := remove_prevent bytes 0 (by decide)
    have h1 : removeEmulationPreventionBytes (0 :: preventEmulation 1 bytes) = 0 :: bytes := remove_prevent bytes 1 (by decide)
    have h2 : removeEmulationPreventionBytes (0 :: 0 :: preventEmulation 2 bytes) = 0 :: 0 :: bytes :=
      remove_prevent bytes 2 (Nat.le_refl 2)
    unfold preventEmulation
    by_cases hb : b = 0
    · subst hb
      match zeros, hle with
      | 0, _ => exact h1
      | 1, _ => exact h2
      | 2, _ => exact congrArg (fun l => 0 :: 0 :: l) h1
    · rw [if_neg hb, if_neg hb]
      match zeros, hle with
      | 0, _ =>
        rw [if_neg (by omega), replicate_zero, nil_append, nil_append, remove_nonzero hb, h0]
      | 1, _ =>
        rw [if_neg (by omega)]
        exact (remove_zero hb _).trans (by rw [h0]; rfl)
      | 2, _ =>
        by_cases hsmall : b.toNat ≤ 3
        · rw [if_pos ⟨Nat.le_refl 2, hsmall⟩]
          have hkept : removeEmulationPreventionBytes (b :: preventEmulation 0 bytes) = b :: bytes := by rw [remove_nonzero hb, h0]
          exact congrArg (fun l => 0 :: 0 :: l) hkept
        · rw [if_neg fun h => hsmall h.2]
          have hother : ¬[0, 0, 3] <+: 0 :: 0 :: b :: preventEmulation 0 bytes := by
            rintro ⟨tail, htail⟩
            obtain rfl : 3 = b := (List.cons.inj (List.cons.inj (List.cons.inj htail).2).2).1
            exact hsmall (by decide)
          exact (remove_other hother).trans (by rw [remove_zero hb, h0]; rfl)

/-! ## The bits of bytes -/

def bytesBits (data : List Byte) : List Bool := data.flatMap fun b => bitsOf 8 b.toNat

def BitReader.left (r : BitReader) : List Bool := slice (bitAt r.data) r.bitPos (r.bits - r.bitPos)

theorem bitAt_cons (b : Byte) (data : List Byte) (i : Nat) : bitAt (b :: data) (8 + i) = bitAt data i := by
  unfold bitAt
  rw [show (8 + i) / 8 = i / 8 + 1 by omega, show (8 + i) % 8 = i % 8 by omega, getD_cons_succ]

theorem slice_byte (b : Byte) (data : List Byte) : slice (bitAt (b :: data)) 0 8 = bitsOf 8 b.toNat := by
  have halone : slice (bitAt (b :: data)) 0 8 = slice (bitAt [b]) 0 8 := slice_congr fun i _ hi => by
    unfold bitAt
    rw [show i / 8 = 0 by omega]
    rfl
  rw [halone]
  clear halone
  revert b
  decide +kernel

theorem slice_bitAt : ∀ data : List Byte, slice (bitAt data) 0 (data.length * 8) = bytesBits data
  | [] => rfl
  | b :: data => by
    have hrest : slice (bitAt (b :: data)) 8 (data.length * 8) = slice (bitAt data) 0 (data.length * 8) :=
      slice_eq_slice fun i _ => by rw [bitAt_cons, Nat.zero_add]
    have hlen : (b :: data).length * 8 = 8 + data.length * 8 := by
      rw [length_cons]
      omega
    rw [hlen, ← slice_append, Nat.zero_add, slice_byte, hrest, slice_bitAt data]
    rfl

theorem packed_byte : ∀ b0 b1 b2 b3 b4 b5 b6 b7 : Bool,
    bitsOf 8 (BitVec.ofNat 8 (valueOf [b0, b1, b2, b3, b4, b5, b6, b7])).toNat = [b0, b1, b2, b3, b4, b5, b6, b7] := by
  decide +kernel

theorem bytesBits_pack : ∀ bits : List Bool, bits.length % 8 = 0 → bytesBits (packBits bits) = bits
  | [], _ => rfl
  | b0 :: b1 :: b2 :: b3 :: b4 :: b5 :: b6 :: b7 :: rest, hlen => by
    have hrest := bytesBits_pack rest (by simp only [length_cons] at hlen; omega)
    unfold packBits bytesBits
    rw [flatMap_cons, packed_byte]
    exact congrArg ([b0, b1, b2, b3, b4, b5, b6, b7] ++ ·) hrest
  | [_], hlen | [_, _], hlen | [_, _, _], hlen | [_, _, _, _], hlen | [_, _, _, _, _], hlen | [_, _, _, _, _, _], hlen
  | [_, _, _, _, _, _, _], hlen => by
    simp only [length_cons, length_nil] at hlen
    omega

/-! ## Reading -/

theorem foldl_bits (f : Nat → Bool) {n : Nat} (hn : n ≤ 32) : ∀ k ≤ n,
    ((range k).foldl (fun (result : BitVec 32) i => if f i then result ||| (1 : BitVec 32) <<< (n - 1 - i) else result) 0).toNat =
      valueOf (slice f 0 k) * 2 ^ (n - k)
  | 0, _ => by simp [valueOf]
  | k + 1, hle => by
    have ih := foldl_bits f hn k (by omega)
    have hsnoc : slice f 0 (k + 1) = slice f 0 k ++ [f k] := by
      rw [← slice_append, Nat.zero_add]
      rfl
    have hpow : 2 ^ (n - k) = 2 ^ (n - (k + 1)) * 2 := by
      rw [← pow_succ]
      congr 1
      omega
    rw [range_succ, foldl_append, foldl_cons, foldl_nil, hsnoc, valueOf_snoc]
    cases f k with
    | false =>
      rw [if_neg (by simp), ih, hpow]
      simp only [Bool.toNat_false]
      ring
    | true =>
      have hlt : 2 ^ (n - (k + 1)) < 2 ^ (n - k) := Nat.pow_lt_pow_right (by decide) (by omega)
      have hone : ((1 : BitVec 32) <<< (n - 1 - k)).toNat = 2 ^ (n - (k + 1)) := by
        have hsmall : 2 ^ (n - 1 - k) < 2 ^ 32 := Nat.pow_lt_pow_right (by decide) (by omega)
        rw [BitVec.toNat_shiftLeft, Nat.shiftLeft_eq, show n - (k + 1) = n - 1 - k by omega]
        exact (congrArg (· % 2 ^ 32) (Nat.one_mul _)).trans (Nat.mod_eq_of_lt hsmall)
      rw [if_pos rfl, BitVec.toNat_or, ih, hone, Nat.mul_comm, ← Nat.two_pow_add_eq_or_of_lt hlt, hpow]
      simp only [Bool.toNat_true]
      ring

theorem run_readBits (n : Nat) (r : BitReader) :
    (readBits n).run r =
      if r.bits < r.bitPos + n then (0, r)
      else ((range n).foldl (fun result i => if bitAt r.data (r.bitPos + i) then result ||| (1 : BitVec 32) <<< (n - 1 - i) else result) 0,
        { r with bitPos := r.bitPos + n }) := by
  by_cases hover : r.bits < r.bitPos + n
  · simp [readBits, hover]
    rfl
  · simp [readBits, hover]
    rfl

theorem takes_readBits (word : List Bool) (hlen : word.length ≤ 32) :
    TakesWord BitReader.left (readBits word.length) word (BitVec.ofNat 32 (valueOf word)) := by
  intro r rest hleft
  have hsize : r.bits - r.bitPos = word.length + rest.length := by
    have hlens := congrArg List.length hleft
    rwa [BitReader.left, slice_length, length_append] at hlens
  have hcut : slice (bitAt r.data) r.bitPos word.length = word ∧ slice (bitAt r.data) (r.bitPos + word.length) rest.length = rest := by
    rw [BitReader.left, hsize, ← slice_append] at hleft
    exact append_inj hleft (slice_length _ _ _)
  rw [run_readBits]
  by_cases hover : r.bits < r.bitPos + word.length
  · have hnone : word = [] := eq_nil_of_length_eq_zero (by omega)
    subst hnone
    rw [if_pos hover]
    exact ⟨r, rfl, hleft⟩
  · have hshift : slice (fun i => bitAt r.data (r.bitPos + i)) 0 word.length = word :=
      (slice_eq_slice fun i _ => by rw [Nat.zero_add]).trans hcut.1
    have hpow : 2 ^ word.length ≤ 2 ^ 32 := Nat.pow_le_pow_right (by decide) hlen
    have hlt := valueOf_lt word
    rw [if_neg hover]
    refine ⟨{ r with bitPos := r.bitPos + word.length }, Prod.ext (BitVec.eq_of_toNat_eq ?_) rfl, ?_⟩
    · dsimp only
      rw [foldl_bits (fun i => bitAt r.data (r.bitPos + i)) hlen word.length (Nat.le_refl _), hshift, Nat.sub_self, pow_zero, Nat.mul_one,
        BitVec.toNat_ofNat, Nat.mod_eq_of_lt (by omega)]
    · have hrest : r.bits - (r.bitPos + word.length) = rest.length := by omega
      exact (congrArg (slice (bitAt r.data) (r.bitPos + word.length)) hrest).trans hcut.2

theorem takes_number {n v : Nat} (hn : n ≤ 32) (hv : v < 2 ^ n) : TakesWord BitReader.left (readBits n) (bitsOf n v) (BitVec.ofNat 32 v) := by
  have htakes := takes_readBits (bitsOf n v) (by rwa [bitsOf_length])
  rwa [bitsOf_length, valueOf_bitsOf, Nat.mod_eq_of_lt hv] at htakes

theorem takes_flag (b : Bool) : TakesWord BitReader.left (readBits 1) [b] (if b then 1 else 0) := by
  have htakes := takes_readBits [b] (by simp)
  cases b <;> exact htakes

theorem TakesWord.ifMore {α : Type} {m m' : StateM BitReader α} {word : List Bool} {a : α} (hne : word ≠ [])
    (hm : TakesWord BitReader.left m word a) :
    TakesWord BitReader.left (do let r ← get; if r.bitPos < r.bits then m else m') word a := by
  intro r rest hleft
  have hmore : r.bitPos < r.bits := by
    have hlens := congrArg List.length hleft
    have hpos := List.length_pos_iff.2 hne
    rw [BitReader.left, slice_length, length_append] at hlens
    omega
  obtain ⟨r', hrun, hr'⟩ := hm r rest hleft
  refine ⟨r', ?_, hr'⟩
  have hthen : (if r.bitPos < r.bits then m else m') = m := if_pos hmore
  exact (congrArg (fun p => StateT.run p r) hthen).trans hrun

theorem takes_leadingZeros : ∀ k n zeros : Nat, k < n → n + zeros = 33 →
    TakesWord BitReader.left (leadingZeros n zeros) (replicate k false ++ [true]) (some (zeros + k))
  | k, 0, _, hlt, _ => absurd hlt (Nat.not_lt_zero k)
  | 0, n + 1, zeros, _, _ =>
    .ifMore (by simp) ((takes_flag true).bindNil (by
      rw [if_neg (by simp)]
      exact takesWord_pure _))
  | k + 1, n + 1, zeros, hlt, hsum =>
    .ifMore (by simp) ((takes_flag false).bind (by
      rw [if_pos (by simp), if_neg (by omega), show zeros + (k + 1) = zeros + 1 + k by omega]
      exact takes_leadingZeros k n (zeros + 1) (by omega) (by omega)))

theorem takes_readUe {v : Nat} (hv : v + 1 < 2 ^ 32) : TakesWord BitReader.left readUe (golomb v) (BitVec.ofNat 32 v) := by
  obtain ⟨hcode, hnumber⟩ := golomb_eq v
  have hzeros : (v + 1).log2 < 32 := (Nat.log2_lt (Nat.succ_ne_zero v)).2 hv
  have hfirst := takes_leadingZeros (v + 1).log2 33 0 (by omega) (by omega)
  rw [Nat.zero_add] at hfirst
  rw [hcode]
  unfold readUe
  refine hfirst.bind ?_
  generalize (v + 1).log2 = zeros at *
  cases zeros with
  | zero =>
    have hzero : v = 0 := by omega
    subst hzero
    exact takesWord_pure _
  | succ zeros =>
    have hlt : (v + 1) % 2 ^ (zeros + 1) < 2 ^ (zeros + 1) := Nat.mod_lt _ (Nat.two_pow_pos _)
    have hpow : 2 ^ (zeros + 1) ≤ 2 ^ 31 := Nat.pow_le_pow_right (by decide) (by omega)
    have hrest := takes_readBits (bitsOf (zeros + 1) (v + 1)) (by rw [bitsOf_length]; omega)
    rw [bitsOf_length, valueOf_bitsOf] at hrest
    have hvalue : ((1 : BitVec 32) <<< (zeros + 1)) - 1 + BitVec.ofNat 32 ((v + 1) % 2 ^ (zeros + 1)) = BitVec.ofNat 32 v := by
      have hone : ((1 : BitVec 32) <<< (zeros + 1)).toNat = 2 ^ (zeros + 1) := by
        rw [BitVec.toNat_shiftLeft, Nat.shiftLeft_eq]
        exact (congrArg (· % 2 ^ 32) (Nat.one_mul _)).trans (Nat.mod_eq_of_lt (by omega))
      have hminus : (1 : BitVec 32).toNat = 1 := rfl
      apply BitVec.eq_of_toNat_eq
      rw [BitVec.toNat_add, BitVec.toNat_sub, hone, hminus, BitVec.toNat_ofNat, BitVec.toNat_ofNat]
      omega
    rw [← hvalue]
    exact hrest.bindPure fun value => ((1 : BitVec 32) <<< (zeros + 1)) - 1 + value

theorem seHalf {u : Nat} (hu : u < 2 ^ 31) :
    ((BitVec.ofNat 32 u + 1) >>> 1).toInt = ((u + 1) / 2 : Nat) ∧ (BitVec.ofNat 32 u &&& 1 ≠ 0 ↔ u % 2 = 1) := by
  have hone : (1 : BitVec 32).toNat = 1 := rfl
  have hnat : (BitVec.ofNat 32 u).toNat = u := by
    rw [BitVec.toNat_ofNat, Nat.mod_eq_of_lt (by omega)]
  constructor
  · have hhalf : ((BitVec.ofNat 32 u + 1) >>> 1).toNat = (u + 1) / 2 := by
      rw [BitVec.toNat_ushiftRight, BitVec.toNat_add, hnat, hone, Nat.shiftRight_eq_div_pow]
      omega
    rw [BitVec.toInt_eq_toNat_cond, hhalf, if_pos (by omega)]
  · have hand : (BitVec.ofNat 32 u &&& 1).toNat = u % 2 := by
      rw [BitVec.toNat_and, hnat, hone, Nat.and_one_is_mod]
    rw [Ne, ← BitVec.toNat_inj, hand]
    show u % 2 ≠ 0 ↔ _
    omega

theorem takes_readSe (v : Se) : TakesWord BitReader.left h264ReadSe (se v) v.val := by
  have hsmall := v.property
  have hnumber : seNumber v < 2 ^ 17 := by
    unfold seNumber
    split <;> omega
  obtain ⟨hhalf, hodd⟩ := seHalf (u := seNumber v) (by omega)
  have hvalue : (if BitVec.ofNat 32 (seNumber v) &&& 1 ≠ 0 then ((BitVec.ofNat 32 (seNumber v) + 1) >>> 1).toInt
      else -((BitVec.ofNat 32 (seNumber v) + 1) >>> 1).toInt) = v.val := by
    rw [hhalf]
    by_cases hpos : 0 < v.val
    · have heq : seNumber v = 2 * v.val.natAbs - 1 := if_pos hpos
      rw [if_pos (hodd.2 (by omega))]
      omega
    · have heq : seNumber v = 2 * v.val.natAbs := if_neg hpos
      rw [if_neg fun h => absurd (hodd.1 h) (by omega)]
      omega
  have hread := (takes_readUe (v := seNumber v) (by omega)).bindPure fun ue : BitVec 32 =>
    if ue &&& 1 ≠ 0 then ((ue + 1) >>> 1).toInt else -((ue + 1) >>> 1).toInt
  rw [hvalue] at hread
  exact hread

theorem takes_ue (v : Ue) : TakesWord BitReader.left readUe (ue v) (BitVec.ofNat 32 v.val) := by
  have hv := v.property
  exact takes_readUe (by omega)

/-! ## Lists -/

theorem scale_step {last lastScale : Int} (d : Int) (hlast : last % 256 = lastScale % 256) : ((last + d + 256).tmod 256) % 256 =
    (lastScale + d + 256) % 256 ∧ -256 < (last + d + 256).tmod 256 ∧ (last + d + 256).tmod 256 < 256 := by
  have hdef := Int.tmod_def (last + d + 256) 256
  have hlt := Int.tmod_lt_of_pos (last + d + 256) (by decide : (0 : Int) < 256)
  have hgt := Int.lt_tmod_of_pos (last + d + 256) (by decide : (0 : Int) < 256)
  omega

theorem takes_scalingList (deltas : Nat → Se) : ∀ (n j : Nat) (last next lastScale nextScale : Int), last % 256 = lastScale % 256 →
    next % 256 = nextScale → -256 < next → next < 256 →
      TakesWord BitReader.left (h264SkipScalingList n last next) (scalingListBits deltas n j lastScale nextScale) ()
  | 0, _, _, _, _, _, _, _, _, _ => takesWord_pure ()
  | n + 1, j, last, next, lastScale, nextScale, hlast, hnext, hlow, hhigh => by
    unfold h264SkipScalingList scalingListBits
    by_cases hzero : next = 0
    · rw [if_neg (by omega), if_neg (by omega)]
      exact takes_scalingList deltas n (j + 1) last next lastScale nextScale hlast hnext hlow hhigh
    · rw [if_pos hzero, if_pos (by omega)]
      obtain ⟨hmod, hlow', hhigh'⟩ := scale_step (deltas j).val hlast
      apply (takes_readSe (deltas j)).bind
      apply takes_scalingList deltas n (j + 1)
      · split <;> split <;> omega
      · exact hmod
      · exact hlow'
      · exact hhigh'

theorem takes_scalingLists (lists : Nat → Option (Nat → Se)) : ∀ n i : Nat,
    TakesWord BitReader.left (skipScalingLists n i) (scalingListsBits lists n i) ()
  | 0, _ => takesWord_pure ()
  | n + 1, i => by
    have hrest := takes_scalingLists lists n (i + 1)
    unfold skipScalingLists scalingListsBits
    cases lists i with
    | none => exact (takes_flag false).bind hrest
    | some deltas =>
      have hlist := takes_scalingList deltas (if i < 6 then 16 else 64) 0 8 8 8 8 rfl rfl (by decide) (by decide)
      exact (takes_flag true).bind (hlist.bind hrest)

theorem takes_offsets : ∀ offsets : List Se, TakesWord BitReader.left (skipOffsets offsets.length) (offsets.flatMap se) ()
  | [] => takesWord_pure ()
  | v :: offsets => (takes_readSe v).bind (takes_offsets offsets)

/-! ## The set -/

theorem ofNat_eq_iff {v : Nat} (hv : v < 2 ^ 16) (k : Nat) (hk : k < 2 ^ 16) : BitVec.ofNat 32 v = BitVec.ofNat 32 k ↔ v = k := by
  rw [← BitVec.toNat_inj, BitVec.toNat_ofNat, BitVec.toNat_ofNat, Nat.mod_eq_of_lt (by omega), Nat.mod_eq_of_lt (by omega)]

variable (p : HighProfile)

theorem takes_separateColourPlane : TakesWord BitReader.left (readSeparateColourPlane (BitVec.ofNat 32 p.chromaFormatIdc.val))
    (if p.chromaFormatIdc.val = 3 then [p.separateColourPlane] else []) (decide (p.chromaFormatIdc.val =
    3) && p.separateColourPlane) := by
  have hthree : BitVec.ofNat 32 p.chromaFormatIdc.val = 3 ↔ p.chromaFormatIdc.val = 3 :=
    ofNat_eq_iff p.chromaFormatIdc.property 3 (by decide)
  unfold readSeparateColourPlane
  by_cases hchroma : p.chromaFormatIdc.val = 3
  · have hbit := (takes_flag p.separateColourPlane).bindPure fun bit : BitVec 32 => decide (bit ≠ 0)
    rw [if_pos (hthree.2 hchroma), if_pos hchroma, decide_eq_true hchroma, Bool.true_and]
    have hflag : decide ((if p.separateColourPlane then 1 else 0 : BitVec 32) ≠ 0) = p.separateColourPlane := by
      cases p.separateColourPlane <;> rfl
    rwa [hflag] at hbit
  · rw [if_neg fun h => hchroma (hthree.1 h), if_neg hchroma, decide_eq_false hchroma]
    exact takesWord_pure _

theorem takes_scalingMatrix :
    TakesWord BitReader.left (readScalingMatrix (BitVec.ofNat 32 p.chromaFormatIdc.val))
      (match p.scalingMatrix with
        | none => [false]
        | some lists => [true] ++ scalingListsBits lists (if p.chromaFormatIdc.val ≠ 3 then 8 else 12) 0) () := by
  have hthree : BitVec.ofNat 32 p.chromaFormatIdc.val ≠ 3 ↔ p.chromaFormatIdc.val ≠ 3 :=
    not_congr (ofNat_eq_iff p.chromaFormatIdc.property 3 (by decide))
  unfold readScalingMatrix
  cases p.scalingMatrix with
  | none => exact (takes_flag false).bind (takesWord_pure ())
  | some lists =>
    have hlists := takes_scalingLists lists (if p.chromaFormatIdc.val ≠ 3 then 8 else 12) 0
    refine (takes_flag true).bind ?_
    rw [if_pos (by simp), if_congr hthree rfl rfl]
    exact hlists

theorem takes_highProfile : TakesWord BitReader.left readHighProfile p.bits (BitVec.ofNat 32 p.chromaFormatIdc.val, decide
    (p.chromaFormatIdc.val = 3) && p.separateColourPlane) := by
  unfold readHighProfile HighProfile.bits
  apply (takes_ue _).bind
  apply (takes_separateColourPlane p).bind
  apply (takes_ue _).bind
  apply (takes_ue _).bind
  apply (takes_flag _).bind
  exact (takes_scalingMatrix p).bindPure _

theorem takes_pocType (poc : PicOrderCnt) (hcycle : poc.cycle ≤ 256) : TakesWord BitReader.left readPocType poc.bits () := by
  unfold readPocType
  cases poc with
  | type0 lsb =>
    apply (takes_ue _).bind
    rw [if_pos (by rfl)]
    exact (takes_ue lsb).bindPure _
  | type1 deltaAlwaysZero nonRefPic topToBottom offsets short =>
    apply (takes_ue _).bind
    rw [if_neg (by decide), if_pos (by rfl)]
    apply (takes_flag _).bind
    apply (takes_readSe _).bind
    apply (takes_readSe _).bind
    apply (takes_ue _).bind
    have hcount : min (BitVec.ofNat 32 offsets.length).toNat 256 = offsets.length := by
      rw [BitVec.toNat_ofNat, Nat.mod_eq_of_lt (by omega)]
      exact Nat.min_eq_left hcycle
    rw [hcount]
    exact takes_offsets offsets
  | other type two_le =>
    have hzero : ¬BitVec.ofNat 32 type.val = 0 := fun h => absurd ((ofNat_eq_iff type.property 0 (by decide)).1 h) (by omega)
    have hone : ¬BitVec.ofNat 32 type.val = 1 := fun h => absurd ((ofNat_eq_iff type.property 1 (by decide)).1 h) (by omega)
    apply (takes_ue type).bindNil
    rw [if_neg hzero, if_neg hone]
    exact takesWord_pure ()

variable (s : SpsSyntax)

theorem takes_chroma : TakesWord BitReader.left (readChroma (BitVec.ofNat 32 s.profileIdc.toNat)) (if s.isHigh then s.high.bits
    else []) (BitVec.ofNat 32 s.chromaFormatIdc, decide (s.isHigh) && (decide (s.high.chromaFormatIdc.val =
    3) && s.high.separateColourPlane)) := by
  have hprofile : (BitVec.ofNat 32 s.profileIdc.toNat).toNat = s.profileIdc.toNat := by
    have hlt := s.profileIdc.isLt
    rw [BitVec.toNat_ofNat, Nat.mod_eq_of_lt (by omega)]
  unfold readChroma SpsSyntax.chromaFormatIdc
  rw [hprofile]
  by_cases hhigh : s.isHigh
  · have hmem : s.profileIdc.toNat ∈ HIGH_PROFILES := hhigh
    rw [if_pos hmem, if_pos hhigh, if_pos hhigh, decide_eq_true hhigh, Bool.true_and]
    exact takes_highProfile s.high
  · have hnot : s.profileIdc.toNat ∉ HIGH_PROFILES := hhigh
    rw [if_neg hnot, if_neg hhigh, if_neg hhigh, decide_eq_false hhigh, Bool.false_and]
    exact takesWord_pure _

theorem takes_mbAdaptive (frameMbsOnly mbAdaptive : Bool) :
    TakesWord BitReader.left (readMbAdaptive (if frameMbsOnly then 1 else 0)) (if frameMbsOnly then [] else [mbAdaptive]) () := by
  cases frameMbsOnly with
  | true => exact takesWord_pure ()
  | false => exact (takes_flag mbAdaptive).bindPure _

def SpsSyntax.crop (s : SpsSyntax) : Crop :=
  match s.cropping with
  | none => {}
  | some c => ⟨BitVec.ofNat 32 c.left.val, BitVec.ofNat 32 c.right.val, BitVec.ofNat 32 c.top.val, BitVec.ofNat 32 c.bottom.val⟩

theorem takes_crop : TakesWord BitReader.left readCrop s.cropBits s.crop := by
  unfold readCrop SpsSyntax.cropBits SpsSyntax.crop
  cases s.cropping with
  | none => exact (takes_flag false).bind (takesWord_pure _)
  | some c =>
    apply (takes_flag true).bind
    rw [if_pos (by simp)]
    apply (takes_ue _).bind
    apply (takes_ue _).bind
    apply (takes_ue _).bind
    exact (takes_ue _).bindPure _

theorem takes_sps (hcycle : s.pocType.cycle ≤ 256) {header : Nat} (hheader : header < 256) : TakesWord BitReader.left readSps
    (bitsOf 8 header ++ s.dataBits) (dimensions (BitVec.ofNat 32 s.chromaFormatIdc) (decide s.isHigh && (decide
    (s.high.chromaFormatIdc.val = 3) && s.high.separateColourPlane)) (BitVec.ofNat 32 s.picWidthInMbsMinus1.val + 1)
    (BitVec.ofNat 32 s.picHeightInMapUnitsMinus1.val + 1) (if s.frameMbsOnly then 1 else 0) s.crop) := by
  unfold readSps SpsSyntax.dataBits
  apply (takes_number (by decide) hheader).bind
  apply (takes_number (by decide) s.profileIdc.isLt).bind
  apply (takes_number (by decide) s.constraints.isLt).bind
  apply (takes_number (by decide) s.levelIdc.isLt).bind
  apply (takes_ue _).bind
  apply (takes_chroma s).bind
  apply (takes_ue _).bind
  apply (takes_pocType s.pocType hcycle).bind
  apply (takes_ue _).bind
  apply (takes_flag _).bind
  apply (takes_ue _).bind
  apply (takes_ue _).bind
  apply (takes_flag _).bind
  apply (takes_mbAdaptive _ _).bind
  apply (takes_flag _).bind
  exact (takes_crop s).bindPure _

/-! ## The unit -/

theorem preventEmulation_length : ∀ (bytes : List Byte) (zeros : Nat), bytes.length ≤ (preventEmulation zeros bytes).length
  | [], _ => Nat.le_refl 0
  | b :: bytes, zeros => by
    unfold preventEmulation
    split <;> simp only [length_cons]
    · have hrest := preventEmulation_length bytes (if b = 0 then 1 else 0)
      omega
    · have hrest := preventEmulation_length bytes (if b = 0 then zeros + 1 else 0)
      omega

theorem bytesBits_length : ∀ data : List Byte, (bytesBits data).length = data.length * 8
  | [] => rfl
  | b :: data => by
    have hrest := bytesBits_length data
    unfold bytesBits at *
    rw [flatMap_cons, length_append, hrest, bitsOf_length, length_cons]
    omega

namespace SpsSyntax

variable (s : SpsSyntax)

def header : Nat := s.nalRefIdc * 32 + 7

def rbsp : List Bool := s.dataBits ++ (s.vui ++ rbspTrailingBits (s.dataBits.length + s.vui.length))

theorem header_lt : s.header < 256 := by
  have hlt := s.nalRefIdc.isLt
  unfold header
  omega

theorem rbsp_length : s.rbsp.length % 8 = 0 ∧ 24 ≤ s.rbsp.length := by
  have hdata : 24 ≤ s.dataBits.length := by
    unfold dataBits
    simp only [length_append, bitsOf_length]
    omega
  unfold rbsp rbspTrailingBits
  simp only [length_append, length_cons, length_replicate]
  omega

theorem removed_nal : removeEmulationPreventionBytes s.nal = BitVec.ofNat 8 s.header :: packBits s.rbsp := by
  have hheader : BitVec.ofNat 8 s.header ≠ 0 := by
    have hlt := s.nalRefIdc.isLt
    rw [Ne, ← BitVec.toNat_inj, BitVec.toNat_ofNat, Nat.mod_eq_of_lt s.header_lt]
    unfold header
    exact Nat.succ_ne_zero _
  have hremoved : removeEmulationPreventionBytes (preventEmulation 0 (packBits s.rbsp)) = packBits s.rbsp :=
    remove_prevent (packBits s.rbsp) 0 (by decide)
  exact (remove_nonzero hheader _).trans (congrArg _ hremoved)

theorem nal_length : ¬s.nal.length < 4 := by
  obtain ⟨hmod, hlen⟩ := s.rbsp_length
  have hbits := bytesBits_length (packBits s.rbsp)
  have hprevent := preventEmulation_length (packBits s.rbsp) 0
  have hnal : s.nal.length = (preventEmulation 0 (packBits s.rbsp)).length + 1 := rfl
  rw [bytesBits_pack _ hmod] at hbits
  omega

theorem nal_left : BitReader.left { data := BitVec.ofNat 8 s.header :: packBits s.rbsp } = bitsOf 8 s.header ++ s.rbsp := by
  have hbits := slice_bitAt (BitVec.ofNat 8 s.header :: packBits s.rbsp)
  have hheader : (BitVec.ofNat 8 s.header).toNat = s.header := by
    rw [BitVec.toNat_ofNat, Nat.mod_eq_of_lt s.header_lt]
  unfold bytesBits at hbits
  rw [flatMap_cons, hheader] at hbits
  exact hbits.trans (congrArg _ (bytesBits_pack _ s.rbsp_length.1))

def uncutHeight : Int :=
  16 * (s.fields * (s.picHeightInMapUnitsMinus1 + 1) : Nat) - ((if s.chromaArrayType = 0 then 1 else s.subHeightC) * s.cropVertical : Nat)

end SpsSyntax

theorem toInt_crop {a b k : Nat} (ha : a < 2 ^ 16) (hb : b < 2 ^ 16) (hk : k ≤ 2) {unit : BitVec 32} (hunit : unit.toNat = k) :
    ((BitVec.ofNat 32 a + BitVec.ofNat 32 b) * unit).toInt = (k * (a + b) : Nat) := by
  have hle : k * (a + b) ≤ 2 * (a + b) := Nat.mul_le_mul_right _ hk
  have hsum : (BitVec.ofNat 32 a + BitVec.ofNat 32 b).toNat = a + b := by
    rw [BitVec.toNat_add, BitVec.toNat_ofNat, BitVec.toNat_ofNat]
    omega
  have hnat : ((BitVec.ofNat 32 a + BitVec.ofNat 32 b) * unit).toNat = k * (a + b) := by
    rw [BitVec.toNat_mul, hsum, hunit, Nat.mul_comm, Nat.mod_eq_of_lt (by omega)]
  rw [BitVec.toInt_eq_toNat_cond, hnat, if_pos (by omega)]

theorem toInt_size {v k : Nat} (hv : v < 2 ^ 16) (hk : k ≤ 2) {factor : BitVec 32} (hfactor : factor.toNat = k) :
    (factor * (BitVec.ofNat 32 v + 1) * 16).toInt = 16 * (k * (v + 1) : Nat) := by
  have hle : k * (v + 1) ≤ 2 * (v + 1) := Nat.mul_le_mul_right _ hk
  have hone : (1 : BitVec 32).toNat = 1 := rfl
  have hsixteen : (16 : BitVec 32).toNat = 16 := rfl
  have hsum : (BitVec.ofNat 32 v + 1).toNat = v + 1 := by
    rw [BitVec.toNat_add, BitVec.toNat_ofNat, hone]
    omega
  have hnat : (factor * (BitVec.ofNat 32 v + 1) * 16).toNat = k * (v + 1) * 16 := by
    rw [BitVec.toNat_mul, BitVec.toNat_mul, hsum, hfactor, hsixteen, Nat.mod_eq_of_lt (by omega), Nat.mod_eq_of_lt (by omega)]
  rw [BitVec.toInt_eq_toNat_cond, hnat, if_pos (by omega)]
  omega

theorem cropUnits : ∀ c ≤ 3, ∀ separate : Bool, (separate = true → c = 3) →
    ((if (if separate then 0 else BitVec.ofNat 32 c) = 1 ∨ (if separate then 0 else BitVec.ofNat 32 c) = 2 then 2 else 1 : BitVec 32).toNat =
        if (if separate then 0 else c) = 0 then 1 else if c = 3 then 1 else 2) ∧
      (if (if separate then 0 else BitVec.ofNat 32 c) = 1 then 2 else 1 : BitVec 32).toNat =
        if (if separate then 0 else c) = 0 then 1 else if c = 1 then 2 else 1 := by
  decide

theorem crop_eq : ∃ l r t b : Ue, s.crop = ⟨BitVec.ofNat 32 l, BitVec.ofNat 32 r, BitVec.ofNat 32 t, BitVec.ofNat 32 b⟩ ∧
    s.cropHorizontal = l + r ∧ s.cropVertical = t + b := by
  unfold SpsSyntax.crop SpsSyntax.cropHorizontal SpsSyntax.cropVertical
  cases s.cropping with
  | none => exact ⟨⟨0, by decide⟩, ⟨0, by decide⟩, ⟨0, by decide⟩, ⟨0, by decide⟩, rfl, rfl, rfl⟩
  | some c => exact ⟨c.left, c.right, c.top, c.bottom, rfl, rfl, rfl⟩

theorem chroma_eq :
    ∃ separate : Bool, (decide s.isHigh && (decide (s.high.chromaFormatIdc.val = 3) && s.high.separateColourPlane)) = separate ∧
      s.chromaFormatIdc ≤ 3 ∧ (separate = true → s.chromaFormatIdc = 3) ∧
      s.chromaArrayType = if separate then 0 else s.chromaFormatIdc := by
  have hle := s.high.chroma_le
  refine ⟨_, rfl, ?_, ?_, ?_⟩
  · unfold SpsSyntax.chromaFormatIdc
    split
    · exact hle
    · decide
  · intro hseparate
    simp only [Bool.and_eq_true, decide_eq_true_eq] at hseparate
    exact (if_pos hseparate.1).trans hseparate.2.1
  · unfold SpsSyntax.chromaArrayType
    exact if_congr (by simp) rfl rfl

theorem dimensions_eq : dimensions (BitVec.ofNat 32 s.chromaFormatIdc) (decide s.isHigh && (decide (s.high.chromaFormatIdc.val =
    3) && s.high.separateColourPlane)) (BitVec.ofNat 32 s.picWidthInMbsMinus1.val + 1)
    (BitVec.ofNat 32 s.picHeightInMapUnitsMinus1.val + 1) (if s.frameMbsOnly then 1 else 0) s.crop =
    (s.width, s.uncutHeight) := by
  obtain ⟨l, r, t, b, hcrop, hhorizontal, hvertical⟩ := crop_eq s
  obtain ⟨separate, hseparate, hle, hthree, hchroma⟩ := chroma_eq s
  obtain ⟨hunitX, hunitY⟩ := cropUnits s.chromaFormatIdc hle separate hthree
  rw [← hchroma] at hunitX hunitY
  have hfields : (2 - (if s.frameMbsOnly then 1 else 0) : BitVec 32).toNat = s.fields := by
    unfold SpsSyntax.fields
    cases s.frameMbsOnly <;> rfl
  have hfew : s.fields ≤ 2 := by
    unfold SpsSyntax.fields
    split <;> decide
  have hwidth := toInt_size s.picWidthInMbsMinus1.property (by decide : 1 ≤ 2) (rfl : (1 : BitVec 32).toNat = 1)
  have hone : 1 * (BitVec.ofNat 32 s.picWidthInMbsMinus1.val + 1) = BitVec.ofNat 32 s.picWidthInMbsMinus1.val + 1 :=
    BitVec.one_mul _
  rw [hone, Nat.one_mul] at hwidth
  unfold dimensions SpsSyntax.width SpsSyntax.uncutHeight SpsSyntax.cropUnitX SpsSyntax.subWidthC SpsSyntax.subHeightC
  rw [hseparate, hcrop, hhorizontal, hvertical]
  dsimp only
  rw [hwidth, toInt_size s.picHeightInMapUnitsMinus1.property hfew hfields, toInt_crop l.property r.property (by split <;> [decide; (split <;> decide)]) hunitX,
    toInt_crop t.property b.property (by split <;> [decide; (split <;> decide)]) hunitY]

theorem heights : ∃ unit, 0 < unit ∧ s.height = 16 * (s.fields * (s.picHeightInMapUnitsMinus1 + 1) : Nat) - (unit * s.cropVertical
    * s.fields : Nat) ∧ s.uncutHeight = 16 * (s.fields * (s.picHeightInMapUnitsMinus1 + 1) : Nat) - (unit * s.cropVertical :
    Nat) := by
  refine ⟨if s.chromaArrayType = 0 then 1 else s.subHeightC, ?_, ?_, rfl⟩
  · unfold SpsSyntax.subHeightC
    split
    · decide
    · split <;> decide
  · unfold SpsSyntax.height SpsSyntax.cropUnitY
    rw [Nat.mul_right_comm]

theorem fields_cases : s.frameMbsOnly = true ∧ s.fields = 1 ∨ s.frameMbsOnly = false ∧ s.fields = 2 := by
  unfold SpsSyntax.fields
  cases s.frameMbsOnly with
  | true => exact .inl ⟨rfl, rfl⟩
  | false => exact .inr ⟨rfl, rfl⟩

theorem height_eq_iff : s.uncutHeight = s.height ↔ s.frameMbsOnly = true ∨ s.cropVertical = 0 := by
  obtain ⟨unit, hunit, hheight, huncut⟩ := heights s
  rw [hheight, huncut]
  rcases fields_cases s with ⟨hframe, hfields⟩ | ⟨hframe, hfields⟩
  · rw [hfields, hframe, Nat.mul_one (unit * _)]
    exact iff_of_true rfl (.inl rfl)
  · rw [hfields, hframe, or_iff_right (by simp)]
    have hzero : unit * s.cropVertical = 0 ↔ s.cropVertical = 0 := by
      rw [Nat.mul_eq_zero, or_iff_right (by omega)]
    rw [← hzero]
    omega

theorem height_le : s.height ≤ s.uncutHeight := by
  obtain ⟨unit, -, hheight, huncut⟩ := heights s
  rw [hheight, huncut]
  rcases fields_cases s with ⟨-, hfields⟩ | ⟨-, hfields⟩
  · rw [hfields]
    omega
  · rw [hfields]
    omega

theorem parse_nal (s : Sps) (hcycle : s.pocType.cycle ≤ 256) : parseH264SpsDimensions s.nal = some (s.width, s.uncutHeight) := by
  obtain ⟨r, hrun, -⟩ := takes_sps s.toSpsSyntax hcycle s.header_lt { data := BitVec.ofNat 8 s.header :: packBits s.rbsp }
    (s.vui ++ rbspTrailingBits (s.dataBits.length + s.vui.length)) (s.nal_left.trans (append_assoc _ _ _).symm)
  have hheight := height_le s.toSpsSyntax
  have hpos := s.height_pos
  have hwidth := s.width_pos
  unfold parseH264SpsDimensions
  rw [if_neg s.nal_length, s.removed_nal, hrun, dimensions_eq]
  dsimp only
  rw [if_neg (by omega)]

/-- **A set is read with the standard's dimensions exactly where nothing is cropped from fields at the top and the bottom**, as long as its
cycle has not more than the 256 offsets that are read.

A known deviation: the unit of vertical cropping lacks the factor of field coding. -/
theorem sps_dimensions (s : Sps) : (s.pocType.cycle ≤ 256 ∧ (s.frameMbsOnly = true ∨ s.cropVertical = 0) → parseH264SpsDimensions
    s.nal = some (s.width, s.height)) ∧ (parseH264SpsDimensions s.nal = some (s.width, s.height) → 256 < s.pocType.cycle ∨
    s.frameMbsOnly = true ∨ s.cropVertical = 0) := by
  constructor
  · rintro ⟨hcycle, hwhole⟩
    rw [parse_nal s hcycle, (height_eq_iff s.toSpsSyntax).2 hwhole]
  · intro hparse
    rcases Nat.lt_or_ge 256 s.pocType.cycle with hlong | hcycle
    · exact .inl hlong
    · rw [parse_nal s hcycle] at hparse
      exact .inr ((height_eq_iff s.toSpsSyntax).1 (Prod.mk.inj (Option.some.inj hparse)).2)

theorem zero_lt_ue : 0 < 2 ^ 16 := by decide

theorem one_lt_ue : 1 < 2 ^ 16 := by decide

def fieldSps : SpsSyntax where
  nalRefIdc := 3
  profileIdc := 77
  constraints := 0
  levelIdc := 40
  id := ⟨0, zero_lt_ue⟩
  high :=
    { chromaFormatIdc := ⟨1, one_lt_ue⟩
      chroma_le := by decide
      separateColourPlane := false
      bitDepthLumaMinus8 := ⟨0, zero_lt_ue⟩
      bitDepthChromaMinus8 := ⟨0, zero_lt_ue⟩
      bypass := false
      scalingMatrix := none }
  log2MaxFrameNumMinus4 := ⟨0, zero_lt_ue⟩
  pocType := .type0 ⟨2, by decide⟩
  maxNumRefFrames := ⟨4, by decide⟩
  gapsAllowed := false
  picWidthInMbsMinus1 := ⟨119, by decide⟩
  picHeightInMapUnitsMinus1 := ⟨33, by decide⟩
  frameMbsOnly := false
  mbAdaptive := true
  direct8x8 := true
  cropping := some ⟨⟨0, zero_lt_ue⟩, ⟨0, zero_lt_ue⟩, ⟨0, zero_lt_ue⟩, ⟨2, by decide⟩⟩
  vui := [false]

theorem field_crop_lost : 0 < fieldSps.width ∧ 0 < fieldSps.height ∧ (fieldSps.width, fieldSps.height) = (1920, 1080) ∧
    parseH264SpsDimensions fieldSps.nal = some (1920, 1084) := by
  decide +kernel

end MoqLiveCast
