import MoqLiveCast.Lib.Reading
import MoqLiveCast.Rtmp.ChunkStream
/-!
# NalParse — the parsers of NAL units and of decoder configurations (`format/h264_h265_header.cpp`)

Lengths of four and of two bytes stand before the units they are about.  The end of the data is an address, which sums of positions
do not go round.
-/
namespace MoqLiveCast

open Reading

def readNumber (i n : Nat) : Reading Byte Nat := do
  let bytes ← cells i n
  return readNBytes bytes

/-! ## Units with their lengths -/

def kMaxLen : Nat := 10 * 1000 * 1000

/-- The loop of `Avcc2Nalus` from `p` on: what it returns and the units with a start code, or nothing when it is not at its end. -/
def avccLoop : Nat → Nat → Int → List (List Byte) → Reading Byte (Option (Bool × List (List Byte)))
  | 0, _, _, _ => return none
  | n + 1, p, dataLen, nalus => do
    if dataLen ≤ 0 then return some (true, nalus)
    else
      let naluLen ← readNumber p 4
      if kMaxLen < naluLen then return some (false, nalus)
      else
        let nalu ← cells (p + 4) naluLen
        avccLoop n (p + 4 + naluLen) (dataLen - 4 - naluLen) (nalus ++ [0 :: 0 :: 0 :: 1 :: nalu])

/-- `Avcc2Nalus`; the length is looked at as an `int64_t`. -/
def avcc2Nalus (len : BitVec 64) : Reading Byte (Option (Bool × List (List Byte))) := do
  if len.toNat < 4 then return some (false, [])
  else avccLoop len.toNat 0 len.toInt []

/-! ## The configuration of H.264 -/

def avcMarked (extraLen : Nat) : Reading Byte Bool := do
  if extraLen ≤ 4 then return true
  else
    let b4 ← cell 4
    if b4 ≠ 0xff then return false
    else
      let b5 ← cell 5
      return decide (b5 = 0xe1)

/-- `GetSpsPpsFromExtraData`: what is copied to `sps` and `pps`, or -1. -/
def getSpsPpsFromExtraData (extraLen : Nat) : Reading Byte (Option (List Byte × List Byte)) := do
  if extraLen = 0 then return none
  else
    if ← avcMarked extraLen then
      let spsLen ← readNumber 6 2
      let sps ← cells 8 spsLen
      let ppsLen ← readNumber (9 + spsLen) 2
      let pps ← cells (11 + spsLen) ppsLen
      return some (sps, pps)
    else return none

/-! ## The configuration of H.265 -/

structure HevcNalUnit where
  arrayCompleteness : Nat
  nalUnitType : Nat
  numNalus : Nat
  nalDataVec : List (List Byte)
deriving DecidableEq

structure HevcDecConfRecord where
  configurationVersion : Nat
  generalProfileSpace : Nat
  generalTierFlag : Nat
  generalProfileIdc : Nat
  generalProfileCompatibilityFlags : Nat
  generalConstraintIndicatorFlags : Nat
  generalLevelIdc : Nat
  minSpatialSegmentationIdc : Nat
  parallelismType : Nat
  chromaFormat : Nat
  bitdepthLumaminus8 : Nat
  bitdepthChromaminus8 : Nat
  avgFramerate : Nat
  constantFrameRate : Nat
  numTemporallayers : Nat
  temporalidNested : Nat
  lengthsizeMinusone : Nat
  naluVec : List HevcNalUnit
deriving DecidableEq

def hevcNalus (stop : Nat) : Nat → Nat → Reading Byte (Option (List (List Byte) × Nat))
  | 0, p => return some ([], p)
  | n + 1, p => do
    let nalUnitLength ← readNumber p 2
    if stop < p + 2 + nalUnitLength then return none
    else
      let data ← cells (p + 2) nalUnitLength
      match ← hevcNalus stop n (p + 2 + nalUnitLength) with
      | none => return none
      | some (rest, q) => return some (data :: rest, q)

def hevcArrays (stop : Nat) : Nat → Nat → Reading Byte (Option (List HevcNalUnit))
  | 0, _ => return some []
  | n + 1, p => do
    if stop < p + 5 then return none
    else
      let kind ← cell p
      let numNalus ← readNumber (p + 1) 2
      match ← hevcNalus stop numNalus (p + 3) with
      | none => return none
      | some (nalDataVec, q) =>
        match ← hevcArrays stop n q with
        | none => return none
        | some rest => return some (⟨kind.toNat / 128, kind.toNat % 64, numNalus, nalDataVec⟩ :: rest)

def getHevcDecInfoFromExtradata (extraLen : Nat) : Reading Byte (Option HevcDecConfRecord) := do
  let version ← cell 0
  if version ≠ 1 then return none
  else
    let profile ← cell 1
    let compatibility ← readNumber 2 4
    let constraint ← readNumber 6 4
    let constraintLow ← readNumber 10 2
    let level ← cell 12
    let segmentation ← readNumber 13 2
    let parallelism ← cell 15
    let chroma ← cell 16
    let luma ← cell 17
    let chromaDepth ← cell 18
    let framerate ← readNumber 19 2
    let flags ← cell 21
    let arraysNum ← cell 22
    match ← hevcArrays extraLen arraysNum.toNat 23 with
    | none => return none
    | some naluVec =>
      return some
        { configurationVersion := version.toNat
          generalProfileSpace := profile.toNat / 64
          generalTierFlag := profile.toNat / 32 % 2
          generalProfileIdc := profile.toNat % 32
          generalProfileCompatibilityFlags := compatibility
          generalConstraintIndicatorFlags := constraint * 65536 + constraintLow
          generalLevelIdc := level.toNat
          minSpatialSegmentationIdc := segmentation % 4096
          parallelismType := parallelism.toNat % 4
          chromaFormat := chroma.toNat % 4
          bitdepthLumaminus8 := luma.toNat % 8
          bitdepthChromaminus8 := chromaDepth.toNat % 8
          avgFramerate := framerate
          constantFrameRate := flags.toNat / 64
          numTemporallayers := flags.toNat / 8 % 8
          temporalidNested := flags.toNat / 4 % 2
          lengthsizeMinusone := flags.toNat % 4
          naluVec }

def NAL_UNIT_VPS : Nat := 32
def NAL_UNIT_SPS : Nat := 33
def NAL_UNIT_PPS : Nat := 34

/-- The parameter sets that are copied out, and each copy that is made to `vps`, `sps` or `pps`. -/
structure ParamSets where
  vps : List Byte := []
  sps : List Byte := []
  pps : List Byte := []
  copied : List (List Byte) := []

/-- The first unit of an array, for a kind of parameter set; `none` where the array has none. -/
def copyParamSet (sets : ParamSets) (unit : HevcNalUnit) : Option ParamSets :=
  if unit.nalUnitType = NAL_UNIT_VPS then
    unit.nalDataVec.head?.map fun d => { sets with vps := d, copied := sets.copied ++ [d] }
  else if unit.nalUnitType = NAL_UNIT_SPS then
    unit.nalDataVec.head?.map fun d => { sets with sps := d, copied := sets.copied ++ [d] }
  else if unit.nalUnitType = NAL_UNIT_PPS then
    unit.nalDataVec.head?.map fun d => { sets with pps := d, copied := sets.copied ++ [d] }
  else some sets

/-- `GetVpsSpsPpsFromHevcDecInfo`: what it returns, and what was copied; `none` where it looks into a list of units that is empty. -/
def getVpsSpsPpsFromHevcDecInfo (info : HevcDecConfRecord) : Option (Int × ParamSets) :=
  (info.naluVec.foldlM copyParamSet {}).map fun sets =>
    (if sets.vps = [] ∨ sets.sps = [] ∨ sets.pps = [] then -1 else 0, sets)

/-! ## Which decoder configurations and units are parsed in bounds -/

open Reading

def PARAM_SET_SIZE : Nat := 1024

/-! ## What is safe -/

section

variable (mem : Nat → Byte)

/-- `GetSpsPpsFromExtraData` reads only the data, and what it copies has room. -/
def SpsPpsSafe (len : Nat) : Prop :=
  (getSpsPpsFromExtraData len).Inside len mem ∧
    ∀ sets ∈ (getSpsPpsFromExtraData len).run mem, sets.1.length ≤ PARAM_SET_SIZE ∧ sets.2.length ≤ PARAM_SET_SIZE

/-- `GetHevcDecInfoFromExtradata` reads only the data, and `GetVpsSpsPpsFromHevcDecInfo` then looks into no empty list and has room for
what it copies. -/
def HevcSafe (len : Nat) : Prop :=
  (getHevcDecInfoFromExtradata len).Inside len mem ∧
    ∀ info ∈ (getHevcDecInfoFromExtradata len).run mem,
      ∃ ret sets, getVpsSpsPpsFromHevcDecInfo info = some (ret, sets) ∧ ∀ d ∈ sets.copied, d.length ≤ PARAM_SET_SIZE

/-- `Avcc2Nalus` reads only the data and comes to its end. -/
def AvccSafe (len : BitVec 64) : Prop :=
  (avcc2Nalus len).Inside len.toNat mem ∧ (avcc2Nalus len).run mem ≠ none

/-! ## The conditions -/

/-- The data is empty, has another mark, or holds both lengths and what they say, of 1024 bytes at most. -/
def SpsPpsFits (len : Nat) : Prop :=
  len = 0 ∨ 4 < len ∧ (mem 4 ≠ 0xff ∨ 5 < len ∧ (mem 5 ≠ 0xe1 ∨
    11 + readNBytes (slice mem 6 2) + readNBytes (slice mem (9 + readNBytes (slice mem 6 2)) 2) ≤ len ∧
      readNBytes (slice mem 6 2) ≤ PARAM_SET_SIZE ∧
      readNBytes (slice mem (9 + readNBytes (slice mem 6 2)) 2) ≤ PARAM_SET_SIZE))

def lengthAt (p : Nat) : Nat := readNBytes (slice mem p 2)

def NalusFit (stop : Nat) : Nat → Nat → Prop
  | 0, _ => True
  | n + 1, p => p + 2 ≤ stop ∧ (p + 2 + lengthAt mem p ≤ stop → NalusFit stop n (p + 2 + lengthAt mem p))

def nalusEnd (stop : Nat) : Nat → Nat → Option Nat
  | 0, p => some p
  | n + 1, p => if p + 2 + lengthAt mem p ≤ stop then nalusEnd stop n (p + 2 + lengthAt mem p) else none

def ArraysFit (stop : Nat) : Nat → Nat → Prop
  | 0, _ => True
  | n + 1, p => p + 5 ≤ stop →
    NalusFit mem stop (lengthAt mem (p + 1)) (p + 3) ∧ ∀ q ∈ nalusEnd mem stop (lengthAt mem (p + 1)) (p + 3), ArraysFit stop n q

def ArraysWhole (stop : Nat) : Nat → Nat → Prop
  | 0, _ => True
  | n + 1, p => p + 5 ≤ stop ∧ ∃ q ∈ nalusEnd mem stop (lengthAt mem (p + 1)) (p + 3), ArraysWhole stop n q

def IsParamSet (kind : Nat) : Prop := kind = NAL_UNIT_VPS ∨ kind = NAL_UNIT_SPS ∨ kind = NAL_UNIT_PPS

instance (kind : Nat) : Decidable (IsParamSet kind) := inferInstanceAs (Decidable (_ ∨ _ ∨ _))

/-- An array of parameter sets has one, and the first is of 1024 bytes at most. -/
def ParamSetsFit (stop : Nat) : Nat → Nat → Prop
  | 0, _ => True
  | n + 1, p => (IsParamSet ((mem p).toNat % 64) → 0 < lengthAt mem (p + 1) ∧ lengthAt mem (p + 3) ≤ PARAM_SET_SIZE) ∧
    ∀ q ∈ nalusEnd mem stop (lengthAt mem (p + 1)) (p + 3), ParamSetsFit stop n q

/-- There is a byte, and where that is 1 the fixed part is there and the arrays fit, with their parameter sets if they are whole. -/
def HevcFits (len : Nat) : Prop :=
  0 < len ∧ (mem 0 = 1 → 23 ≤ len ∧ ArraysFit mem len (mem 22).toNat 23 ∧
    (ArraysWhole mem len (mem 22).toNat 23 → ParamSetsFit mem len (mem 22).toNat 23))

/-- Each unit has its length of four bytes, and is there unless that is larger than 10,000,000. -/
def AvccFits (stop : Nat) : Nat → Nat → Prop
  | 0, _ => True
  | n + 1, p => p < stop → p + 4 ≤ stop ∧ (kMaxLen < readNBytes (slice mem p 4) ∨
    p + 4 + readNBytes (slice mem p 4) ≤ stop ∧ AvccFits stop n (p + 4 + readNBytes (slice mem p 4)))

end

/-! ## Reading -/

section

variable {mem : Nat → Byte} {stop : Nat}

@[simp] theorem run_readNumber (i n : Nat) : (readNumber i n).run mem = readNBytes (slice mem i n) := by
  unfold readNumber
  rw [run_bind, run_cells, run_pure]

theorem inside_readNumber (i : Nat) {n : Nat} (hpos : 0 < n) : (readNumber i n).Inside stop mem ↔ i + n ≤ stop := by
  unfold readNumber
  rw [inside_bind, inside_cells mem stop i n hpos, and_iff_left (inside_pure mem stop _)]

theorem inside_cells_or (i n : Nat) : (cells i n : Reading Byte (List Byte)).Inside stop mem ↔ n = 0 ∨ i + n ≤ stop := by
  rcases Nat.eq_zero_or_pos n with rfl | hpos
  · exact iff_of_true trivial (.inl rfl)
  · rw [inside_cells mem stop i n hpos, or_iff_right (by omega)]

/-! ## H.264 -/

theorem inside_avcMarked (len : Nat) : (avcMarked len).Inside len mem ↔ 4 < len → mem 4 = 0xff → 5 < len := by
  unfold avcMarked
  by_cases hlen : len ≤ 4
  · rw [if_pos hlen]
    exact iff_of_true trivial fun h => absurd h (by omega)
  · rw [if_neg hlen, inside_bind, inside_cell, run_cell, imp_iff_right (by omega : 4 < len)]
    by_cases hmark : mem 4 = 0xff
    · rw [if_neg (not_not.2 hmark), inside_bind, inside_cell, imp_iff_right hmark, and_iff_right (by omega),
        and_iff_left (inside_pure mem len _)]
    · rw [if_pos hmark]
      exact iff_of_true ⟨by omega, trivial⟩ fun h => absurd h hmark

theorem run_avcMarked (len : Nat) : (avcMarked len).run mem = true ↔ len ≤ 4 ∨ mem 4 = 0xff ∧ mem 5 = 0xe1 := by
  unfold avcMarked
  by_cases hlen : len ≤ 4
  · rw [if_pos hlen]
    exact iff_of_true rfl (.inl hlen)
  · rw [if_neg hlen, run_bind, run_cell, or_iff_right hlen]
    by_cases hmark : mem 4 = 0xff
    · rw [if_neg (not_not.2 hmark), run_bind, run_cell, run_pure, decide_eq_true_iff, and_iff_right hmark]
    · rw [if_pos hmark]
      exact iff_of_false (by simp) fun h => hmark h.1

theorem inside_sets (len : Nat) :
    (do
      let spsLen ← readNumber 6 2
      let sps ← cells 8 spsLen
      let ppsLen ← readNumber (9 + spsLen) 2
      let pps ← cells (11 + spsLen) ppsLen
      return some (sps, pps) : Reading Byte (Option (List Byte × List Byte))).Inside len mem ↔
        11 + readNBytes (slice mem 6 2) + readNBytes (slice mem (9 + readNBytes (slice mem 6 2)) 2) ≤ len := by
  simp only [inside_bind, run_readNumber, run_cells, inside_pure, and_true]
  rw [inside_readNumber _ (by decide), inside_readNumber _ (by decide), inside_cells_or, inside_cells_or]
  omega

theorem spsPps_iff (len : Nat) : SpsPpsSafe mem len ↔ SpsPpsFits mem len := by
  unfold SpsPpsSafe SpsPpsFits getSpsPpsFromExtraData
  by_cases hzero : len = 0
  · rw [if_pos hzero]
    exact iff_of_true ⟨trivial, fun sets hsets => nomatch hsets⟩ (.inl hzero)
  · rw [if_neg hzero, or_iff_right hzero, inside_bind, run_bind, inside_avcMarked]
    by_cases hmarked : (avcMarked len).run mem = true
    · rw [if_pos hmarked, inside_sets]
      have hcopied : ∀ sets : List Byte × List Byte, sets ∈ (do
          let spsLen ← readNumber 6 2
          let sps ← cells 8 spsLen
          let ppsLen ← readNumber (9 + spsLen) 2
          let pps ← cells (11 + spsLen) ppsLen
          return some (sps, pps) : Reading Byte (Option (List Byte × List Byte))).run mem ↔
            sets = (slice mem 8 (readNBytes (slice mem 6 2)),
              slice mem (11 + readNBytes (slice mem 6 2)) (readNBytes (slice mem (9 + readNBytes (slice mem 6 2)) 2))) := fun sets => by
        simp only [run_bind, run_readNumber, run_cells, run_pure, Option.mem_some_iff]
        exact eq_comm
      simp only [hcopied, forall_eq, slice_length]
      rw [run_avcMarked] at hmarked
      rcases hmarked with hshort | ⟨h4, h5⟩
      · exact iff_of_false (fun h => by omega) fun h => by omega
      · constructor
        · rintro ⟨⟨-, hinside⟩, hsizes⟩
          exact ⟨by omega, .inr ⟨by omega, .inr ⟨hinside, hsizes⟩⟩⟩
        · rintro ⟨hlen, hrest⟩
          obtain ⟨hlen', hrest⟩ := hrest.resolve_left (not_not.2 h4)
          obtain ⟨hinside, hsizes⟩ := hrest.resolve_left (not_not.2 h5)
          exact ⟨⟨fun _ _ => hlen', hinside⟩, hsizes⟩
    · rw [if_neg hmarked]
      rw [run_avcMarked, not_or, not_and] at hmarked
      obtain ⟨hlen, hother⟩ := hmarked
      refine Iff.trans ⟨fun h => h.1.1, fun h => ⟨⟨h, trivial⟩, fun sets hsets => nomatch hsets⟩⟩ ?_
      rw [imp_iff_right (by omega : 4 < len), and_iff_right (by omega : 4 < len)]
      by_cases hmark : mem 4 = 0xff
      · rw [imp_iff_right hmark, or_iff_right (not_not.2 hmark)]
        exact ⟨fun h => ⟨h, .inl (hother hmark)⟩, fun h => h.1⟩
      · exact iff_of_true (fun h => absurd h hmark) (.inl hmark)

/-! ## H.265 -/

theorem inside_hevcNalus : ∀ n p : Nat, (hevcNalus stop n p).Inside stop mem ↔ NalusFit mem stop n p
  | 0, _ => Iff.rfl
  | n + 1, p => by
    unfold hevcNalus NalusFit
    rw [inside_bind, inside_readNumber p (by decide), run_readNumber, ← lengthAt]
    apply and_congr_right
    intro hlength
    by_cases hend : p + 2 + lengthAt mem p ≤ stop
    · rw [if_neg (by omega), inside_bind, inside_cells_or, inside_bind, inside_hevcNalus, imp_iff_right hend,
        and_iff_right (.inr hend)]
      cases (hevcNalus stop n (p + 2 + lengthAt mem p)).run mem <;> exact and_iff_left trivial
    · rw [if_pos (by omega)]
      exact iff_of_true trivial fun h => absurd h hend

def unitsAt (mem : Nat → Byte) : Nat → Nat → List (List Byte)
  | 0, _ => []
  | n + 1, p => slice mem (p + 2) (lengthAt mem p) :: unitsAt mem n (p + 2 + lengthAt mem p)

theorem run_hevcNalus : ∀ n p : Nat,
    (hevcNalus stop n p).run mem = (nalusEnd mem stop n p).map fun q => (unitsAt mem n p, q)
  | 0, _ => rfl
  | n + 1, p => by
    unfold hevcNalus nalusEnd
    rw [run_bind, run_readNumber, ← lengthAt]
    by_cases hend : p + 2 + lengthAt mem p ≤ stop
    · rw [if_neg (by omega), if_pos hend, run_bind, run_cells, run_bind, run_hevcNalus]
      cases nalusEnd mem stop n (p + 2 + lengthAt mem p) <;> rfl
    · rw [if_pos (by omega), if_neg hend]
      rfl

def SetFits (unit : HevcNalUnit) : Prop :=
  IsParamSet unit.nalUnitType → ∃ d ∈ unit.nalDataVec.head?, d.length ≤ PARAM_SET_SIZE

theorem unitsAt_head (n p : Nat) :
    (∃ d ∈ (unitsAt mem n p).head?, d.length ≤ PARAM_SET_SIZE) ↔ 0 < n ∧ lengthAt mem p ≤ PARAM_SET_SIZE := by
  cases n with
  | zero => simp [unitsAt]
  | succ n => simp [unitsAt]

theorem inside_hevcArrays : ∀ n p : Nat, (hevcArrays stop n p).Inside stop mem ↔ ArraysFit mem stop n p
  | 0, _ => Iff.rfl
  | n + 1, p => by
    unfold hevcArrays ArraysFit
    by_cases hhead : p + 5 ≤ stop
    · rw [if_neg (by omega), imp_iff_right hhead, inside_bind, inside_cell, inside_bind, inside_readNumber _ (by decide), inside_bind,
        run_readNumber, ← lengthAt, inside_hevcNalus, run_hevcNalus, and_iff_right (by omega), and_iff_right (by omega)]
      apply and_congr_right
      intro _
      cases hq : nalusEnd mem stop (lengthAt mem (p + 1)) (p + 3) with
      | none => exact iff_of_true trivial fun q hq => nomatch hq
      | some q =>
        simp only [Option.map_some, inside_bind, inside_hevcArrays n q, Option.mem_some_iff, forall_eq']
        cases (hevcArrays stop n q).run mem <;> exact and_iff_left trivial
    · rw [if_pos (by omega)]
      exact iff_of_true trivial fun h => absurd h hhead

theorem run_hevcArrays : ∀ n p : Nat,
    match (hevcArrays stop n p).run mem with
    | none => ¬ArraysWhole mem stop n p
    | some units => ArraysWhole mem stop n p ∧ ((∀ unit ∈ units, SetFits unit) ↔ ParamSetsFit mem stop n p)
  | 0, _ => ⟨trivial, iff_of_true (fun _ h => nomatch h) trivial⟩
  | n + 1, p => by
    unfold hevcArrays ArraysWhole ParamSetsFit
    by_cases hhead : p + 5 ≤ stop
    · rw [if_neg (by omega), run_bind, run_cell, run_bind, run_readNumber, ← lengthAt, run_bind, run_hevcNalus]
      cases nalusEnd mem stop (lengthAt mem (p + 1)) (p + 3) with
      | none => exact fun h => nomatch h.2.choose_spec.1
      | some q =>
        have hrest := run_hevcArrays n q
        simp only [Option.map_some, run_bind]
        cases hunits : (hevcArrays stop n q).run mem with
        | none =>
          rw [hunits] at hrest
          rintro ⟨-, q', hq', hwhole⟩
          obtain rfl : q = q' := Option.some.inj hq'
          exact hrest hwhole
        | some units =>
          rw [hunits] at hrest
          obtain ⟨hwhole, hsets⟩ := hrest
          refine ⟨⟨hhead, q, rfl, hwhole⟩, ?_⟩
          rw [List.forall_mem_cons, hsets]
          refine and_congr ?_ ⟨fun h q' hq' => (Option.some.inj hq') ▸ h, fun h => h q rfl⟩
          unfold SetFits
          exact imp_congr_right fun _ => unitsAt_head _ _
    · rw [if_pos (by omega)]
      exact fun h => hhead h.1

theorem copyParamSet_set (sets : ParamSets) {unit : HevcNalUnit} (hkind : IsParamSet unit.nalUnitType) :
    ∃ f : List Byte → ParamSets, (∀ d, (f d).copied = sets.copied ++ [d]) ∧ copyParamSet sets unit = unit.nalDataVec.head?.map f := by
  unfold copyParamSet
  by_cases hvps : unit.nalUnitType = NAL_UNIT_VPS
  · rw [if_pos hvps]
    exact ⟨_, fun _ => rfl, rfl⟩
  · rw [if_neg hvps]
    by_cases hsps : unit.nalUnitType = NAL_UNIT_SPS
    · rw [if_pos hsps]
      exact ⟨_, fun _ => rfl, rfl⟩
    · rw [if_neg hsps, if_pos ((hkind.resolve_left hvps).resolve_left hsps)]
      exact ⟨_, fun _ => rfl, rfl⟩

theorem copyParamSet_other (sets : ParamSets) {unit : HevcNalUnit} (hkind : ¬IsParamSet unit.nalUnitType) :
    copyParamSet sets unit = some sets := by
  unfold IsParamSet at hkind
  push Not at hkind
  unfold copyParamSet
  rw [if_neg hkind.1, if_neg hkind.2.1, if_neg hkind.2.2]

theorem copied_iff : ∀ (units : List HevcNalUnit) (sets : ParamSets),
    (∃ sets' ∈ units.foldlM copyParamSet sets, ∀ d ∈ sets'.copied, d.length ≤ PARAM_SET_SIZE) ↔
      (∀ d ∈ sets.copied, d.length ≤ PARAM_SET_SIZE) ∧ ∀ unit ∈ units, SetFits unit
  | [], sets => by
    rw [List.foldlM_nil]
    simp
  | unit :: rest, sets => by
    rw [List.foldlM_cons, List.forall_mem_cons]
    by_cases hkind : IsParamSet unit.nalUnitType
    · obtain ⟨f, hcopied, hcopy⟩ := copyParamSet_set sets hkind
      rw [hcopy]
      cases hhead : unit.nalDataVec.head? with
      | none =>
        refine iff_of_false (fun ⟨_, h, _⟩ => nomatch h) fun h => ?_
        obtain ⟨d, hd, -⟩ := h.2.1 hkind
        rw [hhead] at hd
        exact nomatch hd
      | some d =>
        rw [Option.map_some, Option.bind_eq_bind, Option.bind_some, copied_iff rest (f d), hcopied]
        have hfits : SetFits unit ↔ d.length ≤ PARAM_SET_SIZE := by
          unfold SetFits
          rw [imp_iff_right hkind, hhead]
          simp
        rw [hfits, List.forall_mem_append, List.forall_mem_singleton, and_assoc]
    · rw [copyParamSet_other sets hkind, Option.bind_eq_bind, Option.bind_some, copied_iff rest sets]
      have hfits : SetFits unit := fun h => absurd h hkind
      rw [and_iff_right hfits]

theorem copies_iff (info : HevcDecConfRecord) : (∃ ret sets, getVpsSpsPpsFromHevcDecInfo info = some (ret, sets) ∧
    ∀ d ∈ sets.copied, d.length ≤ PARAM_SET_SIZE) ↔ ∀ unit ∈ info.naluVec, SetFits unit := by
  have hnone : ∀ d ∈ ({} : ParamSets).copied, d.length ≤ PARAM_SET_SIZE := fun d hd => nomatch hd
  refine Iff.trans ?_ ((copied_iff info.naluVec {}).trans (and_iff_right hnone))
  unfold getVpsSpsPpsFromHevcDecInfo
  constructor
  · rintro ⟨ret, sets, h, hsizes⟩
    obtain ⟨sets', hsets, heq⟩ := Option.map_eq_some_iff.1 h
    obtain rfl : sets' = sets := (Prod.mk.inj heq).2
    exact ⟨sets', hsets, hsizes⟩
  · rintro ⟨sets, hsets, hsizes⟩
    exact ⟨_, sets, Option.map_eq_some_iff.2 ⟨sets, hsets, rfl⟩, hsizes⟩

theorem hevc_iff (len : Nat) : HevcSafe mem len ↔ HevcFits mem len := by
  unfold HevcSafe HevcFits getHevcDecInfoFromExtradata
  rw [inside_bind, inside_cell, run_bind, run_cell]
  by_cases hversion : mem 0 = 1
  · rw [if_neg (not_not.2 hversion), imp_iff_right hversion]
    simp only [inside_bind, inside_cell, run_bind, run_cell, run_readNumber, inside_readNumber _ (by decide : 0 < 2),
      inside_readNumber _ (by decide : 0 < 4), inside_hevcArrays]
    have hrun := @run_hevcArrays mem len (mem 22).toNat 23
    cases hunits : (hevcArrays len (mem 22).toNat 23).run mem with
    | none =>
      rw [hunits] at hrun
      simp only [inside_pure, run_pure, Option.mem_def, reduceCtorEq, false_imp_iff, and_true, hrun]
      grind
    | some units =>
      rw [hunits] at hrun
      obtain ⟨hwhole, hsets⟩ := hrun
      simp only [inside_pure, run_pure, Option.mem_some_iff, forall_eq', copies_iff, hsets, imp_iff_right hwhole, and_true]
      grind
  · rw [if_pos hversion]
    exact ⟨fun h => ⟨h.1.1, fun h' => absurd h' hversion⟩, fun h => ⟨⟨h.1, trivial⟩, fun info hinfo => absurd hinfo (Option.not_mem_none info)⟩⟩

/-! ## Units with their lengths -/

theorem avccLoop_iff : ∀ (n p : Nat) (nalus : List (List Byte)), p ≤ stop → stop < p + 4 * n →
    ((avccLoop n p ((stop : Int) - p) nalus).Inside stop mem ∧ (avccLoop n p ((stop : Int) - p) nalus).run mem ≠ none ↔
      AvccFits mem stop n p)
  | 0, p, _, hle, hfuel => absurd hfuel (by omega)
  | n + 1, p, nalus, hle, hfuel => by
    unfold avccLoop AvccFits
    by_cases hleft : p < stop
    · rw [if_neg (by omega), imp_iff_right hleft, inside_bind, inside_readNumber p (by decide), run_bind, run_readNumber, and_assoc]
      apply and_congr_right
      intro hlength
      by_cases hlarge : kMaxLen < readNBytes (slice mem p 4)
      · rw [if_pos hlarge]
        exact iff_of_true ⟨trivial, by simp⟩ (.inl hlarge)
      · rw [if_neg hlarge, or_iff_right hlarge, inside_bind, inside_cells_or, run_bind, run_cells]
        have hrest : (stop : Int) - p - 4 - (readNBytes (slice mem p 4) : Nat) =
            (stop : Int) - (p + 4 + readNBytes (slice mem p 4) : Nat) := by omega
        rw [hrest]
        by_cases hthere : p + 4 + readNBytes (slice mem p 4) ≤ stop
        · have hcells : readNBytes (slice mem p 4) = 0 ∨ p + 4 + readNBytes (slice mem p 4) ≤ stop := .inr hthere
          rw [and_iff_right hcells, and_iff_right hthere]
          exact avccLoop_iff n _ _ hthere (by omega)
        · exact iff_of_false (fun h => by omega) fun h => hthere h.1
    · rw [if_pos (by omega)]
      exact iff_of_true ⟨trivial, by simp⟩ fun h => absurd h hleft

theorem avcc_iff (len : BitVec 64) :
    AvccSafe mem len ↔ len.toNat < 4 ∨ 2 ^ 63 ≤ len.toNat ∨ AvccFits mem len.toNat len.toNat 0 := by
  unfold AvccSafe avcc2Nalus
  by_cases hshort : len.toNat < 4
  · rw [if_pos hshort]
    exact iff_of_true ⟨trivial, by simp⟩ (.inl hshort)
  · rw [if_neg hshort, or_iff_right hshort]
    by_cases hsign : 2 ^ 63 ≤ len.toNat
    · have hneg : len.toInt ≤ 0 := by
        have hwidth := len.isLt
        rw [BitVec.toInt_eq_toNat_cond]
        omega
      obtain ⟨n, hn⟩ := Nat.exists_eq_add_of_lt (by omega : 0 < len.toNat)
      have hturns : len.toNat = n + 1 := by omega
      have hfirst : ∀ dataLen : Int, dataLen ≤ 0 → avccLoop (n + 1) 0 dataLen [] = pure (some (true, [])) := fun dataLen hle => if_pos hle
      rw [hturns, hfirst _ hneg]
      exact iff_of_true ⟨trivial, by simp⟩ (.inl (by omega))
    · have hint : len.toInt = (len.toNat : Int) - (0 : Nat) := by
        rw [BitVec.toInt_eq_toNat_cond]
        omega
      rw [or_iff_right hsign, hint]
      exact avccLoop_iff len.toNat 0 [] (by omega) (by omega)

/-- **The parsers of configurations and units are bounded** — they read the data only, write 1024 bytes at most to each buffer, look into
no empty list and end — exactly where the lengths that they do not compare are right. -/
theorem nal_parsers_bounded (mem : Nat → Byte) (len : BitVec 64) : (SpsPpsSafe mem len.toNat ↔ SpsPpsFits mem len.toNat) ∧
    (HevcSafe mem len.toNat ↔ HevcFits mem len.toNat) ∧ (AvccSafe mem len ↔ len.toNat < 4 ∨ 2 ^ 63 ≤ len.toNat ∨
    AvccFits mem len.toNat len.toNat 0) :=
  ⟨spsPps_iff len.toNat, hevc_iff len.toNat, avcc_iff len⟩

/-- An H.264 configuration of five bytes, an H.265 one whose only array is of kind 32 and has no units, and a length of 1 with nothing
behind it. -/
theorem nal_parsers_unbounded :
    ¬SpsPpsSafe (fun i => [0x01, 0x64, 0x00, 0x1f, 0xff].getD i 0) 5 ∧
      ¬HevcSafe (fun i => [1, 0, 0, 0, 0, 0, 0, 0, 0, 0, 0, 0, 0, 0, 0, 0, 0, 0, 0, 0, 0, 0, 1, 32, 0, 0, 0, 0].getD i 0) 28 ∧
      ¬AvccSafe (fun i => [0, 0, 0, 1].getD i 0) 4 := by
  rw [spsPps_iff, hevc_iff, avcc_iff]
  refine ⟨?_, ?_, ?_⟩
  · rintro (h | ⟨-, h | ⟨h, -⟩⟩)
    · simp at h
    · simp at h
    · omega
  · rintro ⟨-, h⟩
    obtain ⟨-, -, hsets⟩ := h rfl
    have hwhole : ArraysWhole (fun i => [1, 0, 0, 0, 0, 0, 0, 0, 0, 0, 0, 0, 0, 0, 0, 0, 0, 0, 0, 0, 0, 0, 1, 32, 0, 0, 0, 0].getD i 0)
        28 1 23 := ⟨by decide, 26, rfl, trivial⟩
    obtain ⟨hset, -⟩ := hsets hwhole
    exact absurd (hset (.inl rfl)).1 (by decide)
  · rintro (h | h | h)
    · exact absurd h (by decide)
    · exact absurd h (by decide)
    · obtain ⟨-, h⟩ := h (by decide)
      rcases h with h | ⟨h, -⟩
      · exact absurd h (by decide)
      · exact absurd h (by decide)

end

end MoqLiveCast
