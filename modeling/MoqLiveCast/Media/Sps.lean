import MoqLiveCast.Lib.Bits
import MoqLiveCast.Lib.Mem
/-!
# Sps — the dimensions of an H.264 stream (`format/h264_h265_header.cpp`)

The reader goes through a sequence parameter set bit by bit and keeps what the size of a picture depends on.  Over it is the syntax of the
standard: what a set says (`SpsSyntax`), its bits, and its dimensions.
-/
namespace MoqLiveCast

/-! ## The bits of the data -/

def removeEmulationPreventionBytes : List Byte → List Byte
  | 0#8 :: 0#8 :: 3#8 :: rest => 0 :: 0 :: removeEmulationPreventionBytes rest
  | b :: rest => b :: removeEmulationPreventionBytes rest
  | [] => []

structure BitReader where
  data : List Byte
  bitPos : Nat := 0

def BitReader.bits (r : BitReader) : Nat := r.data.length * 8

def bitAt (data : List Byte) (pos : Nat) : Bool := decide (data.getD (pos / 8) 0 &&& (0x80#8 >>> (pos % 8)) ≠ 0)

def readBits (n : Nat) : StateM BitReader (BitVec 32) := do
  let r ← get
  if r.bits < r.bitPos + n then return 0
  else
    set { r with bitPos := r.bitPos + n }
    return (List.range n).foldl (fun result i => if bitAt r.data (r.bitPos + i) then result ||| (1 : BitVec 32) <<< (n - 1 - i) else result) 0

/-- The loop of `ReadUe` behind some zeros, `none` for more than 32. -/
def leadingZeros : Nat → Nat → StateM BitReader (Option Nat)
  | 0, _ => return none
  | n + 1, zeros => do
    let r ← get
    if r.bitPos < r.bits then
      if (← readBits 1) = 0 then
        if 32 < zeros + 1 then return none else leadingZeros n (zeros + 1)
      else return some zeros
    else return some zeros

/-- `ReadUe`.  A shift by 32, which has no meaning there, gives 0. -/
def readUe : StateM BitReader (BitVec 32) := do
  match ← leadingZeros 33 0 with
  | none => return 0
  | some 0 => return 0
  | some zeros =>
    let value ← readBits zeros
    return ((1 : BitVec 32) <<< zeros) - 1 + value

def h264ReadSe : StateM BitReader Int := do
  let ue ← readUe
  let v := ((ue + 1) >>> 1).toInt
  return if ue &&& 1 ≠ 0 then v else -v

/-! ## The parser -/

def h264SkipScalingList : Nat → Int → Int → StateM BitReader Unit
  | 0, _, _ => return ()
  | n + 1, last, next => do
    if next ≠ 0 then
      let delta ← h264ReadSe
      let next := (last + delta + 256).tmod 256
      h264SkipScalingList n (if next ≠ 0 then next else last) next
    else h264SkipScalingList n last next

def skipScalingLists : Nat → Nat → StateM BitReader Unit
  | 0, _ => return ()
  | n + 1, i => do
    let present ← readBits 1
    if present ≠ 0 then h264SkipScalingList (if i < 6 then 16 else 64) 8 8
    skipScalingLists n (i + 1)

def HIGH_PROFILES : List Nat := [100, 110, 122, 244, 44, 83, 86, 118, 128, 138, 139, 134, 135]

def readSeparateColourPlane (chromaFormatIdc : BitVec 32) : StateM BitReader Bool :=
  if chromaFormatIdc = 3 then do
    let bit ← readBits 1
    return decide (bit ≠ 0)
  else return false

def readScalingMatrix (chromaFormatIdc : BitVec 32) : StateM BitReader Unit := do
  let present ← readBits 1
  if present ≠ 0 then skipScalingLists (if chromaFormatIdc ≠ 3 then 8 else 12) 0 else return ()

/-- What a high profile has: `chroma_format_idc` and `separate_colour_plane`. -/
def readHighProfile : StateM BitReader (BitVec 32 × Bool) := do
  let chromaFormatIdc ← readUe
  let separateColourPlane ← readSeparateColourPlane chromaFormatIdc
  let _ ← readUe
  let _ ← readUe
  let _ ← readBits 1
  readScalingMatrix chromaFormatIdc
  return (chromaFormatIdc, separateColourPlane)

def readChroma (profileIdc : BitVec 32) : StateM BitReader (BitVec 32 × Bool) :=
  if profileIdc.toNat ∈ HIGH_PROFILES then readHighProfile else return (1, false)

def skipOffsets : Nat → StateM BitReader Unit
  | 0 => return ()
  | n + 1 => do
    let _ ← h264ReadSe
    skipOffsets n

def readPocType : StateM BitReader Unit := do
  let pocType ← readUe
  if pocType = 0 then
    let _ ← readUe
  else if pocType = 1 then
    let _ ← readBits 1
    let _ ← h264ReadSe
    let _ ← h264ReadSe
    let cycle ← readUe
    skipOffsets (min cycle.toNat 256)

structure Crop where
  left : BitVec 32 := 0
  right : BitVec 32 := 0
  top : BitVec 32 := 0
  bottom : BitVec 32 := 0

def readMbAdaptive (frameMbsOnly : BitVec 32) : StateM BitReader Unit := do
  if frameMbsOnly = 0 then
    let _ ← readBits 1

def readCrop : StateM BitReader Crop := do
  let cropping ← readBits 1
  if cropping ≠ 0 then
    let left ← readUe
    let right ← readUe
    let top ← readUe
    let bottom ← readUe
    return { left, right, top, bottom }
  else return {}

/-- `w` and `h` from what was read; their differences are in range. -/
def dimensions (chromaFormatIdc : BitVec 32) (separateColourPlane : Bool) (widthMbs heightMapUnits frameMbsOnly : BitVec 32) (crop : Crop) :
    Int × Int :=
  let chromaArrayType := if separateColourPlane then 0 else chromaFormatIdc
  let subW : BitVec 32 := if chromaArrayType = 1 ∨ chromaArrayType = 2 then 2 else 1
  let subH : BitVec 32 := if chromaArrayType = 1 then 2 else 1
  ((widthMbs * 16).toInt - ((crop.left + crop.right) * subW).toInt,
    ((2 - frameMbsOnly) * heightMapUnits * 16).toInt - ((crop.top + crop.bottom) * subH).toInt)

def readSps : StateM BitReader (Int × Int) := do
  let _ ← readBits 8
  let profileIdc ← readBits 8
  let _ ← readBits 8
  let _ ← readBits 8
  let _ ← readUe
  let chroma ← readChroma profileIdc
  let _ ← readUe
  readPocType
  let _ ← readUe
  let _ ← readBits 1
  let picWidthInMbsMinus1 ← readUe
  let picHeightInMapUnitsMinus1 ← readUe
  let frameMbsOnly ← readBits 1
  readMbAdaptive frameMbsOnly
  let _ ← readBits 1
  let crop ← readCrop
  return dimensions chroma.1 chroma.2 (picWidthInMbsMinus1 + 1) (picHeightInMapUnitsMinus1 + 1) frameMbsOnly crop

def parseH264SpsDimensions (nalu : List Byte) : Option (Int × Int) :=
  if nalu.length < 4 then none
  else
    let (w, h) := (readSps.run { data := removeEmulationPreventionBytes nalu }).1
    if w ≤ 0 ∨ h ≤ 0 then none else some (w, h)

/-! ## The standard -/

abbrev Ue := { v : Nat // v < 2 ^ 16 }

abbrev Se := { v : Int // v.natAbs < 2 ^ 16 }

def ue (v : Ue) : List Bool := golomb v

def seNumber (v : Int) : Nat := if 0 < v then 2 * v.natAbs - 1 else 2 * v.natAbs

def se (v : Se) : List Bool := golomb (seNumber v)

/-- `scaling_list`, with its deltas as far as there are any. -/
def scalingListBits (deltas : Nat → Se) : Nat → Nat → Int → Int → List Bool
  | 0, _, _, _ => []
  | n + 1, j, lastScale, nextScale =>
    if nextScale ≠ 0 then
      let nextScale := (lastScale + deltas j + 256) % 256
      se (deltas j) ++ scalingListBits deltas n (j + 1) (if nextScale = 0 then lastScale else nextScale) nextScale
    else scalingListBits deltas n (j + 1) lastScale nextScale

def scalingListsBits (lists : Nat → Option (Nat → Se)) : Nat → Nat → List Bool
  | 0, _ => []
  | n + 1, i =>
    (match lists i with
      | none => [false]
      | some deltas => true :: scalingListBits deltas (if i < 6 then 16 else 64) 0 8 8) ++ scalingListsBits lists n (i + 1)

structure HighProfile where
  chromaFormatIdc : Ue
  chroma_le : chromaFormatIdc.val ≤ 3
  separateColourPlane : Bool
  bitDepthLumaMinus8 : Ue
  bitDepthChromaMinus8 : Ue
  bypass : Bool
  scalingMatrix : Option (Nat → Option (Nat → Se))

def HighProfile.bits (p : HighProfile) : List Bool :=
  ue p.chromaFormatIdc ++ ((if p.chromaFormatIdc.val = 3 then [p.separateColourPlane] else []) ++
    (ue p.bitDepthLumaMinus8 ++ (ue p.bitDepthChromaMinus8 ++ ([p.bypass] ++
      match p.scalingMatrix with
      | none => [false]
      | some lists => [true] ++ scalingListsBits lists (if p.chromaFormatIdc.val ≠ 3 then 8 else 12) 0))))

inductive PicOrderCnt where
  | type0 (log2MaxLsbMinus4 : Ue)
  | type1 (deltaAlwaysZero : Bool) (nonRefPic topToBottom : Se) (offsets : List Se) (short : offsets.length < 2 ^ 16)
  | other (type : Ue) (two_le : 2 ≤ type.val)

def PicOrderCnt.bits : PicOrderCnt → List Bool
  | .type0 lsb => ue ⟨0, by decide⟩ ++ ue lsb
  | .type1 deltaAlwaysZero nonRefPic topToBottom offsets h =>
    ue ⟨1, by decide⟩ ++ ([deltaAlwaysZero] ++ (se nonRefPic ++ (se topToBottom ++ (ue ⟨offsets.length, h⟩ ++ offsets.flatMap se))))
  | .other type _ => ue type

def PicOrderCnt.cycle : PicOrderCnt → Nat
  | .type1 _ _ _ offsets _ => offsets.length
  | _ => 0

structure Cropping where
  left : Ue
  right : Ue
  top : Ue
  bottom : Ue

structure SpsSyntax where
  nalRefIdc : Fin 4
  profileIdc : Byte
  constraints : Byte
  levelIdc : Byte
  id : Ue
  high : HighProfile
  log2MaxFrameNumMinus4 : Ue
  pocType : PicOrderCnt
  maxNumRefFrames : Ue
  gapsAllowed : Bool
  picWidthInMbsMinus1 : Ue
  picHeightInMapUnitsMinus1 : Ue
  frameMbsOnly : Bool
  mbAdaptive : Bool
  direct8x8 : Bool
  cropping : Option Cropping
  vui : List Bool

namespace SpsSyntax

variable (s : SpsSyntax)

def isHigh : Prop := s.profileIdc.toNat ∈ HIGH_PROFILES

instance : Decidable s.isHigh := inferInstanceAs (Decidable (_ ∈ _))

def cropBits : List Bool :=
  match s.cropping with
  | none => [false]
  | some c => [true] ++ (ue c.left ++ (ue c.right ++ (ue c.top ++ ue c.bottom)))

/-- `seq_parameter_set_data`, as far as the cropping. -/
def dataBits : List Bool :=
  bitsOf 8 s.profileIdc.toNat ++ (bitsOf 8 s.constraints.toNat ++ (bitsOf 8 s.levelIdc.toNat ++ (ue s.id ++
    ((if s.isHigh then s.high.bits else []) ++ (ue s.log2MaxFrameNumMinus4 ++ (s.pocType.bits ++ (ue s.maxNumRefFrames ++ ([s.gapsAllowed] ++
      (ue s.picWidthInMbsMinus1 ++ (ue s.picHeightInMapUnitsMinus1 ++ ([s.frameMbsOnly] ++
        ((if s.frameMbsOnly then [] else [s.mbAdaptive]) ++ ([s.direct8x8] ++ s.cropBits)))))))))))))

def chromaFormatIdc : Nat := if s.isHigh then s.high.chromaFormatIdc else 1

def chromaArrayType : Nat :=
  if s.isHigh ∧ s.high.chromaFormatIdc.val = 3 ∧ s.high.separateColourPlane then 0 else s.chromaFormatIdc

def subWidthC : Nat := if s.chromaFormatIdc = 3 then 1 else 2

def subHeightC : Nat := if s.chromaFormatIdc = 1 then 2 else 1

def fields : Nat := if s.frameMbsOnly then 1 else 2

def cropUnitX : Nat := if s.chromaArrayType = 0 then 1 else s.subWidthC

def cropUnitY : Nat := (if s.chromaArrayType = 0 then 1 else s.subHeightC) * s.fields

def cropHorizontal : Nat := (s.cropping.map fun c => c.left.val + c.right.val).getD 0

def cropVertical : Nat := (s.cropping.map fun c => c.top.val + c.bottom.val).getD 0

def width : Int := 16 * (s.picWidthInMbsMinus1 + 1 : Nat) - (s.cropUnitX * s.cropHorizontal : Nat)

def height : Int := 16 * (s.fields * (s.picHeightInMapUnitsMinus1 + 1) : Nat) - (s.cropUnitY * s.cropVertical : Nat)

end SpsSyntax

def rbspTrailingBits (n : Nat) : List Bool := true :: List.replicate (7 - n % 8) false

def packBits : List Bool → List Byte
  | b0 :: b1 :: b2 :: b3 :: b4 :: b5 :: b6 :: b7 :: rest => BitVec.ofNat 8 (valueOf [b0, b1, b2, b3, b4, b5, b6, b7]) :: packBits rest
  | _ => []

def preventEmulation : Nat → List Byte → List Byte
  | _, [] => []
  | zeros, b :: rest =>
    if 2 ≤ zeros ∧ b.toNat ≤ 3 then 3 :: b :: preventEmulation (if b = 0 then 1 else 0) rest
    else b :: preventEmulation (if b = 0 then zeros + 1 else 0) rest

def SpsSyntax.nal (s : SpsSyntax) : List Byte :=
  BitVec.ofNat 8 (s.nalRefIdc * 32 + 7) ::
    preventEmulation 0 (packBits (s.dataBits ++ (s.vui ++ rbspTrailingBits (s.dataBits.length + s.vui.length))))

structure Sps extends SpsSyntax where
  width_pos : 0 < toSpsSyntax.width
  height_pos : 0 < toSpsSyntax.height

end MoqLiveCast
