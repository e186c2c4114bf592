import MoqLiveCast.Lib.Mem
/-!
# PullTime — media packets, and the time line of a subscriber

A subscriber's time starts near the end of the cached group of pictures, and follows the packets' `dts_` unless that jumps
ahead: `MoqLiteEgress::EnsureBase`, `FrameTsUs`, and `MoqPushSession::EnsurePullTsBase`, `PullTs`, which do the same.
Times are `int64_t` milliseconds, taken not to overflow.
-/
namespace MoqLiveCast

inductive MediaType where
  | unknown | video | audio | movbox | metadata
deriving DecidableEq

/-- A `Media_Packet`; its body is an FLV tag's, and one without `buffer_ptr_` has none. -/
structure MediaPacket where
  avType : MediaType
  isSeqHdr : Bool
  isKeyFrame : Bool
  dts : Int
  pts : Int
  body : List Byte
deriving DecidableEq

structure PullClock where
  baseMs : Int := -1
  lastTsMs : Int := -1
deriving DecidableEq

def kGopEdgeWindowMs : Int := 30000

def kRebaseJumpMs : Int := 5000

def kAudioAheadMs : Int := 40

def lastVideoDts (gop : List MediaPacket) : Int :=
  gop.foldl (fun last p => if p.avType = .video ∧ p.isSeqHdr = false ∧ 0 < p.dts then p.dts else last) (-1)

def farFromEdge (lastV : Int) (p : MediaPacket) : Prop :=
  p.isSeqHdr = true ∨ p.dts ≤ 0 ∨ (0 ≤ lastV ∧ p.avType = .audio ∧ lastV + kAudioAheadMs < p.dts) ∨
    (0 ≤ lastV ∧ p.dts + kGopEdgeWindowMs < lastV)

instance (lastV : Int) (p : MediaPacket) : Decidable (farFromEdge lastV p) := by
  unfold farFromEdge
  infer_instance

def gopOrigin (gop : List MediaPacket) : Int :=
  let lastV := lastVideoDts gop
  let origin := gop.foldl (fun origin p =>
    if farFromEdge lastV p then origin else if origin < 0 ∨ p.dts < origin then p.dts else origin) (-1)
  if origin < 0 ∧ 0 ≤ lastV then lastV else origin

def PullClock.ensureBase (c : PullClock) (gop : List MediaPacket) : PullClock :=
  if 0 ≤ c.baseMs then c
  else
    let origin := gopOrigin gop
    if origin < 0 then c else { c with baseMs := origin }

/-- A packet's time, the clock after it, and whether the clock was set anew in the middle of the line. -/
structure Stamp where
  ts : Int
  clock : PullClock
  rebased : Bool
deriving DecidableEq

def notBelow0 (v : Int) : Int := if v < 0 then 0 else v

/-- `PullTs`; `FrameTsUs` is given no sequence headers. -/
def PullClock.stamp (c : PullClock) (p : MediaPacket) : Stamp :=
  let dts := notBelow0 p.dts
  if c.baseMs < 0 ∧ (p.isSeqHdr = true ∨ dts ≤ 0) then ⟨0, c, false⟩
  else
    let base := if c.baseMs < 0 then dts else c.baseMs
    let ts := notBelow0 (dts - base)
    if p.isSeqHdr then ⟨ts, { c with baseMs := base }, false⟩
    else if c.lastTsMs < 0 ∧ kRebaseJumpMs < ts then ⟨0, ⟨dts, 0⟩, false⟩
    else if 0 ≤ c.lastTsMs ∧ c.lastTsMs + kRebaseJumpMs < ts then
      let base := dts - (c.lastTsMs + 40)
      let ts := notBelow0 (dts - base)
      ⟨ts, ⟨base, ts⟩, true⟩
    else ⟨ts, ⟨base, ts⟩, false⟩

/-- `last_video_dts` and `last_audio_dts` of `SendGop`. -/
def lastDtsOf (t : MediaType) (gop : List MediaPacket) : Int :=
  gop.foldl (fun last p => if p.avType = t then p.dts else last) (-1)

/-! ## Packets made of bare frames (`format/flv/flv_tag_body.cpp`) -/

def FLV_VIDEO_KEY_FLAG : Byte := 0x10
def FLV_VIDEO_INTER_FLAG : Byte := 0x20
def FLV_VIDEO_H264_CODEC : Byte := 0x07
def FLV_VIDEO_AVC_SEQHDR : Byte := 0x00
def FLV_VIDEO_AVC_NALU : Byte := 0x01
def FLV_AUDIO_AAC_CODEC : Byte := 0xa0

def audioSequenceStart : Byte := 0

def audioCodedFrames : Byte := 1

def makeFlvVideoPacket (dtsMs : Int) (seq key : Bool) (data : List Byte) : MediaPacket where
  avType := .video
  isSeqHdr := seq
  isKeyFrame := !seq && key
  dts := dtsMs
  pts := dtsMs
  body := [(if seq || key then FLV_VIDEO_KEY_FLAG else FLV_VIDEO_INTER_FLAG) ||| FLV_VIDEO_H264_CODEC,
    if seq then FLV_VIDEO_AVC_SEQHDR else FLV_VIDEO_AVC_NALU, 0, 0, 0] ++ data

def makeFlvAudioPacket (dtsMs : Int) (seq : Bool) (data : List Byte) : MediaPacket where
  avType := .audio
  isSeqHdr := seq
  isKeyFrame := seq
  dts := dtsMs
  pts := dtsMs
  body := [FLV_AUDIO_AAC_CODEC ||| 0x0f, if seq then audioSequenceStart else audioCodedFrames] ++ data

end MoqLiveCast
