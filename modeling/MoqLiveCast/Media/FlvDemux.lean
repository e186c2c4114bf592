import Mathlib.Algebra.Ring.Int.Defs
import MoqLiveCast.Moq.PullTime
import MoqLiveCast.Rtmp.Amf0
/-!
# FlvDemux — FLV tags to packets (`format/flv/flv_demux.cpp`, `format/audio_header.cpp`)

The demuxer that keeps the media headers.  It goes on where it stopped when more bytes come: before the file's header, before a
tag's header, or behind it.  A tag that it rejects is taken off, but what is behind it waits for the next input.

An `assert` that fires and a byte that is read where there is none end everything (`crashed`).
-/
namespace MoqLiveCast

/-! ## Packets to FLV tags (`format/flv/flv_mux.cpp`)

The file's header is put before the first packet that is given, in the packet that is made of it. -/

inductive MediaCodec where
  | unknown | h264 | h265 | h266 | vp8 | vp9 | av1 | aac | opus | mp3
deriving DecidableEq

structure AudioInfo where
  ascType : Nat := 2
  sampleRate : Nat := 44100
  channel : Nat := 2
deriving DecidableEq

/-- A `Media_Packet` with its codec, and where its payload begins. -/
structure CodedPacket extends MediaPacket where
  codec : MediaCodec
  flvOffset : Nat := 0
  hasFlvAudioAsc : Bool := false
  info : AudioInfo := {}
deriving DecidableEq

def FLV_TAG_AUDIO : Byte := 0x08
def FLV_TAG_VIDEO : Byte := 0x09
def FLV_TAG_META_DATA0 : Byte := 18
def FLV_TAG_META_DATA3 : Byte := 15
def FLV_VIDEO_H265_CODEC : Byte := 0x0c
def FLV_VIDEO_AVC_END : Byte := 0x02
def FLV_AUDIO_MP3_CODEC : Byte := 0x20

/-- `FlvMuxer`, without what is only looked at by `SourceData`. -/
structure FlvMuxer where
  hasVideo : Bool := true
  hasAudio : Bool := true
  headerReady : Bool := false

namespace FlvMuxer

def muxFlvHeader (m : FlvMuxer) : List Byte :=
  [0x46, 0x4c, 0x56, 0x01, (if m.hasVideo then 0x01 else 0) ||| (if m.hasAudio then 0x04 else 0), 0, 0, 0, 9, 0, 0, 0, 0]

/-- The tag's header and the media's: the type, the size of what follows, the time, the stream's number, and `media`.  The time's
upper eight bits are those of its lower 24. -/
def tagHeader (tag : Byte) (mediaSize : Nat) (dts : Int) (media : List Byte) : List Byte :=
  let base := (dts % 2 ^ 24).toNat
  tag :: (beBytes 3 mediaSize ++ beBytes 3 base ++ [BitVec.ofNat 8 (base / 2 ^ 24), 0, 0, 1] ++ media)

def videoCodec : MediaCodec → Option Byte
  | .h264 => some FLV_VIDEO_H264_CODEC
  | .h265 => some FLV_VIDEO_H265_CODEC
  | _ => none

/-- The header before a packet's data and the size that is written behind it; there is none where the packet is rejected. -/
def mediaTag (pkt : CodedPacket) : Option (List Byte × Nat) :=
  match pkt.avType with
  | .video => do
    let codec ← videoCodec pkt.codec
    let flag := if pkt.isSeqHdr || pkt.isKeyFrame then FLV_VIDEO_KEY_FLAG else FLV_VIDEO_INTER_FLAG
    let nalu := if pkt.isSeqHdr then FLV_VIDEO_AVC_SEQHDR else FLV_VIDEO_AVC_NALU
    let delta := if pkt.dts < pkt.pts then ((pkt.pts - pkt.dts) % 2 ^ 32).toNat else 0
    return (tagHeader FLV_TAG_VIDEO (2 + 3 + pkt.body.length) pkt.dts ((flag ||| codec) :: nalu :: beBytes 3 delta),
      11 + 5 + pkt.body.length)
  | .audio =>
    if pkt.codec = .aac then
      some (tagHeader FLV_TAG_AUDIO (2 + pkt.body.length) pkt.dts [0x0f ||| FLV_AUDIO_AAC_CODEC, if pkt.isSeqHdr then 0 else 1],
        11 + 2 + pkt.body.length)
    else none
  | .metadata => some (tagHeader FLV_TAG_META_DATA0 pkt.body.length pkt.dts [], 11 + pkt.body.length)
  | _ => none

def inputPacket (m : FlvMuxer) (pkt : CodedPacket) : FlvMuxer × Option (List Byte) :=
  let header := if m.headerReady then [] else m.muxFlvHeader
  ({ m with headerReady := true }, (mediaTag pkt).map fun tag => header ++ tag.1 ++ pkt.body ++ beBytes 4 tag.2)

def inputPackets (m : FlvMuxer) : List CodedPacket → List Byte
  | [] => []
  | pkt :: pkts => (m.inputPacket pkt).2.getD [] ++ (m.inputPacket pkt).1.inputPackets pkts

end FlvMuxer

def mpeg4audioSampleRates : List Nat :=
  [96000, 88200, 64000, 48000, 44100, 32000, 24000, 22050, 16000, 12000, 11025, 8000, 7350, 0, 0, 0]

def getAudioInfoByAsc (data : List Byte) (size : Nat) (info : AudioInfo) : Option AudioInfo :=
  if size < 2 then none
  else
    match data with
    | b0 :: b1 :: rest =>
      let field := b0.toNat * 256 + b1.toNat
      if field / 2048 = 31 then
        let info := { info with ascType := field / 32 % 64 }
        let index := field / 2 % 16
        if index = 0x0f then
          if (BitVec.ofNat 32 size).toInt - 2 ≤ 3 then none
          else
            match rest with
            | b2 :: b3 :: b4 :: _ =>
              some { info with sampleRate := (b2.toNat * 256 + b3.toNat) / 2, channel := b3.toNat % 2 * 8 + b4.toNat / 32 }
            | _ => none
        else some { info with channel := field % 2 * 8 + b1.toNat / 32, sampleRate := mpeg4audioSampleRates.getD index 0 }
      else
        let info := { info with ascType := field / 2048 }
        let index := field / 128 % 16
        if index = 0x0f then
          match rest with
          | b2 :: _ =>
            some { info with sampleRate := field % 128 * 131072 + (b1.toNat * 256 + b2.toNat) / 2 % 128 }
          | [] => none
        else some { info with channel := field / 8 % 16, sampleRate := mpeg4audioSampleRates.getD index 0 }
    | _ => none

def makeTag (s : String) : Nat := readNBytes (amfText s)

def getVideoCodecIdByFlvCodec (flvCodec : Nat) : MediaCodec :=
  if flvCodec = 7 ∨ flvCodec = makeTag "avc1" then .h264
  else if flvCodec = 12 ∨ flvCodec = makeTag "hvc1" then .h265
  else if flvCodec = makeTag "vp08" then .vp8
  else if flvCodec = makeTag "vp09" then .vp9
  else if flvCodec = makeTag "av10" then .av1
  else .unknown

def freshPacket (ts : Nat) : CodedPacket :=
  { avType := .unknown, isSeqHdr := false, isKeyFrame := false, dts := ts, pts := ts, body := [], codec := .unknown }

/-- What became of a tag: everything ends, it is rejected, or these packets go to the sinkers. -/
inductive TagResult where
  | crash
  | rejected
  | handled (out : List CodedPacket)
deriving DecidableEq

/-- `VIDEO_PKTTYPE_*`, as far as they are looked at. -/
def videoSequenceStart : Nat := 0
def videoCodedFrames : Nat := 1
def videoCodedFramesX : Nat := 3
def videoMetaData : Nat := 4
def videoModex : Nat := 7

def videoCommandFrame : Nat := 5
def manyTracksManyCodecs : Nat := 2

/-- A tag that is sunk: its body with the media header, and the composition time. -/
def sunk (pkt : CodedPacket) (body : List Byte) (delta : Nat) : TagResult :=
  .handled [{ pkt with pts := pkt.dts + delta, body }]

/-- `HandleVideoTag` of legacy FLV; `data` is all that is buffered, of which `len` bytes are the tag's. -/
def handleLegacyVideo (data : List Byte) (len : Nat) (pkt : CodedPacket) : Option TagResult := do
  let p0 ← data[0]?
  let pkt := { pkt with flvOffset := 5 }
  let codec := p0 &&& 0x0f
  if codec ≠ FLV_VIDEO_H264_CODEC ∧ codec ≠ FLV_VIDEO_H265_CODEC then return .rejected
  else
    let pkt := { pkt with codec := if codec = FLV_VIDEO_H264_CODEC then .h264 else .h265 }
    let p1 ← data[1]?
    let frameType := p0 &&& 0xf0
    if frameType = FLV_VIDEO_KEY_FLAG ∧ p1 ≠ FLV_VIDEO_AVC_SEQHDR ∧ p1 ≠ FLV_VIDEO_AVC_NALU then return .handled []
    else
      let key := decide (frameType = FLV_VIDEO_KEY_FLAG)
      let pkt := { pkt with isSeqHdr := key && p1 = FLV_VIDEO_AVC_SEQHDR, isKeyFrame := key && p1 = FLV_VIDEO_AVC_NALU }
      let p2 ← data[2]?
      let p3 ← data[3]?
      let p4 ← data[4]?
      return sunk pkt (data.take len) (readNBytes [p2, p3, p4])

def handleEnhancedVideo (data : List Byte) (len : Nat) (pkt : CodedPacket) : Option TagResult := do
  let p0 ← data[0]?
  let packetType := p0.toNat % 16
  let frameType := p0.toNat / 16 % 8
  if packetType = videoModex then return .rejected
  else if packetType ≠ videoMetaData ∧ frameType = videoCommandFrame then return .handled []
  else
    -- several tracks have one more byte before the codec
    let multi := decide (packetType = videoMetaData)
    let p1 ← data[1]?
    if multi ∧ p1.toNat / 16 = manyTracksManyCodecs then return .rejected
    else
      let start := if multi then 2 else 1
      let (tag, _) ← takeBytes 4 (data.drop start)
      let pkt := { pkt with codec := getVideoCodecIdByFlvCodec (readNBytes tag) }
      let coded := packetType = videoCodedFrames ∨ packetType = videoCodedFramesX
      let pkt := { pkt with
        isSeqHdr := !multi && packetType = videoSequenceStart, isKeyFrame := !multi && coded && frameType = 1 }
      if pkt.codec = .h264 ∨ pkt.codec = .h265 then
        let (delta, _) ← takeBytes 3 (data.drop (start + 4))
        return sunk { pkt with flvOffset := start + 7 } (data.take len) (readNBytes delta)
      else return sunk { pkt with flvOffset := start + 4 } (data.take len) 0

def handleVideoTag (data : List Byte) (len : Nat) (pkt : CodedPacket) : TagResult :=
  let pkt := { pkt with avType := .video }
  match data with
  | [] => .crash
  | p0 :: _ => ((if p0 &&& 0x80 = 0 then handleLegacyVideo else handleEnhancedVideo) data len pkt).getD .crash

def handleAudioTag (data : List Byte) (len : Nat) (pkt : CodedPacket) : TagResult :=
  let pkt := { pkt with avType := .audio }
  match data with
  | p0 :: p1 :: rest =>
    let codecId := p0 &&& 0xf0
    let size := (len + 2 ^ 32 - 2) % 2 ^ 32
    let seq := decide (p1 = 0)
    if codecId = FLV_AUDIO_AAC_CODEC then
      if seq then
        match (getAudioInfoByAsc rest size pkt.info).bind (getAudioInfoByAsc rest size) with
        | none => .crash
        | some info =>
          .handled [{ pkt with codec := .aac, info, hasFlvAudioAsc := true, isSeqHdr := true, body := data.take len }]
      else
        .handled [{ pkt with
          codec := .aac, isKeyFrame := true, isSeqHdr := false, info := { pkt.info with ascType := 2 }, body := data.take len }]
    else if codecId = FLV_AUDIO_MP3_CODEC then
      if seq then .handled [{ pkt with codec := .mp3, isSeqHdr := true, body := data.take len }]
      else
        .handled [{ pkt with
          codec := .mp3, isKeyFrame := true, isSeqHdr := false, info := { pkt.info with ascType := 2 }, body := data.take len }]
    else .rejected
  | _ => .crash

def handleMetaData (data : List Byte) (len : Nat) : TagResult :=
  match decodeMetaData (len + 1) 0 {} {} (data.take len) {} with
  | some (.done true _ _ _) => .handled []
  | some (.done false _ _ _) => .rejected
  | _ => .crash

structure FlvDemuxer where
  buffer : List Byte := []
  hasVideo : Bool := false
  hasAudio : Bool := false
  flvHeaderReady : Bool := false
  tagHeaderReady : Bool := false
  tagType : Byte := 0
  tagDataSize : Nat := 0
  tagTimestamp : Nat := 0
  out : List CodedPacket := []
  crashed : Bool := false
deriving DecidableEq

namespace FlvDemuxer

def readHeader (d : FlvDemuxer) : Bool × FlvDemuxer :=
  let flags := d.buffer.getD 4 0
  if d.buffer.take 3 ≠ [0x46, 0x4c, 0x56] then (false, d)
  else
    let d := { d with hasVideo := d.hasVideo || flags &&& 0x01 = 0x01, hasAudio := d.hasAudio || flags &&& 0x04 = 0x04 }
    if (d.buffer.drop 5).take 4 ≠ [0, 0, 0, 9] then (false, d)
    else (true, { d with buffer := d.buffer.drop (9 + 4), flvHeaderReady := true })

def readTagHeader (d : FlvDemuxer) : FlvDemuxer :=
  { d with
    tagType := d.buffer.getD 0 0
    tagDataSize := readNBytes ((d.buffer.drop 1).take 3)
    tagTimestamp := readNBytes ((d.buffer.drop 4).take 3) + (d.buffer.getD 7 0).toNat * 2 ^ 24
    tagHeaderReady := true
    buffer := d.buffer.drop 11 }

def handleTag (d : FlvDemuxer) : TagResult :=
  let pkt := freshPacket d.tagTimestamp
  if d.tagType = FLV_TAG_AUDIO then handleAudioTag d.buffer d.tagDataSize pkt
  else if d.tagType = FLV_TAG_VIDEO then handleVideoTag d.buffer d.tagDataSize pkt
  else if d.tagType = FLV_TAG_META_DATA0 ∨ d.tagType = FLV_TAG_META_DATA3 then handleMetaData d.buffer d.tagDataSize
  else .handled []

/-- `HandlePacket` behind a tag's header: whether it returned 0. -/
def handleData (d : FlvDemuxer) : Bool × FlvDemuxer :=
  if d.buffer.length < d.tagDataSize + 4 then (false, d)
  else
    let d' := { d with buffer := d.buffer.drop (d.tagDataSize + 4), tagHeaderReady := false }
    match d.handleTag with
    | .crash => (false, { d with crashed := true })
    | .rejected => (false, d')
    | .handled out => (true, { d' with out := d.out ++ out })

/-- `HandlePacket` behind the file's header. -/
def handleBody (d : FlvDemuxer) : Bool × FlvDemuxer :=
  if d.tagHeaderReady then d.handleData
  else if d.buffer.length < 11 then (false, d)
  else d.readTagHeader.handleData

def handlePacket (d : FlvDemuxer) : Bool × FlvDemuxer :=
  if d.flvHeaderReady then d.handleBody
  else if d.buffer.length < 9 + 4 then (false, d)
  else
    match d.readHeader with
    | (false, d) => (false, d)
    | (true, d) => d.handleBody

/-- The loop of `InputPacket`: each packet takes four bytes at least. -/
def handlePackets : Nat → FlvDemuxer → FlvDemuxer
  | 0, d => d
  | fuel + 1, d =>
    match d.handlePacket with
    | (true, d) => handlePackets fuel d
    | (false, d) => d

def inputPacket (d : FlvDemuxer) (data : List Byte) : FlvDemuxer :=
  if d.crashed then d
  else
    let d := { d with buffer := d.buffer ++ data }
    handlePackets (d.buffer.length + 1) d

end FlvDemuxer

end MoqLiveCast
