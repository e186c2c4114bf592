import MoqLiveCast.Lib.Reading
import MoqLiveCast.Media.FlvDemux
/-!
# FlvParse — the two parsers of a tag's body, and what they read (`format/flv/flv_pub.cpp`, `flv_demux.cpp`, `rtmp_session_base.cpp`)

One is for the messages of RTMP, the other one for the tags of a file; each moves a pointer over a header whose parts
say how long it is. The body is where the pointer starts, and other parsers are handed a part of it with its length.
-/
namespace MoqLiveCast

open Reading

def FLV_AUDIO_EX_HEADER : Byte := 0x90
def FLV_TAG_AMF0 : Byte := 20

/-- `VIDEO_PKTTYPE_MULTITRACK`, and `AUDIO_PKTTYPE_*` as far as they are looked at. -/
def videoMultitrack : Nat := 6
def audioPktSequenceStart : Nat := 0
def audioPktCodedFrames : Nat := 1
def audioPktMultiChannelCfg : Nat := 4
def audioPktMultiTrack : Nat := 5
def audioPktModex : Nat := 7

def getAudioCodecIdByFlvCodec (flvCodec : Nat) : MediaCodec :=
  if flvCodec = 0xa0 then .aac
  else if flvCodec = 0x20 then .mp3
  else if flvCodec = makeTag "Opus" then .opus
  else .unknown

/-! ## Messages of RTMP -/

namespace FlvPub

def begun (avType : MediaType) : CodedPacket :=
  { avType, isSeqHdr := false, isKeyFrame := false, dts := -1, pts := -1, body := [], codec := .unknown }

def stamped (pkt : CodedPacket) (ts delta : Nat) : CodedPacket := { pkt with dts := ts, pts := ts + delta }

def tagAt (i : Nat) : Reading Byte Nat := do
  let tag ← cells i 4
  return readNBytes tag

def legacyVideo (ts : Nat) (p0 : Byte) : Reading Byte (Option CodedPacket) := do
  let codec := p0 &&& 0x0f
  if codec ≠ FLV_VIDEO_H264_CODEC ∧ codec ≠ FLV_VIDEO_H265_CODEC then return none
  else
    let pkt := { begun .video with flvOffset := 5, codec := if codec = FLV_VIDEO_H264_CODEC then .h264 else .h265 }
    let p1 ← cell 1
    let key := decide (p0 &&& 0xf0 = FLV_VIDEO_KEY_FLAG)
    if key ∧ p1 = FLV_VIDEO_AVC_END then return none
    -- any other kind of a key frame comes out as it is, without its times
    else if key ∧ p1 ≠ FLV_VIDEO_AVC_SEQHDR ∧ p1 ≠ FLV_VIDEO_AVC_NALU then return some pkt
    else
      let delta ← cells 2 3
      return some (stamped
        { pkt with isSeqHdr := key && p1 = FLV_VIDEO_AVC_SEQHDR, isKeyFrame := key && p1 = FLV_VIDEO_AVC_NALU } ts (readNBytes delta))

/-- The packet types of one track; of any other one the log has the four bytes behind the codec. -/
def oneTrackVideo (ts : Nat) (p0 : Byte) : Reading Byte (Option CodedPacket) := do
  let packetType := p0.toNat % 16
  let tag ← tagAt 1
  let pkt := { begun .video with codec := getVideoCodecIdByFlvCodec tag, flvOffset := 5 }
  if packetType = videoMetaData then return some (stamped { pkt with avType := .metadata } ts 0)
  else if packetType = videoSequenceStart then return some (stamped { pkt with isSeqHdr := true } ts 0)
  else if packetType = videoCodedFrames ∨ packetType = videoCodedFramesX then
    return some (stamped { pkt with isKeyFrame := p0.toNat / 16 % 8 = 1 } ts 0)
  else
    let _ ← cells 5 4
    return some (stamped pkt ts 0)

def enhancedVideo (ts : Nat) (p0 : Byte) : Reading Byte (Option CodedPacket) := do
  let packetType := p0.toNat % 16
  if packetType = videoModex then return none
  else if packetType ≠ videoMetaData ∧ p0.toNat / 16 % 8 = videoCommandFrame then return none
  else if packetType = videoMultitrack then
    let p1 ← cell 1
    if p1.toNat / 16 = manyTracksManyCodecs then return none
    else
      let tag ← tagAt 2
      -- the log takes the bytes that are two to five behind the codec for it
      let _ ← cells 8 4
      return some (stamped { begun .video with codec := getVideoCodecIdByFlvCodec tag, flvOffset := 6 } ts 0)
  else oneTrackVideo ts p0

def audio (ts : Nat) : Reading Byte (Option CodedPacket) := do
  let p0 ← cell 0
  let frameType := p0 &&& 0xf0
  let packetType := p0.toNat % 16
  if frameType = FLV_AUDIO_AAC_CODEC then
    let p1 ← cell 1
    return some (stamped { begun .audio with codec := .aac, isSeqHdr := p1 = 0, flvOffset := 2 } ts 0)
  else if frameType = FLV_AUDIO_EX_HEADER then
    if packetType = audioPktModex then return none
    else if packetType = audioPktMultiTrack then
      let p1 ← cell 1
      if p1.toNat / 16 = manyTracksManyCodecs then return none
      else
        let tag ← tagAt 2
        return some (stamped { begun .audio with codec := getAudioCodecIdByFlvCodec tag, flvOffset := 6 } ts 0)
    else
      let tag ← tagAt 1
      let pkt := { begun .audio with codec := getAudioCodecIdByFlvCodec tag, flvOffset := 5 }
      if packetType = audioPktSequenceStart then return some (stamped { pkt with isSeqHdr := true } ts 0)
      else if packetType = audioPktCodedFrames then return some (stamped pkt ts 0)
      else if packetType = audioPktMultiChannelCfg then return some (stamped { pkt with avType := .metadata } ts 0)
      else return none
  else return none

def getFlvMediaPacket (typeId : Byte) (ts len : Nat) : Reading Byte (Option CodedPacket) := do
  if len = 0 then return none
  else if typeId = FLV_TAG_VIDEO then
    let p0 ← cell 0
    if p0 &&& 0x80 = 0 then legacyVideo ts p0 else enhancedVideo ts p0
  else if typeId = FLV_TAG_AUDIO then audio ts
  else if typeId = FLV_TAG_META_DATA3 ∨ typeId = FLV_TAG_META_DATA0 ∨ typeId = FLV_TAG_AMF0 then
    return some (stamped (begun .metadata) ts 0)
  else return none

/-- `GetNaluFormatTypeFromMediaPacket`: three bytes are looked at, and the fourth one if they are 0. -/
def getNaluFormatType (start len : Nat) : Reading Byte Unit := do
  if len < 5 then return ()
  else
    let code ← cells start 3
    if code = [0, 0, 0] then
      let _ ← cell (start + 3)
      return ()
    else return ()

/-- `GetMediaPacket`; a configuration record of H.265 and the header of an audio sequence are read by others. -/
def getMediaPacket (typeId : Byte) (ts len : Nat) : Reading Byte (Option CodedPacket) := do
  if len < 2 then return none
  else
    match ← getFlvMediaPacket typeId ts len with
    | none => return none
    | some pkt =>
      let rest ← difference 64 len pkt.flvOffset
      getNaluFormatType pkt.flvOffset rest
      if pkt.avType = .video ∧ pkt.isSeqHdr ∧ pkt.codec = .h265 then handOver pkt.flvOffset rest
      else if pkt.avType = .audio ∧ pkt.isSeqHdr then handOver 0 len
      return some pkt

end FlvPub

/-! ## Tags of a file -/

/-- What became of a tag, with the packet that is made of it but for its body; all packets of raw video have its fields. -/
inductive TagParsed where
  | crash
  | rejected
  | handled (pkt : Option CodedPacket)
deriving DecidableEq

namespace FlvTag

/-- `HandleVideoTag` behind the headers: with the media header the whole body goes on, without it the bytes behind the header, and
those of H.264 and H.265 are read by others; the length that a sequence header has with them is the tag's. -/
def sinkVideo (hdr : Bool) (len : Nat) (pkt : CodedPacket) : Reading Byte TagParsed := do
  if hdr then handOver 0 len
  else
    let rest ← difference 64 len pkt.flvOffset
    if pkt.isSeqHdr ∧ (pkt.codec = .h264 ∨ pkt.codec = .h265) then handOver pkt.flvOffset len
    else handOver pkt.flvOffset rest
  return .handled (some pkt)

def legacyVideo (hdr : Bool) (len : Nat) (pkt : CodedPacket) (p0 : Byte) : Reading Byte TagParsed := do
  let codec := p0 &&& 0x0f
  if codec ≠ FLV_VIDEO_H264_CODEC ∧ codec ≠ FLV_VIDEO_H265_CODEC then return .rejected
  else
    let pkt := { pkt with flvOffset := 5, codec := if codec = FLV_VIDEO_H264_CODEC then .h264 else .h265 }
    let p1 ← cell 1
    let key := decide (p0 &&& 0xf0 = FLV_VIDEO_KEY_FLAG)
    if key ∧ p1 ≠ FLV_VIDEO_AVC_SEQHDR ∧ p1 ≠ FLV_VIDEO_AVC_NALU then return .handled none
    else
      let delta ← cells 2 3
      sinkVideo hdr len
        { pkt with
          isSeqHdr := key && p1 = FLV_VIDEO_AVC_SEQHDR, isKeyFrame := key && p1 = FLV_VIDEO_AVC_NALU,
          pts := pkt.dts + readNBytes delta }

def composed (hdr : Bool) (len : Nat) (pkt : CodedPacket) (start : Nat) : Reading Byte TagParsed := do
  if pkt.codec = .h264 ∨ pkt.codec = .h265 then
    let delta ← cells start 3
    sinkVideo hdr len { pkt with flvOffset := start + 3, pts := pkt.dts + readNBytes delta }
  else sinkVideo hdr len { pkt with flvOffset := start, pts := pkt.dts }

/-- `HandleVideoTag` of enhanced FLV; metadata is taken for several tracks. -/
def enhancedVideo (hdr : Bool) (len : Nat) (pkt : CodedPacket) (p0 : Byte) : Reading Byte TagParsed := do
  let packetType := p0.toNat % 16
  let frameType := p0.toNat / 16 % 8
  if packetType = videoModex then return .rejected
  else if packetType ≠ videoMetaData ∧ frameType = videoCommandFrame then return .handled none
  else if packetType = videoMetaData then
    let p1 ← cell 1
    if p1.toNat / 16 = manyTracksManyCodecs then return .rejected
    else
      let tag ← FlvPub.tagAt 2
      let _ ← cells 6 4
      composed hdr len { pkt with codec := getVideoCodecIdByFlvCodec tag } 6
  else
    let tag ← FlvPub.tagAt 1
    let pkt := { pkt with codec := getVideoCodecIdByFlvCodec tag }
    if packetType = videoSequenceStart then composed hdr len { pkt with isSeqHdr := true } 5
    else if packetType = videoCodedFrames ∨ packetType = videoCodedFramesX then
      composed hdr len { pkt with isKeyFrame := frameType = 1 } 5
    else
      let _ ← cells 5 4
      composed hdr len pkt 5

def handleVideoTag (hdr : Bool) (len : Nat) (pkt : CodedPacket) : Reading Byte TagParsed := do
  let pkt := { pkt with avType := .video }
  let p0 ← cell 0
  if p0 &&& 0x80 = 0 then legacyVideo hdr len pkt p0 else enhancedVideo hdr len pkt p0

def getAudioInfoByAsc (start size : Nat) (info : AudioInfo) : Reading Byte (Option AudioInfo) := do
  if size < 2 then return none
  else
    let head ← cells start 2
    let field := readNBytes head
    if field / 2048 = 31 then
      let info := { info with ascType := field / 32 % 64 }
      let index := field / 2 % 16
      if index = 0x0f then
        if (BitVec.ofNat 32 size).toInt - 2 ≤ 3 then return none
        else
          let rate ← cells (start + 1) 3
          let last ← cell (start + 4)
          return some { info with sampleRate := readNBytes (rate.drop 1) / 2, channel := readNBytes rate % 2 * 8 + last.toNat / 32 }
      else
        let b1 ← cell (start + 1)
        return some { info with channel := field % 2 * 8 + b1.toNat / 32, sampleRate := mpeg4audioSampleRates.getD index 0 }
    else
      let info := { info with ascType := field / 2048 }
      let index := field / 128 % 16
      if index = 0x0f then
        let rate ← cells (start + 1) 2
        return some { info with sampleRate := field % 128 * 131072 + readNBytes rate / 2 % 128 }
      else return some { info with channel := field / 8 % 16, sampleRate := mpeg4audioSampleRates.getD index 0 }

def sinkAudio (hdr : Bool) (len : Nat) (pkt : CodedPacket) : Reading Byte TagParsed := do
  if hdr then handOver 0 len
  else
    let rest ← difference 64 len 2
    handOver 2 rest
  return .handled (some pkt)

def handleAudioTag (hdr : Bool) (len : Nat) (pkt : CodedPacket) : Reading Byte TagParsed := do
  let pkt := { pkt with avType := .audio }
  let p0 ← cell 0
  let p1 ← cell 1
  let codecId := p0 &&& 0xf0
  let codec : MediaCodec := if codecId = FLV_AUDIO_AAC_CODEC then .aac else .mp3
  if codecId ≠ FLV_AUDIO_AAC_CODEC ∧ codecId ≠ FLV_AUDIO_MP3_CODEC then return .rejected
  else if p1 = 0 ∧ codecId = FLV_AUDIO_AAC_CODEC then
    let size ← difference 32 len 2
    match ← getAudioInfoByAsc 2 size pkt.info with
    | none => return .crash
    | some info =>
      handOver 2 size
      match ← getAudioInfoByAsc 2 size info with
      | none => return .crash
      | some info => sinkAudio hdr len { pkt with codec, info, hasFlvAudioAsc := true, isSeqHdr := true }
  else if p1 = 0 then sinkAudio hdr len { pkt with codec, isSeqHdr := true }
  else sinkAudio hdr len { pkt with codec, isKeyFrame := true, info := { pkt.info with ascType := 2 } }

/-- `HandlePacket` behind a tag's header, of which the body is all there; metadata is read by the decoder of its values. -/
def handleTag (hdr : Bool) (tagType : Byte) (ts len : Nat) : Reading Byte TagParsed := do
  let pkt := freshPacket ts
  if tagType = FLV_TAG_AUDIO then handleAudioTag hdr len pkt
  else if tagType = FLV_TAG_VIDEO then handleVideoTag hdr len pkt
  else if tagType = FLV_TAG_META_DATA0 ∨ tagType = FLV_TAG_META_DATA3 then
    handOver 0 len
    return .handled none
  else return .handled none

end FlvTag
end MoqLiveCast
