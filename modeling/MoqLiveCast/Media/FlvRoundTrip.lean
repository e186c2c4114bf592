import MoqLiveCast.Media.FlvDemux
/-!
# FlvRoundTrip — which packets come out of the demuxer as they went into the muxer

The demuxer goes on where it stopped, so the cuts make no difference.  What does: the header is lost with a first packet that is
rejected, eight bits of the time are never written, and the payload of an audio packet begins with the media header.
-/
namespace MoqLiveCast

open List

/-- What a packet says: its kind, its flags, its times and its payload. -/
structure FlvMedia where
  avType : MediaType
  codec : MediaCodec
  isSeqHdr : Bool
  isKeyFrame : Bool
  dts : Int
  pts : Int
  payload : List Byte
deriving DecidableEq

namespace CodedPacket

/-- The payload is behind `flv_offset_`, and only video has key frames. -/
def media (pkt : CodedPacket) : FlvMedia where
  avType := pkt.avType
  codec := pkt.codec
  isSeqHdr := pkt.isSeqHdr
  isKeyFrame := pkt.avType = .video && pkt.isKeyFrame
  dts := pkt.dts
  pts := pkt.pts
  payload := pkt.body.drop pkt.flvOffset

def given (pkt : CodedPacket) : FlvMedia := { pkt with flvOffset := 0 : CodedPacket }.media

def isVideo (pkt : CodedPacket) : Bool := pkt.avType = .video && (pkt.codec = .h264 || pkt.codec = .h265)

def isAudio (pkt : CodedPacket) : Bool := pkt.avType = .audio && pkt.codec = .aac

def accepted (pkt : CodedPacket) : Bool := pkt.isVideo || pkt.isAudio

/-- The times are of 32 bits, and apart by less than 23; a tag holds the payload. -/
structure Fits (pkt : CodedPacket) : Prop where
  dts : 0 ≤ pkt.dts ∧ pkt.dts < 2 ^ 32
  pts : pkt.dts ≤ pkt.pts ∧ pkt.pts - pkt.dts < 2 ^ 23
  body : pkt.body.length < 2 ^ 24 - 5

end CodedPacket

/-- **A packet that is given**: one that is rejected, or one of the three codecs that fits. -/
def FlvGiven (pkt : CodedPacket) : Prop := FlvMuxer.mediaTag pkt = none ∨ pkt.accepted = true ∧ pkt.Fits

/-- **The packets come out as they went in**, wherever the bytes are cut. -/
def FlvRoundTrips (m : FlvMuxer) (pkts : List CodedPacket) : Prop :=
  ∀ pieces : List (List Byte), pieces.flatten = m.inputPackets pkts → (pieces.foldl FlvDemuxer.inputPacket {}).crashed = false ∧
      (pieces.foldl FlvDemuxer.inputPacket {}).out.map CodedPacket.media =
        (pkts.filter CodedPacket.accepted).map CodedPacket.given

/-- **The condition**: nothing is accepted, or the first packet is and every other is video of the first 2^24 milliseconds, not
both the header of a sequence and a key frame. -/
def FlvCarried (pkts : List CodedPacket) : Prop :=
  (∀ pkt ∈ pkts, pkt.accepted = false) ∨ (∃ pkt rest, pkts = pkt :: rest ∧ pkt.accepted = true) ∧
      ∀ pkt ∈ pkts, pkt.accepted = true → pkt.avType = .video ∧ pkt.dts < 2 ^ 24 ∧ ¬(pkt.isSeqHdr = true ∧ pkt.isKeyFrame = true)

/-! ## The muxer's bytes -/

namespace CodedPacket

def tagType (pkt : CodedPacket) : Byte := if pkt.isVideo then FLV_TAG_VIDEO else FLV_TAG_AUDIO

def base (pkt : CodedPacket) : Nat := (pkt.dts % 2 ^ 24).toNat

def delta (pkt : CodedPacket) : Nat := if pkt.dts < pkt.pts then ((pkt.pts - pkt.dts) % 2 ^ 32).toNat else 0

def codecByte (pkt : CodedPacket) : Byte := if pkt.codec = .h264 then FLV_VIDEO_H264_CODEC else FLV_VIDEO_H265_CODEC

def mediaHead (pkt : CodedPacket) : List Byte :=
  if pkt.isVideo then
    ((if pkt.isSeqHdr || pkt.isKeyFrame then FLV_VIDEO_KEY_FLAG else FLV_VIDEO_INTER_FLAG) ||| pkt.codecByte) ::
      (if pkt.isSeqHdr then FLV_VIDEO_AVC_SEQHDR else FLV_VIDEO_AVC_NALU) :: beBytes 3 pkt.delta
  else [0xaf, if pkt.isSeqHdr then 0 else 1]

def tagBody (pkt : CodedPacket) : List Byte := pkt.mediaHead ++ pkt.body

def tagHead (pkt : CodedPacket) : List Byte :=
  pkt.tagType :: (beBytes 3 pkt.tagBody.length ++ beBytes 3 pkt.base ++ [0, 0, 0, 1])

def tagBytes (pkt : CodedPacket) : List Byte := pkt.tagHead ++ (pkt.tagBody ++ beBytes 4 (11 + pkt.tagBody.length))

variable (pkt : CodedPacket)

theorem base_lt : pkt.base < 2 ^ 24 := by
  unfold base
  omega

@[simp] theorem tagHead_length : pkt.tagHead.length = 11 := by simp [tagHead]

theorem tagBytes_length : pkt.tagBytes.length = 15 + pkt.tagBody.length := by
  simp [tagBytes]
  omega

end CodedPacket

open CodedPacket

theorem tagHeader_eq (pkt : CodedPacket) (tag : Byte) (size : Nat) (media : List Byte) :
    FlvMuxer.tagHeader tag size pkt.dts media = tag :: (beBytes 3 size ++ beBytes 3 pkt.base ++ [0, 0, 0, 1] ++ media) := by
  have hext : BitVec.ofNat 8 (pkt.base / 2 ^ 24) = 0 := by
    rw [Nat.div_eq_of_lt pkt.base_lt]
    rfl
  unfold FlvMuxer.tagHeader
  dsimp only
  unfold base at hext ⊢
  rw [hext]

variable {pkt : CodedPacket}

theorem mediaTag_accepted (h : pkt.accepted = true) :
    FlvMuxer.mediaTag pkt = some (pkt.tagHead ++ pkt.mediaHead, 11 + pkt.tagBody.length) := by
  unfold accepted at h
  by_cases hv : pkt.isVideo = true
  · have htype := hv
    unfold isVideo at htype
    obtain ⟨hav, hcodec⟩ : pkt.avType = .video ∧ (pkt.codec = .h264 ∨ pkt.codec = .h265) := by simpa using htype
    have hbyte : FlvMuxer.videoCodec pkt.codec = some pkt.codecByte := by
      unfold codecByte
      rcases hcodec with hc | hc <;> rw [hc] <;> rfl
    have hlen : 2 + 3 + pkt.body.length = pkt.tagBody.length := by
      simp [tagBody, mediaHead, hv]
      omega
    unfold FlvMuxer.mediaTag
    rw [hav]
    dsimp only
    rw [hbyte, hlen, Option.bind_eq_bind, Option.bind_some, tagHeader_eq]
    simp [tagHead, tagType, mediaHead, hv, delta]
    omega
  · have ha : pkt.isAudio = true := by simpa [hv] using h
    have htype := ha
    unfold isAudio at htype
    obtain ⟨hav, hcodec⟩ : pkt.avType = .audio ∧ pkt.codec = .aac := by simpa using htype
    have hlen : 2 + pkt.body.length = pkt.tagBody.length := by
      simp [tagBody, mediaHead, hv]
      omega
    have hbyte : (0x0f ||| FLV_AUDIO_AAC_CODEC : Byte) = 0xaf := rfl
    unfold FlvMuxer.mediaTag
    rw [hav]
    dsimp only
    rw [if_pos hcodec, hlen, hbyte, tagHeader_eq]
    simp [tagHead, tagType, mediaHead, hv]
    omega

variable (m : FlvMuxer)

theorem FlvMuxer.inputPacket_accepted (h : pkt.accepted = true) : m.inputPacket pkt =
      ({ m with headerReady := true }, some ((if m.headerReady then [] else m.muxFlvHeader) ++ pkt.tagBytes)) := by
  unfold FlvMuxer.inputPacket
  rw [mediaTag_accepted h]
  simp [tagBytes, tagBody]

theorem FlvGiven.rejected (h : FlvGiven pkt) (hacc : pkt.accepted = false) : FlvMuxer.mediaTag pkt = none := by
  rcases h with h | h
  · exact h
  · rw [hacc] at h
    cases h.1

theorem FlvMuxer.inputPacket_rejected (h : FlvMuxer.mediaTag pkt = none) :
    m.inputPacket pkt = ({ m with headerReady := true }, none) := by
  unfold FlvMuxer.inputPacket
  rw [h]
  rfl

theorem FlvMuxer.inputPackets_ready : ∀ (pkts : List CodedPacket) (m : FlvMuxer), m.headerReady = true → (∀ pkt ∈ pkts, FlvGiven pkt) →
    m.inputPackets pkts = (pkts.filter accepted).flatMap tagBytes
  | [], _, _, _ => rfl
  | pkt :: pkts, m, hm, hgiven => by
    have ih := FlvMuxer.inputPackets_ready pkts { m with headerReady := true } rfl
      (fun q hq => hgiven q (mem_cons_of_mem _ hq))
    unfold FlvMuxer.inputPackets
    by_cases hacc : pkt.accepted = true
    · rw [m.inputPacket_accepted hacc, hm]
      dsimp only
      rw [ih, filter_cons_of_pos hacc]
      rfl
    · have hrej := (hgiven pkt mem_cons_self).rejected (Bool.eq_false_iff.2 hacc)
      rw [m.inputPacket_rejected hrej]
      dsimp only
      rw [ih, filter_cons_of_neg hacc]
      rfl

variable {pkts : List CodedPacket}

theorem FlvMuxer.inputPackets_first (hm : m.headerReady = false) (hgiven : ∀ q ∈ pkt :: pkts, FlvGiven q) : m.inputPackets
    (pkt :: pkts) = (if pkt.accepted then m.muxFlvHeader else []) ++ ((pkt :: pkts).filter accepted).flatMap tagBytes := by
  have hready := FlvMuxer.inputPackets_ready pkts { m with headerReady := true } rfl
    (fun q hq => hgiven q (mem_cons_of_mem _ hq))
  unfold FlvMuxer.inputPackets
  by_cases hacc : pkt.accepted = true
  · rw [m.inputPacket_accepted hacc, hm, filter_cons_of_pos hacc, if_pos hacc]
    dsimp only
    rw [hready]
    simp
  · have hrej := (hgiven pkt mem_cons_self).rejected (Bool.eq_false_iff.2 hacc)
    rw [m.inputPacket_rejected hrej, filter_cons_of_neg hacc, if_neg hacc]
    dsimp only
    rw [hready]
    rfl

/-! ## A tag -/

namespace CodedPacket

/-- **What is made of a packet's tag.** -/
def carried (pkt : CodedPacket) : FlvMedia where
  avType := pkt.avType
  codec := pkt.codec
  isSeqHdr := pkt.isSeqHdr
  isKeyFrame := pkt.isVideo && !pkt.isSeqHdr && pkt.isKeyFrame
  dts := pkt.base
  pts := if pkt.isVideo then pkt.base + pkt.delta else pkt.base
  payload := if pkt.isVideo then pkt.body else pkt.mediaHead ++ pkt.body

theorem delta_lt {pkt : CodedPacket} (h : pkt.Fits) : pkt.delta < 2 ^ 23 := by
  have hpts := h.pts
  unfold delta
  split
  · omega
  · decide

end CodedPacket

theorem handleLegacyVideo_cons {p0 p1 p2 p3 p4 : Byte} {rest : List Byte} {len : Nat} {pkt : CodedPacket}
    (hcodec : p0 &&& 0x0f = FLV_VIDEO_H264_CODEC ∨ p0 &&& 0x0f = FLV_VIDEO_H265_CODEC)
    (hnalu : p1 = FLV_VIDEO_AVC_SEQHDR ∨ p1 = FLV_VIDEO_AVC_NALU) :
    handleLegacyVideo (p0 :: p1 :: p2 :: p3 :: p4 :: rest) len pkt = some (sunk
        { pkt with
          flvOffset := 5
          codec := if p0 &&& 0x0f = FLV_VIDEO_H264_CODEC then .h264 else .h265
          isSeqHdr := p0 &&& 0xf0 = FLV_VIDEO_KEY_FLAG && p1 = FLV_VIDEO_AVC_SEQHDR
          isKeyFrame := p0 &&& 0xf0 = FLV_VIDEO_KEY_FLAG && p1 = FLV_VIDEO_AVC_NALU }
        ((p0 :: p1 :: p2 :: p3 :: p4 :: rest).take len) (readNBytes [p2, p3, p4])) := by
  have hknown : ¬(p0 &&& 0x0f ≠ FLV_VIDEO_H264_CODEC ∧ p0 &&& 0x0f ≠ FLV_VIDEO_H265_CODEC) := fun h =>
    hcodec.elim h.1 h.2
  have hused : ¬(p0 &&& 0xf0 = FLV_VIDEO_KEY_FLAG ∧ p1 ≠ FLV_VIDEO_AVC_SEQHDR ∧ p1 ≠ FLV_VIDEO_AVC_NALU) := fun h =>
    hnalu.elim h.2.1 h.2.2
  unfold handleLegacyVideo
  simp only [List.getElem?_cons_zero, List.getElem?_cons_succ, Option.bind_eq_bind, Option.bind_some]
  rw [if_neg hknown, if_neg hused]
  rfl

/-- The bytes of a media header of video, and what is read of them. -/
structure VideoHead (pkt : CodedPacket) (p0 p1 d0 d1 d2 : Byte) : Prop where
  head : pkt.mediaHead = [p0, p1, d0, d1, d2]
  delta : readNBytes [d0, d1, d2] = pkt.delta
  legacy : p0 &&& 0x80 = 0
  known : p0 &&& 0x0f = FLV_VIDEO_H264_CODEC ∨ p0 &&& 0x0f = FLV_VIDEO_H265_CODEC
  codec : (if p0 &&& 0x0f = FLV_VIDEO_H264_CODEC then MediaCodec.h264 else .h265) = pkt.codec
  nalu : p1 = FLV_VIDEO_AVC_SEQHDR ∨ p1 = FLV_VIDEO_AVC_NALU
  seq : (decide (p0 &&& 0xf0 = FLV_VIDEO_KEY_FLAG) && decide (p1 = FLV_VIDEO_AVC_SEQHDR)) = pkt.isSeqHdr
  key : (decide (p0 &&& 0xf0 = FLV_VIDEO_KEY_FLAG) && decide (p1 = FLV_VIDEO_AVC_NALU)) = (!pkt.isSeqHdr && pkt.isKeyFrame)

theorem exists_videoHead (hv : pkt.isVideo = true) (hlt : pkt.delta < 2 ^ 24) :
    ∃ p0 p1 d0 d1 d2, VideoHead pkt p0 p1 d0 d1 d2 := by
  have htype := hv
  unfold isVideo at htype
  obtain ⟨-, hcodec⟩ : pkt.avType = .video ∧ (pkt.codec = .h264 ∨ pkt.codec = .h265) := by simpa using htype
  obtain ⟨d0, d1, d2, hdelta⟩ : ∃ d0 d1 d2, beBytes 3 pkt.delta = [d0, d1, d2] := ⟨_, _, _, rfl⟩
  obtain ⟨flag, hflag⟩ : ∃ flag, flag = if pkt.isSeqHdr || pkt.isKeyFrame then FLV_VIDEO_KEY_FLAG else FLV_VIDEO_INTER_FLAG :=
    ⟨_, rfl⟩
  obtain ⟨nalu, hnalu⟩ : ∃ nalu, nalu = if pkt.isSeqHdr then FLV_VIDEO_AVC_SEQHDR else FLV_VIDEO_AVC_NALU := ⟨_, rfl⟩
  have hbyte : pkt.codecByte = FLV_VIDEO_H264_CODEC ∧ pkt.codec = .h264 ∨ pkt.codecByte = FLV_VIDEO_H265_CODEC ∧ pkt.codec = .h265 := by
    unfold codecByte
    rcases hcodec with hc | hc <;> simp [hc]
  have hflags : flag = FLV_VIDEO_KEY_FLAG ∨ flag = FLV_VIDEO_INTER_FLAG := by
    rw [hflag]
    split
    · exact Or.inl rfl
    · exact Or.inr rfl
  have hlow : (flag ||| pkt.codecByte) &&& 0x0f = pkt.codecByte := by
    rcases hflags with hf | hf <;> rcases hbyte with hb | hb <;> rw [hf, hb.1] <;> rfl
  have hhigh : (flag ||| pkt.codecByte) &&& 0xf0 = flag := by
    rcases hflags with hf | hf <;> rcases hbyte with hb | hb <;> rw [hf, hb.1] <;> rfl
  refine ⟨flag ||| pkt.codecByte, nalu, d0, d1, d2, ?_, ?_, ?_, ?_, ?_, ?_, ?_, ?_⟩
  · simp [mediaHead, hv, hflag, hnalu, hdelta]
  · rw [← hdelta, readNBytes_beBytes, Nat.mod_eq_of_lt (by omega)]
  · rcases hflags with hf | hf <;> rcases hbyte with hb | hb <;> rw [hf, hb.1] <;> rfl
  · rw [hlow]
    exact hbyte.imp And.left And.left
  · rw [hlow]
    rcases hbyte with hb | hb <;> rw [hb.1, hb.2] <;> rfl
  · rw [hnalu]
    split
    · exact Or.inl rfl
    · exact Or.inr rfl
  · rw [hhigh, hflag, hnalu]
    cases pkt.isSeqHdr <;> cases pkt.isKeyFrame <;> rfl
  · rw [hhigh, hflag, hnalu]
    cases pkt.isSeqHdr <;> cases pkt.isKeyFrame <;> rfl

theorem handleVideoTag_tagBody (hv : pkt.isVideo = true) (hfits : pkt.Fits) (rest : List Byte) :
    ∃ q, handleVideoTag (pkt.tagBody ++ rest) pkt.tagBody.length (freshPacket pkt.base) = .handled [q] ∧ q.media = pkt.carried := by
  have htype := hv
  unfold isVideo at htype
  obtain ⟨hav, -⟩ : pkt.avType = .video ∧ (pkt.codec = .h264 ∨ pkt.codec = .h265) := by simpa using htype
  have hlt := delta_lt hfits
  obtain ⟨p0, p1, d0, d1, d2, hhead⟩ := exists_videoHead hv (by omega)
  have hcons := @handleLegacyVideo_cons p0 p1 d0 d1 d2 (pkt.body ++ rest) pkt.tagBody.length
    { freshPacket pkt.base with avType := .video } hhead.known hhead.nalu
  have hbody : pkt.tagBody = p0 :: p1 :: d0 :: d1 :: d2 :: pkt.body := by
    unfold tagBody
    rw [hhead.head]
    rfl
  have hwhole : p0 :: p1 :: d0 :: d1 :: d2 :: (pkt.body ++ rest) = pkt.tagBody ++ rest := by
    rw [hbody]
    rfl
  have hdrop : pkt.tagBody.drop 5 = pkt.body := by rw [hbody]; rfl
  rw [hwhole, take_left, hhead.delta, hhead.seq, hhead.key, hhead.codec] at hcons
  refine ⟨{ freshPacket pkt.base with
    avType := .video, flvOffset := 5, codec := pkt.codec, isSeqHdr := pkt.isSeqHdr, isKeyFrame := !pkt.isSeqHdr && pkt.isKeyFrame,
    pts := pkt.base + pkt.delta, body := pkt.tagBody }, ?_, ?_⟩
  · unfold handleVideoTag
    rw [← hwhole]
    dsimp only
    rw [if_pos hhead.legacy, hwhole, hcons]
    rfl
  · simp [media, carried, freshPacket, hv, hav, hdrop]

theorem handleAudioTag_tagBody (hv : pkt.isVideo = false) (ha : pkt.isAudio = true) (rest : List Byte) :
    handleAudioTag (pkt.tagBody ++ rest) pkt.tagBody.length (freshPacket pkt.base) = .crash ∨ ∃ q, handleAudioTag (pkt.tagBody ++
    rest) pkt.tagBody.length (freshPacket pkt.base) = .handled [q] ∧ q.media = pkt.carried := by
  have htype := ha
  unfold isAudio at htype
  obtain ⟨hav, hcodec⟩ : pkt.avType = .audio ∧ pkt.codec = .aac := by simpa using htype
  have hbody : pkt.tagBody = 0xaf :: (if pkt.isSeqHdr then 0 else 1) :: pkt.body := by simp [tagBody, mediaHead, hv]
  have hhead : pkt.mediaHead ++ pkt.body = pkt.tagBody := rfl
  have haac : (0xaf : Byte) &&& 0xf0 = FLV_AUDIO_AAC_CODEC := rfl
  have hwhole : 0xaf :: (if pkt.isSeqHdr then 0 else 1) :: (pkt.body ++ rest) = pkt.tagBody ++ rest := by
    rw [hbody]
    rfl
  unfold handleAudioTag
  rw [← hwhole]
  dsimp only
  rw [if_pos haac, hwhole, take_left]
  cases hs : pkt.isSeqHdr with
  | false =>
    right
    refine ⟨{ freshPacket pkt.base with
      avType := .audio, codec := .aac, isKeyFrame := true, isSeqHdr := false, body := pkt.tagBody }, rfl, ?_⟩
    simp [media, carried, freshPacket, hv, hav, hcodec, hhead, hs]
  | true =>
    have hzero : decide ((if true = true then 0 else 1 : Byte) = 0) = true := rfl
    rw [hzero, if_pos rfl]
    split
    · exact Or.inl rfl
    · rename_i info hinfo
      right
      refine ⟨_, rfl, ?_⟩
      simp [media, carried, freshPacket, hv, hav, hcodec, hhead, hs]

variable {d : FlvDemuxer} {rest : List Byte}

theorem handleTag_tagBody (hacc : pkt.accepted = true) (hfits : pkt.Fits)
    (htype : d.tagType = pkt.tagType) (hsize : d.tagDataSize = pkt.tagBody.length) (htime : d.tagTimestamp = pkt.base) (hbuf : d.buffer = pkt.tagBody ++ rest) :
    d.handleTag = .crash ∧ pkt.isVideo = false ∨ ∃ q, d.handleTag = .handled [q] ∧ q.media = pkt.carried := by
  unfold FlvDemuxer.handleTag
  dsimp only
  rw [htype, hsize, htime, hbuf]
  cases hv : pkt.isVideo with
  | true =>
    have hvideo : pkt.tagType = FLV_TAG_VIDEO := if_pos hv
    have hne : FLV_TAG_VIDEO ≠ FLV_TAG_AUDIO := by decide
    rw [hvideo, if_neg hne, if_pos rfl]
    exact Or.inr (handleVideoTag_tagBody hv hfits rest)
  | false =>
    have ha : pkt.isAudio = true := by simpa [accepted, hv] using hacc
    have haudio : pkt.tagType = FLV_TAG_AUDIO := if_neg (by simp [hv])
    rw [haudio, if_pos rfl]
    rcases handleAudioTag_tagBody hv ha rest with hcrash | hmade
    · exact Or.inl ⟨hcrash, rfl⟩
    · exact Or.inr hmade

/-! ## The demuxer's run -/

theorem part_of_word {word tail buf rest : List Byte} (h : buf ++ rest = word ++ tail) (hlen : word.length ≤ buf.length) :
    ∃ more, buf = word ++ more ∧ more ++ rest = tail := by
  rcases List.append_eq_append_iff.1 h with ⟨more, hword, htail⟩ | ⟨more, hbuf, htail⟩
  · have hnil : more = [] := by
      rw [hword, length_append] at hlen
      exact List.length_eq_zero_iff.1 (by omega)
    subst hnil
    exact ⟨[], by simpa using hword.symm, by simpa using htail⟩
  · exact ⟨more, hbuf, htail.symm⟩

/-- **What is still to come** for the demuxer: the file's header if it was not there yet, and the tags, from the header of the next
or from behind it. -/
def Expects (m : FlvMuxer) (d : FlvDemuxer) (ps : List CodedPacket) (bytes : List Byte) : Prop :=
  d.tagHeaderReady = false ∧ bytes = (if d.flvHeaderReady then [] else m.muxFlvHeader) ++ ps.flatMap tagBytes ∨
    d.flvHeaderReady = true ∧ d.tagHeaderReady = true ∧ ∃ p qs, ps = p :: qs ∧ d.tagType = p.tagType ∧
      d.tagDataSize = p.tagBody.length ∧ d.tagTimestamp = p.base ∧
      bytes = p.tagBody ++ beBytes 4 (11 + p.tagBody.length) ++ qs.flatMap tagBytes

variable {p : CodedPacket}

theorem readTagHeader_tagHead (hsize : p.tagBody.length < 2 ^ 24) {more : List Byte} (hbuf : d.buffer = p.tagHead ++ more) :
    d.readTagHeader = { d with
      tagType := p.tagType, tagDataSize := p.tagBody.length, tagTimestamp := p.base, tagHeaderReady := true, buffer := more } := by
  have hread : readNBytes (beBytes 3 p.tagBody.length) = p.tagBody.length := by
    rw [readNBytes_beBytes, Nat.mod_eq_of_lt (by omega)]
  have htime : readNBytes (beBytes 3 p.base) = p.base := by
    have hlt := p.base_lt
    rw [readNBytes_beBytes, Nat.mod_eq_of_lt (by omega)]
  obtain ⟨s0, s1, s2, hs⟩ : ∃ s0 s1 s2, beBytes 3 p.tagBody.length = [s0, s1, s2] := ⟨_, _, _, rfl⟩
  obtain ⟨t0, t1, t2, ht⟩ : ∃ t0 t1 t2, beBytes 3 p.base = [t0, t1, t2] := ⟨_, _, _, rfl⟩
  have hcons : d.buffer = p.tagType :: s0 :: s1 :: s2 :: t0 :: t1 :: t2 :: 0 :: 0 :: 0 :: 1 :: more := by
    rw [hbuf]
    simp [tagHead, hs, ht]
  rw [hs] at hread
  rw [ht] at htime
  unfold FlvDemuxer.readTagHeader
  rw [hcons]
  simp [hread, htime]

/-- **What a turn does**: it ends everything at audio, it waits for more, or it makes the next packet. -/
inductive Turned (m : FlvMuxer) (d : FlvDemuxer) (ps : List CodedPacket) (rest : List Byte) : Bool × FlvDemuxer → Prop
  | crash {d' : FlvDemuxer} (hcrash : d'.crashed = true) {p : CodedPacket} (hp : p ∈ ps) (haudio : p.isVideo = false) :
    Turned m d ps rest (false, d')
  | wait {d' : FlvDemuxer} (hok : d'.crashed = false) (hout : d'.out = d.out) (h : Expects m d' ps (d'.buffer ++ rest))
      (hend : rest = [] → ps = []) : Turned m d ps rest (false, d')
  | next {d' : FlvDemuxer} (hok : d'.crashed = false) {p q : CodedPacket} {qs : List CodedPacket} (hps : ps = p :: qs)
      (hout : d'.out = d.out ++ [q]) (hq : q.media = p.carried) (h : Expects m d' qs (d'.buffer ++ rest))
      (hless : d'.buffer.length < d.buffer.length) : Turned m d ps rest (true, d')

theorem handleData_turned {qs : List CodedPacket} (hacc : p.accepted = true) (hfits : p.Fits) (hok : d.crashed = false)
    (hfile : d.flvHeaderReady = true) (hready : d.tagHeaderReady = true) (htype : d.tagType = p.tagType) (hsize : d.tagDataSize =
    p.tagBody.length) (htime : d.tagTimestamp = p.base) (hbytes : d.buffer ++ rest = p.tagBody ++
    beBytes 4 (11 + p.tagBody.length) ++ qs.flatMap tagBytes) : Turned m d (p :: qs) rest d.handleData := by
  have hword : (p.tagBody ++ beBytes 4 (11 + p.tagBody.length)).length = d.tagDataSize + 4 := by simp [hsize]
  unfold FlvDemuxer.handleData
  by_cases hlen : d.buffer.length < d.tagDataSize + 4
  · rw [if_pos hlen]
    refine .wait hok rfl (Or.inr ⟨hfile, hready, p, qs, rfl, htype, hsize, htime, hbytes⟩) fun hnil => ?_
    have hlong := congrArg List.length hbytes
    rw [hnil, append_nil, length_append, hword] at hlong
    omega
  · obtain ⟨more, hbuf, hmore⟩ := part_of_word hbytes (by omega)
    rw [if_neg hlen]
    dsimp only
    rcases handleTag_tagBody hacc hfits htype hsize htime (hbuf.trans (append_assoc _ _ _)) with ⟨hcrash, haudio⟩ | ⟨q, hq, hmedia⟩
    · rw [hcrash]
      exact .crash rfl mem_cons_self haudio
    · rw [hq]
      have hdrop : d.buffer.drop (d.tagDataSize + 4) = more := by rw [hbuf, ← hword, drop_left]
      refine .next hok rfl rfl hmedia (Or.inl ⟨rfl, ?_⟩) ?_
      · dsimp only
        rw [hdrop, hmore, if_pos hfile, nil_append]
      · dsimp only
        rw [length_drop]
        omega

theorem handleBody_turned {ps : List CodedPacket} (hps : ∀ p ∈ ps, p.accepted = true ∧ p.Fits) (hok : d.crashed = false)
    (hfile : d.flvHeaderReady = true) (h : Expects m d ps (d.buffer ++ rest)) : Turned m d ps rest d.handleBody := by
  unfold FlvDemuxer.handleBody
  rcases h with ⟨hready, hbytes⟩ | ⟨-, hready, p, qs, rfl, htype, hsize, htime, hbytes⟩
  swap
  · rw [if_pos hready]
    exact handleData_turned m (hps p mem_cons_self).1 (hps p mem_cons_self).2 hok hfile hready htype hsize htime hbytes
  rw [if_neg (by simp [hready])]
  by_cases hlen : d.buffer.length < 11
  · rw [if_pos hlen]
    refine .wait hok rfl (Or.inl ⟨hready, hbytes⟩) fun hnil => ?_
    cases ps with
    | nil => rfl
    | cons p qs =>
      have hlong := congrArg List.length hbytes
      rw [hnil, if_pos hfile, append_nil, nil_append, flatMap_cons, length_append, p.tagBytes_length] at hlong
      omega
  · rw [if_neg hlen]
    rw [if_pos hfile, nil_append] at hbytes
    cases ps with
    | nil =>
      have hshort := congrArg List.length hbytes
      rw [flatMap_nil, length_nil, length_append] at hshort
      omega
    | cons p qs =>
      obtain ⟨hacc, hfits⟩ := hps p mem_cons_self
      have hhead : d.buffer ++ rest = p.tagHead ++ (p.tagBody ++ beBytes 4 (11 + p.tagBody.length) ++ qs.flatMap tagBytes) := by
        rw [hbytes, flatMap_cons]
        simp [tagBytes]
      have hsmall : p.tagBody.length < 2 ^ 24 := by
        have hbody := hfits.body
        unfold tagBody mediaHead
        split
        · simp
          omega
        · simp
          omega
      obtain ⟨more, hbuf, hmore⟩ := part_of_word hhead (by rw [p.tagHead_length]; omega)
      rw [readTagHeader_tagHead hsmall hbuf]
      have hturned := handleData_turned m (d := { d with
        tagType := p.tagType, tagDataSize := p.tagBody.length, tagTimestamp := p.base, tagHeaderReady := true, buffer := more })
        hacc hfits hok hfile rfl rfl rfl rfl hmore
      generalize FlvDemuxer.handleData _ = r at hturned ⊢
      cases hturned with
      | crash hcrash hp haudio => exact .crash hcrash hp haudio
      | wait hok hout h hend => exact .wait hok hout h hend
      | next hok hps hout hq h hless =>
        refine .next hok hps hout hq h (Nat.lt_trans hless ?_)
        dsimp only
        rw [hbuf, length_append, p.tagHead_length]
        omega

theorem muxFlvHeader_length : m.muxFlvHeader.length = 13 := rfl

theorem readHeader_muxFlvHeader {more : List Byte} (hbuf : d.buffer = m.muxFlvHeader ++ more) :
    ∃ v a, d.readHeader = (true, { d with hasVideo := v, hasAudio := a, buffer := more, flvHeaderReady := true }) := by
  unfold FlvDemuxer.readHeader
  rw [hbuf]
  exact ⟨_, _, rfl⟩

theorem handlePacket_turned {ps : List CodedPacket} (hps : ∀ p ∈ ps, p.accepted = true ∧ p.Fits) (hok : d.crashed = false)
    (h : Expects m d ps (d.buffer ++ rest)) : Turned m d ps rest d.handlePacket := by
  unfold FlvDemuxer.handlePacket
  by_cases hfile : d.flvHeaderReady = true
  · rw [if_pos hfile]
    exact handleBody_turned m hps hok hfile h
  rw [if_neg hfile]
  rcases h with ⟨hready, hbytes⟩ | ⟨hfile', -⟩
  swap
  · exact absurd hfile' hfile
  by_cases hlen : d.buffer.length < 9 + 4
  · rw [if_pos hlen]
    refine .wait hok rfl (Or.inl ⟨hready, hbytes⟩) fun hnil => ?_
    have hlong := congrArg List.length hbytes
    rw [hnil, if_neg hfile, append_nil, length_append, muxFlvHeader_length] at hlong
    omega
  · rw [if_neg hlen]
    rw [if_neg hfile] at hbytes
    obtain ⟨more, hbuf, hmore⟩ := part_of_word hbytes (by rw [muxFlvHeader_length]; omega)
    obtain ⟨v, a, hread⟩ := readHeader_muxFlvHeader m hbuf
    rw [hread]
    dsimp only
    have hturned := handleBody_turned m (d := { d with hasVideo := v, hasAudio := a, buffer := more, flvHeaderReady := true })
      hps hok rfl (Or.inl ⟨hready, hmore⟩)
    generalize FlvDemuxer.handleBody _ = r at hturned ⊢
    cases hturned with
    | crash hcrash hp haudio => exact .crash hcrash hp haudio
    | wait hok hout h hend => exact .wait hok hout h hend
    | next hok hps hout hq h hless =>
      refine .next hok hps hout hq h (Nat.lt_trans hless ?_)
      dsimp only
      rw [hbuf, length_append, muxFlvHeader_length]
      omega

/-- **Where the demuxer got** on its way: it ended at audio, or it made the packets up to here. -/
def Got (m : FlvMuxer) (ps : List CodedPacket) (out : List CodedPacket) (rest : List Byte) (d : FlvDemuxer) : Prop :=
  (d.crashed = true ∧ ∃ p ∈ ps, p.isVideo = false) ∨
    d.crashed = false ∧ ∃ done todo made, ps = done ++ todo ∧ d.out = out ++ made ∧ made.map media = done.map carried ∧
      Expects m d todo (d.buffer ++ rest) ∧ (rest = [] → todo = [])

theorem handlePackets_got (m : FlvMuxer) (rest : List Byte) : ∀ (fuel : Nat) (d : FlvDemuxer) (ps : List CodedPacket),
    (∀ p ∈ ps, p.accepted = true ∧ p.Fits) → d.crashed = false → Expects m d ps (d.buffer ++ rest) → d.buffer.length < fuel →
    Got m ps d.out rest (FlvDemuxer.handlePackets fuel d)
  | 0, _, _, _, _, _, hfuel => absurd hfuel (Nat.not_lt_zero _)
  | fuel + 1, d, ps, hps, hok, h, hfuel => by
    unfold FlvDemuxer.handlePackets
    have hturned := handlePacket_turned m hps hok h
    generalize d.handlePacket = r at hturned ⊢
    cases hturned with
    | crash hcrash hp haudio => exact Or.inl ⟨hcrash, _, hp, haudio⟩
    | wait hok hout h hend =>
      exact Or.inr ⟨hok, [], ps, [], rfl, by rw [hout, append_nil], rfl, h, hend⟩
    | @next d' hok' p q qs heq hout hq h' hless =>
      subst heq
      rcases handlePackets_got m rest fuel d' qs (fun p hp => hps p (mem_cons_of_mem _ hp)) hok' h' (by omega) with
        ⟨hcrash, p', hp', haudio⟩ | ⟨hok', done, todo, made, hqs, hout', hmade, h', hend⟩
      · exact Or.inl ⟨hcrash, p', mem_cons_of_mem _ hp', haudio⟩
      · refine Or.inr ⟨hok', p :: done, todo, q :: made, by rw [hqs, cons_append], ?_, ?_, h', hend⟩
        · rw [hout', hout, append_assoc, singleton_append]
        · rw [map_cons, map_cons, hq, hmade]

theorem crashed_pieces : ∀ (pieces : List (List Byte)) (d : FlvDemuxer), d.crashed = true →
    pieces.foldl FlvDemuxer.inputPacket d = d
  | [], _, _ => rfl
  | piece :: pieces, d, h => by
    have hstay : d.inputPacket piece = d := if_pos h
    rw [foldl_cons, hstay, crashed_pieces pieces d h]

theorem demux_pieces (m : FlvMuxer) : ∀ (pieces : List (List Byte)) (d : FlvDemuxer) (ps : List CodedPacket),
    (∀ p ∈ ps, p.accepted = true ∧ p.Fits) → d.crashed = false → Expects m d ps (d.buffer ++ pieces.flatten) →
    (pieces.flatten = [] → ps = []) →
    ((pieces.foldl FlvDemuxer.inputPacket d).crashed = true ∧ ∃ p ∈ ps, p.isVideo = false) ∨
      (pieces.foldl FlvDemuxer.inputPacket d).crashed = false ∧
        ∃ made, (pieces.foldl FlvDemuxer.inputPacket d).out = d.out ++ made ∧ made.map media = ps.map carried
  | [], d, ps, _, hok, _, hend => by
    rw [hend rfl]
    exact Or.inr ⟨hok, [], (append_nil _).symm, rfl⟩
  | piece :: pieces, d, ps, hps, hok, h, _ => by
    have hinput : d.inputPacket piece =
        FlvDemuxer.handlePackets ((d.buffer ++ piece).length + 1) { d with buffer := d.buffer ++ piece } :=
      if_neg (by simp [hok])
    rw [flatten_cons, ← append_assoc] at h
    rw [foldl_cons, hinput]
    have hgot := handlePackets_got m pieces.flatten ((d.buffer ++ piece).length + 1) { d with buffer := d.buffer ++ piece } ps
      hps hok h (Nat.lt_succ_self _)
    generalize FlvDemuxer.handlePackets _ _ = d' at hgot ⊢
    rcases hgot with ⟨hcrash, hp⟩ | ⟨hok', done, todo, made, rfl, hout, hmade, h', hend⟩
    · rw [crashed_pieces pieces d' hcrash]
      exact Or.inl ⟨hcrash, hp⟩
    · rcases demux_pieces m pieces d' todo (fun p hp => hps p (mem_append_right _ hp)) hok' h' hend with
        ⟨hcrash, p, hp, haudio⟩ | ⟨hok'', made', hout', hmade'⟩
      · exact Or.inl ⟨hcrash, p, mem_append_right _ hp, haudio⟩
      · refine Or.inr ⟨hok'', made ++ made', ?_, ?_⟩
        · rw [hout', hout, append_assoc]
        · rw [map_append, map_append, hmade, hmade']

/-! ## Without the file's header -/

theorem demux_nothing : ∀ (pieces : List (List Byte)) (d : FlvDemuxer), d.flvHeaderReady = false → d.crashed = false →
    (∀ x bytes, d.buffer ++ pieces.flatten = x :: bytes → x ≠ 0x46) →
    (pieces.foldl FlvDemuxer.inputPacket d).crashed = false ∧ (pieces.foldl FlvDemuxer.inputPacket d).out = d.out
  | [], _, _, hok, _ => ⟨hok, rfl⟩
  | piece :: pieces, d, hfile, hok, hbytes => by
    rw [flatten_cons, ← append_assoc] at hbytes
    have hpacket : FlvDemuxer.handlePacket { d with buffer := d.buffer ++ piece } = (false, { d with buffer := d.buffer ++ piece }) := by
      unfold FlvDemuxer.handlePacket
      rw [if_neg (by simp [hfile])]
      dsimp only
      split
      · rfl
      · have hread : FlvDemuxer.readHeader { d with buffer := d.buffer ++ piece } =
            (false, { d with buffer := d.buffer ++ piece }) := by
          unfold FlvDemuxer.readHeader
          cases hbuf : d.buffer ++ piece with
          | nil => rfl
          | cons x bytes =>
            have hne : x ≠ 0x46 := hbytes x (bytes ++ pieces.flatten) (by rw [hbuf]; rfl)
            have hno : (x :: bytes).take 3 ≠ [0x46, 0x4c, 0x56] := fun h => hne (List.cons.inj h).1
            dsimp only
            rw [if_pos hno]
        rw [hread]
    have hinput : d.inputPacket piece = { d with buffer := d.buffer ++ piece } := by
      unfold FlvDemuxer.inputPacket
      rw [if_neg (by simp [hok])]
      dsimp only
      unfold FlvDemuxer.handlePackets
      rw [hpacket]
    rw [foldl_cons, hinput]
    exact demux_nothing pieces { d with buffer := d.buffer ++ piece } hfile hok hbytes

theorem tagBytes_first (ps : List CodedPacket) : ∀ x bytes, ps.flatMap tagBytes = x :: bytes → x ≠ 0x46 := by
  intro x bytes h
  cases ps with
  | nil => cases h
  | cons p ps =>
    have hx : x = p.tagType := by
      rw [flatMap_cons] at h
      exact (List.cons.inj h).1.symm
    rw [hx]
    unfold tagType
    split <;> decide

/-! ## The round trip -/

theorem carried_eq_given (hacc : p.accepted = true) (hfits : p.Fits) :
    p.carried = p.given ↔ p.avType = .video ∧ p.dts < 2 ^ 24 ∧ ¬(p.isSeqHdr = true ∧ p.isKeyFrame = true) := by
  have hdts := hfits.dts
  have hpts := hfits.pts
  have hbase : (p.base : Int) = p.dts ↔ p.dts < 2 ^ 24 := by
    unfold base
    omega
  constructor
  · intro h
    have hpayload := congrArg FlvMedia.payload h
    have hv : p.isVideo = true := by
      by_contra hv
      have hlen := congrArg List.length hpayload
      simp [carried, given, media, hv, mediaHead] at hlen
      omega
    have htype := hv
    unfold isVideo at htype
    obtain ⟨hav, -⟩ : p.avType = .video ∧ (p.codec = .h264 ∨ p.codec = .h265) := by simpa using htype
    have htime : (p.base : Int) = p.dts := congrArg FlvMedia.dts h
    have hkey : (p.isVideo && !p.isSeqHdr && p.isKeyFrame) = (decide (p.avType = .video) && p.isKeyFrame) :=
      congrArg FlvMedia.isKeyFrame h
    refine ⟨hav, hbase.1 htime, fun hboth => ?_⟩
    simp [hv, hav, hboth.1, hboth.2] at hkey
  · rintro ⟨hav, htime, hkey⟩
    have hv : p.isVideo = true := by
      have ha : p.isAudio = false := by simp [isAudio, hav]
      simpa [accepted, ha] using hacc
    have hdelta : p.dts + p.delta = p.pts := by
      unfold delta
      split <;> omega
    have hflag : (p.isVideo && !p.isSeqHdr && p.isKeyFrame) = (decide (p.avType = .video) && p.isKeyFrame) := by
      cases hs : p.isSeqHdr <;> cases hk : p.isKeyFrame <;> simp_all
    unfold carried given media
    dsimp only
    rw [hflag, if_pos hv, if_pos hv, hbase.2 htime, hdelta, drop_zero]

theorem filter_accepted (hgiven : ∀ p ∈ pkts, FlvGiven p) : ∀ p ∈ pkts.filter accepted, p.accepted = true ∧ p.Fits := by
  intro p hp
  obtain ⟨hmem, hacc⟩ := List.mem_filter.1 hp
  rcases hgiven p hmem with hrej | hfits
  · rw [mediaTag_accepted hacc] at hrej
    cases hrej
  · exact hfits

def newMuxer (video audio : Bool) : FlvMuxer := { hasVideo := video, hasAudio := audio }

theorem roundTrips_of_none (video audio : Bool) (hgiven : ∀ pkt ∈ pkts, FlvGiven pkt)
    (hnone : ∀ pkt ∈ pkts, pkt.accepted = false) : FlvRoundTrips (newMuxer video audio) pkts := by
  have hfilter : pkts.filter accepted = [] := List.filter_eq_nil_iff.2 fun p hp => by simp [hnone p hp]
  have hbytes : (newMuxer video audio).inputPackets pkts = [] := by
    cases pkts with
    | nil => rfl
    | cons pkt pkts =>
      rw [FlvMuxer.inputPackets_first _ rfl hgiven, hfilter, hnone pkt mem_cons_self]
      rfl
  intro pieces hpieces
  have hempty : ∀ x bytes, ({} : FlvDemuxer).buffer ++ pieces.flatten = x :: bytes → x ≠ 0x46 := by
    rw [hpieces, hbytes]
    intro x bytes h
    cases h
  obtain ⟨hok, hout⟩ := demux_nothing pieces {} rfl rfl hempty
  rw [hout, hfilter]
  exact ⟨hok, rfl⟩

theorem header_lost (video audio : Bool) {pkt : CodedPacket} {pkts : List CodedPacket} (hgiven : ∀ q ∈ pkt :: pkts, FlvGiven q)
    (hrej : pkt.accepted = false) (hsome : ∃ q ∈ pkts, q.accepted = true) :
    ¬FlvRoundTrips (newMuxer video audio) (pkt :: pkts) := by
  intro h
  obtain ⟨q, hq, hacc⟩ := hsome
  have hmem : q ∈ (pkt :: pkts).filter accepted := List.mem_filter.2 ⟨mem_cons_of_mem _ hq, hacc⟩
  have hbytes : (newMuxer video audio).inputPackets (pkt :: pkts) = ((pkt :: pkts).filter accepted).flatMap tagBytes := by
    rw [FlvMuxer.inputPackets_first _ rfl hgiven, hrej]
    rfl
  obtain ⟨-, hout⟩ := h [(newMuxer video audio).inputPackets (pkt :: pkts)] (by simp)
  obtain ⟨-, hnothing⟩ := demux_nothing [(newMuxer video audio).inputPackets (pkt :: pkts)] {} rfl rfl (by
    intro x bytes hx
    rw [hbytes] at hx
    exact tagBytes_first _ x bytes (by simpa using hx))
  rw [hnothing] at hout
  rw [List.map_eq_nil_iff.1 hout.symm] at hmem
  cases hmem

theorem roundTrips_iff_carried (video audio : Bool) (hgiven : ∀ q ∈ pkt :: pkts, FlvGiven q) (hacc : pkt.accepted = true) :
    FlvRoundTrips (newMuxer video audio) (pkt :: pkts) ↔ ∀ p ∈ (pkt :: pkts).filter accepted, p.carried = p.given := by
  have haccepted := filter_accepted hgiven
  have hfirst := FlvMuxer.inputPackets_first (newMuxer video audio) rfl hgiven
  rw [if_pos hacc] at hfirst
  have hrun : ∀ pieces : List (List Byte), pieces.flatten = (newMuxer video audio).inputPackets (pkt :: pkts) →
      ((pieces.foldl FlvDemuxer.inputPacket {}).crashed = true ∧ ∃ p ∈ (pkt :: pkts).filter accepted, p.isVideo = false) ∨
        (pieces.foldl FlvDemuxer.inputPacket {}).crashed = false ∧
          ∃ made, (pieces.foldl FlvDemuxer.inputPacket {}).out = ([] : List CodedPacket) ++ made ∧
            made.map media = ((pkt :: pkts).filter accepted).map carried := by
    intro pieces hpieces
    refine demux_pieces (newMuxer video audio) pieces {} _ haccepted rfl (Or.inl ⟨rfl, hpieces.trans hfirst⟩) fun hnil => ?_
    rw [hpieces, hfirst] at hnil
    cases hnil
  constructor
  · intro h
    obtain ⟨hok, hout⟩ := h [(newMuxer video audio).inputPackets (pkt :: pkts)] (by simp)
    rcases hrun [(newMuxer video audio).inputPackets (pkt :: pkts)] (by simp) with ⟨hcrash, -⟩ | ⟨-, made, hmade, hmedia⟩
    · rw [hok] at hcrash
      cases hcrash
    · rw [hmade, nil_append, hmedia] at hout
      exact List.map_inj_left.1 hout
  · intro hall pieces hpieces
    rcases hrun pieces hpieces with ⟨-, p, hp, haudio⟩ | ⟨hok, made, hmade, hmedia⟩
    · obtain ⟨hpacc, hfits⟩ := haccepted p hp
      have hv := ((carried_eq_given hpacc hfits).1 (hall p hp)).1
      simp [accepted, haudio, isAudio, hv] at hpacc
    · refine ⟨hok, ?_⟩
      rw [hmade, nil_append, hmedia]
      exact map_congr_left hall

/-- **Packets come out as they went in exactly where** the first one is accepted, if any is, and all of them are video without a
slip: AAC never is, and neither is a packet from 2^24 milliseconds on. -/
theorem flv_round_trips (video audio : Bool) (pkts : List CodedPacket) (hgiven : ∀ pkt ∈ pkts, FlvGiven pkt) :
    FlvRoundTrips (newMuxer video audio) pkts ↔ FlvCarried pkts := by
  by_cases hnone : ∀ pkt ∈ pkts, pkt.accepted = false
  · exact ⟨fun _ => Or.inl hnone, fun _ => roundTrips_of_none video audio hgiven hnone⟩
  cases pkts with
  | nil => exact absurd (fun _ h => by cases h) hnone
  | cons pkt pkts =>
    by_cases hacc : pkt.accepted = true
    · rw [roundTrips_iff_carried video audio hgiven hacc]
      constructor
      · intro hall
        refine Or.inr ⟨⟨pkt, pkts, rfl, hacc⟩, fun p hmem hpacc => ?_⟩
        have hp := List.mem_filter.2 ⟨hmem, hpacc⟩
        exact (carried_eq_given hpacc (filter_accepted hgiven p hp).2).1 (hall p hp)
      · rintro (hno | ⟨-, hall⟩) p hp
        · exact absurd hno hnone
        · obtain ⟨hmem, hpacc⟩ := List.mem_filter.1 hp
          exact (carried_eq_given hpacc (filter_accepted hgiven p hp).2).2 (hall p hmem hpacc)
    · have hrej : pkt.accepted = false := Bool.eq_false_iff.2 hacc
      have hsome : ∃ q ∈ pkts, q.accepted = true := by
        by_contra hno
        refine hnone fun q hq => ?_
        rcases List.mem_cons.1 hq with rfl | hq
        · exact hrej
        · exact Bool.eq_false_iff.2 fun h => hno ⟨q, hq, h⟩
      refine ⟨fun h => absurd h (header_lost video audio hgiven hrej hsome), ?_⟩
      rintro (hno | ⟨⟨q, qs, heq, hq⟩, -⟩)
      · exact absurd hno hnone
      · cases heq
        exact absurd hq hacc

def h264Frame (dts : Int) : CodedPacket :=
  { avType := .video, isSeqHdr := false, isKeyFrame := true, dts, pts := dts, body := [0x65], codec := .h264 }

theorem flv_round_trips_frame : FlvRoundTrips (newMuxer true true) [h264Frame 40] ↔ FlvCarried [h264Frame 40] := by
  refine flv_round_trips true true [h264Frame 40] fun pkt hpkt => ?_
  rw [List.mem_singleton.1 hpkt]
  exact Or.inr ⟨rfl, ⟨by decide, by decide, by decide⟩⟩

/-- **A frame of the time 2^24 comes out with the time 0.** -/
theorem flv_time_lost : ¬∀ (video audio : Bool) (pkts : List CodedPacket), (∀ pkt ∈ pkts, FlvGiven pkt) →
    FlvRoundTrips (newMuxer video audio) pkts := by
  intro h
  have hfits : (h264Frame 16777216).Fits := ⟨by decide, by decide, by decide⟩
  have hgiven : ∀ pkt ∈ [h264Frame 16777216], FlvGiven pkt := by
    intro pkt hpkt
    rw [List.mem_singleton.1 hpkt]
    exact Or.inr ⟨rfl, hfits⟩
  have hcarried := (roundTrips_iff_carried true true hgiven rfl).1 (h true true _ hgiven) (h264Frame 16777216) (by decide)
  exact absurd hcarried (by decide)

end MoqLiveCast
