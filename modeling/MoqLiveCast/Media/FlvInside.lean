import MoqLiveCast.Media.FlvParse
/-!
# FlvInside — the parsers of a tag's body look behind it

Neither of them compares a length with what it is about to read, but for a message of no or one byte.
-/
namespace MoqLiveCast

open Reading

/-! ## Staying inside -/

def blockOf (body : List Byte) (beyond : Nat → Byte) (i : Nat) : Byte := (body[i]?).getD (beyond i)

section

variable {α γ : Type} (packet : α → Option CodedPacket)

/-- A program stays inside `n` bytes, and its packet begins there. -/
def StaysIn (n : Nat) (b : Nat → Byte) (m : Reading Byte α) : Prop :=
  m.Inside n b ∧ ∀ pkt ∈ packet (m.run b), pkt.flvOffset ≤ n

/-- **A body is parsed inside**: no byte behind it is read or handed on, no length wraps, and the packet's payload begins in it. -/
def ParsedInside (body : List Byte) (m : Reading Byte α) : Prop :=
  ∀ beyond, StaysIn packet body.length (blockOf body beyond) m

def bodyCells (body : List Byte) : Nat → Byte := blockOf body fun _ => 0

theorem parsedInside_iff (body : List Byte) (m : Reading Byte α) :
    ParsedInside packet body m ↔ StaysIn packet body.length (bodyCells body) m := by
  refine ⟨fun h => h _, fun ⟨hinside, hpacket⟩ beyond => ?_⟩
  have hsame : ∀ i < body.length, bodyCells body i = blockOf body beyond i := fun i hi => by
    unfold bodyCells blockOf
    rw [List.getElem?_eq_getElem hi]
    rfl
  obtain ⟨hinside', hrun⟩ := hinside.congr hsame
  refine ⟨hinside', fun pkt hpkt => hpacket pkt ?_⟩
  rwa [hrun]

variable {packet} {n : Nat} {b : Nat → Byte}

theorem stays_pure (a : α) : StaysIn packet n b (pure a) ↔ ∀ pkt ∈ packet a, pkt.flvOffset ≤ n := and_iff_right trivial

theorem stays_bind (m : Reading Byte γ) (f : γ → Reading Byte α) :
    StaysIn packet n b (m >>= f) ↔ m.Inside n b ∧ StaysIn packet n b (f (m.run b)) := by
  unfold StaysIn
  rw [inside_bind, run_bind, and_assoc]

theorem stays_cell (i : Nat) (f : Byte → Reading Byte α) :
    StaysIn packet n b (cell i >>= f) ↔ i < n ∧ StaysIn packet n b (f (b i)) := by
  rw [stays_bind, inside_cell, run_cell]

theorem stays_cells (i : Nat) {len : Nat} (hpos : 0 < len) (f : List Byte → Reading Byte α) :
    StaysIn packet n b (cells i len >>= f) ↔ i + len ≤ n ∧ StaysIn packet n b (f (slice b i len)) := by
  rw [stays_bind, inside_cells b n i len hpos, run_cells]

theorem stays_handOver (start len : Nat) (f : Unit → Reading Byte α) :
    StaysIn packet n b (handOver start len >>= f) ↔ start + len ≤ n ∧ StaysIn packet n b (f ()) := by
  rw [stays_bind, inside_handOver]

theorem stays_difference (w a d : Nat) (f : Nat → Reading Byte α) :
    StaysIn packet n b (difference w a d >>= f) ↔ d ≤ a ∧ StaysIn packet n b (f ((a - d) % 2 ^ w)) := by
  rw [stays_bind, inside_difference]
  exact and_congr_right fun hle => by rw [run_difference b w hle]

end

/-! ## Messages of RTMP -/

namespace FlvPub

variable (b : Nat → Byte)

def legacyHead : Nat :=
  let codec := b 0 &&& 0x0f
  if codec ≠ FLV_VIDEO_H264_CODEC ∧ codec ≠ FLV_VIDEO_H265_CODEC then 1
  else if b 0 &&& 0xf0 = FLV_VIDEO_KEY_FLAG ∧ b 1 = FLV_VIDEO_AVC_END then 2
  else 5

def enhancedHead : Nat :=
  let packetType := (b 0).toNat % 16
  if packetType = videoModex then 1
  else if packetType ≠ videoMetaData ∧ (b 0).toNat / 16 % 8 = videoCommandFrame then 1
  else if packetType = videoMultitrack then if (b 1).toNat / 16 = manyTracksManyCodecs then 2 else 12
  else if packetType = videoMetaData ∨ packetType = videoSequenceStart ∨ packetType = videoCodedFrames ∨
    packetType = videoCodedFramesX then 5
  else 9

def audioHead : Nat :=
  let frameType := b 0 &&& 0xf0
  let packetType := (b 0).toNat % 16
  if frameType = FLV_AUDIO_AAC_CODEC then 2
  else if frameType ≠ FLV_AUDIO_EX_HEADER ∨ packetType = audioPktModex then 1
  else if packetType = audioPktMultiTrack then if (b 1).toNat / 16 = manyTracksManyCodecs then 2 else 6
  else 5

def head (typeId : Byte) : Nat :=
  if typeId = FLV_TAG_VIDEO then if b 0 &&& 0x80 = 0 then legacyHead b else enhancedHead b
  else if typeId = FLV_TAG_AUDIO then audioHead b
  else 0

variable {b} {n ts : Nat}

theorem stays_tagAt {α : Type} {packet : α → Option CodedPacket} (i : Nat) (f : Nat → Reading Byte α) :
    StaysIn packet n b (tagAt i >>= f) ↔ i + 4 ≤ n ∧ StaysIn packet n b (f (readNBytes (slice b i 4))) := by
  have hinside : (tagAt i).Inside n b ↔ i + 4 ≤ n := by
    unfold tagAt
    rw [inside_bind, inside_cells b n i 4 (by decide), and_iff_left (inside_pure b n _)]
  rw [stays_bind, hinside]
  unfold tagAt
  rw [run_bind, run_cells, run_pure]

theorem stays_some {p : CodedPacket} : StaysIn id n b (pure (some p)) ↔ p.flvOffset ≤ n := by
  rw [stays_pure]
  exact ⟨fun h => h p rfl, fun h pkt hpkt => Option.some.inj hpkt ▸ h⟩

theorem stays_none : StaysIn id n b (pure (none : Option CodedPacket)) := by
  rw [stays_pure]
  exact fun pkt hpkt => by cases hpkt

theorem stays_legacyVideo (hpos : 0 < n) : StaysIn id n b (legacyVideo ts (b 0)) ↔ legacyHead b ≤ n := by
  unfold legacyVideo legacyHead
  dsimp only
  split
  · exact iff_of_true stays_none hpos
  rw [stays_cell]
  simp only [decide_eq_true_eq]
  split
  · rw [and_iff_left stays_none]
    exact Iff.rfl
  split
  · rw [stays_some]
    dsimp only
    omega
  · rw [stays_cells 2 (by decide), stays_some]
    dsimp only [stamped]
    omega

theorem stays_enhancedVideo (hpos : 0 < n) : StaysIn id n b (enhancedVideo ts (b 0)) ↔ enhancedHead b ≤ n := by
  unfold enhancedVideo enhancedHead
  dsimp only
  split
  · exact iff_of_true stays_none hpos
  split
  · exact iff_of_true stays_none hpos
  split
  · rw [stays_cell]
    split
    · rw [and_iff_left stays_none]
      exact Iff.rfl
    · rw [stays_tagAt, stays_cells 8 (by decide), stays_some]
      dsimp only [stamped]
      omega
  · unfold oneTrackVideo
    dsimp only
    rw [stays_tagAt]
    by_cases hmeta : (b 0).toNat % 16 = videoMetaData
    · rw [if_pos hmeta, if_pos (.inl hmeta), stays_some]
      dsimp only [stamped]
      omega
    by_cases hstart : (b 0).toNat % 16 = videoSequenceStart
    · rw [if_neg hmeta, if_pos hstart, if_pos (.inr (.inl hstart)), stays_some]
      dsimp only [stamped]
      omega
    by_cases hcoded : (b 0).toNat % 16 = videoCodedFrames ∨ (b 0).toNat % 16 = videoCodedFramesX
    · rw [if_neg hmeta, if_neg hstart, if_pos hcoded, if_pos (.inr (.inr hcoded)), stays_some]
      dsimp only [stamped]
      omega
    · rw [if_neg hmeta, if_neg hstart, if_neg hcoded, if_neg fun h => h.elim hmeta fun h => h.elim hstart hcoded,
        stays_cells 5 (by decide), stays_some]
      dsimp only [stamped]
      omega

theorem stays_audio (hpos : 0 < n) : StaysIn id n b (audio ts) ↔ audioHead b ≤ n := by
  unfold audio audioHead
  dsimp only
  rw [stays_cell, and_iff_right hpos]
  by_cases haac : b 0 &&& 0xf0 = FLV_AUDIO_AAC_CODEC
  · rw [if_pos haac, if_pos haac, stays_cell, stays_some]
    dsimp only [stamped]
    omega
  rw [if_neg haac, if_neg haac]
  by_cases hex : b 0 &&& 0xf0 = FLV_AUDIO_EX_HEADER
  swap
  · rw [if_neg hex, if_pos (.inl hex)]
    exact iff_of_true stays_none hpos
  rw [if_pos hex]
  by_cases hmodex : (b 0).toNat % 16 = audioPktModex
  · rw [if_pos hmodex, if_pos (.inr hmodex)]
    exact iff_of_true stays_none hpos
  have hheld : ¬(b 0 &&& 0xf0 ≠ FLV_AUDIO_EX_HEADER ∨ (b 0).toNat % 16 = audioPktModex) := fun h => h.elim (· hex) hmodex
  rw [if_neg hmodex, if_neg hheld]
  split
  · rw [stays_cell]
    split
    · rw [and_iff_left stays_none]
      exact Iff.rfl
    · rw [stays_tagAt, stays_some]
      dsimp only [stamped]
      omega
  · rw [stays_tagAt]
    split
    · rw [stays_some]
      dsimp only [stamped]
      omega
    split
    · rw [stays_some]
      dsimp only [stamped]
      omega
    split
    · rw [stays_some]
      dsimp only [stamped]
      omega
    · rw [and_iff_left stays_none]

theorem stays_getFlvMediaPacket (typeId : Byte) : StaysIn id n b (getFlvMediaPacket typeId ts n) ↔ n = 0 ∨ head b typeId ≤ n := by
  unfold getFlvMediaPacket head
  by_cases hzero : n = 0
  · rw [if_pos hzero]
    exact iff_of_true stays_none (.inl hzero)
  have hpos : 0 < n := Nat.pos_of_ne_zero hzero
  rw [if_neg hzero, or_iff_right hzero]
  split
  · rw [stays_cell, and_iff_right hpos]
    split
    · exact stays_legacyVideo hpos
    · exact stays_enhancedVideo hpos
  split
  · exact stays_audio hpos
  split
  · rw [stays_some]
    rfl
  · exact iff_of_true stays_none (Nat.zero_le n)

theorem stays_naluFormat {start rest : Nat} (hle : start + rest ≤ n) (f : Unit → Reading Byte (Option CodedPacket)) :
    StaysIn id n b (getNaluFormatType start rest >>= f) ↔ StaysIn id n b (f ()) := by
  rw [stays_bind]
  refine and_iff_right ?_
  unfold getNaluFormatType
  split
  · exact inside_pure b n ()
  rw [inside_bind, inside_cells b n start 3 (by decide)]
  refine ⟨by omega, ?_⟩
  split
  · rw [inside_bind, inside_cell]
    exact ⟨by omega, inside_pure b n ()⟩
  · exact inside_pure b n ()

theorem stays_getMediaPacket (typeId : Byte) : StaysIn id n b (getMediaPacket typeId ts n) ↔ n < 2 ∨ head b typeId ≤ n := by
  unfold getMediaPacket
  by_cases hshort : n < 2
  · rw [if_pos hshort]
    exact iff_of_true stays_none (.inl hshort)
  have hfirst : StaysIn id n b (getFlvMediaPacket typeId ts n) ↔ n = 0 ∨ head b typeId ≤ n := stays_getFlvMediaPacket typeId
  rw [or_iff_right (by omega)] at hfirst
  rw [if_neg hshort, or_iff_right hshort, stays_bind, ← hfirst]
  unfold StaysIn
  refine and_congr_right fun _ => ?_
  cases hrun : (getFlvMediaPacket typeId ts n).run b with
  | none => exact iff_of_true stays_none fun pkt hpkt => by cases hpkt
  | some pkt =>
    have hoffset : (∀ p ∈ id (some pkt), p.flvOffset ≤ n) ↔ pkt.flvOffset ≤ n :=
      ⟨fun h => h pkt rfl, fun h p hp => Option.some.inj hp ▸ h⟩
    rw [hoffset]
    have hrest : StaysIn id n b (do
        let rest ← difference 64 n pkt.flvOffset
        getNaluFormatType pkt.flvOffset rest
        if pkt.avType = .video ∧ pkt.isSeqHdr ∧ pkt.codec = .h265 then handOver pkt.flvOffset rest
        else if pkt.avType = .audio ∧ pkt.isSeqHdr then handOver 0 n
        return some pkt) ↔ pkt.flvOffset ≤ n := by
      rw [stays_difference]
      refine and_iff_left_of_imp fun hle => ?_
      have hmod : (n - pkt.flvOffset) % 2 ^ 64 ≤ n - pkt.flvOffset := Nat.mod_le _ _
      rw [stays_naluFormat (by omega)]
      split
      · rw [stays_handOver, stays_some]
        exact ⟨by omega, hle⟩
      split
      · rw [stays_handOver, stays_some]
        exact ⟨by omega, hle⟩
      · exact stays_some.2 hle
    exact hrest

end FlvPub

/-! ## Tags of a file -/

def TagParsed.packet : TagParsed → Option CodedPacket
  | .handled pkt => pkt
  | _ => none

namespace FlvTag

variable (b : Nat → Byte)

def Timed : Prop :=
  getVideoCodecIdByFlvCodec (readNBytes (slice b 1 4)) = .h264 ∨ getVideoCodecIdByFlvCodec (readNBytes (slice b 1 4)) = .h265

instance : Decidable (Timed b) := inferInstanceAs (Decidable (_ ∨ _))

def legacyHead : Nat :=
  let codec := b 0 &&& 0x0f
  if codec ≠ FLV_VIDEO_H264_CODEC ∧ codec ≠ FLV_VIDEO_H265_CODEC then 1
  else if b 0 &&& 0xf0 = FLV_VIDEO_KEY_FLAG ∧ b 1 ≠ FLV_VIDEO_AVC_SEQHDR ∧ b 1 ≠ FLV_VIDEO_AVC_NALU then 2
  else 5

def enhancedHead : Nat :=
  let packetType := (b 0).toNat % 16
  if packetType = videoModex then 1
  else if packetType ≠ videoMetaData ∧ (b 0).toNat / 16 % 8 = videoCommandFrame then 1
  else if packetType = videoMetaData then if (b 1).toNat / 16 = manyTracksManyCodecs then 2 else 10
  else if packetType = videoSequenceStart ∨ packetType = videoCodedFrames ∨ packetType = videoCodedFramesX then
    if Timed b then 8 else 5
  else 9

def videoHead : Nat := if b 0 &&& 0x80 = 0 then legacyHead b else enhancedHead b

def SequenceHeader : Prop :=
  if b 0 &&& 0x80 = 0 then
    (b 0 &&& 0x0f = FLV_VIDEO_H264_CODEC ∨ b 0 &&& 0x0f = FLV_VIDEO_H265_CODEC) ∧ b 0 &&& 0xf0 = FLV_VIDEO_KEY_FLAG ∧
      b 1 = FLV_VIDEO_AVC_SEQHDR
  else (b 0).toNat % 16 = videoSequenceStart ∧ (b 0).toNat / 16 % 8 ≠ videoCommandFrame ∧ Timed b

/-- The audio configuration has its sample rate written out, of which the third byte is read whether there is one or not. -/
def LongRate : Prop :=
  let field := readNBytes (slice b 2 2)
  b 0 &&& 0xf0 = FLV_AUDIO_AAC_CODEC ∧ b 1 = 0 ∧ field / 2048 ≠ 31 ∧ field / 128 % 16 = 0x0f

/-- **The condition**: a tag is as long as its head, a configuration of two bytes says a sample rate by its index, and no sequence
header of H.264 or H.265 is taken out of its media header. -/
def Fits (hdr : Bool) (tagType : Byte) (n : Nat) : Prop :=
  if tagType = FLV_TAG_AUDIO then 2 ≤ n ∧ (n = 4 → ¬LongRate b)
  else if tagType = FLV_TAG_VIDEO then videoHead b ≤ n ∧ (hdr = true ∨ ¬SequenceHeader b)
  else True

variable {b} {n : Nat} {hdr : Bool}

theorem stays_handled {p : CodedPacket} : StaysIn TagParsed.packet n b (pure (.handled (some p))) ↔ p.flvOffset ≤ n := by
  rw [stays_pure]
  exact ⟨fun h => h p rfl, fun h pkt hpkt => Option.some.inj hpkt ▸ h⟩

theorem stays_nothing {r : TagParsed} (hnone : r.packet = none) : StaysIn TagParsed.packet n b (pure r) := by
  rw [stays_pure, hnone]
  exact fun pkt hpkt => by cases hpkt

theorem stays_sinkVideo {pkt : CodedPacket} (hpos : 0 < pkt.flvOffset) : StaysIn TagParsed.packet n b (sinkVideo hdr n pkt) ↔
    pkt.flvOffset ≤ n ∧ (hdr = true ∨ ¬(pkt.isSeqHdr = true ∧ (pkt.codec = .h264 ∨ pkt.codec = .h265))) := by
  unfold sinkVideo
  split
  · rename_i hhdr
    rw [stays_handOver, stays_handled]
    simp [hhdr]
  · rename_i hhdr
    rw [or_iff_right hhdr, stays_difference]
    refine and_congr_right fun hle => ?_
    have hmod : (n - pkt.flvOffset) % 2 ^ 64 ≤ n - pkt.flvOffset := Nat.mod_le _ _
    split
    · rename_i hseq
      rw [stays_handOver, stays_handled]
      exact iff_of_false (by omega) (fun hnot => hnot hseq)
    · rename_i hseq
      rw [stays_handOver, stays_handled]
      exact iff_of_true ⟨by omega, hle⟩ hseq

theorem stays_composed {pkt : CodedPacket} {start : Nat} (hpos : 0 < start) : StaysIn TagParsed.packet n b (composed hdr n pkt
    start) ↔ (if pkt.codec = .h264 ∨ pkt.codec = .h265 then start + 3 else start) ≤ n ∧ (hdr = true ∨ ¬(pkt.isSeqHdr = true ∧
    (pkt.codec = .h264 ∨ pkt.codec = .h265))) := by
  unfold composed
  split
  · rw [stays_cells start (by decide), stays_sinkVideo (Nat.add_pos_right _ (by decide))]
    exact and_iff_right_of_imp fun h => h.1
  · rw [stays_sinkVideo hpos]

theorem stays_legacyVideo {pkt : CodedPacket} (hlegacy : b 0 &&& 0x80 = 0) (hpos : 0 < n) :
    StaysIn TagParsed.packet n b (legacyVideo hdr n pkt (b 0)) ↔ legacyHead b ≤ n ∧ (hdr = true ∨ ¬SequenceHeader b) := by
  unfold legacyVideo legacyHead SequenceHeader
  dsimp only
  rw [if_pos hlegacy]
  by_cases hcodec : b 0 &&& 0x0f ≠ FLV_VIDEO_H264_CODEC ∧ b 0 &&& 0x0f ≠ FLV_VIDEO_H265_CODEC
  · rw [if_pos hcodec, if_pos hcodec]
    exact iff_of_true (stays_nothing rfl) ⟨hpos, .inr fun h => h.1.elim hcodec.1 hcodec.2⟩
  have hknown : b 0 &&& 0x0f = FLV_VIDEO_H264_CODEC ∨ b 0 &&& 0x0f = FLV_VIDEO_H265_CODEC := by tauto
  rw [if_neg hcodec, if_neg hcodec, stays_cell, and_iff_right hknown]
  simp only [decide_eq_true_eq]
  split
  · rename_i hother
    exact (and_iff_left (stays_nothing rfl)).trans (and_iff_left (.inr fun h => hother.2.1 h.2)).symm
  · rw [stays_cells 2 (by decide), stays_sinkVideo (by exact Nat.succ_pos 4)]
    have htimed : (if b 0 &&& 0x0f = FLV_VIDEO_H264_CODEC then MediaCodec.h264 else .h265) = .h264 ∨
        (if b 0 &&& 0x0f = FLV_VIDEO_H264_CODEC then MediaCodec.h264 else .h265) = .h265 := by
      split
      · exact .inl rfl
      · exact .inr rfl
    dsimp only
    rw [and_iff_left htimed, Bool.and_eq_true, decide_eq_true_eq, decide_eq_true_eq]
    constructor
    · exact fun h => ⟨h.2.2.1, h.2.2.2⟩
    · exact fun h => ⟨by omega, by omega, h.1, h.2⟩

theorem stays_composed_frame {pkt : CodedPacket} (hframe : pkt.isSeqHdr = false) {start : Nat} (hpos : 0 < start) (codec : MediaCodec)
    (key : Bool) :
    StaysIn TagParsed.packet n b (composed hdr n { pkt with codec, isKeyFrame := key } start) ↔
      (if codec = .h264 ∨ codec = .h265 then start + 3 else start) ≤ n := by
  rw [stays_composed hpos]
  refine and_iff_left (.inr fun h => ?_)
  have hseq : pkt.isSeqHdr = true := h.1
  rw [hframe] at hseq
  cases hseq

theorem stays_enhancedVideo {pkt : CodedPacket} (henhanced : ¬b 0 &&& 0x80 = 0) (hpos : 0 < n) (hfresh : pkt.isSeqHdr = false) :
    StaysIn TagParsed.packet n b (enhancedVideo hdr n pkt (b 0)) ↔ enhancedHead b ≤ n ∧ (hdr = true ∨ ¬SequenceHeader b) := by
  have hseq : SequenceHeader b ↔ (b 0).toNat % 16 = videoSequenceStart ∧ (b 0).toNat / 16 % 8 ≠ videoCommandFrame ∧ Timed b := by
    unfold SequenceHeader
    rw [if_neg henhanced]
  have hother : (b 0).toNat % 16 ≠ videoSequenceStart → hdr = true ∨ ¬SequenceHeader b := fun hne =>
    .inr fun h => hne (hseq.1 h).1
  unfold enhancedVideo enhancedHead
  dsimp only
  by_cases hmodex : (b 0).toNat % 16 = videoModex
  · rw [if_pos hmodex, if_pos hmodex]
    exact iff_of_true (stays_nothing rfl) ⟨hpos, hother (by rw [hmodex]; decide)⟩
  rw [if_neg hmodex, if_neg hmodex]
  by_cases hcommand : (b 0).toNat % 16 ≠ videoMetaData ∧ (b 0).toNat / 16 % 8 = videoCommandFrame
  · rw [if_pos hcommand, if_pos hcommand]
    exact iff_of_true (stays_nothing rfl) ⟨hpos, .inr fun h => (hseq.1 h).2.1 hcommand.2⟩
  rw [if_neg hcommand, if_neg hcommand]
  by_cases hmeta : (b 0).toNat % 16 = videoMetaData
  · rw [if_pos hmeta, if_pos hmeta, stays_cell, and_iff_left (hother (by rw [hmeta]; decide))]
    split
    · exact and_iff_left (stays_nothing rfl)
    · rw [FlvPub.stays_tagAt, stays_cells 6 (by decide), stays_composed_frame hfresh (by decide) _ pkt.isKeyFrame]
      split <;> omega
  rw [if_neg hmeta, if_neg hmeta, FlvPub.stays_tagAt]
  by_cases hstart : (b 0).toNat % 16 = videoSequenceStart
  · have hframe : (b 0).toNat / 16 % 8 ≠ videoCommandFrame := fun h => hcommand ⟨hmeta, h⟩
    have hseq' : SequenceHeader b ↔ true = true ∧ Timed b := hseq.trans ⟨fun h => ⟨rfl, h.2.2⟩, fun h => ⟨hstart, hframe, h.2⟩⟩
    rw [if_pos hstart, if_pos (.inl hstart), stays_composed (by decide), hseq']
    refine ⟨fun h => h.2, fun h => ⟨?_, h⟩⟩
    have hle := h.1
    split at hle <;> omega
  have hfree := hother hstart
  rw [if_neg hstart, and_iff_left hfree]
  by_cases hcoded : (b 0).toNat % 16 = videoCodedFrames ∨ (b 0).toNat % 16 = videoCodedFramesX
  · rw [if_pos hcoded, if_pos (.inr hcoded), stays_composed_frame hfresh (by decide)]
    have hsame : (if getVideoCodecIdByFlvCodec (readNBytes (slice b 1 4)) = .h264 ∨
          getVideoCodecIdByFlvCodec (readNBytes (slice b 1 4)) = .h265 then 5 + 3 else 5) = if Timed b then 8 else 5 :=
      if_congr Iff.rfl rfl rfl
    rw [hsame]
    split <;> omega
  · have hlast : ¬((b 0).toNat % 16 = videoSequenceStart ∨ (b 0).toNat % 16 = videoCodedFrames ∨
        (b 0).toNat % 16 = videoCodedFramesX) := fun h => h.elim hstart hcoded
    rw [if_neg hcoded, if_neg hlast, stays_cells 5 (by decide), stays_composed_frame hfresh (by decide) _ pkt.isKeyFrame]
    split <;> omega

theorem stays_handleVideoTag {pkt : CodedPacket} (hfresh : pkt.isSeqHdr = false) :
    StaysIn TagParsed.packet n b (handleVideoTag hdr n pkt) ↔ videoHead b ≤ n ∧ (hdr = true ∨ ¬SequenceHeader b) := by
  unfold handleVideoTag videoHead
  dsimp only
  rw [stays_cell]
  by_cases hpos : 0 < n
  · rw [and_iff_right hpos]
    split
    · rename_i hlegacy
      exact stays_legacyVideo hlegacy hpos
    · rename_i henhanced
      exact stays_enhancedVideo henhanced hpos hfresh
  · have hone : 0 < if b 0 &&& 0x80 = 0 then legacyHead b else enhancedHead b := by
      unfold legacyHead enhancedHead
      dsimp only
      repeat' split
      all_goals decide
    exact iff_of_false (fun h => hpos h.1) (fun h => hpos (Nat.lt_of_lt_of_le hone h.1))

/-! ## Audio -/

theorem inside_getAudioInfoByAsc {size : Nat} (hle : 2 + size ≤ n) (info : AudioInfo) : (getAudioInfoByAsc 2 size info).Inside n b
    ↔ size < 2 ∨ 5 ≤ n ∨ ¬(readNBytes (slice b 2 2) / 2048 ≠ 31 ∧ readNBytes (slice b 2 2) / 128 % 16 = 0x0f) := by
  unfold getAudioInfoByAsc
  by_cases hshort : size < 2
  · rw [if_pos hshort]
    exact iff_of_true (inside_pure b n _) (.inl hshort)
  rw [if_neg hshort, or_iff_right hshort, inside_bind, inside_cells b n 2 2 (by decide), run_cells, and_iff_right (by omega)]
  dsimp only
  by_cases htype : readNBytes (slice b 2 2) / 2048 = 31
  · rw [if_pos htype]
    refine iff_of_true ?_ (.inr fun h => h.1 htype)
    split
    · split
      · exact inside_pure b n _
      · rename_i hlong
        have hint : (BitVec.ofNat 32 size).toInt ≤ size := by
          have hmod := Nat.mod_le size (2 ^ 32)
          rw [BitVec.toInt_eq_toNat_cond, BitVec.toNat_ofNat]
          split <;> omega
        have hsix : 6 ≤ size := by omega
        rw [inside_bind, inside_cells b n 3 3 (by decide), inside_bind, inside_cell]
        exact ⟨by omega, by omega, inside_pure b n _⟩
    · rw [inside_bind, inside_cell]
      exact ⟨by omega, inside_pure b n _⟩
  · rw [if_neg htype]
    by_cases hrate : readNBytes (slice b 2 2) / 128 % 16 = 0x0f
    · rw [if_pos hrate, inside_bind, inside_cells b n 3 2 (by decide), and_iff_left (inside_pure b n _)]
      exact (or_iff_left fun h => h ⟨htype, hrate⟩).symm
    · rw [if_neg hrate]
      exact iff_of_true (inside_pure b n _) (.inr fun h => hrate h.2)

theorem stays_sinkAudio {pkt : CodedPacket} (hle : 2 ≤ n) (hoffset : pkt.flvOffset = 0) :
    StaysIn TagParsed.packet n b (sinkAudio hdr n pkt) := by
  have hpacket : StaysIn TagParsed.packet n b (pure (.handled (some pkt))) := stays_handled.2 (by omega)
  unfold sinkAudio
  split
  · exact (stays_handOver 0 n _).2 ⟨by omega, hpacket⟩
  · rw [stays_difference]
    have hmod : (n - 2) % 2 ^ 64 ≤ n - 2 := Nat.mod_le _ _
    exact ⟨hle, (stays_handOver 2 _ _).2 ⟨by omega, hpacket⟩⟩

theorem stays_handleAudioTag {pkt : CodedPacket} (hfresh : pkt.flvOffset = 0) :
    StaysIn TagParsed.packet n b (handleAudioTag hdr n pkt) ↔ 2 ≤ n ∧ (n = 4 → ¬LongRate b) := by
  unfold handleAudioTag LongRate
  dsimp only
  rw [stays_cell, stays_cell]
  by_cases htwo : 2 ≤ n
  swap
  · exact iff_of_false (fun h => htwo (by omega)) fun h => htwo h.1
  rw [and_iff_right (by omega), and_iff_right (by omega), and_iff_right htwo]
  by_cases hcodec : b 0 &&& 0xf0 ≠ FLV_AUDIO_AAC_CODEC ∧ b 0 &&& 0xf0 ≠ FLV_AUDIO_MP3_CODEC
  · rw [if_pos hcodec]
    exact iff_of_true (stays_nothing rfl) fun _ h => hcodec.1 h.1
  rw [if_neg hcodec]
  by_cases hasc : b 1 = 0 ∧ b 0 &&& 0xf0 = FLV_AUDIO_AAC_CODEC
  swap
  · rw [if_neg hasc]
    refine iff_of_true ?_ fun _ h => hasc ⟨h.2.1, h.1⟩
    split <;> exact stays_sinkAudio htwo hfresh
  rw [if_pos hasc, stays_difference, and_iff_right htwo]
  have hmod : (n - 2) % 2 ^ 32 ≤ n - 2 := Nat.mod_le _ _
  have hinside := inside_getAudioInfoByAsc (b := b) (show 2 + (n - 2) % 2 ^ 32 ≤ n by omega)
  have hsize : ((n - 2) % 2 ^ 32 < 2 ∨ 5 ≤ n ∨ ¬(readNBytes (slice b 2 2) / 2048 ≠ 31 ∧ readNBytes (slice b 2 2) / 128 % 16 = 0x0f)) ↔
      (n = 4 → ¬(b 0 &&& 0xf0 = FLV_AUDIO_AAC_CODEC ∧ b 1 = 0 ∧ readNBytes (slice b 2 2) / 2048 ≠ 31 ∧
        readNBytes (slice b 2 2) / 128 % 16 = 0x0f)) := by
    by_cases hfour : n = 4
    · subst hfour
      constructor
      · rintro (hlt | hle | hnot) -
        · exact absurd hlt (by decide)
        · exact absurd hle (by decide)
        · exact fun h => hnot h.2.2
      · exact fun h => .inr (.inr fun hlong => h rfl ⟨hasc.2, hasc.1, hlong⟩)
    · refine iff_of_true ?_ fun h => absurd h hfour
      by_cases hfive : 5 ≤ n
      · exact .inr (.inl hfive)
      · exact .inl (by omega)
  rw [stays_bind, hinside, hsize]
  refine and_iff_left_of_imp fun hfits => ?_
  cases (getAudioInfoByAsc 2 ((n - 2) % 2 ^ 32) pkt.info).run b with
  | none => exact stays_nothing rfl
  | some info =>
    dsimp only
    rw [stays_handOver, stays_bind, hinside, hsize]
    refine ⟨by omega, hfits, ?_⟩
    cases (getAudioInfoByAsc 2 ((n - 2) % 2 ^ 32) info).run b with
    | none => exact stays_nothing rfl
    | some info => exact stays_sinkAudio htwo hfresh

theorem stays_handleTag (tagType : Byte) (ts : Nat) :
    StaysIn TagParsed.packet n b (handleTag hdr tagType ts n) ↔ Fits b hdr tagType n := by
  unfold handleTag Fits
  split
  · exact stays_handleAudioTag rfl
  split
  · exact stays_handleVideoTag rfl
  split
  · rw [stays_handOver]
    exact iff_of_true ⟨by omega, stays_nothing rfl⟩ trivial
  · exact iff_of_true (stays_nothing rfl) trivial

end FlvTag

/-! ## Both -/

/-- **Bodies are parsed inside exactly if they are as long as their heads say.**

A known deviation: the messages of RTMP are asked for two bytes, and the tags of a file for none. -/
theorem flv_inside (body : List Byte) (typeId : Byte) (ts : Nat) (hdr : Bool) : (ParsedInside id body (FlvPub.getFlvMediaPacket
    typeId ts body.length) ↔ body = [] ∨ FlvPub.head (bodyCells body) typeId ≤ body.length) ∧
    (ParsedInside id body (FlvPub.getMediaPacket typeId ts body.length) ↔ body.length < 2 ∨ FlvPub.head (bodyCells body) typeId ≤
    body.length) ∧ (ParsedInside TagParsed.packet body (FlvTag.handleTag hdr typeId ts body.length) ↔ FlvTag.Fits (bodyCells body)
    hdr typeId body.length) := by
  rw [parsedInside_iff, parsedInside_iff, parsedInside_iff, ← List.length_eq_zero_iff]
  exact ⟨FlvPub.stays_getFlvMediaPacket typeId, FlvPub.stays_getMediaPacket typeId, FlvTag.stays_handleTag typeId ts⟩

theorem flv_outside : ¬ (∀ (body : List Byte) (typeId : Byte) (ts : Nat), ParsedInside id body (FlvPub.getMediaPacket typeId ts
    body.length)) ∧ ¬ ∀ (body : List Byte) (typeId : Byte) (ts : Nat) (hdr : Bool), ParsedInside TagParsed.packet body
    (FlvTag.handleTag hdr typeId ts body.length) := by
  constructor
  · intro hall
    have hhead := (FlvPub.stays_getMediaPacket FLV_TAG_VIDEO).1 ((parsedInside_iff id _ _).1 (hall [0x27, 0x01] FLV_TAG_VIDEO 0))
    revert hhead
    decide
  · intro hall
    have hhead := ((FlvTag.stays_handleTag FLV_TAG_VIDEO 0).1 ((parsedInside_iff _ _ _).1 (hall [0x27] FLV_TAG_VIDEO 0 true))).1
    revert hhead
    decide

end MoqLiveCast
