import MoqLiveCast.Media.FlvInside
/-!
# FlvAgree — where the two parsers of a tag's body say the same

`GetFlvMediaPacket` and the handlers of `FlvDemuxer` have one syntax to read.  They come to the same packet exactly for legacy video
and for enhanced video without a composition time (`flv_parsers_agree`); of audio they agree on what neither takes.
-/
namespace MoqLiveCast

open Reading

/-- Two packets are the same: their media type, codec, flags, times, and where the payload begins, which is at `start`. -/
def SamePacket (start : Nat) (p q : CodedPacket) : Prop :=
  p.avType = q.avType ∧ p.codec = q.codec ∧ p.isSeqHdr = q.isSeqHdr ∧ (p.avType = .video → p.isKeyFrame = q.isKeyFrame) ∧
    p.flvOffset = q.flvOffset ∧ p.flvOffset = start ∧ p.dts = q.dts ∧ p.pts = q.pts

def BothSay (start : Nat) (message : Option CodedPacket) (tag : TagParsed) : Prop :=
  match message, tag.packet with
  | none, none => True
  | some p, some q => SamePacket start p q
  | _, _ => False

section

variable (b : Nat → Byte)

/-- The first byte behind the headers and, where there is one, the composition time. -/
def videoPayload : Nat :=
  let composition (codec : MediaCodec) (packetType : Nat) : Nat :=
    if packetType = videoCodedFrames ∧ (codec = .h264 ∨ codec = .h265) then 3 else 0
  if b 0 &&& 0x80 = 0 then 5
  else if (b 0).toNat % 16 = videoMultitrack then
    6 + composition (getVideoCodecIdByFlvCodec (readNBytes (slice b 2 4))) ((b 1).toNat % 16)
  else 5 + composition (getVideoCodecIdByFlvCodec (readNBytes (slice b 1 4))) ((b 0).toNat % 16)

def audioPayload : Nat :=
  if b 0 &&& 0xf0 = FLV_AUDIO_EX_HEADER then if (b 0).toNat % 16 = audioPktMultiTrack then 6 else 5 else 2

/-- Legacy video of any kind but a key frame's unknown one, and enhanced video that is neither metadata nor of several tracks nor of
a codec with a composition time, or that both leave out. -/
def VideoAlike : Prop :=
  if b 0 &&& 0x80 = 0 then
    (b 0 &&& 0x0f = FLV_VIDEO_H264_CODEC ∨ b 0 &&& 0x0f = FLV_VIDEO_H265_CODEC) → b 0 &&& 0xf0 = FLV_VIDEO_KEY_FLAG →
      b 1 = FLV_VIDEO_AVC_SEQHDR ∨ b 1 = FLV_VIDEO_AVC_NALU ∨ b 1 = FLV_VIDEO_AVC_END
  else
    let packetType := (b 0).toNat % 16
    packetType = videoModex ∨
      packetType ≠ videoMetaData ∧ ((b 0).toNat / 16 % 8 = videoCommandFrame ∨ packetType ≠ videoMultitrack ∧ ¬FlvTag.Timed b)

def AudioAlike : Prop :=
  let packetType := (b 0).toNat % 16
  b 0 &&& 0xf0 ≠ FLV_AUDIO_AAC_CODEC ∧ b 0 &&& 0xf0 ≠ FLV_AUDIO_MP3_CODEC ∧ (b 0 &&& 0xf0 = FLV_AUDIO_EX_HEADER →
      packetType = audioPktModex ∨ packetType = audioPktMultiTrack ∧ (b 1).toNat / 16 = manyTracksManyCodecs ∨
        packetType ≠ audioPktMultiTrack ∧ packetType ≠ audioPktSequenceStart ∧ packetType ≠ audioPktCodedFrames ∧
          packetType ≠ audioPktMultiChannelCfg)

end

/-! ## Legacy video -/

section

variable (b : Nat → Byte)

theorem run_tagAt (i : Nat) : (FlvPub.tagAt i).run b = readNBytes (slice b i 4) := by
  unfold FlvPub.tagAt
  rw [run_bind, run_cells, run_pure]

theorem run_sinkVideo (len : Nat) (pkt : CodedPacket) : (FlvTag.sinkVideo true len pkt).run b = .handled (some pkt) := by
  unfold FlvTag.sinkVideo
  simp

theorem bothSay_none (start : Nat) {tag : TagParsed} (hnone : tag.packet = none) : BothSay start none tag := by
  unfold BothSay
  rw [hnone]
  trivial

theorem bothSay_some (start : Nat) (p q : CodedPacket) : BothSay start (some p) (.handled (some q)) ↔ SamePacket start p q := Iff.rfl

theorem not_bothSay_some (start : Nat) (p : CodedPacket) {tag : TagParsed} (hnone : tag.packet = none) : ¬BothSay start (some p) tag := by
  unfold BothSay
  rw [hnone]
  exact id

theorem not_bothSay_none (start : Nat) (q : CodedPacket) : ¬BothSay start none (.handled (some q)) := id

theorem legacy_both (ts len : Nat) (hlegacy : b 0 &&& 0x80 = 0) : BothSay (videoPayload b) ((FlvPub.legacyVideo ts (b 0)).run b)
      ((FlvTag.legacyVideo true len { freshPacket ts with avType := .video } (b 0)).run b) ↔ VideoAlike b := by
  unfold VideoAlike videoPayload FlvPub.legacyVideo FlvTag.legacyVideo
  rw [if_pos hlegacy, if_pos hlegacy]
  dsimp only
  by_cases hcodec : b 0 &&& 0x0f = FLV_VIDEO_H264_CODEC ∨ b 0 &&& 0x0f = FLV_VIDEO_H265_CODEC
  · have hsupported : ¬(b 0 &&& 0x0f ≠ FLV_VIDEO_H264_CODEC ∧ b 0 &&& 0x0f ≠ FLV_VIDEO_H265_CODEC) := fun h => hcodec.elim h.1 h.2
    rw [if_neg hsupported, if_neg hsupported, run_bind, run_bind, run_cell]
    generalize (if b 0 &&& 0x0f = FLV_VIDEO_H264_CODEC then MediaCodec.h264 else .h265) = codec
    by_cases hkey : b 0 &&& 0xf0 = FLV_VIDEO_KEY_FLAG
    · have hkey' := decide_eq_true hkey
      by_cases hend : b 1 = FLV_VIDEO_AVC_END
      · rw [if_pos ⟨hkey', hend⟩, if_pos ⟨hkey', by rw [hend]; decide⟩]
        exact iff_of_true (bothSay_none _ rfl) fun _ _ => .inr (.inr hend)
      · rw [if_neg fun h => hend h.2]
        by_cases hkind : b 1 = FLV_VIDEO_AVC_SEQHDR ∨ b 1 = FLV_VIDEO_AVC_NALU
        · have hknown : ¬(decide (b 0 &&& 0xf0 = FLV_VIDEO_KEY_FLAG) = true ∧ b 1 ≠ FLV_VIDEO_AVC_SEQHDR ∧ b 1 ≠ FLV_VIDEO_AVC_NALU) :=
            fun h => hkind.elim h.2.1 h.2.2
          rw [if_neg hknown, if_neg hknown, run_bind, run_bind, run_sinkVideo]
          refine iff_of_true ?_ fun _ _ => hkind.imp_right .inl
          exact ⟨rfl, rfl, rfl, fun _ => rfl, rfl, rfl, rfl, rfl⟩
        · have hunknown : decide (b 0 &&& 0xf0 = FLV_VIDEO_KEY_FLAG) = true ∧ b 1 ≠ FLV_VIDEO_AVC_SEQHDR ∧ b 1 ≠ FLV_VIDEO_AVC_NALU :=
            ⟨hkey', fun h => hkind (.inl h), fun h => hkind (.inr h)⟩
          rw [if_pos hunknown, if_pos hunknown]
          refine iff_of_false (not_bothSay_some _ _ rfl) fun h => ?_
          rcases h hcodec hkey with hseq | hnalu | hended
          · exact hkind (.inl hseq)
          · exact hkind (.inr hnalu)
          · exact hend hended
    · have hinter : decide (b 0 &&& 0xf0 = FLV_VIDEO_KEY_FLAG) ≠ true := fun h => hkey (of_decide_eq_true h)
      rw [if_neg fun h => hinter h.1, if_neg fun h => hinter h.1, if_neg fun h => hinter h.1, run_bind, run_bind, run_sinkVideo]
      refine iff_of_true ?_ fun _ h => absurd h hkey
      exact ⟨rfl, rfl, rfl, fun _ => rfl, rfl, rfl, rfl, rfl⟩
  · rw [if_pos (not_or.1 hcodec), if_pos (not_or.1 hcodec)]
    exact iff_of_true (bothSay_none _ rfl) fun h => absurd h hcodec

/-! ## Enhanced video -/

def oneTrack (pkt : CodedPacket) : CodedPacket :=
  let packetType := (b 0).toNat % 16
  { pkt with
    codec := getVideoCodecIdByFlvCodec (readNBytes (slice b 1 4))
    isSeqHdr := packetType = videoSequenceStart
    isKeyFrame := (packetType = videoCodedFrames ∨ packetType = videoCodedFramesX) ∧ (b 0).toNat / 16 % 8 = 1 }

theorem run_oneTrackVideo (ts : Nat) (hmeta : (b 0).toNat % 16 ≠ videoMetaData) :
    (FlvPub.oneTrackVideo ts (b 0)).run b = some (FlvPub.stamped { oneTrack b (FlvPub.begun .video) with flvOffset := 5 } ts 0) := by
  unfold FlvPub.oneTrackVideo oneTrack
  dsimp only
  rw [run_bind, run_tagAt, if_neg hmeta]
  by_cases hstart : (b 0).toNat % 16 = videoSequenceStart
  · rw [if_pos hstart]
    simp [hstart, videoSequenceStart, videoCodedFrames, videoCodedFramesX, FlvPub.begun]
  · rw [if_neg hstart]
    by_cases hframes : (b 0).toNat % 16 = videoCodedFrames ∨ (b 0).toNat % 16 = videoCodedFramesX
    · rw [if_pos hframes]
      simp [hstart, hframes, FlvPub.begun]
    · rw [if_neg hframes, run_bind]
      simp [hstart, hframes, FlvPub.begun]

theorem run_composed (len : Nat) (pkt : CodedPacket) (start : Nat) : ∃ q, (FlvTag.composed true len pkt start).run b = .handled (some q) ∧
    q.flvOffset = (if pkt.codec = .h264 ∨ pkt.codec = .h265 then start + 3 else start) ∧
    (¬(pkt.codec = .h264 ∨ pkt.codec = .h265) → q = { pkt with flvOffset := start, pts := pkt.dts }) ∧ q.avType = pkt.avType := by
  unfold FlvTag.composed
  by_cases htimed : pkt.codec = .h264 ∨ pkt.codec = .h265
  · rw [if_pos htimed, if_pos htimed, run_bind, run_sinkVideo]
    exact ⟨_, rfl, rfl, fun h => absurd htimed h, rfl⟩
  · rw [if_neg htimed, if_neg htimed, run_sinkVideo]
    exact ⟨_, rfl, rfl, fun _ => rfl, rfl⟩

theorem run_tag_oneTrack (ts len : Nat) (hmodex : (b 0).toNat % 16 ≠ videoModex) (hmeta : (b 0).toNat % 16 ≠ videoMetaData)
    (hframe : (b 0).toNat / 16 % 8 ≠ videoCommandFrame) :
    (FlvTag.enhancedVideo true len { freshPacket ts with avType := .video } (b 0)).run b =
      (FlvTag.composed true len (oneTrack b { freshPacket ts with avType := .video }) 5).run b := by
  unfold FlvTag.enhancedVideo oneTrack
  dsimp only
  rw [if_neg hmodex, if_neg fun h => hframe h.2, if_neg hmeta, run_bind, run_tagAt]
  by_cases hstart : (b 0).toNat % 16 = videoSequenceStart
  · rw [if_pos hstart]
    simp [hstart, videoSequenceStart, videoCodedFrames, videoCodedFramesX, freshPacket]
  · rw [if_neg hstart]
    by_cases hframes : (b 0).toNat % 16 = videoCodedFrames ∨ (b 0).toNat % 16 = videoCodedFramesX
    · rw [if_pos hframes]
      simp [hstart, hframes, freshPacket]
    · rw [if_neg hframes, run_bind]
      simp [hstart, hframes, freshPacket]

theorem enhanced_both (ts len : Nat) (henhanced : ¬b 0 &&& 0x80 = 0) :
    BothSay (videoPayload b) ((FlvPub.enhancedVideo ts (b 0)).run b)
      ((FlvTag.enhancedVideo true len { freshPacket ts with avType := .video } (b 0)).run b) ↔ VideoAlike b := by
  unfold VideoAlike
  rw [if_neg henhanced]
  dsimp only
  by_cases hmodex : (b 0).toNat % 16 = videoModex
  · unfold FlvPub.enhancedVideo FlvTag.enhancedVideo
    dsimp only
    rw [if_pos hmodex, if_pos hmodex]
    exact iff_of_true (bothSay_none _ rfl) (.inl hmodex)
  · rw [or_iff_right hmodex]
    by_cases hcommand : (b 0).toNat % 16 ≠ videoMetaData ∧ (b 0).toNat / 16 % 8 = videoCommandFrame
    · unfold FlvPub.enhancedVideo FlvTag.enhancedVideo
      dsimp only
      rw [if_neg hmodex, if_neg hmodex, if_pos hcommand, if_pos hcommand]
      exact iff_of_true (bothSay_none _ rfl) ⟨hcommand.1, .inl hcommand.2⟩
    · by_cases hmeta : (b 0).toNat % 16 = videoMetaData
      · -- metadata is a track of its own to the messages, and the mark of several tracks to the tags
        refine iff_of_false (fun hboth => ?_) fun h => h.1 hmeta
        have hmulti : (b 0).toNat % 16 ≠ videoMultitrack := by rw [hmeta]; decide
        unfold FlvPub.enhancedVideo FlvTag.enhancedVideo FlvPub.oneTrackVideo at hboth
        dsimp only at hboth
        rw [if_neg hmodex, if_neg hcommand, if_neg hmulti, run_bind, if_pos hmeta, run_pure, if_neg hmodex, if_neg hcommand, if_pos hmeta,
          run_bind, run_cell] at hboth
        split at hboth
        · exact not_bothSay_some _ _ rfl hboth
        · rw [run_bind, run_bind] at hboth
          obtain ⟨q, hrun, -, -, htype⟩ := run_composed b len { freshPacket ts with
            avType := .video, codec := getVideoCodecIdByFlvCodec ((FlvPub.tagAt 2).run b) } 6
          rw [hrun, bothSay_some] at hboth
          have htypes : MediaType.metadata = .video := hboth.1.trans htype
          cases htypes
      · have hframe : (b 0).toNat / 16 % 8 ≠ videoCommandFrame := fun h => hcommand ⟨hmeta, h⟩
        rw [run_tag_oneTrack b ts len hmodex hmeta hframe, and_iff_right hmeta, or_iff_right hframe]
        obtain ⟨q, hrun, hoffset, hplain, htype⟩ := run_composed b len (oneTrack b { freshPacket ts with avType := .video }) 5
        rw [hrun]
        unfold FlvPub.enhancedVideo
        dsimp only
        rw [if_neg hmodex, if_neg hcommand]
        by_cases hmulti : (b 0).toNat % 16 = videoMultitrack
        · -- several tracks are one to the tags, whose codec is taken a byte earlier
          refine iff_of_false (fun hboth => ?_) fun h => h.1 hmulti
          rw [if_pos hmulti, run_bind, run_cell] at hboth
          split at hboth
          · exact not_bothSay_none _ _ hboth
          · rw [run_bind, run_bind, run_pure, bothSay_some] at hboth
            have hsix : 6 = q.flvOffset := hboth.2.2.2.2.1
            rw [hoffset] at hsix
            split at hsix
            · cases hsix
            · cases hsix
        · rw [if_neg hmulti, run_oneTrackVideo b ts hmeta, bothSay_some, and_iff_right hmulti]
          refine ⟨fun hsame htimed => ?_, fun hplainCodec => ?_⟩
          · have hfive : 5 = 8 := hsame.2.2.2.2.1.trans (hoffset.trans (if_pos htimed))
            cases hfive
          · rw [hplain hplainCodec]
            have hstart : videoPayload b = 5 := by
              unfold videoPayload
              rw [if_neg henhanced, if_neg hmulti]
              exact congrArg (5 + ·) (if_neg fun h => hplainCodec h.2)
            exact ⟨rfl, rfl, rfl, fun _ => rfl, rfl, hstart.symm, rfl, by simp [FlvPub.stamped, oneTrack, freshPacket]⟩

/-! ## Audio -/

theorem run_handleAudioTag_offset (len ts : Nat) {q : CodedPacket}
    (h : ((FlvTag.handleAudioTag true len (freshPacket ts)).run b).packet = some q) : q.flvOffset = 0 := by
  have hsunk : ∀ pkt : CodedPacket, pkt.flvOffset = 0 → ((FlvTag.sinkAudio true len pkt).run b).packet = some q → q.flvOffset = 0 :=
    fun pkt hpkt hq => Option.some.inj hq ▸ hpkt
  unfold FlvTag.handleAudioTag at h
  dsimp only at h
  rw [run_bind, run_bind] at h
  split at h
  · cases h
  · split at h
    · rw [run_bind, run_bind] at h
      split at h
      · cases h
      · rw [run_bind, run_bind] at h
        split at h
        · cases h
        · exact hsunk _ rfl h
    · split at h
      · exact hsunk _ rfl h
      · exact hsunk _ rfl h

theorem run_audio_none (ts : Nat) : (FlvPub.audio ts).run b = none ↔ b 0 &&& 0xf0 ≠ FLV_AUDIO_AAC_CODEC ∧
    (b 0 &&& 0xf0 = FLV_AUDIO_EX_HEADER → (b 0).toNat % 16 = audioPktModex ∨ (b 0).toNat % 16 = audioPktMultiTrack ∧
    (b 1).toNat / 16 = manyTracksManyCodecs ∨ (b 0).toNat % 16 ≠ audioPktMultiTrack ∧ (b 0).toNat % 16 ≠ audioPktSequenceStart ∧
    (b 0).toNat % 16 ≠ audioPktCodedFrames ∧ (b 0).toNat % 16 ≠ audioPktMultiChannelCfg) := by
  unfold FlvPub.audio
  dsimp only
  rw [run_bind, run_cell]
  by_cases haac : b 0 &&& 0xf0 = FLV_AUDIO_AAC_CODEC
  · rw [if_pos haac, run_bind]
    exact iff_of_false (fun h => nomatch h) fun h => h.1 haac
  · rw [if_neg haac, and_iff_right haac]
    by_cases hex : b 0 &&& 0xf0 = FLV_AUDIO_EX_HEADER
    · rw [if_pos hex, imp_iff_right hex]
      by_cases hmodex : (b 0).toNat % 16 = audioPktModex
      · rw [if_pos hmodex]
        exact iff_of_true rfl (.inl hmodex)
      · rw [if_neg hmodex, or_iff_right hmodex]
        by_cases hmulti : (b 0).toNat % 16 = audioPktMultiTrack
        · rw [if_pos hmulti, run_bind, run_cell]
          by_cases hmany : (b 1).toNat / 16 = manyTracksManyCodecs
          · rw [if_pos hmany]
            exact iff_of_true rfl (.inl ⟨hmulti, hmany⟩)
          · rw [if_neg hmany, run_bind]
            exact iff_of_false (fun h => nomatch h) fun h => h.elim (fun h => hmany h.2) fun h => h.1 hmulti
        · rw [if_neg hmulti, run_bind, or_iff_right fun h => hmulti h.1, and_iff_right hmulti]
          by_cases hstart : (b 0).toNat % 16 = audioPktSequenceStart
          · rw [if_pos hstart]
            exact iff_of_false (fun h => nomatch h) fun h => h.1 hstart
          · rw [if_neg hstart, and_iff_right hstart]
            by_cases hcoded : (b 0).toNat % 16 = audioPktCodedFrames
            · rw [if_pos hcoded]
              exact iff_of_false (fun h => nomatch h) fun h => h.1 hcoded
            · rw [if_neg hcoded, and_iff_right hcoded]
              by_cases hcfg : (b 0).toNat % 16 = audioPktMultiChannelCfg
              · rw [if_pos hcfg]
                exact iff_of_false (fun h => nomatch h) fun h => h hcfg
              · rw [if_neg hcfg]
                exact iff_of_true rfl hcfg
    · rw [if_neg hex]
      exact iff_of_true rfl fun h => absurd h hex

theorem audio_both (ts len : Nat) :
    BothSay (audioPayload b) ((FlvPub.audio ts).run b) ((FlvTag.handleAudioTag true len (freshPacket ts)).run b) ↔ AudioAlike b := by
  have hnone := run_audio_none b ts
  have halike : AudioAlike b ↔ (FlvPub.audio ts).run b = none ∧ b 0 &&& 0xf0 ≠ FLV_AUDIO_MP3_CODEC := by
    rw [hnone]
    unfold AudioAlike
    exact ⟨fun ⟨haac, hmp3, hex⟩ => ⟨⟨haac, hex⟩, hmp3⟩, fun ⟨⟨haac, hex⟩, hmp3⟩ => ⟨haac, hmp3, hex⟩⟩
  rw [halike]
  cases hmessage : (FlvPub.audio ts).run b with
  | none =>
    rw [and_iff_right rfl]
    have haac := (hnone.1 hmessage).1
    unfold FlvTag.handleAudioTag
    dsimp only
    rw [run_bind, run_bind, run_cell]
    by_cases hmp3 : b 0 &&& 0xf0 = FLV_AUDIO_MP3_CODEC
    · rw [if_neg fun h => h.2 hmp3, if_neg fun h => haac h.2]
      refine iff_of_false (fun hboth => ?_) fun h => h hmp3
      split at hboth
      · exact not_bothSay_none _ _ hboth
      · exact not_bothSay_none _ _ hboth
    · rw [if_pos ⟨haac, hmp3⟩]
      exact iff_of_true (bothSay_none _ rfl) hmp3
  | some p =>
    refine iff_of_false (fun hboth => ?_) fun h => nomatch h.1
    cases htag : ((FlvTag.handleAudioTag true len (freshPacket ts)).run b).packet with
    | none => exact not_bothSay_some _ _ htag hboth
    | some q =>
      unfold BothSay at hboth
      rw [htag] at hboth
      have hzero := (hboth.2.2.2.2.1.symm.trans hboth.2.2.2.2.2.1).symm.trans (run_handleAudioTag_offset b len ts htag)
      unfold audioPayload at hzero
      (repeat' split at hzero) <;> cases hzero

end

/-! ## Both -/

/-- **The two parsers come to the same exactly for** the bodies that `VideoAlike` and `AudioAlike` describe, whatever is behind them. -/
theorem flv_parsers_agree (body : List Byte) (beyond : Nat → Byte) (ts : Nat) : (12 ≤ body.length → (BothSay (videoPayload
    (blockOf body beyond)) ((FlvPub.getFlvMediaPacket FLV_TAG_VIDEO ts body.length).run (blockOf body beyond))
    ((FlvTag.handleVideoTag true body.length (freshPacket ts)).run (blockOf body beyond)) ↔ VideoAlike (blockOf body beyond))) ∧
    (7 ≤ body.length → (BothSay (audioPayload (blockOf body beyond)) ((FlvPub.getFlvMediaPacket FLV_TAG_AUDIO ts body.length).run
    (blockOf body beyond)) ((FlvTag.handleAudioTag true body.length (freshPacket ts)).run (blockOf body beyond)) ↔
    AudioAlike (blockOf body beyond))) := by
  refine ⟨fun hlen => ?_, fun hlen => ?_⟩
  · unfold FlvPub.getFlvMediaPacket FlvTag.handleVideoTag
    dsimp only
    rw [if_neg (by omega), if_pos rfl, run_bind, run_bind, run_cell]
    by_cases hlegacy : blockOf body beyond 0 &&& 0x80 = 0
    · rw [if_pos hlegacy, if_pos hlegacy]
      exact legacy_both _ ts _ hlegacy
    · rw [if_neg hlegacy, if_neg hlegacy]
      exact enhanced_both _ ts _ hlegacy
  · unfold FlvPub.getFlvMediaPacket
    rw [if_neg (by omega), if_neg (by decide), if_pos rfl]
    exact audio_both _ ts _

theorem flv_parsers_agree_sample :
    BothSay 5 ((FlvPub.getFlvMediaPacket FLV_TAG_VIDEO 40 12).run (blockOf [0x27, 1, 0, 0, 80, 0, 0, 0, 2, 0x41, 0x9a, 0] fun _ => 0))
        ((FlvTag.handleVideoTag true 12 (freshPacket 40)).run (blockOf [0x27, 1, 0, 0, 80, 0, 0, 0, 2, 0x41, 0x9a, 0] fun _ => 0)) ∧
      BothSay 2 ((FlvPub.getFlvMediaPacket FLV_TAG_AUDIO 40 7).run (blockOf [0x12, 1, 2, 3, 4, 5, 6] fun _ => 0))
        ((FlvTag.handleAudioTag true 7 (freshPacket 40)).run (blockOf [0x12, 1, 2, 3, 4, 5, 6] fun _ => 0)) := by
  refine ⟨((flv_parsers_agree [0x27, 1, 0, 0, 80, 0, 0, 0, 2, 0x41, 0x9a, 0] (fun _ => 0) 40).1 (by decide)).2 ?_,
    ((flv_parsers_agree [0x12, 1, 2, 3, 4, 5, 6] (fun _ => 0) 40).2 (by decide)).2 ⟨by decide, by decide, fun h => absurd h (by decide)⟩⟩
  unfold VideoAlike
  rw [if_pos (by decide)]
  exact fun _ h => absurd h (by decide)

/-- A frame of enhanced H.265, whose composition time the messages take for payload, and a frame of AAC, which begins in its header
for the tags. -/
theorem flv_parsers_apart : ¬(∀ (body : List Byte) (beyond : Nat → Byte) (ts : Nat), 12 ≤ body.length →
    BothSay (videoPayload (blockOf body beyond)) ((FlvPub.getFlvMediaPacket FLV_TAG_VIDEO ts body.length).run
    (blockOf body beyond)) ((FlvTag.handleVideoTag true body.length (freshPacket ts)).run (blockOf body beyond))) ∧ ¬∀ (body :
    List Byte) (beyond : Nat → Byte) (ts : Nat), 7 ≤ body.length → BothSay (audioPayload (blockOf body beyond))
    ((FlvPub.getFlvMediaPacket FLV_TAG_AUDIO ts body.length).run (blockOf body beyond)) ((FlvTag.handleAudioTag true body.length
    (freshPacket ts)).run (blockOf body beyond)) := by
  refine ⟨fun hall => ?_, fun hall => ?_⟩
  · have hboth := hall [0x91, 104, 118, 99, 49, 0, 0, 40, 0, 0, 0, 1] (fun _ => 0) 0 (by decide)
    have hoffset : 5 = 8 := hboth.2.2.2.2.1
    cases hoffset
  · have hboth := hall [0xaf, 1, 0x21, 0, 0, 0, 0] (fun _ => 0) 0 (by decide)
    have hoffset : 2 = 0 := hboth.2.2.2.2.1
    cases hoffset

end MoqLiveCast
