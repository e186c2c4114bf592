import MoqLiveCast.Media.DataBuffer
import MoqLiveCast.Media.FlvInside
import MoqLiveCast.Media.FlvRoundTrip
/-!
# FlvHeader — the media header is put before a raw packet and read again (`format/flv/flv_pub.cpp`)

The header goes into the head room of the packet's buffer.  What is read of it is the packet, if the composition time is one that it
has a place for and its flags do not hide one another.
-/
namespace MoqLiveCast

open Reading

def DataBuffer.put (b : DataBuffer) (head : List Byte) : DataBuffer := { b with buffer := b.buffer.write b.start (head.map some) }

/-- `AddFlvMediaHeader`: what it returns and the packet's buffer; without head room it writes through a null pointer. -/
def addFlvMediaHeader (pkt : CodedPacket) (b : DataBuffer) : Option (Int × DataBuffer) :=
  match pkt.avType with
  | .audio => (b.consumeData (-2)).map fun b =>
    if pkt.codec = .aac then (0, b.put [FLV_AUDIO_AAC_CODEC ||| 0x0f, if pkt.isSeqHdr then 0x00 else 0x01]) else (-1, b)
  | .video => (b.consumeData (-5)).map fun b =>
    match FlvMuxer.videoCodec pkt.codec with
    | none => (-1, b.put [0])
    | some codec =>
      let flag := if pkt.isKeyFrame || pkt.isSeqHdr then FLV_VIDEO_KEY_FLAG else FLV_VIDEO_INTER_FLAG
      let nalu : Byte := if pkt.isSeqHdr then 0x00 else 0x01
      let delta := if pkt.dts < pkt.pts then ((pkt.pts - pkt.dts) % 2 ^ 32).toNat else 0
      (0, b.put ((codec ||| flag) :: nalu :: beBytes 3 delta))
  | _ => some (0, b)

/-- **A raw packet**: AAC, H.264 or H.265 in a buffer, with a time of 32 bits and a composition time of 24 with its sign; its length
with a header is an `int`. -/
structure RawPacket where
  pkt : CodedPacket
  buffer : DataBuffer
  holds : Holds buffer pkt.body
  accepted : pkt.accepted = true
  dts : 0 ≤ pkt.dts ∧ pkt.dts < 2 ^ 32
  pts : -2 ^ 23 < pkt.pts - pkt.dts ∧ pkt.pts - pkt.dts < 2 ^ 23
  length : pkt.body.length + 5 < 2 ^ 31

/-- **The packet comes back**: its codec, flags, times and payload are read of the body that it is with the header. -/
def HeaderRoundTrips (r : RawPacket) : Prop :=
  ∃ b body, addFlvMediaHeader r.pkt r.buffer = some (0, b) ∧ b.data = body.map some ∧ ∀ beyond, ∃ out,
    (FlvPub.getFlvMediaPacket r.pkt.tagType r.pkt.dts.toNat body.length).run (blockOf body beyond) = some out ∧
      { out with body : CodedPacket }.media = r.pkt.given

/-! ## The header in the head room -/

theorem consume_put {b : DataBuffer} {q : List Byte} (h : Holds b q) {head : List Byte} (hpos : 0 < head.length)
    (hle : head.length ≤ PRE_RESERVE_HEADER_SIZE) :
    ∃ b', b.consumeData (-(head.length : Int)) = some b' ∧ (b'.put head).data = (head ++ q).map some := by
  have hstart := h.start_le
  obtain ⟨off, hoff⟩ : ∃ off, b.start = off + head.length := ⟨b.start - head.length, by omega⟩
  have hnat : (b.start + -(head.length : Int)).toNat = off := by omega
  have hlen : ((b.dataLen : Int) - -(head.length : Int)).toNat = head.length + b.dataLen := by omega
  refine ⟨{ b with start := off, dataLen := head.length + b.dataLen }, ?_, ?_⟩
  · unfold DataBuffer.consumeData
    rw [if_neg (by omega)]
    dsimp only
    rw [hnat, hlen, if_neg (by omega)]
  · have hhead : slice (b.buffer.write off (head.map some)) off head.length = head.map some := by
      have hself := Mem.read_write_self b.buffer off (head.map some)
      rwa [List.length_map] at hself
    have hrest : slice (b.buffer.write off (head.map some)) (off + head.length) b.dataLen = b.data := by
      rw [← hoff]
      exact slice_congr fun i hi _ => Mem.write_outside _ _ _ (.inr (by rw [List.length_map]; omega))
    have hall := slice_append (b.buffer.write off (head.map some)) off head.length b.dataLen
    rw [hhead, hrest, h.data, ← List.map_append] at hall
    exact hall.symm

theorem addFlvMediaHeader_eq (r : RawPacket) :
    ∃ b, addFlvMediaHeader r.pkt r.buffer = some (0, b) ∧ b.data = r.pkt.tagBody.map some := by
  have hacc := r.accepted
  unfold CodedPacket.accepted at hacc
  by_cases hv : r.pkt.isVideo = true
  · have htype := hv
    unfold CodedPacket.isVideo at htype
    obtain ⟨hav, hcodec⟩ : r.pkt.avType = .video ∧ (r.pkt.codec = .h264 ∨ r.pkt.codec = .h265) := by simpa using htype
    have hbyte : FlvMuxer.videoCodec r.pkt.codec = some r.pkt.codecByte := by
      unfold CodedPacket.codecByte
      rcases hcodec with hc | hc <;> rw [hc] <;> rfl
    have hhead : r.pkt.mediaHead = (r.pkt.codecByte ||| if r.pkt.isKeyFrame || r.pkt.isSeqHdr then FLV_VIDEO_KEY_FLAG else FLV_VIDEO_INTER_FLAG) ::
        (if r.pkt.isSeqHdr then 0x00 else 0x01) :: beBytes 3 r.pkt.delta := by
      unfold CodedPacket.mediaHead
      rw [if_pos hv, BitVec.or_comm, Bool.or_comm]
      rfl
    have hfive : r.pkt.mediaHead.length = 5 := by
      rw [hhead]
      simp
    obtain ⟨b, hconsume, hdata⟩ := consume_put r.holds (by rw [hfive]; decide) (by rw [hfive]; decide : r.pkt.mediaHead.length ≤ _)
    rw [hfive] at hconsume
    refine ⟨b.put r.pkt.mediaHead, ?_, hdata⟩
    unfold addFlvMediaHeader
    rw [hav]
    dsimp only
    rw [show r.buffer.consumeData (-5) = some b from hconsume, Option.map_some, hbyte, hhead]
    rfl
  · have htype : r.pkt.isAudio = true := by simpa [hv] using hacc
    unfold CodedPacket.isAudio at htype
    obtain ⟨hav, hcodec⟩ : r.pkt.avType = .audio ∧ r.pkt.codec = .aac := by simpa using htype
    have hhead : r.pkt.mediaHead = [FLV_AUDIO_AAC_CODEC ||| 0x0f, if r.pkt.isSeqHdr then 0x00 else 0x01] := by
      unfold CodedPacket.mediaHead
      rw [if_neg hv]
      rfl
    have htwo : r.pkt.mediaHead.length = 2 := by
      rw [hhead]
      rfl
    obtain ⟨b, hconsume, hdata⟩ := consume_put r.holds (by rw [htwo]; decide) (by rw [htwo]; decide : r.pkt.mediaHead.length ≤ _)
    rw [htwo] at hconsume
    refine ⟨b.put r.pkt.mediaHead, ?_, hdata⟩
    unfold addFlvMediaHeader
    rw [hav]
    dsimp only
    rw [show r.buffer.consumeData (-2) = some b from hconsume, Option.map_some, if_pos hcodec, hhead]

theorem HeaderRoundTrips.body {r : RawPacket} (h : HeaderRoundTrips r) (beyond : Nat → Byte) : ∃ out,
    (FlvPub.getFlvMediaPacket r.pkt.tagType r.pkt.dts.toNat r.pkt.tagBody.length).run (blockOf r.pkt.tagBody beyond) = some out ∧
      { out with body := r.pkt.tagBody : CodedPacket }.media = r.pkt.given := by
  obtain ⟨b, body, hadd, hdata, hall⟩ := h
  obtain ⟨b', hadd', hdata'⟩ := addFlvMediaHeader_eq r
  have hb : b' = b := (Prod.mk.inj (Option.some.inj (hadd'.symm.trans hadd))).2
  have hbody : r.pkt.tagBody = body := by
    rw [hb, hdata] at hdata'
    exact (List.map_injective_iff.2 (fun _ _ => Option.some.inj) hdata').symm
  rw [hbody]
  exact hall beyond

/-! ## What is read of it -/

theorem run_getFlv_video {pkt : CodedPacket} (hv : pkt.isVideo = true) (hlt : pkt.delta < 2 ^ 24) (ts : Nat) (beyond : Nat → Byte) :
    (FlvPub.getFlvMediaPacket FLV_TAG_VIDEO ts pkt.tagBody.length).run (blockOf pkt.tagBody beyond) =
      some (FlvPub.stamped { FlvPub.begun .video with
        flvOffset := 5, codec := pkt.codec, isSeqHdr := pkt.isSeqHdr, isKeyFrame := !pkt.isSeqHdr && pkt.isKeyFrame } ts pkt.delta) := by
  obtain ⟨p0, p1, d0, d1, d2, hhead⟩ := exists_videoHead hv hlt
  have hbody : pkt.tagBody = p0 :: p1 :: d0 :: d1 :: d2 :: pkt.body := by
    unfold CodedPacket.tagBody
    rw [hhead.head]
    rfl
  have hknown : ¬(p0 &&& 0x0f ≠ FLV_VIDEO_H264_CODEC ∧ p0 &&& 0x0f ≠ FLV_VIDEO_H265_CODEC) := fun h => hhead.known.elim h.1 h.2
  have hend : ¬(decide (p0 &&& 0xf0 = FLV_VIDEO_KEY_FLAG) = true ∧ p1 = FLV_VIDEO_AVC_END) := fun h => by
    have hp1 := hhead.nalu
    rw [h.2] at hp1
    exact absurd hp1 (by decide)
  have hused : ¬(decide (p0 &&& 0xf0 = FLV_VIDEO_KEY_FLAG) = true ∧ p1 ≠ FLV_VIDEO_AVC_SEQHDR ∧ p1 ≠ FLV_VIDEO_AVC_NALU) := fun h =>
    hhead.nalu.elim h.2.1 h.2.2
  have h0 : blockOf (p0 :: p1 :: d0 :: d1 :: d2 :: pkt.body) beyond 0 = p0 := rfl
  have h1 : blockOf (p0 :: p1 :: d0 :: d1 :: d2 :: pkt.body) beyond 1 = p1 := rfl
  have hdelta : slice (blockOf (p0 :: p1 :: d0 :: d1 :: d2 :: pkt.body) beyond) 2 3 = [d0, d1, d2] := rfl
  rw [hbody]
  unfold FlvPub.getFlvMediaPacket FlvPub.legacyVideo
  rw [if_neg (by simp), if_pos rfl, run_bind, run_cell, h0, if_pos hhead.legacy]
  dsimp only
  rw [if_neg hknown, run_bind, run_cell, h1, if_neg hend, if_neg hused, run_bind, run_cells, hdelta, hhead.delta, hhead.codec, hhead.seq,
    hhead.key]
  rfl

theorem run_getFlv_audio {pkt : CodedPacket} (hv : ¬pkt.isVideo = true) (ts : Nat) (beyond : Nat → Byte) :
    (FlvPub.getFlvMediaPacket FLV_TAG_AUDIO ts pkt.tagBody.length).run (blockOf pkt.tagBody beyond) =
      some (FlvPub.stamped { FlvPub.begun .audio with codec := .aac, isSeqHdr := pkt.isSeqHdr, flvOffset := 2 } ts 0) := by
  obtain ⟨p1, hp1⟩ : ∃ p1 : Byte, p1 = if pkt.isSeqHdr then 0 else 1 := ⟨_, rfl⟩
  have hbody : pkt.tagBody = 0xaf :: p1 :: pkt.body := by
    unfold CodedPacket.tagBody CodedPacket.mediaHead
    rw [if_neg hv, hp1]
    rfl
  have hseq : decide (p1 = 0) = pkt.isSeqHdr := by
    rw [hp1]
    cases pkt.isSeqHdr <;> rfl
  have h0 : blockOf (0xaf :: p1 :: pkt.body) beyond 0 = 0xaf := rfl
  have h1 : blockOf (0xaf :: p1 :: pkt.body) beyond 1 = p1 := rfl
  rw [hbody]
  unfold FlvPub.getFlvMediaPacket FlvPub.audio
  rw [if_neg (by simp), if_neg (by decide), if_pos rfl]
  dsimp only
  rw [run_bind, run_cell, h0, if_pos (by decide), run_bind, run_cell, h1, hseq]
  rfl

/-- **A raw packet comes back from its header** when it is AAC without a composition time, or video that is shown no earlier than
decoded and is not both the header of a sequence and a key frame. -/
theorem flv_header_round_trip (r : RawPacket) (haudio : r.pkt.avType = .audio → r.pkt.pts = r.pkt.dts) (hvideo : r.pkt.avType =
    .video → r.pkt.dts ≤ r.pkt.pts ∧ ¬(r.pkt.isSeqHdr = true ∧ r.pkt.isKeyFrame = true)) : HeaderRoundTrips r := by
  obtain ⟨b, hadd, hdata⟩ := addFlvMediaHeader_eq r
  have hdts : ((r.pkt.dts.toNat : Nat) : Int) = r.pkt.dts := by
    have hrange := r.dts
    omega
  have hacc := r.accepted
  have hpts := r.pts
  refine ⟨b, r.pkt.tagBody, hadd, hdata, fun beyond => ?_⟩
  unfold CodedPacket.accepted at hacc
  by_cases hv : r.pkt.isVideo = true
  · have htype := hv
    unfold CodedPacket.isVideo at htype
    obtain ⟨hav, -⟩ : r.pkt.avType = .video ∧ (r.pkt.codec = .h264 ∨ r.pkt.codec = .h265) := by simpa using htype
    obtain ⟨hle, hflags⟩ := hvideo hav
    have hdelta : (r.pkt.delta : Int) = r.pkt.pts - r.pkt.dts := by
      unfold CodedPacket.delta
      split <;> omega
    have hshown : r.pkt.dts + (r.pkt.delta : Int) = r.pkt.pts := by omega
    have htag : r.pkt.tagType = FLV_TAG_VIDEO := if_pos hv
    have hkey : (!r.pkt.isSeqHdr && r.pkt.isKeyFrame) = r.pkt.isKeyFrame := by
      revert hflags
      cases r.pkt.isSeqHdr <;> cases r.pkt.isKeyFrame <;> simp
    have hpayload : r.pkt.tagBody.drop 5 = r.pkt.body := by
      obtain ⟨p0, p1, d0, d1, d2, hhead⟩ := exists_videoHead hv (by omega)
      unfold CodedPacket.tagBody
      rw [hhead.head]
      rfl
    rw [htag]
    refine ⟨_, run_getFlv_video hv (by omega) _ beyond, ?_⟩
    unfold CodedPacket.given CodedPacket.media FlvPub.stamped FlvPub.begun
    dsimp only
    rw [hdts, hshown, hkey, hav, hpayload, List.drop_zero]
  · have htype : r.pkt.isAudio = true := by simpa [hv] using hacc
    unfold CodedPacket.isAudio at htype
    obtain ⟨hav, hcodec⟩ : r.pkt.avType = .audio ∧ r.pkt.codec = .aac := by simpa using htype
    have htag : r.pkt.tagType = FLV_TAG_AUDIO := if_neg hv
    have hpayload : r.pkt.tagBody.drop 2 = r.pkt.body := by
      unfold CodedPacket.tagBody CodedPacket.mediaHead
      rw [if_neg hv]
      rfl
    rw [htag]
    refine ⟨_, run_getFlv_audio hv _ beyond, ?_⟩
    unfold CodedPacket.given CodedPacket.media FlvPub.stamped FlvPub.begun
    dsimp only
    have hshown : r.pkt.dts + ((0 : Nat) : Int) = r.pkt.pts := (Int.add_zero _).trans (haudio hav).symm
    rw [hdts, hav, hcodec, hpayload, List.drop_zero, hshown]
    rfl

def rawSample (avType : MediaType) (codec : MediaCodec) (seq key : Bool) (dts pts : Int)
    (haccepted : CodedPacket.accepted { avType, codec, isSeqHdr := seq, isKeyFrame := key, dts, pts, body := [7] } = true)
    (hdts : 0 ≤ dts ∧ dts < 2 ^ 32) (hpts : -2 ^ 23 < pts - dts ∧ pts - dts < 2 ^ 23) : RawPacket where
  pkt := { avType, codec, isSeqHdr := seq, isKeyFrame := key, dts, pts, body := [7] }
  buffer :=
    { buffer := Mem.fresh.write 200 [some 7], alloc := 1224, bufferSize := 1024, dataLen := 1, start := 200, stop := 201 }
  holds := ⟨rfl, Nat.le_refl _, rfl, by decide, by decide, fun h => absurd h (by decide), fun h => nomatch h⟩
  accepted := haccepted
  dts := hdts
  pts := hpts
  length := (by decide : ([7] : List Byte).length + 5 < 2 ^ 31)

theorem flv_header_round_trip_sample :
    HeaderRoundTrips (rawSample .video .h265 false true 40 80 (by decide) (by decide) (by decide)) :=
  flv_header_round_trip _ (fun h => nomatch h) fun _ => by decide

def lateAac : RawPacket := rawSample .audio .aac false false 40 41 (by decide) (by decide) (by decide)

def keyHeader : RawPacket := rawSample .video .h264 true true 40 40 (by decide) (by decide) (by decide)

/-- The composition time of AAC has no place, and the header of a sequence hides that it is a key frame. -/
theorem flv_header_lost : ¬HeaderRoundTrips lateAac ∧ ¬HeaderRoundTrips keyHeader := by
  refine ⟨fun h => ?_, fun h => ?_⟩
  · obtain ⟨out, hrun, hmedia⟩ := h.body fun _ => 0
    have hread := run_getFlv_audio (by decide : ¬lateAac.pkt.isVideo = true) 40 fun _ => 0
    rw [← Option.some.inj (hread.symm.trans hrun)] at hmedia
    exact absurd (congrArg FlvMedia.pts hmedia) (by decide)
  · obtain ⟨out, hrun, hmedia⟩ := h.body fun _ => 0
    have hread := run_getFlv_video (by decide : keyHeader.pkt.isVideo = true) (by decide) 40 fun _ => 0
    rw [← Option.some.inj (hread.symm.trans hrun)] at hmedia
    exact absurd (congrArg FlvMedia.isKeyFrame hmedia) (by decide)

end MoqLiveCast
