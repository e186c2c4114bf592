import MoqLiveCast.Rtmp.ChunkCuts
import MoqLiveCast.Rtmp.ChunkSend
/-!
# ChunkRead — what a compliant peer sends is what is read

A chunk is read as it was sent when its stream is held as the peer left it (`Held`): the fields, what is still to come, and the
parts of the message that came.  Where the reader keeps less than the header compression needs, or more, the messages differ.
-/
namespace MoqLiveCast

open List

/-! ## Numbers in bytes -/

theorem timeField_length (delta : BitVec 32) : (timeField delta).length = 3 := beBytes_length 3 _

theorem readNBytes_timeField (delta : BitVec 32) : readNBytes (timeField delta) = min delta.toNat 0xffffff := by
  unfold timeField
  rw [readNBytes_beBytes]
  omega

theorem readExtTs_extField {delta : BitVec 32} (h : isExtended delta = true) (z : List Byte) :
    ChunkStream.readExtTs (extField delta ++ z) = some (delta, z) := by
  have hlen : (beBytes 4 delta.toNat).length = 4 := beBytes_length 4 _
  unfold ChunkStream.readExtTs extField
  rw [if_pos h, if_neg (by rw [length_append, hlen]; omega), take_left' hlen, drop_left' hlen, readNBytes_beBytes]
  have hlt := delta.isLt
  rw [Nat.mod_eq_of_lt (by omega), BitVec.ofNat_toNat, BitVec.setWidth_eq]

namespace RtmpReader

theorem readFmtCsid_basic {r : RtmpReader} {fmt csid : Nat} {wide : Bool} {y : List Byte} (hfmt : fmt ≤ 3) (hlo : 2 ≤ csid)
    (hhi : csid < 65600) (hbuf : r.buf = basicHeader fmt csid wide ++ y) :
    r.readFmtCsid = ({ r with buf := y, fmt := fmt, csid := readCsid csid }, true) := by
  unfold basicHeader at hbuf
  unfold readFmtCsid readCsid
  split at hbuf
  · rename_i hsmall
    rw [hbuf, if_pos hsmall]
    have hx : (BitVec.ofNat 8 ((fmt * 64 + csid) / 256 ^ 0)).toNat = fmt * 64 + csid := by
      simp
      omega
    simp only [beBytes, cons_append, nil_append, hx]
    rw [if_neg (by omega), if_neg (by omega)]
    have hdiv : (fmt * 64 + csid) / 64 = fmt := by omega
    have hmod : (fmt * 64 + csid) % 64 = csid := by omega
    rw [hdiv, hmod]
  · rename_i hlarge
    rw [if_neg hlarge]
    split at hbuf
    · rename_i hnarrow
      rw [hbuf]
      have hx : (BitVec.ofNat 8 (fmt * 64 / 256 ^ 0)).toNat = fmt * 64 := by
        simp
        omega
      have hy : (BitVec.ofNat 8 ((csid - 64) / 256 ^ 0)).toNat = csid - 64 := by
        simp
        omega
      simp only [beBytes, cons_append, nil_append, hx, hy]
      rw [if_pos (by omega)]
      have hdiv : fmt * 64 / 64 = fmt := by omega
      have hid : 64 + (csid - 64) % 256 + (csid - 64) / 256 = 64 + (csid - 64) := by omega
      rw [hdiv, hid]
    · rw [hbuf]
      have hx : (BitVec.ofNat 8 ((fmt * 64 + 1) / 256 ^ 0)).toNat = fmt * 64 + 1 := by
        simp
        omega
      have hle : leBytes 2 (csid - 64) = [BitVec.ofNat 8 (csid - 64), BitVec.ofNat 8 ((csid - 64) / 256)] := by
        simp [leBytes, beBytes]
      have hy : (BitVec.ofNat 8 (csid - 64)).toNat = (csid - 64) % 256 := by simp
      have hz : (BitVec.ofNat 8 ((csid - 64) / 256)).toNat = (csid - 64) / 256 := by
        simp
        omega
      rw [hle]
      simp only [beBytes, cons_append, nil_append, hx, hy, hz]
      rw [if_neg (by omega), if_pos (by omega)]
      have hdiv : (fmt * 64 + 1) / 64 = fmt := by omega
      rw [hdiv]

end RtmpReader

namespace ChunkStream

theorem readMsgFormat_sent (len : Nat) (set : ChunkStream → List Byte → BitVec 32 → ChunkStream) (fmt csid : Nat) (s : ChunkStream)
    (delta : BitVec 32) (fields z : List Byte) (hlen : fields.length + 3 = len) :
    readMsgFormat len fmt csid set s (timeField delta ++ fields ++ extField delta ++ z) =
      (set { s with fmt, csid, extTsFlag := s.extTsFlag || isExtended delta } (timeField delta ++ fields) delta, some z) := by
  have htime : (timeField delta).length = 3 := timeField_length delta
  have hhead : (timeField delta ++ fields).length = len := by
    rw [length_append, htime]
    omega
  have hb : timeField delta ++ fields ++ extField delta ++ z = timeField delta ++ (fields ++ (extField delta ++ z)) := by simp
  have hb' : timeField delta ++ fields ++ extField delta ++ z = (timeField delta ++ fields) ++ (extField delta ++ z) := by simp
  have htake3 : (timeField delta ++ fields ++ extField delta ++ z).take 3 = timeField delta := by
    rw [hb, take_left' htime]
  have htake : (timeField delta ++ fields ++ extField delta ++ z).take len = timeField delta ++ fields := by
    rw [hb', take_left' hhead]
  have hdrop : (timeField delta ++ fields ++ extField delta ++ z).drop len = extField delta ++ z := by
    rw [hb', drop_left' hhead]
  have hlong : ¬(timeField delta ++ fields ++ extField delta ++ z).length < len := by
    rw [hb', length_append, hhead]
    omega
  unfold readMsgFormat
  rw [if_neg hlong]
  dsimp only
  rw [htake3, htake, hdrop, readNBytes_timeField]
  cases hext : isExtended delta with
  | false =>
    have hlt : delta.toNat < 0xffffff := by simpa [isExtended] using hext
    have hmin : min delta.toNat 0xffffff = delta.toNat := by omega
    rw [hmin, if_pos hlt, BitVec.ofNat_toNat, BitVec.setWidth_eq, Bool.or_false]
    simp [extField, hext]
  | true =>
    have hge : 0xffffff ≤ delta.toNat := by simpa [isExtended] using hext
    have hread := readExtTs_extField hext z
    unfold readExtTs at hread
    split at hread
    · cases hread
    · rename_i hext4
      have hlong4 : ¬(timeField delta ++ fields ++ extField delta ++ z).length < len + 4 := by
        rw [hb', length_append, hhead]
        omega
      obtain ⟨hvalue, hrest⟩ := Prod.mk.inj (Option.some.inj hread)
      rw [if_neg (by omega), if_neg hlong4, hvalue, ← drop_drop, hdrop, hrest, Bool.or_true]

/-! ## A stream is held -/

/-- **The reader holds the stream as the peer left it.** -/
structure Held (s : SentStream) (c : ChunkStream) : Prop where
  csid : c.csid = readCsid s.message.csid
  timestamp : c.timestamp32 = s.message.timestamp
  delta : s.lastFmt = 1 ∨ s.lastFmt = 2 → c.timestampDelta = s.delta
  typeId : c.typeId = s.message.typeId
  streamId : c.msgStreamId = s.message.streamId
  len : c.msgLen = s.message.payload.length
  remain : c.remain = s.rest.length
  rest : s.message.payload.drop (s.message.payload.length - s.rest.length) = s.rest
  data : s.rest ≠ [] → c.chunkData = s.message.payload.take (s.message.payload.length - s.rest.length)
  clean : s.rest = [] → c.chunkData = []
  flag : c.extTsFlag = s.flagged
  fmt : c.fmt = s.lastFmt
  ready : c.chunkReady = false

variable {s : SentStream} {c c' : ChunkStream} {m : RtmpMessage} {fmt : Nat} {z : List Byte}

theorem Held.phase (h : Held s c) (inPayload : Bool) : Held s { c with inPayload } :=
  ⟨h.csid, h.timestamp, h.delta, h.typeId, h.streamId, h.len, h.remain, h.rest, h.data, h.clean, h.flag, h.fmt, h.ready⟩

theorem readNBytes_len (hlen : m.payload.length < 2 ^ 24) : readNBytes (beBytes 3 m.payload.length) = m.payload.length := by
  rw [readNBytes_beBytes]
  omega

theorem held_format0 {delta : BitVec 32} {flagged : Bool} (hlen : m.payload.length < 2 ^ 24) (hdata : c.chunkData = [])
    (hready : c.chunkReady = false) (hflag : c.extTsFlag = flagged) (hcsid : c.csid = readCsid m.csid) (hfmt : c.fmt = 0)
    (hdelta : delta = m.timestamp) : Held ⟨m, delta, m.payload, flagged, 0⟩ (setFormat0 c (timeField delta ++
    (beBytes 3 m.payload.length ++ m.typeId :: beBytes 4 m.streamId.toNat)) delta) := by
  have htime : (timeField delta).length = 3 := timeField_length delta
  have hlen3 : (beBytes 3 m.payload.length).length = 3 := beBytes_length 3 _
  have hdrop : (timeField delta ++ (beBytes 3 m.payload.length ++ m.typeId :: beBytes 4 m.streamId.toNat)).drop 3 =
      beBytes 3 m.payload.length ++ m.typeId :: beBytes 4 m.streamId.toNat := drop_left' htime
  have hfield : ((timeField delta ++ (beBytes 3 m.payload.length ++ m.typeId :: beBytes 4 m.streamId.toNat)).drop 3).take 3 =
      beBytes 3 m.payload.length := by
    rw [hdrop, take_left' hlen3]
  have hdrop6 : (timeField delta ++ (beBytes 3 m.payload.length ++ m.typeId :: beBytes 4 m.streamId.toNat)).drop 6 =
      m.typeId :: beBytes 4 m.streamId.toNat := by
    rw [show 6 = 3 + 3 from rfl, ← drop_drop, hdrop, drop_left' hlen3]
  have htype : (timeField delta ++ (beBytes 3 m.payload.length ++ m.typeId :: beBytes 4 m.streamId.toNat)).getD 6 0 = m.typeId := by
    rw [getD_eq_getElem?_getD, ← List.head?_drop, hdrop6]
    rfl
  have hstream : BitVec.ofNat 32 (readNBytes ((timeField delta ++ (beBytes 3 m.payload.length ++
      m.typeId :: beBytes 4 m.streamId.toNat)).drop 7)) = m.streamId := by
    have hlt := m.streamId.isLt
    rw [show 7 = 6 + 1 from rfl, ← drop_drop, hdrop6, drop_succ_cons, drop_zero, readNBytes_beBytes,
      Nat.mod_eq_of_lt (by omega), BitVec.ofNat_toNat, BitVec.setWidth_eq]
  unfold setFormat0
  rw [hfield, htype, hstream, readNBytes_len hlen]
  exact ⟨hcsid, hdelta, fun hx => by simp at hx, rfl, rfl, rfl, rfl, by simp, fun _ => by simpa using hdata, fun _ => hdata, hflag,
    hfmt, hready⟩

theorem held_format1 {delta : BitVec 32} {flagged : Bool} (hlen : m.payload.length < 2 ^ 24) (hdata : c.chunkData = [])
    (hready : c.chunkReady = false) (hflag : c.extTsFlag = flagged) (hcsid : c.csid = readCsid m.csid) (hfmt : c.fmt = 1)
    (hdelta : c.timestamp32 + delta = m.timestamp) (hid : c.msgStreamId = m.streamId) :
    Held ⟨m, delta, m.payload, flagged, 1⟩ (setFormat1 c (timeField delta ++ (beBytes 3 m.payload.length ++ [m.typeId])) delta) := by
  have htime : (timeField delta).length = 3 := timeField_length delta
  have hlen3 : (beBytes 3 m.payload.length).length = 3 := beBytes_length 3 _
  have hdrop : (timeField delta ++ (beBytes 3 m.payload.length ++ [m.typeId])).drop 3 = beBytes 3 m.payload.length ++ [m.typeId] :=
    drop_left' htime
  have hfield : ((timeField delta ++ (beBytes 3 m.payload.length ++ [m.typeId])).drop 3).take 3 = beBytes 3 m.payload.length := by
    rw [hdrop, take_left' hlen3]
  have htype : (timeField delta ++ (beBytes 3 m.payload.length ++ [m.typeId])).getD 6 0 = m.typeId := by
    rw [getD_eq_getElem?_getD, ← List.head?_drop, show 6 = 3 + 3 from rfl, ← drop_drop, hdrop, drop_left' hlen3]
    rfl
  unfold setFormat1
  rw [hfield, htype, readNBytes_len hlen]
  exact ⟨hcsid, hdelta, fun _ => rfl, rfl, hid, rfl, rfl, by simp, fun _ => by simpa using hdata, fun _ => hdata, hflag, hfmt, hready⟩

theorem held_format2 {delta : BitVec 32} {flagged : Bool} {h : List Byte} (hdata : c.chunkData = []) (hready : c.chunkReady = false)
    (hflag : c.extTsFlag = flagged) (hcsid : c.csid = readCsid m.csid) (hfmt : c.fmt = 2)
    (hdelta : c.timestamp32 + delta = m.timestamp) (hid : c.msgStreamId = m.streamId) (htype : c.typeId = m.typeId)
    (hlen : c.msgLen = m.payload.length) : Held ⟨m, delta, m.payload, flagged, 2⟩ (setFormat2 c h delta) := by
  unfold setFormat2
  exact ⟨hcsid, hdelta, fun _ => rfl, htype, hid, hlen, hlen, by simp, fun _ => by simpa using hdata, fun _ => hdata, hflag, hfmt, hready⟩

theorem readMsgFormat3_start (hheld : Held s c) (hrest : s.rest = []) (hflag : s.flagged = isExtended s.delta)
    (hlast : s.lastFmt = 1 ∨ s.lastFmt = 2 ∨ s.delta = 0) (hid : m.streamId = s.message.streamId)
    (htype : m.typeId = s.message.typeId) (hlen : m.payload.length = s.message.payload.length) (htime : m.timestamp =
    s.message.timestamp + s.delta) : ∃ c', readMsgFormat3 3 (readCsid m.csid) c (extField s.delta ++ z) = (c', some z) ∧
    c'.inPayload = c.inPayload ∧ Held ⟨m, s.delta, m.payload, s.flagged, 3⟩ c' := by
  have hremain : c.remain = 0 := by
    rw [hheld.remain, hrest]
    rfl
  have hfield : isExtended s.delta = false → extField s.delta = [] := fun hext => by
    unfold extField
    rw [hext]
    rfl
  have hrepeat : c.repeatTimestamp (extField s.delta ++ z) = some (m.timestamp, z) := by
    unfold repeatTimestamp
    rw [hheld.flag, hflag, hheld.fmt, hheld.timestamp]
    by_cases hadded : s.lastFmt = 1 ∨ s.lastFmt = 2
    · have hgo : (if isExtended s.delta = true then
          (readExtTs (extField s.delta ++ z)).map fun r => (s.message.timestamp + r.1, r.2)
          else some (s.message.timestamp + c.timestampDelta, extField s.delta ++ z)) = some (m.timestamp, z) := by
        rw [hheld.delta hadded]
        split
        · rename_i hext
          rw [readExtTs_extField hext, htime]
          rfl
        · rename_i hext
          rw [hfield (Bool.eq_false_iff.2 hext), htime]
          rfl
      rcases hadded with h1 | h2
      · rw [h1]
        exact hgo
      · rw [h2]
        exact hgo
    · have hzero : s.delta = 0 := by
        rcases hlast with h1 | h2 | h3
        · exact absurd (.inl h1) hadded
        · exact absurd (.inr h2) hadded
        · exact h3
      have hext : isExtended s.delta = false := by
        rw [hzero]
        rfl
      have hsame : m.timestamp = s.message.timestamp := by
        rw [htime, hzero]
        simp
      rw [hext, hfield hext, hsame]
      split
      · rfl
      · rename_i h1
        exact absurd (.inl h1) hadded
      · rename_i h2
        exact absurd (.inr h2) hadded
      · rfl
  unfold readMsgFormat3
  rw [if_pos hremain, hrepeat]
  refine ⟨_, rfl, rfl, rfl, rfl, fun hx => by simp at hx, hheld.typeId.trans htype.symm, hheld.streamId.trans hid.symm,
    hheld.len.trans hlen.symm, hheld.len.trans hlen.symm, by simp, fun _ => by simp, fun _ => rfl, hheld.flag, rfl, rfl⟩

theorem readMsgFormat3_more (hheld : Held s c) (hrest : s.rest ≠ []) (hflag : s.flagged = isExtended s.delta)
    (htime : isExtended s.delta = true → s.delta = s.message.timestamp) :
    ∃ c', readMsgFormat3 3 (readCsid s.message.csid) c (extField s.delta ++ z) = (c', some z) ∧
      c'.inPayload = c.inPayload ∧ Held { s with lastFmt := 3 } c' := by
  have hremain : ¬c.remain = 0 := by
    rw [hheld.remain]
    exact fun hzero => hrest (List.length_eq_zero_iff.1 hzero)
  have hskip : c.skipTimestamp (extField s.delta ++ z) = some z := by
    unfold skipTimestamp
    rw [hheld.flag, hflag, hheld.timestamp]
    split
    · rename_i hext
      rw [readExtTs_extField hext, htime hext]
      simp
    · rename_i hext
      unfold extField
      rw [if_neg hext]
      rfl
  unfold readMsgFormat3
  rw [if_neg hremain, hskip]
  exact ⟨_, rfl, rfl, rfl, hheld.timestamp, fun hx => by simp at hx, hheld.typeId, hheld.streamId, hheld.len, hheld.remain,
    hheld.rest, hheld.data, hheld.clean, hheld.flag, rfl, hheld.ready⟩

theorem readMessageHeader_eq (hphase : c.inPayload = false) (fmt csid : Nat) (b : List Byte) : readMessageHeader fmt csid c b =
      let r := if fmt = 0 then readMsgFormat 11 fmt csid setFormat0 c b
        else if fmt = 1 then readMsgFormat 7 fmt csid setFormat1 c b
        else if fmt = 2 then readMsgFormat 3 fmt csid setFormat2 c b
        else readMsgFormat3 fmt csid c b
      if r.2.isSome then ({ r.1 with inPayload := true }, r.2) else r := by
  unfold readMessageHeader
  rw [if_neg (by simp [hphase])]
  split
  · rfl
  · rfl
  · rfl
  · rename_i h0 h1 h2
    simp only [if_neg h0, if_neg h1, if_neg h2]

end ChunkStream

namespace ChunkPeer

open ChunkStream

variable {σ : Type} {rules : ChunkRules} {h : RtmpHandler σ} {t : ChunkPeer σ} {m : RtmpMessage} {fmt : Nat} {wide : Bool} {c : ChunkStream} {z : List Byte}

theorem begun_rest (t : ChunkPeer σ) (fmt : Nat) (m : RtmpMessage) : (t.begun fmt m).rest = m.payload ∧ (t.begun fmt m).message = m := by
  unfold begun
  split <;> exact ⟨rfl, rfl⟩

theorem readMessageHeader_start (hcompliant : Compliant t (.start fmt wide m)) {p : σ} (hpeer : t.reader = some p)
    (hok : ReadOk rules h t (.start fmt wide m)) (hphase : c.inPayload = false)
    (hheld : ∀ s, OrdMap.find t.streams m.csid = some s → ChunkStream.Held s c)
    (hnew : OrdMap.find t.streams m.csid = none → c = { fmt := fmt, csid := readCsid m.csid }) :
    ∃ c', c.readMessageHeader fmt (readCsid m.csid) (messageHeader rules.ids fmt (t.begun fmt m).delta m ++ z) = (c', some z) ∧
      c'.inPayload = true ∧ ChunkStream.Held (t.begun fmt m) c' := by
  obtain ⟨-, hfmt, -, -, hlen, hidle, hbefore⟩ := hcompliant
  obtain ⟨-, -, hid, hrepeat⟩ := hok p hpeer
  have hclean : c.chunkData = [] ∧ c.chunkReady = false := by
    cases hf : OrdMap.find t.streams m.csid with
    | none =>
      rw [hnew hf]
      exact ⟨rfl, rfl⟩
    | some s => exact ⟨(hheld s hf).clean (hidle s hf), (hheld s hf).ready⟩
  by_cases hzero : fmt = 0
  · subst hzero
    have hflag : (c.extTsFlag || isExtended m.timestamp) = (t.begun 0 m).flagged := by
      unfold begun
      cases hf : OrdMap.find t.streams m.csid with
      | none =>
        rw [hnew hf]
        rfl
      | some s => simp [(hheld s hf).flag]
    have hbegun : t.begun 0 m = ⟨m, m.timestamp, m.payload, (t.begun 0 m).flagged, 0⟩ := by
      unfold begun
      split <;> rfl
    have hread := readMsgFormat_sent 11 setFormat0 0 (readCsid m.csid) c m.timestamp
      (beBytes 3 m.payload.length ++ m.typeId :: beBytes 4 m.streamId.toNat) z rfl
    have hheader : messageHeader rules.ids 0 m.timestamp m ++ z = timeField m.timestamp ++
        (beBytes 3 m.payload.length ++ m.typeId :: beBytes 4 m.streamId.toNat) ++ extField m.timestamp ++ z := by
      simp [messageHeader, hid]
    have hnext := (held_format0 (c := { c with fmt := 0, csid := readCsid m.csid, extTsFlag := c.extTsFlag || isExtended m.timestamp })
      hlen hclean.1 hclean.2 hflag rfl rfl rfl).phase true
    rw [hbegun, hheader, readMessageHeader_eq hphase]
    dsimp only
    rw [if_pos rfl, hread]
    exact ⟨_, rfl, rfl, hnext⟩
  · obtain ⟨s, hs, hid', hsame, hsame3⟩ := hbefore hzero
    have hs : OrdMap.find t.streams m.csid = some s := hs
    have hsheld := hheld s hs
    have hadd : c.timestamp32 + (m.timestamp - s.message.timestamp) = m.timestamp := by
      rw [hsheld.timestamp]
      rw [BitVec.add_comm, BitVec.sub_add_cancel]
    have hstream : c.msgStreamId = m.streamId := hsheld.streamId.trans hid'.symm
    have hflag : ∀ delta, (c.extTsFlag || isExtended delta) = (s.flagged || isExtended delta) := fun _ => by rw [hsheld.flag]
    rw [readMessageHeader_eq hphase]
    dsimp only
    rw [if_neg hzero]
    by_cases h1 : fmt = 1
    · subst h1
      have hbegun : t.begun 1 m = ⟨m, m.timestamp - s.message.timestamp, m.payload,
          s.flagged || isExtended (m.timestamp - s.message.timestamp), 1⟩ := by
        unfold begun
        rw [hs]
        simp
      have hread := readMsgFormat_sent 7 setFormat1 1 (readCsid m.csid) c (m.timestamp - s.message.timestamp)
        (beBytes 3 m.payload.length ++ [m.typeId]) z rfl
      have hheader : messageHeader rules.ids 1 (m.timestamp - s.message.timestamp) m ++ z = timeField (m.timestamp - s.message.timestamp) ++
          (beBytes 3 m.payload.length ++ [m.typeId]) ++ extField (m.timestamp - s.message.timestamp) ++ z := by
        simp [messageHeader]
      have hnext := (@held_format1 { c with fmt := 1, csid := readCsid m.csid, extTsFlag := c.extTsFlag || isExtended (m.timestamp - s.message.timestamp) }
        m _ _ hlen hclean.1 hclean.2 (hflag _) rfl rfl hadd hstream).phase true
      rw [hbegun, hheader, if_pos rfl, hread]
      exact ⟨_, rfl, rfl, hnext⟩
    · rw [if_neg h1]
      by_cases h2 : fmt = 2
      · subst h2
        obtain ⟨htype, hsamelen⟩ := hsame (Nat.le_refl _)
        have hbegun : t.begun 2 m = ⟨m, m.timestamp - s.message.timestamp, m.payload,
            s.flagged || isExtended (m.timestamp - s.message.timestamp), 2⟩ := by
          unfold begun
          rw [hs]
          simp
        have hread := readMsgFormat_sent 3 setFormat2 2 (readCsid m.csid) c (m.timestamp - s.message.timestamp) [] z rfl
        have hheader : messageHeader rules.ids 2 (m.timestamp - s.message.timestamp) m ++ z = timeField (m.timestamp - s.message.timestamp) ++
            [] ++ extField (m.timestamp - s.message.timestamp) ++ z := by
          simp [messageHeader]
        have hnext := (@held_format2 { c with fmt := 2, csid := readCsid m.csid, extTsFlag := c.extTsFlag || isExtended (m.timestamp - s.message.timestamp) }
          m _ _ (timeField (m.timestamp - s.message.timestamp) ++ []) hclean.1 hclean.2 (hflag _) rfl rfl hadd hstream
          (hsheld.typeId.trans htype.symm) (hsheld.len.trans hsamelen.symm)).phase true
        rw [hbegun, hheader, if_pos rfl, hread]
        exact ⟨_, rfl, rfl, hnext⟩
      · obtain rfl : fmt = 3 := by omega
        obtain ⟨htype, hsamelen⟩ := hsame (by omega)
        obtain ⟨hnow, hlast⟩ := hrepeat rfl s hs
        have hbegun : t.begun 3 m = ⟨m, s.delta, m.payload, s.flagged, 3⟩ := by
          unfold begun
          rw [hs]
          simp
        obtain ⟨c', hread, -, hnext⟩ := readMsgFormat3_start (z := z) hsheld (hidle s hs) hnow hlast hid' htype hsamelen (hsame3 rfl)
        have hheader : messageHeader rules.ids 3 s.delta m ++ z = extField s.delta ++ z := by
          simp [messageHeader]
        rw [hbegun, hheader, if_neg h2, hread]
        exact ⟨_, rfl, rfl, hnext.phase true⟩

theorem readMessageHeader_more {s : SentStream} (hheld : ChunkStream.Held s c) (hphase : c.inPayload = false) (hrest : s.rest ≠ [])
    (hflag : s.flagged = isExtended s.delta) (htime : isExtended s.delta = true → s.delta = s.message.timestamp) :
    ∃ c', c.readMessageHeader 3 (readCsid s.message.csid) (extField s.delta ++ z) = (c', some z) ∧
      c'.inPayload = true ∧ ChunkStream.Held { s with lastFmt := 3 } c' := by
  obtain ⟨c', hread, -, hnext⟩ := readMsgFormat3_more (z := z) hheld hrest hflag htime
  rw [readMessageHeader_eq hphase]
  dsimp only
  have h0 : ¬(3 : Nat) = 0 := by decide
  have h1 : ¬(3 : Nat) = 1 := by decide
  have h2 : ¬(3 : Nat) = 2 := by decide
  rw [if_neg h0, if_neg h1, if_neg h2, hread]
  exact ⟨{ c' with inPayload := true }, rfl, rfl, hnext.phase true⟩

theorem readMessagePayload_sent {s : SentStream} (hheld : ChunkStream.Held s c) (hbegun : s.rest = [] → s.message.payload = []) (size : Nat) :
    ∃ c', c.readMessagePayload size (s.rest.take size ++ z) = (c', some z) ∧ c'.inPayload = false ∧
      if s.rest.drop size = [] then c'.chunkReady = true ∧ c'.message = asRead s.message ∧
          ChunkStream.Held { s with rest := s.rest.drop size } c'.reset
      else ChunkStream.Held { s with rest := s.rest.drop size } c' := by
  have hlen : (s.rest.take size).length = min c.remain size := by
    rw [length_take, hheld.remain, Nat.min_comm]
  have hle : s.rest.length ≤ s.message.payload.length := by
    have hdrop := congrArg List.length hheld.rest
    rw [length_drop] at hdrop
    omega
  have hsent : s.message.payload.length - s.rest.length + min c.remain size =
      s.message.payload.length - (s.rest.drop size).length := by
    rw [length_drop, hheld.remain]
    omega
  have hrest : s.message.payload.drop (s.message.payload.length - (s.rest.drop size).length) = s.rest.drop size := by
    rw [← hsent, ← drop_drop, hheld.rest, hheld.remain]
    by_cases hlong : size ≤ s.rest.length
    · rw [Nat.min_eq_right hlong]
    · rw [Nat.min_eq_left (by omega), drop_length, drop_of_length_le (by omega)]
  have hdata : c.chunkData ++ s.rest.take size =
      s.message.payload.take (s.message.payload.length - (s.rest.drop size).length) := by
    by_cases hnil : s.rest = []
    · rw [hheld.clean hnil, hnil, hbegun hnil]
      simp
    · rw [hheld.data hnil, ← hsent, take_add, hheld.rest, hheld.remain]
      congr 1
      by_cases hlong : size ≤ s.rest.length
      · rw [Nat.min_eq_right hlong]
      · rw [Nat.min_eq_left (by omega), take_length, take_of_length_le (by omega)]
  have hremain : c.remain - min c.remain size = (s.rest.drop size).length := by
    rw [length_drop, hheld.remain]
    omega
  have hread : c.readMessagePayload size (s.rest.take size ++ z) =
      ({ c with
         chunkData := s.message.payload.take (s.message.payload.length - (s.rest.drop size).length),
         remain := (s.rest.drop size).length, chunkReady := c.chunkReady || (s.rest.drop size).length = 0,
         inPayload := false }, some z) := by
    unfold readMessagePayload
    dsimp only
    rw [if_neg (by rw [length_append, hlen]; omega), take_left' hlen, drop_left' hlen, hremain, hdata]
  refine ⟨_, hread, rfl, ?_⟩
  split
  · rename_i hdone
    refine ⟨by simp [hdone], ?_, ?_⟩
    · unfold message asRead
      simp [hdone, hheld.csid, hheld.timestamp, hheld.typeId, hheld.streamId]
    · exact ⟨hheld.csid, hheld.timestamp, hheld.delta, hheld.typeId, hheld.streamId, hheld.len, rfl, hrest,
        fun hne => absurd hdone hne, fun _ => rfl, hheld.flag, hheld.fmt, rfl⟩
  · rename_i hmore
    have hready : (c.chunkReady || decide ((s.rest.drop size).length = 0)) = false := by
      have hne : ¬(s.rest.drop size).length = 0 := fun hzero => hmore (List.length_eq_zero_iff.1 hzero)
      rw [hheld.ready, decide_eq_false hne]
      rfl
    exact ⟨hheld.csid, hheld.timestamp, hheld.delta, hheld.typeId, hheld.streamId, hheld.len, rfl, hrest, fun _ => rfl,
      fun hdone => absurd hdone hmore, hheld.flag, hheld.fmt, hready⟩

/-! ## The reader tracks the peer -/

/-- **The reader is where the peer is**: no chunk is half read, each stream is held under a key of its own, and what is buffered
is `buf`. -/
structure Tracks (t : ChunkPeer σ) (w : RtmpInput σ) (buf : List Byte) : Prop where
  opened : w.closed = false
  reader : t.reader = some w.state
  handled : w.handled = t.sent.map asRead
  idle : w.reader.fmtReady = false
  buf : w.reader.buf = buf
  named : ∀ csid s, OrdMap.find t.streams csid = some s → s.message.csid = csid
  held : ∀ csid s, OrdMap.find t.streams csid = some s →
    ∃ c, w.reader.csMap (readCsid csid % 256) = some c ∧ ChunkStream.Held s c ∧ c.inPayload = false
  new : ∀ csid, (∀ csid' s, OrdMap.find t.streams csid' = some s → readCsid csid' % 256 ≠ readCsid csid % 256) →
    w.reader.csMap (readCsid csid % 256) = none
  apart : ∀ csid csid' s s', OrdMap.find t.streams csid = some s → OrdMap.find t.streams csid' = some s' →
    readCsid csid % 256 = readCsid csid' % 256 → csid = csid'

variable {w : RtmpInput σ} {s : SentStream} {x : List Byte}

theorem Tracks.put {buf : List Byte} (hw : Tracks t w buf) (reader : RtmpReader) (hidle : reader.fmtReady = false)
    (hmap : reader.csMap = Function.update w.reader.csMap (readCsid s.message.csid % 256) (some c)) (hheld : ChunkStream.Held s c)
    (hphase : c.inPayload = false) (hapart : ∀ csid s', OrdMap.find t.streams csid = some s' → csid ≠ s.message.csid →
      readCsid csid % 256 ≠ readCsid s.message.csid % 256) :
    Tracks { t with streams := OrdMap.put t.streams s.message.csid s } { w with reader } reader.buf := by
  have hfind : ∀ csid, OrdMap.find (OrdMap.put t.streams s.message.csid s) csid =
      if csid = s.message.csid then some s else OrdMap.find t.streams csid := fun csid => OrdMap.find_put _ _ _ _
  refine ⟨hw.opened, hw.reader, hw.handled, hidle, rfl, fun csid s' hs' => ?_, fun csid s' hs' => ?_, fun csid hnew => ?_,
    fun csid csid' s₁ s₂ h₁ h₂ hkey => ?_⟩
  · have hs' : (if csid = s.message.csid then some s else OrdMap.find t.streams csid) = some s' := (hfind csid).symm.trans hs'
    split at hs'
    · rename_i heq
      rw [← Option.some.inj hs', heq]
    · exact hw.named csid s' hs'
  · have hs' : (if csid = s.message.csid then some s else OrdMap.find t.streams csid) = some s' := (hfind csid).symm.trans hs'
    dsimp only
    rw [hmap]
    split at hs'
    · rename_i heq
      cases hs'
      rw [heq]
      exact ⟨c, Function.update_self _ _ _, hheld, hphase⟩
    · rename_i hne
      rw [Function.update_of_ne (hapart csid s' hs' hne)]
      exact hw.held csid s' hs'
  · have hnew : ∀ csid' s', (if csid' = s.message.csid then some s else OrdMap.find t.streams csid') = some s' →
        readCsid csid' % 256 ≠ readCsid csid % 256 := fun csid' s' hs' => hnew csid' s' ((hfind csid').trans hs')
    have hne := hnew s.message.csid s (if_pos rfl)
    dsimp only
    rw [hmap, Function.update_of_ne hne.symm]
    refine hw.new csid fun csid' s' hs' => ?_
    by_cases heq : csid' = s.message.csid
    · rw [heq]
      exact hne
    · exact hnew csid' s' ((if_neg heq).trans hs')
  · have h₁ : (if csid = s.message.csid then some s else OrdMap.find t.streams csid) = some s₁ := (hfind csid).symm.trans h₁
    have h₂ : (if csid' = s.message.csid then some s else OrdMap.find t.streams csid') = some s₂ := (hfind csid').symm.trans h₂
    by_cases heq : csid = s.message.csid
    · by_cases heq' : csid' = s.message.csid
      · exact heq.trans heq'.symm
      · rw [if_neg heq'] at h₂
        exact absurd (heq ▸ hkey.symm) (hapart csid' s₂ h₂ heq')
    · rw [if_neg heq] at h₁
      by_cases heq' : csid' = s.message.csid
      · exact absurd (heq' ▸ hkey) (hapart csid s₁ h₁ heq)
      · rw [if_neg heq'] at h₂
        exact hw.apart csid csid' s₁ s₂ h₁ h₂ hkey

end ChunkPeer
end MoqLiveCast
