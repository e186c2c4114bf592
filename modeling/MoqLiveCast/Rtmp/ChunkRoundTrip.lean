import MoqLiveCast.Rtmp.ChunkWrite
/-!
# ChunkRoundTrip — when a message is read as it was written

A message comes back if its stream's number and its time have room in the shortest header and its chunks can be counted.
-/
namespace MoqLiveCast

open List

/-! ## What a chunk costs -/

theorem chunkCount_le {chunkSize d d' p : Nat} (hsize : 0 < chunkSize) (hd : d' ≤ d + p) (hp : p ≤ chunkSize) :
    chunkCount d' chunkSize ≤ chunkCount d chunkSize + 1 := by
  by_contra hnot
  have hlt := (lt_chunkCount hsize).1 (Nat.lt_of_not_le hnot)
  rw [Nat.succ_mul] at hlt
  exact Nat.lt_irrefl _ ((lt_chunkCount hsize).2 (show chunkCount d chunkSize * chunkSize < d by omega))

namespace ChunkStream

variable {s : ChunkStream} {fmt csid : Nat} {b : List Byte}

theorem readMessageHeader_keeps (s : ChunkStream) (fmt csid : Nat) (b : List Byte) : ((s.readMessageHeader fmt csid b).1.csid =
    csid ∨ (s.readMessageHeader fmt csid b).1.csid = s.csid) ∧ (s.readMessageHeader fmt csid b).1.chunkData.length ≤
    s.chunkData.length := by
  have hformat : ∀ {len : Nat} {set : ChunkStream → List Byte → BitVec 32 → ChunkStream},
      (∀ s h ts, (set s h ts).csid = s.csid ∧ (set s h ts).chunkData = s.chunkData) →
      ((readMsgFormat len fmt csid set s b).1.csid = csid ∨ (readMsgFormat len fmt csid set s b).1.csid = s.csid) ∧
        (readMsgFormat len fmt csid set s b).1.chunkData.length ≤ s.chunkData.length := by
    intro len set hset
    unfold readMsgFormat
    dsimp only
    split_ifs
    · exact ⟨.inr rfl, Nat.le_refl _⟩
    · rw [(hset _ _ _).1, (hset _ _ _).2]
      exact ⟨.inl rfl, Nat.le_refl _⟩
    · exact ⟨.inl rfl, Nat.le_refl _⟩
    · rw [(hset _ _ _).1, (hset _ _ _).2]
      exact ⟨.inl rfl, Nat.le_refl _⟩
  have hformat3 : ((readMsgFormat3 fmt csid s b).1.csid = csid ∨ (readMsgFormat3 fmt csid s b).1.csid = s.csid) ∧
      (readMsgFormat3 fmt csid s b).1.chunkData.length ≤ s.chunkData.length := by
    unfold readMsgFormat3
    split
    · split
      · exact ⟨.inr rfl, Nat.le_refl _⟩
      · exact ⟨.inl rfl, Nat.zero_le _⟩
    · split
      · exact ⟨.inr rfl, Nat.le_refl _⟩
      · exact ⟨.inl rfl, Nat.le_refl _⟩
  have hphase : ∀ {r : ChunkStream × Option (List Byte)},
      (r.1.csid = csid ∨ r.1.csid = s.csid) ∧ r.1.chunkData.length ≤ s.chunkData.length →
      ((if r.2.isSome = true then ({ r.1 with inPayload := true }, r.2) else r).1.csid = csid ∨
        (if r.2.isSome = true then ({ r.1 with inPayload := true }, r.2) else r).1.csid = s.csid) ∧
        (if r.2.isSome = true then ({ r.1 with inPayload := true }, r.2) else r).1.chunkData.length ≤ s.chunkData.length := by
    intro r hr
    split <;> exact hr
  unfold readMessageHeader
  split
  · exact ⟨.inr rfl, Nat.le_refl _⟩
  · dsimp only
    apply hphase
    split
    · exact hformat fun _ _ _ => ⟨rfl, rfl⟩
    · exact hformat fun _ _ _ => ⟨rfl, rfl⟩
    · exact hformat fun _ _ _ => ⟨rfl, rfl⟩
    · exact hformat3

end ChunkStream

namespace RtmpReader

variable {r r' : RtmpReader} {chunkSize : Nat}

theorem readFmtCsid_le (h : r.readFmtCsid = (r', true)) :
    r'.csid ≤ 574 ∧ r'.csMap = r.csMap ∧ r'.buf.length + 1 ≤ r.buf.length := by
  unfold readFmtCsid at h
  cases hb : r.buf with
  | nil => simp [hb] at h
  | cons x b =>
    have hx := x.isLt
    simp only [hb] at h
    split_ifs at h
    · cases b with
      | nil => simp at h
      | cons y b =>
        obtain rfl := (Prod.mk.inj h).1
        have hy := y.isLt
        refine ⟨by dsimp only; omega, rfl, by simp⟩
    · cases b with
      | nil => simp at h
      | cons y b =>
        cases b with
        | nil => simp at h
        | cons z b =>
          obtain rfl := (Prod.mk.inj h).1
          have hy := y.isLt
          have hz := z.isLt
          refine ⟨by dsimp only; omega, rfl, by simp⟩
    · obtain rfl := (Prod.mk.inj h).1
      refine ⟨by dsimp only; omega, rfl, by simp⟩

theorem readChunkStream_took {n : Nat} (hidle : r.fmtReady = false) (h : r.readChunkStream chunkSize = (r', true))
    (htook : ∀ c b, { r.readFmtCsid.1 with fmtReady := true }.stream.readMessageHeader r.readFmtCsid.1.fmt r.readFmtCsid.1.csid
      r.readFmtCsid.1.buf = (c, some b) → b.length + n ≤ r.readFmtCsid.1.buf.length) :
    r'.fmtReady = false ∧ r'.csid ≤ 574 ∧ r'.csMap = Function.update r.csMap (r'.csid % 256) (some r'.stream) ∧
      ((r'.stream.csid = r'.csid) ∨ ∃ c, r.csMap (r'.csid % 256) = some c ∧ r'.stream.csid = c.csid) ∧
      ∃ p ≤ chunkSize, r'.buf.length + p + n + 1 ≤ r.buf.length ∧
        ((∃ c, r.csMap (r'.csid % 256) = some c ∧ r'.stream.chunkData.length ≤ c.chunkData.length + p) ∨
          (r.csMap (r'.csid % 256) = none ∧ r'.stream.chunkData.length ≤ p)) := by
  unfold readChunkStream at h
  rw [if_neg (by simp [hidle])] at h
  dsimp only at h
  split at h
  · rename_i hbasic
    have hread : r.readFmtCsid = (r.readFmtCsid.1, true) := Prod.ext rfl hbasic
    obtain ⟨hcsid, hmap, hlen⟩ := readFmtCsid_le hread
    generalize r.readFmtCsid.1 = r₀ at h hcsid hmap hlen htook
    unfold readChunk at h
    dsimp only at h
    obtain ⟨hname, hdata⟩ := ChunkStream.readMessageHeader_keeps { r₀ with fmtReady := true }.stream r₀.fmt r₀.csid r₀.buf
    have hle : ∀ b, ({ r₀ with fmtReady := true }.stream.readMessageHeader r₀.fmt r₀.csid r₀.buf).2 = some b →
        b.length + n ≤ r₀.buf.length := fun b hb => htook _ b (Prod.ext rfl hb)
    have hstream : { r₀ with fmtReady := true }.stream = (r.csMap (r₀.csid % 256)).getD { fmt := r₀.fmt, csid := r₀.csid } := by
      unfold stream
      rw [hmap]
    generalize { r₀ with fmtReady := true }.stream.readMessageHeader r₀.fmt r₀.csid r₀.buf = header at h hname hdata hle
    rw [hstream] at hname hdata
    split at h
    · cases h
    · rename_i b hb
      have hle := hle b hb
      unfold ChunkStream.readMessagePayload at h
      dsimp only at h
      split at h
      · rename_i hnone
        split at hnone
        · cases h
        · cases hnone
      · rename_i b' hb'
        split at hb'
        · cases hb'
        · rename_i hlong
          cases hb'
          obtain rfl := (Prod.mk.inj h).1
          rw [if_neg hlong]
          have hreq : min header.1.remain chunkSize ≤ chunkSize := Nat.min_le_right _ _
          refine ⟨rfl, hcsid, ?_, ?_, min header.1.remain chunkSize, hreq, ?_, ?_⟩
          · rw [setStream_stream]
            unfold setStream
            dsimp only
            rw [hmap]
          · rw [setStream_stream]
            dsimp only [setStream]
            cases hc : r.csMap (r₀.csid % 256) with
            | none =>
              rw [hc] at hname
              exact .inl (hname.elim id id)
            | some c =>
              rw [hc] at hname
              exact hname.imp id fun heq => ⟨c, rfl, heq⟩
          · dsimp only [setStream]
            rw [length_drop]
            omega
          · rw [setStream_stream]
            dsimp only [setStream]
            rw [length_append, length_take]
            cases hc : r.csMap (r₀.csid % 256) with
            | none =>
              rw [hc] at hdata
              have hzero : header.1.chunkData.length ≤ 0 := hdata
              exact .inr ⟨rfl, by omega⟩
            | some c =>
              rw [hc] at hdata
              have hold : header.1.chunkData.length ≤ c.chunkData.length := hdata
              exact .inl ⟨c, rfl, by omega⟩
  · rename_i hb
    rw [h] at hb
    exact absurd rfl hb

end RtmpReader

/-! ## What was paid for -/

/-- **All payload that came was paid for**: of the `total` bytes `base` were spent on nothing, each byte of payload took one and
each chunk of it one more. -/
structure Paid (chunkSize base total : Nat) (w : RtmpInput Unit) : Prop where
  idle : w.reader.fmtReady = false
  buf : base + w.reader.buf.length ≤ total
  streams : ∀ k c, w.reader.csMap k = some c → c.csid ≤ 574 ∧
    base + (c.chunkData.length + chunkCount c.chunkData.length chunkSize) + w.reader.buf.length ≤ total
  handled : ∀ m ∈ w.handled, m.csid ≤ 574 ∧
    base + (m.payload.length + chunkCount m.payload.length chunkSize) + w.reader.buf.length ≤ total

theorem Paid.chunk {chunkSize base total n : Nat} {w : RtmpInput Unit} {r : RtmpReader} (hsize : 0 < chunkSize)
    (h : Paid chunkSize base total w) (hread : w.reader.readChunkStream chunkSize = (r, true))
    (htook : ∀ c b, { w.reader.readFmtCsid.1 with fmtReady := true }.stream.readMessageHeader w.reader.readFmtCsid.1.fmt
      w.reader.readFmtCsid.1.csid w.reader.readFmtCsid.1.buf = (c, some b) → b.length + n ≤ w.reader.readFmtCsid.1.buf.length) :
    Paid chunkSize (base + n) total (w.chunkRead (sessionReader chunkSize) r) := by
  obtain ⟨hidle, hcsid, hmap, hname, p, hp, hbuf, hdata⟩ := RtmpReader.readChunkStream_took h.idle hread htook
  have hle := h.buf
  have hstream : r.stream.csid ≤ 574 ∧
      base + n + (r.stream.chunkData.length + chunkCount r.stream.chunkData.length chunkSize) + r.buf.length ≤ total := by
    constructor
    · rcases hname with heq | ⟨c, hc, heq⟩
      · omega
      · have hold := (h.streams _ c hc).1
        omega
    · rcases hdata with ⟨c, hc, hlen⟩ | ⟨-, hlen⟩
      · have hold := (h.streams _ c hc).2
        have hcount := chunkCount_le hsize hlen hp
        omega
      · have hzero : chunkCount 0 chunkSize = 0 := by simp [chunkCount]
        have hcount := chunkCount_le hsize (show r.stream.chunkData.length ≤ 0 + _ by omega) hp
        omega
  have hstreams : ∀ s : ChunkStream, s.csid = r.stream.csid → s.chunkData.length ≤ r.stream.chunkData.length → ∀ k c,
      Function.update w.reader.csMap (r.csid % 256) (some s) k = some c → c.csid ≤ 574 ∧
        base + n + (c.chunkData.length + chunkCount c.chunkData.length chunkSize) + r.buf.length ≤ total := by
    intro s hs hlen k c hc
    by_cases hk : k = r.csid % 256
    · rw [hk, Function.update_self] at hc
      cases hc
      have hcount : chunkCount s.chunkData.length chunkSize ≤ chunkCount r.stream.chunkData.length chunkSize := by
        by_contra hnot
        have hlt := (lt_chunkCount hsize).1 (Nat.lt_of_not_le hnot)
        exact Nat.lt_irrefl _ ((lt_chunkCount hsize).2 (Nat.lt_of_lt_of_le hlt hlen))
      exact ⟨by omega, by omega⟩
    · rw [Function.update_of_ne hk] at hc
      have hold := h.streams k c hc
      exact ⟨hold.1, by omega⟩
  have hhandled : ∀ m ∈ w.handled, m.csid ≤ 574 ∧
      base + n + (m.payload.length + chunkCount m.payload.length chunkSize) + r.buf.length ≤ total := by
    intro m hm
    have hold := h.handled m hm
    exact ⟨hold.1, by omega⟩
  unfold RtmpInput.chunkRead
  split
  · refine ⟨hidle, ?_, ?_, fun m hm => ?_⟩
    · dsimp only [sessionReader, RtmpReader.setStream]
      omega
    · dsimp only [sessionReader, RtmpReader.setStream]
      rw [hmap, Function.update_idem]
      exact hstreams r.stream.reset rfl (Nat.zero_le _)
    · rcases List.mem_append.1 hm with hm | hm
      · exact hhandled m hm
      · rw [List.mem_singleton.1 hm]
        exact hstream
  · refine ⟨hidle, by dsimp only; omega, ?_, hhandled⟩
    dsimp only
    rw [hmap]
    exact hstreams r.stream rfl (Nat.le_refl _)

theorem Paid.receive {chunkSize base total : Nat} (hsize : 0 < chunkSize) : ∀ (k : Nat) (w : RtmpInput Unit),
    Paid chunkSize base total w → ∀ m ∈ (w.receiveLoop (sessionReader chunkSize) k).handled, m.csid ≤ 574 ∧
      base + (m.payload.length + chunkCount m.payload.length chunkSize) ≤ total
  | 0, w, h, m, hm => by
    have hpaid := h.handled m hm
    exact ⟨hpaid.1, by omega⟩
  | k + 1, w, h, m, hm => by
    rw [RtmpInput.receiveLoop] at hm
    have hend : m ∈ w.handled → m.csid ≤ 574 ∧ base + (m.payload.length + chunkCount m.payload.length chunkSize) ≤ total := by
      intro hm
      have hpaid := h.handled m hm
      exact ⟨hpaid.1, by omega⟩
    split at hm
    · exact hend hm
    · split at hm
      · exact hend hm
      · rename_i r hread
        exact Paid.receive hsize k _ (h.chunk (n := 0) hsize hread fun _ _ => RtmpReader.readMessageHeader_le) m hm

/-! ## Which messages come back -/

/-- A message that is sent: its stream's number is one, and it has a payload. -/
structure Sendable (m : RtmpMessage) : Prop where
  lo : 2 ≤ m.csid
  hi : m.csid < 65600
  some : 0 < m.payload.length
  len : m.payload.length < 2 ^ 24

/-- **The condition**: the number has one byte, the time three, and the chunks can be counted. -/
def Plain (chunkSize : Nat) (m : RtmpMessage) : Prop :=
  m.csid < 64 ∧ m.timestamp.toNat < 0xffffff ∧ chunkSize + m.payload.length < 2 ^ 32

/-- **What is written is read**, in whatever pieces it comes: the one message, and nothing is left. -/
def RoundTrips (chunkSize : Nat) (m : RtmpMessage) : Prop :=
  ∀ pieces : List (List Byte), pieces.flatten = (writeDataByChunkStream m chunkSize).flatten →
    (pieces.foldl (RtmpInput.onRead (sessionReader chunkSize)) freshInput).handled = [m] ∧
      (pieces.foldl (RtmpInput.onRead (sessionReader chunkSize)) freshInput).reader.buf = []

variable {chunkSize : Nat} {m : RtmpMessage}

theorem Plain.writable (hm : Sendable m) (h : Plain chunkSize m) : Writable chunkSize m := by
  obtain ⟨hcsid, htime, hfits⟩ := h
  exact ⟨hm.lo, by omega, by omega, hm.some, hm.len, hfits⟩

theorem Plain.written (h : Plain chunkSize m) : asRead (writtenAs m) = m := by
  obtain ⟨hcsid, htime, -⟩ := h
  have hwire : wireCsid m.csid = m.csid := if_pos hcsid
  have hread : readCsid m.csid = m.csid := if_pos hcsid
  have htime' : BitVec.ofNat 32 (m.timestamp.toNat % 2 ^ 24) = m.timestamp := by
    rw [Nat.mod_eq_of_lt (by omega), BitVec.ofNat_toNat, BitVec.setWidth_eq]
  unfold asRead writtenAs
  dsimp only
  rw [hwire, hread, htime']

theorem Plain.key (h : Plain chunkSize m) : keyOf (m, 0) = m.csid := by
  have hlt := h.1
  have hwire : wireCsid m.csid = m.csid := if_pos hlt
  have hread : readCsid m.csid = m.csid := if_pos hlt
  unfold keyOf
  dsimp only
  rw [hwire, hread, Nat.mod_eq_of_lt (by omega)]

theorem plain_read (hsize : 0 < chunkSize) {ms : List RtmpMessage} {chunks pieces : List (List Byte)}
    (hms : ∀ m ∈ ms, Sendable m ∧ Plain chunkSize m) (hcsids : (ms.map (·.csid)).Nodup)
    (hwoven : Woven (ms.map fun m => writeDataByChunkStream m chunkSize) chunks) (hbytes : pieces.flatten = chunks.flatten) :
    (pieces.foldl (RtmpInput.onRead (sessionReader chunkSize)) freshInput).handled.Perm ms ∧
      (pieces.foldl (RtmpInput.onRead (sessionReader chunkSize)) freshInput).reader.buf = [] := by
  have hkeys : ms.map (fun m => keyOf (m, 0)) = ms.map (·.csid) := map_congr_left fun m hm => (hms m hm).2.key
  have hread := written_read hsize (fun m hm => (hms m hm).2.writable (hms m hm).1) (hkeys ▸ hcsids) hwoven hbytes
    (.inr fun m hm => (hms m hm).2.1)
  have hsame : ms.map (fun m => asRead (writtenAs m)) = ms := by
    refine (map_congr_left fun m hm => (hms m hm).2.written).trans ?_
    simp
  rw [hsame] at hread
  exact hread

theorem Plain.roundTrips (hsize : 0 < chunkSize) (hm : Sendable m) (h : Plain chunkSize m) : RoundTrips chunkSize m := by
  intro pieces hbytes
  have hwoven : Woven ([m].map fun m => writeDataByChunkStream m chunkSize) (writeDataByChunkStream m chunkSize) := .single _
  obtain ⟨hhandled, hbuf⟩ := @plain_read _ hsize [m] _ _ (fun m' hm' => by
    rw [List.mem_singleton.1 hm']
    exact ⟨hm, h⟩) (by simp) hwoven hbytes
  exact ⟨List.perm_singleton.1 hhandled, hbuf⟩

/-! ## Which do not -/

theorem RoundTrips.written (hsize : 0 < chunkSize) (hm : Writable chunkSize m) (h : RoundTrips chunkSize m) :
    asRead (writtenAs m) = m := by
  have hwoven : Woven ([m].map fun m => writeDataByChunkStream m chunkSize) (writeDataByChunkStream m chunkSize) := .single _
  obtain ⟨hhandled, -⟩ := @written_read _ hsize [m] _ [(writeDataByChunkStream m chunkSize).flatten] (fun m' hm' => by
    rw [List.mem_singleton.1 hm']
    exact hm) (by simp) hwoven (by simp) (.inl rfl)
  have hback := (h [(writeDataByChunkStream m chunkSize).flatten] (by simp)).1
  rw [hback] at hhandled
  exact (List.singleton_perm_singleton.1 hhandled).symm

theorem RoundTrips.fits (hlarge : chunkSize < 2 ^ 32) (hm : Sendable m) (h : RoundTrips chunkSize m) :
    chunkSize + m.payload.length < 2 ^ 32 := by
  by_contra hnot
  have hnone := csCount_none (int_of_len hm.len) hlarge (Nat.le_of_not_lt hnot)
  have hempty : writeDataByChunkStream m chunkSize = [] := by
    unfold writeDataByChunkStream
    rw [Int.toNat_of_nonpos hnone]
    rfl
  have hback := (h [] (by rw [hempty])).1
  exact absurd hback (cons_ne_nil _ _).symm

theorem paid_fresh (chunkSize : Nat) (b : List Byte) : Paid chunkSize 0 b.length (freshInput.push b) := by
  refine ⟨rfl, ?_, fun k c hc => ?_, fun m hm => ?_⟩
  · simp [RtmpInput.push, RtmpReader.push, freshInput]
  · cases hc
  · cases hm

theorem RoundTrips.whole (h : RoundTrips chunkSize m) : ((freshInput.push (writeDataByChunkStream m
    chunkSize).flatten).receiveLoop (sessionReader chunkSize) (2 * (freshInput.push (writeDataByChunkStream m
    chunkSize).flatten).reader.buf.length + 2)).handled = [m] :=
  (h [(writeDataByChunkStream m chunkSize).flatten] (by simp)).1

theorem RoundTrips.csid_le (hsize : 0 < chunkSize) (h : RoundTrips chunkSize m) : m.csid ≤ 574 := by
  have hpaid := paid_fresh chunkSize (writeDataByChunkStream m chunkSize).flatten
  have hmem : m ∈ [m] := mem_singleton_self m
  rw [← h.whole] at hmem
  exact (hpaid.receive hsize _ _ m hmem).1

/-! ## The mark of a long time -/

theorem chunkAt_length {i : Nat} (hsize : 0 < chunkSize) (hm : Sendable m) (hcsid : m.csid < 64)
    (hfits : chunkSize + m.payload.length < 2 ^ 32) (hi : i * chunkSize < m.payload.length) :
    (chunkAt m chunkSize i).length = 1 + (if i = 0 then 11 else 0) + min chunkSize (m.payload.length - i * chunkSize) := by
  have hlt : m.csid % 65536 < 64 := by omega
  rw [chunkAt_take hsize (int_of_len hm.len) hfits hi]
  unfold genData
  rw [if_pos hlt]
  by_cases hzero : i = 0
  · simp [hzero]
    omega
  · simp [hzero]

theorem write_length (hsize : 0 < chunkSize) (hm : Sendable m) (hcsid : m.csid < 64)
    (hfits : chunkSize + m.payload.length < 2 ^ 32) :
    (writeDataByChunkStream m chunkSize).flatten.length = 11 + chunkCount m.payload.length chunkSize + m.payload.length := by
  have hrest : ∀ k i, i + k = chunkCount m.payload.length chunkSize → ((range' i k).map (chunkAt m chunkSize)).flatten.length =
        k + (if i = 0 ∧ 0 < k then 11 else 0) + (m.payload.length - i * chunkSize) := by
    intro k
    induction k with
    | zero =>
      intro i hi
      have hnot : ¬i < chunkCount m.payload.length chunkSize := by omega
      rw [lt_chunkCount hsize] at hnot
      simp
      omega
    | succ k ih =>
      intro i hi
      have hlt := (lt_chunkCount hsize).1 (show i < chunkCount m.payload.length chunkSize by omega)
      have hnext := ih (i + 1) (by omega)
      rw [if_neg (by omega), Nat.succ_mul] at hnext
      rw [range'_succ, map_cons, flatten_cons, length_append, hnext, chunkAt_length hsize hm hcsid hfits hlt]
      by_cases hzero : i = 0 <;> simp [hzero] at hlt ⊢ <;> omega
  have hpos : 0 < chunkCount m.payload.length chunkSize := (lt_chunkCount hsize).2 (by simpa using hm.some)
  have hall := hrest (chunkCount m.payload.length chunkSize) 0 (by omega)
  unfold writeDataByChunkStream
  rw [csCount_eq (int_of_len hm.len) hfits, Int.toNat_natCast, range_eq_range', hall, if_pos ⟨rfl, hpos⟩]
  omega

theorem readMsgFormat_marked {len fmt csid : Nat} {set : ChunkStream → List Byte → BitVec 32 → ChunkStream} {s s' : ChunkStream}
    {b b' : List Byte} (h : ChunkStream.readMsgFormat len fmt csid set s b = (s', some b'))
    (hmark : ¬readNBytes (b.take 3) < 0xffffff) : b'.length + (len + 4) ≤ b.length := by
  unfold ChunkStream.readMsgFormat at h
  dsimp only at h
  rw [if_neg hmark] at h
  split_ifs at h <;> cases h
  rw [length_drop]
  omega

theorem RoundTrips.unmarked (hsize : 0 < chunkSize) (hm : Sendable m) (hcsid : m.csid < 64)
    (hfits : chunkSize + m.payload.length < 2 ^ 32) (h : RoundTrips chunkSize m) : m.timestamp.toNat % 2 ^ 24 ≠ 0xffffff := by
  intro hmark
  obtain ⟨rest, hbytes⟩ : ∃ rest, (writeDataByChunkStream m chunkSize).flatten =
      basicHeader 0 m.csid false ++ (beBytes 3 m.timestamp.toNat ++ rest) := by
    have hpos : 0 < chunkCount m.payload.length chunkSize := (lt_chunkCount hsize).2 (by simpa using hm.some)
    have hlt : m.csid % 65536 < 64 := by omega
    have hnum : m.csid % 65536 = m.csid := by omega
    unfold writeDataByChunkStream
    rw [csCount_eq (int_of_len hm.len) hfits, Int.toNat_natCast]
    obtain ⟨k, hk⟩ := Nat.exists_eq_succ_of_ne_zero (Nat.pos_iff_ne_zero.1 hpos)
    rw [hk, range_succ_eq_map, map_cons, flatten_cons, chunkAt_take hsize (int_of_len hm.len) hfits (by simpa using hm.some)]
    unfold genData basicHeader
    rw [if_pos hlt, if_pos hcsid, hnum]
    simp
  have hwhole := h.whole
  have hpaid := paid_fresh chunkSize (writeDataByChunkStream m chunkSize).flatten
  rw [write_length hsize hm hcsid hfits] at hpaid
  have hbasic := RtmpReader.readFmtCsid_basic (r := (freshInput.push (writeDataByChunkStream m chunkSize).flatten).reader)
    (by omega) hm.lo hm.hi hbytes
  rw [RtmpInput.receiveLoop, if_neg (by simp [RtmpInput.push, freshInput])] at hwhole
  split at hwhole
  · cases hwhole
  · rename_i r hread
    have hnext := hpaid.chunk (n := 15) hsize hread (by
      intro c b hheader
      rw [hbasic] at hheader ⊢
      dsimp only at hheader ⊢
      rw [ChunkStream.readMessageHeader_eq rfl] at hheader
      dsimp only at hheader
      rw [if_pos rfl] at hheader
      have htake : (beBytes 3 m.timestamp.toNat ++ rest).take 3 = beBytes 3 m.timestamp.toNat := take_left' (beBytes_length 3 _)
      have hfull : ¬readNBytes ((beBytes 3 m.timestamp.toNat ++ rest).take 3) < 0xffffff := by
        rw [htake, readNBytes_beBytes]
        omega
      split at hheader
      · exact @readMsgFormat_marked 11 _ _ _ _ _ _ _ (Prod.ext rfl (Prod.mk.inj hheader).2) hfull
      · exact readMsgFormat_marked hheader hfull)
    have hmem : m ∈ [m] := mem_singleton_self m
    rw [← hwhole] at hmem
    have hcost := (hnext.receive hsize _ _ m hmem).2
    omega

/-- **A message comes back as it was written, in whatever pieces, if it is plain**, and so do plain messages of different streams
whose chunks come in turn.  One that comes back is plain, unless its number is read as one of two bytes or more and the time left of
it is the mark.

A known deviation: a number is written with 64 in it that the reader adds again, a time is written without its fourth byte, and the
chunks are counted in `int`s. -/
theorem chunks_round_trip (chunkSize : Nat) (hsize : 0 < chunkSize) (hlarge : chunkSize < 2 ^ 32) :
    (∀ m, Sendable m → (Plain chunkSize m → RoundTrips chunkSize m) ∧ (RoundTrips chunkSize m → Plain chunkSize m ∨
        (64 ≤ m.csid ∧ m.csid ≤ 574 ∧ m.timestamp.toNat % 2 ^ 24 = 0xffffff))) ∧
    ∀ (ms : List RtmpMessage) (chunks pieces : List (List Byte)), (∀ m ∈ ms, Sendable m ∧ Plain chunkSize m) →
      (ms.map (·.csid)).Nodup → Woven (ms.map fun m => writeDataByChunkStream m chunkSize) chunks →
      pieces.flatten = chunks.flatten →
      (pieces.foldl (RtmpInput.onRead (sessionReader chunkSize)) freshInput).handled.Perm ms ∧
        (pieces.foldl (RtmpInput.onRead (sessionReader chunkSize)) freshInput).reader.buf = [] := by
  refine ⟨fun m hm => ⟨Plain.roundTrips hsize hm, fun h => ?_⟩, fun ms chunks pieces => plain_read hsize⟩
  have hfits := h.fits hlarge hm
  have hle := h.csid_le hsize
  by_cases hmark : m.timestamp.toNat % 2 ^ 24 = 0xffffff
  · refine .inr ⟨?_, hle, hmark⟩
    by_contra hcsid
    exact h.unmarked hsize hm (Nat.lt_of_not_le hcsid) hfits hmark
  · have hback := h.written hsize ⟨hm.lo, by omega, hmark, hm.some, hm.len, hfits⟩
    have hcsid : readCsid (wireCsid m.csid) = m.csid := congrArg RtmpMessage.csid hback
    have htime : BitVec.ofNat 32 (m.timestamp.toNat % 2 ^ 24) = m.timestamp := congrArg RtmpMessage.timestamp hback
    have hvalue := congrArg BitVec.toNat htime
    rw [BitVec.toNat_ofNat] at hvalue
    refine .inl ⟨?_, by omega, hfits⟩
    unfold readCsid wireCsid at hcsid
    split_ifs at hcsid <;> omega

theorem chunks_round_trip_sample : RoundTrips 128 ⟨3, 1000, 9, 1, [1, 2, 3]⟩ :=
  ((chunks_round_trip 128 (by decide) (by decide)).1 _ ⟨by decide, by decide, by decide, by decide⟩).1
    ⟨by decide, by decide, by decide⟩

theorem number_lost : ¬∀ (chunkSize : Nat) (m : RtmpMessage), 0 < chunkSize → chunkSize < 2 ^ 32 → Sendable m →
    RoundTrips chunkSize m := by
  intro h
  have hback := (h 128 ⟨64, 1000, 9, 1, [1]⟩ (by decide) (by decide) ⟨by decide, by decide, by decide, by decide⟩
    [(writeDataByChunkStream ⟨64, 1000, 9, 1, [1]⟩ 128).flatten] (by simp)).1
  revert hback
  decide

end MoqLiveCast
