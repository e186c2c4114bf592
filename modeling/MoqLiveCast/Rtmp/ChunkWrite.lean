import Mathlib.Data.List.Nodup
import MoqLiveCast.Rtmp.ChunkMessages
/-!
# ChunkWrite — `WriteDataByChunkStream` is a peer that sends in chunks

The chunks of a message are those of a compliant peer, for the message as its header has it (`writtenAs`): the number of
a stream loses what its bytes do not hold, and the time all but three bytes.
-/
namespace MoqLiveCast

open List

/-- How this program writes: a stream id in the order of all other numbers, and one chunk size. -/
def writerRules : ChunkRules := ⟨fun id => beBytes 4 id.toNat, fun n _ => n⟩

def sessionReader (chunkSize : Nat) : RtmpHandler Unit := { size := fun _ => chunkSize, handle := fun _ _ => some () }

def freshInput : RtmpInput Unit := { reader := {}, state := () }

def wireCsid (csid : Nat) : Nat :=
  if csid < 64 then csid else if csid < 320 then 64 + csid % 256 else 64 + csid / 256 + 256 * (csid % 256)

def writtenAs (m : RtmpMessage) : RtmpMessage :=
  { m with csid := wireCsid m.csid, timestamp := BitVec.ofNat 32 (m.timestamp.toNat % 2 ^ 24) }

/-- **Written as a peer would**: the stream's number has two bytes, the time left is not the mark, and the chunks are as many as
are needed. -/
structure Writable (chunkSize : Nat) (m : RtmpMessage) : Prop where
  lo : 2 ≤ m.csid
  hi : m.csid < 65536
  time : m.timestamp.toNat % 2 ^ 24 ≠ 0xffffff
  some : 0 < m.payload.length
  len : m.payload.length < 2 ^ 24
  fits : chunkSize + m.payload.length < 2 ^ 32

theorem int_of_len {len : Nat} (h : len < 2 ^ 24) : len < 2 ^ 31 := Nat.lt_trans h (by decide)

/-! ## The number of chunks -/

def chunkCount (len chunkSize : Nat) : Nat := len / chunkSize + if 0 < len % chunkSize then 1 else 0

theorem lt_chunkCount {len chunkSize i : Nat} (hsize : 0 < chunkSize) : i < chunkCount len chunkSize ↔ i * chunkSize < len := by
  unfold chunkCount
  have hdiv := Nat.div_add_mod len chunkSize
  have hmod := Nat.mod_lt len hsize
  constructor
  · intro hi
    split at hi
    · rename_i hpos
      have hle : i * chunkSize ≤ len / chunkSize * chunkSize := Nat.mul_le_mul_right _ (by omega)
      rw [Nat.mul_comm chunkSize] at hdiv
      omega
    · have hle : (i + 1) * chunkSize ≤ len / chunkSize * chunkSize := Nat.mul_le_mul_right _ (by omega)
      rw [Nat.mul_comm chunkSize] at hdiv
      rw [Nat.succ_mul] at hle
      omega
  · intro hi
    by_contra hnot
    have hle : (len / chunkSize + if 0 < len % chunkSize then 1 else 0) * chunkSize ≤ i * chunkSize :=
      Nat.mul_le_mul_right _ (Nat.le_of_not_lt hnot)
    rw [Nat.mul_comm chunkSize] at hdiv
    split at hle
    · rw [Nat.succ_mul] at hle
      omega
    · rw [Nat.add_zero] at hle
      omega

theorem toInt_small {n : Nat} (h : n < 2 ^ 31) : (BitVec.ofNat 32 n).toInt = n := by
  rw [BitVec.toInt_ofNat', Int.bmod_eq_of_le (by omega) (by omega)]

theorem toInt_large {n : Nat} (h : 2 ^ 31 ≤ n) (hlt : n < 2 ^ 32) : (BitVec.ofNat 32 n).toInt = -((2 ^ 32 - n : Nat) : Int) := by
  rw [BitVec.toInt_ofNat', Int.bmod_def]
  omega

theorem csCount_eq {len chunkSize : Nat} (hlen : len < 2 ^ 31) (hfits : chunkSize + len < 2 ^ 32) :
    csCount len chunkSize = chunkCount len chunkSize := by
  unfold csCount chunkCount
  rw [toInt_small hlen]
  by_cases hsmall : chunkSize < 2 ^ 31
  · rw [toInt_small hsmall, ← Int.ofNat_tdiv]
    split <;> simp
  · rw [toInt_large (by omega) (by omega), Int.tdiv_neg, ← Int.ofNat_tdiv, Nat.div_eq_of_lt (by omega), Nat.div_eq_of_lt (by omega)]
    split <;> simp

theorem csCount_none {len chunkSize : Nat} (hlen : len < 2 ^ 31) (hlarge : chunkSize < 2 ^ 32)
    (hfits : 2 ^ 32 ≤ chunkSize + len) : csCount len chunkSize ≤ 0 := by
  have hone : 1 ≤ len / (2 ^ 32 - chunkSize) := (Nat.one_le_div_iff (by omega)).2 (by omega)
  unfold csCount
  rw [toInt_small hlen, toInt_large (by omega) hlarge, Int.tdiv_neg, ← Int.ofNat_tdiv]
  split <;> omega

/-! ## A chunk -/

theorem beBytes_mod (n val : Nat) : ∀ k ≤ n, beBytes k (val % 256 ^ n) = beBytes k val
  | 0, _ => rfl
  | k + 1, hk => by
    have hbyte : BitVec.ofNat 8 (val % 256 ^ n / 256 ^ k) = BitVec.ofNat 8 (val / 256 ^ k) := by
      have hsplit : 256 ^ n = 256 ^ k * 256 ^ (n - k) := by rw [← Nat.pow_add, Nat.add_sub_cancel' (by omega)]
      have hpow : 256 ^ 1 ∣ 256 ^ (n - k) := Nat.pow_dvd_pow 256 (by omega)
      apply BitVec.eq_of_toNat_eq
      rw [BitVec.toNat_ofNat, BitVec.toNat_ofNat, hsplit, Nat.mod_mul_right_div_self]
      exact Nat.mod_mod_of_dvd _ hpow
    rw [beBytes, beBytes, hbyte, beBytes_mod n val k (by omega)]

theorem basicHeader_wire {csid : Nat} (hhi : csid < 65536) (fmt : Nat) : (if csid < 64 then beBytes 1 (fmt * 64 + csid)
      else if csid - 64 < 256 then beBytes 1 (fmt * 64) ++ beBytes 1 csid
      else beBytes 1 (fmt * 64 + 1) ++ beBytes 2 csid) = basicHeader fmt (wireCsid csid) (320 ≤ csid) := by
  unfold basicHeader wireCsid
  by_cases hsmall : csid < 64
  · simp only [if_pos hsmall]
  · simp only [if_neg hsmall]
    by_cases hmid : csid < 320
    · have hnum : ¬64 + csid % 256 < 64 := by omega
      have hnarrow : 64 + csid % 256 < 320 ∧ decide (320 ≤ csid) = false := ⟨by omega, by simpa using hmid⟩
      have hone : beBytes 1 (csid % 256) = beBytes 1 csid := beBytes_mod 1 csid 1 (Nat.le_refl 1)
      rw [if_pos (by omega), if_pos hmid, if_neg hnum, if_pos hnarrow, Nat.add_sub_cancel_left, ← hone]
    · have hnum : ¬64 + csid / 256 + 256 * (csid % 256) < 64 := by omega
      have hwide : ¬(64 + csid / 256 + 256 * (csid % 256) < 320 ∧ decide (320 ≤ csid) = false) := fun hx => by
        have hlt := hx.2
        simp only [decide_eq_false_iff_not] at hlt
        omega
      rw [if_neg (by omega), if_neg hmid, if_neg hnum, if_neg hwide]
      congr 1
      have hsub : 64 + csid / 256 + 256 * (csid % 256) - 64 = csid / 256 + 256 * (csid % 256) := by omega
      have hlow : BitVec.ofNat 8 (csid / 256 + 256 * (csid % 256)) = BitVec.ofNat 8 (csid / 256) := by
        apply BitVec.eq_of_toNat_eq
        rw [BitVec.toNat_ofNat, BitVec.toNat_ofNat]
        omega
      have hhigh : BitVec.ofNat 8 ((csid / 256 + 256 * (csid % 256)) / 256) = BitVec.ofNat 8 csid := by
        have hdiv : (csid / 256 + 256 * (csid % 256)) / 256 = csid % 256 := by omega
        apply BitVec.eq_of_toNat_eq
        rw [hdiv, BitVec.toNat_ofNat, BitVec.toNat_ofNat]
        omega
      rw [hsub]
      simp [leBytes, beBytes, hlow, hhigh]

variable {chunkSize i : Nat} {m : RtmpMessage}

theorem chunkAt_take (hsize : 0 < chunkSize) (hlen : m.payload.length < 2 ^ 31) (hfits : chunkSize + m.payload.length < 2 ^ 32)
    (hi : i * chunkSize < m.payload.length) : chunkAt m chunkSize i = genData (if i = 0 then 0 else 3)
    (m.csid % 65536) m.timestamp.toNat m.payload.length m.typeId m.streamId.toNat ((m.payload.drop (i * chunkSize)).take
    chunkSize) := by
  unfold chunkAt
  dsimp only
  rw [csCount_eq hlen hfits]
  congr 1
  split
  · rename_i hlast
    obtain ⟨hindex, hpos⟩ := hlast
    have hdiv := Nat.div_add_mod m.payload.length chunkSize
    have hmod := Nat.mod_lt m.payload.length hsize
    have hi' : i = m.payload.length / chunkSize := by
      unfold chunkCount at hindex
      rw [if_pos hpos] at hindex
      omega
    rw [Nat.mul_comm, ← hi'] at hdiv
    rw [take_of_length_le (by rw [length_drop]; omega), take_of_length_le (by rw [length_drop]; omega)]
  · rfl

theorem chunkAt_eq (hm : Writable chunkSize m) (hsize : 0 < chunkSize) (hi : i * chunkSize < m.payload.length) :
    chunkAt m chunkSize i = basicHeader (if i = 0 then 0 else 3) (writtenAs m).csid (320 ≤ m.csid) ++ ((if i =
    0 then messageHeader writerRules.ids 0 (writtenAs m).timestamp (writtenAs m) else []) ++ (m.payload.drop (i * chunkSize)).take
    chunkSize) := by
  have htime : (BitVec.ofNat 32 (m.timestamp.toNat % 2 ^ 24)).toNat = m.timestamp.toNat % 2 ^ 24 := by
    rw [BitVec.toNat_ofNat]
    omega
  have hlt := hm.time
  have hext : isExtended (BitVec.ofNat 32 (m.timestamp.toNat % 2 ^ 24)) = false := by
    unfold isExtended
    rw [htime]
    simp
    omega
  have hfield : timeField (BitVec.ofNat 32 (m.timestamp.toNat % 2 ^ 24)) = beBytes 3 m.timestamp.toNat := by
    unfold timeField
    have hmin : min (m.timestamp.toNat % 2 ^ 24) 0xffffff = m.timestamp.toNat % 256 ^ 3 := by omega
    rw [htime, hmin, beBytes_mod 3 _ 3 (Nat.le_refl 3)]
  have hheader : messageHeader writerRules.ids 0 (writtenAs m).timestamp (writtenAs m) =
      beBytes 3 m.timestamp.toNat ++ beBytes 3 m.payload.length ++ m.typeId :: beBytes 4 m.streamId.toNat := by
    unfold messageHeader extField writtenAs
    dsimp only
    rw [hfield, hext]
    simp [writerRules]
  have hnum : m.csid % 65536 = m.csid := Nat.mod_eq_of_lt hm.hi
  rw [chunkAt_take hsize (int_of_len hm.len) hm.fits hi]
  unfold genData
  rw [hnum, basicHeader_wire hm.hi, append_assoc]
  congr 1
  rw [hheader]
  by_cases hzero : i = 0 <;> simp [hzero]

/-! ## Messages in turn -/

def restOf (chunkSize : Nat) (p : RtmpMessage × Nat) : List (List Byte) :=
  (range' p.2 (chunkCount p.1.payload.length chunkSize - p.2)).map (chunkAt p.1 chunkSize)

def keyOf (p : RtmpMessage × Nat) : Nat := readCsid (wireCsid p.1.csid) % 256

def SentUpTo (chunkSize : Nat) (t : ChunkPeer Unit) (p : RtmpMessage × Nat) : Prop :=
  if p.2 = 0 then OrdMap.find t.streams (writtenAs p.1).csid = none
  else ∃ fmt, OrdMap.find t.streams (writtenAs p.1).csid =
    some ⟨writtenAs p.1, (writtenAs p.1).timestamp, p.1.payload.drop (p.2 * chunkSize), false, fmt⟩

/-- **The peer is where the writer is.** -/
structure Writing (chunkSize : Nat) (t : ChunkPeer Unit) (progress : List (RtmpMessage × Nat)) : Prop where
  size : t.size = chunkSize
  reader : t.reader = some ()
  keys : ∀ csid s, OrdMap.find t.streams csid = some s → ∃ p ∈ progress, csid = (writtenAs p.1).csid
  upTo : ∀ p ∈ progress, p.2 * chunkSize < p.1.payload.length → SentUpTo chunkSize t p
  sent : t.sent.Perm ((progress.filter fun p => p.1.payload.length ≤ p.2 * chunkSize).map fun p => writtenAs p.1)

theorem wireCsid_lo {csid : Nat} (hlo : 2 ≤ csid) : 2 ≤ wireCsid csid := by
  unfold wireCsid
  split_ifs <;> omega

theorem wireCsid_hi {csid : Nat} (hhi : csid < 65536) : wireCsid csid < 65600 := by
  unfold wireCsid
  split_ifs <;> omega

theorem restOf_cons {p : RtmpMessage × Nat} {x : List Byte} {xs : List (List Byte)} (hsize : 0 < chunkSize)
    (h : restOf chunkSize p = x :: xs) :
    p.2 * chunkSize < p.1.payload.length ∧ x = chunkAt p.1 chunkSize p.2 ∧ xs = restOf chunkSize (p.1, p.2 + 1) := by
  have hlt : p.2 < chunkCount p.1.payload.length chunkSize := by
    by_contra hnot
    unfold restOf at h
    rw [Nat.sub_eq_zero_of_le (Nat.le_of_not_lt hnot)] at h
    cases h
  have hcount : chunkCount p.1.payload.length chunkSize - p.2 = chunkCount p.1.payload.length chunkSize - (p.2 + 1) + 1 := by omega
  unfold restOf at h ⊢
  rw [hcount, range'_succ] at h
  obtain ⟨hx, hxs⟩ := List.cons_eq_cons.1 h
  exact ⟨(lt_chunkCount hsize).1 hlt, hx.symm, hxs.symm⟩

theorem restOf_nil {p : RtmpMessage × Nat} (hsize : 0 < chunkSize) (h : restOf chunkSize p = []) :
    p.1.payload.length ≤ p.2 * chunkSize := by
  have hzero : chunkCount p.1.payload.length chunkSize - p.2 = 0 := by simpa [restOf] using h
  have hnot : ¬p.2 < chunkCount p.1.payload.length chunkSize := by omega
  exact Nat.le_of_not_lt fun hlt => hnot ((lt_chunkCount hsize).2 hlt)

def nextEvent (p : RtmpMessage × Nat) : ChunkEvent :=
  if p.2 = 0 then .start 0 (320 ≤ p.1.csid) (writtenAs p.1) else .more (writtenAs p.1).csid (320 ≤ p.1.csid)

section

open ChunkPeer

variable {t : ChunkPeer Unit} {pre post : List (RtmpMessage × Nat)}

theorem writtenAs_time (hwrite : Writable chunkSize m) : isExtended (writtenAs m).timestamp = false := by
  have hne := hwrite.time
  unfold isExtended writtenAs
  dsimp only
  rw [BitVec.toNat_ofNat]
  simp only [decide_eq_false_iff_not]
  omega

theorem keyOf_ne (hkeys : ((pre ++ (m, i) :: post).map keyOf).Nodup) :
    ∀ p ∈ pre ++ post, readCsid (writtenAs p.1).csid % 256 ≠ readCsid (writtenAs m).csid % 256 := by
  intro p hp heq
  rw [map_append, map_cons, nodup_middle, ← map_append] at hkeys
  have hmem : keyOf p ∈ (pre ++ post).map keyOf := mem_map_of_mem hp
  have hkey : keyOf p = keyOf (m, i) := heq
  rw [hkey] at hmem
  exact (List.nodup_cons.1 hkeys).1 hmem

theorem mem_middle {p : RtmpMessage × Nat} (hp : p ∈ pre ++ (m, i) :: post) : p = (m, i) ∨ p ∈ pre ++ post := by
  rcases List.mem_append.1 hp with hp | hp
  · exact .inr (mem_append_left _ hp)
  · rcases List.mem_cons.1 hp with hp | hp
    · exact .inl hp
    · exact .inr (mem_append_right _ hp)

theorem Writing.sent_more (h : Writing chunkSize t (pre ++ (m, i) :: post)) (hkeys : ((pre ++ (m, i) :: post).map keyOf).Nodup)
    (hi : i * chunkSize < m.payload.length) (fmt : Nat) : Writing chunkSize (t.chunkSent writerRules (sessionReader chunkSize)
    ⟨writtenAs m, (writtenAs m).timestamp, m.payload.drop (i * chunkSize), false, fmt⟩) (pre ++ (m, i + 1) :: post) := by
  have hdrop : (m.payload.drop (i * chunkSize)).drop t.size = m.payload.drop ((i + 1) * chunkSize) := by
    rw [h.size, drop_drop, Nat.succ_mul]
  have hpart : Writing chunkSize { t with
      streams := OrdMap.put t.streams (writtenAs m).csid
        ⟨writtenAs m, (writtenAs m).timestamp, m.payload.drop ((i + 1) * chunkSize), false, fmt⟩,
      sent := if m.payload.length ≤ (i + 1) * chunkSize then t.sent ++ [writtenAs m] else t.sent } (pre ++ (m, i + 1) :: post) := by
    refine ⟨h.size, h.reader, fun csid s hs => ?_, fun p hp hlt => ?_, ?_⟩
    · rw [OrdMap.find_put] at hs
      split at hs
      · rename_i heq
        exact ⟨(m, i + 1), mem_append_right _ mem_cons_self, heq⟩
      · obtain ⟨p, hp, heq⟩ := h.keys csid s hs
        rcases mem_middle hp with rfl | hp
        · exact ⟨(m, i + 1), mem_append_right _ mem_cons_self, heq⟩
        · refine ⟨p, ?_, heq⟩
          rcases List.mem_append.1 hp with hp | hp
          · exact mem_append_left _ hp
          · exact mem_append_right _ (mem_cons_of_mem _ hp)
    · rcases mem_middle hp with rfl | hp
      · unfold SentUpTo
        rw [if_neg (Nat.succ_ne_zero i)]
        refine ⟨fmt, ?_⟩
        rw [OrdMap.find_put, if_pos rfl]
      · have hne : (writtenAs p.1).csid ≠ (writtenAs m).csid := fun heq => keyOf_ne hkeys p hp (by rw [heq])
        have hold : p ∈ pre ++ (m, i) :: post := by
          rcases List.mem_append.1 hp with hp | hp
          · exact mem_append_left _ hp
          · exact mem_append_right _ (mem_cons_of_mem _ hp)
        have hupTo := h.upTo p hold hlt
        unfold SentUpTo at hupTo ⊢
        dsimp only
        rw [OrdMap.find_put, if_neg hne]
        exact hupTo
    · have hsent := h.sent
      have hnot : ¬m.payload.length ≤ i * chunkSize := Nat.not_le_of_lt hi
      simp only [filter_append, filter_cons, map_append, decide_eq_true_eq] at hsent ⊢
      rw [if_neg hnot] at hsent
      split
      · rename_i hdone
        rw [map_cons]
        exact (perm_append_singleton _ _).trans ((hsent.cons _).trans List.perm_middle.symm)
      · exact hsent
  unfold ChunkPeer.chunkSent
  dsimp only
  rw [hdrop]
  split
  · rename_i hdone
    rw [if_pos (List.drop_eq_nil_iff.1 hdone)] at hpart
    refine ⟨hpart.size, ?_, hpart.keys, hpart.upTo, hpart.sent⟩
    unfold complete
    dsimp only
    rw [h.reader]
    rfl
  · rename_i hmore
    rw [if_neg fun hle => hmore (List.drop_eq_nil_iff.2 hle)] at hpart
    exact hpart

theorem Writing.next (hsize : 0 < chunkSize) (h : Writing chunkSize t (pre ++ (m, i) :: post)) (hwrite : Writable chunkSize m)
    (hkeys : ((pre ++ (m, i) :: post).map keyOf).Nodup) (hi : i * chunkSize < m.payload.length) : headOf (nextEvent (m, i)) ++
    t.tailOf writerRules (nextEvent (m, i)) = chunkAt m chunkSize i ∧ Compliant t (nextEvent (m, i)) ∧
    ReadOk writerRules (sessionReader chunkSize) t (nextEvent (m, i)) ∧ Writing chunkSize (t.step writerRules (sessionReader
    chunkSize) (nextEvent (m, i))) (pre ++ (m, i + 1) :: post) := by
  have hupTo := h.upTo _ (mem_append_right _ mem_cons_self) hi
  have hlo := wireCsid_lo hwrite.lo
  have hhi := wireCsid_hi hwrite.hi
  have hext := writtenAs_time hwrite
  have hpos : 0 < t.size := by
    rw [h.size]
    exact hsize
  have hmore := h.sent_more hkeys hi
  rw [chunkAt_eq hwrite hsize hi]
  unfold SentUpTo at hupTo
  unfold nextEvent
  by_cases hzero : i = 0
  · subst hzero
    rw [if_pos rfl] at hupTo
    have hbegun : t.begun 0 (writtenAs m) = ⟨writtenAs m, (writtenAs m).timestamp, m.payload.drop (0 * chunkSize), false, 0⟩ := by
      unfold begun
      rw [hupTo]
      dsimp only
      rw [hext, Nat.zero_mul, drop_zero]
      rfl
    simp only [if_pos]
    refine ⟨?_, ⟨hpos, by omega, hlo, hhi, hwrite.len, fun s hs => ?_, fun hne => absurd rfl hne⟩, fun p _ => ?_, ?_⟩
    · have hpayload : (writtenAs m).payload = m.payload := rfl
      rw [tailOf_start, hbegun, hpayload]
      simp [headOf, h.size]
    · rw [hupTo] at hs
      cases hs
    · refine ⟨h.size.symm, fun e he hne => ?_, rfl, fun hx => by cases hx⟩
      obtain ⟨s, hs⟩ := OrdMap.find_of_mem_keys he
      obtain ⟨p, hp, heq⟩ := h.keys _ _ hs
      rcases mem_middle hp with rfl | hp
      · exact absurd heq hne
      · rw [heq]
        exact keyOf_ne hkeys p hp
    · rw [step_start, hbegun]
      exact hmore 0
  · rw [if_neg hzero] at hupTo
    obtain ⟨fmt, hs⟩ := hupTo
    simp only [if_neg hzero]
    have hrest : m.payload.drop (i * chunkSize) ≠ [] := fun hnil => by
      have hle := List.drop_eq_nil_iff.1 hnil
      omega
    refine ⟨?_, ⟨hpos, hlo, hhi, _, hs, hrest⟩, fun p _ => ?_, ?_⟩
    · rw [tailOf_more hs]
      simp [headOf, extField, hext, h.size]
    · refine ⟨h.size.symm, fun s hs' => ?_⟩
      have hs' : OrdMap.find t.streams (writtenAs m).csid = some s := hs'
      rw [hs] at hs'
      cases hs'
      exact ⟨hext.symm, fun _ => rfl⟩
    · rw [step_more hs]
      exact hmore 3

theorem Writing.run (hsize : 0 < chunkSize) : ∀ (out : List (List Byte)) (progress : List (RtmpMessage × Nat)) (t : ChunkPeer Unit),
    Writing chunkSize t progress → (∀ p ∈ progress, Writable chunkSize p.1) → (progress.map keyOf).Nodup →
    Woven (progress.map (restOf chunkSize)) out →
    ∃ events, encode writerRules (sessionReader chunkSize) t events = out.flatten ∧
      StepsOk (step writerRules (sessionReader chunkSize)) Compliant t events ∧
      StepsOk (step writerRules (sessionReader chunkSize)) (ReadOk writerRules (sessionReader chunkSize)) t events ∧
      (events.foldl (step writerRules (sessionReader chunkSize)) t).reader = some () ∧
      (events.foldl (step writerRules (sessionReader chunkSize)) t).sent.Perm (progress.map fun p => writtenAs p.1) ∧
      ∀ e ∈ events, ∃ p ∈ progress, ∃ i, e = nextEvent (p.1, i)
  | out, progress, t, h, hwrite, hkeys, hwoven => by
    rcases hwoven.map_cases with ⟨rfl, hnil⟩ | ⟨pre, ⟨m, i⟩, post, x, xs, rest, rfl, hb, rfl, hrest⟩
    · refine ⟨[], rfl, trivial, trivial, h.reader, ?_, fun _ he => by cases he⟩
      have hall : progress.filter (fun p => decide (p.1.payload.length ≤ p.2 * chunkSize)) = progress :=
        List.filter_eq_self.2 fun p hp => decide_eq_true (restOf_nil hsize (hnil p hp))
      have hsent := h.sent
      rw [hall] at hsent
      exact hsent
    · obtain ⟨hi, rfl, rfl⟩ := restOf_cons hsize hb
      obtain ⟨hbytes, hcompliant, hok, hnext⟩ := h.next hsize (hwrite _ (mem_append_right _ mem_cons_self)) hkeys hi
      have hwrite' : ∀ p ∈ pre ++ (m, i + 1) :: post, Writable chunkSize p.1 := by
        intro p hp
        rcases mem_middle hp with rfl | hp
        · exact hwrite (m, i) (mem_append_right _ mem_cons_self)
        · refine hwrite p ?_
          rcases List.mem_append.1 hp with hp | hp
          · exact mem_append_left _ hp
          · exact mem_append_right _ (mem_cons_of_mem _ hp)
      have hkeys' : ((pre ++ (m, i + 1) :: post).map keyOf).Nodup := by
        rw [map_append, map_cons] at hkeys ⊢
        exact hkeys
      have hrest' : Woven ((pre ++ (m, i + 1) :: post).map (restOf chunkSize)) rest := by
        rw [map_append, map_cons]
        exact hrest
      obtain ⟨events, hbytes', hcompliant', hok', hreader, hsent, hevents⟩ :=
        Writing.run hsize rest _ _ hnext hwrite' hkeys' hrest'
      refine ⟨nextEvent (m, i) :: events, ?_, ⟨hcompliant, hcompliant'⟩, ⟨hok, hok'⟩, hreader, ?_, fun e he => ?_⟩
      · rw [encode, hbytes, hbytes', flatten_cons]
      · rw [map_append, map_cons] at hsent ⊢
        exact hsent
      · rcases List.mem_cons.1 he with rfl | he
        · exact ⟨(m, i), mem_append_right _ mem_cons_self, i, rfl⟩
        · obtain ⟨p, hp, j, rfl⟩ := hevents e he
          rcases mem_middle hp with rfl | hp
          · exact ⟨(m, i), mem_append_right _ mem_cons_self, j, rfl⟩
          · refine ⟨p, ?_, j, rfl⟩
            rcases List.mem_append.1 hp with hp | hp
            · exact mem_append_left _ hp
            · exact mem_append_right _ (mem_cons_of_mem _ hp)

/-! ## Cuts -/

theorem endsInside_short {rules : ChunkRules} {h : RtmpHandler Unit} : ∀ (events : List ChunkEvent) (t : ChunkPeer Unit) (n : Nat),
    (∀ e ∈ events, (headOf e).length ≤ 1) → endsInside rules h t events n = false
  | [], _, _, _ => rfl
  | e :: es, t, n, hshort => by
    have hhead := hshort e mem_cons_self
    rw [endsInside]
    split
    · rw [Bool.and_eq_false_iff, decide_eq_false_iff_not, decide_eq_false_iff_not]
      omega
    · exact endsInside_short es _ _ fun e' he' => hshort e' (mem_cons_of_mem _ he')

theorem endsInside_whole {rules : ChunkRules} {h : RtmpHandler Unit} : ∀ (events : List ChunkEvent) (t : ChunkPeer Unit),
    endsInside rules h t events (encode rules h t events).length = false
  | [], _ => rfl
  | e :: es, t => by
    rw [endsInside, encode, @List.length_append _ (headOf e ++ t.tailOf rules e)]
    rw [if_neg (by omega), Nat.add_sub_cancel_left]
    exact endsInside_whole es _

theorem endsInside_zero {rules : ChunkRules} {h : RtmpHandler Unit} : ∀ (events : List ChunkEvent) (t : ChunkPeer Unit),
    endsInside rules h t events 0 = false
  | [], _ => rfl
  | e :: es, t => by
    rw [endsInside]
    split
    · rfl
    · rw [Nat.zero_sub]
      exact endsInside_zero es _

end

theorem written_read (hsize : 0 < chunkSize) {ms : List RtmpMessage} {chunks pieces : List (List Byte)}
    (hwrite : ∀ m ∈ ms, Writable chunkSize m) (hkeys : (ms.map fun m => keyOf (m, 0)).Nodup)
    (hwoven : Woven (ms.map fun m => writeDataByChunkStream m chunkSize) chunks) (hbytes : pieces.flatten = chunks.flatten)
    (hcuts : pieces = [chunks.flatten] ∨ ∀ m ∈ ms, m.csid < 64) :
    (pieces.foldl (RtmpInput.onRead (sessionReader chunkSize)) freshInput).handled.Perm (ms.map fun m => asRead (writtenAs m)) ∧
      (pieces.foldl (RtmpInput.onRead (sessionReader chunkSize)) freshInput).reader.buf = [] := by
  have hwritten : ∀ m ∈ ms, writeDataByChunkStream m chunkSize = restOf chunkSize (m, 0) := by
    intro m hm
    obtain ⟨-, -, -, -, -, hfits⟩ := hwrite m hm
    unfold writeDataByChunkStream restOf
    rw [csCount_eq (int_of_len (hwrite m hm).len) hfits, Int.toNat_natCast, Nat.sub_zero, range_eq_range']
  have hstart : Writing chunkSize (ChunkPeer.fresh () chunkSize) (ms.map fun m => (m, 0)) := by
    refine ⟨rfl, rfl, fun csid s hs => ?_, fun p hp _ => ?_, ?_⟩
    · cases hs
    · obtain ⟨m, -, rfl⟩ := List.mem_map.1 hp
      unfold SentUpTo
      rw [if_pos rfl]
      rfl
    · have hnone : (ms.map fun m => (m, 0)).filter (fun p => decide (p.1.payload.length ≤ p.2 * chunkSize)) = [] := by
        refine List.filter_eq_nil_iff.2 fun p hp => ?_
        obtain ⟨m, hm, rfl⟩ := List.mem_map.1 hp
        have hpos := (hwrite m hm).some
        simp only [decide_eq_true_eq]
        omega
      rw [hnone]
      exact .nil
  have hwoven' : Woven ((ms.map fun m => (m, 0)).map (restOf chunkSize)) chunks := by
    rw [map_map]
    have hsame : ms.map (restOf chunkSize ∘ fun m => (m, 0)) = ms.map fun m => writeDataByChunkStream m chunkSize :=
      map_congr_left fun m hm => (hwritten m hm).symm
    rw [hsame]
    exact hwoven
  have hkeys' : ((ms.map fun m => (m, 0)).map keyOf).Nodup := by
    rw [map_map]
    exact hkeys
  obtain ⟨events, hencode, hcompliant, hok, hreader, hsent, hevents⟩ := hstart.run hsize chunks _ _ (fun p hp => by
      obtain ⟨m, hm, rfl⟩ := List.mem_map.1 hp
      exact hwrite m hm) hkeys' hwoven'
  have hcutsOk : CutsOk writerRules (sessionReader chunkSize) (ChunkPeer.fresh () chunkSize) events pieces := by
    intro k hk
    rcases hcuts with rfl | hsmall
    · have hk : k = 0 ∨ k = 1 := by
        simp at hk
        omega
      rcases hk with rfl | rfl
      · exact endsInside_zero events _
      · have hall := @endsInside_whole writerRules (sessionReader chunkSize) events (ChunkPeer.fresh () chunkSize)
        rw [hencode] at hall
        simpa using hall
    · refine endsInside_short events _ _ fun e he => ?_
      obtain ⟨p, hp, i, rfl⟩ := hevents e he
      obtain ⟨m, hm, rfl⟩ := List.mem_map.1 hp
      have hlt := hsmall m hm
      have hcsid : wireCsid m.csid = m.csid := if_pos hlt
      unfold nextEvent
      split <;> simp [ChunkPeer.headOf, basicHeader, writtenAs, hcsid, hlt]
  rcases ChunkPeer.handled_sent writerRules (sessionReader chunkSize) () chunkSize events pieces hcompliant hok hcutsOk
    (hbytes.trans hencode.symm) with htracks | hrefused
  · refine ⟨?_, htracks.buf⟩
    have hhandled := htracks.handled
    rw [map_map] at hsent
    have hperm := hsent.map asRead
    rw [map_map, ← hhandled] at hperm
    exact hperm
  · exact absurd (hreader.symm.trans hrefused.reader) (by simp)

/-! ## What a session reads of a compliant peer -/

open ChunkPeer

section

variable {σ : Type} (h : RtmpHandler σ) (p : σ)

def newInput : RtmpInput σ := { reader := {}, state := p }

def newPeer : ChunkPeer σ := fresh p 128

/-- **What is handled is what was sent**: all of it, with no byte left, or up to the message that the session refuses. -/
def ReadAsSent (events : List ChunkEvent) (pieces : List (List Byte)) : Prop :=
  let w := pieces.foldl (RtmpInput.onRead h) (newInput p)
  let t := events.foldl (ChunkPeer.step rtmpRules h) (newPeer p)
  w.handled.map (·.body) <+: t.sent.map (·.body) ∧
    (w.closed = false → w.handled.map (·.body) = t.sent.map (·.body) ∧ w.reader.buf = [])

end

theorem body_asRead (ms : List RtmpMessage) : (ms.map asRead).map (·.body) = ms.map (·.body) := by
  rw [map_map]
  rfl

/-- **A compliant peer's messages are read**, in whatever pieces they come, if each chunk and each cut meet the conditions. -/
theorem messages_read {σ : Type} (h : RtmpHandler σ) (p : σ) (events : List ChunkEvent) (pieces : List (List Byte))
    (hcompliant : StepsOk (ChunkPeer.step rtmpRules h) Compliant (newPeer p) events) (hbytes : pieces.flatten =
    encode rtmpRules h (newPeer p) events) (hok : StepsOk (ChunkPeer.step rtmpRules h) (ReadOk rtmpRules h) (newPeer p) events)
    (hcuts : CutsOk rtmpRules h (newPeer p) events pieces) : ReadAsSent h p events pieces := by
  rcases handled_sent rtmpRules h p 128 events pieces hcompliant hok hcuts hbytes with hw | hw
  · have hall : (pieces.foldl (RtmpInput.onRead h) (newInput p)).handled.map (·.body) =
        (events.foldl (ChunkPeer.step rtmpRules h) (newPeer p)).sent.map (·.body) := by
      rw [← body_asRead (events.foldl (ChunkPeer.step rtmpRules h) (newPeer p)).sent]
      exact congrArg (List.map (·.body)) hw.handled
    exact ⟨hall ▸ prefix_refl _, fun _ => ⟨hall, hw.buf⟩⟩
  · refine ⟨?_, fun hopen => ?_⟩
    · rw [← body_asRead (events.foldl (ChunkPeer.step rtmpRules h) (newPeer p)).sent]
      exact hw.handled.map _
    · have hclosed : (pieces.foldl (RtmpInput.onRead h) (newInput p)).closed = true := hw.closed
      rw [hopen] at hclosed
      cases hclosed

/-! ## A cut -/

def rtmpAckSample : ChunkEvent := .start 0 false ⟨64, 0, 3, 0, [0, 0, 0, 9]⟩

theorem ackSample_compliant : StepsOk (ChunkPeer.step rtmpRules (sessionReader 128)) Compliant (newPeer ()) [rtmpAckSample] := by
  refine ⟨⟨by decide, by decide, by decide, by decide, by decide, ?_, fun hne => absurd rfl hne⟩, trivial⟩
  intro s hs
  cases hs

/-- **A basic header that is cut** loses its first byte. -/
theorem header_cut : ¬ ∀ (events : List ChunkEvent) (pieces : List (List Byte)), StepsOk (ChunkPeer.step rtmpRules (sessionReader
    128)) Compliant (newPeer ()) events → pieces.flatten = encode rtmpRules (sessionReader 128) (newPeer ()) events →
    ReadAsSent (sessionReader 128) () events pieces := by
  intro hall
  obtain ⟨-, hread⟩ := hall [rtmpAckSample] [[0x00], [0, 0, 0, 0, 0, 0, 4, 3, 0, 0, 0, 0, 0, 0, 0, 9]] ackSample_compliant (by decide)
  have hlost := (hread (by decide)).1
  revert hlost
  decide

/-- The same one in two pieces that leave its basic header whole. -/
theorem messages_read_sample :
    ReadAsSent (sessionReader 128) () [rtmpAckSample] [[0, 0, 0, 0], [0, 0, 0, 4, 3, 0, 0, 0, 0, 0, 0, 0, 9]] := by
  refine messages_read (sessionReader 128) () _ _ ackSample_compliant (by decide) ?_ ?_
  · refine ⟨fun _ _ => ⟨rfl, ?_, rfl, fun hthree => absurd hthree (by decide)⟩, trivial⟩
    intro e he
    cases he
  · unfold CutsOk
    decide

end MoqLiveCast
