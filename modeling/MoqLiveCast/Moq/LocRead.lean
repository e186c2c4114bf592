import MoqLiveCast.Moq.LocWire
import MoqLiveCast.Moq.PushFeed
/-!
# LocRead — the server reads LOC objects (`ParseSubgroupHeader`, `ParseObject`)

A block of properties is read one by one to its end, an object whole or not at all.
-/
namespace MoqLiveCast

open List

open Scanner

section Turns

variable {pend turns : Nat} {prev : BitVec 64} {o : LocProps} {b : List Byte} {c : Cursor}

theorem parseProps_done (h : pend ≤ c.off) : parseProps pend (turns + 1) prev o b c = .ok o c := by
  rw [parseProps, bind_ok (pos_apply b c), if_neg (Nat.not_lt.2 h)]
  rfl

theorem parseProps_even {dlt val : BitVec 64} {c1 c2 : Cursor} (hlt : c.off < pend) (h1 : (moqReadVi64 : PushScan (BitVec 64)) b c
    = .ok dlt c1) (heven : prev + dlt &&& 1 = 0) (h2 : (moqReadVi64 : PushScan (BitVec 64)) b c1 = .ok val c2) :
    parseProps pend (turns + 1) prev o b c = parseProps pend turns (prev + dlt) (o.number (prev + dlt) val) b c2 := by
  rw [parseProps, bind_ok (pos_apply b c), if_pos hlt, bind_ok h1]
  simp only [heven, if_true]
  rw [bind_ok h2]

theorem parseProps_odd {dlt vlen : BitVec 64} {v : Nat} {mark : Byte} {c1 c2 c3 c4 : Cursor} (hlt : c.off < pend)
    (h1 : (moqReadVi64 : PushScan (BitVec 64)) b c = .ok dlt c1) (hodd : prev + dlt &&& 1 ≠ 0) (h2 : (moqReadVi64 :
    PushScan (BitVec 64)) b c1 = .ok vlen c2) (h3 : readBytes vlen b c2 = .ok v c3) (h4 : frameMark (prev + dlt) vlen v b c3 =
    .ok mark c4) : parseProps pend (turns + 1) prev o b c = parseProps pend turns (prev + dlt) (o.bytes (prev + dlt) v vlen.toNat
    mark) b c4 := by
  rw [parseProps, bind_ok (pos_apply b c), if_pos hlt, bind_ok h1]
  simp only [if_neg hodd]
  rw [bind_ok h2, bind_ok h3, bind_ok h4]

end Turns

theorem add_sub_type (prev type : BitVec 64) : prev + (type - prev) = type := by
  rw [BitVec.add_comm, BitVec.sub_add_cancel]

/-! ## The properties of a block, one by one -/

/-- What a turn of the loop reads: a number, or where bytes are and how many. -/
inductive PropRead where
  | number (type val : BitVec 64)
  | bytes (type : BitVec 64) (v : Nat) (vlen : BitVec 64)

/-- **Behind the type `prev` the turns read `rs` to the end of the block**, whoever keeps what they read. -/
inductive ReadsProps (ε : Type) (pend : Nat) (b : List Byte) : BitVec 64 → Cursor → List PropRead → Cursor → Prop
  | done {prev : BitVec 64} {c : Cursor} (h : pend ≤ c.off) : ReadsProps ε pend b prev c [] c
  | number {prev dlt val : BitVec 64} {c c1 c2 c' : Cursor} {rs : List PropRead} (hlt : c.off < pend)
      (h1 : (moqReadVi64 : Scanner Byte ε (BitVec 64)) b c = .ok dlt c1) (heven : prev + dlt &&& 1 = 0)
      (h2 : (moqReadVi64 : Scanner Byte ε (BitVec 64)) b c1 = .ok val c2)
      (hrest : ReadsProps ε pend b (prev + dlt) c2 rs c') :
      ReadsProps ε pend b prev c (.number (prev + dlt) val :: rs) c'
  | bytes {prev dlt vlen : BitVec 64} {c c1 c2 c3 c' : Cursor} {v : Nat} {rs : List PropRead} (hlt : c.off < pend)
      (h1 : (moqReadVi64 : Scanner Byte ε (BitVec 64)) b c = .ok dlt c1) (hodd : prev + dlt &&& 1 ≠ 0)
      (h2 : (moqReadVi64 : Scanner Byte ε (BitVec 64)) b c1 = .ok vlen c2)
      (h3 : (Scanner.take vlen.toNat : Scanner Byte ε Nat) b c2 = .ok v c3)
      (hrest : ReadsProps ε pend b (prev + dlt) c3 rs c') :
      ReadsProps ε pend b prev c (.bytes (prev + dlt) v vlen :: rs) c'

def LocItem.ReadAs (b : List Byte) (it : LocItem) : PropRead → Prop
  | .number type val => it.isOdd = false ∧ type = it.type ∧ val = it.num
  | .bytes type v vlen => it.isOdd = true ∧ type = it.type ∧ vlen = sizeOf64 it.raw ∧ it.raw.length < wordSize ∧
      v + it.raw.length ≤ b.length ∧ (b.drop v).take it.raw.length = it.raw

theorem readsProps_whole (ε : Type) : ∀ (items : List LocItem) (prev : BitVec 64) (pre rest : List Byte)
    (tests : List (Nat × Nat)), (∀ it ∈ items, it.Valid) → (pre ++ propBytes prev items).length < wordSize →
      ∃ rs tests', ReadsProps ε (pre ++ propBytes prev items).length (pre ++ (propBytes prev items ++ rest)) prev
          ⟨pre.length, tests⟩ rs ⟨(pre ++ propBytes prev items).length, tests'⟩ ∧
        Forall₂ (LocItem.ReadAs (pre ++ (propBytes prev items ++ rest))) items rs
  | [], prev, pre, rest, tests, _, _ => by
    refine ⟨[], tests, ?_, .nil⟩
    simp only [propBytes, append_nil]
    exact .done (Nat.le_refl _)
  | it :: its, prev, pre, rest, tests, hvalid, hlen => by
    have hit := hvalid it mem_cons_self
    have hpos := kvpBytes_length_pos hit prev
    have hlt : pre.length < (pre ++ propBytes prev (it :: its)).length := by
      simp only [propBytes, length_append]
      omega
    have htype := add_sub_type prev it.type
    have hrest : ∀ (off : Nat) (tests1 : List (Nat × Nat)), off = (pre ++ kvpBytes prev it).length →
        ∃ rs tests', ReadsProps ε (pre ++ propBytes prev (it :: its)).length (pre ++ (propBytes prev (it :: its) ++ rest))
            (prev + (it.type - prev)) ⟨off, tests1⟩ rs ⟨(pre ++ propBytes prev (it :: its)).length, tests'⟩ ∧
          Forall₂ (LocItem.ReadAs (pre ++ (propBytes prev (it :: its) ++ rest))) its rs := by
      rintro off tests1 rfl
      rw [htype]
      have ih := readsProps_whole ε its it.type (pre ++ kvpBytes prev it) rest tests1
        (fun it' h' => hvalid it' (mem_cons_of_mem _ h'))
      simp only [propBytes, append_assoc] at ih hlen ⊢
      exact ih hlen
    simp only [propBytes, length_append] at hlen
    cases ho : it.isOdd with
    | false =>
      have hk := kvpBytes_even hit ho prev
      have heven : prev + (it.type - prev) &&& 1 = 0 := by
        rw [htype]
        by_contra hne
        rw [hit.2 hne] at ho
        cases ho
      rw [hk, length_append] at hlen
      have h1 := vi64_whole (ε := ε) (it.type - prev) pre (vi64Bytes it.num ++ (propBytes it.type its ++ rest))
        tests (by rw [length_append]; omega)
      have h2 := vi64_whole (ε := ε) it.num (pre ++ vi64Bytes (it.type - prev)) (propBytes it.type its ++ rest)
        tests (by simp only [length_append]; omega)
      have hb : pre ++ (propBytes prev (it :: its) ++ rest) =
          pre ++ (vi64Bytes (it.type - prev) ++ (vi64Bytes it.num ++ (propBytes it.type its ++ rest))) := by
        simp only [propBytes, hk, append_assoc]
      rw [append_assoc, ← hb] at h2
      rw [← hb] at h1
      obtain ⟨rs, t3, hreads, hshow⟩ := hrest (pre ++ vi64Bytes (it.type - prev) ++ vi64Bytes it.num).length tests
        (by rw [hk, append_assoc])
      exact ⟨_, t3, .number hlt h1 heven h2 hreads, .cons ⟨ho, htype, rfl⟩ hshow⟩
    | true =>
      have hk := kvpBytes_odd hit ho prev
      have hodd : prev + (it.type - prev) &&& 1 ≠ 0 := by
        rw [htype]
        exact hit.1 ho
      rw [hk, length_append, length_append] at hlen
      have hraw : it.raw.length < wordSize := by omega
      have h1 := vi64_whole (ε := ε) (it.type - prev) pre
        (vi64Bytes (sizeOf64 it.raw) ++ (it.raw ++ (propBytes it.type its ++ rest))) tests
        (by rw [length_append]; omega)
      have h2 := vi64_whole (ε := ε) (sizeOf64 it.raw) (pre ++ vi64Bytes (it.type - prev))
        (it.raw ++ (propBytes it.type its ++ rest)) tests (by simp only [length_append]; omega)
      have h3 := take_whole (ε := ε) (pre ++ vi64Bytes (it.type - prev) ++ vi64Bytes (sizeOf64 it.raw)) it.raw
        (propBytes it.type its ++ rest) tests (by simp only [length_append]; omega)
      have hb : pre ++ (propBytes prev (it :: its) ++ rest) = pre ++ (vi64Bytes (it.type - prev) ++
          (vi64Bytes (sizeOf64 it.raw) ++ (it.raw ++ (propBytes it.type its ++ rest)))) := by
        simp only [propBytes, hk, append_assoc]
      have hb3 : pre ++ (propBytes prev (it :: its) ++ rest) = pre ++ vi64Bytes (it.type - prev) ++
          vi64Bytes (sizeOf64 it.raw) ++ (it.raw ++ (propBytes it.type its ++ rest)) := by
        rw [hb]
        simp only [append_assoc]
      rw [← hb] at h1
      rw [append_assoc, ← hb] at h2
      rw [← hb3, ← sizeOf64_toNat hraw] at h3
      obtain ⟨rs, t3, hreads, hshow⟩ := hrest (pre ++ vi64Bytes (it.type - prev) ++ vi64Bytes (sizeOf64 it.raw) ++
        it.raw).length (tests ++ [((pre ++ vi64Bytes (it.type - prev) ++ vi64Bytes (sizeOf64 it.raw)).length,
          (sizeOf64 it.raw).toNat)]) (by simp only [hk, append_assoc])
      refine ⟨_, t3, .bytes hlt h1 hodd h2 h3 hreads, .cons ⟨ho, htype, rfl, hraw, ?_, ?_⟩ hshow⟩
      · rw [hb3]
        simp only [length_append]
        omega
      · rw [hb3, drop_left, take_left]

section FrameMark

variable {b : List Byte} {it : LocItem} {v : Nat}

theorem sizeOf64_eq_zero {xs : List Byte} (h : xs.length < wordSize) : sizeOf64 xs = 0 ↔ xs = [] := by
  rw [← length_eq_zero_iff, ← sizeOf64_toNat h, ← BitVec.toNat_inj]
  rfl

theorem span_head {ε : Type} (why : ε) (hfits : v + it.raw.length ≤ b.length)
    (hbytes : (b.drop v).take it.raw.length = it.raw) (hne : it.raw ≠ []) (c : Cursor) :
    ∃ bytes, (span why v 1 : Scanner Byte ε (List Byte)) b c = .ok bytes c ∧ bytes.headD 0 = it.raw.headD 0 := by
  have hpos := List.length_pos_iff.2 hne
  refine ⟨_, span_ok (by omega) c, ?_⟩
  rw [← hbytes]
  cases b.drop v with
  | nil => simp
  | cons x xs => simp [take_cons hpos]

theorem frameMark_eq (hraw : it.raw.length < wordSize) (hfits : v + it.raw.length ≤ b.length)
    (hbytes : (b.drop v).take it.raw.length = it.raw) (c : Cursor) :
    frameMark it.type (sizeOf64 it.raw) v b c = .ok (if it.type = kLocFrameMark ∧ it.raw ≠ [] then it.raw.headD 0 else 0) c := by
  unfold frameMark
  simp only [ne_eq, sizeOf64_eq_zero hraw]
  split
  · rename_i hm
    obtain ⟨bytes, hs, hhead⟩ := span_head PushStop.overread hfits hbytes hm.2 c
    unfold firstOf bytesOf
    rw [bind_ok hs, hhead]
    rfl
  · rfl

end FrameMark

theorem ReadsProps.parseProps {pend : Nat} {b : List Byte} {prev : BitVec 64} {c c' : Cursor} {rs : List PropRead}
    (h : ReadsProps PushStop pend b prev c rs c') : ∀ {items : List LocItem} {turns : Nat} {o : LocProps} {v : PropView},
    Forall₂ (LocItem.ReadAs b) items rs → items.length < turns → Views b o v → ∃ o', MoqLiveCast.parseProps pend turns prev o b c
    = .ok o' c' ∧ Views b o' (items.foldl PropView.absorb v) := by
  induction h with
  | done hle =>
    intro items turns o v hall hturns hv
    cases hall
    obtain ⟨t, rfl⟩ : ∃ t, turns = t + 1 := ⟨turns - 1, by simp at hturns; omega⟩
    exact ⟨o, parseProps_done hle, hv⟩
  | number hlt h1 heven h2 _ ih =>
    intro items turns o v hall hturns hv
    cases hall with
    | @cons it _ its _ hit hrest =>
      obtain ⟨t, rfl⟩ : ∃ t, turns = t + 1 := ⟨turns - 1, by simp at hturns; omega⟩
      obtain ⟨ho, htype, rfl⟩ := hit
      rw [parseProps_even hlt h1 heven h2, htype]
      rw [htype] at ih
      have := ih hrest (by simp at hturns; omega) (hv.number ho)
      exact this
  | bytes hlt h1 hodd h2 h3 _ ih =>
    intro items turns o v hall hturns hv
    cases hall with
    | @cons it _ its _ hit hrest =>
      obtain ⟨t, rfl⟩ : ∃ t, turns = t + 1 := ⟨turns - 1, by simp at hturns; omega⟩
      obtain ⟨ho, htype, rfl, hraw, hfits, hbytes⟩ := hit
      have h4 := fun c => frameMark_eq hraw hfits hbytes c
      rw [← htype] at h4
      rw [parseProps_odd hlt h1 hodd h2 h3 (h4 _), htype, sizeOf64_toNat hraw]
      rw [htype] at ih
      have := ih hrest (by simp at hturns; omega) (hv.bytes ho hfits hbytes)
      exact this

/-! ## A block, an object -/

def blockBytes (items : List LocItem) : List Byte := vi64Bytes (sizeOf64 (propBytes 0 items)) ++ propBytes 0 items

theorem parsePropBlock_whole (items : List LocItem) (hvalid : ∀ it ∈ items, it.Valid) (pre rest : List Byte)
    (tests : List (Nat × Nat)) (hlen : (pre ++ blockBytes items).length < wordSize) : ∃ o tests', parsePropBlock (pre ++
    (blockBytes items ++ rest)) ⟨pre.length, tests⟩ = .ok o ⟨(pre ++ blockBytes items).length, tests'⟩ ∧ Views (pre ++
    (blockBytes items ++ rest)) o (items.foldl PropView.absorb {}) := by
  have hbody : (propBytes 0 items).length < wordSize := by
    simp only [blockBytes, length_append] at hlen
    omega
  have hb : pre ++ (blockBytes items ++ rest) =
      pre ++ (vi64Bytes (sizeOf64 (propBytes 0 items)) ++ (propBytes 0 items ++ rest)) := by
    simp only [blockBytes, append_assoc]
  have hp : pre ++ blockBytes items = pre ++ vi64Bytes (sizeOf64 (propBytes 0 items)) ++ propBytes 0 items := by
    simp only [blockBytes, append_assoc]
  rw [hp] at hlen ⊢
  rw [hb]
  have h1 := vi64_whole (ε := PushStop) (sizeOf64 (propBytes 0 items)) pre (propBytes 0 items ++ rest) tests
    (by rw [length_append] at hlen; omega)
  have h2 := blockEnd_whole (ε := PushStop) (pre ++ vi64Bytes (sizeOf64 (propBytes 0 items))) (propBytes 0 items) rest tests hlen
  have hturns : items.length < propTurns (pre ++ vi64Bytes (sizeOf64 (propBytes 0 items)) ++ propBytes 0 items).length := by
    have := length_le_propBytes items 0 hvalid
    unfold propTurns wordSize
    rw [length_append]
    omega
  obtain ⟨rs, t3, hreads, hall⟩ := readsProps_whole PushStop items 0 (pre ++ vi64Bytes (sizeOf64 (propBytes 0 items))) rest _
    hvalid hlen
  obtain ⟨o, h3, hview⟩ := hreads.parseProps hall hturns (views_start _)
  refine ⟨o, t3, ?_, by rwa [append_assoc] at hview⟩
  rw [append_assoc pre _ (propBytes 0 items ++ rest)] at h2 h3
  rw [parsePropBlock, bind_ok h1, sizeOf64_toNat hbody, bind_ok h2, bind_ok h3, bind_ok (pos_apply _ _), if_neg (Nat.lt_irrefl _)]
  rfl

theorem scans_parsePropBlock (items : List LocItem) (hvalid : ∀ it ∈ items, it.Valid) :
    Scans parsePropBlock (fun _ => True) (blockBytes items) where
  whole pre rest tests hlen := by
    obtain ⟨o, t, h, -⟩ := parsePropBlock_whole items hvalid pre rest tests hlen
    exact ⟨o, t, h, trivial⟩
  part := by
    intro pre ys zs tests hlen heq hne
    have hbody : (propBytes 0 items).length < wordSize := by
      simp only [blockBytes, length_append] at hlen
      omega
    refine Waits.bind (scans_vi64 (sizeOf64 (propBytes 0 items))) (fun n hn => ?_) pre ys zs tests hlen heq hne
    rw [hn, sizeOf64_toNat hbody]
    exact (waits_blockEnd _).bind_left

def objectBytes (delta : BitVec 64) (items : List LocItem) (payload : List Byte) : List Byte :=
  vi64Bytes delta ++ (blockBytes items ++ (vi64Bytes (sizeOf64 payload) ++ payload))

def PropView.object (v : PropView) (payload : List Byte) : LocObject := ⟨v.tsMs, v.ctsMs, v.key, v.cfg, payload⟩

theorem copyConfig_whole {b : List Byte} {o : LocProps} {v : PropView} (hv : Views b o v) (c : Cursor)
    (h : v.cfg.length ≤ maxSize) : copyConfig o b c = .ok v.cfg c := by
  have hfits := hv.fits
  have hcfg := hv.cfg
  have hlen : v.cfg.length = o.cfgLen := by
    rw [← hcfg, length_take, length_drop]
    omega
  unfold copyConfig
  split
  · rename_i hzero
    rw [hzero, take_zero] at hcfg
    rw [← hcfg]
    rfl
  · unfold copyBytes
    rw [if_neg (by omega), bytesOf, span_ok (by omega), hcfg]

def payloadAt (delta : BitVec 64) (items : List LocItem) (payload : List Byte) : Nat :=
  (vi64Bytes delta ++ blockBytes items ++ vi64Bytes (sizeOf64 payload)).length

/-- What any reader comes to in an object's bytes, its properties aside. -/
structure ObjectReads (ε : Type) (delta : BitVec 64) (items : List LocItem) (payload b : List Byte) : Prop where
  head : (moqReadVi64 : Scanner Byte ε (BitVec 64)) b ⟨0, []⟩ = .ok delta ⟨(vi64Bytes delta).length, []⟩
  size : ∀ tests, (moqReadVi64 : Scanner Byte ε (BitVec 64)) b ⟨(vi64Bytes delta ++ blockBytes items).length, tests⟩ =
    .ok (sizeOf64 payload) ⟨payloadAt delta items payload, tests⟩
  room : ∀ tests, (Scanner.take payload.length : Scanner Byte ε Nat) b ⟨payloadAt delta items payload, tests⟩ =
    .ok (payloadAt delta items payload) ⟨(objectBytes delta items payload).length,
      tests ++ [(payloadAt delta items payload, payload.length)]⟩
  fits : payloadAt delta items payload + payload.length ≤ b.length
  bytes : (b.drop (payloadAt delta items payload)).take payload.length = payload

theorem objectBytes_append (delta : BitVec 64) (items : List LocItem) (payload rest : List Byte) : objectBytes delta items payload
    ++ rest = vi64Bytes delta ++ (blockBytes items ++ (vi64Bytes (sizeOf64 payload) ++ (payload ++ rest))) := by
  simp only [objectBytes, append_assoc]

theorem objectReads (ε : Type) (delta : BitVec 64) (items : List LocItem) (payload rest : List Byte)
    (hlen : (objectBytes delta items payload).length < wordSize) :
    ObjectReads ε delta items payload (objectBytes delta items payload ++ rest) := by
  have hlens := hlen
  simp only [objectBytes, length_append] at hlens
  have hfront : objectBytes delta items payload ++ rest =
      vi64Bytes delta ++ blockBytes items ++ vi64Bytes (sizeOf64 payload) ++ (payload ++ rest) := by
    simp only [objectBytes, append_assoc]
  have hall : (objectBytes delta items payload).length =
      (vi64Bytes delta ++ blockBytes items ++ vi64Bytes (sizeOf64 payload) ++ payload).length := by
    simp only [objectBytes, append_assoc]
  refine ⟨?_, fun tests => ?_, fun tests => ?_, ?_, ?_⟩
  · have h := vi64_whole (ε := ε) delta [] (blockBytes items ++ (vi64Bytes (sizeOf64 payload) ++ (payload ++ rest))) []
      (by simp only [nil_append]; omega)
    rw [objectBytes_append]
    simpa only [nil_append, length_nil] using h
  · have h := vi64_whole (ε := ε) (sizeOf64 payload) (vi64Bytes delta ++ blockBytes items) (payload ++ rest) tests
      (by simp only [length_append]; omega)
    rwa [← append_assoc, ← hfront] at h
  · have h := take_whole (ε := ε) (vi64Bytes delta ++ blockBytes items ++ vi64Bytes (sizeOf64 payload)) payload rest tests
      (by simp only [length_append]; omega)
    rwa [← hfront, ← hall] at h
  · rw [hfront, payloadAt]
    simp only [length_append]
    omega
  · rw [hfront, payloadAt, drop_left, take_left]

theorem parseObject_whole (delta : BitVec 64) (items : List LocItem) (hvalid : ∀ it ∈ items, it.Valid) {payload : List Byte}
    (hpay : payload ≠ []) (rest : List Byte) (hlen : (objectBytes delta items payload).length ≤ maxSize)
    (hcfg : (items.foldl PropView.absorb {}).cfg.length ≤ maxSize) : ∃ tests, parseObject true (objectBytes delta items payload ++
    rest) ⟨0, []⟩ = .ok (delta, some ((items.foldl PropView.absorb {}).object payload)) ⟨(objectBytes delta items payload).length,
    tests⟩ := by
  have hmax : maxSize < wordSize := by decide
  have hlens := hlen
  simp only [objectBytes, length_append] at hlens
  have hr := objectReads PushStop delta items payload rest (by omega)
  have hpaylen : payload.length < wordSize := by omega
  obtain ⟨o, t, hprops, hview⟩ := parsePropBlock_whole items hvalid (vi64Bytes delta) (vi64Bytes (sizeOf64 payload) ++
    (payload ++ rest)) [] (by simp only [length_append]; omega)
  rw [← objectBytes_append] at hprops hview
  have hcopy : copyBytes (payloadAt delta items payload) payload.length (objectBytes delta items payload ++ rest) =
      fun c => .ok payload c := by
    funext c
    rw [copyBytes, if_neg (by omega), bytesOf, span_ok hr.fits, hr.bytes]
  refine ⟨t ++ [(payloadAt delta items payload, payload.length)], ?_⟩
  rw [parseObject, bind_ok hr.head]
  change (parsePropBlock >>= _) _ _ = _
  rw [bind_ok hprops, bind_ok (hr.size t)]
  simp only [if_neg (mt (sizeOf64_eq_zero hpaylen).1 hpay)]
  rw [readBytes, sizeOf64_toNat hpaylen, bind_ok (hr.room t), bind_ok (copyConfig_whole hview _ hcfg),
    bind_ok (congrFun hcopy _), hview.ts, hview.cts, hview.key]
  rfl

theorem waits_parseObject (delta : BitVec 64) (items : List LocItem) (hvalid : ∀ it ∈ items, it.Valid) {payload : List Byte}
    (hlen : payload.length < wordSize) (hpay : payload ≠ []) : Waits (parseObject true) (objectBytes delta items payload) := by
  apply Waits.bind (scans_vi64 delta)
  intro _ _
  apply Waits.bind (scans_parsePropBlock items hvalid)
  intro o _
  apply Waits.bind (scans_vi64 (sizeOf64 payload))
  rintro _ rfl
  rw [if_neg (mt (sizeOf64_eq_zero hlen).1 hpay), readBytes, sizeOf64_toNat hlen]
  exact (waits_take payload).bind_left

end MoqLiveCast
