import MoqLiveCast.Moq.ClientRead
/-!
# ClientAgree — C client and server on object streams

What one side writes the other delivers, however the stream is cut.  There is one exception: an object with an empty
payload ends without the status both readers go on to, so its reader takes the first byte of the next object for it.
-/
namespace MoqLiveCast

open List

open Scanner

/-! ## The client reads what the server writes -/

/-- What the client makes of properties: it keeps the two kinds of configuration apart. -/
structure ClientView where
  tsMs : BitVec 64 := 0
  ctsMs : BitVec 64 := 0
  key : Bool := false
  vcfg : List Byte := []
  acfg : List Byte := []

def ClientView.absorb (v : ClientView) (it : LocItem) : ClientView :=
  if it.isOdd then
    { v with
      key := v.key || (it.type = kLocFrameMark ∧ it.raw.headD 0 &&& 1 ≠ 0)
      vcfg := if it.type = kLocVideoConfig then it.raw else v.vcfg
      acfg := if it.type = kLocAudioConfig then it.raw else v.acfg }
  else
    { v with
      tsMs := if it.type = kLocTimestamp then it.num else v.tsMs
      ctsMs := if it.type = kLocCompositionTime then it.num else v.ctsMs }

theorem locItems_clientView (tsMs ctsMs : BitVec 64) (key : Bool) (cfg : List Byte) (videoCfg : Bool) :
    (locItems tsMs ctsMs key cfg videoCfg).foldl ClientView.absorb {} =
      ⟨tsMs, ctsMs, key, if videoCfg then cfg else [], if videoCfg then [] else cfg⟩ := by
  unfold locItems
  by_cases hcfg : cfg = [] <;> by_cases hcts : ctsMs = 0#64 <;> cases key <;> cases videoCfg <;>
    simp [hcfg, hcts, ClientView.absorb, kLocTimescale, kLocFrameMark, kLocVideoConfig, kLocCompositionTime,
      kLocAudioConfig, kLocTimestamp]

/-- In the block `p`, the client's properties are those of `v`. -/
structure ClientViews (p : List Byte) (o : SubProps) (v : ClientView) : Prop where
  ts : o.dts = v.tsMs
  cts : o.cts = v.ctsMs
  key : o.key = v.key
  vfits : o.vcfg + o.vcfgLen ≤ p.length
  vcfg : (p.drop o.vcfg).take o.vcfgLen = v.vcfg
  afits : o.acfg + o.acfgLen ≤ p.length
  acfg : (p.drop o.acfg).take o.acfgLen = v.acfg

theorem clientViews_start (p : List Byte) : ClientViews p {} {} :=
  ⟨rfl, rfl, rfl, Nat.zero_le _, rfl, Nat.zero_le _, rfl⟩

theorem ClientViews.number {p : List Byte} {o : SubProps} {v : ClientView} (h : ClientViews p o v) {it : LocItem}
    (ho : it.isOdd = false) : ClientViews p (o.number it.type it.num) (v.absorb it) := by
  unfold SubProps.number ClientView.absorb
  rw [ho]
  exact ⟨by simp only [h.ts]; rfl, by simp only [h.cts]; rfl, h.key, h.vfits, h.vcfg, h.afits, h.acfg⟩

theorem ClientViews.bytes {p : List Byte} {o : SubProps} {v : ClientView} {it : LocItem} {off : Nat} (h : ClientViews p o v)
    (ho : it.isOdd = true) (hfits : off + it.raw.length ≤ p.length) (hraw : (p.drop off).take it.raw.length = it.raw) :
    ClientViews p (o.bytes it.type off it.raw.length (if it.type = kLocFrameMark ∧ it.raw ≠ [] then it.raw.headD 0 else 0))
    (v.absorb it) := by
  unfold SubProps.bytes ClientView.absorb
  rw [ho]
  refine ⟨h.ts, h.cts, ?_, ?_, ?_, ?_, ?_⟩
  · simp only [h.key, if_true]
    by_cases hnil : it.raw = []
    · simp [hnil]
    · by_cases hmark : it.type = kLocFrameMark
      · simp [hmark, hnil]
      · simp [hmark]
  · by_cases hc : it.type = kLocVideoConfig
    · simpa [hc] using hfits
    · simpa [hc] using h.vfits
  · by_cases hc : it.type = kLocVideoConfig
    · simpa [hc] using hraw
    · simpa [hc] using h.vcfg
  · by_cases hc : it.type = kLocAudioConfig
    · simpa [hc] using hfits
    · simpa [hc] using h.afits
  · by_cases hc : it.type = kLocAudioConfig
    · simpa [hc] using hraw
    · simpa [hc] using h.acfg

section Turns

variable {len turns : Nat} {prev : BitVec 64} {o : SubProps} {p : List Byte} {c : Cursor}

theorem getVi64_of_read {b : List Byte} {c c' : Cursor} {v : BitVec 64}
    (h : (moqReadVi64 : SubScan (BitVec 64)) b c = .ok v c') : (getVi64 : SubScan (BitVec 64)) b c = .ok v c' :=
  getVi64_eq (ε := SubStop) ▸ h

theorem parseSubProps_done (h : len ≤ c.off) : parseSubProps len (turns + 1) prev o p c = .ok o c := by
  rw [parseSubProps, bind_ok (pos_apply p c), if_neg (Nat.not_lt.2 h)]
  rfl

theorem parseSubProps_even {delta v : BitVec 64} {c1 c2 : Cursor} (hlt : c.off < len) (h1 : (moqReadVi64 : SubScan (BitVec 64)) p
    c = .ok delta c1) (heven : prev + delta &&& 1 = 0) (h2 : (moqReadVi64 : SubScan (BitVec 64)) p c1 = .ok v c2) :
    parseSubProps len (turns + 1) prev o p c = parseSubProps len turns (prev + delta) (o.number (prev + delta) v) p c2 := by
  rw [parseSubProps, bind_ok (pos_apply p c), if_pos hlt, bind_ok (getVi64_of_read h1)]
  simp only [heven, if_true]
  rw [bind_ok (getVi64_of_read h2)]

theorem parseSubProps_odd {delta n : BitVec 64} {raw : Nat} {mark : Byte} {c1 c2 c3 c4 : Cursor} (hlt : c.off < len)
    (h1 : (moqReadVi64 : SubScan (BitVec 64)) p c = .ok delta c1) (hodd : prev + delta &&& 1 ≠ 0) (h2 : (moqReadVi64 :
    SubScan (BitVec 64)) p c1 = .ok n c2) (h3 : getBytes n p c2 = .ok raw c3) (h4 : subFrameMark (prev + delta) n raw p c3 =
    .ok mark c4) : parseSubProps len (turns + 1) prev o p c = parseSubProps len turns (prev + delta) (o.bytes (prev + delta) raw
    n.toNat mark) p c4 := by
  rw [parseSubProps, bind_ok (pos_apply p c), if_pos hlt, bind_ok (getVi64_of_read h1)]
  simp only [if_neg hodd]
  rw [bind_ok (getVi64_of_read h2), bind_ok h3, bind_ok h4]

end Turns

theorem subFrameMark_eq {b : List Byte} {it : LocItem} {v : Nat} (hraw : it.raw.length < wordSize) (hfits :
    v + it.raw.length ≤ b.length) (hbytes : (b.drop v).take it.raw.length = it.raw) (c : Cursor) : subFrameMark it.type
    (sizeOf64 it.raw) v b c = .ok (if it.type = kLocFrameMark ∧ it.raw ≠ [] then it.raw.headD 0 else 0) c := by
  unfold subFrameMark
  simp only [ne_eq, sizeOf64_eq_zero hraw]
  split
  · rename_i hm
    obtain ⟨bytes, hs, hhead⟩ := span_head SubStop.overread hfits hbytes hm.2 c
    unfold rawFirst
    rw [bind_ok hs, hhead]
    rfl
  · rfl

theorem ReadsProps.parseSubProps {len : Nat} {p : List Byte} {prev : BitVec 64} {c c' : Cursor} {rs : List PropRead}
    (h : ReadsProps SubStop len p prev c rs c') : ∀ {items : List LocItem} {turns : Nat} {o : SubProps} {v : ClientView},
    Forall₂ (LocItem.ReadAs p) items rs → items.length < turns → ClientViews p o v → ∃ o', MoqLiveCast.parseSubProps len turns
    prev o p c = .ok o' c' ∧ ClientViews p o' (items.foldl ClientView.absorb v) := by
  induction h with
  | done hle =>
    intro items turns o v hall hturns hv
    cases hall
    obtain ⟨t, rfl⟩ : ∃ t, turns = t + 1 := ⟨turns - 1, by simp at hturns; omega⟩
    exact ⟨o, parseSubProps_done hle, hv⟩
  | number hlt h1 heven h2 _ ih =>
    intro items turns o v hall hturns hv
    cases hall with
    | @cons it _ its _ hit hrest =>
      obtain ⟨t, rfl⟩ : ∃ t, turns = t + 1 := ⟨turns - 1, by simp at hturns; omega⟩
      obtain ⟨ho, htype, rfl⟩ := hit
      rw [parseSubProps_even hlt h1 heven h2, htype]
      rw [htype] at ih
      have := ih hrest (by simp at hturns; omega) (hv.number ho)
      exact this
  | bytes hlt h1 hodd h2 h3 _ ih =>
    intro items turns o v hall hturns hv
    cases hall with
    | @cons it _ its _ hit hrest =>
      obtain ⟨t, rfl⟩ : ∃ t, turns = t + 1 := ⟨turns - 1, by simp at hturns; omega⟩
      obtain ⟨ho, htype, rfl, hraw, hfits, hbytes⟩ := hit
      have h4 := fun c => subFrameMark_eq hraw hfits hbytes c
      rw [← htype] at h4
      rw [parseSubProps_odd hlt h1 hodd h2 h3 (h4 _), htype, sizeOf64_toNat hraw]
      rw [htype] at ih
      have := ih hrest (by simp at hturns; omega) (hv.bytes ho hfits hbytes)
      exact this

theorem take_drop_part {b p : List Byte} {block off n : Nat} (hp : (b.drop block).take p.length = p)
    (h : off + n ≤ p.length) : (b.drop (block + off)).take n = (p.drop off).take n := by
  rw [← hp, drop_take, take_take, drop_drop, Nat.min_eq_left (by omega)]

theorem scans_getVi64 (v : BitVec 64) : Scans (getVi64 : SubScan (BitVec 64)) (fun w => w = v) (vi64Bytes v) :=
  getVi64_eq (ε := SubStop) ▸ scans_vi64 v

/-- What the client makes of a block: where it is, and what is in it. -/
structure BlockRead (b : List Byte) (items : List LocItem) (r : Nat × SubProps) : Prop where
  fits : r.1 + (propBytes 0 items).length ≤ b.length
  bytes : (b.drop r.1).take (propBytes 0 items).length = propBytes 0 items
  views : ClientViews (propBytes 0 items) r.2 (items.foldl ClientView.absorb {})

theorem inBlock_whole (items : List LocItem) (hvalid : ∀ it ∈ items, it.Valid) (hbody : (propBytes 0 items).length < wordSize)
    {b : List Byte} {v : Nat} (hfits : v + (propBytes 0 items).length ≤ b.length) (hbytes : (b.drop v).take
    (propBytes 0 items).length = propBytes 0 items) (c : Cursor) : ∃ o, inBlock v (propBytes 0 items).length (parseSubProps
    (propBytes 0 items).length (propTurns (propBytes 0 items).length) 0 {}) b c = .ok o c ∧ ClientViews (propBytes 0 items) o
    (items.foldl ClientView.absorb {}) := by
  obtain ⟨rs, tests, hreads, hall⟩ := readsProps_whole SubStop items 0 [] [] [] hvalid (by rwa [nil_append])
  simp only [nil_append, append_nil, length_nil] at hreads hall
  have hturns : items.length < propTurns (propBytes 0 items).length := by
    have := length_le_propBytes items 0 hvalid
    unfold propTurns wordSize
    omega
  obtain ⟨o, ho, hviews⟩ := hreads.parseSubProps hall hturns (clientViews_start _)
  refine ⟨o, ?_, hviews⟩
  unfold inBlock
  rw [if_neg (Nat.not_lt.2 hfits), hbytes, ho]

theorem readSubProps_whole (items : List LocItem) (hvalid : ∀ it ∈ items, it.Valid) (pre rest : List Byte)
    (tests : List (Nat × Nat)) (hlen : (pre ++ blockBytes items).length < wordSize) : ∃ r tests', readSubProps true (pre ++
    (blockBytes items ++ rest)) ⟨pre.length, tests⟩ = .ok r ⟨(pre ++ blockBytes items).length, tests'⟩ ∧
    BlockRead (pre ++ (blockBytes items ++ rest)) items r := by
  have hbody : (propBytes 0 items).length < wordSize := by
    simp only [blockBytes, length_append] at hlen
    omega
  have hb : pre ++ (blockBytes items ++ rest) =
      pre ++ vi64Bytes (sizeOf64 (propBytes 0 items)) ++ (propBytes 0 items ++ rest) := by
    simp only [blockBytes, append_assoc]
  have hp : pre ++ blockBytes items = pre ++ vi64Bytes (sizeOf64 (propBytes 0 items)) ++ propBytes 0 items := by
    simp only [blockBytes, append_assoc]
  rw [hp] at hlen ⊢
  have h1 := vi64_whole (ε := SubStop) (sizeOf64 (propBytes 0 items)) pre (propBytes 0 items ++ rest) tests
    (by rw [length_append] at hlen; omega)
  have h2 := take_whole (ε := SubStop) (pre ++ vi64Bytes (sizeOf64 (propBytes 0 items))) (propBytes 0 items) rest tests hlen
  have hfits : (pre ++ vi64Bytes (sizeOf64 (propBytes 0 items))).length + (propBytes 0 items).length ≤
      (pre ++ (blockBytes items ++ rest)).length := by
    rw [hb]
    simp only [length_append]
    omega
  have hbytes : ((pre ++ (blockBytes items ++ rest)).drop (pre ++ vi64Bytes (sizeOf64 (propBytes 0 items))).length).take
      (propBytes 0 items).length = propBytes 0 items := by
    rw [hb, drop_left, take_left]
  obtain ⟨o, h3, hviews⟩ := inBlock_whole items hvalid hbody hfits hbytes
    ⟨(pre ++ vi64Bytes (sizeOf64 (propBytes 0 items)) ++ propBytes 0 items).length,
      tests ++ [((pre ++ vi64Bytes (sizeOf64 (propBytes 0 items))).length, (propBytes 0 items).length)]⟩
  rw [← append_assoc, ← hb] at h1
  rw [← hb] at h2
  refine ⟨((pre ++ vi64Bytes (sizeOf64 (propBytes 0 items))).length, o),
    tests ++ [((pre ++ vi64Bytes (sizeOf64 (propBytes 0 items))).length, (propBytes 0 items).length)], ?_,
    hfits, hbytes, hviews⟩
  change (getVi64 >>= _) _ _ = _
  rw [bind_ok (getVi64_of_read h1), getBytes, sizeOf64_toNat hbody, bind_ok h2, bind_ok h3]
  rfl

theorem scans_readSubProps (items : List LocItem) (hvalid : ∀ it ∈ items, it.Valid) :
    Scans (readSubProps true) (fun _ => True) (blockBytes items) where
  whole pre rest tests hlen := by
    obtain ⟨r, t, h, -⟩ := readSubProps_whole items hvalid pre rest tests hlen
    exact ⟨r, t, h, trivial⟩
  part := by
    intro pre ys zs tests hlen heq hne
    have hbody : (propBytes 0 items).length < wordSize := by
      simp only [blockBytes, length_append] at hlen
      omega
    refine Waits.bind (scans_getVi64 (sizeOf64 (propBytes 0 items))) (fun n hn => ?_) pre ys zs tests hlen heq hne
    rw [hn, getBytes, sizeOf64_toNat hbody]
    exact (waits_take _).bind_left

theorem waits_parseSubObject (delta : BitVec 64) (items : List LocItem) (hvalid : ∀ it ∈ items, it.Valid) {payload : List Byte}
    (hlen : payload.length < wordSize) (hpay : payload ≠ []) : Waits (parseSubObject true) (objectBytes delta items payload) := by
  apply Waits.bind (scans_getVi64 delta)
  intro _ _
  apply Waits.bind (scans_readSubProps items hvalid)
  intro (_, _) _
  apply Waits.bind (scans_getVi64 (sizeOf64 payload))
  rintro _ rfl
  rw [if_neg (mt (sizeOf64_eq_zero hlen).1 hpay), getBytes, sizeOf64_toNat hlen]
  exact (waits_take payload).bind_left

theorem parseSubObject_whole (delta : BitVec 64) (items : List LocItem) (hvalid : ∀ it ∈ items, it.Valid) {payload : List Byte}
    (hpay : payload ≠ []) (rest : List Byte) (hlen : (objectBytes delta items payload).length < wordSize) :
    ∃ r tests, parseSubObject true (objectBytes delta items payload ++ rest) ⟨0, []⟩ = .ok ⟨r.1, r.2, payloadAt delta items
    payload, payload.length⟩ ⟨(objectBytes delta items payload).length, tests⟩ ∧ BlockRead (objectBytes delta items payload ++
    rest) items r := by
  have hlens := hlen
  simp only [objectBytes, length_append] at hlens
  have hr := objectReads SubStop delta items payload rest hlen
  have hpaylen : payload.length < wordSize := by omega
  obtain ⟨r, t, hprops, hblock⟩ := readSubProps_whole items hvalid (vi64Bytes delta) (vi64Bytes (sizeOf64 payload) ++
    (payload ++ rest)) [] (by simp only [length_append]; omega)
  rw [← objectBytes_append] at hprops hblock
  refine ⟨r, t ++ [(payloadAt delta items payload, payload.length)], ?_, hblock⟩
  rw [parseSubObject, bind_ok (getVi64_of_read hr.head), bind_ok hprops]
  simp only
  rw [bind_ok (getVi64_of_read (hr.size t))]
  simp only [if_neg (mt (sizeOf64_eq_zero hpaylen).1 hpay)]
  rw [getBytes, sizeOf64_toNat hpaylen, bind_ok (hr.room t)]
  rfl

theorem copyOut_part {b p : List Byte} {block off n : Nat} (hfits : block + p.length ≤ b.length)
    (hp : (b.drop block).take p.length = p) (h : off + n ≤ p.length) (hmax : n ≤ maxSize) (c : Cursor) :
    copyOut (block + off) n b c = .ok (if n = 0 then none else some ((p.drop off).take n)) c := by
  unfold copyOut
  by_cases hn : n = 0
  · simp [hn]
    rfl
  · rw [if_neg (by omega), if_neg hn, bind_ok (span_ok (by omega) c), take_drop_part hp h]
    rfl

theorem newConfig_views {b p : List Byte} {o : SubObject} {v : ClientView} (hfits : o.block + p.length ≤ b.length)
    (hp : (b.drop o.block).take p.length = p) (h : ClientViews p o.props v) (hmax : p.length ≤ maxSize) (c : Cursor) :
    newConfig o b c = .ok (if v.vcfg ≠ [] then some v.vcfg else if v.acfg ≠ [] then some v.acfg else none) c := by
  have hvlen := congrArg List.length h.vcfg
  have halen := congrArg List.length h.acfg
  have hvfits := h.vfits
  have hafits := h.afits
  rw [length_take, length_drop, Nat.min_eq_left (by omega)] at hvlen halen
  unfold newConfig
  by_cases hlen : o.props.vcfgLen ≠ 0
  · have hv : v.vcfg ≠ [] := fun hnil => hlen (by rw [hvlen, hnil]; rfl)
    rw [if_pos hlen, copyOut_part hfits hp hvfits (by omega), h.vcfg, if_neg hlen, if_pos hv]
  · have hv : v.vcfg = [] := List.length_eq_zero_iff.1 (by omega)
    rw [if_neg hlen, copyOut_part hfits hp hafits (by omega), h.acfg, halen, if_neg (not_not.2 hv)]
    by_cases ha : v.acfg = []
    · simp [ha]
    · simp [ha]

def LocFrame.newCfg (f : LocFrame) : Option (List Byte) := if f.cfg = [] then none else some f.cfg

theorem LocFrame.readFrame (f : LocFrame) (h : f.Sendable) (hlen : f.encode.length ≤ maxSize) (rest : List Byte) :
    ∃ r tests, MoqLiveCast.readFrame true (f.encode ++ rest) ⟨0, []⟩ = .ok ⟨r, f.newCfg, f.payload⟩ ⟨f.encode.length, tests⟩ ∧
    r.dts = f.tsMs ∧ r.cts = f.ctsMs ∧ r.key = f.key := by
  have hmax : maxSize < wordSize := by decide
  have hvalid := locItems_valid f.tsMs f.ctsMs f.key f.cfg f.videoCfg
  have hfold := locItems_clientView f.tsMs f.ctsMs f.key f.cfg f.videoCfg
  rw [f.encode_eq h.1 h.2] at hlen ⊢
  generalize locItems f.tsMs f.ctsMs f.key f.cfg f.videoCfg = items at *
  have hr := objectReads SubStop f.delta items f.payload rest (by omega)
  obtain ⟨r, t, hobj, hblock⟩ := parseSubObject_whole f.delta items hvalid h.2 rest (by omega)
  have hviews := hblock.views
  have hbody : (propBytes 0 items).length ≤ maxSize := by
    simp only [objectBytes, blockBytes, length_append] at hlen
    omega
  have hcfg := fun c => newConfig_views (o := ⟨r.1, r.2, payloadAt f.delta items f.payload, f.payload.length⟩) hblock.fits
    hblock.bytes hviews hbody c
  have hnew : (if (if f.videoCfg then f.cfg else []) ≠ [] then some (if f.videoCfg then f.cfg else [])
      else if (if f.videoCfg then [] else f.cfg) ≠ [] then some (if f.videoCfg then [] else f.cfg) else none) = f.newCfg := by
    unfold LocFrame.newCfg
    by_cases hnil : f.cfg = [] <;> cases f.videoCfg <;> simp [hnil]
  simp only [hfold, hnew] at hcfg hviews
  refine ⟨r.2, t, ?_, hviews.ts, hviews.cts, hviews.key⟩
  rw [MoqLiveCast.readFrame, bind_ok hobj, bind_ok (hcfg _), bind_ok (span_ok hr.fits _), hr.bytes]
  rfl

theorem LocFrame.readFrame_part (f : LocFrame) (h : f.Sendable) (hlen : f.encode.length ≤ maxSize) (ys zs : List Byte)
    (heq : f.encode = ys ++ zs) (hne : zs ≠ []) :
    (∃ c, MoqLiveCast.readFrame true ys ⟨0, []⟩ = .short c) ∧ ∃ c, parseSubObject true ys ⟨0, []⟩ = .short c := by
  have hvalid := locItems_valid f.tsMs f.ctsMs f.key f.cfg f.videoCfg
  have hmax : maxSize < wordSize := by decide
  have hpay := f.payload_length_le h
  have hw := waits_parseSubObject f.delta _ hvalid (by omega) h.2
  rw [← f.encode_eq h.1 h.2] at hw
  obtain ⟨c, hc⟩ := hw [] ys zs [] (by rw [nil_append]; omega) heq hne
  exact ⟨⟨c, bind_short hc⟩, c, hc⟩

def SubStream.Objects (s : SubStream) (trackAlias : BitVec 64) : Prop :=
  s.headerDone = true ∧ s.hasProps = true ∧ s.trackAlias = trackAlias

/-- What the application is told of frames, from the first on; the configuration is the last one there was. -/
def framesHeard (codec : MoqtCodec) : Bool → List Byte → List LocFrame → List SubEvent
  | _, _, [] => []
  | announced, config, f :: fs =>
    let config := f.newCfg.getD config
    ((if announced then [] else [.ready codec config]) ++ [.data config f.payload f.tsMs (f.tsMs + f.ctsMs) f.key]) ++
      framesHeard codec true config fs

theorem subTurn_frame {s : SubStream} {trackAlias : BitVec 64} (hs : s.Objects trackAlias)
    (hmedia : trackAlias = kAliasVideo ∨ trackAlias = kAliasAudio) (f : LocFrame) (h : f.Sendable)
    (hlen : f.encode.length ≤ maxSize) (rest : List Byte) :
    subTurn s (f.encode ++ rest) = .take { s with announced := true, config := f.newCfg.getD s.config } f.encode.length
      ((if s.announced then [] else [.ready s.codec (f.newCfg.getD s.config)]) ++
        [.data (f.newCfg.getD s.config) f.payload f.tsMs (f.tsMs + f.ctsMs) f.key]) := by
  obtain ⟨r, t, hr, hts, hcts, hkey⟩ := f.readFrame h hlen rest
  have hpos := List.length_pos_iff.2 (f.encode_ne_nil h)
  rw [← hs.2.1] at hr
  unfold subTurn
  rw [if_neg (by simp [hs.1]), if_neg (by rw [hs.2.2]; tauto)]
  simp only [subScan, hr]
  rw [if_neg (by omega), SubStream.frameEvents, if_pos h.2, hts, hcts, hkey]
  rfl

theorem subTurn_frame_part {s : SubStream} {trackAlias : BitVec 64} (hs : s.Objects trackAlias) (f : LocFrame) (h : f.Sendable)
    (hlen : f.encode.length ≤ maxSize) (ys zs : List Byte) (heq : f.encode = ys ++ zs) (hne : zs ≠ []) :
    subTurn s ys = .wait s := by
  obtain ⟨⟨c, hc⟩, c', hc'⟩ := f.readFrame_part h hlen ys zs heq hne
  unfold subTurn
  rw [if_neg (by simp [hs.1]), hs.2.1]
  split
  · simp only [subScan, hc']
  · simp only [subScan, hc]

theorem subTurn_skip {s : SubStream} {trackAlias : BitVec 64} (hs : s.Objects trackAlias)
    (hmedia : ¬ (trackAlias = kAliasVideo ∨ trackAlias = kAliasAudio)) (f : LocFrame) (h : f.Sendable)
    (hlen : f.encode.length ≤ maxSize) (rest : List Byte) : subTurn s (f.encode ++ rest) = .take s f.encode.length [] := by
  have hmax : maxSize < wordSize := by decide
  have hpos := List.length_pos_iff.2 (f.encode_ne_nil h)
  have hvalid := locItems_valid f.tsMs f.ctsMs f.key f.cfg f.videoCfg
  rw [f.encode_eq h.1 h.2] at hlen hpos ⊢
  obtain ⟨r, t, hobj, -⟩ := parseSubObject_whole f.delta _ hvalid h.2 rest (by omega)
  unfold subTurn
  rw [if_neg (by simp [hs.1]), if_pos (by rw [hs.2.2]; tauto), hs.2.1]
  simp only [subScan, hobj]
  rw [if_neg (by omega)]

theorem spells_frames {trackAlias : BitVec 64} (hmedia : trackAlias = kAliasVideo ∨ trackAlias = kAliasAudio) :
    ∀ (frames : List LocFrame) (s : SubStream), s.Objects trackAlias → (∀ f ∈ frames, f.Sendable ∧ f.encode.length ≤ maxSize) →
      ∃ s' : SubStream, s'.Objects trackAlias ∧ Spells subTurn s (frames.flatMap LocFrame.encode)
        (framesHeard s.codec s.announced s.config frames) s'
  | [], s, hs, _ => ⟨s, hs, .nil s⟩
  | f :: fs, s, hs, h => by
    obtain ⟨hf, hlen⟩ := h f mem_cons_self
    obtain ⟨s', hs', hsp⟩ := spells_frames hmedia fs { s with announced := true, config := f.newCfg.getD s.config } hs
      (fun f' hf' => h f' (mem_cons_of_mem _ hf'))
    exact ⟨s', hs', .cons (f.encode_ne_nil hf) (subTurn_frame hs hmedia f hf hlen)
      (fun ys zs heq hne => ⟨s, subTurn_frame_part hs f hf hlen ys zs heq hne⟩) hsp⟩

theorem spells_skipped {trackAlias : BitVec 64} (hmedia : ¬ (trackAlias = kAliasVideo ∨ trackAlias = kAliasAudio))
    {s : SubStream} (hs : s.Objects trackAlias) : ∀ (frames : List LocFrame),
      (∀ f ∈ frames, f.Sendable ∧ f.encode.length ≤ maxSize) → Spells subTurn s (frames.flatMap LocFrame.encode) [] s
  | [], _ => .nil s
  | f :: fs, h => by
    obtain ⟨hf, hlen⟩ := h f mem_cons_self
    exact .cons (o := []) (f.encode_ne_nil hf) (subTurn_skip hs hmedia f hf hlen)
      (fun ys zs heq hne => ⟨s, subTurn_frame_part hs f hf hlen ys zs heq hne⟩)
      (spells_skipped hmedia hs fs fun f' hf' => h f' (mem_cons_of_mem _ hf'))

/-! ## The header -/

theorem scans_parseSubgroup (trackAlias group : BitVec 64) :
    Scans parseSubgroup (fun h => h = ⟨trackAlias, group, true⟩) (encodeSubgroup trackAlias group) := by
  rw [encodeSubgroup_eq]
  apply (scans_getVi64 0x31).bind
  rintro _ rfl
  apply (scans_getVi64 trackAlias).bind
  rintro _ rfl
  apply (scans_getVi64 group).map
  rintro _ rfl
  rfl

def subHeaderState (trackAlias group : BitVec 64) : SubStream :=
  ({} : SubStream).sawHeader ⟨trackAlias, group, true⟩

theorem subTurn_header (trackAlias group : BitVec 64) (hlen : (encodeSubgroup trackAlias group).length < wordSize)
    (rest : List Byte) : subTurn {} (encodeSubgroup trackAlias group ++ rest) = .take (subHeaderState trackAlias group)
    (encodeSubgroup trackAlias group).length [] := by
  obtain ⟨h, t, hr, rfl⟩ := (scans_parseSubgroup trackAlias group).whole [] rest [] (by rwa [nil_append])
  rw [nil_append, nil_append, length_nil] at hr
  unfold subTurn
  simp only [if_true, subScan, hr]
  rw [if_neg (by rw [encodeSubgroup_cons]; simp)]
  rfl

theorem subTurn_header_part (trackAlias group : BitVec 64) (hlen : (encodeSubgroup trackAlias group).length < wordSize)
    (ys zs : List Byte) (heq : encodeSubgroup trackAlias group = ys ++ zs) (hne : zs ≠ []) : subTurn {} ys = .wait {} := by
  obtain ⟨c, hr⟩ := (scans_parseSubgroup trackAlias group).part [] ys zs [] (by rwa [nil_append]) heq hne
  rw [nil_append, length_nil] at hr
  unfold subTurn
  simp only [if_true, subScan, hr]

def streamHeard (trackAlias : BitVec 64) (frames : List LocFrame) : List SubEvent :=
  if trackAlias = kAliasVideo ∨ trackAlias = kAliasAudio then framesHeard (codecOf trackAlias .h264) false [] frames else []

theorem spells_subStream (trackAlias group : BitVec 64) (frames : List LocFrame) (h : ∀ f ∈ frames, f.Sendable ∧
    f.encode.length ≤ maxSize) (hhdr : (encodeSubgroup trackAlias group).length < wordSize) : ∃ s' :
    SubStream, s'.Objects trackAlias ∧ Spells subTurn {} (locStream trackAlias group frames) (streamHeard trackAlias frames)
    s' := by
  have hs : (subHeaderState trackAlias group).Objects trackAlias := ⟨rfl, rfl, rfl⟩
  have hcons : ∀ {out s'}, Spells subTurn (subHeaderState trackAlias group) (frames.flatMap LocFrame.encode) out s' →
      Spells subTurn {} (locStream trackAlias group frames) out s' := fun hsp =>
    Spells.cons (o := []) (by rw [encodeSubgroup_cons]; simp) (subTurn_header trackAlias group hhdr)
      (fun ys zs heq hne => ⟨{}, subTurn_header_part trackAlias group hhdr ys zs heq hne⟩) hsp
  unfold streamHeard
  split
  · obtain ⟨s', hs', hsp⟩ := spells_frames ‹_› frames _ hs h
    exact ⟨s', hs', hcons hsp⟩
  · exact ⟨_, hs, hcons (spells_skipped ‹_› hs frames h)⟩

theorem subTurn_idle {s : SubStream} {trackAlias : BitVec 64} (hs : s.Objects trackAlias) : subTurn s [] = .wait s := by
  unfold subTurn
  rw [if_neg (by simp [hs.1]), hs.2.1]
  split
  · rfl
  · rfl

theorem client_hears (trackAlias group : BitVec 64) (frames : List LocFrame) (h : ∀ f ∈ frames, f.Sendable)
    (hlen : (locStream trackAlias group frames).length ≤ maxSize) (pieces : List (List Byte))
    (hp : pieces.flatten = locStream trackAlias group frames) :
    ∃ s, pieces.foldl subOnIncoming .init = ⟨s, [], streamHeard trackAlias frames, none⟩ := by
  have hmax : maxSize < wordSize := by decide
  obtain ⟨hhdr, heach⟩ := locStream_lengths hlen
  obtain ⟨s, hs, hsp⟩ := spells_subStream trackAlias group frames (fun f hf => ⟨h f hf, heach f hf⟩) (by omega)
  have hidle := subTurn_idle hs
  refine ⟨s, hsp.feed_pieces subTurn_steady (stalls_nil hidle) hidle ?_ rfl pieces ?_⟩
  · rw [append_nil]
    omega
  · rwa [append_nil]

/-! ## Both ways -/

/-- **Client and server agree on object streams**: what the client's calls mean is what the server delivers, as long as
none is accepted behind one with an empty payload, and what the server writes is what the client is told of. -/
theorem client_server_agree (codec : MoqtCodec) (config : List Byte) : (∀ ops : List TrackOp, (∀ op ∈ ops, op.Timed) →
    (TrackRun.init codec config).Unbroken ops → ((TrackRun.init codec config).run ops).wire.length ≤ maxSize → ∀ pieces :
    List (List Byte), pieces.flatten = ((TrackRun.init codec config).run ops).wire → ∃ ss rest, pieces.foldl onData .init =
    ⟨ss, rest, .subgroup ⟨codec.trackAlias, 0, true⟩ :: (withPayload ((TrackRun.init codec config).run ops).meant).map
    (.object codec.trackAlias), none⟩) ∧ ∀ (trackAlias group : BitVec 64) (frames : List LocFrame), (∀ f ∈ frames, f.Sendable) →
    (locStream trackAlias group frames).length ≤ maxSize → ∀ pieces : List (List Byte), pieces.flatten =
    locStream trackAlias group frames → ∃ s, pieces.foldl subOnIncoming .init = ⟨s, [], streamHeard trackAlias frames, none⟩ :=
  ⟨fun ops ht hu hlen => (((TrackRun.init_kept codec config).run ops ht hu).delivered hlen), client_hears⟩

def emptyFirst : List TrackOp := [.write ⟨[], 0, 0, false⟩, .write ⟨[0xaa], 40, 40, false⟩]

theorem emptyFirst_lost : (∀ op ∈ emptyFirst, op.Timed) ∧
    withPayload ((TrackRun.init .h264 []).run emptyFirst).meant = [⟨40, 0, false, [], [0xaa]⟩] ∧
    (onData .init ((TrackRun.init .h264 []).run emptyFirst).wire).out = [.subgroup ⟨1, 0, true⟩] := by
  refine ⟨?_, rfl, by decide +kernel⟩
  simp [emptyFirst, TrackOp.Timed]

def emptyLast : List TrackOp := [.write ⟨[0xaa], 40, 80, true⟩, .write ⟨[], 80, 80, false⟩]

theorem client_server_agree_sample : (∃ ss rest, [((TrackRun.init .h264 [0x01]).run emptyLast).wire].foldl onData .init =
    ⟨ss, rest, [.subgroup ⟨1, 0, true⟩, .object 1 ⟨40, 40, true, [0x01], [0xaa]⟩], none⟩) ∧
    ∃ s, [locStream 1 0 sampleFrames].foldl subOnIncoming .init = ⟨s, [], [.ready .h264 [0x01, 0x64], .data [0x01, 0x64]
    [0xaa] 40 40 true, .data [0x01, 0x64] [0xbb, 0xcc] 80 77 false], none⟩ :=
  ⟨(client_server_agree .h264 [0x01]).1 emptyLast (by simp [emptyLast, TrackOp.Timed])
      ⟨fun _ _ ho => (by cases ho), fun _ o ho => (by
        rw [List.mem_singleton.1 ho]
        exact cons_ne_nil _ _), trivial⟩ (by decide +kernel) _ (by decide +kernel),
    (client_server_agree .h264 [0x01]).2 1 0 sampleFrames (by simp only [LocFrame.Sendable]; decide) (by decide) _ (by decide)⟩

end MoqLiveCast
