import MoqLiveCast.Moq.LocRead
/-!
# LocRoundTrip — what the server writes, the server reads

A SUBGROUP header and LOC objects, cut into chunks anywhere, are delivered as they were.
-/
namespace MoqLiveCast

open List

open Scanner

structure LocFrame where
  delta : BitVec 64 := 0
  tsMs : BitVec 64
  ctsMs : BitVec 64
  key : Bool
  cfg : List Byte
  videoCfg : Bool
  payload : List Byte
deriving DecidableEq

def LocFrame.encode (f : LocFrame) : List Byte := encodeLocObject f.delta f.tsMs f.payload f.key f.cfg f.videoCfg f.ctsMs

def LocFrame.object (f : LocFrame) : LocObject := ⟨f.tsMs, f.ctsMs, f.key, f.cfg, f.payload⟩

def locItems (tsMs ctsMs : BitVec 64) (key : Bool) (cfg : List Byte) (videoCfg : Bool) : List LocItem :=
  [⟨kLocTimescale, false, 1000, []⟩] ++ (if key then [⟨kLocFrameMark, true, 0, [0x01]⟩] else []) ++
    (if cfg ≠ [] ∧ videoCfg then [⟨kLocVideoConfig, true, 0, cfg⟩] else []) ++
    (if ctsMs ≠ 0 then [⟨kLocCompositionTime, false, ctsMs, []⟩] else []) ++
    (if cfg ≠ [] ∧ videoCfg = false then [⟨kLocAudioConfig, true, 0, cfg⟩] else []) ++
    [⟨kLocTimestamp, false, tsMs, []⟩]

theorem locItems_valid (tsMs ctsMs : BitVec 64) (key : Bool) (cfg : List Byte) (videoCfg : Bool) :
    ∀ it ∈ locItems tsMs ctsMs key cfg videoCfg, it.Valid := by
  intro it hit
  simp only [locItems, mem_append, mem_singleton, mem_ite_nil_right] at hit
  rcases hit with ((((rfl | ⟨-, rfl⟩) | ⟨-, rfl⟩) | ⟨-, rfl⟩) | ⟨-, rfl⟩) | rfl <;>
    simp only [LocItem.Valid] <;> decide

theorem locItems_absorb (tsMs ctsMs : BitVec 64) (key : Bool) (cfg : List Byte) (videoCfg : Bool) :
    (locItems tsMs ctsMs key cfg videoCfg).foldl PropView.absorb {} = ⟨tsMs, ctsMs, key, cfg⟩ := by
  unfold locItems
  by_cases hcfg : cfg = [] <;> by_cases hcts : ctsMs = 0#64 <;> cases key <;> cases videoCfg <;>
    simp [hcfg, hcts, PropView.absorb, kLocTimescale, kLocFrameMark, kLocVideoConfig, kLocCompositionTime, kLocAudioConfig,
      kLocTimestamp]

theorem sortItems_eq {tsMs : BitVec 64} (hts : tsMs.slt 0 = false) (ctsMs : BitVec 64) (key : Bool) (cfg : List Byte)
    (videoCfg : Bool) :
    sortItems (itemsOf (oddProps key cfg videoCfg) (evenProps tsMs ctsMs)) = locItems tsMs ctsMs key cfg videoCfg := by
  unfold sortItems itemsOf oddProps evenProps locItems
  rw [hts]
  by_cases hcfg : cfg = [] <;> by_cases hcts : ctsMs = 0#64 <;> cases key <;> cases videoCfg <;>
    simp [hcfg, hcts, insertionSort, orderedInsert, kLocTimescale, kLocFrameMark, kLocVideoConfig,
      kLocCompositionTime, kLocAudioConfig, kLocTimestamp]

theorem LocFrame.encode_eq (f : LocFrame) (hts : f.tsMs.slt 0 = false) (hpay : f.payload ≠ []) :
    f.encode = objectBytes f.delta (locItems f.tsMs f.ctsMs f.key f.cfg f.videoCfg) f.payload := by
  unfold LocFrame.encode encodeLocObject objectBytes blockBytes encodeProperties
  rw [sortItems_eq hts, foldl_appendItem, if_pos hpay]
  simp only [moqAppendVi64, nil_append, append_assoc]

theorem encodeSubgroup_eq (trackAlias group : BitVec 64) :
    encodeSubgroup trackAlias group = vi64Bytes 0x31 ++ (vi64Bytes trackAlias ++ vi64Bytes group) := by
  simp only [encodeSubgroup, moqAppendVi64, nil_append, append_assoc]

theorem scans_parseSubgroupHeader (trackAlias group : BitVec 64) :
    Scans parseSubgroupHeader (fun h => h = ⟨trackAlias, group, true⟩) (encodeSubgroup trackAlias group) := by
  rw [encodeSubgroup_eq]
  apply (scans_vi64 0x31).bind
  rintro _ rfl
  apply (scans_vi64 trackAlias).bind
  rintro _ rfl
  apply (scans_vi64 group).map
  rintro _ rfl
  rfl

def StreamState.Objects (ss : StreamState) (trackAlias : BitVec 64) : Prop :=
  ss.kind = .data ∧ ss.headerDone = true ∧ ss.hasProps = true ∧ ss.trackAlias = trackAlias

theorem pumpTurn_objects {ss : StreamState} {trackAlias : BitVec 64} (h : ss.Objects trackAlias) (b : List Byte) :
    pumpTurn ss b = pumpObject ss b := by
  unfold pumpTurn pumpKnown
  simp [h.1, h.2.1]

theorem pumpTurn_object {ss : StreamState} {trackAlias : BitVec 64} (h : ss.Objects trackAlias) {b : List Byte}
    {delta : BitVec 64} {o : LocObject} {c : Cursor} (hr : parseObject true b ⟨0, []⟩ = .ok (delta, some o) c) :
    pumpTurn ss b = .take (ss.sawObject delta (some o)) c.off [.object trackAlias o] := by
  rw [pumpTurn_objects h, pumpObject, h.2.2.1, scanTurn_ok hr, h.2.2.2]
  rfl

theorem pumpTurn_part {ss : StreamState} {trackAlias : BitVec 64} (h : ss.Objects trackAlias) {b : List Byte} {c : Cursor}
    (hr : parseObject true b ⟨0, []⟩ = .short c) : pumpTurn ss b = .wait ss := by
  rw [pumpTurn_objects h, pumpObject, h.2.2.1, scanTurn, hr]

theorem StreamState.Objects.sawObject {ss : StreamState} {trackAlias : BitVec 64} (h : ss.Objects trackAlias)
    (delta : BitVec 64) (o : Option LocObject) : (ss.sawObject delta o).Objects trackAlias := by
  cases o <;> exact h

/-! ## The header -/

def headerState (trackAlias : BitVec 64) : StreamState :=
  { kind := .data, headerDone := true, hasProps := true, trackAlias := trackAlias }

theorem headerState_objects (trackAlias : BitVec 64) : (headerState trackAlias).Objects trackAlias := ⟨rfl, rfl, rfl, rfl⟩

theorem encodeSubgroup_cons (trackAlias group : BitVec 64) :
    encodeSubgroup trackAlias group = 0x31 :: (vi64Bytes trackAlias ++ vi64Bytes group) := by
  have hflags : vi64Bytes 0x31 = [0x31] := by decide
  rw [encodeSubgroup_eq, hflags, singleton_append]

theorem firstType_header (bytes : List Byte) :
    (moqReadVi64 : PushScan (BitVec 64)) (0x31 :: bytes) ⟨0, []⟩ = .ok 0x31 ⟨1, []⟩ := by
  have hlead : moqLead 0x31 0 8 = 0 := by decide
  exact moqReadVi64_cons [] 0x31 [] bytes [] hlead

theorem kindOfType_header : kindOfType 0x31 = some .data := by decide

theorem parseSubgroupHeader_whole (trackAlias group : BitVec 64) (hlen : (encodeSubgroup trackAlias group).length < wordSize)
    (rest : List Byte) : ∃ tests, parseSubgroupHeader (encodeSubgroup trackAlias group ++ rest) ⟨0, []⟩ = .ok ⟨trackAlias, group,
    true⟩ ⟨(encodeSubgroup trackAlias group).length, tests⟩ := by
  obtain ⟨sg, tests, hr, rfl⟩ := (scans_parseSubgroupHeader trackAlias group).whole [] rest [] (by rwa [nil_append])
  refine ⟨tests, ?_⟩
  rwa [nil_append, nil_append, length_nil] at hr

theorem pumpTurn_subgroup {b : List Byte} {sg : SubgroupHeader} {c : Cursor}
    (hfirst : (moqReadVi64 : PushScan (BitVec 64)) b ⟨0, []⟩ = .ok 0x31 ⟨1, []⟩)
    (hr : parseSubgroupHeader b ⟨0, []⟩ = .ok sg c) :
    pumpTurn {} b = .take { kind := .data, headerDone := true, hasProps := sg.hasProps, trackAlias := sg.trackAlias } c.off
      [.subgroup sg] := by
  rw [pumpTurn_first hfirst kindOfType_header, if_pos rfl, pumpHeader, scanTurn_ok hr]

theorem pumpTurn_header (trackAlias group : BitVec 64) (hlen : (encodeSubgroup trackAlias group).length < wordSize)
    (rest : List Byte) : pumpTurn {} (encodeSubgroup trackAlias group ++ rest) = .take (headerState trackAlias)
    (encodeSubgroup trackAlias group).length [.subgroup ⟨trackAlias, group, true⟩] := by
  obtain ⟨tests, hr⟩ := parseSubgroupHeader_whole trackAlias group hlen rest
  have hfirst : (moqReadVi64 : PushScan (BitVec 64)) (encodeSubgroup trackAlias group ++ rest) ⟨0, []⟩ = .ok 0x31 ⟨1, []⟩ := by
    rw [encodeSubgroup_cons, cons_append]
    exact firstType_header _
  rw [pumpTurn_subgroup hfirst hr, headerState]

theorem pumpTurn_header_part (trackAlias group : BitVec 64) (hlen : (encodeSubgroup trackAlias group).length < wordSize)
    (ys zs : List Byte) (heq : encodeSubgroup trackAlias group = ys ++ zs) (hne : zs ≠ []) : ∃ ss, pumpTurn {} ys = .wait ss := by
  cases ys with
  | nil => exact ⟨{}, rfl⟩
  | cons y ys =>
    obtain ⟨c, hr⟩ := (scans_parseSubgroupHeader trackAlias group).part [] (y :: ys) zs [] (by rwa [nil_append]) heq hne
    rw [encodeSubgroup_cons] at heq
    obtain rfl : (0x31 : Byte) = y := (List.cons.inj heq).1
    simp only [nil_append, length_nil] at hr
    refine ⟨{ kind := .data }, ?_⟩
    rw [pumpTurn_first (firstType_header ys) kindOfType_header, if_pos rfl, pumpHeader, scanTurn, hr]

/-! ## The objects -/

/-- What the claims about a stream of objects ask of each: its time is not negative and its payload not empty. -/
def LocFrame.Sendable (f : LocFrame) : Prop := f.tsMs.slt 0 = false ∧ f.payload ≠ []

theorem LocFrame.cfg_length_le (f : LocFrame) (h : f.Sendable) : f.cfg.length ≤ f.encode.length := by
  by_cases hcfg : f.cfg = []
  · simp [hcfg]
  · rw [f.encode_eq h.1 h.2]
    have hvalid := locItems_valid f.tsMs f.ctsMs f.key f.cfg f.videoCfg
    have hle := raw_length_le _ 0 hvalid ⟨if f.videoCfg then kLocVideoConfig else kLocAudioConfig, true, 0, f.cfg⟩
      (by cases hv : f.videoCfg <;> simp [locItems, hcfg]) rfl
    simp only [objectBytes, blockBytes, length_append] at hle ⊢
    omega

theorem LocFrame.payload_length_le (f : LocFrame) (h : f.Sendable) : f.payload.length ≤ f.encode.length := by
  rw [f.encode_eq h.1 h.2]
  simp only [objectBytes, length_append]
  omega

theorem LocFrame.parse (f : LocFrame) (h : f.Sendable) (hlen : f.encode.length ≤ maxSize) (rest : List Byte) :
    ∃ tests, parseObject true (f.encode ++ rest) ⟨0, []⟩ = .ok (f.delta, some f.object) ⟨f.encode.length, tests⟩ := by
  have hvalid := locItems_valid f.tsMs f.ctsMs f.key f.cfg f.videoCfg
  have habs := locItems_absorb f.tsMs f.ctsMs f.key f.cfg f.videoCfg
  have hcfg := f.cfg_length_le h
  rw [f.encode_eq h.1 h.2] at hlen hcfg ⊢
  obtain ⟨tests, ht⟩ := parseObject_whole f.delta _ hvalid h.2 rest hlen (by rw [habs]; simp only; omega)
  rw [habs] at ht
  exact ⟨tests, ht⟩

theorem LocFrame.parse_part (f : LocFrame) (h : f.Sendable) (hlen : f.encode.length ≤ maxSize) (ys zs : List Byte)
    (heq : f.encode = ys ++ zs) (hne : zs ≠ []) : ∃ c, parseObject true ys ⟨0, []⟩ = .short c := by
  have hvalid := locItems_valid f.tsMs f.ctsMs f.key f.cfg f.videoCfg
  have hmax : maxSize < wordSize := by decide
  have hpay := f.payload_length_le h
  have hw := waits_parseObject f.delta _ hvalid (by omega) h.2
  rw [← f.encode_eq h.1 h.2] at hw
  exact hw [] ys zs [] (by rw [nil_append]; omega) heq hne

theorem LocFrame.encode_ne_nil (f : LocFrame) (h : f.Sendable) : f.encode ≠ [] := by
  intro he
  have := f.payload_length_le h
  rw [he] at this
  exact h.2 (List.length_eq_zero_iff.1 (Nat.le_zero.1 this))

theorem spells_objects (trackAlias : BitVec 64) : ∀ (frames : List LocFrame) (ss : StreamState), ss.Objects trackAlias →
    (∀ f ∈ frames, f.Sendable ∧ f.encode.length ≤ maxSize) →
    ∃ ss' : StreamState, ss'.Objects trackAlias ∧ Spells pumpTurn ss (frames.flatMap LocFrame.encode)
      (frames.map fun f => PushEvent.object trackAlias f.object) ss'
  | [], ss, hss, _ => ⟨ss, hss, .nil ss⟩
  | f :: fs, ss, hss, h => by
    obtain ⟨hf, hlen⟩ := h f mem_cons_self
    obtain ⟨ss', hss', hsp⟩ := spells_objects trackAlias fs (ss.sawObject f.delta (some f.object)) (hss.sawObject _ _)
      (fun f' hf' => h f' (mem_cons_of_mem _ hf'))
    refine ⟨ss', hss', ?_⟩
    rw [flatMap_cons, map_cons]
    apply Spells.cons (o := [PushEvent.object trackAlias f.object]) (f.encode_ne_nil hf) (fun rest => ?_) (fun ys zs heq hne => ?_) hsp
    · obtain ⟨tests, hr⟩ := f.parse hf hlen rest
      exact pumpTurn_object hss hr
    · obtain ⟨c, hr⟩ := f.parse_part hf hlen ys zs heq hne
      exact ⟨ss, pumpTurn_part hss hr⟩

theorem pumpTurn_idle {ss : StreamState} {trackAlias : BitVec 64} (h : ss.Objects trackAlias) : pumpTurn ss [] = .wait ss :=
  pumpTurn_part h (c := ⟨0, []⟩) rfl

def locStream (trackAlias group : BitVec 64) (frames : List LocFrame) : List Byte :=
  encodeSubgroup trackAlias group ++ frames.flatMap LocFrame.encode

theorem locStream_lengths {trackAlias group : BitVec 64} {frames : List LocFrame} (h : (locStream trackAlias group frames).length
    ≤ maxSize) : (encodeSubgroup trackAlias group).length ≤ maxSize ∧ ∀ f ∈ frames, f.encode.length ≤ maxSize := by
  rw [locStream, length_append] at h
  refine ⟨by omega, fun f hf => ?_⟩
  have := (sublist_flatten_of_mem (mem_map_of_mem (f := LocFrame.encode) hf)).length_le
  rw [← flatMap_def] at this
  omega

theorem spells_locStream (trackAlias group : BitVec 64) (frames : List LocFrame) (h : ∀ f ∈ frames, f.Sendable)
    (hlen : (locStream trackAlias group frames).length ≤ maxSize) :
    ∃ ss' : StreamState, ss'.Objects trackAlias ∧ Spells pumpTurn {} (locStream trackAlias group frames)
      (.subgroup ⟨trackAlias, group, true⟩ :: frames.map fun f => .object trackAlias f.object) ss' := by
  have hmax : maxSize < wordSize := by decide
  obtain ⟨hhdr, heach⟩ := locStream_lengths hlen
  obtain ⟨ss', hss', hsp⟩ := spells_objects trackAlias frames (headerState trackAlias) (headerState_objects trackAlias)
    (fun f hf => ⟨h f hf, heach f hf⟩)
  refine ⟨ss', hss', ?_⟩
  have hhdr := Nat.lt_of_le_of_lt hhdr hmax
  exact Spells.cons (o := [.subgroup ⟨trackAlias, group, true⟩]) (by rw [encodeSubgroup_cons]; simp)
    (fun rest => pumpTurn_header trackAlias group hhdr rest)
    (fun ys zs heq hne => pumpTurn_header_part trackAlias group hhdr ys zs heq hne) hsp

/-- **A stream of objects is delivered as it was written, however it is cut**, and nothing of it is left. -/
theorem loc_round_trip (trackAlias group : BitVec 64) (frames : List LocFrame) (h : ∀ f ∈ frames, f.Sendable)
    (hlen : (locStream trackAlias group frames).length ≤ maxSize) (pieces : List (List Byte))
    (hp : pieces.flatten = locStream trackAlias group frames) :
    ∃ ss, pieces.foldl onData .init =
      ⟨ss, [], .subgroup ⟨trackAlias, group, true⟩ :: frames.map fun f => .object trackAlias f.object, none⟩ := by
  have hmax : maxSize < wordSize := by decide
  obtain ⟨ss, hss, hsp⟩ := spells_locStream trackAlias group frames h hlen
  refine ⟨ss, ?_⟩
  rw [foldl_onData_eq]
  have hidle := pumpTurn_idle hss
  apply hsp.feed_pieces pumpTurn_steady (stalls_nil hidle) hidle _ rfl
  · rw [append_nil, ← hp]
    exact flatten_filter_ne_nil
  · rw [append_nil]
    omega

/-- A key frame with a configuration, and a frame shown before it is decoded. -/
def sampleFrames : List LocFrame :=
  [⟨0, 40, 0, true, [0x01, 0x64], true, [0xaa]⟩, ⟨0, 80, -3, false, [], true, [0xbb, 0xcc]⟩]

theorem loc_round_trip_sample : ∃ ss, ((locStream 1 0 sampleFrames).map fun x => [x]).foldl onData .init =
    ⟨ss, [], [.subgroup ⟨1, 0, true⟩, .object 1 ⟨40, 0, true, [0x01, 0x64], [0xaa]⟩, .object 1 ⟨80, -3, false, [], [0xbb, 0xcc]⟩],
      none⟩ :=
  loc_round_trip 1 0 sampleFrames (by simp only [LocFrame.Sendable]; decide) (by decide)
    ((locStream 1 0 sampleFrames).map fun x => [x]) (by decide)

end MoqLiveCast
