import MoqLiveCast.Moq.LocRoundTrip
/-!
# ClientWire — the objects the C client writes (`moq_transport_client.c`)

A track has a stream of its own: a SUBGROUP header, and an object for each call that is accepted.  The configuration goes
with the first one.  An object is written as the server writes it, but for an empty payload: the length 0 is all, where a
reader goes on to a status.
-/
namespace MoqLiveCast

open List

open Scanner

def buildSubgroup (trackAlias group : BitVec 64) : List Byte := putVi64 (putVi64 (putVi64 [] 0x31) trackAlias) group

def putPropNum (body : List Byte × BitVec 64) (type value : BitVec 64) : List Byte × BitVec 64 :=
  (putVi64 (putVi64 body.1 (type - body.2)) value, type)

def putPropBytes (body : List Byte × BitVec 64) (type : BitVec 64) (p : List Byte) : List Byte × BitVec 64 :=
  (putVi64 (putVi64 body.1 (type - body.2)) (sizeOf64 p) ++ p, type)

structure ClientObject where
  dtsMs : BitVec 64
  ctsMs : BitVec 64
  key : Bool
  vcfg : List Byte
  acfg : List Byte
  payload : List Byte
deriving DecidableEq

def notNegative (v : BitVec 64) : BitVec 64 := if v.slt 0 then 0 else v

def ClientObject.props (o : ClientObject) : List Byte :=
  let cts := notNegative o.ctsMs
  let props := putPropNum ([], 0) kLocTimescale 1000
  let props := if o.key then putPropBytes props kLocFrameMark [0x01] else props
  let props := if o.vcfg ≠ [] then putPropBytes props kLocVideoConfig o.vcfg else props
  let props := if cts ≠ 0 then putPropNum props kLocCompositionTime cts else props
  let props := if o.acfg ≠ [] then putPropBytes props kLocAudioConfig o.acfg else props
  (putPropNum props kLocTimestamp (notNegative o.dtsMs)).1

def buildObject (o : ClientObject) : List Byte :=
  let out := putVi64 (putVi64 [] 0) (sizeOf64 o.props) ++ o.props
  let out := putVi64 out (sizeOf64 o.payload)
  if o.payload ≠ [] then out ++ o.payload else out

/-! ## A track -/

inductive MoqtCodec where
  | h264 | aac
deriving DecidableEq

def MoqtCodec.trackAlias : MoqtCodec → BitVec 64
  | .h264 => kAliasVideo
  | .aac => kAliasAudio

/-- A publisher's `moqt_stream` once its data stream is open. -/
structure TrackOut where
  codec : MoqtCodec
  config : List Byte
  ready : Bool := true
  configSent : Bool := false
  inflight : Nat := 0
  highWatermark : Nat := 0
deriving DecidableEq

structure TrackWrite where
  data : List Byte
  dtsMs : BitVec 64
  ptsMs : BitVec 64
  keyframe : Bool
deriving DecidableEq

inductive MoqtError where
  | state | again
deriving DecidableEq

def TrackOut.object (s : TrackOut) (w : TrackWrite) : ClientObject where
  dtsMs := w.dtsMs
  ctsMs := notNegative (w.ptsMs - w.dtsMs)
  key := s.codec = .h264 && w.keyframe
  vcfg := if s.configSent = false ∧ s.codec = .h264 then s.config else []
  acfg := if s.configSent = false ∧ s.codec = .aac then s.config else []
  payload := w.data

def TrackOut.accepts (s : TrackOut) (w : TrackWrite) : Prop :=
  s.ready = true ∧ ¬ (s.highWatermark ≠ 0 ∧ s.highWatermark < add64 s.inflight w.data.length)

def moqtStreamWriteEx (s : TrackOut) (w : TrackWrite) : Except MoqtError (TrackOut × List Byte) :=
  if s.ready = false then .error .state
  else if s.highWatermark ≠ 0 ∧ s.highWatermark < add64 s.inflight w.data.length then .error .again
  else .ok ({ s with configSent := true, inflight := add64 s.inflight w.data.length }, buildObject (s.object w))

def TrackOut.written (s : TrackOut) (bytes : Nat) : TrackOut :=
  { s with inflight := if bytes ≤ s.inflight then s.inflight - bytes else 0 }

inductive TrackOp where
  | write (w : TrackWrite)
  | written (bytes : Nat)
  | setHighWatermark (bytes : Nat)
  | closed

def TrackOut.meant (s : TrackOut) (w : TrackWrite) : LocObject where
  tsMs := w.dtsMs
  ctsMs := w.ptsMs - w.dtsMs
  key := s.codec = .h264 && w.keyframe
  cfg := if s.configSent then [] else s.config
  payload := w.data

/-- The track, all bytes its stream was given, and the objects of the calls accepted. -/
structure TrackRun where
  track : TrackOut
  wire : List Byte
  meant : List LocObject

/-- `pub_handle_open`: the header comes first. -/
def TrackRun.init (codec : MoqtCodec) (config : List Byte) : TrackRun :=
  ⟨{ codec := codec, config := config }, buildSubgroup codec.trackAlias 0, []⟩

def TrackRun.step (r : TrackRun) : TrackOp → TrackRun
  | .write w =>
    match moqtStreamWriteEx r.track w with
    | .error _ => r
    | .ok (s, bytes) => ⟨s, r.wire ++ bytes, r.meant ++ [r.track.meant w]⟩
  | .written bytes => { r with track := r.track.written bytes }
  | .setHighWatermark bytes => { r with track := { r.track with highWatermark := bytes } }
  | .closed => { r with track := { r.track with ready := false } }

def TrackRun.run (r : TrackRun) (ops : List TrackOp) : TrackRun := ops.foldl TrackRun.step r

def TrackOp.Timed : TrackOp → Prop
  | .write w => w.dtsMs.slt 0 = false ∧ w.ptsMs.slt w.dtsMs = false
  | _ => True

theorem step_accepts {r : TrackRun} {w : TrackWrite} (h : r.track.accepts w) : r.step (.write w) =
    ⟨{ r.track with configSent := true, inflight := add64 r.track.inflight w.data.length },
      r.wire ++ buildObject (r.track.object w), r.meant ++ [r.track.meant w]⟩ := by
  simp [TrackRun.step, moqtStreamWriteEx, if_neg h.2, h.1]

theorem step_refuses {r : TrackRun} {w : TrackWrite} (h : ¬ r.track.accepts w) : r.step (.write w) = r := by
  unfold TrackRun.step moqtStreamWriteEx
  by_cases hready : r.track.ready = false
  · simp [hready]
  · by_cases hmark : r.track.highWatermark ≠ 0 ∧ r.track.highWatermark < add64 r.track.inflight w.data.length
    · simp [hready, hmark]
    · exact absurd ⟨by simpa using hready, hmark⟩ h

/-! ## Its bytes are the server's -/

theorem putPropNum_eq (acc : List Byte × BitVec 64) {type : BitVec 64} (h : type &&& 1 = 0) (value : BitVec 64) :
    putPropNum acc type value = appendItem acc ⟨type, false, value, []⟩ := by
  simp only [putPropNum, appendItem, appendKvp, h, if_true, Bool.false_eq_true, if_false]
  rfl

theorem putPropBytes_eq (acc : List Byte × BitVec 64) {type : BitVec 64} (h : type &&& 1 ≠ 0) (p : List Byte) :
    putPropBytes acc type p = appendItem acc ⟨type, true, 0, p⟩ := by
  simp only [putPropBytes, appendItem, appendKvp, if_neg h, if_true]
  rfl

def clientBytes (codec : MoqtCodec) (o : LocObject) : List Byte :=
  objectBytes 0 (locItems o.tsMs o.ctsMs o.key o.cfg (codec = .h264)) o.payload

theorem notNegative_eq {v : BitVec 64} (h : v.slt 0 = false) : notNegative v = v := by
  unfold notNegative
  rw [h]
  exact if_neg Bool.false_ne_true

def ClientObject.items (o : ClientObject) : List LocItem :=
  [⟨kLocTimescale, false, 1000, []⟩] ++ (if o.key then [⟨kLocFrameMark, true, 0, [0x01]⟩] else []) ++
    (if o.vcfg ≠ [] then [⟨kLocVideoConfig, true, 0, o.vcfg⟩] else []) ++
    (if o.ctsMs ≠ 0 then [⟨kLocCompositionTime, false, o.ctsMs, []⟩] else []) ++
    (if o.acfg ≠ [] then [⟨kLocAudioConfig, true, 0, o.acfg⟩] else []) ++ [⟨kLocTimestamp, false, o.dtsMs, []⟩]

theorem props_eq (o : ClientObject) (hdts : o.dtsMs.slt 0 = false) (hcts : o.ctsMs.slt 0 = false) :
    o.props = propBytes 0 o.items := by
  have hfold := foldl_appendItem o.items ([], 0)
  rw [nil_append] at hfold
  rw [← hfold]
  unfold ClientObject.props ClientObject.items
  simp only [notNegative_eq hdts, notNegative_eq hcts, putPropNum_eq _ (show kLocTimescale &&& 1 = 0 from rfl),
    putPropNum_eq _ (show kLocTimestamp &&& 1 = 0 from rfl), putPropNum_eq _ (show kLocCompositionTime &&& 1 = 0 from rfl),
    putPropBytes_eq _ (show kLocFrameMark &&& 1 ≠ 0 by decide), putPropBytes_eq _ (show kLocVideoConfig &&& 1 ≠ 0 by decide),
    putPropBytes_eq _ (show kLocAudioConfig &&& 1 ≠ 0 by decide)]
  by_cases hcts : o.ctsMs = 0#64 <;> by_cases hv : o.vcfg = [] <;> by_cases ha : o.acfg = [] <;> cases o.key <;>
    simp [hcts, hv, ha]

theorem items_eq (s : TrackOut) {w : TrackWrite} (hcts : (w.ptsMs - w.dtsMs).slt 0 = false) :
    (s.object w).items = locItems w.dtsMs (w.ptsMs - w.dtsMs) (s.meant w).key (s.meant w).cfg (s.codec = .h264) := by
  unfold ClientObject.items locItems TrackOut.object TrackOut.meant
  rw [notNegative_eq hcts]
  cases hcodec : s.codec <;> cases hsent : s.configSent <;> simp

theorem timed_cts {w : TrackWrite} (h : (TrackOp.write w).Timed) : (w.ptsMs - w.dtsMs).slt 0 = false := by
  obtain ⟨hdts, hpts⟩ := h
  have hzero : (0 : BitVec 64).toInt = 0 := by decide
  simp only [BitVec.slt_eq_decide, decide_eq_false_iff_not, not_lt, hzero] at hdts hpts ⊢
  have h1 := w.dtsMs.toInt_lt
  have h2 := w.ptsMs.toInt_lt
  rw [BitVec.toInt_sub, Int.bmod_eq_of_le (by omega) (by omega)]
  omega

theorem buildObject_eq (s : TrackOut) {w : TrackWrite} (h : (TrackOp.write w).Timed) :
    buildObject (s.object w) = clientBytes s.codec (s.meant w) := by
  unfold buildObject clientBytes objectBytes blockBytes
  have hcts := timed_cts h
  rw [props_eq (s.object w) h.1 (by rwa [TrackOut.object, notNegative_eq hcts]), items_eq s hcts]
  simp only [putVi64, nil_append, append_assoc]
  split
  · rfl
  · rename_i hnil
    rw [show (s.meant w).payload = [] from not_not.1 hnil, show (s.object w).payload = [] from not_not.1 hnil]
    simp [TrackOut.meant]

/-! ## A run of calls -/

/-- **No call is accepted behind one with an empty payload.** -/
def TrackRun.Unbroken : TrackRun → List TrackOp → Prop
  | _, [] => True
  | r, op :: ops => (match op with
      | .write w => r.track.accepts w → ∀ o ∈ r.meant, o.payload ≠ []
      | _ => True) ∧ (r.step op).Unbroken ops

/-- What a run keeps: the codec, and the stream's bytes, which are the objects' behind the header. -/
structure TrackRun.Kept (codec : MoqtCodec) (r : TrackRun) : Prop where
  track : r.track.codec = codec
  wire : r.wire = encodeSubgroup codec.trackAlias 0 ++ r.meant.flatMap (clientBytes codec)
  timed : ∀ o ∈ r.meant, o.tsMs.slt 0 = false
  unbroken : ∀ o ∈ r.meant.dropLast, o.payload ≠ []

theorem buildSubgroup_eq (trackAlias group : BitVec 64) : buildSubgroup trackAlias group = encodeSubgroup trackAlias group := rfl

theorem TrackRun.init_kept (codec : MoqtCodec) (config : List Byte) : (TrackRun.init codec config).Kept codec where
  track := rfl
  wire := by simp [TrackRun.init, buildSubgroup_eq]
  timed o ho := by cases ho
  unbroken o ho := by cases ho

theorem TrackRun.Kept.step {codec : MoqtCodec} {r : TrackRun} (h : r.Kept codec) {op : TrackOp} (hop : op.Timed)
    (hunbroken : ∀ w, op = .write w → r.track.accepts w → ∀ o ∈ r.meant, o.payload ≠ []) : (r.step op).Kept codec := by
  cases op with
  | write w =>
    by_cases hacc : r.track.accepts w
    · rw [step_accepts hacc]
      refine ⟨h.track, ?_, fun o ho => ?_, ?_⟩
      · rw [h.wire, buildObject_eq r.track hop, h.track, flatMap_append, append_assoc, flatMap_singleton]
      · rcases List.mem_append.1 ho with ho | ho
        · exact h.timed o ho
        · rw [List.mem_singleton.1 ho]
          exact hop.1
      · rw [dropLast_concat]
        exact hunbroken w rfl hacc
    · rw [step_refuses hacc]
      exact h
  | written bytes => exact ⟨h.track, h.wire, h.timed, h.unbroken⟩
  | setHighWatermark bytes => exact ⟨h.track, h.wire, h.timed, h.unbroken⟩
  | closed => exact ⟨h.track, h.wire, h.timed, h.unbroken⟩

theorem TrackRun.Kept.run {codec : MoqtCodec} : ∀ (ops : List TrackOp) {r : TrackRun}, r.Kept codec →
    (∀ op ∈ ops, op.Timed) → r.Unbroken ops → (r.run ops).Kept codec
  | [], _, h, _, _ => h
  | op :: ops, r, h, ht, hu => by
    have hstep : (r.step op).Kept codec := h.step (ht op mem_cons_self) (by
      rintro w rfl
      exact hu.1)
    exact TrackRun.Kept.run ops hstep (fun op' hop' => ht op' (mem_cons_of_mem _ hop')) hu.2

/-! ## The server reads what the client writes -/

def frameOf (codec : MoqtCodec) (o : LocObject) : LocFrame where
  tsMs := o.tsMs
  ctsMs := o.ctsMs
  key := o.key
  cfg := o.cfg
  videoCfg := codec = .h264
  payload := o.payload

theorem clientBytes_eq (codec : MoqtCodec) {o : LocObject} (hts : o.tsMs.slt 0 = false) (hpay : o.payload ≠ []) :
    clientBytes codec o = (frameOf codec o).encode := ((frameOf codec o).encode_eq hts hpay).symm

theorem clientBytes_empty (codec : MoqtCodec) {o : LocObject} (hpay : o.payload = []) (status : List Byte) :
    clientBytes codec o ++ status = vi64Bytes 0 ++ (blockBytes (locItems o.tsMs o.ctsMs o.key o.cfg (codec = .h264)) ++
    (vi64Bytes (sizeOf64 []) ++ status)) := by
  rw [clientBytes, objectBytes_append, hpay, nil_append]

theorem stalls_empty {ss : StreamState} {trackAlias : BitVec 64} (hss : ss.Objects trackAlias) (codec : MoqtCodec) {o : LocObject}
    (hpay : o.payload = []) (hlen : (clientBytes codec o).length ≤ maxSize) : Stalls pumpTurn ss (clientBytes codec o) := by
  intro ys zs heq
  have hvalid := locItems_valid o.tsMs o.ctsMs o.key o.cfg (codec = .h264)
  have hstatus : vi64Bytes 0 = [0] := by decide
  have hw : Waits (parseObject true) (clientBytes codec o ++ vi64Bytes 0) := by
    rw [clientBytes_empty codec hpay]
    apply Waits.bind (scans_vi64 0)
    intro _ _
    apply Waits.bind (scans_parsePropBlock _ hvalid)
    intro _ _
    apply Waits.bind (scans_vi64 (sizeOf64 []))
    rintro _ rfl
    exact (scans_vi64 0).part.bind_left
  obtain ⟨c, hc⟩ := hw [] ys (zs ++ vi64Bytes 0) [] (by
    rw [hstatus, nil_append, length_append]
    simp only [maxSize, wordSize, length_singleton] at hlen ⊢
    omega) (by rw [heq, append_assoc]) (by rw [hstatus]; simp)
  exact ⟨ss, pumpTurn_part hss hc⟩

theorem split_unbroken {os : List LocObject} (h : ∀ o ∈ os.dropLast, o.payload ≠ []) :
    ∃ full last, os = full ++ last ∧ (∀ o ∈ full, o.payload ≠ []) ∧ (last = [] ∨ ∃ o, last = [o] ∧ o.payload = []) := by
  rcases eq_nil_or_concat os with rfl | ⟨front, o, rfl⟩
  · exact ⟨[], [], rfl, fun _ ho => (by cases ho), .inl rfl⟩
  · rw [concat_eq_append, dropLast_concat] at h
    rw [concat_eq_append]
    by_cases ho : o.payload = []
    · exact ⟨front, [o], rfl, h, .inr ⟨o, rfl, ho⟩⟩
    · refine ⟨front ++ [o], [], (append_nil _).symm, fun o' ho' => ?_, .inl rfl⟩
      rcases List.mem_append.1 ho' with ho' | ho'
      · exact h o' ho'
      · rw [List.mem_singleton.1 ho']
        exact ho

def withPayload (os : List LocObject) : List LocObject := os.filter fun o => o.payload ≠ []

theorem TrackRun.Kept.delivered {codec : MoqtCodec} {r : TrackRun} (h : r.Kept codec) (hlen : r.wire.length ≤ maxSize)
    (pieces : List (List Byte)) (hp : pieces.flatten = r.wire) : ∃ ss rest, pieces.foldl onData .init =
    ⟨ss, rest, .subgroup ⟨codec.trackAlias, 0, true⟩ :: (withPayload r.meant).map (.object codec.trackAlias), none⟩ := by
  have hmax : maxSize < wordSize := by decide
  obtain ⟨full, last, hmeant, hfull, hlast⟩ := split_unbroken h.unbroken
  have htimed := h.timed
  rw [hmeant] at htimed
  have hframes : full.flatMap (clientBytes codec) = (full.map (frameOf codec)).flatMap LocFrame.encode := by
    rw [flatMap_map]
    exact flatMap_congr fun o ho => clientBytes_eq codec (htimed o (mem_append_left _ ho)) (hfull o ho)
  have hwire : r.wire = locStream codec.trackAlias 0 (full.map (frameOf codec)) ++ last.flatMap (clientBytes codec) := by
    rw [h.wire, hmeant, flatMap_append, hframes, locStream, append_assoc]
  rw [hwire] at hlen hp
  rw [length_append] at hlen
  have hpayload : withPayload r.meant = full := by
    have hall : full.filter (fun o => o.payload ≠ []) = full := List.filter_eq_self.2 fun o ho => by simpa using hfull o ho
    rw [withPayload, hmeant, filter_append, hall]
    rcases hlast with rfl | ⟨o, rfl, ho⟩
    · simp
    · simp [ho]
  obtain ⟨ss, hss, hsp⟩ := spells_locStream codec.trackAlias 0 (full.map (frameOf codec)) (by
    intro f hf
    obtain ⟨o, ho, rfl⟩ := List.mem_map.1 hf
    exact ⟨htimed o (mem_append_left _ ho), hfull o ho⟩) (by omega)
  have hstall : Stalls pumpTurn ss (last.flatMap (clientBytes codec)) := by
    rcases hlast with rfl | ⟨o, rfl, ho⟩
    · exact stalls_nil (pumpTurn_idle hss)
    · rw [flatMap_singleton] at hlen ⊢
      exact stalls_empty hss codec ho (by omega)
  obtain ⟨t, ht⟩ := hstall _ [] (append_nil _).symm
  refine ⟨t, last.flatMap (clientBytes codec), ?_⟩
  rw [foldl_onData_eq, hpayload]
  have hout : (full.map (frameOf codec)).map (fun f => PushEvent.object codec.trackAlias f.object) =
      full.map (.object codec.trackAlias) := by
    rw [map_map]
    rfl
  rw [hout] at hsp
  apply hsp.feed_pieces pumpTurn_steady hstall ht _ rfl
  · rw [← hp]
    exact flatten_filter_ne_nil
  · rw [length_append]
    omega

end MoqLiveCast
