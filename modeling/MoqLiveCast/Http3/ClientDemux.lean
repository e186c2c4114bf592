import MoqLiveCast.Http3.Client
/-!
# ClientDemux — what a client makes of the server's streams

A stream of HTTP/3 itself never gets a record, so every chunk of it is classified again; a WebTransport stream is stripped of its
header by the first chunk that begins with all of it.
-/
namespace MoqLiveCast

open List

def IsH3Stream (sid : Nat) (content : List Byte) : Prop := sid % 4 = 3 ∧ (WtClient.builtinType content).isSome

def IsWtStream (content : List Byte) : Prop :=
  (wtHeaderLen content).isSome ∧ (quicVarintDecode content).any fun r => r.1 = 0x41 ∨ r.1 = 0x54

def HasSettings (bytes : List Byte) : Prop :=
  (((quicVarintDecode bytes).filter fun r => r.1 = H3_STREAM_TYPE_CONTROL).bind fun r =>
    (h3FirstFrame (bytes.drop r.2)).map Prod.fst) = some 4

instance (sid : Nat) (content : List Byte) : Decidable (IsH3Stream sid content) := inferInstanceAs (Decidable (_ ∧ _))
instance (content : List Byte) : Decidable (IsWtStream content) := inferInstanceAs (Decidable (_ ∧ _))
instance (bytes : List Byte) : Decidable (HasSettings bytes) := inferInstanceAs (Decidable (_ = _))

def SettingsArrived (log : List WtEvent) : Prop := ∃ sid, sid % 4 = 3 ∧ HasSettings (arrivedOn sid log)

/-- **The streams are told apart**: what the server sends on each is `sent`. -/
def Demuxed (sent : Nat → List Byte) (log : List WtEvent) : Prop :=
  (∀ sid, (IsH3Stream sid (sent sid) → deliveredOn sid log = []) ∧
    (IsWtStream (sent sid) → deliveredOn sid log = wtPayload (arrivedOn sid log))) ∧
  (SettingsArrived log → (connectsOf log).length = 1) ∧ (¬SettingsArrived log → connectsOf log = [])

namespace WtClient

def stripped (c : WtClient) (sid : Nat) : Bool := (c.findStream sid).any WtStream.headerStripped

/-- The chunk begins with the type of a control stream and whole SETTINGS, and comes in time. -/
def TakesSettings (c : WtClient) (sid : Nat) (data : List Byte) : Prop :=
  sid % 4 = 3 ∧ c.findStream sid = none ∧ (builtinType data).any fun r =>
    r.1 = H3_STREAM_TYPE_CONTROL ∧ data.drop r.2 ≠ [] ∧ c.Early ∧ (h3FrameParseSettings (data.drop r.2)).isSome

instance (c : WtClient) (sid : Nat) (data : List Byte) : Decidable (c.TakesSettings sid data) :=
  inferInstanceAs (Decidable (_ ∧ _ ∧ _))

/-- **The condition**: every chunk of a stream of HTTP/3 itself begins with a type; a chunk of a WebTransport stream does not come
while the client waits for its answer, and is empty, or begins with the header, or comes when that was stripped; and before the
CONNECT a chunk is taken for SETTINGS exactly when it is the one that completes them, and a stream can be opened then.  A
stream that is opened is a new one. -/
def DemuxOk (sent : Nat → List Byte) (c : WtClient) : WtInput → Prop
  | .quicStream sid data connectSid =>
    (IsH3Stream sid (sent sid) → (builtinType data).isSome) ∧
    (IsWtStream (sent sid) → c.state ≠ .connectingWt ∧ (data = [] ∨ c.stripped sid ∨ (wtHeaderLen data).isSome)) ∧
    (c.connectSent = false → (c.TakesSettings sid data ↔ sid % 4 = 3 ∧ HasSettings (arrivedOn sid c.log ++ data)) ∧
      (c.TakesSettings sid data → connectSid.isSome))
  | .turn (.openStream isUni) (some sid) =>
    sid % 4 = (if isUni then 2 else 0) ∧ c.findStream sid = none ∧ arrivedOn sid c.log = []
  | _ => True

instance (sent : Nat → List Byte) (c : WtClient) : ∀ i : WtInput, Decidable (DemuxOk sent c i)
  | .quicStream _ _ _ => inferInstanceAs (Decidable (_ ∧ _ ∧ _))
  | .turn (.openStream _) (some _) => inferInstanceAs (Decidable (_ ∧ _ ∧ _))
  | .turn (.openStream _) none => inferInstanceAs (Decidable True)
  | .turn (.connect _ _ _) _ => inferInstanceAs (Decidable True)
  | .turn .close _ => inferInstanceAs (Decidable True)
  | .turn (.streamWrite _) _ => inferInstanceAs (Decidable True)
  | .quicConnected => inferInstanceAs (Decidable True)
  | .quicClose => inferInstanceAs (Decidable True)

end WtClient

/-! ## Reading on -/

theorem h3FirstFrame_append {a : List Byte} {ty : Nat} {p rest : List Byte} (h : h3FirstFrame a = some (ty, p, rest))
    (b : List Byte) : h3FirstFrame (a ++ b) = some (ty, p, rest ++ b) := by
  unfold h3FirstFrame at h ⊢
  obtain ⟨⟨t, k⟩, hk, hr⟩ := Option.bind_eq_some_iff.1 h
  obtain ⟨⟨len, m⟩, hm, hr⟩ := Option.bind_eq_some_iff.1 hr
  dsimp only at hr
  split at hr
  · cases hr
  · rename_i hroom
    simp only [Option.some.injEq, Prod.mk.injEq] at hr
    obtain ⟨rfl, rfl, rfl⟩ := hr
    obtain ⟨-, -, hle⟩ := quicVarintDecode_bounds hk
    rw [quicVarintDecode_append hk]
    dsimp only [Option.bind]
    rw [drop_append_of_le_length hle, quicVarintDecode_append hm]
    dsimp only [Option.bind]
    rw [if_neg (by rw [length_append]; omega), drop_append_of_le_length (by omega),
      take_append_of_le_length (by rw [length_drop]; omega), drop_append_of_le_length (by omega)]

theorem HasSettings.append {a : List Byte} (h : HasSettings a) (b : List Byte) : HasSettings (a ++ b) := by
  unfold HasSettings at h ⊢
  obtain ⟨⟨t, k⟩, hk, hr⟩ := Option.bind_eq_some_iff.1 h
  obtain ⟨hdec, htype⟩ := Option.filter_eq_some_iff.1 hk
  obtain ⟨⟨ty, p, rest⟩, hframe, hty⟩ := Option.map_eq_some_iff.1 hr
  obtain ⟨-, -, hle⟩ := quicVarintDecode_bounds hdec
  refine Option.bind_eq_some_iff.2 ⟨(t, k), Option.filter_eq_some_iff.2 ⟨quicVarintDecode_append hdec b, htype⟩, ?_⟩
  dsimp only at hframe ⊢
  rw [drop_append_of_le_length hle, h3FirstFrame_append hframe]
  exact congrArg some hty

section

variable (sid k : Nat) (log : List WtEvent) (data : List Byte)

@[simp] theorem arrivedOn_append (more : List WtEvent) : arrivedOn sid (log ++ more) = arrivedOn sid log ++ arrivedOn sid more :=
  flatMap_append

@[simp] theorem deliveredOn_append (more : List WtEvent) :
    deliveredOn sid (log ++ more) = deliveredOn sid log ++ deliveredOn sid more := flatMap_append

@[simp] theorem connectsOf_append (more : List WtEvent) : connectsOf (log ++ more) = connectsOf log ++ connectsOf more :=
  filterMap_append

theorem arrivedOn_arrived : arrivedOn k [.arrived sid data] = if sid = k then data else [] := append_nil _

theorem deliveredOn_data : deliveredOn k [.onStreamData sid data] = if sid = k then data else [] := append_nil _

end

theorem settingsArrived_snoc (log : List WtEvent) (sid : Nat) (data : List Byte) : SettingsArrived (log ++ [.arrived sid data]) ↔
    SettingsArrived log ∨ sid % 4 = 3 ∧ HasSettings (arrivedOn sid log ++ data) := by
  constructor
  · rintro ⟨k, hk, hset⟩
    rw [arrivedOn_append, arrivedOn_arrived] at hset
    by_cases hs : sid = k
    · subst hs
      rw [if_pos rfl] at hset
      exact .inr ⟨hk, hset⟩
    · rw [if_neg hs, append_nil] at hset
      exact .inl ⟨k, hk, hset⟩
  · rintro (⟨k, hk, hset⟩ | ⟨hk, hset⟩)
    · exact ⟨k, hk, by rw [arrivedOn_append]; exact hset.append _⟩
    · exact ⟨sid, hk, by rwa [arrivedOn_append, arrivedOn_arrived, if_pos rfl]⟩

namespace WtClient

/-! ## One chunk -/

theorem onQuicStream_cases (c : WtClient) (sid : Nat) (data : List Byte) (connectSid : Option Nat) :
    (sid % 4 = 3 ∧ c.findStream sid = none ∧ (builtinType data).isSome ∧ c.connectSent = false ∧ c.TakesSettings sid data ∧
        c.onQuicStream sid data connectSid =
          { c.note (.arrived sid data) with connectSent := true, state := .connectingWt }.sendWtConnect connectSid) ∨
      (sid % 4 = 3 ∧ c.findStream sid = none ∧ (builtinType data).isSome ∧ (c.connectSent = false → ¬c.TakesSettings sid data) ∧
        c.onQuicStream sid data connectSid = c.note (.arrived sid data)) ∨
      (¬(sid % 4 = 3 ∧ c.findStream sid = none ∧ (builtinType data).isSome) ∧ (c.state = .connectingWt ∧
            c.onQuicStream sid data connectSid = { c.note (.arrived sid data) with state := .connected }.note .onConnect ∨
          c.state ≠ .connectingWt ∧ c.onQuicStream sid data connectSid = (c.note (.arrived sid data)).onWtData sid data)) := by
  unfold onQuicStream
  dsimp only
  by_cases huni : sid % 4 = 3 ∧ c.findStream sid = none
  · have huni' : sid % 4 = 3 ∧ (c.note (.arrived sid data)).findStream sid = none := huni
    rw [if_pos huni']
    cases htype : builtinType data with
    | none =>
      refine .inr (.inr ⟨fun h => Bool.false_ne_true h.2.2, ?_⟩)
      dsimp only
      split
      · exact .inl ⟨‹_›, rfl⟩
      · exact .inr ⟨‹_›, rfl⟩
    | some r =>
      obtain ⟨stype, n⟩ := r
      have htakes : c.TakesSettings sid data ↔ stype = H3_STREAM_TYPE_CONTROL ∧ data.drop n ≠ [] ∧ c.Early ∧
          (h3FrameParseSettings (data.drop n)).isSome := by
        unfold TakesSettings
        rw [htype]
        simp [huni]
      dsimp only
      unfold onBuiltin
      by_cases hfire : c.TakesSettings sid data ∧ c.connectSent = false
      · obtain ⟨h1, h2, h3, h4⟩ := htakes.1 hfire.1
        rw [if_pos ⟨h1, h2, h3, h4, hfire.2⟩]
        exact .inl ⟨huni.1, huni.2, rfl, hfire.2, hfire.1, rfl⟩
      · rw [if_neg fun ⟨h1, h2, h3, h4, h5⟩ => hfire ⟨htakes.2 ⟨h1, h2, h3, h4⟩, h5⟩]
        exact .inr (.inl ⟨huni.1, huni.2, rfl, fun h5 ht => hfire ⟨ht, h5⟩, rfl⟩)
  · have huni' : ¬(sid % 4 = 3 ∧ (c.note (.arrived sid data)).findStream sid = none) := huni
    rw [if_neg huni']
    refine .inr (.inr ⟨fun h => huni ⟨h.1, h.2.1⟩, ?_⟩)
    dsimp only
    split
    · exact .inl ⟨‹_›, rfl⟩
    · exact .inr ⟨‹_›, rfl⟩

theorem sendWtConnect_eq (c : WtClient) (k : Nat) : ∃ hdr, c.sendWtConnect (some k) = c.note (.connect k hdr) := by
  obtain ⟨hhdr, -⟩ := sendWtConnectInternal_some c.target.path_le c.target.authority_le
  unfold sendWtConnect
  dsimp only
  rw [hhdr]
  exact ⟨_, rfl⟩

/-! ## The invariant -/

/-- A stream of HTTP/3 itself has no record; a WebTransport stream has brought its header when it is stripped, and nothing before;
and the CONNECT is sent with the SETTINGS. -/
structure DemuxInv (sent : Nat → List Byte) (c : WtClient) : Prop where
  h3 : ∀ sid, IsH3Stream sid (sent sid) → c.findStream sid = none ∧ deliveredOn sid c.log = []
  wt : ∀ sid, IsWtStream (sent sid) → deliveredOn sid c.log = wtPayload (arrivedOn sid c.log) ∧
    (c.stripped sid = true → (wtHeaderLen (arrivedOn sid c.log)).isSome) ∧ (c.stripped sid = false → arrivedOn sid c.log = [])
  settled : c.connectSent = true ↔ SettingsArrived c.log
  once : (connectsOf c.log).length = c.connectSent.toNat

theorem DemuxInv.demuxed {sent : Nat → List Byte} {c : WtClient} (h : c.DemuxInv sent) : Demuxed sent c.log := by
  refine ⟨fun sid => ⟨fun hh => (h.h3 sid hh).2, fun hw => (h.wt sid hw).1⟩, fun harr => ?_, fun hnot => ?_⟩
  · rw [h.once, h.settled.2 harr]
    rfl
  · have hsent : c.connectSent = false := by
      rw [← Bool.not_eq_true]
      exact fun hc => hnot (h.settled.1 hc)
    have hnone := h.once
    rw [hsent] at hnone
    exact List.length_eq_zero_iff.1 hnone

theorem DemuxInv.congr {sent : Nat → List Byte} {c c' : WtClient} (h : c.DemuxInv sent) {more : List WtEvent}
    (hnone : ∀ k, k % 4 = 3 → c.findStream k = none → c'.findStream k = none) (hstripped : ∀ k, c'.stripped k = c.stripped k)
    (hlog : c'.log = c.log ++ more) (harr : ∀ k, arrivedOn k more = []) (hdel : ∀ k, deliveredOn k more = [])
    (hcon : connectsOf more = []) (hsent : c'.connectSent = c.connectSent) : c'.DemuxInv sent := by
  have harrived : ∀ k, arrivedOn k c'.log = arrivedOn k c.log := fun k => by
    rw [hlog, arrivedOn_append, harr, append_nil]
  have hdelivered : ∀ k, deliveredOn k c'.log = deliveredOn k c.log := fun k => by
    rw [hlog, deliveredOn_append, hdel, append_nil]
  refine ⟨fun k hk => ?_, fun k hk => ?_, ?_, ?_⟩
  · obtain ⟨hfind, hno⟩ := h.h3 k hk
    exact ⟨hnone k hk.1 hfind, by rw [hdelivered, hno]⟩
  · rw [hdelivered, harrived, hstripped]
    exact h.wt k hk
  · rw [hsent, h.settled]
    unfold SettingsArrived
    simp only [harrived]
  · rw [hlog, connectsOf_append, hcon, append_nil, hsent]
    exact h.once

theorem DemuxInv.passed {sent : Nat → List Byte} {c c' : WtClient} (h : c.DemuxInv sent) {sid : Nat} {data : List Byte}
    (more : List WtEvent) (hsid : ¬IsWtStream (sent sid)) (hfind : ∀ k, c'.findStream k = c.findStream k)
    (hlog : c'.log = c.log ++ [.arrived sid data] ++ more) (harr : ∀ k, arrivedOn k more = [])
    (hdel : ∀ k, deliveredOn k more = []) (hsent : c'.connectSent = true ↔ SettingsArrived (c.log ++ [.arrived sid data]))
    (honce : (connectsOf c'.log).length = c'.connectSent.toNat) : c'.DemuxInv sent := by
  have harrived : ∀ k, arrivedOn k c'.log = arrivedOn k (c.log ++ [.arrived sid data]) := fun k => by
    rw [hlog, arrivedOn_append _ _ more, harr, append_nil]
  have hdelivered : ∀ k, deliveredOn k c'.log = deliveredOn k c.log := fun k => by
    rw [hlog, deliveredOn_append, deliveredOn_append, hdel, append_nil]
    exact append_nil _
  refine ⟨fun k hk => ?_, fun k hk => ?_, ?_, honce⟩
  · rw [hfind, hdelivered]
    exact h.h3 k hk
  · have hne : sid ≠ k := by
      rintro rfl
      exact hsid hk
    have hstripped : c'.stripped k = c.stripped k := by
      unfold stripped
      rw [hfind]
    rw [hdelivered, harrived, hstripped, arrivedOn_append, arrivedOn_arrived, if_neg hne, append_nil]
    exact h.wt k hk
  · rw [hsent]
    unfold SettingsArrived
    simp only [harrived]

theorem DemuxInv.settled_same {sent : Nat → List Byte} {c : WtClient} (h : c.DemuxInv sent) {sid : Nat} {data : List Byte}
    (hset : c.connectSent = false → (c.TakesSettings sid data ↔ sid % 4 = 3 ∧ HasSettings (arrivedOn sid c.log ++ data)))
    (hnot : c.connectSent = false → ¬c.TakesSettings sid data) :
    c.connectSent = true ↔ SettingsArrived (c.log ++ [.arrived sid data]) := by
  rw [settingsArrived_snoc, ← h.settled]
  cases hsent : c.connectSent with
  | true => simp
  | false =>
    have hno := mt (hset hsent).2 (hnot hsent)
    simp [hno]

theorem deliveredOn_deliver (sid k : Nat) (payload : List Byte) :
    deliveredOn k (if payload = [] then [] else [.onStreamData sid payload]) = if sid = k then payload else [] := by
  by_cases hp : payload = []
  · rw [if_pos hp, hp]
    simp [deliveredOn]
  · rw [if_neg hp, deliveredOn_data]

theorem deliver_quiet (sid k : Nat) (payload : List Byte) : arrivedOn k (if payload = [] then [] else [.onStreamData sid payload])
    = [] ∧ connectsOf (if payload = [] then [] else [.onStreamData sid payload]) = [] := by
  by_cases hp : payload = []
  · rw [if_pos hp]
    exact ⟨rfl, rfl⟩
  · rw [if_neg hp]
    exact ⟨rfl, rfl⟩

theorem DemuxInv.onWtData {sent : Nat → List Byte} {c : WtClient} (h : c.DemuxInv sent) {sid : Nat} {data : List Byte}
    (hnot : ¬IsH3Stream sid (sent sid)) (hwt : IsWtStream (sent sid) → data = [] ∨ c.stripped sid = true ∨
    (wtHeaderLen data).isSome) (hset : c.connectSent = true ↔ SettingsArrived (c.log ++ [.arrived sid data])) :
    ((c.note (.arrived sid data)).onWtData sid data).DemuxInv sent := by
  obtain ⟨s, hold, hnew, hself, hothers, streams, heq⟩ := onWtData_spec (c.note (.arrived sid data)) sid data
  generalize hheader : (if s.headerStripped = false ∧ 2 ≤ data.length then wtHeaderLen data else none) = header at hself heq
  generalize hpayload : header.elim data data.drop = payload at heq
  generalize hc' : (c.note (.arrived sid data)).onWtData sid data = c' at hself hothers heq ⊢
  have hlog : c'.log = c.log ++ [.arrived sid data] ++ if payload = [] then [] else [.onStreamData sid payload] := by
    rw [heq]
    rfl
  have hsent : c'.connectSent = c.connectSent := by rw [heq]; rfl
  have hstripped : c.stripped sid = s.headerStripped := by
    unfold stripped
    cases hfind : c.findStream sid with
    | none => exact (hnew hfind).symm
    | some r => rw [hold r hfind]; rfl
  have harrived : ∀ k, arrivedOn k c'.log = arrivedOn k c.log ++ if sid = k then data else [] := fun k => by
    rw [hlog, arrivedOn_append, arrivedOn_append, arrivedOn_arrived, (deliver_quiet sid k payload).1, append_nil]
  have hdelivered : ∀ k, deliveredOn k c'.log = deliveredOn k c.log ++ if sid = k then payload else [] := fun k => by
    rw [hlog, deliveredOn_append, deliveredOn_append, deliveredOn_deliver]
    exact congrArg (· ++ _) (append_nil _)
  have hfind : ∀ k, k ≠ sid → c'.findStream k = c.findStream k := hothers
  refine ⟨fun k hk => ?_, fun k hk => ?_, ?_, ?_⟩
  · have hne : k ≠ sid := by
      rintro rfl
      exact hnot hk
    rw [hfind k hne, hdelivered, if_neg (Ne.symm hne), append_nil]
    exact h.h3 k hk
  · by_cases hks : k = sid
    · subst hks
      have hstripped' : c'.stripped k = (s.headerStripped || header.isSome) := by
        unfold stripped
        rw [hself]
        rfl
      have hwas := h.wt k hk
      rw [hstripped] at hwas
      rw [hdelivered, harrived, if_pos rfl, if_pos rfl, hstripped', ← hpayload]
      exact strip_chunk (hheader.symm.trans (header_look (by omega))) (hstripped ▸ hwt hk) hwas
    · have hstripped' : c'.stripped k = c.stripped k := by
        unfold stripped
        rw [hfind k hks]
      rw [hdelivered, harrived, if_neg (Ne.symm hks), if_neg (Ne.symm hks), append_nil, append_nil, hstripped']
      exact h.wt k hk
  · rw [hsent, hset]
    unfold SettingsArrived
    simp only [harrived, arrivedOn_append, arrivedOn_arrived]
  · rw [hlog, connectsOf_append, connectsOf_append, (deliver_quiet sid 0 payload).2, hsent, append_nil]
    exact (congrArg List.length (append_nil _)).trans h.once

theorem DemuxInv.not_wt {sent : Nat → List Byte} {c : WtClient} {sid : Nat} {data : List Byte}
    (hwt : IsWtStream (sent sid) → data = [] ∨ c.stripped sid = true ∨ (wtHeaderLen data).isSome)
    (hnone : c.findStream sid = none) (htype : (builtinType data).isSome) : ¬IsWtStream (sent sid) := by
  intro hk
  obtain ⟨⟨ty, n⟩, hr⟩ := Option.isSome_iff_exists.1 htype
  obtain ⟨hdec, hle⟩ := Option.filter_eq_some_iff.1 hr
  rcases hwt hk with rfl | hst | hhead
  · cases hdec
  · unfold stripped at hst
    rw [hnone] at hst
    cases hst
  · obtain ⟨m, hm⟩ := Option.isSome_iff_exists.1 hhead
    obtain ⟨ftype, k, -, -, hlow, -, hdec', -, -⟩ := wtHeaderLen_some hm
    rw [hdec'] at hdec
    simp only [Option.some.injEq, Prod.mk.injEq] at hdec
    have hsmall : ty ≤ 3 := of_decide_eq_true hle
    omega

theorem DemuxInv.onQuicStream {sent : Nat → List Byte} {c : WtClient} (h : c.DemuxInv sent) {sid : Nat} {data : List Byte}
    {connectSid : Option Nat} (hok : DemuxOk sent c (.quicStream sid data connectSid)) :
    (c.onQuicStream sid data connectSid).DemuxInv sent := by
  obtain ⟨hh3, hwt, hset⟩ := hok
  have hsame := h.settled_same (fun hs => (hset hs).1)
  rcases onQuicStream_cases c sid data connectSid with ⟨-, hnone, htype, hunsent, htakes, heq⟩ |
    ⟨-, hnone, htype, hnot, heq⟩ | ⟨hother, ⟨hwaits, heq⟩ | ⟨-, heq⟩⟩
  · obtain ⟨k, rfl⟩ := Option.isSome_iff_exists.1 ((hset hunsent).2 htakes)
    obtain ⟨hdr, hconnect⟩ :=
      sendWtConnect_eq { c.note (.arrived sid data) with connectSent := true, state := .connectingWt } k
    have harr : SettingsArrived (c.log ++ [.arrived sid data]) :=
      (settingsArrived_snoc _ _ _).2 (.inr (((hset hunsent).1).1 htakes))
    rw [heq, hconnect]
    refine h.passed _ (DemuxInv.not_wt (fun hk => (hwt hk).2) hnone htype) (fun _ => rfl) rfl (fun _ => rfl) (fun _ => rfl)
      (iff_of_true rfl harr) ?_
    have honce := h.once
    rw [hunsent] at honce
    change (connectsOf (c.log ++ [.arrived sid data] ++ [.connect k hdr])).length = 1
    rw [connectsOf_append, connectsOf_append, length_append, length_append, honce]
    rfl
  · rw [heq]
    refine h.passed [] (DemuxInv.not_wt (fun hk => (hwt hk).2) hnone htype) (fun _ => rfl) (append_nil _).symm
      (fun _ => rfl) (fun _ => rfl) (hsame hnot) ?_
    exact (congrArg List.length (connectsOf_append _ _)).trans ((congrArg List.length (append_nil _)).trans h.once)
  · have hnot : c.connectSent = false → ¬c.TakesSettings sid data := fun _ ht => hother ⟨ht.1, ht.2.1, by
      have hany := ht.2.2
      cases htype : builtinType data with
      | none => rw [htype] at hany; cases hany
      | some r => rfl⟩
    rw [heq]
    refine h.passed _ (fun hk => (hwt hk).1 hwaits) (fun _ => rfl) rfl (fun _ => rfl) (fun _ => rfl) (hsame hnot) ?_
    change (connectsOf (c.log ++ [.arrived sid data] ++ [.onConnect])).length = c.connectSent.toNat
    rw [connectsOf_append, connectsOf_append, append_assoc]
    exact (congrArg List.length (append_nil _)).trans h.once
  · have hnot : c.connectSent = false → ¬c.TakesSettings sid data := fun _ ht => hother ⟨ht.1, ht.2.1, by
      have hany := ht.2.2
      cases htype : builtinType data with
      | none => rw [htype] at hany; cases hany
      | some r => rfl⟩
    rw [heq]
    refine h.onWtData (fun hk => ?_) (fun hk => (hwt hk).2) (hsame hnot)
    exact hother ⟨hk.1, (h.h3 sid hk).1, hh3 hk⟩

theorem DemuxInv.runTask {sent : Nat → List Byte} {c : WtClient} (h : c.DemuxInv sent) {t : WtTask} {sid : Option Nat}
    (hok : DemuxOk sent c (.turn t sid)) : (c.runTask t sid).DemuxInv sent := by
  cases t with
  | connect host path port =>
    unfold WtClient.runTask
    dsimp only
    split
    · exact h.congr (fun _ _ hn => hn) (fun _ => rfl) (append_nil _).symm (fun _ => rfl) (fun _ => rfl) rfl rfl
    · exact h
  | close => exact h.congr (fun _ _ hn => hn) (fun _ => rfl) (append_nil _).symm (fun _ => rfl) (fun _ => rfl) rfl rfl
  | openStream isUni =>
    unfold WtClient.runTask
    dsimp only
    split
    · cases sid with
      | none => exact h
      | some sid =>
        obtain ⟨hid, hnew, -⟩ := hok
        have hours : sid % 4 ≠ 3 := by split at hid <;> omega
        refine h.congr (fun k hk hn => ?_) (fun k => ?_) rfl (fun _ => rfl) (fun _ => rfl) rfl rfl
        · have hne : sid ≠ k := by
            rintro rfl
            exact hours hk
          simpa [doOpenStream, note, findStream, lookup, hne] using hn
        · by_cases hk : sid = k
          · subst hk
            have hbefore : c.stripped sid = false := by
              unfold stripped
              rw [hnew]
              rfl
            rw [hbefore]
            simp [stripped, doOpenStream, note, findStream, lookup]
          · simp [stripped, doOpenStream, note, findStream, lookup, hk]
    · exact h
  | streamWrite k =>
    unfold WtClient.runTask
    dsimp only
    split
    · exact h
    · rename_i s hs
      split
      · exact h
      · have hid : s.streamId = k := lookup_key _ hs
        subst hid
        have hself := lookup_store_self WtStream.streamId (r := { s with headerSent := true }) hs
        have hother : ∀ j, j ≠ s.streamId → lookup WtStream.streamId j
            (store WtStream.streamId { s with headerSent := true } c.streams) = c.findStream j := fun j hj =>
          lookup_store_ne WtStream.streamId (r := { s with headerSent := true }) hj _
        refine h.congr (fun j _ hn => ?_) (fun j => ?_) (append_nil _).symm (fun _ => rfl) (fun _ => rfl) rfl rfl
        · have hne : j ≠ s.streamId := by
            rintro rfl
            exact Option.some_ne_none s (hs.symm.trans hn)
          exact (hother j hne).trans hn
        · unfold stripped
          by_cases hj : j = s.streamId
          · subst hj
            rw [hs]
            exact (congrArg (Option.any WtStream.headerStripped) hself).trans rfl
          · exact congrArg (Option.any WtStream.headerStripped) (hother j hj)

theorem DemuxInv.step {sent : Nat → List Byte} {c : WtClient} (h : c.DemuxInv sent) (i : WtInput) (hok : DemuxOk sent c i) :
    (c.step i).DemuxInv sent := by
  cases i with
  | turn t sid => exact h.runTask hok
  | quicConnected =>
    exact h.congr (fun _ _ hn => hn) (fun _ => rfl) (append_nil _).symm (fun _ => rfl) (fun _ => rfl) rfl rfl
  | quicStream sid data connectSid => exact h.onQuicStream hok
  | quicClose => exact h.congr (fun _ _ hn => hn) (fun _ => rfl) rfl (fun _ => rfl) (fun _ => rfl) rfl rfl

/-- **The server's streams are told apart** in every run whose chunks are cut where the client looks. -/
theorem demuxed_run (sent : Nat → List Byte) (is : List WtInput) (hok : StepsOk step (DemuxOk sent) {} is) :
    Demuxed sent (run is).log := by
  have hstart : ({} : WtClient).DemuxInv sent := by
    have hnothing : ¬HasSettings [] := by decide
    refine ⟨fun _ _ => ⟨rfl, rfl⟩, fun _ _ => ⟨rfl, fun hc => (nomatch hc), fun _ => rfl⟩, ?_, rfl⟩
    exact iff_of_false (fun hc => (nomatch hc)) fun ⟨_, _, hset⟩ => hnothing hset
  exact (foldl_inv step (DemuxOk sent) (DemuxInv sent) (fun _ i h ho => h.step i ho) is _ hstart hok).demuxed

/-- SETTINGS on stream 3, the answer on stream 0, and an object on stream 15 in two chunks. -/
def demuxSample : List WtInput :=
  [.turn (.connect (h3Text "localhost") (h3Text "/moq") 443) none, .quicConnected, .quicStream 3 [0x00, 0x04, 0x00] (some 0),
    .quicStream 0 [0x01, 0x00] none, .quicStream 15 [0x40, 0x54, 0x00, 0x07] none, .quicStream 15 [0x00, 0x08] none]

def demuxSent : Nat → List Byte
  | 3 => [0x00, 0x04, 0x00, 0x07, 0x01, 0x00]
  | 15 => [0x40, 0x54, 0x00, 0x07, 0x00, 0x08]
  | _ => [0x01, 0x00]

theorem demuxed_sample : StepsOk step (DemuxOk demuxSent) {} demuxSample ∧ Demuxed demuxSent (run demuxSample).log := by
  have hok : StepsOk step (DemuxOk demuxSent) {} demuxSample := by decide +kernel
  exact ⟨hok, demuxed_run demuxSent demuxSample hok⟩

/-- **A GOAWAY in a chunk of its own goes to the application**: it does not begin with the type of its stream. -/
theorem goaway_delivered : ¬∀ (sent : Nat → List Byte) (is : List WtInput), Demuxed sent (run is).log := by
  intro hall
  have hh3 := ((hall demuxSent (demuxSample ++ [.quicStream 3 [0x07, 0x01, 0x00] none])).1 3).1 (by decide +kernel)
  revert hh3
  decide +kernel

end WtClient

end MoqLiveCast
