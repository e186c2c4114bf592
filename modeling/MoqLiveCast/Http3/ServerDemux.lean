import MoqLiveCast.Http3.ServerSessions
/-!
# ServerDemux — what a server makes of the streams of a session

A uni stream is of WebTransport if its chunk begins with the type, or if the stream is remembered; a stream is stripped of its header
by the first chunk that begins with all of it.
-/
namespace MoqLiveCast

open List

def IsClientWtStream (sid : Nat) (content : List Byte) : Prop :=
  (wtHeaderLen content).isSome ∧ ((sid % 4 = 0 ∧ (quicVarintDecode content).any fun r => r.1 = 0x41) ∨
      (sid % 4 = 2 ∧ (quicVarintDecode content).any fun r => r.1 = H3_STREAM_TYPE_WEBTRANSPORT))

def IsClientH3Stream (sid : Nat) (content : List Byte) : Prop :=
  sid % 4 = 2 ∧ (quicVarintDecode content).any fun r => r.1 ≤ H3_STREAM_TYPE_QPACK_DEC

instance (sid : Nat) (content : List Byte) : Decidable (IsClientWtStream sid content) := inferInstanceAs (Decidable (_ ∧ _))
instance (sid : Nat) (content : List Byte) : Decidable (IsClientH3Stream sid content) := inferInstanceAs (Decidable (_ ∧ _))

def arrivedFrom (c : QuicPeer) (sid : Nat) (log : List H3Event) : List Byte := log.flatMap fun
  | .arrived c' k data => if c' = c ∧ k = sid then data else []
  | _ => []

def passedOn (id sid : Nat) (log : List H3Event) : List Byte := log.flatMap fun
  | .onStreamData id' k data => if id' = id ∧ k = sid then data else []
  | _ => []

/-- **The streams are told apart**: what the client sends on each is `sent`. -/
def ClientDemuxed (sent : Nat → List Byte) (c : QuicPeer) (id : Nat) (log : List H3Event) : Prop :=
  ∀ sid, (IsClientWtStream sid (sent sid) → passedOn id sid log = wtPayload (arrivedFrom c sid log)) ∧
    (IsClientH3Stream sid (sent sid) → passedOn id sid log = [])

structure H3Chunk where
  sid : Nat
  data : List Byte
  fin : Bool := false
deriving DecidableEq

namespace H3Server

/-- The connection has a session, of which no stream has begun. -/
structure Established (s : H3Server) (c : QuicPeer) (id : Nat) : Prop where
  found : s.registryFind c = some id
  session : (s.findSession id).map WtSession.streams = some []
  unis : ∀ sid, s.isWtUni c sid = false

def chunks (s : H3Server) (c : QuicPeer) (xs : List H3Chunk) : H3Server :=
  xs.foldl (fun s x => s.onStreamData c x.sid x.data x.fin) { s with log := [] }

def stripped (s : H3Server) (id sid : Nat) : Bool :=
  (s.findSession id).any fun w => (lookup WtPeerStream.streamId sid w.streams).any WtPeerStream.headerStripped

/-- **The condition**: a chunk of a WebTransport stream is empty, or it begins with the whole header or comes when that was stripped,
the stream is not the first one, and on a uni stream the chunk begins with the type or the stream is remembered; and no chunk of a
stream of HTTP/3 itself begins with the type of a WebTransport stream. -/
def ChunkOk (sent : Nat → List Byte) (c : QuicPeer) (id : Nat) (s : H3Server) (x : H3Chunk) : Prop :=
  (IsClientWtStream x.sid (sent x.sid) → x.data = [] ∨ ((s.stripped id x.sid = true ∨ (wtHeaderLen x.data).isSome) ∧ 0 < x.sid ∧
    (x.sid % 4 = 2 → s.isWtUni c x.sid = true ∨ beginsWt x.data = true))) ∧
  (IsClientH3Stream x.sid (sent x.sid) → beginsWt x.data = false)

instance (sent : Nat → List Byte) (c : QuicPeer) (id : Nat) (s : H3Server) (x : H3Chunk) : Decidable (ChunkOk sent c id s x) :=
  inferInstanceAs (Decidable (_ ∧ _))

/-! ## The data path of a session -/

theorem withStream_spec (w : WtSession) (sid : Nat) (isUni : Bool) : ∃ st : WtPeerStream, st.streamId = sid ∧
    (WtSession.withStream w sid isUni).2 = st ∧
    lookup WtPeerStream.streamId sid (WtSession.withStream w sid isUni).1.streams = some st ∧
    st.headerStripped = (lookup WtPeerStream.streamId sid w.streams).any WtPeerStream.headerStripped ∧
    (∀ k, k ≠ sid → lookup WtPeerStream.streamId k (WtSession.withStream w sid isUni).1.streams =
      lookup WtPeerStream.streamId k w.streams) ∧ (WtSession.withStream w sid isUni).1.sessionId = w.sessionId := by
  unfold WtSession.withStream
  cases hfind : lookup WtPeerStream.streamId sid w.streams with
  | some st => exact ⟨st, lookup_key _ hfind, rfl, hfind, rfl, fun _ _ => rfl, rfl⟩
  | none =>
    refine ⟨_, rfl, rfl, by simp [lookup], rfl, fun k hk => ?_, rfl⟩
    simp [lookup, Ne.symm hk]

theorem deliver_eq (s : H3Server) (id sid : Nat) (payload : List Byte) : s.deliver id sid payload =
    { s with log := s.log ++ if payload = [] then [] else [.onStreamData id sid payload] } := by
  unfold deliver
  split
  · rw [append_nil]
  · rfl

variable {s : H3Server}

theorem stripped_of_find {id : Nat} {w : WtSession} (hw : s.findSession id = some w) (sid : Nat) :
    s.stripped id sid = (lookup WtPeerStream.streamId sid w.streams).any WtPeerStream.headerStripped := by
  unfold stripped
  rw [hw]
  rfl

theorem onInternalWtStream_spec {id : Nat} {w : WtSession} (hw : s.findSession id = some w) (sid : Nat) (isUni : Bool)
    (data : List Byte) :
    let header := if s.stripped id sid = false ∧ 0 < data.length then wtHeaderLen data else none
    let payload := header.elim data data.drop
    ∃ w' : WtSession, w'.sessionId = id ∧
      (lookup WtPeerStream.streamId sid w'.streams).any WtPeerStream.headerStripped = (s.stripped id sid || header.isSome) ∧
      (∀ k, k ≠ sid → lookup WtPeerStream.streamId k w'.streams = lookup WtPeerStream.streamId k w.streams) ∧
      s.onInternalWtStream id sid isUni data = { s with
        sessions := store WtSession.sessionId w' s.sessions
        log := s.log ++ if payload = [] then [] else [.onStreamData id sid payload] } := by
  have hid : w.sessionId = id := lookup_key _ hw
  obtain ⟨st, rfl, hst, hfound, hflag, hothers, hsame⟩ := withStream_spec w sid isUni
  rw [stripped_of_find hw, ← hflag]
  unfold onInternalWtStream
  rw [hw]
  dsimp only
  rw [hst]
  generalize (WtSession.withStream w st.streamId isUni).1 = w₁ at hfound hothers hsame ⊢
  cases (if st.headerStripped = false ∧ 0 < data.length then wtHeaderLen data else none) with
  | some n =>
    rw [Option.isSome_some, Bool.or_true]
    refine ⟨{ w₁ with streams := store WtPeerStream.streamId { st with headerStripped := true } w₁.streams }, hsame.trans hid, ?_,
      fun k hk => ?_, deliver_eq _ _ _ _⟩
    · exact congrArg (Option.any _) (lookup_store_self WtPeerStream.streamId (r := { st with headerStripped := true }) hfound)
    · exact (lookup_store_ne WtPeerStream.streamId (r := { st with headerStripped := true }) hk _).trans (hothers k hk)
  | none =>
    rw [Option.isSome_none, Bool.or_false]
    exact ⟨w₁, hsame.trans hid, congrArg (Option.any _) hfound, hothers, deliver_eq _ _ _ _⟩

/-! ## The streams that are remembered -/

theorem isWtUni_setConn {c : QuicPeer} {hc : H3Conn} (hfind : s.findConn c = some hc) (unis : List Nat) (k : Nat) :
    (s.setConn { hc with wtUni := unis }).isWtUni c k = unis.contains k := by
  have haddr : hc.conn.addr = c.addr := lookup_key (fun hc : H3Conn => hc.conn.addr) hfind
  have hself : (s.setConn { hc with wtUni := unis }).findConn c = some { hc with wtUni := unis } := by
    unfold findConn at hfind ⊢
    rw [← haddr] at hfind ⊢
    exact lookup_store_self (fun hc : H3Conn => hc.conn.addr) (r := { hc with wtUni := unis }) hfind
  unfold isWtUni
  rw [hself]
  rfl

theorem isWtUni_find {c : QuicPeer} {hc : H3Conn} (hfind : s.findConn c = some hc) (k : Nat) :
    s.isWtUni c k = hc.wtUni.contains k := by
  unfold isWtUni
  rw [hfind]
  rfl

theorem rememberWtUni_spec (s : H3Server) (c : QuicPeer) (sid : Nat) :
    (∀ k, (s.rememberWtUni c sid).isWtUni c k = true → s.isWtUni c k = true ∨ k = sid) ∧
      ∃ conns, s.rememberWtUni c sid = { s with conns := conns } := by
  unfold rememberWtUni
  cases hfind : s.findConn c with
  | none => exact ⟨fun _ h => .inl h, _, rfl⟩
  | some hc =>
    dsimp only
    split
    · exact ⟨fun _ h => .inl h, _, rfl⟩
    · split
      · refine ⟨fun k h => ?_, _, rfl⟩
        rw [isWtUni_setConn hfind] at h
        rw [isWtUni_find hfind]
        simpa using h
      · refine ⟨fun k h => ?_, _, rfl⟩
        rw [isWtUni_setConn hfind] at h
        rw [isWtUni_find hfind]
        simp only [contains_eq_mem, mem_append, mem_singleton, decide_eq_true_eq] at h ⊢
        exact h.imp_left mem_of_mem_drop

theorem forgetWtUni_spec (s : H3Server) (c : QuicPeer) (sid : Nat) :
    (∀ k, (s.forgetWtUni c sid).isWtUni c k = true → s.isWtUni c k = true) ∧
      ∃ conns, s.forgetWtUni c sid = { s with conns := conns } := by
  unfold forgetWtUni
  cases hfind : s.findConn c with
  | none => exact ⟨fun _ h => h, _, rfl⟩
  | some hc =>
    dsimp only
    split
    · exact ⟨fun _ h => h, _, rfl⟩
    · rename_i i hi
      obtain ⟨hlt, -⟩ := findIdx?_eq_some_iff_getElem.1 hi
      refine ⟨fun k h => ?_, _, rfl⟩
      rw [isWtUni_setConn hfind] at h
      rw [isWtUni_find hfind]
      simp only [contains_eq_mem, decide_eq_true_eq] at h ⊢
      exact mem_of_mem_eraseIdx ((swapRemove_perm hlt).mem_iff.1 h)

end H3Server

/-! ## Reading the log -/

section

variable (c : QuicPeer) (id sid k : Nat) (log : List H3Event) (data : List Byte)

@[simp] theorem arrivedFrom_append (more : List H3Event) : arrivedFrom c k (log ++ more) = arrivedFrom c k log ++ arrivedFrom c k more :=
  flatMap_append

@[simp] theorem passedOn_append (more : List H3Event) : passedOn id k (log ++ more) = passedOn id k log ++ passedOn id k more :=
  flatMap_append

theorem arrivedFrom_arrived : arrivedFrom c k [.arrived c sid data] = if sid = k then data else [] := by
  simp [arrivedFrom]

theorem passedOn_deliver : passedOn id k (if data = [] then [] else [.onStreamData id sid data]) = if sid = k then data else [] := by
  by_cases hd : data = []
  · rw [if_pos hd, hd]
    simp [passedOn]
  · rw [if_neg hd]
    simp [passedOn]

theorem arrivedFrom_deliver : arrivedFrom c k (if data = [] then [] else [.onStreamData id sid data]) = [] := by
  split <;> rfl

end

namespace H3Server

/-! ## The invariant -/

/-- A stream of HTTP/3 itself is not remembered, and nothing of it was passed on; a WebTransport stream has brought its header when it
is stripped, and nothing before. -/
structure DemuxInv (sent : Nat → List Byte) (c : QuicPeer) (id : Nat) (s : H3Server) : Prop where
  found : s.registryFind c = some id
  session : (s.findSession id).isSome
  h3 : ∀ sid, IsClientH3Stream sid (sent sid) → s.isWtUni c sid = false ∧ passedOn id sid s.log = []
  wt : ∀ sid, IsClientWtStream sid (sent sid) → passedOn id sid s.log = wtPayload (arrivedFrom c sid s.log) ∧
    (s.stripped id sid = true → (wtHeaderLen (arrivedFrom c sid s.log)).isSome) ∧
    (s.stripped id sid = false → arrivedFrom c sid s.log = [])

variable {c : QuicPeer} {id : Nat} {s : H3Server}

theorem Established.inv (h : s.Established c id) (sent : Nat → List Byte) : { s with log := [] }.DemuxInv sent c id := by
  refine ⟨h.found, ?_, fun sid _ => ⟨h.unis sid, rfl⟩, fun sid _ => ⟨rfl, fun hst => ?_, fun _ => rfl⟩⟩
  · obtain ⟨w, hw, -⟩ := Option.map_eq_some_iff.1 h.session
    exact Option.isSome_iff_exists.2 ⟨w, hw⟩
  · obtain ⟨w, hw, hempty⟩ := Option.map_eq_some_iff.1 h.session
    have hnot : s.stripped id sid = false := by
      rw [stripped_of_find hw, hempty]
      rfl
    exact absurd hst (by rw [show ({ s with log := [] } : H3Server).stripped id sid = false from hnot]; simp)

theorem DemuxInv.unhanded {sent : Nat → List Byte} {s s' : H3Server} (h : s.DemuxInv sent c id)
    {sid : Nat} {data : List Byte} {more : List H3Event} (hsid : data = [] ∨ ¬IsClientWtStream sid (sent sid))
    (hfound : s'.registryFind c = s.registryFind c) (hsession : s'.findSession id = s.findSession id) (hconns : s'.conns = s.conns)
    (hlog : s'.log = s.log ++ [.arrived c sid data] ++ more) (harr : ∀ k, arrivedFrom c k more = [])
    (hpass : ∀ k, passedOn id k more = []) : s'.DemuxInv sent c id := by
  have harrived : ∀ k, arrivedFrom c k s'.log = arrivedFrom c k s.log ++ if sid = k then data else [] := fun k => by
    rw [hlog, arrivedFrom_append, arrivedFrom_append, arrivedFrom_arrived, harr, append_nil]
  have hpassed : ∀ k, passedOn id k s'.log = passedOn id k s.log := fun k => by
    rw [hlog, passedOn_append, passedOn_append, hpass, append_nil]
    exact append_nil _
  have hstripped : ∀ k, s'.stripped id k = s.stripped id k := fun k => by
    unfold stripped
    rw [hsession]
  refine ⟨hfound.trans h.found, hsession ▸ h.session, fun k hk => ?_, fun k hk => ?_⟩
  · have huni : s'.isWtUni c k = s.isWtUni c k := by
      unfold isWtUni findConn
      rw [hconns]
    rw [huni, hpassed]
    exact h.h3 k hk
  · have hnothing : (if sid = k then data else []) = [] := by
      rcases hsid with hd | hsid
      · rw [hd]
        exact ite_self _
      · exact if_neg fun he : sid = k => hsid (he ▸ hk)
    rw [hpassed, harrived, hnothing, append_nil, hstripped]
    exact h.wt k hk

theorem DemuxInv.handed {sent : Nat → List Byte} {s s' : H3Server} (h : s.DemuxInv sent c id)
    {sid : Nat} {data : List Byte} (hnot : ¬IsClientH3Stream sid (sent sid))
    (hwt : IsClientWtStream sid (sent sid) → data = [] ∨ s.stripped id sid = true ∨ (wtHeaderLen data).isSome)
    (hfound : s'.registryFind c = s.registryFind c) (hsession : (s'.findSession id).isSome)
    (hothers : ∀ k, k ≠ sid → s'.stripped id k = s.stripped id k)
    (huni : ∀ k, s'.isWtUni c k = true → s.isWtUni c k = true ∨ k = sid) {header : Option Nat}
    (hheader : header = if s.stripped id sid = false ∧ 0 < data.length then wtHeaderLen data else none)
    (hself : s'.stripped id sid = (s.stripped id sid || header.isSome)) {payload : List Byte} (hpayload : payload = header.elim data data.drop)
    (hlog : s'.log = s.log ++ [.arrived c sid data] ++ [.wtChunk id c sid data] ++
      if payload = [] then [] else [.onStreamData id sid payload]) : s'.DemuxInv sent c id := by
  have harrived : ∀ k, arrivedFrom c k s'.log = arrivedFrom c k s.log ++ if sid = k then data else [] := fun k => by
    rw [hlog, arrivedFrom_append, arrivedFrom_append, arrivedFrom_append, arrivedFrom_arrived, arrivedFrom_deliver, append_nil]
    exact append_nil _
  have hpassed : ∀ k, passedOn id k s'.log = passedOn id k s.log ++ if sid = k then payload else [] := fun k => by
    rw [hlog, passedOn_append, passedOn_append, passedOn_append, passedOn_deliver]
    exact congrArg (· ++ _) ((append_nil _).trans (append_nil _))
  refine ⟨hfound.trans h.found, hsession, fun k hk => ?_, fun k hk => ?_⟩
  · have hne : k ≠ sid := by
      rintro rfl
      exact hnot hk
    obtain ⟨hunknown, hnone⟩ := h.h3 k hk
    rw [hpassed, if_neg (Ne.symm hne), append_nil]
    refine ⟨Bool.eq_false_iff.2 fun hyes => ?_, hnone⟩
    rcases huni k hyes with hold | hk
    · exact Bool.false_ne_true (hunknown.symm.trans hold)
    · exact hne hk
  · by_cases hks : k = sid
    · subst hks
      rw [hpassed, harrived, if_pos rfl, if_pos rfl, hself, hpayload]
      exact strip_chunk (hheader.trans (header_look (by omega))) (hwt hk) (h.wt k hk)
    · rw [hpassed, harrived, if_neg (Ne.symm hks), if_neg (Ne.symm hks), append_nil, append_nil, hothers k hks]
      exact h.wt k hk

theorem DemuxInv.wtStreamData {sent : Nat → List Byte} (h : s.DemuxInv sent c id)
    {sid : Nat} {data : List Byte} (hnot : ¬IsClientH3Stream sid (sent sid))
    (hwt : IsClientWtStream sid (sent sid) → data = [] ∨ s.stripped id sid = true ∨ (wtHeaderLen data).isSome)
    (isUni : Bool) {conns : List H3Conn}
    (huni : ∀ k, ({ s with conns := conns } : H3Server).isWtUni c k = true → s.isWtUni c k = true ∨ k = sid) :
    (({ s.note (.arrived c sid data) with conns := conns } : H3Server).wtStreamData id c sid isUni data).DemuxInv sent c id := by
  obtain ⟨w, hw⟩ := Option.isSome_iff_exists.1 h.session
  generalize hs₀ : ({ s.note (.arrived c sid data) with conns := conns } : H3Server).note (.wtChunk id c sid data) = s₀
  have hw₀ : s₀.findSession id = some w := by rw [← hs₀]; exact hw
  obtain ⟨w', hid, hself, hothers, heq⟩ := onInternalWtStream_spec hw₀ sid isUni data
  subst hs₀
  have hfind : ∀ s' : H3Server, s'.sessions = store WtSession.sessionId w' s.sessions → s'.findSession id = some w' := fun s' hs => by
    subst hid
    unfold findSession
    rw [hs]
    exact lookup_store_self WtSession.sessionId hw
  have hstripped : ∀ k, (lookup WtPeerStream.streamId k w.streams).any WtPeerStream.headerStripped = s.stripped id k :=
    fun k => (stripped_of_find hw k).symm
  unfold H3Server.wtStreamData
  rw [heq]
  refine h.handed hnot hwt rfl (Option.isSome_iff_exists.2 ⟨w', hfind _ rfl⟩) (fun k hk => ?_) huni rfl ?_ rfl rfl
  · rw [← hstripped, ← hothers k hk]
    exact stripped_of_find (hfind _ rfl) k
  · exact (stripped_of_find (hfind _ rfl) sid).trans hself

theorem acceptSession_behind (hfound : s.registryFind c = some id) (hsession : (s.findSession id).isSome) (sid : Nat) :
    (s.acceptSession c sid).registryFind c = s.registryFind c ∧ (s.acceptSession c sid).findSession id = s.findSession id ∧
    (s.acceptSession c sid).conns = s.conns ∧ (s.acceptSession c sid).log = s.log ++ [.onWtSession (s.sessions.length + 1) c
    sid] := by
  obtain ⟨r, hr, -⟩ := Option.map_eq_some_iff.1 hfound
  obtain ⟨w, hw⟩ := Option.isSome_iff_exists.1 hsession
  have hregistry : ∀ r' : QuicPeer × Nat, lookup (fun r : QuicPeer × Nat => r.1.addr) c.addr (s.registry ++ [r']) = some r :=
    fun r' => List.find?_append.trans (congrArg (Option.or · _) hr)
  have hsessions : ∀ w' : WtSession, lookup WtSession.sessionId id (s.sessions ++ [w']) = some w :=
    fun w' => List.find?_append.trans (congrArg (Option.or · _) hw)
  unfold acceptSession registryAdd
  dsimp only
  split
  · exact ⟨congrArg (Option.map _) ((hregistry _).trans hr.symm), (hsessions _).trans hw.symm, rfl, rfl⟩
  · exact ⟨rfl, (hsessions _).trans hw.symm, rfl, rfl⟩

theorem DemuxInv.request {sent : Nat → List Byte} (h : s.DemuxInv sent c id)
    {sid : Nat} {data : List Byte} (hsid : data = [] ∨ ¬IsClientWtStream sid (sent sid)) :
    ((requestOf data).elim (s.note (.arrived c sid data)) fun r => (s.note (.arrived c sid data)).onServerRequest c sid r.1 r.2).DemuxInv
      sent c id := by
  cases requestOf data with
  | none => exact h.unhanded hsid rfl rfl rfl (append_nil _).symm (fun _ => rfl) (fun _ => rfl)
  | some r =>
    obtain ⟨headers, body⟩ := r
    dsimp only [Option.elim]
    unfold onServerRequest
    dsimp only
    split
    · generalize hs₁ : ({ (s.note (.arrived c sid data)).note (.onReq c sid headers body) with
        qpack := (parseHeadersQpack headers s.qpack).2 } : H3Server) = s₁
      have hfound : s₁.registryFind c = some id := hs₁ ▸ h.found
      have hsession : (s₁.findSession id).isSome := hs₁ ▸ h.session
      obtain ⟨hf, hses, hconns, hlog⟩ := acceptSession_behind hfound hsession sid
      subst hs₁
      exact h.unhanded hsid hf hses hconns (hlog.trans (append_assoc ..)) (fun _ => rfl) (fun _ => rfl)
    · exact h.unhanded hsid rfl rfl rfl rfl (fun _ => rfl) (fun _ => rfl)

theorem DemuxInv.not_h3 {sent : Nat → List Byte} (h : s.DemuxInv sent c id) {x : H3Chunk} (hok : ChunkOk sent c id s x)
    (hwt : s.isWtUni c x.sid = true ∨ beginsWt x.data = true) : ¬IsClientH3Stream x.sid (sent x.sid) := by
  intro hk
  rcases hwt with hyes | hyes
  · exact Bool.false_ne_true ((h.h3 _ hk).1.symm.trans hyes)
  · exact Bool.false_ne_true ((hok.2 hk).symm.trans hyes)

theorem DemuxInv.forget {sent : Nat → List Byte} (h : s.DemuxInv sent c id) (sid : Nat) :
    (s.forgetWtUni c sid).DemuxInv sent c id := by
  obtain ⟨hkeep, conns, heq⟩ := forgetWtUni_spec s c sid
  rw [heq] at hkeep ⊢
  refine ⟨h.found, h.session, fun k hk => ⟨Bool.eq_false_iff.2 fun hyes => ?_, (h.h3 k hk).2⟩, h.wt⟩
  exact Bool.false_ne_true ((h.h3 k hk).1.symm.trans (hkeep k hyes))

theorem DemuxInv.onUniData {sent : Nat → List Byte} (h : s.DemuxInv sent c id) {x : H3Chunk}
    (huni : x.sid % 4 = 2) (hok : ChunkOk sent c id s x) :
    ((s.note (.arrived c x.sid x.data)).onUniData id c x.sid x.data x.fin).DemuxInv sent c id := by
  unfold H3Server.onUniData
  dsimp only
  split
  · rename_i hknown
    have hnot := h.not_h3 hok hknown
    have hwt := fun hk => ((hok.1 hk).imp_right fun hr => hr.1)
    obtain ⟨conns, hkeep, heq⟩ : ∃ conns : List H3Conn,
        (∀ k, ({ s with conns := conns } : H3Server).isWtUni c k = true → s.isWtUni c k = true ∨ k = x.sid) ∧
        (if (s.note (.arrived c x.sid x.data)).isWtUni c x.sid then s.note (.arrived c x.sid x.data)
          else (s.note (.arrived c x.sid x.data)).rememberWtUni c x.sid) =
          { s.note (.arrived c x.sid x.data) with conns := conns } := by
      split
      · exact ⟨s.conns, fun _ hk => .inl hk, rfl⟩
      · obtain ⟨hkeep, conns, heq⟩ := rememberWtUni_spec (s.note (.arrived c x.sid x.data)) c x.sid
        rw [heq] at hkeep
        exact ⟨conns, hkeep, heq⟩
    rw [heq]
    have hgood := h.wtStreamData hnot hwt true hkeep
    split
    · exact hgood.forget x.sid
    · exact hgood
  · rename_i hunknown
    refine h.unhanded ?_ rfl rfl rfl (append_nil _).symm (fun _ => rfl) (fun _ => rfl)
    by_cases hk : IsClientWtStream x.sid (sent x.sid)
    · rcases hok.1 hk with hd | ⟨-, -, hyes⟩
      · exact .inl hd
      · exact absurd (hyes huni) hunknown
    · exact .inr hk

theorem DemuxInv.step {sent : Nat → List Byte} (h : s.DemuxInv sent c id) (x : H3Chunk)
    (hok : ChunkOk sent c id s x) : (s.onStreamData c x.sid x.data x.fin).DemuxInv sent c id := by
  have hfound : (s.note (.arrived c x.sid x.data)).registryFind c = some id := h.found
  unfold H3Server.onStreamData
  dsimp only
  rw [hfound]
  dsimp only
  split
  · rename_i hbidi
    have hnot : ¬IsClientH3Stream x.sid (sent x.sid) := fun hk => by
      have huni := hk.1
      omega
    exact h.wtStreamData hnot (fun hk => (hok.1 hk).imp_right fun hr => hr.1) false fun _ hk => .inl hk
  · rename_i hbidi
    split
    · exact h.onUniData ‹_› hok
    · rename_i huni
      refine h.request ?_
      by_cases hk : IsClientWtStream x.sid (sent x.sid)
      · rcases hok.1 hk with hd | ⟨-, hpos, -⟩
        · exact .inl hd
        · rcases hk.2 with hb | hu
          · exact absurd ⟨hpos, hb.1⟩ hbidi
          · exact absurd hu.1 huni
      · exact .inr hk

/-- **The client's streams are told apart** from when the session is established on, if their chunks are cut where the server looks
and its table holds the uni streams. -/
theorem streams_demuxed (sent : Nat → List Byte) (s : H3Server) (c : QuicPeer) (id : Nat) (h : s.Established c id) (xs : List H3Chunk)
    (hok : StepsOk (fun s x => s.onStreamData c x.sid x.data x.fin) (ChunkOk sent c id) { s with log := [] } xs) :
    ClientDemuxed sent c id (s.chunks c xs).log := by
  have hrun := foldl_inv (fun s x => s.onStreamData c x.sid x.data x.fin) (ChunkOk sent c id) (DemuxInv sent c id)
    (fun _ x hs hx => hs.step x hx) xs _ (h.inv sent) hok
  exact fun sid => ⟨fun hk => (hrun.wt sid hk).1, fun hk => (hrun.h3 sid hk).2⟩

def establishedSample : H3Server := ([.connection ⟨0, 0⟩, .streamData ⟨0, 0⟩ 0 connectFrame false] : List H3Input).foldl step {}

theorem establishedSample_established : establishedSample.Established ⟨0, 0⟩ 1 := by
  refine ⟨by decide +kernel, by decide +kernel, fun sid => ?_⟩
  have hconn : establishedSample.findConn ⟨0, 0⟩ = some ⟨⟨0, 0⟩, []⟩ := by decide +kernel
  exact isWtUni_find hconn sid

/-- A bidi stream in two chunks, and two uni streams, one of them the encoder's, between them. -/
def demuxChunks : List H3Chunk :=
  [⟨4, [0x40, 0x41, 0x00, 0x09], false⟩, ⟨2, [0x40, 0x54, 0x00, 0x07], false⟩, ⟨6, [0x02], false⟩, ⟨4, [0x0a], true⟩, ⟨2, [0x08], true⟩]

def demuxSent : Nat → List Byte
  | 2 => [0x40, 0x54, 0x00, 0x07, 0x08]
  | 4 => [0x40, 0x41, 0x00, 0x09, 0x0a]
  | _ => [0x02]

theorem streams_demuxed_sample : ClientDemuxed demuxSent ⟨0, 0⟩ 1 (establishedSample.chunks ⟨0, 0⟩ demuxChunks).log :=
  streams_demuxed demuxSent establishedSample ⟨0, 0⟩ 1 establishedSample_established demuxChunks (by decide +kernel)

/-- **A header in two chunks goes to the application**: neither of them begins with all of it. -/
theorem cut_header_passed : ¬∀ (sent : Nat → List Byte) (s : H3Server) (c : QuicPeer) (id : Nat) (xs : List H3Chunk),
    s.Established c id → ClientDemuxed sent c id (s.chunks c xs).log := by
  intro hall
  have hwt := (hall demuxSent establishedSample ⟨0, 0⟩ 1 [⟨4, [0x40], false⟩, ⟨4, [0x41, 0x00, 0x09, 0x0a], true⟩]
    establishedSample_established 4).1 (by decide +kernel)
  revert hwt
  decide +kernel

end H3Server
end MoqLiveCast
