import Mathlib.Data.List.Induction
import MoqLiveCast.Http3.QpackWrite
import MoqLiveCast.Http3.Server
import MoqLiveCast.Lib.Run
/-!
# ServerSessions — sessions from their CONNECT to the end of their connection

A session is found by its connection's address, in a table of sixteen that drops what it has no room for.
-/
namespace MoqLiveCast

open List

/-! ## Reading the log -/

def openStep (conns : List QuicPeer) : H3Event → List QuicPeer
  | .connected c => c :: conns
  | .handedOff c => conns.filter fun c' => c' ≠ c
  | .closing c => conns.filter fun c' => c' ≠ c
  | _ => conns

def openConns (log : List H3Event) : List QuicPeer := log.foldl openStep []

section

variable (id : Nat) (c : QuicPeer) (sid : Nat) (log : List H3Event)

def arrivals : List (Nat × List Byte) := log.filterMap fun
  | .arrived c' k data => if c' = c ∧ k ≠ sid then some (k, data) else none
  | _ => none

def handed : List (Nat × List Byte) := log.filterMap fun
  | .wtChunk id' _ k data => if id' = id ∧ k ≠ sid then some (k, data) else none
  | _ => none

def closings : Nat := log.countP fun e => e = .closing c

def closes : Nat := log.countP fun e => e = .onSessionClose id

end

def H3Event.Of (id : Nat) : H3Event → Prop
  | .onWtSession id' _ _ => id' = id
  | .wtChunk id' _ _ _ => id' = id
  | .onSessionClose id' => id' = id
  | _ => False

/-- **Every session is served**: from its CONNECT on it is handed every chunk of its connection, but those on the stream of the
CONNECT, and chunks of no other connection; it is closed once with the connection; and nothing is of it before. -/
def SessionsServed (log : List H3Event) : Prop :=
  ∀ before id c sid after, log = before ++ .onWtSession id c sid :: after →
    handed id sid after = arrivals c sid after ∧ closes id after = closings c after ∧
      (∀ c' k data, .wtChunk id c' k data ∈ after → c' = c) ∧ (∀ e ∈ before, ¬e.Of id)

namespace H3Server

/-- **What QUIC promises**: a connection that comes is a new one, at an address that no open one has; it is handed over before it
brings data; and data and closes come of open connections. -/
def Allowed (s : H3Server) : H3Input → Prop
  | .connection c => .connected c ∉ s.log ∧ ∀ c' ∈ openConns s.log, c'.addr ≠ c.addr
  | .otherAlpn c => c ∈ openConns s.log ∧ ∀ e ∈ s.log, ∀ sid data, e ≠ .arrived c sid data
  | .streamData c _ _ _ => c ∈ openConns s.log
  | .close c => c ∈ openConns s.log

def Recognised (s : H3Server) (c : QuicPeer) (sid : Nat) (data : List Byte) : Prop :=
  (0 < sid ∧ sid % 4 = 0) ∨ (sid % 4 = 2 ∧ (s.isWtUni c sid = true ∨ beginsWt data = true))

def Connects (s : H3Server) (c : QuicPeer) (sid : Nat) (data : List Byte) : Prop :=
  sid % 4 ≠ 2 ∧ (s.registryFind c = none ∨ ¬(0 < sid ∧ sid % 4 = 0)) ∧
    (requestOf data).any fun r => isWtConnect (parseHeadersQpack r.1 s.qpack).1

/-- **The condition**: a CONNECT finds room in the table, and none of its connection there; and on a connection with a session
every chunk is known for one of a WebTransport stream, but on the stream of the CONNECT. -/
def ServeOk (s : H3Server) : H3Input → Prop
  | .streamData c sid data _ =>
    (∀ id k, .onWtSession id c k ∈ s.log → sid ≠ k → s.Recognised c sid data) ∧
      (s.Connects c sid data → s.registry.length < WT_MAX_SESSIONS ∧ s.registryFind c = none)
  | _ => True

instance (s : H3Server) (c : QuicPeer) (sid : Nat) (data : List Byte) : Decidable (s.Recognised c sid data) :=
  inferInstanceAs (Decidable (_ ∨ _))

instance (s : H3Server) (c : QuicPeer) (sid : Nat) (data : List Byte) : Decidable (s.Connects c sid data) :=
  inferInstanceAs (Decidable (_ ∧ _ ∧ _))

instance (s : H3Server) : ∀ i : H3Input, Decidable (s.Allowed i)
  | .connection _ => inferInstanceAs (Decidable (_ ∧ _))
  | .streamData _ _ _ _ => inferInstanceAs (Decidable (_ ∈ _))
  | .close _ => inferInstanceAs (Decidable (_ ∈ _))
  | .otherAlpn c =>
    decidable_of_iff (c ∈ openConns s.log ∧ ∀ e ∈ s.log, (match e with | .arrived c' _ _ => decide (c' ≠ c) | _ => true) = true) <| by
      refine and_congr_right fun _ => forall₂_congr fun e _ => ?_
      cases e <;> simp

instance (s : H3Server) : ∀ i : H3Input, Decidable (s.ServeOk i)
  | .connection _ => inferInstanceAs (Decidable True)
  | .otherAlpn _ => inferInstanceAs (Decidable True)
  | .close _ => inferInstanceAs (Decidable True)
  | .streamData c sid data _ =>
    decidable_of_iff ((∀ e ∈ s.log, (match e with
        | .onWtSession _ c' k => decide (c' = c → sid ≠ k → s.Recognised c sid data)
        | _ => true) = true) ∧
      (s.Connects c sid data → s.registry.length < WT_MAX_SESSIONS ∧ s.registryFind c = none)) <| by
      refine and_congr_left fun _ => ⟨fun h id k hmem hne => ?_, fun h e he => ?_⟩
      · exact of_decide_eq_true (h _ hmem) rfl hne
      · cases e with
        | onWtSession id c' k =>
          refine decide_eq_true fun heq hne => ?_
          subst heq
          exact h id k he hne
        | _ => rfl

end H3Server

/-! ## Events -/

section

variable (id : Nat) (c : QuicPeer) (sid : Nat) (log more : List H3Event)

@[simp] theorem arrivals_append : arrivals c sid (log ++ more) = arrivals c sid log ++ arrivals c sid more :=
  filterMap_append

@[simp] theorem handed_append : handed id sid (log ++ more) = handed id sid log ++ handed id sid more :=
  filterMap_append

@[simp] theorem closings_append : closings c (log ++ more) = closings c log + closings c more := countP_append

@[simp] theorem closes_append : closes id (log ++ more) = closes id log + closes id more := countP_append

end

def ServiceKept (id : Nat) (c : QuicPeer) (sid : Nat) (more : List H3Event) : Prop :=
  handed id sid more = arrivals c sid more ∧ closes id more = closings c more ∧ ∀ c' k data, .wtChunk id c' k data ∈ more → c' = c

theorem append_eq_append_cons {α : Type} {l m before after : List α} {e : α} (h : l ++ m = before ++ e :: after) :
    (∃ after', l = before ++ e :: after' ∧ after = after' ++ m) ∨ (∃ before', before = l ++ before' ∧ m = before' ++ e :: after) := by
  rcases List.append_eq_append_iff.1 h with ⟨as, rfl, hm⟩ | ⟨bs, rfl, hm⟩
  · exact .inr ⟨as, rfl, hm⟩
  · cases bs with
    | nil => exact .inr ⟨[], by simp, by simpa using hm.symm⟩
    | cons b bs =>
      simp only [cons_append, List.cons.injEq] at hm
      obtain ⟨rfl, rfl⟩ := hm
      exact .inl ⟨bs, rfl, rfl⟩

theorem SessionsServed.append {log more : List H3Event} (h : SessionsServed log) (hkeeps : ∀ id c sid, .onWtSession id c sid ∈ log → ServiceKept id c sid more)
    (hnone : ∀ id c sid, .onWtSession id c sid ∉ more) : SessionsServed (log ++ more) := by
  intro before id c sid after heq
  rcases append_eq_append_cons heq with ⟨after', rfl, rfl⟩ | ⟨before', rfl, rfl⟩
  · obtain ⟨hh, hc, hown, hbefore⟩ := h before id c sid after' rfl
    obtain ⟨hh', hc', hown'⟩ := hkeeps id c sid (mem_append_right _ mem_cons_self)
    refine ⟨by rw [handed_append, arrivals_append, hh, hh'], by rw [closes_append, closings_append, hc, hc'], ?_, hbefore⟩
    intro c' k data hmem
    rcases List.mem_append.1 hmem with hmem | hmem
    · exact hown c' k data hmem
    · exact hown' c' k data hmem
  · exact absurd (mem_append_right _ mem_cons_self) (hnone id c sid)

theorem SessionsServed.accept {log : List H3Event} (h : SessionsServed log) {id : Nat} (c : QuicPeer) (sid : Nat) (hnew : ∀ e ∈ log, ¬e.Of id) :
    SessionsServed (log ++ [.onWtSession id c sid]) := by
  intro before id' c' sid' after heq
  rcases append_eq_append_cons heq with ⟨after', rfl, rfl⟩ | ⟨before', rfl, hlast⟩
  · obtain ⟨hh, hc, hown, hbefore⟩ := h before id' c' sid' after' rfl
    refine ⟨?_, ?_, ?_, hbefore⟩
    · rw [handed_append, arrivals_append, hh]
      rfl
    · rw [closes_append, closings_append, hc]
      rfl
    · intro c'' k data hmem
      rcases List.mem_append.1 hmem with hmem | hmem
      · exact hown c'' k data hmem
      · simp at hmem
  · cases before' with
    | nil =>
      simp only [nil_append, List.cons.injEq, H3Event.onWtSession.injEq] at hlast
      obtain ⟨⟨rfl, rfl, rfl⟩, rfl⟩ := hlast
      refine ⟨rfl, rfl, fun _ _ _ hmem => (nomatch hmem), ?_⟩
      rw [append_nil]
      exact hnew
    | cons x xs =>
      have hlen := congrArg List.length hlast
      simp at hlen

namespace H3Server

/-! ## What the operations leave alone -/

/-- The application is given data, or a request; nothing of a session or a connection. -/
def Quiet (more : List H3Event) : Prop := ∀ e ∈ more, (∃ id sid data, e = .onStreamData id sid data) ∨ ∃ c sid hd bd, e = .onReq c sid hd bd

/-- Only streams of sessions and remembered uni streams have changed. -/
structure SameTables (s s' : H3Server) : Prop where
  registry : s'.registry = s.registry
  sessions : s'.sessions.length = s.sessions.length

theorem SameTables.trans {s s' s'' : H3Server} (h : SameTables s s') (h' : SameTables s' s'') : SameTables s s'' :=
  ⟨h'.registry.trans h.registry, h'.sessions.trans h.sessions⟩

theorem deliver_tables (s : H3Server) (id sid : Nat) (payload : List Byte) : SameTables s (s.deliver id sid payload) ∧
    ∃ more, (s.deliver id sid payload).log = s.log ++ more ∧ Quiet more := by
  unfold deliver
  split
  · exact ⟨⟨rfl, rfl⟩, [], (append_nil _).symm, fun e he => (nomatch he)⟩
  · refine ⟨⟨rfl, rfl⟩, [.onStreamData id sid payload], rfl, fun e he => ?_⟩
    exact .inl ⟨id, sid, payload, List.mem_singleton.1 he⟩

theorem wtStreamData_tables (s : H3Server) (id : Nat) (c : QuicPeer) (sid : Nat) (isUni : Bool) (data : List Byte) :
    SameTables s (s.wtStreamData id c sid isUni data) ∧ ∃ more, (s.wtStreamData id c sid isUni data).log = s.log ++
    [.wtChunk id c sid data] ++ more ∧ Quiet more := by
  unfold wtStreamData onInternalWtStream
  split
  · exact ⟨⟨rfl, rfl⟩, [], (append_nil _).symm, fun e he => (nomatch he)⟩
  · rename_i w hw
    dsimp only
    have hlen : ∀ r : WtSession, (store WtSession.sessionId r s.sessions).length = s.sessions.length :=
      fun r => length_map _
    split
    · obtain ⟨htables, more, hlog, hquiet⟩ := deliver_tables _ id sid (data.drop _)
      exact ⟨⟨htables.registry, htables.sessions.trans (hlen _)⟩, more, hlog, hquiet⟩
    · obtain ⟨htables, more, hlog, hquiet⟩ := deliver_tables _ id sid data
      exact ⟨⟨htables.registry, htables.sessions.trans (hlen _)⟩, more, hlog, hquiet⟩

theorem rememberWtUni_tables (s : H3Server) (c : QuicPeer) (sid : Nat) : SameTables s (s.rememberWtUni c sid) ∧
    (s.rememberWtUni c sid).log = s.log := by
  unfold rememberWtUni
  split
  · exact ⟨⟨rfl, rfl⟩, rfl⟩
  · split
    · exact ⟨⟨rfl, rfl⟩, rfl⟩
    · split <;> exact ⟨⟨rfl, rfl⟩, rfl⟩

theorem forgetWtUni_tables (s : H3Server) (c : QuicPeer) (sid : Nat) : SameTables s (s.forgetWtUni c sid) ∧
    (s.forgetWtUni c sid).log = s.log := by
  unfold forgetWtUni
  split
  · exact ⟨⟨rfl, rfl⟩, rfl⟩
  · split <;> exact ⟨⟨rfl, rfl⟩, rfl⟩

theorem onUniData_tables (s : H3Server) (id : Nat) (c : QuicPeer) (sid : Nat) (data : List Byte) (fin : Bool) :
    SameTables s (s.onUniData id c sid data fin) ∧ ∃ more, Quiet more ∧ (s.onUniData id c sid data fin).log = s.log ++
    (if s.isWtUni c sid = true ∨ beginsWt data = true then [.wtChunk id c sid data] else []) ++ more := by
  unfold onUniData
  dsimp only
  split
  · rename_i hknown
    generalize ht : (if s.isWtUni c sid = true then s else s.rememberWtUni c sid) = t
    have htables : SameTables s t ∧ t.log = s.log := by
      rw [← ht]
      split
      · exact ⟨⟨rfl, rfl⟩, rfl⟩
      · exact rememberWtUni_tables s c sid
    obtain ⟨hwt, more, hlog, hquiet⟩ := wtStreamData_tables t id c sid true data
    have hboth := htables.1.trans hwt
    split
    · obtain ⟨hforget, hsame⟩ := forgetWtUni_tables (t.wtStreamData id c sid true data) c sid
      exact ⟨hboth.trans hforget, more, hquiet, by rw [hsame, hlog, htables.2]⟩
    · exact ⟨hboth, more, hquiet, by rw [hlog, htables.2]⟩
  · exact ⟨⟨rfl, rfl⟩, [], fun e he => (nomatch he), by simp⟩

/-! ## The invariant -/

def Plain : H3Event → Prop
  | .connected _ | .handedOff _ | .closing _ | .onWtSession _ _ _ => False
  | _ => True

theorem openStep_plain : ∀ {more : List H3Event} (conns : List QuicPeer), (∀ e ∈ more, Plain e) → more.foldl openStep conns = conns
  | [], _, _ => rfl
  | e :: more, conns, h => by
    have he := h e mem_cons_self
    have hsame : openStep conns e = conns := by
      cases e with
      | connected _ => exact absurd he id
      | handedOff _ => exact absurd he id
      | closing _ => exact absurd he id
      | _ => rfl
    rw [foldl_cons, hsame, openStep_plain conns fun x hx => h x (mem_cons_of_mem _ hx)]

theorem openConns_plain {log more : List H3Event} (h : ∀ e ∈ more, Plain e) : openConns (log ++ more) = openConns log := by
  unfold openConns
  rw [foldl_append, openStep_plain _ h]

theorem openConns_snoc (log : List H3Event) (e : H3Event) : openConns (log ++ [e]) = openStep (openConns log) e := by
  unfold openConns
  rw [foldl_append]
  rfl

variable {c : QuicPeer}

theorem openConns_connected {log : List H3Event} (h : c ∈ openConns log) : .connected c ∈ log := by
  induction log using reverseRecOn with
  | nil => cases h
  | append_singleton log e ih =>
    rw [openConns_snoc] at h
    refine List.mem_append.2 ?_
    cases e with
    | connected c' =>
      rcases List.mem_cons.1 h with rfl | h
      · exact .inr mem_cons_self
      · exact .inl (ih h)
    | handedOff _ => exact .inl (ih (List.mem_filter.1 h).1)
    | closing _ => exact .inl (ih (List.mem_filter.1 h).1)
    | _ => exact .inl (ih h)

/-- **The table has the open connections with a session, and these only.** -/
structure SessInv (s : H3Server) : Prop where
  served : SessionsServed s.log
  addrs : ((openConns s.log).map QuicPeer.addr).Nodup
  entries : (s.registry.map fun r => r.1.addr).Nodup
  held : ∀ r ∈ s.registry, r.1 ∈ openConns s.log ∧ ∃ sid, .onWtSession r.2 r.1 sid ∈ s.log
  live : ∀ id c sid, .onWtSession id c sid ∈ s.log → c ∈ openConns s.log → (c, id) ∈ s.registry
  ids : ∀ e ∈ s.log, ∀ id, e.Of id → id ≤ s.sessions.length
  came : ∀ id c sid, .onWtSession id c sid ∈ s.log → .connected c ∈ s.log ∧ ∃ k data, .arrived c k data ∈ s.log

theorem served_unique {log : List H3Event} (h : SessionsServed log) {id sid sid' : Nat} {c c' : QuicPeer}
    (h1 : .onWtSession id c sid ∈ log) (h2 : .onWtSession id c' sid' ∈ log) : c = c' ∧ sid = sid' := by
  obtain ⟨before, after, heq⟩ := append_of_mem h1
  rw [heq] at h2
  rcases List.mem_append.1 h2 with h2 | h2
  · exact absurd rfl ((h before id c sid after heq).2.2.2 _ h2)
  · rcases List.mem_cons.1 h2 with h2 | h2
    · simp only [H3Event.onWtSession.injEq] at h2
      exact ⟨h2.2.1.symm, h2.2.2.symm⟩
    · obtain ⟨mid, last, rfl⟩ := append_of_mem h2
      have hsplit : log = before ++ .onWtSession id c sid :: mid ++ .onWtSession id c' sid' :: last := by
        rw [heq, append_assoc, cons_append]
      refine absurd rfl ((h _ id c' sid' last hsplit).2.2.2 (.onWtSession id c sid) ?_)
      exact mem_append_right _ mem_cons_self

variable {s : H3Server}

theorem SessInv.find_iff (h : s.SessInv) (hc : c ∈ openConns s.log) (id : Nat) :
    s.registryFind c = some id ↔ (c, id) ∈ s.registry := by
  unfold registryFind
  constructor
  · intro hfind
    obtain ⟨r, hr, rfl⟩ := Option.map_eq_some_iff.1 hfind
    have hmem := lookup_mem _ hr
    have hsame : r.1 = c := inj_on_of_nodup_map h.addrs (h.held r hmem).1 hc (lookup_key (fun r : QuicPeer × Nat => r.1.addr) hr)
    exact hsame ▸ hmem
  · intro hmem
    rw [lookup_of_mem (fun r : QuicPeer × Nat => r.1.addr) h.entries hmem]
    rfl

theorem SessInv.one (h : s.SessInv) (hc : c ∈ openConns s.log) {id id' sid : Nat}
    (hfind : s.registryFind c = some id) (hmem : .onWtSession id' c sid ∈ s.log) : id' = id := by
  have hother := (h.find_iff hc id').2 (h.live id' c sid hmem hc)
  rw [hfind, Option.some.injEq] at hother
  exact hother.symm

theorem SessInv.absent (h : s.SessInv) (hc : c ∈ openConns s.log)
    (hfind : s.registryFind c = none) (id sid : Nat) : .onWtSession id c sid ∉ s.log := by
  intro hmem
  have hsome := (h.find_iff hc id).2 (h.live id c sid hmem hc)
  rw [hfind] at hsome
  cases hsome

theorem SessInv.extend {s s' : H3Server} (h : s.SessInv) {more : List H3Event} (htables : SameTables s s')
    (hlog : s'.log = s.log ++ more) (hplain : ∀ e ∈ more, Plain e) (hof : ∀ e ∈ more, ∀ id, e.Of id → id ≤ s.sessions.length)
    (hkeeps : ∀ id c sid, .onWtSession id c sid ∈ s.log → ServiceKept id c sid more) : s'.SessInv := by
  have hnone : ∀ id c sid, .onWtSession id c sid ∉ more := fun id c sid hmem => hplain _ hmem
  have hopen : openConns s'.log = openConns s.log := by rw [hlog, openConns_plain hplain]
  have hmem : ∀ {id c sid}, .onWtSession id c sid ∈ s'.log → .onWtSession id c sid ∈ s.log := fun {id c sid} he => by
    rw [hlog] at he
    exact (List.mem_append.1 he).resolve_right (hnone id c sid)
  refine ⟨hlog ▸ h.served.append hkeeps hnone, hopen ▸ h.addrs, htables.registry ▸ h.entries, fun r hr => ?_, fun id c sid he hc => ?_,
    fun e he id hid => ?_, fun id c sid he => ?_⟩
  · rw [htables.registry] at hr
    obtain ⟨hin, sid, hses⟩ := h.held r hr
    exact ⟨hopen ▸ hin, sid, hlog ▸ mem_append_left _ hses⟩
  · rw [htables.registry]
    exact h.live id c sid (hmem he) (hopen ▸ hc)
  · rw [htables.sessions]
    rw [hlog] at he
    rcases List.mem_append.1 he with he | he
    · exact h.ids e he id hid
    · exact hof e he id hid
  · obtain ⟨hcon, k, data, harr⟩ := h.came id c sid (hmem he)
    exact ⟨hlog ▸ mem_append_left _ hcon, k, data, hlog ▸ mem_append_left _ harr⟩

theorem SessInv.accept (h : s.SessInv) (hc : c ∈ openConns s.log) (sid : Nat) (hroom : s.registry.length < WT_MAX_SESSIONS)
    (hfree : s.registryFind c = none) (harr : ∃ k data, .arrived c k data ∈ s.log) : (s.acceptSession c sid).SessInv := by
  have hnew : ∀ e ∈ s.log, ¬e.Of (s.sessions.length + 1) := fun e he hid => by
    have := h.ids e he _ hid
    omega
  have hregistry : (s.acceptSession c sid).registry = s.registry ++ [(c, s.sessions.length + 1)] := by
    unfold acceptSession registryAdd
    dsimp only
    rw [if_pos hroom]
    rfl
  have hlog : (s.acceptSession c sid).log = s.log ++ [.onWtSession (s.sessions.length + 1) c sid] := by
    unfold acceptSession registryAdd
    dsimp only
    rw [if_pos hroom]
    rfl
  have hsessions : (s.acceptSession c sid).sessions.length = s.sessions.length + 1 := by
    unfold acceptSession registryAdd
    dsimp only
    rw [if_pos hroom]
    exact length_append
  have hopen : openConns (s.acceptSession c sid).log = openConns s.log := by
    rw [hlog, openConns_snoc]
    rfl
  have hmem : ∀ {id c' k}, .onWtSession id c' k ∈ (s.acceptSession c sid).log →
      .onWtSession id c' k ∈ s.log ∨ (id = s.sessions.length + 1 ∧ c' = c ∧ k = sid) := fun {id c' k} he => by
    rw [hlog] at he
    exact (List.mem_append.1 he).imp_right fun he => by simpa using he
  generalize hs' : s.acceptSession c sid = s' at hregistry hlog hsessions hopen hmem ⊢
  refine ⟨hlog ▸ h.served.accept c sid hnew, hopen ▸ h.addrs, ?_, fun r hr => ?_, fun id c' k he hin => ?_, fun e he id hid => ?_,
    fun id c' k he => ?_⟩
  · rw [hregistry, map_append, nodup_append]
    refine ⟨h.entries, by simp, fun a ha b hb => ?_⟩
    obtain ⟨r, hr, rfl⟩ := List.mem_map.1 ha
    rw [map_singleton, mem_singleton] at hb
    subst hb
    exact (lookup_eq_none_iff (fun r : QuicPeer × Nat => r.1.addr)).1 (Option.map_eq_none_iff.1 hfree) r hr
  · rw [hregistry] at hr
    rcases List.mem_append.1 hr with hr | hr
    · obtain ⟨hin, k, hses⟩ := h.held r hr
      exact ⟨hopen ▸ hin, k, hlog ▸ mem_append_left _ hses⟩
    · obtain rfl := List.mem_singleton.1 hr
      exact ⟨hopen ▸ hc, sid, hlog ▸ mem_append_right _ mem_cons_self⟩
  · rw [hregistry]
    rcases hmem he with he | ⟨rfl, rfl, -⟩
    · exact mem_append_left _ (h.live id c' k he (hopen ▸ hin))
    · exact mem_append_right _ mem_cons_self
  · rw [hsessions]
    rw [hlog] at he
    rcases List.mem_append.1 he with he | he
    · exact Nat.le_succ_of_le (h.ids e he id hid)
    · obtain rfl := List.mem_singleton.1 he
      exact Nat.le_of_eq hid.symm
  · rcases hmem he with he | ⟨-, rfl, -⟩
    · obtain ⟨hcon, j, data, hdata⟩ := h.came id c' k he
      exact ⟨hlog ▸ mem_append_left _ hcon, j, data, hlog ▸ mem_append_left _ hdata⟩
    · obtain ⟨j, data, hdata⟩ := harr
      exact ⟨hlog ▸ mem_append_left _ (openConns_connected hc), j, data, hlog ▸ mem_append_left _ hdata⟩

/-! ## One chunk -/

theorem quiet_keeps {more : List H3Event} (h : Quiet more) (id : Nat) (c : QuicPeer) (sid : Nat) : ServiceKept id c sid more := by
  refine ⟨?_, ?_, fun c' k data hmem => ?_⟩
  · have hnone : handed id sid more = [] := List.filterMap_eq_nil_iff.2 fun e he => by
      rcases h e he with ⟨_, _, _, rfl⟩ | ⟨_, _, _, _, rfl⟩ <;> rfl
    have hnone' : arrivals c sid more = [] := List.filterMap_eq_nil_iff.2 fun e he => by
      rcases h e he with ⟨_, _, _, rfl⟩ | ⟨_, _, _, _, rfl⟩ <;> rfl
    rw [hnone, hnone']
  · have hzero : closes id more = 0 := List.countP_eq_zero.2 fun e he => by
      rcases h e he with ⟨_, _, _, rfl⟩ | ⟨_, _, _, _, rfl⟩ <;> simp
    have hzero' : closings c more = 0 := List.countP_eq_zero.2 fun e he => by
      rcases h e he with ⟨_, _, _, rfl⟩ | ⟨_, _, _, _, rfl⟩ <;> simp
    rw [hzero, hzero']
  · rcases h _ hmem with ⟨_, _, _, heq⟩ | ⟨_, _, _, _, heq⟩ <;> cases heq

theorem quiet_plain {more : List H3Event} (h : Quiet more) : (∀ e ∈ more, Plain e) ∧ ∀ e ∈ more, ∀ id, ¬e.Of id := by
  constructor
  · intro e he
    rcases h e he with ⟨_, _, _, rfl⟩ | ⟨_, _, _, _, rfl⟩ <;> exact trivial
  · intro e he id
    rcases h e he with ⟨_, _, _, rfl⟩ | ⟨_, _, _, _, rfl⟩ <;> exact False.elim

theorem keeps_append {id sid : Nat} {l m : List H3Event} (h : ServiceKept id c sid l) (h' : ServiceKept id c sid m) :
    ServiceKept id c sid (l ++ m) := by
  obtain ⟨hh, hc, hown⟩ := h
  obtain ⟨hh', hc', hown'⟩ := h'
  refine ⟨by rw [handed_append, arrivals_append, hh, hh'], by rw [closes_append, closings_append, hc, hc'], ?_⟩
  intro c' k data hmem
  rcases List.mem_append.1 hmem with hmem | hmem
  · exact hown c' k data hmem
  · exact hown' c' k data hmem

theorem chunk_keeps {id id' : Nat} {c c' : QuicPeer} {sid' : Nat} (hsame : id' = id ↔ c' = c) (sid : Nat) (data : List Byte) :
    ServiceKept id' c' sid' [.arrived c sid data, .wtChunk id c sid data] := by
  refine ⟨?_, rfl, fun x k d hmem => ?_⟩
  · by_cases hid : id' = id
    · obtain rfl := hsame.1 hid
      subst hid
      by_cases hk : sid = sid' <;> simp [handed, arrivals, hk]
    · have hc : c ≠ c' := fun he => hid (hsame.2 he.symm)
      simp [handed, arrivals, Ne.symm hid, hc]
  · simp only [mem_cons, not_mem_nil, or_false, H3Event.wtChunk.injEq, reduceCtorEq, false_or] at hmem
    obtain ⟨rfl, rfl, -, -⟩ := hmem
    exact (hsame.1 rfl).symm

theorem arrived_keeps {id' : Nat} {c c' : QuicPeer} {sid sid' : Nat} (h : c' = c → sid = sid') (data : List Byte) :
    ServiceKept id' c' sid' [.arrived c sid data] := by
  refine ⟨?_, rfl, fun x k d hmem => ?_⟩
  · by_cases hc : c = c'
    · simp [handed, arrivals, hc, h hc.symm]
    · simp [handed, arrivals, hc]
  · simp at hmem

theorem SessInv.same_iff (h : s.SessInv) {c c' : QuicPeer} (hc : c ∈ openConns s.log) {id id' sid' : Nat}
    (hfind : s.registryFind c = some id) (hmem : .onWtSession id' c' sid' ∈ s.log) : id' = id ↔ c' = c := by
  obtain ⟨-, k, hses⟩ := h.held _ ((h.find_iff hc id).1 hfind)
  constructor
  · rintro rfl
    exact (served_unique h.served hmem hses).1
  · rintro rfl
    exact h.one hc hfind hmem

theorem SessInv.chunk {s s' : H3Server} (h : s.SessInv) (hc : c ∈ openConns s.log) {id : Nat}
    (hfind : s.registryFind c = some id) {sid : Nat} {data : List Byte} {more : List H3Event} (htables : SameTables s s')
    (hlog : s'.log = s.log ++ [.arrived c sid data] ++ [.wtChunk id c sid data] ++ more) (hquiet : Quiet more) : s'.SessInv := by
  obtain ⟨-, k, hses⟩ := h.held _ ((h.find_iff hc id).1 hfind)
  have hid : id ≤ s.sessions.length := h.ids _ hses id rfl
  rw [append_assoc s.log, append_assoc, cons_append, nil_append] at hlog
  refine h.extend htables hlog (fun e he => ?_) (fun e he id' hof => ?_) fun id' c' sid' hmem =>
    keeps_append (chunk_keeps (h.same_iff hc hfind hmem) sid data) (quiet_keeps hquiet id' c' sid')
  · rcases List.mem_append.1 he with he | he
    · simp only [mem_cons, not_mem_nil, or_false] at he
      rcases he with rfl | rfl <;> exact trivial
    · exact (quiet_plain hquiet).1 e he
  · rcases List.mem_append.1 he with he | he
    · simp only [mem_cons, not_mem_nil, or_false] at he
      rcases he with rfl | rfl
      · exact hof.elim
      · exact hof ▸ hid
    · exact absurd hof ((quiet_plain hquiet).2 e he id')

theorem SessInv.unhanded {s s' : H3Server} (h : s.SessInv) {sid : Nat} {data : List Byte}
    (more : List H3Event) (hours : ∀ id k, .onWtSession id c k ∈ s.log → sid = k) (htables : SameTables s s')
    (hlog : s'.log = s.log ++ [.arrived c sid data] ++ more) (hquiet : Quiet more) : s'.SessInv := by
  rw [append_assoc] at hlog
  refine h.extend htables hlog (fun e he => ?_) (fun e he id' hof => ?_) fun id' c' sid' hmem =>
    keeps_append (arrived_keeps (fun hcc => hours id' sid' (by rwa [← hcc])) data) (quiet_keeps hquiet id' c' sid')
  · rcases List.mem_append.1 he with he | he
    · obtain rfl := List.mem_singleton.1 he
      exact trivial
    · exact (quiet_plain hquiet).1 e he
  · rcases List.mem_append.1 he with he | he
    · obtain rfl := List.mem_singleton.1 he
      exact hof.elim
    · exact absurd hof ((quiet_plain hquiet).2 e he id')

theorem SessInv.request (h : s.SessInv) (hc : c ∈ openConns s.log) {sid : Nat} {data : List Byte}
    (hours : ∀ id k, .onWtSession id c k ∈ s.log → sid = k)
    (hconnect : ((requestOf data).any fun r => isWtConnect (parseHeadersQpack r.1 s.qpack).1) = true →
      s.registry.length < WT_MAX_SESSIONS ∧ s.registryFind c = none) :
    ((requestOf data).elim (s.note (.arrived c sid data)) fun r =>
      (s.note (.arrived c sid data)).onServerRequest c sid r.1 r.2).SessInv := by
  cases hr : requestOf data with
  | none =>
    exact h.unhanded [] hours ⟨rfl, rfl⟩ (append_nil _).symm fun e he => (nomatch he)
  | some r =>
    obtain ⟨headers, body⟩ := r
    rw [hr] at hconnect
    have hquiet : Quiet [.onReq c sid headers body] := fun e he => .inr ⟨c, sid, headers, body, List.mem_singleton.1 he⟩
    have hreq : SessInv { (s.note (.arrived c sid data)).note (.onReq c sid headers body) with
        qpack := (parseHeadersQpack headers s.qpack).2 } := h.unhanded _ hours ⟨rfl, rfl⟩ rfl hquiet
    unfold onServerRequest
    dsimp only [Option.elim]
    split
    · rename_i hwt
      obtain ⟨hroom, hfree⟩ := hconnect hwt
      refine hreq.accept ?_ sid hroom hfree ⟨sid, data, mem_append_left _ (mem_append_right _ mem_cons_self)⟩
      have hopen : openConns (s.log ++ [.arrived c sid data] ++ [.onReq c sid headers body]) = openConns s.log := by
        rw [openConns_snoc, openConns_snoc]
        rfl
      exact (hopen ▸ hc : c ∈ openConns (s.log ++ [.arrived c sid data] ++ [.onReq c sid headers body]))
    · exact hreq

theorem SessInv.onStreamData (h : s.SessInv) (hc : c ∈ openConns s.log) {sid : Nat}
    {data : List Byte} {fin : Bool} (hok : s.ServeOk (.streamData c sid data fin)) : (s.onStreamData c sid data fin).SessInv := by
  obtain ⟨hknown, hconnect⟩ := hok
  have hours : ¬s.Recognised c sid data → ∀ id k, .onWtSession id c k ∈ s.log → sid = k := fun hnot id k hmem => by
    by_contra hne
    exact hnot (hknown id k hmem hne)
  have hfind' : (s.note (.arrived c sid data)).registryFind c = s.registryFind c := rfl
  unfold H3Server.onStreamData
  dsimp only
  rw [hfind']
  cases hfind : s.registryFind c with
  | none =>
    dsimp only
    have hnone : ∀ id k, .onWtSession id c k ∈ s.log → sid = k := fun id k hmem => absurd hmem (h.absent hc hfind id k)
    split
    · exact h.unhanded [] hnone ⟨rfl, rfl⟩ (append_nil _).symm fun e he => (nomatch he)
    · rename_i huni
      exact h.request hc hnone fun hwt => hconnect ⟨huni, .inl hfind, hwt⟩
  | some id =>
    dsimp only
    split
    · obtain ⟨htables, more, hlog, hquiet⟩ := wtStreamData_tables (s.note (.arrived c sid data)) id c sid false data
      exact h.chunk hc hfind ⟨htables.registry, htables.sessions⟩ hlog hquiet
    · rename_i hbidi
      split
      · rename_i huni
        obtain ⟨htables, more, hquiet, hlog⟩ := onUniData_tables (s.note (.arrived c sid data)) id c sid data fin
        have hsame : (s.note (.arrived c sid data)).isWtUni c sid = s.isWtUni c sid := rfl
        rw [hsame] at hlog
        by_cases hwt : s.isWtUni c sid = true ∨ beginsWt data = true
        · rw [if_pos hwt] at hlog
          exact h.chunk hc hfind ⟨htables.registry, htables.sessions⟩ hlog hquiet
        · rw [if_neg hwt, append_nil] at hlog
          refine h.unhanded _ (hours fun hrec => ?_) ⟨htables.registry, htables.sessions⟩ hlog hquiet
          rcases hrec with hb | hu
          · exact hbidi hb
          · exact hwt hu.2
      · rename_i huni
        refine h.request hc (hours fun hrec => ?_) fun hwt => hconnect ⟨huni, .inr hbidi, hwt⟩
        rcases hrec with hb | hu
        · exact hbidi hb
        · exact huni hu.1

/-! ## Connections come and go -/

theorem registryRemove_spec (s : H3Server) (c : QuicPeer) (hnd : (s.registry.map fun r => r.1.addr).Nodup) :
    (∀ r, r ∈ (s.registryRemove c).registry ↔ r ∈ s.registry ∧ r.1.addr ≠ c.addr) ∧
      ((s.registryRemove c).registry.map fun r => r.1.addr).Nodup ∧ (s.registryRemove c).log = s.log ∧
      (s.registryRemove c).sessions = s.sessions := by
  unfold registryRemove
  split
  · rename_i hnone
    have hall := findIdx?_eq_none_iff.1 hnone
    refine ⟨fun r => ⟨fun hr => ⟨hr, ?_⟩, And.left⟩, hnd, rfl, rfl⟩
    simpa using hall r hr
  · rename_i i hi
    refine ⟨fun r => mem_swapRemove (fun r : QuicPeer × Nat => r.1.addr) hnd hi, ?_, rfl, rfl⟩
    exact swapRemove_nodup (findIdx?_eq_some_iff_getElem.1 hi).1 hnd

theorem removeConn_tables (s : H3Server) (c : QuicPeer) : (s.removeConn c).registry = s.registry ∧
    (s.removeConn c).sessions = s.sessions ∧ (s.removeConn c).log = s.log := by
  unfold removeConn
  split <;> exact ⟨rfl, rfl, rfl⟩

theorem addConn_tables (s : H3Server) (c : QuicPeer) : (s.addConn c).registry = s.registry ∧
    (s.addConn c).sessions = s.sessions ∧ (s.addConn c).log = s.log := by
  unfold addConn
  split <;> exact ⟨rfl, rfl, rfl⟩

theorem none_keeps {id sid : Nat} {e : H3Event} (h : ∃ c', e = .connected c' ∨ e = .handedOff c') : ServiceKept id c sid [e] := by
  obtain ⟨c', rfl | rfl⟩ := h <;> exact ⟨rfl, rfl, fun _ _ _ hmem => by simp at hmem⟩

theorem SessInv.conns {s s' : H3Server} (h : s.SessInv) {e : H3Event} (he : ∃ c', e = .connected c' ∨ e = .handedOff c')
    (hregistry : s'.registry = s.registry) (hsessions : s'.sessions = s.sessions) (hlog : s'.log = s.log ++ [e])
    (haddrs : ((openConns s'.log).map QuicPeer.addr).Nodup)
    (hsame : ∀ id c sid, .onWtSession id c sid ∈ s.log → (c ∈ openConns s'.log ↔ c ∈ openConns s.log)) : s'.SessInv := by
  have hmem : ∀ {id c sid}, .onWtSession id c sid ∈ s'.log → .onWtSession id c sid ∈ s.log := fun {id c sid} hx => by
    rw [hlog] at hx
    refine (List.mem_append.1 hx).resolve_right fun hx => ?_
    obtain ⟨c', rfl | rfl⟩ := he <;> simp at hx
  refine ⟨?_, haddrs, hregistry ▸ h.entries, fun r hr => ?_, fun id c sid hx hc => ?_, fun x hx id hid => ?_, fun id c sid hx => ?_⟩
  · rw [hlog]
    refine h.served.append (fun _ _ _ _ => none_keeps he) fun id c sid hx => ?_
    obtain ⟨c', rfl | rfl⟩ := he <;> simp at hx
  · rw [hregistry] at hr
    obtain ⟨hin, sid, hses⟩ := h.held r hr
    exact ⟨(hsame _ _ _ hses).2 hin, sid, hlog ▸ mem_append_left _ hses⟩
  · rw [hregistry]
    exact h.live id c sid (hmem hx) ((hsame _ _ _ (hmem hx)).1 hc)
  · rw [hsessions]
    rw [hlog] at hx
    rcases List.mem_append.1 hx with hx | hx
    · exact h.ids x hx id hid
    · obtain rfl := List.mem_singleton.1 hx
      obtain ⟨c', rfl | rfl⟩ := he <;> exact hid.elim
  · obtain ⟨hcon, k, data, harr⟩ := h.came id c sid (hmem hx)
    exact ⟨hlog ▸ mem_append_left _ hcon, k, data, hlog ▸ mem_append_left _ harr⟩

theorem onClose_spec (s : H3Server) (c : QuicPeer) (hnd : (s.registry.map fun r => r.1.addr).Nodup) :
    (∀ r, r ∈ (s.onClose c).registry ↔ r ∈ s.registry ∧ r.1.addr ≠ c.addr) ∧
      ((s.onClose c).registry.map fun r => r.1.addr).Nodup ∧ (s.onClose c).sessions = s.sessions ∧
      (s.onClose c).log = s.log ++ [.closing c] ++ (s.registryFind c).toList.map H3Event.onSessionClose := by
  have hfind : (s.note (.closing c)).registryFind c = s.registryFind c := rfl
  unfold onClose
  dsimp only
  rw [hfind]
  generalize ht : (s.registryFind c).elim (s.note (.closing c)) (fun id => (s.note (.closing c)).note (.onSessionClose id)) = t
  have htables : t.registry = s.registry ∧ t.sessions = s.sessions ∧
      t.log = s.log ++ [.closing c] ++ (s.registryFind c).toList.map H3Event.onSessionClose := by
    subst ht
    cases s.registryFind c with
    | none => exact ⟨rfl, rfl, (append_nil _).symm⟩
    | some id => exact ⟨rfl, rfl, rfl⟩
  obtain ⟨hmem, hnodup, hlog, hsessions⟩ := registryRemove_spec t c (htables.1 ▸ hnd)
  obtain ⟨hreg', hses', hlog'⟩ := removeConn_tables (t.registryRemove c) c
  rw [hreg', hses', hlog', hlog, hsessions]
  exact ⟨fun r => htables.1 ▸ hmem r, hnodup, htables.2.1, htables.2.2⟩

theorem SessInv.close_keeps (h : s.SessInv) (hc : c ∈ openConns s.log) {id : Nat} {c' : QuicPeer}
    {sid : Nat} (hmem : .onWtSession id c' sid ∈ s.log) :
    ServiceKept id c' sid ([.closing c] ++ (s.registryFind c).toList.map H3Event.onSessionClose) := by
  cases hfind : s.registryFind c with
  | none =>
    have hne : c ≠ c' := by
      rintro rfl
      exact h.absent hc hfind id sid hmem
    exact ⟨rfl, by simp [closes, closings, hne], fun _ _ _ hx => by simp at hx⟩
  | some found =>
    have hsame := h.same_iff hc hfind hmem
    refine ⟨rfl, ?_, fun _ _ _ hx => by simp at hx⟩
    by_cases hid : id = found
    · simp [closes, closings, hid, hsame.1 hid]
    · have hne : c ≠ c' := fun he => hid (hsame.2 he.symm)
      simp [closes, closings, Ne.symm hid, hne]

theorem SessInv.onClose (h : s.SessInv) (hc : c ∈ openConns s.log) : (s.onClose c).SessInv := by
  obtain ⟨hentries, hnodup, hsessions, hlog⟩ := onClose_spec s c h.entries
  have hkeeps : ∀ id c' sid, .onWtSession id c' sid ∈ s.log →
      ServiceKept id c' sid ([.closing c] ++ (s.registryFind c).toList.map H3Event.onSessionClose) := fun _ _ _ => h.close_keeps hc
  have hplain : ∀ id c' sid, .onWtSession id c' sid ∉ (s.registryFind c).toList.map H3Event.onSessionClose := by
    simp
  have hopen : openConns (s.onClose c).log = (openConns s.log).filter fun c' => c' ≠ c := by
    rw [hlog, openConns_plain, openConns_snoc]
    · rfl
    · intro e he
      obtain ⟨id, -, rfl⟩ := List.mem_map.1 he
      exact trivial
  have hmem : ∀ {id c' sid}, .onWtSession id c' sid ∈ (s.onClose c).log → .onWtSession id c' sid ∈ s.log :=
    fun {id c' sid} hx => by
      rw [hlog] at hx
      rcases List.mem_append.1 hx with hx | hx
      · exact (List.mem_append.1 hx).resolve_right (by simp)
      · exact absurd hx (hplain id c' sid)
  refine ⟨?_, ?_, hnodup, fun r hr => ?_, fun id c' sid hx hin => ?_, fun e he id hid => ?_, fun id c' sid hx => ?_⟩
  · rw [hlog, append_assoc]
    refine h.served.append hkeeps fun id c' sid hx => ?_
    rcases List.mem_append.1 hx with hx | hx
    · simp at hx
    · exact hplain id c' sid hx
  · rw [hopen]
    exact h.addrs.sublist (List.filter_sublist.map _)
  · obtain ⟨hr, hne⟩ := (hentries r).1 hr
    obtain ⟨hin, sid, hses⟩ := h.held r hr
    rw [hopen, hlog]
    refine ⟨List.mem_filter.2 ⟨hin, ?_⟩, sid, mem_append_left _ (mem_append_left _ hses)⟩
    simpa using fun he : r.1 = c => hne (congrArg QuicPeer.addr he)
  · rw [hopen] at hin
    obtain ⟨hin, hne⟩ := List.mem_filter.1 hin
    refine (hentries (c', id)).2 ⟨h.live id c' sid (hmem hx) hin, fun haddr => ?_⟩
    have hsame : c' = c := inj_on_of_nodup_map h.addrs hin hc haddr
    simp [hsame] at hne
  · rw [hsessions]
    rw [hlog, append_assoc] at he
    rcases List.mem_append.1 he with he | he
    · exact h.ids e he id hid
    · rcases List.mem_append.1 he with he | he
      · obtain rfl := List.mem_singleton.1 he
        exact hid.elim
      · obtain ⟨found, hfound, rfl⟩ := List.mem_map.1 he
        obtain ⟨-, sid, hses⟩ := h.held _ ((h.find_iff hc found).1 (Option.mem_toList.1 hfound))
        exact hid ▸ h.ids _ hses found rfl
  · obtain ⟨hcon, k, data, harr⟩ := h.came id c' sid (hmem hx)
    rw [hlog]
    exact ⟨mem_append_left _ (mem_append_left _ hcon), k, data, mem_append_left _ (mem_append_left _ harr)⟩

theorem SessInv.step (h : s.SessInv) (i : H3Input) (hallowed : s.Allowed i) (hok : s.ServeOk i) : (s.step i).SessInv := by
  cases i with
  | connection c =>
    obtain ⟨hfresh, haddr⟩ := hallowed
    obtain ⟨hreg, hses, hlog⟩ := addConn_tables (s.note (.connected c)) c
    have hopen : openConns (s.step (.connection c)).log = c :: openConns s.log := by
      refine (congrArg openConns hlog).trans ?_
      exact openConns_snoc _ _
    refine h.conns ⟨c, .inl rfl⟩ hreg hses hlog ?_ fun id c' sid hmem => ?_
    · rw [hopen, map_cons, nodup_cons]
      refine ⟨fun hx => ?_, h.addrs⟩
      obtain ⟨c', hc', heq⟩ := List.mem_map.1 hx
      exact haddr c' hc' heq
    · have hne : c' ≠ c := by
        rintro rfl
        exact hfresh (h.came id c' sid hmem).1
      rw [hopen, mem_cons, or_iff_right hne]
  | otherAlpn c =>
    obtain ⟨-, hno⟩ := hallowed
    obtain ⟨hreg, hses, hlog⟩ := removeConn_tables (s.note (.handedOff c)) c
    have hopen : openConns (s.step (.otherAlpn c)).log = (openConns s.log).filter fun c' => c' ≠ c := by
      refine (congrArg openConns hlog).trans ?_
      exact openConns_snoc _ _
    refine h.conns ⟨c, .inr rfl⟩ hreg hses hlog ?_ fun id c' sid hmem => ?_
    · rw [hopen]
      exact h.addrs.sublist (List.filter_sublist.map _)
    · have hne : c' ≠ c := by
        rintro rfl
        obtain ⟨-, k, data, harr⟩ := h.came id c' sid hmem
        exact hno _ harr k data rfl
      rw [hopen, mem_filter]
      simp [hne]
  | streamData c sid data fin => exact h.onStreamData hallowed hok
  | close c => exact h.onClose hallowed

/-- **Every session is served until its connection closes**, in every run in which CONNECTs find room and every chunk on a connection
with a session is known for one of WebTransport. -/
theorem sessions_served (is : List H3Input) (hok : StepsOk step (fun s i => s.Allowed i ∧ s.ServeOk i) {} is) :
    SessionsServed (is.foldl step {}).log := by
  have hstart : ({} : H3Server).SessInv := by
    refine ⟨fun before id c sid after heq => ?_, nodup_nil, nodup_nil, fun r hr => (nomatch hr),
      fun id c sid he => (nomatch he), fun e he => (nomatch he), fun id c sid he => (nomatch he)⟩
    simp at heq
  exact (foldl_inv step _ SessInv (fun _ i h ho => h.step i ho.1 ho.2) is _ hstart hok).served

/-- A HEADERS frame with `:protocol webtransport`. -/
def connectFrame : List Byte :=
  let block := 0x00 :: 0x00 :: qpackWriteLiteralI (h3Text ":protocol") (h3Text "webtransport")
  0x01 :: BitVec.ofNat 8 block.length :: block

def servedSample : List H3Input :=
  [.connection ⟨0, 0⟩, .streamData ⟨0, 0⟩ 0 connectFrame false, .streamData ⟨0, 0⟩ 4 [0x40, 0x41, 0x00, 0x09] false,
    .close ⟨0, 0⟩]

theorem served_sample : StepsOk step (fun s i => s.Allowed i ∧ s.ServeOk i) {} servedSample ∧
    SessionsServed (servedSample.foldl step {}).log := by
  have hok : StepsOk step (fun s i => s.Allowed i ∧ s.ServeOk i) {} servedSample := by decide +kernel
  exact ⟨hok, sessions_served servedSample hok⟩

def seventeen : List H3Input :=
  (range 17).flatMap (fun i => [.connection ⟨i, i⟩, .streamData ⟨i, i⟩ 0 connectFrame false]) ++ [.close ⟨16, 16⟩]

/-- **The seventeenth session is not closed**: the table had no room for it. -/
theorem seventeenth_lost : ¬∀ is : List H3Input, StepsOk step Allowed {} is → SessionsServed (is.foldl step {}).log := by
  intro hall
  have hallowed : StepsOk step Allowed {} seventeen := by decide +kernel
  have hsplit : (seventeen.foldl step {}).log = (seventeen.foldl step {}).log.take 67 ++
      .onWtSession 17 ⟨16, 16⟩ 0 :: (seventeen.foldl step {}).log.drop 68 := by decide +kernel
  have hclosed := (hall seventeen hallowed _ 17 ⟨16, 16⟩ 0 _ hsplit).2.1
  revert hclosed
  decide +kernel

end H3Server

end MoqLiveCast
