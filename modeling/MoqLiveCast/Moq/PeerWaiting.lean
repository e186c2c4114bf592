import MoqLiveCast.Lib.Run
import MoqLiveCast.Moq.PeerSteps
/-!
# PeerWaiting — the subscriptions that wait

Each waits under its number, on a stream of its own that is open, and is not served; only a session that was set up has any.
Every call keeps this while the session lives (`Waiting.step`).
-/
namespace MoqLiveCast

open List

open OrdMap

namespace PeerSession

/-- **What is kept of those that wait.** -/
structure Waiting (s : PeerSession) : Prop where
  order : Ordered s.pending
  own : ∀ id p, find s.pending id = some p →
    p.req.subId = id ∧ p.sid ∈ s.requested ∧ p.sid ∉ s.resets ∧ find s.serveSubs id = none
  apart : ∀ id id' p p', find s.pending id = some p → find s.pending id' = some p' → p.sid = p'.sid → id = id'
  setUp : s.setUp = false → s.pending = [] ∧ s.armed = false

namespace Waiting

variable {s : PeerSession}

theorem empty (hnil : s.pending = []) (harmed : s.armed = false) : Waiting s := by
  refine ⟨hnil ▸ List.Pairwise.nil, fun id p hp => ?_, fun id id' p p' hp => ?_, fun _ => ⟨hnil, harmed⟩⟩
  · rw [hnil, find_nil] at hp
    cases hp
  · rw [hnil, find_nil] at hp
    cases hp

theorem touched {ids : BitVec 64 → Prop} {s s' : PeerSession} (h : Waiting s) (ht : Touches ids s s')
    (hids : ∀ id p, find s.pending id = some p → ¬ids id) : Waiting s' where
  order := ht.pending ▸ h.order
  own := by
    intro id p hp
    rw [ht.pending] at hp
    obtain ⟨hid, hsid, hopen, hnone⟩ := h.own id p hp
    rw [ht.requested, ht.resets]
    exact ⟨hid, hsid, hopen, ht.new id (hids id p hp) hnone⟩
  apart := ht.pending ▸ h.apart
  setUp := by
    rw [ht.setUp, ht.pending, ht.armed]
    exact h.setUp

variable {id : BitVec 64} {p : PendingPeerSub}

theorem other (h : Waiting s) {sid : Nat} (hnew : sid ∉ s.requested) (hp : find s.pending id = some p) : p.sid ≠ sid := by
  rintro rfl
  exact hnew (h.own id p hp).2.1

theorem heard (h : Waiting s) {sid : Nat} (hnew : sid ∉ s.requested) (asked : List (Nat × BitVec 64)) :
    Waiting { s with requested := sid :: s.requested, asked := asked } ∧
      Waiting { s with requested := sid :: s.requested, resets := sid :: s.resets, asked := asked } := by
  refine ⟨⟨h.order, fun id p hp => ?_, h.apart, h.setUp⟩, ⟨h.order, fun id p hp => ?_, h.apart, h.setUp⟩⟩
  · obtain ⟨hid, hsid, hopen, hnone⟩ := h.own id p hp
    exact ⟨hid, mem_cons_of_mem _ hsid, hopen, hnone⟩
  · obtain ⟨hid, hsid, hopen, hnone⟩ := h.own id p hp
    have hne := h.other hnew hp
    exact ⟨hid, mem_cons_of_mem _ hsid, fun hmem => hopen ((List.mem_cons.1 hmem).resolve_left hne), hnone⟩

theorem waits (h : Waiting s) (hnew : p.sid ∉ s.requested) (hopen : p.sid ∉ s.resets)
    (hfree : find s.serveSubs p.req.subId = none) (harmed : s.armed = true) :
    Waiting { s.heardOn p.sid p.req.subId with pending := put s.pending p.req.subId p } where
  order := h.order.put _ _
  own := by
    intro id p' hp'
    rw [find_put] at hp'
    split at hp'
    · rename_i hid
      cases hp'
      exact ⟨hid.symm, mem_cons_self, hopen, hid ▸ hfree⟩
    · obtain ⟨hid, hsid, hreset, hnone⟩ := h.own id p' hp'
      exact ⟨hid, mem_cons_of_mem _ hsid, hreset, hnone⟩
  apart := by
    intro id id' q q' hq hq' hsid
    rw [find_put] at hq hq'
    split at hq
    · split at hq'
      · simp_all
      · cases hq
        exact absurd hsid.symm (h.other hnew hq')
    · split at hq'
      · cases hq'
        exact absurd hsid (h.other hnew hq)
      · exact h.apart id id' q q' hq hq' hsid
  setUp := by
    intro hset
    rw [(h.setUp hset).2] at harmed
    cases harmed

theorem find_late (h : Waiting s) (now : Int) :
    find (s.pending.filter fun e => now < e.2.deadlineMs) id = some p ↔ find s.pending id = some p ∧ now < p.deadlineMs := by
  rw [h.order.find_filter]
  simp

theorem swept (h : Waiting s) (now : Int) : Waiting (s.sweep now) := by
  unfold sweep
  split
  · exact h
  · refine ⟨h.order.filter _, fun id p hp => ?_, fun id id' p p' hp hp' => ?_, fun hset => ?_⟩
    · obtain ⟨hp, hlate⟩ := (h.find_late now).1 hp
      obtain ⟨hid, hsid, hopen, hnone⟩ := h.own id p hp
      refine ⟨hid, hsid, fun hmem => ?_, hnone⟩
      rcases List.mem_append.1 hmem with hmem | hmem
      · -- one stream has one subscription that waits
        obtain ⟨e, he, hsame⟩ := List.mem_map.1 hmem
        obtain ⟨he, hover⟩ := List.mem_filter.1 he
        have hfind : find s.pending e.1 = some e.2 := h.order.find_of_mem he
        have hkey := h.apart e.1 id e.2 p hfind hp hsame
        rw [hkey, hp, Option.some.injEq] at hfind
        rw [← hfind] at hover
        have hover : p.deadlineMs ≤ now := by simpa using hover
        omega
      · exact hopen hmem
    · exact h.apart id id' p p' ((h.find_late now).1 hp).1 ((h.find_late now).1 hp').1
    · obtain ⟨hnil, harmed⟩ := h.setUp hset
      simp [hnil, harmed]

theorem erased (h : Waiting s) (id : BitVec 64) : Waiting { s with pending := erase s.pending id } := by
  have hrest : ∀ {id' q}, find (erase s.pending id) id' = some q → find s.pending id' = some q := by
    intro id' q hq
    rw [find_erase] at hq
    split at hq
    · cases hq
    · exact hq
  refine ⟨h.order.filter _, fun id' q hq => h.own id' q (hrest hq), fun i j q r hq hr => h.apart i j q r (hrest hq) (hrest hr),
    fun hset => ?_⟩
  obtain ⟨hnil, harmed⟩ := h.setUp hset
  simp [hnil, harmed, erase]

variable (kindOf : List Byte → Name → Option ServeKind) (own : EgressNet) (net : BitVec 64 → EgressNet) (ms : MediaStreams)

theorem retryOne (h : Waiting s) (id : BitVec 64) :
    Waiting (PeerSession.retryOne kindOf own net ms s id) ∧ (PeerSession.retryOne kindOf own net ms s id = s ∨
      ∃ p, find s.pending id = some p ∧ p.req.subId = id ∧
        resolveServeTrack kindOf s.routed ms p.req.broadcast p.req.track ≠ none ∧
        Touches (· = id) { s with pending := erase s.pending id } (PeerSession.retryOne kindOf own net ms s id) ∧
        ((∀ json track, kindOf json track ≠ some .catalog) → AttachOk kindOf own net ms s p →
          Attached (PeerSession.retryOne kindOf own net ms s id) p.sid id) ∧
        ∃ v, find (PeerSession.retryOne kindOf own net ms s id).serveSubs id = some v ∧ v.sid = p.sid) := by
  cases hp : find s.pending id with
  | none =>
    rw [retryOne_none _ _ _ _ hp]
    exact ⟨h, .inl rfl⟩
  | some p =>
    obtain ⟨hid, hsid, hopen, hnone⟩ := h.own id p hp
    rw [retryOne_some _ _ _ _ hp hsid hopen]
    split
    · exact ⟨h, .inl rfl⟩
    · rename_i hres
      obtain ⟨ht, hatt, hserve⟩ := attach_spec kindOf own net ms (s := { s with pending := erase s.pending id }) hsid hopen
        (hid ▸ hnone) hres
      rw [hid] at ht hatt hserve
      refine ⟨(h.erased id).touched ht fun id' q hq heq => ?_, .inr ⟨p, rfl, hid, hres, ht, hatt, hserve⟩⟩
      rw [heq, find_erase, if_pos rfl] at hq
      cases hq

theorem not_outdated (h : Waiting s) {key : Name} {rev : Nat} (hp : find s.pending id = some p) : id ∉ s.outdated key rev := by
  intro hout
  obtain ⟨e, he, rfl⟩ := List.mem_map.1 hout
  have hnone := (h.own e.1 p hp).2.2.2
  unfold find at hnone
  simpa using List.find?_eq_none.1 (Option.map_eq_none_iff.1 hnone) e (List.mem_filter.1 he).1

theorem updateCatalogs (h : Waiting s) (key : Name) (json : List Byte) (rev : Nat) :
    Waiting (s.updateCatalogs own key json rev) :=
  h.touched (updateCatalogs_touches own s key json rev) fun _ _ hp => h.not_outdated hp

theorem updated (h : Waiting s) (key : Name) (rev : Nat) : Waiting (s.catalogUpdated kindOf own net ms key rev) := by
  unfold catalogUpdated
  split
  · exact h
  · split
    · exact h
    · exact foldl_inv _ (fun _ _ => True) Waiting (fun s id hs _ => (hs.retryOne kindOf own net ms id).1) _ _
        (h.updateCatalogs own key _ _) (stepsOk_of_forall _ _ _ _ fun _ _ _ => trivial)

theorem subscribe (h : Waiting s) (sid : Nat) (body : List Byte) (missing : Bool) (now : Int) : (s.subscribe kindOf own net ms sid
    body missing now).dead = true ∨ Waiting (s.subscribe kindOf own net ms sid body missing now) := by
  rcases subscribe_cases kindOf own net ms s sid body missing now with heq | heq | ⟨hopen, hnew, hcase⟩
  · rw [heq]
    exact .inr h
  · rw [heq]
    exact .inl rfl
  · refine .inr ?_
    rcases hcase with heq | ⟨harmed, req, hreq, hfree, hpend, ⟨hserv, key, heq⟩ | ⟨p, rfl, rfl, heq⟩ | heq⟩
    · rw [heq]
      exact (h.heard hnew s.asked).2
    · rw [heq]
      obtain ⟨ht, -⟩ := attach_spec kindOf own net ms (s := s.heardOn sid req.subId) (p := ⟨sid, req, key, 0⟩)
        mem_cons_self hopen hfree hserv
      refine (h.heard hnew _).1.touched ht fun id q hq heq => ?_
      rw [heq] at hq
      exact absurd (hpend.symm.trans hq) (by simp)
    · rw [heq]
      exact h.waits hnew hopen hfree harmed
    · rw [heq]
      exact (h.heard hnew _).2

end Waiting
end PeerSession

open PeerSession

variable (kindOf : List Byte → Name → Option ServeKind) (own : EgressNet) (net : BitVec 64 → EgressNet)

variable {s : PeerSession}

theorem step_dead (hdead : s.dead = true) (op : PeerOp) : (s.step kindOf own net op).dead = true := by
  cases op <;> simp [PeerSession.step, PeerSession.setup, PeerSession.subscribe, PeerSession.catalogUpdated,
    PeerSession.sweep, PeerSession.packet, PeerSession.destroy, hdead]

theorem PeerSession.Waiting.step (h : s.dead = false → Waiting s) (op : PeerOp) :
    (s.step kindOf own net op).dead = false → Waiting (s.step kindOf own net op) := by
  intro hlives
  have halive : s.dead = false := by
    cases hdead : s.dead with
    | true => rw [step_dead kindOf own net hdead op] at hlives; cases hlives
    | false => rfl
  have h := h halive
  cases op with
  | setup path serves =>
    unfold PeerSession.step PeerSession.setup
    dsimp only
    split
    · exact h
    · exact { h with setUp := fun hset => nomatch hset }
  | subscribe ms sid body missing now =>
    rcases h.subscribe kindOf own net ms sid body missing now with hdead | hw
    · exact absurd (hdead.symm.trans hlives) (by simp)
    · exact hw
  | catalogUpdated ms key rev => exact h.updated kindOf own net ms key rev
  | sweep now => exact h.swept now
  | packet key p => exact { h with }
  | ended sid => exact { h with }
  | close => cases hlives
  | destroy => cases hlives

/-! ## When every SUBSCRIBE of the peer is settled -/

open OrdMap

namespace PeerSession

def Waits (s : PeerSession) (sid : Nat) (id : BitVec 64) : Prop := ∃ p, find s.pending id = some p ∧ p.sid = sid

/-- **Each SUBSCRIBE is settled**: its stream is reset, or it is attached, or it waits. -/
structure Settled (s : PeerSession) : Prop where
  heard : ∀ sid ∈ s.requested, sid ∈ s.resets ∨ ∃ id, (sid, id) ∈ s.asked
  asked : ∀ sid id, (sid, id) ∈ s.asked → Attached s sid id ∨ sid ∈ s.resets ∨ Waits s sid id

theorem Settled.touched {ids : BitVec 64 → Prop} {s s' : PeerSession} (h : Settled s) (ht : Touches ids s s') : Settled s' where
  heard := by
    rw [ht.requested, ht.resets, ht.asked]
    exact h.heard
  asked := by
    intro sid id hmem
    rw [ht.asked] at hmem
    unfold Waits
    rw [ht.resets, ht.pending]
    exact (h.asked sid id hmem).imp_left fun ha => ha.kept_on ht

theorem Settled.refused {s : PeerSession} (h : Settled s) {sid : Nat} {asked : List (Nat × BitVec 64)} (hsub : s.asked ⊆ asked)
    (hasked : ∀ a ∈ asked, a ∈ s.asked ∨ a.1 = sid) :
    Settled { s with requested := sid :: s.requested, resets := sid :: s.resets, asked := asked } where
  heard := by
    intro x hx
    rcases List.mem_cons.1 hx with rfl | hx
    · exact .inl mem_cons_self
    · rcases h.heard x hx with hreset | ⟨id, hid⟩
      · exact .inl (mem_cons_of_mem _ hreset)
      · exact .inr ⟨id, hsub hid⟩
  asked := by
    intro x id hmem
    rcases hasked _ hmem with hmem | rfl
    · rcases h.asked x id hmem with hatt | hreset | hwait
      · exact .inl ⟨hatt.started, hatt.kept⟩
      · exact .inr (.inl (mem_cons_of_mem _ hreset))
      · exact .inr (.inr hwait)
    · exact .inr (.inl mem_cons_self)

theorem Settled.heardOn {s s' : PeerSession} (h : Settled s) {sid : Nat} {id : BitVec 64}
    (hreq : s'.requested = sid :: s.requested) (hresets : s'.resets = s.resets) (hasked : s'.asked = (sid, id) :: s.asked)
    (hatt : ∀ x y, Attached s x y → Attached s' x y) (hwait : ∀ x y, Waits s x y → Waits s' x y)
    (hnew : Attached s' sid id ∨ Waits s' sid id) : Settled s' where
  heard := by
    rw [hreq, hresets, hasked]
    intro x hx
    rcases List.mem_cons.1 hx with rfl | hx
    · exact .inr ⟨id, mem_cons_self⟩
    · exact (h.heard x hx).imp_right fun ⟨id', hid'⟩ => ⟨id', mem_cons_of_mem _ hid'⟩
  asked := by
    intro x y hmem
    rw [hasked] at hmem
    rcases List.mem_cons.1 hmem with heq | hmem
    · cases heq
      exact hnew.imp_right .inr
    · rcases h.asked x y hmem with ha | hr | hw
      · exact .inl (hatt x y ha)
      · exact .inr (.inl (hresets ▸ hr))
      · exact .inr (.inr (hwait x y hw))

theorem Settled.attached {s s' : PeerSession} (h : Settled s) {sid : Nat} {id : BitVec 64}
    (ht : Touches (· = id) (s.heardOn sid id) s') (hatt : Attached s' sid id) : Settled s' := by
  refine h.heardOn ht.requested ht.resets ht.asked (fun x y ha => ?_) (fun x y hw => ?_) (.inl hatt)
  · exact Attached.kept_on (s := s.heardOn sid id) ⟨ha.started, ha.kept⟩ ht
  · unfold Waits
    rw [ht.pending]
    exact hw

variable {s : PeerSession}

theorem Settled.waits (h : Settled s) {p : PendingPeerSub} (hpend : find s.pending p.req.subId = none) :
    Settled { s.heardOn p.sid p.req.subId with pending := put s.pending p.req.subId p } := by
  refine h.heardOn rfl rfl rfl (fun x y ha => ⟨ha.started, ha.kept⟩) (fun x y hw => ?_) (.inr ⟨p, by simp, rfl⟩)
  obtain ⟨q, hq, hsid⟩ := hw
  have hne : y ≠ p.req.subId := by
    rintro rfl
    exact absurd (hpend.symm.trans hq) (by simp)
  exact ⟨q, by simp [hne, hq], hsid⟩

theorem Settled.swept (h : Settled s) (hw : Waiting s) (now : Int) : Settled (s.sweep now) ∧ (s.dead = false →
    ∀ id p, find s.pending id = some p → p.deadlineMs ≤ now → p.sid ∈ (s.sweep now).resets ∧ find (s.sweep now).pending id =
    none) := by
  unfold sweep
  split
  · rename_i hdead
    exact ⟨h, fun halive => by rw [hdead] at halive; cases halive⟩
  · have hreset : ∀ {id p}, find s.pending id = some p → p.deadlineMs ≤ now →
        p.sid ∈ ((s.pending.filter fun e => e.2.deadlineMs ≤ now).map fun e => e.2.sid) ++ s.resets := by
      intro id p hp hover
      refine mem_append_left _ (List.mem_map.2 ⟨(id, p), List.mem_filter.2 ⟨mem_of_find hp, ?_⟩, rfl⟩)
      simpa using hover
    refine ⟨⟨fun x hx => ?_, fun x id hmem => ?_⟩, fun _ id p hp hover => ⟨hreset hp hover, ?_⟩⟩
    · exact (h.heard x hx).imp_left fun hr => mem_append_right _ hr
    · rcases h.asked x id hmem with hatt | hr | ⟨p, hp, rfl⟩
      · exact .inl ⟨hatt.started, hatt.kept⟩
      · exact .inr (.inl (mem_append_right _ hr))
      · by_cases hover : p.deadlineMs ≤ now
        · exact .inr (.inl (hreset hp hover))
        · exact .inr (.inr ⟨p, (hw.find_late now).2 ⟨hp, by omega⟩, rfl⟩)
    · cases hf : find (s.pending.filter fun e => now < e.2.deadlineMs) id with
      | none => rfl
      | some q =>
        obtain ⟨hq, hlate⟩ := (hw.find_late now).1 hf
        rw [hp, Option.some.injEq] at hq
        rw [← hq] at hlate
        omega

variable (kindOf : List Byte → Name → Option ServeKind) (own : EgressNet) (net : BitVec 64 → EgressNet)

def Servable (ms : MediaStreams) (s : PeerSession) (p : PendingPeerSub) : Prop :=
  resolveServeTrack kindOf s.routed ms p.req.broadcast p.req.track ≠ none

/-- What retries keep, and what they settle: those of `ids` that can be served are attached. -/
structure Retried (ms : MediaStreams) (ids : BitVec 64 → Prop) (s s' : PeerSession) : Prop where
  settled : Settled s'
  waiting : Waiting s'
  routed : s'.routed = s.routed
  others : ∀ id, ¬ids id → find s'.pending id = find s.pending id
  kept : ∀ sid id, Attached s sid id → Attached s' sid id
  attached : ∀ id p, ids id → find s.pending id = some p → Servable kindOf ms s p → Attached s' p.sid id

def RetryOk (ms : MediaStreams) (s : PeerSession) (id : BitVec 64) : Prop :=
  ∀ p, find s.pending id = some p → AttachOk kindOf own net ms s p

theorem Settled.retryOne (hkinds : ∀ json track, kindOf json track ≠ some .catalog) (ms : MediaStreams) {s : PeerSession}
    (h : Settled s) (hw : Waiting s) {id : BitVec 64} (hok : RetryOk kindOf own net ms s id) :
    Retried kindOf ms (· = id) s (retryOne kindOf own net ms s id) := by
  obtain ⟨hw', hcase⟩ := hw.retryOne kindOf own net ms id
  rcases hcase with heq | ⟨p, hp, -, -, ht, hatt, -⟩
  · refine ⟨heq.symm ▸ h, hw', by rw [heq], fun _ _ => by rw [heq], fun _ _ ha => heq.symm ▸ ha, fun id' p hid hp hserv => ?_⟩
    -- one that can be served is not left as it was
    rw [hid] at hp
    obtain ⟨hpid, hsid, hopen, hnone⟩ := hw.own id p hp
    have hgone := congrArg (fun t => find t.pending id) heq
    rw [retryOne_some _ _ _ _ hp hsid hopen, if_neg hserv] at hgone
    obtain ⟨ht, -⟩ := attach_spec kindOf own net ms (s := { s with pending := erase s.pending id }) hsid hopen
      (hpid ▸ hnone) hserv
    rw [ht.pending, find_erase, if_pos rfl, hp] at hgone
    cases hgone
  · have hatt := hatt hkinds (hok p hp)
    have hkept : ∀ x y, Attached s x y → Attached (PeerSession.retryOne kindOf own net ms s id) x y := fun x y ha =>
      Attached.kept_on (s := { s with pending := erase s.pending id }) ⟨ha.started, ha.kept⟩ ht
    have hpend : ∀ id', find (PeerSession.retryOne kindOf own net ms s id).pending id' =
        if id' = id then none else find s.pending id' := by
      intro id'
      rw [ht.pending, find_erase]
    refine ⟨⟨?_, fun x y hmem => ?_⟩, hw', ht.routed, fun id' hne => by rw [hpend, if_neg hne], hkept,
      fun id' q hid' hq _ => ?_⟩
    · rw [ht.requested, ht.resets, ht.asked]
      exact h.heard
    · rw [ht.asked] at hmem
      rw [ht.resets]
      rcases h.asked x y hmem with ha | hr | ⟨q, hq, rfl⟩
      · exact .inl (hkept x y ha)
      · exact .inr (.inl hr)
      · by_cases hy : y = id
        · rw [hy, hp, Option.some.injEq] at hq
          rw [← hq, hy]
          exact .inl hatt
        · exact .inr (.inr ⟨q, by rw [hpend, if_neg hy]; exact hq, rfl⟩)
    · rw [hid', hp, Option.some.injEq] at hq
      rw [hid', ← hq]
      exact hatt

theorem Settled.retries (hkinds : ∀ json track, kindOf json track ≠ some .catalog) (ms : MediaStreams) :
    ∀ (ids : List (BitVec 64)) {s : PeerSession}, Settled s → Waiting s →
      StepsOk (PeerSession.retryOne kindOf own net ms) (RetryOk kindOf own net ms) s ids →
      Retried kindOf ms (· ∈ ids) s (ids.foldl (PeerSession.retryOne kindOf own net ms) s)
  | [], s, h, hw, _ => ⟨h, hw, rfl, fun _ _ => rfl, fun _ _ ha => ha, fun _ _ hid => (nomatch hid)⟩
  | id :: ids, s, h, hw, hok => by
    have hfirst := h.retryOne kindOf own net hkinds ms hw hok.1
    have hrest := hfirst.settled.retries hkinds ms ids hfirst.waiting hok.2
    rw [foldl_cons]
    refine ⟨hrest.settled, hrest.waiting, hrest.routed.trans hfirst.routed, fun x hx => ?_,
      fun x y ha => hrest.kept x y (hfirst.kept x y ha), fun x p hx hp hserv => ?_⟩
    · rw [hrest.others x fun hmem => hx (mem_cons_of_mem _ hmem), hfirst.others x fun heq => hx (heq ▸ mem_cons_self)]
    · by_cases hxid : x = id
      · exact hrest.kept _ _ (hfirst.attached x p hxid hp hserv)
      · refine hrest.attached x p ((List.mem_cons.1 hx).resolve_left hxid) ?_ ?_
        · rw [hfirst.others x hxid]
          exact hp
        · unfold Servable
          rw [hfirst.routed]
          exact hserv

/-- **The condition on an update**: what waits and can be served now waits for the key that was updated, the key has a catalog,
and no answer is refused. -/
structure UpdateOk (ms : MediaStreams) (key : Name) (rev : Nat) (s : PeerSession) : Prop where
  waits : ∀ id p, find s.pending id = some p → Servable kindOf ms s p → p.key = key ∧ key ≠ [] ∧ catalogRevOf ms key ≠ none
  answers : ∀ json curRev, catalogRevOf ms key = some (json, curRev) →
    let s' := s.updateCatalogs own key json (min rev curRev)
    StepsOk (PeerSession.retryOne kindOf own net ms) (RetryOk kindOf own net ms) s' (s'.waiting key)

theorem Settled.updated (hkinds : ∀ json track, kindOf json track ≠ some .catalog) {ms : MediaStreams} {key : Name} {rev : Nat} (h : Settled s) (hw : Waiting s) (halive : s.dead = false) (hok : UpdateOk kindOf own net ms key rev s) :
    Settled (s.catalogUpdated kindOf own net ms key rev) ∧ ∀ id p, find s.pending id = some p → Servable kindOf ms s p →
      Attached (s.catalogUpdated kindOf own net ms key rev) p.sid id := by
  unfold catalogUpdated
  split
  · rename_i hcond
    refine ⟨h, fun id p hp hserv => ?_⟩
    rcases hcond with hdead | hnil
    · rw [halive] at hdead
      cases hdead
    · exact absurd hnil (hok.waits id p hp hserv).2.1
  split
  · rename_i hcat
    exact ⟨h, fun id p hp hserv => absurd hcat (hok.waits id p hp hserv).2.2⟩
  · rename_i json curRev hcat
    have ht := updateCatalogs_touches own s key json (min rev curRev)
    have hretry := (h.touched ht).retries kindOf own net hkinds ms _ (hw.updateCatalogs own key json _)
      (hok.answers json curRev hcat)
    refine ⟨hretry.settled, fun id p hp hserv => hretry.attached id p ?_ (ht.pending ▸ hp) ?_⟩
    · unfold waiting
      rw [ht.pending]
      exact List.mem_map.2 ⟨(id, p), List.mem_filter.2 ⟨mem_of_find hp, by simpa using (hok.waits id p hp hserv).1⟩, rfl⟩
    · unfold Servable
      rw [ht.routed]
      exact hserv

theorem Settled.subscribe (hkinds : ∀ json track, kindOf json track ≠ some .catalog) {ms : MediaStreams} (h : Settled s)
    {sid : Nat} {body : List Byte} {missing : Bool} {now : Int} (hok : sid ∉ s.requested → ∀ req, readSubscribe body = some req →
    AttachOk kindOf own net ms s ⟨sid, req, [], 0⟩) : (s.subscribe kindOf own net ms sid body missing now).dead = true ∨
    Settled (s.subscribe kindOf own net ms sid body missing now) := by
  rcases subscribe_cases kindOf own net ms s sid body missing now with heq | heq | ⟨hopen, hnew, hcase⟩
  · rw [heq]
    exact .inr h
  · rw [heq]
    exact .inl rfl
  · refine .inr ?_
    rcases hcase with heq | ⟨harmed, req, hreq, hfree, hpend, ⟨hserv, key, heq⟩ | ⟨p, rfl, rfl, heq⟩ | heq⟩
    · rw [heq]
      exact h.refused (List.Subset.refl _) fun a ha => .inl ha
    · rw [heq]
      obtain ⟨ht, hatt, -⟩ := attach_spec kindOf own net ms (s := s.heardOn sid req.subId) (p := ⟨sid, req, key, 0⟩)
        mem_cons_self hopen hfree hserv
      exact h.attached ht (hatt hkinds (hok hnew req hreq))
    · rw [heq]
      exact h.waits hpend
    · rw [heq]
      refine h.refused (subset_cons_self _ _) fun a ha => ?_
      rcases List.mem_cons.1 ha with rfl | ha
      · exact .inr rfl
      · exact .inl ha

end PeerSession

open PeerSession

variable (kindOf : List Byte → Name → Option ServeKind) (own : EgressNet) (net : BitVec 64 → EgressNet)

/-- **A step settles**: each SUBSCRIBE is settled while the session lives, a catalog update attaches all that wait and can be
served, and those whose time is over are reset. -/
structure OpSettled (s : PeerSession) (op : PeerOp) : Prop where
  settled : (s.step kindOf own net op).dead = false → Settled (s.step kindOf own net op)
  attached : ∀ ms key rev, op = .catalogUpdated ms key rev → s.dead = false → ∀ id p, find s.pending id = some p →
    Servable kindOf ms s p → Attached (s.step kindOf own net op) p.sid id
  refused : ∀ now, op = .sweep now → s.dead = false → ∀ id p, find s.pending id = some p → p.deadlineMs ≤ now →
    p.sid ∈ (s.step kindOf own net op).resets ∧ find (s.step kindOf own net op).pending id = none

/-- **The condition on a step**: no answer is refused, media is not asked for on stream 0, and what waits and can be served
waits for the key whose catalog was updated. -/
def SettleOk (s : PeerSession) : PeerOp → Prop
  | .subscribe ms sid body _ _ => s.dead = false → sid ∉ s.requested →
      ∀ req, readSubscribe body = some req → AttachOk kindOf own net ms s ⟨sid, req, [], 0⟩
  | .catalogUpdated ms key rev => s.dead = false → UpdateOk kindOf own net ms key rev s
  | _ => True

theorem PeerSession.Settled.step (hkinds : ∀ json track, kindOf json track ≠ some .catalog) (h : Settled s)
    (hw : Waiting s) (halive : s.dead = false) {op : PeerOp} (hok : SettleOk kindOf own net s op) :
    (s.step kindOf own net op).dead = true ∨ Settled (s.step kindOf own net op) := by
  -- what does not touch the subscriptions
  have hsame : ∀ s' : PeerSession, s'.requested = s.requested → s'.resets = s.resets → s'.asked = s.asked →
      s'.pending = s.pending → s'.answered = s.answered → s'.serveSubs = s.serveSubs → s'.players = s.players → Settled s' := by
    intro s' hreq hresets hasked hpend hans hsubs hplayers
    refine ⟨by rw [hreq, hresets, hasked]; exact h.heard, fun x id hmem => ?_⟩
    rw [hasked] at hmem
    refine (h.asked x id hmem).imp (fun ha => ⟨hans ▸ ha.started, ?_⟩) (Or.imp (hresets ▸ ·) fun hwait => ?_)
    · rw [hsubs, hplayers]
      exact ha.kept
    · unfold Waits
      rw [hpend]
      exact hwait
  cases op with
  | setup path serves =>
    refine .inr ?_
    unfold PeerSession.step PeerSession.setup
    dsimp only
    split
    · exact h
    · exact hsame _ rfl rfl rfl rfl rfl rfl rfl
  | subscribe ms sid body missing now => exact h.subscribe kindOf own net hkinds (hok halive)
  | catalogUpdated ms key rev => exact .inr (h.updated kindOf own net hkinds hw halive (hok halive)).1
  | sweep now => exact .inr (h.swept hw now).1
  | packet key p => exact .inr (hsame _ rfl rfl rfl rfl rfl rfl rfl)
  | ended sid => exact .inr (hsame _ rfl rfl rfl rfl rfl rfl rfl)
  | close => exact .inl rfl
  | destroy => exact .inl rfl

theorem settles_step (hkinds : ∀ json track, kindOf json track ≠ some .catalog) (h : s.dead = false → Settled s ∧ Waiting s)
    {op : PeerOp} (hok : SettleOk kindOf own net s op) : ((s.step kindOf own net op).dead = false → Settled (s.step kindOf own net
    op) ∧ Waiting (s.step kindOf own net op)) ∧ OpSettled kindOf own net s op := by
  have hsettled : (s.step kindOf own net op).dead = false → Settled (s.step kindOf own net op) := by
    intro hlives
    cases hdead : s.dead with
    | true =>
      rw [step_dead kindOf own net hdead op] at hlives
      cases hlives
    | false =>
      obtain ⟨hs, hw⟩ := h hdead
      rcases hs.step kindOf own net hkinds hw hdead hok with hdied | hsettled
      · rw [hdied] at hlives
        cases hlives
      · exact hsettled
  refine ⟨fun hlives => ⟨hsettled hlives, Waiting.step kindOf own net (fun halive => (h halive).2) op hlives⟩, hsettled, ?_, ?_⟩
  · rintro ms key rev rfl halive id p hp hserv
    obtain ⟨hs, hw⟩ := h halive
    exact (hs.updated kindOf own net hkinds hw halive (hok halive)).2 id p hp hserv
  · rintro now rfl halive id p hp hover
    obtain ⟨hs, hw⟩ := h halive
    exact (hs.swept hw now).2 halive id p hp hover

/-- **Every SUBSCRIBE of the peer is settled**, at each step of a run whose steps meet the condition. -/
theorem peer_subscribes_settled (hkinds : ∀ json track, kindOf json track ≠ some .catalog) (deferredMs : Int)
    (ops : List PeerOp) (h : StepsOk (PeerSession.step kindOf own net) (SettleOk kindOf own net) { deferredMs := deferredMs } ops)
    (pre : List PeerOp) (op : PeerOp) (post : List PeerOp) (hops : ops = pre ++ op :: post) :
    OpSettled kindOf own net (PeerSession.run kindOf own net { deferredMs := deferredMs } pre) op := by
  have hstart : Settled { deferredMs := deferredMs } ∧ Waiting { deferredMs := deferredMs } :=
    ⟨⟨fun x hx => (nomatch hx), fun x id hmem => (nomatch hmem)⟩, Waiting.empty rfl rfl⟩
  rw [hops, stepsOk_append] at h
  have hinv := foldl_inv _ _ (fun s : PeerSession => s.dead = false → Settled s ∧ Waiting s)
    (fun s e hs hok => (settles_step kindOf own net hkinds hs hok).1) pre { deferredMs := deferredMs } (fun _ => hstart) h.1
  exact (settles_step kindOf own net hkinds hinv h.2.1).2

/-! ## The condition on concrete runs -/

def videoOnly (_ : List Byte) (track : Name) : Option ServeKind := if track = ['v'] then some .video else none

def takesAll : EgressNet := ⟨fun _ => .ok, fun n => some (4 * n + 3)⟩

def subscribeBody (broadcast track : List Byte) : List Byte :=
  0 :: BitVec.ofNat 8 broadcast.length :: broadcast ++ BitVec.ofNat 8 track.length :: track ++ [0, 0, 0, 0, 0, 0]

def catalogAt (key : Name) : MediaStreams := [(key, { catalogJson := [1], catalogRev := 1 })]

theorem peer_subscribes_settled_sample : OpSettled videoOnly takesAll (fun _ => takesAll)
    (PeerSession.run videoOnly takesAll (fun _ => takesAll) {} [.setup ['a'] true, .subscribe [] 4 (subscribeBody [98] [118]) true 0])
    (.catalogUpdated (catalogAt ['a', '/', 'b']) ['a', '/', 'b'] 1) := by
  have hkinds : ∀ json track, videoOnly json track ≠ some .catalog := by
    intro json track h
    unfold videoOnly at h
    split at h <;> cases h
  have hanswer : ∀ (s : PeerSession) (sid : Nat) (id : BitVec 64) (kind : ServeKind), sid ≠ 0 →
      PeerSession.AnswerOk takesAll (fun _ => takesAll) s sid id kind := by
    intro s sid id kind hsid
    cases kind with
    | catalog => exact (nomatch ·)
    | video => exact ⟨hsid, (nomatch ·)⟩
    | audio => exact ⟨hsid, (nomatch ·)⟩
  refine peer_subscribes_settled videoOnly takesAll (fun _ => takesAll) hkinds 3000
    [.setup ['a'] true, .subscribe [] 4 (subscribeBody [98] [118]) true 0, .catalogUpdated (catalogAt ['a', '/', 'b']) ['a', '/', 'b'] 1]
    ⟨trivial, fun _ _ req _ key kind _ => hanswer _ _ _ _ (by simp), fun _ => ⟨fun id p hp _ => ?_, fun json curRev hcat => ?_⟩,
      trivial⟩ _ _ [] rfl
  · have hkey : ∀ e ∈ (PeerSession.run videoOnly takesAll (fun _ => takesAll) {}
        [.setup ['a'] true, .subscribe [] 4 (subscribeBody [98] [118]) true 0]).pending, e.2.key = ['a', '/', 'b'] := by decide +kernel
    exact ⟨hkey _ (mem_of_find hp), by decide, by decide⟩
  · obtain ⟨rfl, rfl⟩ : json = [1] ∧ curRev = 1 := by
      have hrev : catalogRevOf (catalogAt ['a', '/', 'b']) ['a', '/', 'b'] = some ([1], 1) := by decide
      rw [hrev] at hcat
      cases hcat
      exact ⟨rfl, rfl⟩
    have hwait : (PeerSession.updateCatalogs takesAll (PeerSession.run videoOnly takesAll (fun _ => takesAll) {}
        [.setup ['a'] true, .subscribe [] 4 (subscribeBody [98] [118]) true 0]) ['a', '/', 'b'] [1] (min 1 1)).waiting
          ['a', '/', 'b'] = [0] := by decide +kernel
    have hsid : ∀ e ∈ (PeerSession.updateCatalogs takesAll (PeerSession.run videoOnly takesAll (fun _ => takesAll) {}
        [.setup ['a'] true, .subscribe [] 4 (subscribeBody [98] [118]) true 0]) ['a', '/', 'b'] [1] (min 1 1)).pending,
          e.2.sid ≠ 0 := by decide +kernel
    refine (congrArg (StepsOk _ _ _) hwait).mpr ⟨fun p hp key kind _ => ?_, trivial⟩
    exact hanswer _ _ _ _ (hsid _ (mem_of_find hp))

/-- **A track of media asked for on the peer's first stream is neither answered nor reset**: the writer takes the number 0 for
no stream. -/
theorem media_on_stream_zero : ¬OpSettled videoOnly takesAll (fun _ => takesAll)
    (PeerSession.run videoOnly takesAll (fun _ => takesAll) {} [.setup ['a'] true])
    (.subscribe (catalogAt ['a', '/', 'b']) 0 (subscribeBody [98] [118]) true 0) := by
  intro h
  have hset := h.settled (by decide +kernel)
  rcases hset.asked 0 0 (by decide +kernel) with hatt | hreset | ⟨p, hp, -⟩
  · exact absurd hatt.started (by decide +kernel)
  · exact absurd hreset (by decide +kernel)
  · exact absurd (mem_of_find hp) (by
      have hnil : (PeerSession.step videoOnly takesAll (fun _ => takesAll)
          (PeerSession.run videoOnly takesAll (fun _ => takesAll) {} [.setup ['a'] true])
          (.subscribe (catalogAt ['a', '/', 'b']) 0 (subscribeBody [98] [118]) true 0)).pending = [] := by decide +kernel
      rw [hnil]
      exact not_mem_nil)

end MoqLiveCast
