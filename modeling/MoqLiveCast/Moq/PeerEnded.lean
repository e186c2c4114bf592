import MoqLiveCast.Moq.PeerWaiting
/-!
# PeerEnded — when a subscription is silent after the peer ended its stream

The session takes no notice of the end of a Subscribe stream, so a writer that is registered goes on (`ended_goes_on`).
-/
namespace MoqLiveCast

open OrdMap

namespace PeerSession

/-- No group and no frame of the subscription is handed to the transport. -/
structure HandsNothing (s s' : PeerSession) (id : BitVec 64) : Prop where
  groups : s'.groupsOf id = s.groupsOf id
  frames : ∀ e', find s'.egress id = some e' → ∃ e, find s.egress id = some e ∧ e'.egress.out.sent = e.egress.out.sent

theorem HandsNothing.refl (s : PeerSession) (id : BitVec 64) : HandsNothing s s id := ⟨rfl, fun e he => ⟨e, he, rfl⟩⟩

theorem HandsNothing.trans {s s' s'' : PeerSession} {id : BitVec 64} (h : HandsNothing s s' id) (h' : HandsNothing s' s'' id) :
    HandsNothing s s'' id := by
  refine ⟨h'.groups.trans h.groups, fun e'' he'' => ?_⟩
  obtain ⟨e', he', hsent'⟩ := h'.frames e'' he''
  obtain ⟨e, he, hsent⟩ := h.frames e' he'
  exact ⟨e, he, hsent'.trans hsent⟩

/-- **No writer of an ended stream is registered.** -/
def Stopped (s : PeerSession) : Prop := ∀ id v, find s.serveSubs id = some v → v.sid ∈ s.ended → id ∉ s.players

/-- **A step is silent**: afterwards no writer of an ended stream is registered, and nothing was handed over for a stream that
had ended. -/
def Silent (s s' : PeerSession) : Prop := ∀ id v, find s'.serveSubs id = some v → v.sid ∈ s'.ended →
  id ∉ s'.players ∧ (v.sid ∈ s.ended → HandsNothing s s' id)

/-- What is served for an ended stream was served before, and is left alone. -/
structure Leaves (s s' : PeerSession) : Prop where
  ended : s'.ended = s.ended
  old : ∀ id v, find s'.serveSubs id = some v → v.sid ∈ s.ended → ∃ v₀, find s.serveSubs id = some v₀ ∧ v₀.sid = v.sid
  registered : ∀ id v, find s'.serveSubs id = some v → v.sid ∈ s.ended → id ∈ s'.players → id ∈ s.players
  nothing : ∀ id v, find s'.serveSubs id = some v → v.sid ∈ s.ended → HandsNothing s s' id

theorem Leaves.refl (s : PeerSession) : Leaves s s :=
  ⟨rfl, fun _ v hv _ => ⟨v, hv, rfl⟩, fun _ _ _ _ h => h, fun id _ _ _ => HandsNothing.refl s id⟩

theorem Leaves.same {s s' : PeerSession} (hend : s'.ended = s.ended) (hsubs : s'.serveSubs = s.serveSubs)
    (hplayers : s'.players = s.players) (hgroups : s'.groups = s.groups) (hegress : s'.egress = s.egress) : Leaves s s' := by
  refine ⟨hend, fun id v hv _ => ⟨v, hsubs ▸ hv, rfl⟩, fun id v _ _ hmem => hplayers ▸ hmem, fun id v _ _ => ⟨?_, fun e he => ?_⟩⟩
  · unfold groupsOf
    rw [hgroups]
  · exact ⟨e, hegress ▸ he, rfl⟩

theorem Leaves.trans {s s' s'' : PeerSession} (h : Leaves s s') (h' : Leaves s' s'') : Leaves s s'' := by
  have hback : ∀ id v, find s''.serveSubs id = some v → v.sid ∈ s.ended →
      ∃ v', find s'.serveSubs id = some v' ∧ v'.sid = v.sid ∧ v'.sid ∈ s.ended := by
    intro id v hv hend
    obtain ⟨v', hv', hsid⟩ := h'.old id v hv (h.ended ▸ hend)
    exact ⟨v', hv', hsid, hsid ▸ hend⟩
  refine ⟨h'.ended.trans h.ended, fun id v hv hend => ?_, fun id v hv hend hmem => ?_, fun id v hv hend => ?_⟩
  · obtain ⟨v', hv', hsid, hend'⟩ := hback id v hv hend
    obtain ⟨v₀, hv₀, hsid₀⟩ := h.old id v' hv' hend'
    exact ⟨v₀, hv₀, hsid₀.trans hsid⟩
  · obtain ⟨v', hv', -, hend'⟩ := hback id v hv hend
    exact h.registered id v' hv' hend' (h'.registered id v hv (h.ended ▸ hend) hmem)
  · obtain ⟨v', hv', -, hend'⟩ := hback id v hv hend
    exact (h.nothing id v' hv' hend').trans (h'.nothing id v hv (h.ended ▸ hend))

theorem Leaves.silent {s s' : PeerSession} (h : Leaves s s') (hs : Stopped s) : Silent s s' := by
  intro id v hv hend
  rw [h.ended] at hend
  obtain ⟨v₀, hv₀, hsid⟩ := h.old id v hv hend
  exact ⟨fun hmem => hs id v₀ hv₀ (hsid ▸ hend) (h.registered id v hv hend hmem), fun hend' => h.nothing id v hv hend'⟩

theorem Silent.stopped {s s' : PeerSession} (h : Silent s s') : Stopped s' := fun id v hv hend => (h id v hv hend).1

theorem Touches.leaves {ids : BitVec 64 → Prop} {s s' : PeerSession} (ht : Touches ids s s')
    (hids : ∀ id v, ids id → find s'.serveSubs id = some v → v.sid ∉ s.ended) : Leaves s s' := by
  have hother : ∀ id v, find s'.serveSubs id = some v → v.sid ∈ s.ended → ¬ids id := fun id v hv hend hid => hids id v hid hv hend
  refine ⟨ht.ended, fun id v hv hend => ?_, fun id v hv hend hmem => ht.registered id (hother id v hv hend) hmem,
    fun id v hv hend => ⟨ht.groups id (hother id v hv hend), fun e he => ⟨e, ?_, rfl⟩⟩⟩
  · cases hv₀ : find s.serveSubs id with
    | none =>
      rw [ht.new id (hother id v hv hend) hv₀] at hv
      cases hv
    | some v₀ =>
      obtain ⟨v', hv', hsid, -⟩ := ht.subs id v₀ hv₀
      rw [hv, Option.some.injEq] at hv'
      exact ⟨v₀, rfl, by rw [hv', hsid]⟩
  · rw [← ht.egress id (hother id v hv hend)]
    exact he

variable (kindOf : List Byte → Name → Option ServeKind) (own : EgressNet) (net : BitVec 64 → EgressNet)

/-- **The condition on a step**: when a stream ends no writer is registered for it, nothing that can be served is asked for or
waits on a stream that ended, and no catalog with an older version is kept for one. -/
def StopOk (s : PeerSession) : PeerOp → Prop
  | .ended sid => ∀ id v, find s.serveSubs id = some v → v.sid = sid → id ∉ s.players
  | .subscribe ms sid body _ _ => s.dead = false → sid ∈ s.ended → ∀ req, readSubscribe body = some req →
      resolveServeTrack kindOf s.routed ms req.broadcast req.track = none
  | .catalogUpdated ms key rev => s.dead = false → (∀ json curRev, catalogRevOf ms key = some (json, curRev) →
      ∀ id v, id ∈ s.outdated key (min rev curRev) → find s.serveSubs id = some v → v.sid ∉ s.ended) ∧
        ∀ id p, find s.pending id = some p → p.key = key →
          resolveServeTrack kindOf s.routed ms p.req.broadcast p.req.track ≠ none → p.sid ∉ s.ended
  | _ => True

theorem Leaves.subscribe {ms : MediaStreams} {s : PeerSession} {sid : Nat} {body : List Byte} {missing : Bool} {now : Int}
    (hok : sid ∈ s.ended → ∀ req, readSubscribe body = some req → resolveServeTrack kindOf s.routed ms req.broadcast req.track =
    none) : Leaves s (s.subscribe kindOf own net ms sid body missing now) := by
  rcases subscribe_cases kindOf own net ms s sid body missing now with heq | heq | ⟨hopen, hnew, hcase⟩
  · rw [heq]
    exact Leaves.refl s
  · rw [heq]
    exact Leaves.same rfl rfl rfl rfl rfl
  · rcases hcase with heq | ⟨-, req, hreq, hfree, -, ⟨hserv, key, heq⟩ | ⟨p, -, -, heq⟩ | heq⟩
    · rw [heq]
      exact Leaves.same rfl rfl rfl rfl rfl
    · rw [heq]
      obtain ⟨ht, -, v, hv, hsid⟩ := attach_spec kindOf own net ms (s := s.heardOn sid req.subId) (p := ⟨sid, req, key, 0⟩)
        List.mem_cons_self hopen hfree hserv
      have hheard : Leaves s (s.heardOn sid req.subId) := .same rfl rfl rfl rfl rfl
      refine hheard.trans (ht.leaves fun id w hid hw hend => ?_)
      rw [hid, hv, Option.some.injEq] at hw
      rw [← hw, hsid] at hend
      exact hserv (hok hend req hreq)
    · rw [heq]
      exact Leaves.same rfl rfl rfl rfl rfl
    · rw [heq]
      exact Leaves.same rfl rfl rfl rfl rfl

theorem Leaves.retries (ms : MediaStreams) : ∀ (ids : List (BitVec 64)) {s : PeerSession}, Waiting s →
    (∀ id ∈ ids, ∀ p, find s.pending id = some p →
      resolveServeTrack kindOf s.routed ms p.req.broadcast p.req.track ≠ none → p.sid ∉ s.ended) →
    Leaves s (ids.foldl (retryOne kindOf own net ms) s)
  | [], s, _, _ => Leaves.refl s
  | id :: ids, s, hw, hok => by
    obtain ⟨hw', hcase⟩ := hw.retryOne kindOf own net ms id
    rw [List.foldl_cons]
    rcases hcase with heq | ⟨p, hp, -, hserv, ht, -, v, hv, hsid⟩
    · rw [heq]
      exact Leaves.retries ms ids hw fun x hx => hok x (List.mem_cons_of_mem _ hx)
    · have hfirst : Leaves { s with pending := erase s.pending id } (retryOne kindOf own net ms s id) := by
        refine ht.leaves fun x w hx hw hend => ?_
        rw [hx, hv, Option.some.injEq] at hw
        rw [← hw, hsid] at hend
        exact hok id List.mem_cons_self p hp hserv hend
      have hfirst : Leaves s (retryOne kindOf own net ms s id) := ⟨hfirst.ended, hfirst.old, hfirst.registered,
        fun x w hw hend => ⟨(hfirst.nothing x w hw hend).groups, (hfirst.nothing x w hw hend).frames⟩⟩
      refine hfirst.trans (Leaves.retries ms ids hw' fun x hx q hq hserv' => ?_)
      rw [ht.pending, find_erase] at hq
      split at hq
      · cases hq
      · rw [ht.routed] at hserv'
        rw [ht.ended]
        exact hok x (List.mem_cons_of_mem _ hx) q hq hserv'

theorem Leaves.updated {ms : MediaStreams} {key : Name} {rev : Nat} {s : PeerSession}
    (hw : s.dead = false → Waiting s) (hok : StopOk kindOf s (.catalogUpdated ms key rev)) : Leaves s (s.catalogUpdated kindOf own net ms key rev) := by
  unfold catalogUpdated
  split
  · exact Leaves.refl s
  · rename_i hcond
    have halive : s.dead = false := by simpa using (not_or.1 hcond).1
    have hw := hw halive
    obtain ⟨hcatalogs, hwaits⟩ := hok halive
    split
    · exact Leaves.refl s
    · rename_i json curRev hcat
      have ht := updateCatalogs_touches own s key json (min rev curRev)
      have hfirst : Leaves s (s.updateCatalogs own key json (min rev curRev)) := by
        refine ht.leaves fun id v hid hv => ?_
        cases hv₀ : find s.serveSubs id with
        | none =>
          -- what is outdated is served
          obtain ⟨e, he, rfl⟩ := List.mem_map.1 hid
          unfold find at hv₀
          simpa using List.find?_eq_none.1 (Option.map_eq_none_iff.1 hv₀) e (List.mem_filter.1 he).1
        | some v₀ =>
          obtain ⟨v', hv', hsid, -⟩ := ht.subs id v₀ hv₀
          rw [hv, Option.some.injEq] at hv'
          rw [hv', hsid]
          exact hcatalogs json curRev hcat id v₀ hid hv₀
      refine hfirst.trans (Leaves.retries kindOf own net ms _ (hw.updateCatalogs own key json _) fun id hid p hp hserv => ?_)
      rw [ht.pending] at hp
      rw [ht.routed] at hserv
      rw [ht.ended]
      refine hwaits id p hp ?_ hserv
      unfold waiting at hid
      rw [ht.pending] at hid
      obtain ⟨e, he, rfl⟩ := List.mem_map.1 hid
      obtain ⟨he, hkey⟩ := List.mem_filter.1 he
      have hfind := hw.order.find_of_mem (k := e.1) (a := e.2) he
      rw [hp, Option.some.injEq] at hfind
      rw [hfind]
      simpa using hkey

theorem Leaves.packet {s : PeerSession} (hs : Stopped s) (key : Name) (p : MediaPacket) : Leaves s (s.packet net key p) := by
  refine { Leaves.refl s with nothing := fun id v hv hend => ⟨rfl, fun e he => ⟨e, ?_, rfl⟩⟩ }
  have hmap := find_map (fun k (e : PeerEgress) => if k ∈ s.players ∧ e.key = key then
    (⟨e.key, e.egress.writePacket (net k) p⟩ : PeerEgress) else e) s.egress id
  have hegress : (s.packet net key p).egress = s.egress.map fun e => (e.1, if e.1 ∈ s.players ∧ e.2.key = key then
      (⟨e.2.key, e.2.egress.writePacket (net e.1) p⟩ : PeerEgress) else e.2) := by
    unfold PeerSession.packet
    dsimp only
    apply List.map_congr_left
    intro e _
    split <;> rfl
  have hnot : ¬(id ∈ s.players) := hs id v hv hend
  rw [hegress, hmap] at he
  simpa [hnot] using he

end PeerSession

open PeerSession

variable (kindOf : List Byte → Name → Option ServeKind) (own : EgressNet) (net : BitVec 64 → EgressNet)

theorem silent_step {s : PeerSession} (hs : Stopped s) (hw : s.dead = false → Waiting s) {op : PeerOp}
    (hok : StopOk kindOf s op) : Silent s (s.step kindOf own net op) := by
  cases op with
  | setup path serves =>
    unfold PeerSession.step PeerSession.setup
    dsimp only
    split
    · exact (Leaves.refl s).silent hs
    · exact Leaves.silent (.same rfl rfl rfl rfl rfl) hs
  | subscribe ms sid body missing now =>
    by_cases hdead : s.dead = true
    · have heq : s.step kindOf own net (.subscribe ms sid body missing now) = s := by
        simp [PeerSession.step, PeerSession.subscribe, hdead]
      rw [heq]
      exact (Leaves.refl s).silent hs
    · exact (Leaves.subscribe kindOf own net (hok (by simpa using hdead))).silent hs
  | catalogUpdated ms key rev => exact (Leaves.updated kindOf own net hw hok).silent hs
  | sweep now =>
    unfold PeerSession.step PeerSession.sweep
    dsimp only
    split
    · exact (Leaves.refl s).silent hs
    · exact Leaves.silent (.same rfl rfl rfl rfl rfl) hs
  | packet key p => exact (Leaves.packet net hs key p).silent hs
  | ended sid =>
    intro id v hv hend
    refine ⟨?_, fun _ => ⟨rfl, fun e he => ⟨e, he, rfl⟩⟩⟩
    rcases List.mem_cons.1 hend with heq | hend
    · exact hok id v hv heq
    · exact hs id v hv hend
  | close => exact Leaves.silent (.same rfl rfl rfl rfl rfl) hs
  | destroy =>
    intro id v hv hend
    refine ⟨List.not_mem_nil, fun _ => ⟨rfl, fun e he => ?_⟩⟩
    unfold PeerSession.step PeerSession.destroy at he
    rw [find_nil] at he
    cases he

/-- **After the peer ended its stream a subscription is silent**, at each step of a run whose steps meet the condition. -/
theorem ended_silent (deferredMs : Int) (ops : List PeerOp)
    (h : StepsOk (PeerSession.step kindOf own net) (StopOk kindOf) { deferredMs := deferredMs } ops)
    (pre : List PeerOp) (op : PeerOp) (post : List PeerOp) (hops : ops = pre ++ op :: post) :
    let s := PeerSession.run kindOf own net { deferredMs := deferredMs } pre
    Silent s (s.step kindOf own net op) := by
  have hstart : Stopped { deferredMs := deferredMs } := by
    intro id v hv
    rw [find_nil] at hv
    cases hv
  rw [hops, stepsOk_append] at h
  obtain ⟨hs, hw⟩ := foldl_inv _ _ (fun s : PeerSession => Stopped s ∧ (s.dead = false → Waiting s))
    (fun s e hs hok => ⟨(silent_step kindOf own net hs.1 hs.2 hok).stopped, Waiting.step kindOf own net hs.2 e⟩) pre
    { deferredMs := deferredMs } ⟨hstart, fun _ => Waiting.empty rfl rfl⟩ h.1
  exact silent_step kindOf own net hs hw h.2.1

theorem ended_silent_sample :
    let s := PeerSession.run videoOnly takesAll (fun _ => takesAll) {} [.setup ['a'] true,
      .subscribe (catalogAt ['a', '/', 'b']) 4 (subscribeBody [98] [99, 97, 116, 97, 108, 111, 103, 46, 106, 115, 111, 110]) true 0,
      .ended 4]
    Silent s (s.step videoOnly takesAll (fun _ => takesAll) (.packet ['a', '/', 'b'] ⟨.video, false, true, 0, 0, [23, 1, 0, 0, 0, 9]⟩)) := by
  refine ended_silent videoOnly takesAll (fun _ => takesAll) 3000 [.setup ['a'] true,
    .subscribe (catalogAt ['a', '/', 'b']) 4 (subscribeBody [98] [99, 97, 116, 97, 108, 111, 103, 46, 106, 115, 111, 110]) true 0,
    .ended 4, .packet ['a', '/', 'b'] ⟨.video, false, true, 0, 0, [23, 1, 0, 0, 0, 9]⟩]
    ⟨trivial, fun _ hend => (nomatch hend), fun id v _ _ hmem => ?_, trivial, trivial⟩ _ _ [] rfl
  have hnone : (PeerSession.run videoOnly takesAll (fun _ => takesAll) {} [.setup ['a'] true,
    .subscribe (catalogAt ['a', '/', 'b']) 4 (subscribeBody [98] [99, 97, 116, 97, 108, 111, 103, 46, 106, 115, 111, 110])
      true 0]).players = [] := by decide +kernel
  have hmem : id ∈ (PeerSession.run videoOnly takesAll (fun _ => takesAll) {} [.setup ['a'] true,
    .subscribe (catalogAt ['a', '/', 'b']) 4 (subscribeBody [98] [99, 97, 116, 97, 108, 111, 103, 46, 106, 115, 111, 110])
      true 0]).players := hmem
  rw [hnone] at hmem
  cases hmem

/-- **The writer of a stream that ended stays registered**, and the next packet is handed over. -/
theorem ended_goes_on :
    let s := PeerSession.run videoOnly takesAll (fun _ => takesAll) {} [.setup ['a'] true,
      .subscribe (catalogAt ['a', '/', 'b']) 4 (subscribeBody [98] [118]) true 0, .ended 4]
    let s' := s.step videoOnly takesAll (fun _ => takesAll) (.packet ['a', '/', 'b'] ⟨.video, false, true, 0, 0, [23, 1, 0, 0, 0, 9]⟩)
    ¬HandsNothing s s' 0 ∧ ¬Silent s s' := by
  intro s s'
  have hserved : ∃ v, find s'.serveSubs 0 = some v ∧ v.sid ∈ s'.ended := by
    have hfind : (find s'.serveSubs 0).any fun v => v.sid ∈ s'.ended := by decide +kernel
    obtain ⟨v, hv, hend⟩ := (Option.any_eq_true _ _).1 hfind
    exact ⟨v, hv, by simpa using hend⟩
  have hplayer : 0 ∈ s'.players := by decide +kernel
  refine ⟨fun h => ?_, fun h => ?_⟩
  · have hframes : (find s'.egress 0).map (fun e => e.egress.out.sent.length) = some 2 := by decide +kernel
    have hbefore : (find s.egress 0).map (fun e => e.egress.out.sent.length) = some 0 := by decide +kernel
    obtain ⟨e', he', hlen'⟩ := Option.map_eq_some_iff.1 hframes
    obtain ⟨e, he, hlen⟩ := Option.map_eq_some_iff.1 hbefore
    obtain ⟨e₀, he₀, hsent⟩ := h.frames e' he'
    rw [he, Option.some.injEq] at he₀
    rw [hsent, ← he₀, hlen] at hlen'
    cases hlen'
  · obtain ⟨v, hv, hend⟩ := hserved
    exact (h 0 v hv hend).1 hplayer

end MoqLiveCast
