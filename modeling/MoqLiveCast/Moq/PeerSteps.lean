import MoqLiveCast.Moq.PeerSubscribe
/-!
# PeerSteps — what the calls of a session as publisher change

A call that answers or serves some subscriptions leaves the others alone (`Touches`).
-/
namespace MoqLiveCast

open OrdMap

namespace PeerSession

def groupsOf (s : PeerSession) (id : BitVec 64) : List (BitVec 64 × List Byte) := s.groups.filter fun g => g.1 = id

def SubsKept (s s' : PeerSession) : Prop := ∀ id v, find s.serveSubs id = some v →
  ∃ v', find s'.serveSubs id = some v' ∧ v'.sid = v.sid ∧ v'.track = v.track

/-- **A call that is about the subscriptions `ids` only.** -/
structure Touches (ids : BitVec 64 → Prop) (s s' : PeerSession) : Prop where
  routed : s'.routed = s.routed
  setUp : s'.setUp = s.setUp
  armed : s'.armed = s.armed
  dead : s'.dead = s.dead
  resets : s'.resets = s.resets
  requested : s'.requested = s.requested
  pending : s'.pending = s.pending
  asked : s'.asked = s.asked
  ended : s'.ended = s.ended
  answered : s.answered ⊆ s'.answered
  players : s.players ⊆ s'.players
  subs : SubsKept s s'
  new : ∀ id, ¬ids id → find s.serveSubs id = none → find s'.serveSubs id = none
  registered : ∀ id, ¬ids id → id ∈ s'.players → id ∈ s.players
  groups : ∀ id, ¬ids id → s'.groupsOf id = s.groupsOf id
  egress : ∀ id, ¬ids id → find s'.egress id = find s.egress id

theorem SubsKept.refl (s : PeerSession) : SubsKept s s := fun _ v hv => ⟨v, hv, rfl, rfl⟩

theorem SubsKept.trans {s s' s'' : PeerSession} (h : SubsKept s s') (h' : SubsKept s' s'') : SubsKept s s'' := by
  intro id v hv
  obtain ⟨v', hv', hsid, htrack⟩ := h id v hv
  obtain ⟨v'', hv'', hsid', htrack'⟩ := h' id v' hv'
  exact ⟨v'', hv'', hsid'.trans hsid, htrack'.trans htrack⟩

theorem Touches.refl (ids : BitVec 64 → Prop) (s : PeerSession) : Touches ids s s :=
  ⟨rfl, rfl, rfl, rfl, rfl, rfl, rfl, rfl, rfl, fun _ h => h, fun _ h => h, SubsKept.refl s, fun _ _ h => h,
    fun _ _ h => h, fun _ _ => rfl, fun _ _ => rfl⟩

theorem Touches.trans {ids : BitVec 64 → Prop} {s s' s'' : PeerSession} (h : Touches ids s s') (h' : Touches ids s' s'') :
    Touches ids s s'' where
  routed := h'.routed.trans h.routed
  setUp := h'.setUp.trans h.setUp
  armed := h'.armed.trans h.armed
  dead := h'.dead.trans h.dead
  resets := h'.resets.trans h.resets
  requested := h'.requested.trans h.requested
  pending := h'.pending.trans h.pending
  asked := h'.asked.trans h.asked
  ended := h'.ended.trans h.ended
  answered := fun _ hmem => h'.answered (h.answered hmem)
  players := fun _ hmem => h'.players (h.players hmem)
  subs := h.subs.trans h'.subs
  new := fun id hid hnone => h'.new id hid (h.new id hid hnone)
  registered := fun id hid hmem => h.registered id hid (h'.registered id hid hmem)
  groups := fun id hid => (h'.groups id hid).trans (h.groups id hid)
  egress := fun id hid => (h'.egress id hid).trans (h.egress id hid)

theorem Touches.mono {ids ids' : BitVec 64 → Prop} {s s' : PeerSession} (h : Touches ids s s') (hsub : ∀ id, ids id → ids' id) :
    Touches ids' s s' :=
  { h with
    new := fun id hid => h.new id (mt (hsub id) hid)
    registered := fun id hid => h.registered id (mt (hsub id) hid)
    groups := fun id hid => h.groups id (mt (hsub id) hid)
    egress := fun id hid => h.egress id (mt (hsub id) hid) }

theorem Touches.counted {ids : BitVec 64 → Prop} (s : PeerSession) (opens sends : Nat) :
    Touches ids s { s with opens := opens, sends := sends } :=
  { Touches.refl ids s with }

theorem touches_foldl {f : PeerSession → BitVec 64 → PeerSession} (hf : ∀ s id, Touches (· = id) s (f s id)) :
    ∀ (l : List (BitVec 64)) (s : PeerSession), Touches (· ∈ l) s (l.foldl f s)
  | [], s => Touches.refl _ s
  | id :: l, s => by
    have hfirst : Touches (· ∈ id :: l) s (f s id) := (hf s id).mono fun x hx => hx ▸ List.mem_cons_self
    have hrest : Touches (· ∈ id :: l) (f s id) (l.foldl f (f s id)) :=
      (touches_foldl hf l (f s id)).mono fun x hx => List.mem_cons_of_mem _ hx
    exact hfirst.trans hrest

variable (kindOf : List Byte → Name → Option ServeKind) (own : EgressNet) (net : BitVec 64 → EgressNet) (ms : MediaStreams)

/-! ## The catalog -/

theorem sendCatalogGroup_touches (s : PeerSession) (id group : BitVec 64) (json : List Byte) :
    Touches (· = id) s (sendCatalogGroup own s id group json).1 := by
  unfold sendCatalogGroup
  dsimp only
  split
  · exact Touches.counted s _ _
  · split
    · exact Touches.counted s _ _
    · split
      · exact Touches.counted s _ _
      · exact Touches.counted s _ _
      · refine { Touches.refl (· = id) s with groups := fun id' hid => ?_ }
        unfold groupsOf
        dsimp only
        rw [List.filter_append]
        simp [Ne.symm hid]

theorem setCatalogSent_touches (s : PeerSession) (id group : BitVec 64) (rev : Nat) :
    Touches (· = id) s (s.setCatalogSent id group rev) := by
  have hfind : ∀ id', find (s.setCatalogSent id group rev).serveSubs id' = (find s.serveSubs id').map fun v =>
      if id' = id then { v with catalogGroup := group, catalogRev := rev } else v := by
    intro id'
    have hmap := find_map (fun k (v : ServeSub) => if k = id then { v with catalogGroup := group, catalogRev := rev } else v)
      s.serveSubs id'
    refine Eq.trans ?_ hmap
    unfold setCatalogSent
    congr 1
    apply List.map_congr_left
    intro e _
    by_cases hid : e.1 = id <;> simp [hid]
  refine { Touches.refl (· = id) s with subs := fun id' v hv => ?_, new := fun id' _ hnone => ?_ }
  · rw [hfind, hv]
    by_cases hid : id' = id <;> simp [hid]
  · rw [hfind, hnone]
    rfl

theorem sendGroup_touches (s : PeerSession) (id group : BitVec 64) (json : List Byte) (rev : Nat) : Touches (· =
    id) s (if (sendCatalogGroup own s id group json).2 then (sendCatalogGroup own s id group json).1.setCatalogSent id group rev
    else (sendCatalogGroup own s id group json).1) := by
  have hsend := sendCatalogGroup_touches own s id group json
  split
  · exact hsend.trans (setCatalogSent_touches _ id group rev)
  · exact hsend

theorem updateOne_touches (json : List Byte) (rev : Nat) (s : PeerSession) (id : BitVec 64) :
    Touches (· = id) s (updateOne own json rev s id) := by
  unfold updateOne
  split
  · exact Touches.refl _ s
  · exact sendGroup_touches own s id _ json rev

theorem updateCatalogs_touches (s : PeerSession) (key : Name) (json : List Byte) (rev : Nat) :
    Touches (· ∈ s.outdated key rev) s (s.updateCatalogs own key json rev) :=
  touches_foldl (updateOne_touches own json rev) _ s

/-! ## A subscription is attached -/

/-- SUBSCRIBE_START was sent, and the subscription is kept; the writer of one of media is registered. -/
structure Attached (s : PeerSession) (sid : Nat) (id : BitVec 64) : Prop where
  started : sid ∈ s.answered
  kept : ∃ v, find s.serveSubs id = some v ∧ v.sid = sid ∧ (v.track ≠ kCatalogTrack → id ∈ s.players)

theorem Attached.kept_on {ids : BitVec 64 → Prop} {s s' : PeerSession} {sid : Nat} {id : BitVec 64} (h : Attached s sid id)
    (ht : Touches ids s s') : Attached s' sid id := by
  obtain ⟨v, hv, hsid, hmedia⟩ := h.kept
  obtain ⟨v', hv', hsid', htrack⟩ := ht.subs id v hv
  exact ⟨ht.answered h.started, v', hv', hsid'.trans hsid, fun hne => ht.players (hmedia (htrack ▸ hne))⟩

/-- **The condition on an answer**: it is not refused, and one for media is not on stream 0. -/
def AnswerOk (s : PeerSession) (sid : Nat) (id : BitVec 64) : ServeKind → Prop
  | .catalog => own.send s.sends ≠ .dead
  | _ => sid ≠ 0 ∧ (net id).send 0 ≠ .dead

def AttachOk (s : PeerSession) (p : PendingPeerSub) : Prop :=
  ∀ key kind, resolveServeTrack kindOf s.routed ms p.req.broadcast p.req.track = some (key, kind) →
    AnswerOk own net s p.sid p.req.subId kind

theorem resolve_catalog {routed broadcast track key : Name} {kind : ServeKind}
    (h : resolveServeTrack kindOf routed ms broadcast track = some (key, kind)) : ∃ c, catalogRevOf ms key = some c := by
  have hrev : ∀ k json, catalogOf ms k = some json → ∃ c, catalogRevOf ms k = some c := by
    intro k json hj
    unfold catalogOf at hj
    cases he : ms.find? fun e => e.1 = k with
    | none =>
      rw [he] at hj
      cases hj
    | some e =>
      rw [he] at hj
      unfold catalogRevOf
      rw [he]
      by_cases hnil : e.2.catalogJson = []
      · simp [hnil] at hj
      · simp [hnil]
  have hserve : ∀ k json, serveKey routed ms broadcast = some (k, json) → catalogOf ms k = some json := by
    intro k json hk
    unfold serveKey at hk
    rcases (Option.orElse_eq_some _ _ _).1 hk with hk | ⟨-, hk⟩
    · split at hk
      · obtain ⟨j, hj, heq⟩ := Option.map_eq_some_iff.1 hk
        cases heq
        exact hj
      · cases hk
    · obtain ⟨j, hj, heq⟩ := Option.map_eq_some_iff.1 hk
      cases heq
      exact hj
  unfold resolveServeTrack at h
  split at h
  · cases h
  · split at h
    · cases h
    · rename_i k json hk
      split at h
      · cases h
        exact hrev _ _ (hserve _ _ hk)
      · obtain ⟨kind', -, heq⟩ := Option.map_eq_some_iff.1 h
        cases heq
        exact hrev _ _ (hserve _ _ hk)

theorem resolve_kind (hkinds : ∀ json track, kindOf json track ≠ some .catalog) {routed broadcast track key : Name}
    (h : resolveServeTrack kindOf routed ms broadcast track = some (key, .catalog)) : track = kCatalogTrack := by
  unfold resolveServeTrack at h
  split at h
  · cases h
  · split at h
    · cases h
    · split at h
      · assumption
      · obtain ⟨kind, hkind, heq⟩ := Option.map_eq_some_iff.1 h
        cases heq
        exact absurd hkind (hkinds _ _)

theorem serveCatalog_touches (s : PeerSession) (sid : Nat) (id : BitVec 64) {key : Name} (hcat : ∃ c, catalogRevOf ms key =
    some c) : Touches (· = id) s (serveCatalog own ms s sid id key) ∧ (own.send s.sends ≠ .dead → sid ∈ (serveCatalog own ms s sid
    id key).answered) := by
  obtain ⟨⟨json, rev⟩, hrev⟩ := hcat
  have hbuild : ¬(mlBuildSubscribeStart [] 0).1 = false := by decide
  unfold serveCatalog
  rw [hrev]
  dsimp only
  rw [if_neg hbuild]
  split
  · rename_i hdead
    exact ⟨Touches.counted s _ _, fun hsend => absurd hdead hsend⟩
  · have hstart : Touches (· = id) s { s with sends := s.sends + 1, answered := sid :: s.answered } :=
      { Touches.refl (· = id) s with answered := fun _ hmem => List.mem_cons_of_mem _ hmem }
    have hgroup := sendGroup_touches own { s with sends := s.sends + 1, answered := sid :: s.answered } id 0 json rev
    exact ⟨hstart.trans hgroup, fun _ => hgroup.answered List.mem_cons_self⟩

theorem serveMedia_touches (s : PeerSession) (sid : Nat) (id : BitVec 64) (key : Name) (isVideo : Bool) :
    Touches (· = id) s (serveMedia net ms s sid id key isVideo) ∧ id ∈ (serveMedia net ms s sid id key isVideo).players ∧
    (sid ≠ 0 ∧ (net id).send 0 ≠ .dead → sid ∈ (serveMedia net ms s sid id key isVideo).answered) := by
  refine ⟨{ Touches.refl (· = id) s with
    answered := fun x hx => ?_, players := fun x hx => List.mem_cons_of_mem _ hx, registered := fun x hid hx => ?_,
    egress := fun x hid => ?_ }, List.mem_cons_self, fun ⟨hsid, hsend⟩ => ?_⟩
  · unfold serveMedia
    dsimp only
    split
    · exact List.mem_cons_of_mem _ hx
    · exact hx
  · exact (List.mem_cons.1 hx).resolve_left hid
  · unfold serveMedia
    simp [hid]
  · have hacc : (Egress.accepted (net id) { isVideo := isVideo } id sid).2 = true := by
      unfold Egress.accepted
      simp [hsid, hsend]
    unfold serveMedia
    dsimp only
    rw [if_pos hacc]
    exact List.mem_cons_self

theorem attach_spec {s : PeerSession} {p : PendingPeerSub} (hsid : p.sid ∈ s.requested) (hopen : p.sid ∉ s.resets)
    (hnew : find s.serveSubs p.req.subId = none) (hserved : resolveServeTrack kindOf s.routed ms p.req.broadcast p.req.track ≠
    none) : Touches (· = p.req.subId) s (attach kindOf own net ms s p) ∧ ((∀ json track, kindOf json track ≠ some .catalog) →
    AttachOk kindOf own net ms s p → Attached (attach kindOf own net ms s p) p.sid p.req.subId) ∧ ∃ v, find (attach kindOf own net
    ms s p).serveSubs p.req.subId = some v ∧ v.sid = p.sid := by
  obtain ⟨⟨key, kind⟩, hres⟩ := Option.ne_none_iff_exists'.1 hserved
  have hkept : Touches (· = p.req.subId) s { s with serveSubs := put s.serveSubs p.req.subId (p.serve key) } := by
    refine { Touches.refl (· = p.req.subId) s with subs := fun id v hv => ⟨v, ?_, rfl, rfl⟩, new := fun id hid hnone => ?_ }
    · have hne : id ≠ p.req.subId := by
        rintro rfl
        rw [hnew] at hv
        cases hv
      simp [hne, hv]
    · simp [hid, hnone]
  have hfound : find (put s.serveSubs p.req.subId (p.serve key)) p.req.subId = some (p.serve key) := by simp
  have hcond : ¬(p.sid ∉ s.requested ∨ p.sid ∈ s.resets) := not_or.2 ⟨not_not.2 hsid, hopen⟩
  -- a track of media, whichever it is
  have hmedia : ∀ isVideo, (kind = .video ∨ kind = .audio) →
      let s' := serveMedia net ms { s with serveSubs := put s.serveSubs p.req.subId (p.serve key) } p.sid p.req.subId key isVideo
      Touches (· = p.req.subId) s s' ∧
        ((∀ json track, kindOf json track ≠ some .catalog) → AttachOk kindOf own net ms s p → Attached s' p.sid p.req.subId) ∧
        ∃ v, find s'.serveSubs p.req.subId = some v ∧ v.sid = p.sid := by
    intro isVideo hkind
    obtain ⟨ht, hplayer, hstarted⟩ := serveMedia_touches net ms
      { s with serveSubs := put s.serveSubs p.req.subId (p.serve key) } p.sid p.req.subId key isVideo
    refine ⟨hkept.trans ht, fun _ hok => ⟨hstarted ?_, p.serve key, hfound, rfl, fun _ => hplayer⟩, p.serve key, hfound, rfl⟩
    have hok := hok key kind hres
    rcases hkind with rfl | rfl
    · exact hok
    · exact hok
  unfold attach
  rw [if_neg hcond, hres]
  cases kind with
  | catalog =>
    obtain ⟨ht, hstarted⟩ := serveCatalog_touches own ms
      { s with serveSubs := put s.serveSubs p.req.subId (p.serve key) } p.sid p.req.subId (resolve_catalog kindOf ms hres)
    obtain ⟨v, hv, hvsid, hvtrack⟩ := ht.subs _ _ hfound
    refine ⟨hkept.trans ht, fun hkinds hok => ⟨hstarted (hok key .catalog hres), v, hv, hvsid, fun hne => ?_⟩, v, hv, hvsid⟩
    exact absurd (hvtrack.trans (resolve_kind kindOf ms hkinds hres)) hne
  | video => exact hmedia true (.inl rfl)
  | audio => exact hmedia false (.inr rfl)

/-! ## A SUBSCRIBE, and a retry -/

def heardOn (s : PeerSession) (sid : Nat) (id : BitVec 64) : PeerSession :=
  { s with requested := sid :: s.requested, asked := (sid, id) :: s.asked }

theorem subscribe_cases (s : PeerSession) (sid : Nat) (body : List Byte) (missing : Bool) (now : Int) :
    let s' := subscribe kindOf own net ms s sid body missing now
    s' = s ∨ s' = { s with requested := sid :: s.requested, dead := true } ∨ (sid ∉ s.resets ∧ sid ∉ s.requested ∧
      (s' = ({ s with requested := sid :: s.requested } : PeerSession).resetStream sid ∨
        s.armed = true ∧ ∃ req, readSubscribe body = some req ∧ find s.serveSubs req.subId = none ∧
          find s.pending req.subId = none ∧
          ((resolveServeTrack kindOf s.routed ms req.broadcast req.track ≠ none ∧
              ∃ key, s' = attach kindOf own net ms (s.heardOn sid req.subId) ⟨sid, req, key, 0⟩) ∨
            (∃ p : PendingPeerSub, p.sid = sid ∧ p.req = req ∧
              s' = { s.heardOn sid req.subId with pending := put s.pending req.subId p }) ∨
            s' = (s.heardOn sid req.subId).resetStream sid))) := by
  unfold subscribe
  dsimp only
  split
  · exact .inl rfl
  · rename_i hcond
    obtain ⟨-, hopen, hnew⟩ := not_or.1 hcond |>.imp id not_or.1
    refine .inr ?_
    split
    · exact .inr ⟨hopen, hnew, .inl rfl⟩
    · rename_i harmed
      split
      · exact .inr ⟨hopen, hnew, .inl rfl⟩
      · rename_i req hreq
        split
        · exact .inl rfl
        · rename_i hdup
          have hfree : find s.serveSubs req.subId = none ∧ find s.pending req.subId = none := by simpa using hdup
          refine .inr ⟨hopen, hnew, .inr ⟨by simpa using harmed, req, hreq, hfree.1, hfree.2, ?_⟩⟩
          split
          · rename_i key kind hres
            exact .inl ⟨by rw [hres]; simp, key, rfl⟩
          · split
            · exact .inr (.inl ⟨_, rfl, rfl, rfl⟩)
            · exact .inr (.inr rfl)

theorem retryOne_some {s : PeerSession} {id : BitVec 64} {p : PendingPeerSub} (hp : find s.pending id = some p)
    (hsid : p.sid ∈ s.requested) (hopen : p.sid ∉ s.resets) : retryOne kindOf own net ms s id =
      if resolveServeTrack kindOf s.routed ms p.req.broadcast p.req.track = none then s
      else attach kindOf own net ms { s with pending := erase s.pending id } p := by
  have hcond : ¬(p.sid ∉ s.requested ∨ p.sid ∈ s.resets) := not_or.2 ⟨not_not.2 hsid, hopen⟩
  unfold retryOne
  rw [hp]
  dsimp only
  rw [if_neg hcond]
  cases resolveServeTrack kindOf s.routed ms p.req.broadcast p.req.track <;> simp

theorem retryOne_none {s : PeerSession} {id : BitVec 64} (hp : find s.pending id = none) :
    retryOne kindOf own net ms s id = s := by
  unfold retryOne
  rw [hp]

end PeerSession
end MoqLiveCast
