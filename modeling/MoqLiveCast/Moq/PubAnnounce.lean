import MoqLiveCast.Lib.Run
import MoqLiveCast.Moq.Announce
/-!
# PubAnnounce — what the C client announces (`moqlite/moq_lite_client.c`)

A peer asks on a stream of its own which broadcasts there are under a path, and is answered with those that have a track
(`serve_announce_write`).  A broadcast that gets its tracks later is announced when a track is published
(`serve_reannounce`), once: it then has its flag set.  But the answer does not set the flag, so what it named is announced
again when the next track of any broadcast is published; and a stream that has not asked yet is told of everything.

Both ends of a message are C strings; encoding one does not fail, and the streams take what is written.
-/
namespace MoqLiveCast

open List

def MOQ_MAX_PUB_TRACKS : Nat := 4

/-- A `MoqPub`; how many tracks it has is all that announcing asks of them. -/
structure MoqPub where
  path : Name
  trackCnt : Nat := 0
  announced : Bool := false
deriving DecidableEq

/-- The record of a stream of the peer's that is taken for an announce stream, with what was written on it, one list of
messages for each write.  A new bidirectional stream is taken for one until it has said what it is. -/
structure PeerAnnounce where
  sid : Nat
  reqPrefix : Option Name := none
  writes : List (List AnnounceMsg) := []
deriving DecidableEq

/-- The broadcasts of a `MoqSession`, and the peer's announce streams. -/
structure PubSession where
  pubs : List MoqPub := []
  announces : List PeerAnnounce := []
deriving DecidableEq

def pubSuffixFor (scope wire : Name) : Option Name :=
  if scope = [] then some wire
  else if wire = scope then some []
  else if scope.length < wire.length ∧ wire.take scope.length = scope ∧ wire[scope.length]? = some '/' then
    some (wire.drop (scope.length + 1))
  else none

theorem ofNat_fits {n : Nat} (h : n < 2 ^ 62) : (BitVec.ofNat 64 n).toNat < 2 ^ 62 := by
  rw [BitVec.toNat_ofNat]
  omega

namespace PubSession

def inScope (scope : Name) (p : MoqPub) : Option Name := if p.trackCnt = 0 then none else pubSuffixFor scope p.path

def serveAnnounceWrite (pubs : List MoqPub) (scope : Name) : List AnnounceMsg :=
  let starts := pubs.filterMap (inScope scope)
  .ok starts.length :: starts.map .start

def serveParseAnnounce (s : PubSession) (sid : Nat) (scope : Name) : PubSession :=
  { s with announces := s.announces.map fun r =>
      if r.sid = sid then
        { r with reqPrefix := some scope, writes := r.writes ++ [serveAnnounceWrite s.pubs scope] }
      else r }

/-- What a broadcast is called on a stream; one that has not asked has no path. -/
def suffixOn (p : MoqPub) (r : PeerAnnounce) : Option Name := pubSuffixFor (r.reqPrefix.getD []) p.path

def late (p : MoqPub) (r : PeerAnnounce) : PeerAnnounce :=
  { r with writes := r.writes ++ ((suffixOn p r).map fun suffix => [.start suffix]).toList }

def serveReannounce : List MoqPub → List PeerAnnounce → List MoqPub × List PeerAnnounce
  | [], rs => ([], rs)
  | p :: ps, rs =>
    if p.announced ∨ p.trackCnt = 0 then
      let (ps, rs) := serveReannounce ps rs
      (p :: ps, rs)
    else
      let (ps, rs') := serveReannounce ps (rs.map (late p))
      ({ p with announced := rs.any fun r => (suffixOn p r).isSome } :: ps, rs')

def moqLitePublish (s : PubSession) (path : Name) : PubSession :=
  if path = [] then s else { s with pubs := s.pubs ++ [{ path }] }

def addTrack (p : MoqPub) : MoqPub := { p with trackCnt := p.trackCnt + 1 }

def moqLitePublishTrack (s : PubSession) (i : Nat) (name codec : Name) : PubSession :=
  match s.pubs[i]? with
  | none => s
  | some p =>
    if name = [] ∨ codec = [] ∨ MOQ_MAX_PUB_TRACKS ≤ p.trackCnt then s
    else
      let told := serveReannounce (s.pubs.modify i addTrack) s.announces
      { pubs := told.1, announces := told.2 }

/-- A broadcast or a track is published; a stream of the peer's shows up, asks for what is under a path, or is no announce
stream any more, since it has said that it is none, or something that is no request. -/
inductive Event where
  | publish (path : Name)
  | publishTrack (i : Nat) (name codec : Name)
  | streamOpens (sid : Nat)
  | request (sid : Nat) (scope : Name)
  | streamGone (sid : Nat)
deriving DecidableEq

def step (s : PubSession) : Event → PubSession
  | .publish path => s.moqLitePublish path
  | .publishTrack i name codec => s.moqLitePublishTrack i name codec
  | .streamOpens sid =>
    if s.announces.any fun r => r.sid = sid then s else { s with announces := s.announces ++ [{ sid }] }
  | .request sid scope => s.serveParseAnnounce sid scope
  | .streamGone sid => { s with announces := s.announces.filter fun r => r.sid ≠ sid }

/-! ## What a peer should be told -/

def suffixesOf (ms : List AnnounceMsg) : List Name :=
  ms.filterMap fun m => match m with
    | .start suffix => some suffix
    | _ => none

def PeerAnnounce.told (r : PeerAnnounce) : List Name := suffixesOf r.writes.flatten

def OkCounts (ms : List AnnounceMsg) : Prop :=
  ∀ active, .ok active ∈ ms → ∃ starts : List Name, starts.length = active ∧ ms = .ok active :: starts.map .start

/-- **Each stream that asked was told once of each broadcast with a track that is below its path**, and of no other; and
what its ANNOUNCE_OK counts is what follows it. -/
structure AnnouncedOnce (s : PubSession) : Prop where
  once : ∀ r ∈ s.announces, ∀ scope ∈ r.reqPrefix, (PeerAnnounce.told r).Perm (s.pubs.filterMap (inScope scope))
  counts : ∀ r ∈ s.announces, ∀ ms ∈ r.writes, OkCounts ms

/-- `moq_lite_publish_track` takes the track. -/
def Accepts (s : PubSession) (i : Nat) (name codec : Name) : Prop :=
  name ≠ [] ∧ codec ≠ [] ∧ ∃ p ∈ s.pubs[i]?, p.trackCnt < MOQ_MAX_PUB_TRACKS

/-- **When a track is published no broadcast that has one already, and not its flag, is below the path of a stream that has
asked; and a stream that asks was told of nothing.** -/
def TellsOnce (s : PubSession) : Event → Prop
  | .publishTrack i name codec => s.Accepts i name codec →
      ∀ p ∈ s.pubs, p.announced = false → p.trackCnt ≠ 0 → ∀ r ∈ s.announces, r.reqPrefix.isSome → suffixOn p r = none
  | .request sid _ => ∀ r ∈ s.announces, r.sid = sid → PeerAnnounce.told r = []
  | _ => True

instance (s : PubSession) (e : Event) : Decidable (s.TellsOnce e) := by
  unfold TellsOnce Accepts
  cases e <;> infer_instance

/-- What holds of every session: a broadcast with the flag has a track, and an ANNOUNCE_OK counts what is written with it. -/
structure Sound (s : PubSession) : Prop where
  flags : ∀ p ∈ s.pubs, p.announced = true → p.trackCnt ≠ 0
  counts : ∀ r ∈ s.announces, ∀ ms ∈ r.writes, OkCounts ms

variable {s : PubSession} {scope : Name} {r : PeerAnnounce}

@[simp] theorem suffixesOf_append (ms ms' : List AnnounceMsg) : suffixesOf (ms ++ ms') = suffixesOf ms ++ suffixesOf ms' :=
  filterMap_append

@[simp] theorem suffixesOf_starts (l : List Name) : suffixesOf (l.map .start) = l := by
  unfold suffixesOf
  rw [filterMap_map]
  exact filterMap_some

theorem suffixesOf_answer (pubs : List MoqPub) (scope : Name) :
    suffixesOf (serveAnnounceWrite pubs scope) = pubs.filterMap (inScope scope) := suffixesOf_starts _

theorem okCounts_answer (pubs : List MoqPub) (scope : Name) : OkCounts (serveAnnounceWrite pubs scope) := by
  intro active hmem
  simp only [serveAnnounceWrite, mem_cons, mem_map, reduceCtorEq, and_false, exists_false, or_false,
    AnnounceMsg.ok.injEq] at hmem
  subst hmem
  exact ⟨_, rfl, rfl⟩

theorem okCounts_start (suffix : Name) : OkCounts [.start suffix] := by
  intro active hmem
  simp at hmem

/-! ## `serve_reannounce` -/

def lateSuffix (r : PeerAnnounce) (p : MoqPub) : Option Name :=
  if p.announced = true ∨ p.trackCnt = 0 then none else suffixOn p r

theorem serveReannounce_announces : ∀ (ps : List MoqPub) (rs : List PeerAnnounce), (serveReannounce ps rs).2 =
    rs.map fun r => { r with writes := r.writes ++ (ps.filterMap (lateSuffix r)).map fun suffix => [.start suffix] }
  | [], rs => by simp [serveReannounce]
  | p :: ps, rs => by
    by_cases hp : p.announced = true ∨ p.trackCnt = 0
    · simp only [serveReannounce, hp, if_true, serveReannounce_announces ps rs, filterMap_cons, lateSuffix]
    · simp only [serveReannounce, hp, if_false, serveReannounce_announces ps, map_map]
      apply map_congr_left
      intro r _
      have hrest : ∀ writes, lateSuffix { r with writes := writes } = lateSuffix r := fun _ => rfl
      have hhead : lateSuffix r p = suffixOn p r := if_neg hp
      simp only [Function.comp_apply, filterMap_cons, hhead, late]
      cases suffixOn p r <;> simp [hrest]

theorem serveReannounce_inScope (scope : Name) : ∀ (ps : List MoqPub) (rs : List PeerAnnounce),
    (serveReannounce ps rs).1.filterMap (inScope scope) = ps.filterMap (inScope scope)
  | [], _ => rfl
  | p :: ps, rs => by
    unfold serveReannounce
    split
    · simp only [filterMap_cons, serveReannounce_inScope scope ps]
    · have hsame : inScope scope { p with announced := rs.any fun r => (suffixOn p r).isSome } = inScope scope p := rfl
      simp only [filterMap_cons, serveReannounce_inScope scope ps, hsame]

theorem serveReannounce_flags : ∀ (ps : List MoqPub) (rs : List PeerAnnounce),
    (∀ p ∈ ps, p.announced = true → p.trackCnt ≠ 0) → ∀ p ∈ (serveReannounce ps rs).1, p.announced = true → p.trackCnt ≠ 0
  | [], _, _, _, hp => by cases hp
  | p :: ps, rs, hflags, p', hp' => by
    have hrest := fun rs => serveReannounce_flags ps rs fun p hp => hflags p (mem_cons_of_mem _ hp)
    unfold serveReannounce at hp'
    split at hp'
    · rcases List.mem_cons.1 hp' with rfl | hp'
      · exact hflags _ mem_cons_self
      · exact hrest rs p' hp'
    · next hnot =>
      rcases List.mem_cons.1 hp' with rfl | hp'
      · exact fun _ h0 => hnot (.inr h0)
      · exact hrest _ p' hp'

/-! ## The steps -/

theorem told_late (r : PeerAnnounce) (l : List Name) :
    PeerAnnounce.told { r with writes := r.writes ++ l.map fun suffix => [.start suffix] } = PeerAnnounce.told r ++ l := by
  have hstarts : (l.map fun suffix => [AnnounceMsg.start suffix]).flatten = l.map .start := by
    induction l with
    | nil => rfl
    | cons a l ih => simp [ih]
  simp [PeerAnnounce.told, flatten_append, hstarts]

theorem filterMap_modify_perm {α β : Type} (f : α → Option β) (g : α → α) (new : Option β) :
    ∀ (l : List α) (i : Nat) (a : α), l[i]? = some a → (f a = none ∧ f (g a) = new ∨ f (g a) = f a ∧ new = none) →
      ((l.modify i g).filterMap f).Perm (new.toList ++ l.filterMap f)
  | [], i, a, h, _ => by simp at h
  | x :: l, 0, a, h, hf => by
    obtain rfl : x = a := by simpa using h
    rcases hf with ⟨hnone, hnew⟩ | ⟨hsame, rfl⟩
    · rw [modify_zero_cons, filterMap_cons, filterMap_cons, hnone, hnew]
      cases new <;> exact List.Perm.refl _
    · rw [modify_zero_cons, filterMap_cons, filterMap_cons, hsame]
      exact List.Perm.refl _
  | x :: l, i + 1, a, h, hf => by
    have ih := filterMap_modify_perm f g new l i a (by simpa using h) hf
    rw [modify_succ_cons, filterMap_cons, filterMap_cons]
    cases f x with
    | none => exact ih
    | some y => exact (ih.cons y).trans List.perm_middle.symm

theorem inScope_addTrack (scope : Name) (p : MoqPub) :
    let new := if p.trackCnt = 0 then pubSuffixFor scope p.path else none
    inScope scope p = none ∧ inScope scope (addTrack p) = new ∨ inScope scope (addTrack p) = inScope scope p ∧ new = none := by
  by_cases h0 : p.trackCnt = 0 <;> simp [inScope, addTrack, h0]

theorem lateSuffix_addTrack (hr : r.reqPrefix = some scope) {p : MoqPub} (hflag : p.announced = true → p.trackCnt ≠ 0) :
    let new := if p.trackCnt = 0 then pubSuffixFor scope p.path else none
    lateSuffix r p = none ∧ lateSuffix r (addTrack p) = new ∨ lateSuffix r (addTrack p) = lateSuffix r p ∧ new = none := by
  by_cases h0 : p.trackCnt = 0
  · have hno : p.announced ≠ true := fun h => hflag h h0
    simp [lateSuffix, suffixOn, addTrack, hr, h0, hno]
  · simp [lateSuffix, suffixOn, addTrack, h0]

theorem told_publishTrack (hs : Sound s) {i : Nat} {p : MoqPub} (hp : s.pubs[i]? = some p) (hr : r.reqPrefix = some scope)
    (htold : (PeerAnnounce.told r).Perm (s.pubs.filterMap (inScope scope))) : (PeerAnnounce.told r ++
    (s.pubs.modify i addTrack).filterMap (lateSuffix r)).Perm ((s.pubs.modify i addTrack).filterMap (inScope scope)) ↔
    s.pubs.filterMap (lateSuffix r) = [] := by
  have hlate := filterMap_modify_perm (lateSuffix r) addTrack _ s.pubs i p hp
    (lateSuffix_addTrack hr (hs.flags p (mem_of_getElem? hp)))
  have hscope := filterMap_modify_perm (inScope scope) addTrack _ s.pubs i p hp (inScope_addTrack scope p)
  constructor
  · intro h
    have hlen := h.length_eq
    have h1 := hlate.length_eq
    have h2 := hscope.length_eq
    have h3 := htold.length_eq
    simp only [length_append] at hlen h1 h2
    exact List.length_eq_zero_iff.1 (by omega)
  · intro h0
    rw [h0, append_nil] at hlate
    exact ((htold.append hlate).trans perm_append_comm).trans hscope.symm

theorem addTrack_flags {ps : List MoqPub} (hflags : ∀ p ∈ ps, p.announced = true → p.trackCnt ≠ 0) {i : Nat} {p : MoqPub}
    (hp : p ∈ ps.modify i addTrack) (hflag : p.announced = true) : p.trackCnt ≠ 0 := by
  obtain ⟨j, hj, rfl⟩ := List.mem_iff_getElem.1 hp
  rw [getElem_modify] at hflag ⊢
  split
  · exact Nat.succ_ne_zero _
  · next hne =>
    rw [if_neg hne] at hflag
    exact hflags _ (getElem_mem _) hflag

theorem Sound.step (hs : Sound s) (e : Event) : Sound (s.step e) := by
  cases e with
  | publish path =>
    show Sound (s.moqLitePublish path)
    unfold moqLitePublish
    split
    · exact hs
    · refine ⟨fun p hp => ?_, hs.counts⟩
      rcases List.mem_append.1 hp with hp | hp
      · exact hs.flags p hp
      · rw [List.mem_singleton.1 hp]
        nofun
  | publishTrack i name codec =>
    show Sound (s.moqLitePublishTrack i name codec)
    unfold moqLitePublishTrack
    split
    · exact hs
    · split
      · exact hs
      · refine ⟨serveReannounce_flags _ _ fun p hp hflag => ?_, fun r' hr' ms hms => ?_⟩
        · exact addTrack_flags hs.flags hp hflag
        · simp only [serveReannounce_announces] at hr'
          obtain ⟨r, hr, rfl⟩ := List.mem_map.1 hr'
          rcases List.mem_append.1 hms with hms | hms
          · exact hs.counts r hr ms hms
          · obtain ⟨suffix, -, rfl⟩ := List.mem_map.1 hms
            exact okCounts_start suffix
  | streamOpens sid =>
    show Sound (if _ then _ else _)
    split
    · exact hs
    · refine ⟨hs.flags, fun r hr => ?_⟩
      rcases List.mem_append.1 hr with hr | hr
      · exact hs.counts r hr
      · rw [List.mem_singleton.1 hr]
        nofun
  | request sid scope =>
    refine ⟨hs.flags, fun r' hr' ms hms => ?_⟩
    obtain ⟨r, hr, rfl⟩ := List.mem_map.1 hr'
    split at hms
    · rcases List.mem_append.1 hms with hms | hms
      · exact hs.counts r hr ms hms
      · rw [List.mem_singleton.1 hms]
        exact okCounts_answer _ _
    · exact hs.counts r hr ms hms
  | streamGone sid => exact ⟨hs.flags, fun r hr => hs.counts r (mem_of_mem_filter hr)⟩

theorem lateSuffix_nil {ps : List MoqPub} :
    ps.filterMap (lateSuffix r) = [] ↔ ∀ p ∈ ps, p.announced = false → p.trackCnt ≠ 0 → suffixOn p r = none := by
  rw [filterMap_eq_nil_iff]
  refine forall₂_congr fun p _ => ?_
  unfold lateSuffix
  by_cases hflag : p.announced = true <;> by_cases h0 : p.trackCnt = 0 <;> simp [hflag, h0]

theorem publishTrack_refused {i : Nat} {name codec : Name} (h : ¬ s.Accepts i name codec) :
    s.moqLitePublishTrack i name codec = s := by
  unfold moqLitePublishTrack
  split
  · rfl
  · next p hp =>
    by_cases hbad : name = [] ∨ codec = [] ∨ MOQ_MAX_PUB_TRACKS ≤ p.trackCnt
    · rw [if_pos hbad]
    · simp only [not_or, Nat.not_le] at hbad
      exact absurd ⟨hbad.1, hbad.2.1, p, hp, hbad.2.2⟩ h

theorem publishTrack_taken {i : Nat} {name codec : Name} (h : s.Accepts i name codec) :
    ∃ p, s.pubs[i]? = some p ∧ s.moqLitePublishTrack i name codec =
      { pubs := (serveReannounce (s.pubs.modify i addTrack) s.announces).1
        announces := (serveReannounce (s.pubs.modify i addTrack) s.announces).2 } := by
  obtain ⟨hname, hcodec, p, hp, hcnt⟩ := h
  have hp : s.pubs[i]? = some p := hp
  refine ⟨p, hp, ?_⟩
  unfold moqLitePublishTrack
  rw [hp]
  exact if_neg (by simp [hname, hcodec, hcnt])

theorem announcedOnce_step (hs : Sound s) (h : AnnouncedOnce s) (e : Event) : AnnouncedOnce (s.step e) ↔ s.TellsOnce e := by
  have hcounts := (hs.step e).counts
  cases e with
  | publish path =>
    refine iff_of_true ⟨fun r hr scope hscope => ?_, hcounts⟩ trivial
    have hnew : [({ path } : MoqPub)].filterMap (inScope scope) = [] := rfl
    by_cases hpath : path = []
    · simp only [step, moqLitePublish, hpath, if_true] at hr ⊢
      exact h.once r hr scope hscope
    · simp only [step, moqLitePublish, hpath, if_false, filterMap_append, hnew, append_nil] at hr ⊢
      exact h.once r hr scope hscope
  | publishTrack i name codec =>
    by_cases hacc : s.Accepts i name codec
    · obtain ⟨p, hp, htaken⟩ := publishTrack_taken hacc
      have hstep : s.step (.publishTrack i name codec) = _ := htaken
      simp only [hstep, serveReannounce_announces] at hcounts ⊢
      constructor
      · intro hnew _ p' hp' hflag hcnt r hr hasked
        obtain ⟨scope, hscope⟩ := Option.isSome_iff_exists.1 hasked
        have honce := hnew.once _ (mem_map_of_mem hr) scope hscope
        rw [told_late, serveReannounce_inScope] at honce
        have hnone := (told_publishTrack hs hp hscope (h.once r hr scope hscope)).1 honce
        exact lateSuffix_nil.1 hnone p' hp' hflag hcnt
      · intro hcond
        refine ⟨fun r' hr' scope hscope => ?_, hcounts⟩
        obtain ⟨r, hr, rfl⟩ := List.mem_map.1 hr'
        have hscope : r.reqPrefix = some scope := hscope
        rw [told_late, serveReannounce_inScope]
        refine (told_publishTrack hs hp hscope (h.once r hr scope hscope)).2 (lateSuffix_nil.2 fun p' hp' hflag hcnt => ?_)
        exact hcond hacc p' hp' hflag hcnt r hr (by rw [hscope]; rfl)
    · have hstep : s.step (.publishTrack i name codec) = s := publishTrack_refused hacc
      rw [hstep]
      exact iff_of_true h fun hacc' => absurd hacc' hacc
  | streamOpens sid =>
    refine iff_of_true ⟨fun r hr scope hscope => ?_, hcounts⟩ trivial
    simp only [step] at hr ⊢
    split at hr
    · simpa [*] using h.once r hr scope hscope
    · rcases List.mem_append.1 hr with hr | hr
      · simpa [*] using h.once r hr scope hscope
      · rw [List.mem_singleton.1 hr] at hscope
        cases hscope
  | request sid scope =>
    have htold : ∀ r : PeerAnnounce, PeerAnnounce.told { r with reqPrefix := some scope
                                                                writes := r.writes ++ [serveAnnounceWrite s.pubs scope] } =
        PeerAnnounce.told r ++ s.pubs.filterMap (inScope scope) := fun r => by
      simp [PeerAnnounce.told, flatten_append, suffixesOf_answer]
    constructor
    · intro hnew r hr hsid
      have hmem : { r with reqPrefix := some scope, writes := r.writes ++ [serveAnnounceWrite s.pubs scope] } ∈
          (s.step (.request sid scope)).announces := List.mem_map.2 ⟨r, hr, if_pos hsid⟩
      have honce := hnew.once _ hmem scope rfl
      rw [htold] at honce
      have hlen := honce.length_eq
      rw [length_append] at hlen
      exact List.length_eq_zero_iff.1 (Nat.add_eq_right.1 hlen)
    · intro hcond
      refine ⟨fun r' hr' scope' hscope' => ?_, hcounts⟩
      obtain ⟨r, hr, rfl⟩ := List.mem_map.1 hr'
      by_cases hsid : r.sid = sid
      · simp only [hsid, if_true] at hscope' ⊢
        obtain rfl : scope = scope' := Option.some.inj hscope'
        rw [← hsid, htold, hcond r hr hsid]
        exact List.Perm.refl _
      · simp only [hsid, if_false] at hscope' ⊢
        exact h.once r hr scope' hscope'
  | streamGone sid => exact iff_of_true ⟨fun r hr => h.once r (mem_of_mem_filter hr), hcounts⟩ trivial

/-- **Every stream that asked is told once of each broadcast at every moment of a run, exactly when every step tells once.** -/
theorem announced_once_iff (events : List Event) :
    (∀ pre post, events = pre ++ post → AnnouncedOnce (pre.foldl step {})) ↔ StepsOk step TellsOnce {} events :=
  forall_prefix_iff step TellsOnce (fun _ => True) Sound AnnouncedOnce (fun _ e hs _ => hs.step e)
    (fun _ e hs _ h => announcedOnce_step hs h e) events {} (fun _ _ => trivial) ⟨nofun, nofun⟩ ⟨nofun, nofun⟩

/-- A broadcast with a video track is asked for, and then gets a second track. -/
def askThenTrack : List Event :=
  [.publish "live/a".toList, .publishTrack 0 "video".toList "avc1".toList, .streamOpens 4, .request 4 "live".toList,
   .publishTrack 0 "audio".toList "mp4a".toList]

/-- **The broadcast is announced again**, though nobody unpublished it. -/
theorem announced_again :
    ((askThenTrack.foldl step {}).announces.map PeerAnnounce.told) = [["a".toList, "a".toList]] ∧
      ¬ AnnouncedOnce (askThenTrack.foldl step {}) := by
  have htold : (askThenTrack.foldl step {}).announces =
      [{ sid := 4, reqPrefix := some "live".toList,
         writes := [[.ok 1, .start "a".toList], [.start "a".toList]] }] := by decide
  have hscope : (askThenTrack.foldl step {}).pubs.filterMap (inScope "live".toList) = ["a".toList] := by decide
  refine ⟨by rw [htold]; decide, fun h => ?_⟩
  have honce := h.once _ (by rw [htold]; exact mem_singleton_self _) "live".toList rfl
  rw [hscope] at honce
  exact absurd honce.length_eq (by decide)

end PubSession
end MoqLiveCast
