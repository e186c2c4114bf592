import MoqLiveCast.Cluster.LocalPush
import MoqLiveCast.Moq.Announce
import MoqLiveCast.Moq.ServeTrack
/-!
# Announced — the broadcasts a peer is told of (`MoqLiteServer`, `MoqLiteSession::AnnounceBroadcast`, `ClusterManager`)

A broadcast starts with the catalog of its key, or with the center's announcement, and ends with its publisher, or with
the center's. A session takes its own routed path off a key; the end takes any configured path off it, as far as the
first slash. What is local hides what is remote by the stream's name too, whatever its application is.
-/
namespace MoqLiveCast

open List

/-- A session whose path was found, and its peer's announce streams. -/
structure AnnounceSession where
  id : Nat
  routed : Name
  announcer : Announcer := {}

/-- The server, the manager's streams, and the center's broadcasts. -/
structure AnnounceNode where
  paths : List Name
  enabled : Bool
  streams : List (Name × StreamKey) := []
  remoteWires : List Name := []
  sessions : List AnnounceSession := []

/-- `taken` says what the transport takes, by session and stream. -/
inductive AnnounceEvent where
  | joined (id : Nat) (routed : Name)
  | left (id : Nat)
  | request (id sid : Nat) (scope : Name) (taken : Bool)
  | stream (key : Name) (op : StreamOp) (taken : Nat → Nat → Bool)
  | remote (wire : Name) (added : Bool) (taken : Nat → Nat → Bool)

/-- `WireBroadcastOf`, and the comparison before it. -/
def localAs (wire key : Name) : Bool := key = wire || (splitLocalKey key).any fun k => k.2 = wire

def endedWire (paths : List Name) (key : Name) : Name :=
  if key.takeWhile (· ≠ '/') ∈ paths then (key.dropWhile (· ≠ '/')).drop 1 else key

namespace AnnounceSession

def announceBroadcast (s : AnnounceSession) (wire : Name) (added : Bool) (taken : Nat → Bool) : AnnounceSession :=
  { s with announcer := s.announcer.step (.broadcast wire added taken) }

def announceRequest (s : AnnounceSession) (sid : Nat) (scope : Name) (wires : List Name) (taken : Bool) : AnnounceSession :=
  { s with announcer := s.announcer.step (.request sid scope wires taken) }

end AnnounceSession

namespace AnnounceNode

section

variable (w : AnnounceNode)

def streamAt (key : Name) : StreamKey := (OrdMap.find w.streams key).getD { key }

def setStream (key : Name) (s : StreamKey) : AnnounceNode := { w with streams := OrdMap.put w.streams key s }

def listPublisherKeys : List Name := (w.streams.map Prod.fst).filter fun key => (w.streamAt key).exists_

def localKeys : List Name := w.listPublisherKeys.filter fun key => (w.streamAt key).getCatalogJson.isSome

def isLocalWire (wire : Name) : Bool := w.localKeys.any (localAs wire)

def appendRemoteBroadcasts : List Name := w.remoteWires.filter fun wire => !w.isLocalWire wire

def wires (routed : Name) : List Name :=
  (w.localKeys.map (announceWireOf routed)).filter (· ≠ []) ++ w.appendRemoteBroadcasts

def announceAll (wireOf : Name → Name) (added : Bool) (taken : Nat → Nat → Bool) : AnnounceNode :=
  { w with sessions := w.sessions.map fun s => s.announceBroadcast (wireOf s.routed) added (taken s.id) }

def onUnpublish (key : Name) (taken : Nat → Nat → Bool) : AnnounceNode :=
  if '/' ∈ key ∧ endedWire w.paths key ∉ w.appendRemoteBroadcasts then
    w.announceAll (fun _ => endedWire w.paths key) false taken
  else w

def streamCall (writerId : Nat → Name) (key : Name) (op : StreamOp) (taken : Nat → Nat → Bool) : AnnounceNode :=
  let s := w.streamAt key
  let w := w.setStream key (s.step writerId op)
  match op with
  | .setCatalog owner json => if CatalogKey.stores s owner json then w.announceAll (announceWireOf · key) true taken else w
  | .removePublisher => if s.stream.isSome then w.onUnpublish key taken else w
  | .release owner => if s.isPublisherOwner owner then w.onUnpublish key taken else w
  | _ => w

def setRemote (wire : Name) (added : Bool) : AnnounceNode :=
  { w with remoteWires := if added then wire :: w.remoteWires else w.remoteWires.filter (· ≠ wire) }

def onRemoteWire (wire : Name) (added : Bool) (taken : Nat → Nat → Bool) : AnnounceNode :=
  if w.enabled = false ∨ wire = [] ∨ (decide (wire ∈ w.remoteWires) = added) then w
  else
    let w := w.setRemote wire added
    if w.isLocalWire wire then w else w.announceAll (fun _ => wire) added taken

end

def step (writerId : Nat → Name) (w : AnnounceNode) : AnnounceEvent → AnnounceNode
  | .joined id routed =>
    if routed ∈ w.paths ∧ ∀ s ∈ w.sessions, s.id ≠ id then { w with sessions := w.sessions ++ [⟨id, routed, {}⟩] } else w
  | .left id => { w with sessions := w.sessions.filter fun s => s.id ≠ id }
  | .request id sid scope taken =>
    { w with sessions := w.sessions.map fun s =>
      if s.id = id then s.announceRequest sid scope (w.wires s.routed) taken else s }
  | .stream key op taken => w.streamCall writerId key op taken
  | .remote wire added taken => w.onRemoteWire wire added taken

def started (paths : List Name) (enabled : Bool) : AnnounceNode := { paths, enabled }

/-- **What there is under a session's path**: a publisher with a catalog has the name, or the center has it. -/
def Available (w : AnnounceNode) (routed wire : Name) : Prop :=
  wire ∈ w.remoteWires ∨ ∃ key ∈ w.localKeys, announceWireOf routed key = wire

def Elsewhere (w : AnnounceNode) (key routed wire : Name) : Prop :=
  wire ∈ w.remoteWires ∨ ∃ k ∈ w.localKeys, k ≠ key ∧ announceWireOf routed k = wire

instance (w : AnnounceNode) (routed wire : Name) : Decidable (w.Available routed wire) := by
  unfold Available
  infer_instance

instance (w : AnnounceNode) (key routed wire : Name) : Decidable (w.Elsewhere key routed wire) := by
  unfold Elsewhere
  infer_instance

end AnnounceNode

namespace AnnounceStream

def InScope (a : AnnounceStream) (wire : Name) : Prop := (announceSuffixOf wire a.scope).isSome = true

instance (a : AnnounceStream) (wire : Name) : Decidable (a.InScope wire) := by
  unfold InScope
  infer_instance

/-- **The broadcasts on the stream are those there are under its path**, and the peer was told so. -/
structure ExactAt (there : Name → Prop) (a : AnnounceStream) : Prop where
  active : ∀ wire, wire ∈ a.ids.map Prod.fst ↔ a.InScope wire ∧ there wire
  unsent : a.unsent = false
  lost : a.lost = []

def Starts (a : AnnounceStream) (wire : Name) (taken : Bool) : Prop :=
  wire ≠ [] ∧ taken = true ∧ ((AnnounceMsg.start ((announceSuffixOf wire a.scope).getD [])).build []).1 = true

def Finishes (a : AnnounceStream) (wire : Name) (taken : Bool) : Prop :=
  taken = true ∧ ∀ i ∈ a.ids, i.1 = wire → (mlAppendAnnounceEnd [] (BitVec.ofNat 64 i.2)).1 = true

instance (a : AnnounceStream) (wire : Name) (taken : Bool) : Decidable (a.Starts wire taken) := by
  unfold Starts
  infer_instance

instance (a : AnnounceStream) (wire : Name) (taken : Bool) : Decidable (a.Finishes wire taken) := by
  unfold Finishes
  infer_instance

/-! What a message makes of a stream. -/

variable {there there' : Name → Prop} {a : AnnounceStream} {wire : Name}

theorem ExactAt.congr (h : a.ExactAt there) (hiff : ∀ x, a.InScope x → (there x ↔ there' x)) : a.ExactAt there' :=
  ⟨fun x => (h.active x).trans (and_congr_right fun hx => hiff x hx), h.unsent, h.lost⟩

theorem mem_ids (a : AnnounceStream) (wire : Name) : (a.ids.any fun i => i.1 = wire) = true ↔ wire ∈ a.ids.map Prod.fst := by
  simp

theorem ExactAt.start (h : a.ExactAt there) (taken : Bool) (hne : wire ≠ [])
    (hstarts : a.InScope wire → there wire ∨ a.Starts wire taken) :
    (a.push wire true taken).scope = a.scope ∧ (a.push wire true taken).ExactAt fun x => there x ∨ x = wire := by
  have hsame : (a.InScope wire → there wire) → a.ExactAt fun x => there x ∨ x = wire := by
    intro hthere
    refine h.congr fun x hx => ⟨Or.inl, ?_⟩
    rintro (hx' | rfl)
    · exact hx'
    · exact hthere hx
  unfold AnnounceStream.push
  rw [if_pos rfl]
  split
  · rename_i hmem
    exact ⟨rfl, hsame fun _ => ((h.active wire).1 ((a.mem_ids wire).1 hmem)).2⟩
  · rename_i hnot
    split
    · rename_i hnone
      refine ⟨rfl, hsame fun hscope => ?_⟩
      unfold InScope at hscope
      rw [hnone] at hscope
      cases hscope
    · rename_i suffix hsuffix
      have hscope : a.InScope wire := by
        unfold InScope
        rw [hsuffix]
        rfl
      obtain ⟨-, htaken, hbuilt⟩ : a.Starts wire taken := by
        rcases hstarts hscope with hthere | hs
        · exact absurd ((a.mem_ids wire).2 ((h.active wire).2 ⟨hscope, hthere⟩)) hnot
        · exact hs
      rw [hsuffix] at hbuilt
      rw [if_pos (by simpa [htaken] using hbuilt)]
      refine ⟨rfl, fun x => ?_, h.unsent, h.lost⟩
      have hx := h.active x
      simp only [map_append, mem_append, hx, map_cons, map_nil, mem_singleton]
      constructor
      · rintro (⟨hin, hthere⟩ | rfl)
        · exact ⟨hin, .inl hthere⟩
        · exact ⟨hscope, .inr rfl⟩
      · rintro ⟨hin, hthere | rfl⟩
        · exact .inl ⟨hin, hthere⟩
        · exact .inr rfl

theorem ExactAt.finish (h : a.ExactAt there) (taken : Bool) (hends : a.InScope wire → a.Finishes wire taken) :
    (a.push wire false taken).scope = a.scope ∧ (a.push wire false taken).ExactAt fun x => there x ∧ x ≠ wire := by
  unfold AnnounceStream.push
  rw [if_neg Bool.false_ne_true]
  split
  · rename_i hnone
    refine ⟨rfl, fun x => ?_, h.unsent, h.lost⟩
    have hnot : wire ∉ a.ids.map Prod.fst := by
      intro hmem
      obtain ⟨i, hi, rfl⟩ := List.mem_map.1 hmem
      exact List.find?_eq_none.1 hnone i hi (by simp)
    rw [h.active x]
    constructor
    · rintro ⟨hin, hthere⟩
      refine ⟨hin, hthere, ?_⟩
      rintro rfl
      exact hnot ((h.active x).2 ⟨hin, hthere⟩)
    · rintro ⟨hin, hthere, -⟩
      exact ⟨hin, hthere⟩
  · rename_i i hi
    have hmem : i ∈ a.ids := List.mem_of_find?_eq_some hi
    have hwire : i.1 = wire := by simpa using List.find?_some hi
    have hscope : a.InScope wire := ((h.active wire).1 (List.mem_map.2 ⟨i, hmem, hwire⟩)).1
    obtain ⟨htaken, hbuilt⟩ := hends hscope
    have hbuilt : ((AnnounceMsg.finish ((announceSuffixOf wire a.scope).getD []) i.2).build []).1 = true := hbuilt i hmem hwire
    dsimp only
    rw [if_neg (by simp [hbuilt]), if_pos htaken]
    refine ⟨rfl, fun x => ?_, h.unsent, h.lost⟩
    have hx := h.active x
    simp only [mem_map, mem_filter, decide_eq_true_eq] at hx ⊢
    constructor
    · rintro ⟨j, ⟨hj, hne⟩, rfl⟩
      obtain ⟨hin, hthere⟩ := hx.1 ⟨j, hj, rfl⟩
      exact ⟨hin, hthere, hne⟩
    · rintro ⟨hin, hthere, hne⟩
      obtain ⟨j, hj, rfl⟩ := hx.2 ⟨hin, hthere⟩
      exact ⟨j, ⟨hj, hne⟩, rfl⟩

end AnnounceStream

/-! ## A stream that stays published -/

namespace StreamKey

variable {writerId : Nat → Name} {s : StreamKey}

variable (writerId) in
theorem exists_kept (op : StreamOp) (hremove : op ≠ .removePublisher) (hrelease : ∀ owner, op ≠ .release owner)
    (h : s.exists_ = true) : (s.step writerId op).exists_ = true := by
  cases op with
  | addPlayer w fails =>
    rcases addPlayer_spec writerId fails s w with ⟨hnone, -⟩ | ⟨-, hp⟩
    · rw [StreamKey.exists_, hnone] at h
      cases h
    · exact hp.exists_.trans h
  | removePlayer w => exact (removePlayer_players writerId s w).exists_.trans h
  | addPublisher => exact addPublisher_exists s
  | removePublisher => exact absurd rfl hremove
  | release owner => exact absurd rfl (hrelease owner)
  | packet p fails =>
    obtain ⟨ws, hst, -⟩ := writerMediaPacket_spec writerId fails s p
    have hstep : (s.step writerId (.packet p fails)).stream = some { (fed s.published p).1 with writers := ws } := hst
    unfold StreamKey.exists_
    rw [hstep]
    exact (fed_keeps s.published p).1.trans s.published_exist
  | claim owner now =>
    have hclaim : (s.claimPublisher owner now).1.exists_ = true := by
      unfold StreamKey.exists_ at h
      unfold claimPublisher StreamKey.exists_
      cases hst : s.stream with
      | none => simp
      | some st =>
        rw [hst] at h
        dsimp only
        split_ifs
        · rfl
        · unfold countTakeover
          split <;> exact h
        · rfl
    exact hclaim
  | setCatalog owner json =>
    have hset : (s.setCatalogJson owner json).1.exists_ = true := by
      unfold setCatalogJson
      split
      · exact h
      · rename_i st hst
        unfold StreamKey.exists_ at h
        rw [hst] at h
        split_ifs
        · unfold StreamKey.exists_
          rw [hst]
          exact h
        · unfold StreamKey.exists_
          rw [hst]
          exact h
        · unfold StreamKey.exists_
          rw [hst]
          exact h
        · exact h
    exact hset

theorem pushable_kept (op : StreamOp) (hremove : op ≠ .removePublisher) (hrelease : ∀ owner, op ≠ .release owner)
    (hset : ∀ owner json, op ≠ .setCatalog owner json) (h : s.Pushable) : (s.step writerId op).Pushable := by
  have hexists := exists_kept writerId op hremove hrelease h.1
  refine ⟨hexists, ?_⟩
  obtain ⟨⟨json, rev⟩, hjson⟩ := Option.ne_none_iff_exists'.1 h.2
  obtain ⟨st, hst, rfl, -, hne⟩ := CatalogKey.getCatalogJson_eq_some hjson
  obtain ⟨st', hst', -⟩ := (Option.any_eq_true _ _).1 hexists
  obtain ⟨st₀, hst₀, hrests⟩ := step_entry writerId s op hst'
  rcases hst₀ with hst₀ | ⟨hnone, -⟩
  · obtain rfl := Option.some.inj (hst.symm.trans hst₀)
    rw [CatalogKey.getCatalogJson_of hst' ((hrests.catalog hset).1 ▸ hne)]
    exact Option.some_ne_none _
  · rw [hst] at hnone
    cases hnone

theorem stored_pushable {owner : Name} {json : List Byte} (h : CatalogKey.stores s owner json = true) :
    (s.step writerId (.setCatalog owner json)).Pushable ↔ s.exists_ = true := by
  obtain ⟨st, hst, hstored⟩ := (Option.any_eq_true _ _).1 h
  have hstep : (s.step writerId (.setCatalog owner json)).stream = some { st with catalogJson := json, catalogRev := st.catalogRev + 1 } ∧
      json ≠ [] := by
    have hgo : json ≠ [] ∧ ¬(st.publisherId ≠ [] ∧ st.publisherId ≠ owner) ∧ st.catalogJson ≠ json := by
      unfold setCatalogJson at hstored
      simp only [hst, Bool.and_eq_true, decide_eq_true_eq] at hstored
      obtain ⟨hne, hset⟩ := hstored
      refine ⟨?_, ?_, hne⟩
      · rintro rfl
        simp at hset
      · intro hother
        rw [if_pos hother] at hset
        split_ifs at hset
    refine ⟨?_, hgo.1⟩
    change (s.setCatalogJson owner json).1.stream = _
    unfold setCatalogJson
    simp only [hst]
    rw [if_neg hgo.1, if_neg hgo.2.1, if_neg hgo.2.2]
    rfl
  have hexists : (s.step writerId (.setCatalog owner json)).exists_ = s.exists_ := by
    unfold StreamKey.exists_
    rw [hstep.1, hst]
    rfl
  have hcatalog : (s.step writerId (.setCatalog owner json)).getCatalogJson ≠ none := by
    rw [CatalogKey.getCatalogJson_of hstep.1 hstep.2]
    exact Option.some_ne_none _
  unfold StreamKey.Pushable
  rw [hexists]
  exact and_iff_left hcatalog

end StreamKey

namespace AnnounceNode

open AnnounceStream

/-- **After each event the broadcasts on every announce stream are those there are.** -/
def Exact (w : AnnounceNode) : Prop :=
  ∀ s ∈ w.sessions, ∀ a ∈ s.announcer.streams, a.ExactAt (w.Available s.routed)

section Conditions

variable (w : AnnounceNode) (s : AnnounceSession) (a : AnnounceStream)

def ComesOk (key : Name) : Prop :=
  (w.streamAt key).exists_ = false → (w.streamAt key).getCatalogJson ≠ none → a.InScope (announceWireOf s.routed key) →
    w.Elsewhere key s.routed (announceWireOf s.routed key)

def CatalogOk (key owner : Name) (json : List Byte) (taken : Bool) : Prop :=
  CatalogKey.stores (w.streamAt key) owner json = true → ¬(w.streamAt key).Pushable →
    a.InScope (announceWireOf s.routed key) → w.Elsewhere key s.routed (announceWireOf s.routed key) ∨
      (w.streamAt key).exists_ = true ∧ a.Starts (announceWireOf s.routed key) taken

/-- **The name that ends is the session's own for the key**, and nobody else has it; what the center has is local by this key
alone. -/
def GoesOk (key : Name) (taken : Bool) : Prop :=
  let wire := announceWireOf s.routed key
  let ended := endedWire w.paths key
  ((w.streamAt key).Pushable → a.InScope wire → ¬w.Elsewhere key s.routed wire → '/' ∈ key ∧ ended = wire) ∧
    ('/' ∈ key → a.InScope ended → if ended ∈ w.remoteWires then ∀ k ∈ w.localKeys, k ≠ key → localAs ended k = false
      else (∀ k ∈ w.localKeys, k ≠ key → announceWireOf s.routed k ≠ ended) ∧ a.Finishes ended taken)

def OpOk (key : Name) (taken : Bool) : StreamOp → Prop
  | .addPublisher | .packet .. | .claim .. => ComesOk w s a key
  | .setCatalog owner json => CatalogOk w s a key owner json taken
  | .removePublisher => (w.streamAt key).stream.isSome = true → GoesOk w s a key taken
  | .release owner => (w.streamAt key).isPublisherOwner owner = true → GoesOk w s a key taken
  | _ => True

/-- What hides the center's broadcast has its name for the session, and what does not has another. -/
def RemoteOk (wire : Name) (added taken : Bool) : Prop :=
  w.enabled = true → wire ≠ [] → decide (wire ∈ w.remoteWires) ≠ added → a.InScope wire →
    let named := ∃ key ∈ w.localKeys, announceWireOf s.routed key = wire
    if w.isLocalWire wire then named
    else if added then named ∨ a.Starts wire taken
    else ¬named ∧ a.Finishes wire taken

/-- The answer is taken, and a broadcast of the center's that is left out of it is there under a key. -/
def RequestOk (scope : Name) (taken : Bool) : Prop :=
  taken = true ∧ (announceSuffixOf [] scope ≠ none → [] ∉ w.localKeys) ∧
    ∀ wire ∈ w.remoteWires, announceSuffixOf wire scope ≠ none → w.isLocalWire wire = true →
      ∃ key ∈ w.localKeys, announceWireOf s.routed key = wire

/-- **The condition on an event**, for each announce stream. -/
def EventOk (w : AnnounceNode) : AnnounceEvent → Prop
  | .stream key op taken => ∀ s ∈ w.sessions, ∀ a ∈ s.announcer.streams, OpOk w s a key (taken s.id a.sid) op
  | .remote wire added taken => ∀ s ∈ w.sessions, ∀ a ∈ s.announcer.streams, RemoteOk w s a wire added (taken s.id a.sid)
  | .request id sid scope taken => ∀ s ∈ w.sessions, s.id = id → sid ∉ s.announcer.asked → RequestOk w s scope taken
  | _ => True

section

variable (w : AnnounceNode) (s : AnnounceSession) (a : AnnounceStream) (key : Name) (taken : Bool)

instance : Decidable (ComesOk w s a key) := by
  unfold ComesOk
  infer_instance

instance (owner : Name) (json : List Byte) : Decidable (CatalogOk w s a key owner json taken) := by
  unfold CatalogOk
  infer_instance

instance : Decidable (GoesOk w s a key taken) := by
  unfold GoesOk
  refine @instDecidableAnd _ _ ?_ ?_ <;> infer_instance

instance (op : StreamOp) : Decidable (OpOk w s a key taken op) :=
  match op with
  | .addPublisher | .packet .. | .claim .. => inferInstanceAs (Decidable (ComesOk w s a key))
  | .setCatalog owner json => inferInstanceAs (Decidable (CatalogOk w s a key owner json taken))
  | .removePublisher =>
    inferInstanceAs (Decidable ((w.streamAt key).stream.isSome = true → GoesOk w s a key taken))
  | .release owner =>
    inferInstanceAs (Decidable ((w.streamAt key).isPublisherOwner owner = true → GoesOk w s a key taken))
  | .addPlayer .. | .removePlayer _ => inferInstanceAs (Decidable True)

instance (wire : Name) (added : Bool) : Decidable (RemoteOk w s a wire added taken) := by
  unfold RemoteOk
  dsimp only
  infer_instance

instance (scope : Name) : Decidable (RequestOk w s scope taken) := by
  unfold RequestOk
  infer_instance

instance (e : AnnounceEvent) : Decidable (EventOk w e) := by
  cases e <;> unfold EventOk <;> infer_instance

end

end Conditions

/-! ## What there is -/

variable {w : AnnounceNode} {key routed wire : Name}

theorem streamAt_setStream (w : AnnounceNode) (key k : Name) (s : StreamKey) :
    (w.setStream key s).streamAt k = if k = key then s else w.streamAt k := by
  unfold streamAt setStream
  dsimp only
  rw [OrdMap.find_put]
  split <;> rfl

theorem mem_localKeys : key ∈ w.localKeys ↔ (w.streamAt key).Pushable := by
  unfold localKeys listPublisherKeys StreamKey.Pushable
  simp only [mem_filter, Option.isSome_iff_ne_none]
  refine ⟨fun h => ⟨h.1.2, h.2⟩, fun h => ⟨⟨?_, h.1⟩, h.2⟩⟩
  cases hf : OrdMap.find w.streams key with
  | some s => exact List.mem_map.2 ⟨(key, s), OrdMap.mem_of_find hf, rfl⟩
  | none =>
    have hnone : (w.streamAt key).exists_ = false := by
      unfold streamAt
      rw [hf]
      rfl
    exact absurd (hnone.symm.trans h.1) Bool.false_ne_true

theorem isLocalWire_iff : w.isLocalWire wire = true ↔ ∃ key ∈ w.localKeys, localAs wire key = true := by
  simp [isLocalWire]

theorem available_iff (key : Name) : w.Available routed wire ↔
    w.Elsewhere key routed wire ∨ ((w.streamAt key).Pushable ∧ announceWireOf routed key = wire) := by
  constructor
  · rintro (hremote | ⟨k, hk, hwire⟩)
    · exact .inl (.inl hremote)
    · by_cases heq : k = key
      · exact .inr ⟨mem_localKeys.1 (heq ▸ hk), heq ▸ hwire⟩
      · exact .inl (.inr ⟨k, hk, heq, hwire⟩)
  · rintro ((hremote | ⟨k, hk, -, hwire⟩) | ⟨hpush, hwire⟩)
    · exact .inl hremote
    · exact .inr ⟨k, hk, hwire⟩
    · exact .inr ⟨key, mem_localKeys.2 hpush, hwire⟩

theorem mem_localKeys_setStream {s : StreamKey} {k : Name} (hk : k ≠ key) :
    k ∈ (w.setStream key s).localKeys ↔ k ∈ w.localKeys := by
  rw [mem_localKeys, mem_localKeys, streamAt_setStream, if_neg hk]

theorem available_setStream {s : StreamKey} : (w.setStream key s).Available routed wire ↔
    w.Elsewhere key routed wire ∨ (s.Pushable ∧ announceWireOf routed key = wire) := by
  rw [available_iff key, streamAt_setStream, if_pos rfl]
  refine or_congr (or_congr Iff.rfl ⟨?_, ?_⟩) Iff.rfl
  · rintro ⟨k, hk, hne, hwire⟩
    exact ⟨k, (mem_localKeys_setStream hne).1 hk, hne, hwire⟩
  · rintro ⟨k, hk, hne, hwire⟩
    exact ⟨k, (mem_localKeys_setStream hne).2 hk, hne, hwire⟩

theorem announceWireOf_nil : announceWireOf routed key = [] ↔ key = [] := by
  constructor
  · intro h
    unfold announceWireOf at h
    split at h
    · rename_i hcut
      have hlen := congrArg List.length h
      simp only [length_drop, length_nil] at hlen
      omega
    · exact h
  · rintro rfl
    unfold announceWireOf
    simp

/-! ## The sessions are told -/

theorem Exact.announceAll {w' : AnnounceNode} (h : w.Exact) {wireOf : Name → Name} {added : Bool} {taken : Nat → Nat → Bool}
    (hsessions : w'.sessions = w.sessions) (hone : ∀ s ∈ w.sessions, ∀ a ∈ s.announcer.streams, a.ExactAt (w.Available s.routed) →
    ((if wireOf s.routed = [] then a else a.push (wireOf s.routed) added (taken s.id a.sid)).ExactAt (w'.Available s.routed))) :
    (w'.announceAll wireOf added taken).Exact := by
  intro s' hs' a' ha'
  obtain ⟨s, hs, rfl⟩ := List.mem_map.1 hs'
  rw [hsessions] at hs
  unfold AnnounceSession.announceBroadcast Announcer.step at ha' ⊢
  by_cases hnil : wireOf s.routed = []
  · simp only [hnil, if_true] at ha' ⊢
    have hpushed := hone s hs a' ha' (h s hs a' ha')
    rw [if_pos hnil] at hpushed
    exact hpushed
  · simp only [hnil, if_false] at ha' ⊢
    obtain ⟨a, ha, rfl⟩ := List.mem_map.1 ha'
    have hpushed := hone s hs a ha (h s hs a ha)
    rw [if_neg hnil] at hpushed
    exact hpushed

theorem Exact.untold {w' : AnnounceNode} (h : w.Exact) (hsessions : w'.sessions = w.sessions) (hone : ∀ s ∈ w.sessions,
    ∀ a ∈ s.announcer.streams, ∀ x, a.InScope x → (w.Available s.routed x ↔ w'.Available s.routed x)) : w'.Exact := by
  intro s hs a ha
  rw [hsessions] at hs
  exact (h s hs a ha).congr (hone s hs a ha)

theorem Exact.setStream (h : w.Exact) {s' : StreamKey} (hone : ∀ s ∈ w.sessions, ∀ a ∈ s.announcer.streams, a.InScope
    (announceWireOf s.routed key) → ¬w.Elsewhere key s.routed (announceWireOf s.routed key) → ((w.streamAt key).Pushable ↔
    s'.Pushable)) : (w.setStream key s').Exact := by
  refine h.untold rfl fun s hs a ha x hx => ?_
  rw [available_iff key, available_setStream]
  by_cases hwire : announceWireOf s.routed key = x
  · by_cases helse : w.Elsewhere key s.routed x
    · simp [helse]
    · have hiff := hone s hs a ha (hwire ▸ hx) (hwire ▸ helse)
      rw [hiff]
  · simp [hwire]

/-! ## What is done to a stream -/

variable {writerId : Nat → Name} {taken : Nat → Nat → Bool}

theorem Exact.stored (h : w.Exact) {owner : Name} {json : List Byte}
    (hstores : CatalogKey.stores (w.streamAt key) owner json = true)
    (hok : ∀ s ∈ w.sessions, ∀ a ∈ s.announcer.streams, CatalogOk w s a key owner json (taken s.id a.sid)) :
    ((w.setStream key ((w.streamAt key).step writerId (.setCatalog owner json))).announceAll (announceWireOf · key) true taken).Exact := by
  refine h.announceAll rfl fun s hs a ha hexact => ?_
  have hpushed := @StreamKey.stored_pushable writerId _ _ _ hstores
  have hwhere : ∀ x, (w.setStream key ((w.streamAt key).step writerId (.setCatalog owner json))).Available s.routed x ↔
      w.Elsewhere key s.routed x ∨ ((w.streamAt key).exists_ = true ∧ announceWireOf s.routed key = x) := by
    intro x
    rw [available_setStream, hpushed]
  have hok := hok s hs a ha hstores
  have hnamed : a.InScope (announceWireOf s.routed key) → ¬w.Elsewhere key s.routed (announceWireOf s.routed key) →
      (w.streamAt key).exists_ = true := by
    intro hscope helse
    by_cases hpush : (w.streamAt key).Pushable
    · exact hpush.1
    · exact ((hok hpush hscope).resolve_left helse).1
  split
  · rename_i hnil
    refine hexact.congr fun x hx => ?_
    rw [hwhere, available_iff key]
    by_cases hwire : announceWireOf s.routed key = x
    · by_cases helse : w.Elsewhere key s.routed x
      · simp [helse]
      · by_cases hpush : (w.streamAt key).Pushable
        · simp [hpush, hpush.1]
        · have hstarts := ((hok hpush (hwire ▸ hx)).resolve_left (hwire ▸ helse)).2
          exact absurd hnil hstarts.1
    · simp [hwire]
  · rename_i hne
    have hstart := hexact.start (taken s.id a.sid) hne fun hscope => by
      by_cases hpush : (w.streamAt key).Pushable
      · exact .inl ((available_iff key).2 (.inr ⟨hpush, rfl⟩))
      · rcases hok hpush hscope with helse | ⟨-, hstarts⟩
        · exact .inl ((available_iff key).2 (.inl helse))
        · exact .inr hstarts
    refine hstart.2.congr fun x hx => ?_
    have hx : a.InScope x := by
      unfold InScope at hx ⊢
      rwa [hstart.1] at hx
    rw [hwhere, available_iff key]
    by_cases hwire : announceWireOf s.routed key = x
    · by_cases helse : w.Elsewhere key s.routed x
      · simp [helse]
      · have hexists := hnamed (hwire ▸ hx) (hwire ▸ helse)
        simp [hexists, hwire]
    · simp [hwire, Ne.symm hwire]

theorem isLocalWire_removed (hgone : ¬((w.streamAt key).step writerId .removePublisher).Pushable) : (w.setStream key
    ((w.streamAt key).step writerId .removePublisher)).isLocalWire wire = true ↔ ∃ k ∈ w.localKeys, k ≠ key ∧
    localAs wire k = true := by
  rw [isLocalWire_iff]
  constructor
  · rintro ⟨k, hk, hlocal⟩
    have hne : k ≠ key := by
      rintro rfl
      rw [mem_localKeys, streamAt_setStream, if_pos rfl] at hk
      exact hgone hk
    exact ⟨k, (mem_localKeys_setStream hne).1 hk, hne, hlocal⟩
  · rintro ⟨k, hk, hne, hlocal⟩
    exact ⟨k, (mem_localKeys_setStream hne).2 hk, hlocal⟩

theorem Exact.removed (h : w.Exact) (hok : ∀ s ∈ w.sessions, ∀ a ∈ s.announcer.streams, GoesOk w s a key (taken s.id a.sid)) :
    ((w.setStream key ((w.streamAt key).step writerId .removePublisher)).onUnpublish key taken).Exact := by
  have hgone : ¬((w.streamAt key).step writerId .removePublisher).Pushable := by
    intro hpush
    have hnone := (w.streamAt key).removePublisher_exists
    exact absurd (hnone.symm.trans hpush.1) Bool.false_ne_true
  have hwhere : ∀ s : AnnounceSession, ∀ x,
      (w.setStream key ((w.streamAt key).step writerId .removePublisher)).Available s.routed x ↔ w.Elsewhere key s.routed x := by
    intro s x
    rw [available_setStream]
    simp [hgone]
  unfold onUnpublish
  split
  · rename_i htold
    obtain ⟨hslash, hremote⟩ := htold
    refine h.announceAll rfl fun s hs a ha hexact => ?_
    obtain ⟨hgoes, hothers⟩ := hok s hs a ha
    have hends : a.InScope (endedWire w.paths key) → ¬w.Elsewhere key s.routed (endedWire w.paths key) ∧
        a.Finishes (endedWire w.paths key) (taken s.id a.sid) := by
      intro hscope
      have hothers := hothers hslash hscope
      split at hothers
      · rename_i hmem
        have hlocal : (w.setStream key ((w.streamAt key).step writerId .removePublisher)).isLocalWire (endedWire w.paths key) = true := by
          by_contra hnot
          exact hremote (List.mem_filter.2 ⟨hmem, congrArg (!·) (Bool.eq_false_iff.2 hnot)⟩)
        obtain ⟨k, hk, hne, hlocal⟩ := (isLocalWire_removed hgone).1 hlocal
        exact absurd (hothers k hk hne) (by simp [hlocal])
      · rename_i hnot
        refine ⟨?_, hothers.2⟩
        rintro (hmem | ⟨k, hk, hne, hwire⟩)
        · exact hnot hmem
        · exact hothers.1 k hk hne hwire
    have hleft : ∀ x, a.InScope x → (w.Elsewhere key s.routed x ↔ w.Available s.routed x ∧ x ≠ endedWire w.paths key) := by
      intro x hx
      rw [available_iff key]
      constructor
      · intro helse
        refine ⟨.inl helse, ?_⟩
        rintro rfl
        exact (hends hx).1 helse
      · rintro ⟨helse | ⟨hpush, rfl⟩, hne⟩
        · exact helse
        · by_contra helse
          exact hne (hgoes hpush hx helse).2.symm
    split
    · rename_i hnil
      have hnil : endedWire w.paths key = [] := hnil
      refine hexact.congr fun x hx => ?_
      rw [hwhere, hleft x hx, hnil]
      refine ⟨fun hthere => ⟨hthere, ?_⟩, And.left⟩
      rintro rfl
      -- No key but the empty one has the empty name, and that one is told to nobody.
      rcases (available_iff key).1 hthere with helse | ⟨-, hwire⟩
      · exact (hends (hnil ▸ hx)).1 (hnil ▸ helse)
      · rw [announceWireOf_nil] at hwire
        rw [hwire] at hslash
        cases hslash
    · obtain ⟨hscope, hfinish⟩ := hexact.finish (taken s.id a.sid) fun hscope => (hends hscope).2
      refine hfinish.congr fun x hx => ?_
      have hx : a.InScope x := by
        unfold InScope at hx ⊢
        rwa [hscope] at hx
      rw [hwhere]
      exact (hleft x hx).symm
  · rename_i htold
    refine h.untold rfl fun s hs a ha x hx => ?_
    obtain ⟨hgoes, -⟩ := hok s hs a ha
    rw [hwhere, available_iff key]
    constructor
    · rintro (helse | ⟨hpush, rfl⟩)
      · exact helse
      · by_contra helse
        obtain ⟨hslash, hended⟩ := hgoes hpush hx helse
        have hmem := not_not.1 fun hnot => htold ⟨hslash, hnot⟩
        exact helse (.inl (hended ▸ mem_of_mem_filter hmem))
    · exact .inl

theorem Exact.quiet (h : w.Exact) {op : StreamOp} (hop : ∀ owner json, op ≠ .setCatalog owner json) (hremove : op ≠ .removePublisher)
    (hrelease : ∀ owner, op ≠ .release owner)
    (hok : ∀ s ∈ w.sessions, ∀ a ∈ s.announcer.streams, ClusterEdge.comes op = true → ComesOk w s a key) :
    (w.setStream key ((w.streamAt key).step writerId op)).Exact := by
  refine h.setStream fun s hs a ha hscope helse => ⟨StreamKey.pushable_kept op hremove hrelease hop, fun hpush => ?_⟩
  rcases StreamKey.pushable_step hop hpush with hpush | ⟨hcomes, hnone, hcat⟩
  · exact hpush
  · exact absurd (hok s hs a ha hcomes hnone hcat hscope) helse

theorem Exact.same (h : w.Exact) {s' : StreamKey} (hs' : s' = w.streamAt key) : (w.setStream key s').Exact := by
  subst hs'
  exact h.setStream fun _ _ _ _ _ _ => Iff.rfl

theorem Exact.streamCall (h : w.Exact) {op : StreamOp} (hok : ∀ s ∈ w.sessions, ∀ a ∈ s.announcer.streams, OpOk w s a key
    (taken s.id a.sid) op) : (w.streamCall writerId key op taken).Exact := by
  cases op with
  | addPlayer v fails =>
    exact h.quiet (fun _ _ hop => StreamOp.noConfusion hop) (fun hop => StreamOp.noConfusion hop)
      (fun _ hop => StreamOp.noConfusion hop) fun _ _ _ _ hcomes => absurd hcomes Bool.false_ne_true
  | removePlayer v =>
    exact h.quiet (fun _ _ hop => StreamOp.noConfusion hop) (fun hop => StreamOp.noConfusion hop)
      (fun _ hop => StreamOp.noConfusion hop) fun _ _ _ _ hcomes => absurd hcomes Bool.false_ne_true
  | addPublisher =>
    exact h.quiet (fun _ _ hop => StreamOp.noConfusion hop) (fun hop => StreamOp.noConfusion hop)
      (fun _ hop => StreamOp.noConfusion hop) fun s hs a ha _ => hok s hs a ha
  | packet p fails =>
    exact h.quiet (fun _ _ hop => StreamOp.noConfusion hop) (fun hop => StreamOp.noConfusion hop)
      (fun _ hop => StreamOp.noConfusion hop) fun s hs a ha _ => hok s hs a ha
  | claim owner now =>
    exact h.quiet (fun _ _ hop => StreamOp.noConfusion hop) (fun hop => StreamOp.noConfusion hop)
      (fun _ hop => StreamOp.noConfusion hop) fun s hs a ha _ => hok s hs a ha
  | setCatalog owner json =>
    unfold AnnounceNode.streamCall
    dsimp only
    split
    · rename_i hstores
      exact h.stored hstores hok
    · rename_i hstores
      exact h.same (StreamKey.setCatalog_unstored (Bool.eq_false_iff.2 hstores))
  | removePublisher =>
    unfold AnnounceNode.streamCall
    dsimp only
    split
    · rename_i hstream
      exact h.removed fun s hs a ha => hok s hs a ha hstream
    · rename_i hstream
      refine h.same ?_
      have hnone : (w.streamAt key).stream = none := by simpa using hstream
      change (w.streamAt key).removePublisher = _
      unfold StreamKey.removePublisher
      simp only [hnone]
  | release owner =>
    have hstep : (w.streamAt key).step writerId (.release owner) =
        if (w.streamAt key).isPublisherOwner owner = true then (w.streamAt key).step writerId .removePublisher
        else w.streamAt key := by
      change ((w.streamAt key).releasePublisher owner).1 = _
      rw [StreamKey.releasePublisher_eq]
      split <;> rfl
    unfold AnnounceNode.streamCall
    dsimp only
    split
    · rename_i howner
      rw [hstep, if_pos howner]
      exact h.removed fun s hs a ha => hok s hs a ha howner
    · rename_i howner
      rw [hstep, if_neg howner]
      exact h.same rfl

/-! ## The other events -/

theorem available_setRemote (w : AnnounceNode) (routed wire x : Name) (added : Bool) :
    (w.setRemote wire added).Available routed x ↔
      if x = wire then added = true ∨ ∃ k ∈ w.localKeys, announceWireOf routed k = x else w.Available routed x := by
  have hkeys : (w.setRemote wire added).localKeys = w.localKeys := rfl
  unfold Available
  rw [hkeys]
  cases added <;> by_cases hx : x = wire <;> simp [setRemote, hx]

theorem Exact.onRemoteWire (h : w.Exact) {added : Bool} (hok : ∀ s ∈ w.sessions, ∀ a ∈ s.announcer.streams, RemoteOk w s a wire
    added (taken s.id a.sid)) : (w.onRemoteWire wire added taken).Exact := by
  unfold AnnounceNode.onRemoteWire
  split
  · exact h
  · rename_i hgo
    obtain ⟨henabled, hne, hchanges⟩ : w.enabled = true ∧ wire ≠ [] ∧ decide (wire ∈ w.remoteWires) ≠ added := by
      simpa [not_or] using hgo
    have hok : ∀ s ∈ w.sessions, ∀ a ∈ s.announcer.streams, a.InScope wire → _ :=
      fun s hs a ha => hok s hs a ha henabled hne hchanges
    have hwhere := fun routed x => w.available_setRemote routed wire x added
    dsimp only
    split
    · rename_i hlocal
      have hlocal : w.isLocalWire wire = true := hlocal
      refine h.untold rfl fun s hs a ha x hx => ?_
      rw [hwhere]
      split
      · rename_i heq
        subst heq
        have hnamed := hok s hs a ha hx
        rw [if_pos hlocal] at hnamed
        exact iff_of_true (.inr hnamed) (.inr hnamed)
      · exact Iff.rfl
    · rename_i hremote
      have hlocal : ¬w.isLocalWire wire = true := hremote
      clear hremote
      refine h.announceAll rfl fun s hs a ha hexact => ?_
      rw [if_neg hne]
      cases added with
      | true =>
        have hstart := hexact.start (taken s.id a.sid) hne fun hscope => by
          have hnamed := hok s hs a ha hscope
          rw [if_neg hlocal, if_pos rfl] at hnamed
          exact hnamed.imp_left Or.inr
        refine hstart.2.congr fun x _ => ?_
        rw [hwhere]
        by_cases hx : x = wire <;> simp [hx]
      | false =>
        have hfinish := hexact.finish (taken s.id a.sid) fun hscope => by
          have hnamed := hok s hs a ha hscope
          rw [if_neg hlocal, if_neg Bool.false_ne_true] at hnamed
          exact hnamed.2
        refine hfinish.2.congr fun x hx => ?_
        have hin : a.InScope x := by
          unfold InScope at hx ⊢
          rwa [hfinish.1] at hx
        rw [hwhere]
        split
        · rename_i heq
          subst heq
          have hnamed := hok s hs a ha hin
          rw [if_neg hlocal, if_neg Bool.false_ne_true] at hnamed
          simpa using hnamed.1
        · rename_i hother
          exact and_iff_left hother

theorem mem_gridItems {scope : Name} {wires : List Name} :
    wire ∈ (gridItems scope wires).map Prod.fst ↔ wire ∈ wires ∧ (announceSuffixOf wire scope).isSome = true := by
  unfold gridItems
  simp [Option.isSome_iff_exists]

theorem grid_exact {s : AnnounceSession} {sid : Nat} {scope : Name} {taken : Bool} {a : AnnounceStream}
    (hgrid : announceGrid sid scope (w.wires s.routed) taken = some a) (hok : RequestOk w s scope taken) :
    a.ExactAt (w.Available s.routed) := by
  obtain ⟨htaken, hempty, hhidden⟩ := hok
  unfold announceGrid at hgrid
  dsimp only at hgrid
  split at hgrid
  · obtain rfl := Option.some.inj hgrid
    refine ⟨fun wire => ?_, by simp [htaken], rfl⟩
    have hids : ((gridItems scope (w.wires s.routed)).zipIdx.map fun i => (i.1.1, i.2)).map Prod.fst =
        (gridItems scope (w.wires s.routed)).map Prod.fst := by
      have hcomp : (Prod.fst ∘ fun i : (Name × Name) × Nat => (i.1.1, i.2)) = Prod.fst ∘ Prod.fst := rfl
      rw [map_map, hcomp, ← map_map, zipIdx_map_fst]
    rw [hids, mem_gridItems, and_comm]
    refine and_congr_right fun hscope => ?_
    have hsome : announceSuffixOf wire scope ≠ none := Option.isSome_iff_ne_none.1 hscope
    unfold wires Available appendRemoteBroadcasts
    simp only [mem_append, mem_filter, mem_map, decide_eq_true_eq, Bool.not_eq_true']
    constructor
    · rintro (⟨hnamed, -⟩ | ⟨hremote, -⟩)
      · exact .inr hnamed
      · exact .inl hremote
    · intro hthere
      have hnonempty : (∃ key ∈ w.localKeys, announceWireOf s.routed key = wire) → wire ≠ [] := by
        rintro ⟨key, hkey, hwire⟩ rfl
        exact hempty hsome (announceWireOf_nil.1 hwire ▸ hkey)
      rcases hthere with hremote | hnamed
      · cases hlocal : w.isLocalWire wire with
        | false => exact .inr ⟨hremote, rfl⟩
        | true =>
          have hnamed := hhidden wire hremote hsome hlocal
          exact .inl ⟨hnamed, hnonempty hnamed⟩
      · exact .inl ⟨hnamed, hnonempty hnamed⟩
  · cases hgrid

theorem Exact.step (h : w.Exact) {e : AnnounceEvent} (hok : EventOk w e) : (w.step writerId e).Exact := by
  cases e with
  | joined id routed =>
    unfold AnnounceNode.step
    dsimp only
    split
    · intro s hs a ha
      rcases List.mem_append.1 hs with hs | hs
      · exact h s hs a ha
      · obtain rfl := List.mem_singleton.1 hs
        cases ha
    · exact h
  | left id => exact fun s hs a ha => h s (mem_of_mem_filter hs) a ha
  | request id sid scope taken =>
    intro s' hs' a ha
    obtain ⟨s, hs, rfl⟩ := List.mem_map.1 hs'
    have hthere : ∀ routed x, (w.step writerId (.request id sid scope taken)).Available routed x ↔ w.Available routed x :=
      fun _ _ => Iff.rfl
    split at ha
    · rename_i hid
      rw [if_pos hid]
      unfold AnnounceSession.announceRequest Announcer.step at ha
      dsimp only at ha
      split at ha
      · exact h s hs a ha
      · rename_i hasked
        rcases List.mem_append.1 ha with ha | ha
        · exact h s hs a ha
        · exact grid_exact (Option.mem_toList.1 ha) (hok s hs hid hasked)
    · rename_i hid
      rw [if_neg hid]
      exact h s hs a ha
  | stream key op taken => exact h.streamCall hok
  | remote wire added taken => exact h.onRemoteWire hok

/-- **What a peer is told of is what there is**: after every run whose events meet the condition, the broadcasts on an announce
stream are those under its path that a publisher with a catalog has the name of, or the center has. -/
theorem announced_exact (writerId : Nat → Name) (paths : List Name) (enabled : Bool) (events : List AnnounceEvent)
    (hok : StepsOk (step writerId) EventOk (started paths enabled) events) :
    (events.foldl (step writerId) (started paths enabled)).Exact := by
  have hstart : (started paths enabled).Exact := fun s hs => absurd hs not_mem_nil
  exact foldl_inv (step writerId) EventOk Exact (fun _ e h hok => h.step hok) events _ hstart hok

def publishedUnder (path : Name) : List AnnounceEvent :=
  let key := path ++ "/x".toList
  [.joined 0 ['a'], .request 0 8 [] true, .stream key (.claim ['p'] 0) fun _ _ => true,
    .stream key (.setCatalog ['p'] [0x7b, 0x7d]) fun _ _ => true, .stream key (.release ['p']) fun _ _ => true]

def announcedOnce : List AnnounceEvent :=
  .joined 1 ['b'] :: .request 1 8 "live".toList true :: .remote "live/y".toList true (fun _ _ => true) ::
    publishedUnder ['a'] ++ [.remote "live/y".toList false fun _ _ => true]

theorem announced_exact_sample : (announcedOnce.foldl (step ClusterEdge.writerNames) (started [['a'], ['b']] true)).Exact :=
  announced_exact ClusterEdge.writerNames [['a'], ['b']] true announcedOnce (by decide +kernel)

/-- **Under another path the wrong name ends**: a session of the path `a` is told of `b/x`, and that `x` ended. -/
theorem other_path_stays :
    let w := (publishedUnder ['b']).foldl (step ClusterEdge.writerNames) (started [['a'], ['b']] true)
    w.localKeys = [] ∧ w.remoteWires = [] ∧
      (∃ s ∈ w.sessions, s.routed = ['a'] ∧ ∃ a ∈ s.announcer.streams, a.scope = [] ∧ a.ids = [("b/x".toList, 0)]) ∧
        ¬w.Exact := by
  refine ⟨by decide +kernel, by decide +kernel, by decide +kernel, fun hexact => ?_⟩
  have hstays : ∃ s ∈ ((publishedUnder ['b']).foldl (step ClusterEdge.writerNames) (started [['a'], ['b']] true)).sessions,
      ∃ a ∈ s.announcer.streams, "b/x".toList ∈ a.ids.map Prod.fst ∧
        ¬((publishedUnder ['b']).foldl (step ClusterEdge.writerNames) (started [['a'], ['b']] true)).Available s.routed "b/x".toList := by
    decide +kernel
  obtain ⟨s, hs, a, ha, hactive, hnot⟩ := hstays
  exact hnot ((hexact s hs a ha).active _ |>.1 hactive).2

end AnnounceNode
end MoqLiveCast
