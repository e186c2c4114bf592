import MoqLiveCast.Media.StreamSteps
/-!
# StreamHeaders — the sequence headers in the cache of a key

Whoever came last has put the header of a type there.  It goes when the cache is cleared, which a take-over and the removal of
the publisher do, or with the entry; until then the owner stays too, if there is one (`step_held`).
-/
namespace MoqLiveCast

def GopCache.hdr (c : GopCache) : MediaType → Option MediaPacket
  | .video => c.videoHdr
  | .audio => c.audioHdr
  | _ => none

namespace StreamKey

def seqHdr (s : StreamKey) (t : MediaType) : Option MediaPacket := s.stream.bind (·.cache.hdr t)

def clears (s : StreamKey) : StreamOp → Bool
  | .removePublisher => true
  | .release owner => s.stream.isNone || s.isPublisherOwner owner
  | .claim owner now => s.stream.isNone || (s.claimPublisher owner now).2 = .takeOver
  | _ => s.stream.isNone

def isHeaderOf (t : MediaType) (p : MediaPacket) : Bool := p.isSeqHdr && p.avType = t

@[simp] theorem isHeaderOf_timed (t : MediaType) (p : MediaPacket) (dts pts : Int) :
    isHeaderOf t { p with dts, pts } = isHeaderOf t p := rfl

/-- **The cache and the owner are as before**, but for a packet in the cache, and an owner where there was none. -/
structure Held (op : StreamOp) (st st' : MediaStream) : Prop where
  owner : st.publisherId = [] ∨ st'.publisherId = st.publisherId
  cache : (∀ p fails, op ≠ .packet p fails) → st'.cache = st.cache
  packet : ∀ p fails, op = .packet p fails → ∃ dts pts, st'.cache = st.cache.input { p with dts, pts }

theorem hdr_input {t : MediaType} (ht : t = .video ∨ t = .audio) (c : GopCache) (p : MediaPacket) :
    (c.input p).hdr t = if isHeaderOf t p then some p else c.hdr t := by
  unfold GopCache.input GopCache.hdr isHeaderOf
  rcases ht with rfl | rfl <;> cases hhdr : p.isSeqHdr <;> cases htype : p.avType <;> simp

theorem fed_input (st : MediaStream) (p : MediaPacket) : ∃ dts pts, (fed st p).1.cache = st.cache.input { p with dts, pts } := by
  refine ⟨(st.normalizeDts p).2.dts, (st.normalizeDts p).2.pts, ?_⟩
  unfold fed MediaStream.normalizeDts MediaStream.setLastIn MediaStream.shifted MediaStream.reshift
  dsimp only
  split_ifs <;> cases p.avType <;> rfl

variable (writerId : Nat → Name)

theorem Held.of_writers {op : StreamOp} (hop : ∀ p fails, op ≠ .packet p fails) {st : MediaStream} (ws : List Nat) :
    Held op st { st with writers := ws } :=
  ⟨.inr rfl, fun _ => rfl, fun p fails h => absurd h (hop p fails)⟩

theorem PlayersOnly.held {s s' : StreamKey} (h : PlayersOnly s s') {op : StreamOp} (hop : ∀ p fails, op ≠ .packet p fails)
    {st : MediaStream} (hst : s.stream = some st) : s'.stream = none ∨ ∃ st', s'.stream = some st' ∧ Held op st st' := by
  rcases h.stream with ⟨hnone, -⟩ | ⟨st₀, ws, hst₀, hst'⟩
  · exact .inl hnone
  · rw [hst] at hst₀
    obtain rfl := Option.some.inj hst₀
    exact .inr ⟨_, hst', .of_writers hop ws⟩

theorem countTakeover_held (st : MediaStream) (now : Int) :
    (countTakeover st now).publisherId = st.publisherId ∧ (countTakeover st now).cache = st.cache := by
  unfold countTakeover
  split <;> exact ⟨rfl, rfl⟩

theorem step_held (s : StreamKey) (op : StreamOp) (hkeep : s.clears op = false) : (s.step writerId op).stream = none ∨
    ∃ st st', s.stream = some st ∧ (s.step writerId op).stream = some st' ∧ Held op st st' := by
  cases hst : s.stream with
  | none =>
    cases op <;> simp [clears, hst] at hkeep
  | some st =>
    have hplayers : ∀ s', PlayersOnly s s' → (∀ p fails, op ≠ .packet p fails) → s'.stream = none ∨
        ∃ st₁ st', some st = some st₁ ∧ s'.stream = some st' ∧ Held op st₁ st' := fun s' hp hop =>
      (hp.held hop hst).imp_right fun ⟨st', hst', hheld⟩ => ⟨st, st', rfl, hst', hheld⟩
    cases op with
    | addPlayer w fails =>
      rcases addPlayer_spec writerId fails s w with ⟨hnone, -⟩ | ⟨-, hp⟩
      · simp [hst] at hnone
      · exact hplayers _ hp (by simp)
    | removePlayer w => exact hplayers _ (removePlayer_players writerId s w) (by simp)
    | addPublisher =>
      refine .inr ⟨st, _, rfl, addPublisher_stream s, ?_⟩
      simp only [published, hst]
      exact ⟨.inr rfl, fun _ => rfl, fun p fails h => by cases h⟩
    | removePublisher => simp [clears] at hkeep
    | claim owner now =>
      simp only [clears, hst, Option.isNone_some, Bool.false_or, decide_eq_false_iff_not] at hkeep
      have hcount := countTakeover_held st now
      simp only [step]
      unfold claimPublisher at hkeep ⊢
      simp only [hst] at hkeep ⊢
      split_ifs at hkeep ⊢ with hfree hrefused
      · refine .inr ⟨st, _, rfl, rfl, ⟨?_, fun _ => rfl, fun p fails h => by cases h⟩⟩
        exact hfree.imp_right Eq.symm
      · exact .inr ⟨st, _, rfl, rfl, ⟨.inr hcount.1, fun _ => hcount.2, fun p fails h => by cases h⟩⟩
      · exact absurd rfl hkeep
    | release owner =>
      simp only [clears, hst, Option.isNone_some, Bool.false_or] at hkeep
      simp only [step, releasePublisher_eq, hkeep, Bool.false_eq_true, if_false]
      exact .inr ⟨st, st, rfl, hst, ⟨.inr rfl, fun _ => rfl, fun p fails h => by cases h⟩⟩
    | packet p fails =>
      obtain ⟨ws, hst', -⟩ := writerMediaPacket_spec writerId fails s p
      have hpub : s.published = { st with publisherExist := true } := by
        unfold published
        rw [hst]
      have hfed := fed_keeps s.published p
      obtain ⟨dts, pts, hcache⟩ := fed_input s.published p
      refine .inr ⟨st, _, rfl, hst', ⟨.inr ?_, fun hne => absurd rfl (hne p fails), fun q fails' hq => ?_⟩⟩
      · have hid : (fed s.published p).1.publisherId = s.published.publisherId := hfed.2.1
        rw [hpub] at hid ⊢
        exact hid
      · cases hq
        refine ⟨dts, pts, ?_⟩
        rw [hpub] at hcache ⊢
        exact hcache
    | setCatalog owner json =>
      refine .inr ?_
      simp only [step]
      unfold setCatalogJson
      simp only [hst]
      split_ifs
      · exact ⟨st, st, rfl, hst, ⟨.inr rfl, fun _ => rfl, fun p fails h => by cases h⟩⟩
      · exact ⟨st, st, rfl, hst, ⟨.inr rfl, fun _ => rfl, fun p fails h => by cases h⟩⟩
      · exact ⟨st, st, rfl, hst, ⟨.inr rfl, fun _ => rfl, fun p fails h => by cases h⟩⟩
      · exact ⟨st, _, rfl, rfl, ⟨.inr rfl, fun _ => rfl, fun p fails h => by cases h⟩⟩

end StreamKey

/-! ## Who has a key: its publisher and its players -/

namespace StreamKey

def owner (k : StreamKey) : Option Name := k.stream.map (·.publisherId)

def players (k : StreamKey) : List Nat := (k.stream.map (·.writers)).getD []

section

variable (writerId : Nat → Name)

/-- `writer_map_` has one writer for each id. -/
def Distinct (ws : List Nat) : Prop := ws.Pairwise fun w w' => writerId w ≠ writerId w'

theorem Distinct.sublist {ws ws' : List Nat} (h : Distinct writerId ws) (hs : ws'.Sublist ws) : Distinct writerId ws' :=
  List.Pairwise.sublist hs h

variable {ws : List Nat}

theorem Distinct.put (h : Distinct writerId ws) (w : Nat) : Distinct writerId (putWriter writerId ws w) := by
  refine List.pairwise_append.2 ⟨h.sublist writerId List.filter_sublist, List.pairwise_singleton _ _, fun w' hw' x hx => ?_⟩
  rw [List.mem_singleton.1 hx]
  simpa using (List.mem_filter.1 hw').2

theorem Distinct.find {w : Nat} : Distinct writerId ws → w ∈ ws → ws.find? (fun w' => writerId w' = writerId w) = some w := by
  induction ws with
  | nil => intro _ hw; cases hw
  | cons x ws ih =>
    intro h hw
    obtain ⟨hx, hws⟩ := List.pairwise_cons.1 h
    rw [List.find?_cons]
    rcases List.mem_cons.1 hw with rfl | hw
    · simp
    · simpa [hx w hw] using ih hws hw

theorem mem_putWriter {w w' : Nat} (h : w' ∈ putWriter writerId ws w) : w' ∈ ws ∨ w' = w := by
  rcases List.mem_append.1 h with h | h
  · exact .inl (List.mem_filter.1 h).1
  · exact .inr (List.mem_singleton.1 h)

/-! ## What writers do -/

/-- **Players only go**, and the publisher stays as long as there is an entry. -/
structure Fewer (k k' : StreamKey) : Prop where
  players : k'.players.Sublist k.players
  owner : k'.stream = none ∨ k'.owner = k.owner

variable (k : StreamKey)

theorem Fewer.refl : Fewer k k := ⟨List.Sublist.refl _, .inr rfl⟩

theorem Fewer.trans {k k₁ k₂ : StreamKey} (h : Fewer k k₁) (h' : Fewer k₁ k₂) : Fewer k k₂ := by
  refine ⟨h'.players.trans h.players, ?_⟩
  rcases h'.owner with hnone | heq
  · exact .inl hnone
  · rcases h.owner with hnone | heq'
    · refine .inl ?_
      have hnone' : k₂.owner = none := by rw [heq]; simp [StreamKey.owner, hnone]
      simpa [StreamKey.owner] using hnone'
    · exact .inr (heq.trans heq')

theorem Fewer.of_stream {k k' : StreamKey} (h : k'.stream = k.stream) : Fewer k k' := by
  refine ⟨?_, .inr ?_⟩
  · unfold StreamKey.players
    rw [h]
  · unfold StreamKey.owner
    rw [h]

theorem reap_fewer {k : StreamKey} {st : MediaStream} (h : k.stream = some st) (hws : ws.Sublist st.writers) :
    Fewer k (k.reap { st with writers := ws }) := by
  unfold reap
  split
  · exact ⟨by simp [StreamKey.players], .inl rfl⟩
  · exact ⟨by simpa [StreamKey.players, h] using hws, .inr (by simp [StreamKey.owner, h])⟩

theorem removePlayer_fewer (w : Nat) : Fewer k (k.removePlayer writerId w) := by
  unfold removePlayer
  split
  · exact .refl k
  · rename_i st hst
    split
    · exact reap_fewer hst (List.Sublist.refl _)
    · split
      · exact reap_fewer hst List.erase_sublist
      · exact .refl k

theorem removePlayers_fewer : ∀ (ws : List Nat) (k : StreamKey), Fewer k (ws.foldl (removePlayer writerId) k)
  | [], k => .refl k
  | w :: ws, k => (removePlayer_fewer writerId k w).trans (removePlayers_fewer ws _)

theorem removed_player {k : StreamKey} {w : Nat} (h : Distinct writerId k.players) : w ∉ (k.removePlayer writerId w).players := by
  intro hmem
  have hin : w ∈ k.players := (removePlayer_fewer writerId k w).players.subset hmem
  unfold removePlayer at hmem
  cases hst : k.stream with
  | none => simp [players, hst] at hin
  | some st =>
    simp only [players, hst, Option.map_some, Option.getD_some] at h hin
    have hnodup : st.writers.Nodup := h.imp fun hne heq => hne (congrArg writerId heq)
    simp only [hst, h.find writerId hin, if_true] at hmem
    have hgone := (reap_fewer (k := k) hst (List.erase_sublist (a := w) (l := st.writers))).players
    unfold reap at hmem
    split at hmem
    · simp [players] at hmem
    · simp only [players, entered_stream, Option.map_some, Option.getD_some] at hmem
      exact hnodup.not_mem_erase hmem

/-! ## What a call does -/

theorem addPublisher_players : k.published.writers = k.players ∧ k.published.publisherId = (k.owner).getD [] := by
  unfold published players owner
  cases k.stream <;> exact ⟨rfl, rfl⟩

theorem writerMediaPacket_players (fails : Nat → MediaPacket → Bool) (k : StreamKey) (p : MediaPacket) :
    (k.writerMediaPacket writerId fails p).players.Sublist k.players ∧ (k.writerMediaPacket writerId fails p).owner =
    some (k.owner.getD []) := by
  have hfed := fed_keeps k.published p
  have hpub := addPublisher_players k
  obtain ⟨ws, hst, -⟩ := writerMediaPacket_spec writerId fails k p
  have hfan := (fanOuts_players fails (fed k.published p).1.cache (fed k.published p).2 (fed k.published p).1.writers
    (k.addPublisher.entered (fed k.published p).1, [])).2
  have hfewer := removePlayers_fewer writerId (k.fannedOut fails p).2 (k.fannedOut fails p).1
  rw [← writerMediaPacket_eq] at hfewer
  have hstream : (k.fannedOut fails p).1.stream = some (fed k.published p).1 := hfan
  constructor
  · have hsub := hfewer.players
    have hplayers : (k.fannedOut fails p).1.players = k.players := by
      simp only [players, hstream, Option.map_some, Option.getD_some]
      rw [hfed.2.2.1, hpub.1]
      rfl
    rwa [hplayers] at hsub
  · unfold owner at hpub ⊢
    rw [hst, Option.map_some, ← hpub.2]
    exact congrArg some hfed.2.1

theorem removePublisher_owner : k.removePublisher.owner = none ∨ k.removePublisher.owner = some [] := by
  unfold removePublisher owner
  cases hst : k.stream with
  | none => simp [hst]
  | some st =>
    simp only [notify_stream]
    split
    · exact .inl rfl
    · exact .inr rfl

theorem removePublisher_players : k.removePublisher.players.Sublist k.players := by
  unfold removePublisher players
  cases hst : k.stream with
  | none => simp [hst]
  | some st =>
    simp only [notify_stream]
    split <;> simp

theorem released_owner {x : Name} (hx : x ≠ []) : (k.releasePublisher x).1.owner ≠ some x := by
  rw [releasePublisher_eq]
  split
  · rcases removePublisher_owner k with hnone | hempty
    · rw [hnone]
      exact nofun
    · rw [hempty]
      exact fun heq => hx (Option.some.inj heq).symm
  · rename_i hown
    intro heq
    unfold owner at heq
    obtain ⟨st, hst, hid⟩ := Option.map_eq_some_iff.1 heq
    have hst' : k.stream = some st := hst
    simp [isPublisherOwner, hst', hid] at hown

theorem releasePublisher_players (x : Name) : (k.releasePublisher x).1.players.Sublist k.players := by
  rw [releasePublisher_eq]
  split
  · exact removePublisher_players k
  · exact List.Sublist.refl _

theorem claimPublisher_spec (x : Name) (now : Int) : (k.claimPublisher x now).1.players = k.players ∧ ((k.claimPublisher x now).2
    = .rejected ∧ (k.claimPublisher x now).1.owner = k.owner ∧ k.owner ≠ some x ∨ (k.claimPublisher x now).2 ≠ .rejected ∧
    (k.claimPublisher x now).1.owner = some x) := by
  have hcount : ∀ st : MediaStream, (countTakeover st now).writers = st.writers ∧
      (countTakeover st now).publisherId = st.publisherId := fun st => by
    unfold countTakeover
    split <;> exact ⟨rfl, rfl⟩
  unfold claimPublisher players owner
  cases hst : k.stream with
  | none => simp
  | some st =>
    dsimp only
    by_cases hfree : st.publisherId = [] ∨ st.publisherId = x
    · simp [hfree]
    · have hne : st.publisherId ≠ x := fun heq => hfree (.inr heq)
      rw [if_neg hfree]
      by_cases hrefused : refused st now
      · simp [hrefused, hcount, hne]
      · simp [hrefused, hcount]

theorem owner_step (op : StreamOp) {x : Name} (hx : x ≠ []) (h : (k.step writerId op).owner = some x) :
    k.owner = some x ∨ ∃ now, op = .claim x now := by
  have hplayers : ∀ k', PlayersOnly k k' → k'.owner = some x → k.owner = some x := by
    intro k' hp hown
    rcases hp.stream with ⟨hnone, -⟩ | ⟨st, ws, hst, hst'⟩
    · simp [owner, hnone] at hown
    · simpa [owner, hst, hst'] using hown
  have hremoved : k.removePublisher.owner ≠ some x := by
    rcases removePublisher_owner k with hnone | hempty
    · rw [hnone]
      exact nofun
    · rw [hempty]
      exact fun heq => hx (Option.some.inj heq).symm
  have hentry : some (k.owner.getD []) = some x → k.owner = some x ∨ ∃ now, op = .claim x now := by
    intro heq
    cases hown : k.owner with
    | none =>
      rw [hown] at heq
      exact absurd (Option.some.inj heq).symm hx
    | some y =>
      rw [hown] at heq
      exact .inl heq
  cases op with
  | addPlayer w fails =>
    rcases addPlayer_spec writerId fails k w with ⟨-, heq⟩ | ⟨-, hp⟩
    · simp only [step, heq, owner, entered_stream, Option.map_some, Option.some.injEq] at h
      exact absurd h.symm hx
    · exact .inl (hplayers _ hp h)
  | removePlayer w => exact .inl (hplayers _ (removePlayer_players writerId k w) h)
  | addPublisher =>
    have hown : k.addPublisher.owner = some (k.owner.getD []) := by
      rw [← (addPublisher_players k).2]
      exact congrArg (Option.map (·.publisherId)) (addPublisher_stream k)
    exact hentry (hown.symm.trans h)
  | removePublisher => exact absurd h hremoved
  | claim y now =>
    obtain ⟨-, hclaim⟩ := claimPublisher_spec k y now
    simp only [step] at h
    rcases hclaim with ⟨-, hsame, -⟩ | ⟨-, hown⟩
    · exact .inl (hsame.symm.trans h)
    · rw [hown, Option.some.injEq] at h
      exact .inr ⟨now, by rw [h]⟩
  | release y =>
    simp only [step, releasePublisher_eq] at h
    split at h
    · exact absurd h hremoved
    · exact .inl h
  | packet p fails =>
    exact hentry ((writerMediaPacket_players writerId fails k p).2.symm.trans h)
  | setCatalog y json =>
    simp only [step] at h
    unfold setCatalogJson at h
    cases hst : k.stream with
    | none => simp [owner, hst] at h
    | some st =>
      simp only [hst] at h
      unfold owner at h ⊢
      split_ifs at h <;> simpa [hst] using h

theorem addPlayer_players (fails : Nat → MediaPacket → Bool) (k : StreamKey) (w : Nat) :
    (k.addPlayer writerId fails w).players.Sublist (putWriter writerId k.players w) := by
  unfold addPlayer
  cases hst : k.stream with
  | none => simp [players, hst, putWriter]
  | some st =>
    have hput : (k.entered { st with writers := putWriter writerId st.writers w }).players = putWriter writerId k.players w := by
      simp [players, hst]
    dsimp only
    split
    · have hfewer : Fewer (k.entered { st with writers := putWriter writerId st.writers w })
          (replayTo fails (k.entered { st with writers := putWriter writerId st.writers w }) st.cache w).1 := .of_stream rfl
      have hreplay := hfewer.players
      rw [hput] at hreplay
      split
      · exact hreplay
      · exact (removePlayer_fewer writerId _ w).players.trans hreplay
    · rw [hput]

theorem players_step (op : StreamOp) : (k.step writerId op).players.Sublist k.players ∨
    ∃ w fails, op = .addPlayer w fails ∧ (k.step writerId op).players.Sublist (putWriter writerId k.players w) := by
  cases op with
  | addPlayer w fails => exact .inr ⟨w, fails, rfl, addPlayer_players writerId fails k w⟩
  | removePlayer w => exact .inl (removePlayer_fewer writerId k w).players
  | addPublisher =>
    have hpub := (addPublisher_players k).1
    have hsame : k.addPublisher.players = k.players := by
      simp [players, addPublisher_stream, hpub]
    exact .inl (by simp only [step, hsame]; exact List.Sublist.refl _)
  | removePublisher => exact .inl (removePublisher_players k)
  | claim y now =>
    refine .inl ?_
    simp only [step, (claimPublisher_spec k y now).1]
    exact List.Sublist.refl _
  | release y => exact .inl (releasePublisher_players k y)
  | packet p fails => exact .inl (writerMediaPacket_players writerId fails k p).1
  | setCatalog y json =>
    refine .inl ?_
    simp only [step]
    unfold setCatalogJson
    cases hst : k.stream with
    | none => exact List.Sublist.refl _
    | some st =>
      dsimp only
      split_ifs <;> simp [players, hst]

theorem distinct_step {k : StreamKey} (h : Distinct writerId k.players) (op : StreamOp) :
    Distinct writerId (k.step writerId op).players := by
  rcases players_step writerId k op with hsub | ⟨w, fails, -, hsub⟩
  · exact h.sublist writerId hsub
  · exact (h.put writerId w).sublist writerId hsub

end

end StreamKey
end MoqLiveCast
