import MoqLiveCast.Media.StreamManager
/-!
# StreamSteps — what players and packets do to the entry of a key

Whatever writers do, the entry keeps all but its writers, and goes only when there is no publisher (`PlayersOnly`).  A
packet is for an entry with a publisher, so the entry is there behind it (`writerMediaPacket_spec`).
-/
namespace MoqLiveCast
namespace StreamKey

variable (s : StreamKey)

@[simp] theorem entered_stream (st : MediaStream) : (s.entered st).stream = some st := rfl

@[simp] theorem entered_inited (st : MediaStream) : (s.entered st).inited = s.inited := rfl

@[simp] theorem entered_received (st : MediaStream) : (s.entered st).received = s.received := rfl

@[simp] theorem notify_stream (n : Notice) : (s.notify n).stream = s.stream := by
  unfold notify
  split <;> rfl

@[simp] theorem notify_key (n : Notice) : (s.notify n).key = s.key := by
  unfold notify
  split <;> rfl

/-- **Only the players changed**, or the entry went because it had neither players nor a publisher. -/
structure PlayersOnly (s s' : StreamKey) : Prop where
  key : s'.key = s.key
  notices : s'.notices = s.notices
  stream : (s'.stream = none ∧ ∀ st, s.stream = some st → st.publisherExist = false) ∨
    ∃ st ws, s.stream = some st ∧ s'.stream = some { st with writers := ws }

theorem PlayersOnly.refl : PlayersOnly s s := by
  refine ⟨rfl, rfl, ?_⟩
  cases h : s.stream with
  | none => exact .inl ⟨rfl, fun st hst => nomatch hst⟩
  | some st => exact .inr ⟨st, st.writers, rfl, rfl⟩

theorem PlayersOnly.trans {s s1 s2 : StreamKey} (h : PlayersOnly s s1) (h' : PlayersOnly s1 s2) : PlayersOnly s s2 := by
  refine ⟨h'.key.trans h.key, h'.notices.trans h.notices, ?_⟩
  rcases h.stream with ⟨hnone, hall⟩ | ⟨st, ws, hs, hs1⟩
  · rcases h'.stream with ⟨hnone', -⟩ | ⟨st, ws, hs, -⟩
    · exact .inl ⟨hnone', hall⟩
    · rw [hnone] at hs
      cases hs
  · rcases h'.stream with ⟨hnone', hall⟩ | ⟨st', ws', hs', hs2⟩
    · refine .inl ⟨hnone', fun st' hst' => ?_⟩
      rw [hs] at hst'
      have hexist := hall _ hs1
      rw [← Option.some.inj hst']
      exact hexist
    · rw [hs1] at hs'
      refine .inr ⟨st, ws', hs, ?_⟩
      rw [hs2, ← Option.some.inj hs']

theorem PlayersOnly.of_stream {s s' : StreamKey} (hk : s'.key = s.key) (hn : s'.notices = s.notices)
    (hs : s'.stream = s.stream) : PlayersOnly s s' := by
  have h := PlayersOnly.refl s
  exact ⟨hk, hn, by rw [hs]; exact h.stream⟩

theorem PlayersOnly.entered {s : StreamKey} {st : MediaStream} (h : s.stream = some st) (ws : List Nat) :
    PlayersOnly s (s.entered { st with writers := ws }) := ⟨rfl, rfl, .inr ⟨st, ws, h, rfl⟩⟩

theorem releasePublisher_eq (owner : Name) : s.releasePublisher owner =
    if s.isPublisherOwner owner = true then (s.removePublisher, true) else (s, false) := by
  unfold releasePublisher isPublisherOwner
  cases s.stream with
  | none => rfl
  | some st => by_cases hid : st.publisherId = [] <;> by_cases hown : st.publisherId = owner <;> simp [hid, hown]

section

variable (writerId : Nat → Name) (fails : Nat → MediaPacket → Bool)

theorem reap_players {s : StreamKey} {st : MediaStream} (h : s.stream = some st) (ws : List Nat) :
    PlayersOnly s (s.reap { st with writers := ws }) := by
  unfold reap
  split
  · rename_i hr
    refine ⟨rfl, rfl, .inl ⟨rfl, fun st' hst' => ?_⟩⟩
    rw [h] at hst'
    rw [← Option.some.inj hst']
    exact hr.2
  · exact .entered h ws

variable (s : StreamKey)

theorem removePlayer_players (w : Nat) : PlayersOnly s (s.removePlayer writerId w) := by
  unfold removePlayer
  split
  · exact .refl s
  · rename_i st hst
    split
    · exact reap_players hst st.writers
    · split
      · exact reap_players hst _
      · exact .refl s

theorem removePlayers_players : ∀ (ws : List Nat) (s : StreamKey), PlayersOnly s (ws.foldl (removePlayer writerId) s)
  | [], s => .refl s
  | w :: ws, s => (removePlayer_players writerId s w).trans (removePlayers_players ws _)

theorem replayTo_players (cache : GopCache) (w : Nat) : PlayersOnly s (s.replayTo fails cache w).1 :=
  .of_stream rfl rfl rfl

theorem fanOut_players (cache : GopCache) (p : MediaPacket) (r : StreamKey × List Nat) (w : Nat) :
    PlayersOnly r.1 (fanOut fails cache p r w).1 ∧ (fanOut fails cache p r w).1.stream = r.1.stream := by
  unfold fanOut
  split
  · dsimp only
    split <;> exact ⟨.of_stream rfl rfl rfl, rfl⟩
  · dsimp only
    split <;> exact ⟨.of_stream rfl rfl rfl, rfl⟩

theorem fanOuts_players (cache : GopCache) (p : MediaPacket) : ∀ (ws : List Nat) (r : StreamKey × List Nat),
    PlayersOnly r.1 (ws.foldl (fanOut fails cache p) r).1 ∧ (ws.foldl (fanOut fails cache p) r).1.stream = r.1.stream
  | [], _ => ⟨.refl _, rfl⟩
  | w :: ws, r =>
    have h := fanOut_players fails cache p r w
    have h' := fanOuts_players cache p ws (fanOut fails cache p r w)
    ⟨h.1.trans h'.1, h'.2.trans h.2⟩

theorem addPlayer_spec (w : Nat) :
    (s.stream = none ∧ s.addPlayer writerId fails w = s.entered { writers := [w] }) ∨
      (s.stream ≠ none ∧ PlayersOnly s (s.addPlayer writerId fails w)) := by
  unfold addPlayer
  split
  · rename_i h
    exact .inl ⟨h, rfl⟩
  · rename_i st h
    refine .inr ⟨by rw [h]; exact Option.some_ne_none st, ?_⟩
    have hput := PlayersOnly.entered h (putWriter writerId st.writers w)
    dsimp only
    split
    · split
      · exact hput.trans (replayTo_players fails _ _ _)
      · exact (hput.trans (replayTo_players fails _ _ _)).trans (removePlayer_players writerId _ _)
    · exact hput

def published (s : StreamKey) : MediaStream :=
  match s.stream with
  | none => { publisherExist := true }
  | some st => { st with publisherExist := true }

theorem addPublisher_stream : s.addPublisher.stream = some s.published := by
  unfold addPublisher published
  cases h : s.stream with
  | none => simp
  | some st => rfl

theorem addPublisher_key : s.addPublisher.key = s.key := by
  unfold addPublisher
  split
  · simp [entered]
  · rfl

theorem published_exist : s.published.publisherExist = true := by
  unfold published
  split <;> rfl

theorem fed_keeps (st : MediaStream) (p : MediaPacket) : (fed st p).1.publisherExist = st.publisherExist ∧
    (fed st p).1.publisherId = st.publisherId ∧ (fed st p).1.writers = st.writers ∧ (fed st p).1.catalogJson = st.catalogJson ∧
    (fed st p).1.catalogRev = st.catalogRev := by
  have hshift : (st.shifted p).publisherExist = st.publisherExist ∧ (st.shifted p).publisherId = st.publisherId ∧
      (st.shifted p).writers = st.writers ∧ (st.shifted p).catalogJson = st.catalogJson ∧
      (st.shifted p).catalogRev = st.catalogRev := by
    unfold MediaStream.shifted
    dsimp only
    split
    · exact ⟨rfl, rfl, rfl, rfl, rfl⟩
    · split <;> exact ⟨rfl, rfl, rfl, rfl, rfl⟩
  unfold fed MediaStream.normalizeDts
  dsimp only
  split
  · exact hshift
  · unfold MediaStream.setLastIn
    dsimp only
    split <;> exact hshift

/-- **What a call leaves of an entry**: only storing moves the catalog, and only a packet the time line. -/
structure Rests (op : StreamOp) (st st' : MediaStream) : Prop where
  catalog : (∀ owner json, op ≠ .setCatalog owner json) → st'.catalogJson = st.catalogJson ∧ st'.catalogRev = st.catalogRev
  clock : (∀ p fails, op ≠ .packet p fails) → st'.lastOutDts = st.lastOutDts ∧ st'.tsShift = st.tsShift

theorem Rests.of_writers {op : StreamOp} {st st' : MediaStream} {ws : List Nat} (h : st' = { st with writers := ws }) :
    Rests op st st' := by
  rw [h]
  exact ⟨fun _ => ⟨rfl, rfl⟩, fun _ => ⟨rfl, rfl⟩⟩

theorem countTakeover_rests (op : StreamOp) (st : MediaStream) (now : Int) : Rests op st (countTakeover st now) := by
  unfold countTakeover
  split <;> exact ⟨fun _ => ⟨rfl, rfl⟩, fun _ => ⟨rfl, rfl⟩⟩

def fannedOut (s : StreamKey) (p : MediaPacket) : StreamKey × List Nat :=
  let r := fed s.published p
  r.1.writers.foldl (fanOut fails r.1.cache r.2) (s.addPublisher.entered r.1, [])

theorem writerMediaPacket_eq (p : MediaPacket) : s.writerMediaPacket writerId fails p =
    (s.fannedOut fails p).2.foldl (removePlayer writerId) (s.fannedOut fails p).1 := by
  unfold writerMediaPacket fannedOut
  simp only [addPublisher_stream]

theorem writerMediaPacket_spec (p : MediaPacket) : ∃ ws,
    (s.writerMediaPacket writerId fails p).stream = some { (fed s.published p).1 with writers := ws } ∧
      (s.writerMediaPacket writerId fails p).notices = s.addPublisher.notices ∧
      (s.writerMediaPacket writerId fails p).key = s.key := by
  rw [writerMediaPacket_eq]
  have h1 := fanOuts_players fails (fed s.published p).1.cache (fed s.published p).2 (fed s.published p).1.writers
    (s.addPublisher.entered (fed s.published p).1, [])
  have h2 := removePlayers_players writerId (s.fannedOut fails p).2 (s.fannedOut fails p).1
  have hexist : (fed s.published p).1.publisherExist = true := (fed_keeps _ p).1.trans s.published_exist
  have hstream : (s.fannedOut fails p).1.stream = some (fed s.published p).1 := h1.2
  rcases h2.stream with ⟨-, hall⟩ | ⟨st, ws, hs, hs'⟩
  · exact absurd (hall _ hstream) (by simp [hexist])
  · rw [hstream] at hs
    rw [← Option.some.inj hs] at hs'
    exact ⟨ws, hs', h2.notices.trans h1.1.notices, (h2.key.trans h1.1.key).trans s.addPublisher_key⟩

variable {st' : MediaStream}

theorem PlayersOnly.rests {s s' : StreamKey} (hp : PlayersOnly s s') (op : StreamOp)
    (hst' : s'.stream = some st') : ∃ st, s.stream = some st ∧ Rests op st st' := by
  rcases hp.stream with ⟨hnone, -⟩ | ⟨st, ws, hst, heq⟩
  · rw [hnone] at hst'
    cases hst'
  · rw [heq] at hst'
    exact ⟨st, hst, .of_writers (Option.some.inj hst').symm⟩

theorem removePublisher_rests (op : StreamOp) (hst' : s.removePublisher.stream = some st') :
    ∃ st, s.stream = some st ∧ Rests op st st' := by
  unfold removePublisher at hst'
  split at hst'
  · rename_i h
    rw [h] at hst'
    cases hst'
  · rename_i st h
    dsimp only at hst'
    rw [notify_stream] at hst'
    split at hst'
    · cases hst'
    · rw [← Option.some.inj hst']
      exact ⟨st, h, ⟨fun _ => ⟨rfl, rfl⟩, fun _ => ⟨rfl, rfl⟩⟩⟩

theorem step_entry (op : StreamOp) (hst' : (s.step writerId op).stream = some st') :
    ∃ st, (s.stream = some st ∨ (s.stream = none ∧ st = {})) ∧ Rests op st st' := by
  have hold : (∃ st, s.stream = some st ∧ Rests op st st') →
      ∃ st, (s.stream = some st ∨ (s.stream = none ∧ st = {})) ∧ Rests op st st' :=
    fun ⟨st, hst, hr⟩ => ⟨st, .inl hst, hr⟩
  have hpublished : ∃ st, (s.stream = some st ∨ (s.stream = none ∧ st = {})) ∧ s.published = { st with publisherExist := true } := by
    unfold published
    cases h : s.stream with
    | none => exact ⟨{}, .inr ⟨rfl, rfl⟩, rfl⟩
    | some st => exact ⟨st, .inl rfl, rfl⟩
  cases op with
  | addPlayer w fails =>
    have hst' : (s.addPlayer writerId fails w).stream = some st' := hst'
    rcases addPlayer_spec writerId fails s w with ⟨hnone, heq⟩ | ⟨-, hp⟩
    · rw [heq] at hst'
      exact ⟨{}, .inr ⟨hnone, rfl⟩, .of_writers (Option.some.inj hst').symm⟩
    · exact hold (hp.rests _ hst')
  | removePlayer w => exact hold ((removePlayer_players writerId s w).rests _ hst')
  | addPublisher =>
    have hst' : s.addPublisher.stream = some st' := hst'
    obtain ⟨st, hst, hpub⟩ := hpublished
    rw [addPublisher_stream, hpub] at hst'
    refine ⟨st, hst, ?_⟩
    rw [← Option.some.inj hst']
    exact ⟨fun _ => ⟨rfl, rfl⟩, fun _ => ⟨rfl, rfl⟩⟩
  | packet p fails =>
    obtain ⟨ws, hst1, -⟩ := writerMediaPacket_spec writerId fails s p
    have hst' : (s.writerMediaPacket writerId fails p).stream = some st' := hst'
    obtain ⟨st, hst, hpub⟩ := hpublished
    have hfed := fed_keeps s.published p
    refine ⟨st, hst, fun _ => ?_, fun hp => absurd rfl (hp p fails)⟩
    rw [hst1] at hst'
    rw [← Option.some.inj hst']
    dsimp only
    rw [hfed.2.2.2.1, hfed.2.2.2.2, hpub]
    exact ⟨rfl, rfl⟩
  | removePublisher => exact hold (removePublisher_rests s _ hst')
  | release owner =>
    have hst' : (s.releasePublisher owner).1.stream = some st' := hst'
    rw [releasePublisher_eq] at hst'
    split at hst'
    · exact hold (removePublisher_rests s _ hst')
    · exact hold ⟨st', hst', ⟨fun _ => ⟨rfl, rfl⟩, fun _ => ⟨rfl, rfl⟩⟩⟩
  | claim owner now =>
    have hst' : (s.claimPublisher owner now).1.stream = some st' := hst'
    unfold claimPublisher at hst'
    split at hst'
    · rename_i h
      rw [notify_stream] at hst'
      refine ⟨{}, .inr ⟨h, rfl⟩, ?_⟩
      rw [← Option.some.inj hst']
      exact ⟨fun _ => ⟨rfl, rfl⟩, fun _ => ⟨rfl, rfl⟩⟩
    · rename_i st h
      refine hold ⟨st, h, ?_⟩
      have hcount := countTakeover_rests (.claim owner now) st now
      split at hst'
      · rw [← Option.some.inj hst']
        exact ⟨fun _ => ⟨rfl, rfl⟩, fun _ => ⟨rfl, rfl⟩⟩
      · split at hst' <;> rw [← Option.some.inj hst'] <;> exact ⟨hcount.catalog, hcount.clock⟩
  | setCatalog owner json =>
    refine hold ?_
    have hst' : (s.setCatalogJson owner json).1.stream = some st' := hst'
    unfold setCatalogJson at hst'
    split at hst'
    · rename_i h
      rw [h] at hst'
      cases hst'
    · rename_i st h
      refine ⟨st, h, fun hne => absurd rfl (hne owner json), fun _ => ?_⟩
      split_ifs at hst'
      all_goals
        simp only [entered_stream, h, Option.some.injEq] at hst'
        rw [← hst']
        exact ⟨rfl, rfl⟩

end

end StreamKey
end MoqLiveCast
