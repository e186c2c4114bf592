import MoqLiveCast.Moq.PushSession
/-!
# PushLife — what a MoQ push session leaves, and what it writes

A session that is at a key when a message names another one cannot leave it any more (`left_behind`): its claim and its
player stay when it is closed.
-/
namespace MoqLiveCast

open StreamKey

/-! ## What is asked -/

section

variable (sessionId : SessionId) (me : Nat)

def PushWorld.At (w : PushWorld) (key : Name) : Prop :=
  (w.streams key).owner = some sessionId.id ∨ me ∈ (w.streams key).players

instance (w : PushWorld) (key : Name) : Decidable (w.At sessionId me key) := inferInstanceAs (Decidable (_ ∨ _))

/-- **No key has the session as its publisher, or as a player.** -/
def PushWorld.Gone (w : PushWorld) : Prop := ∀ key, ¬ w.At sessionId me key

def PushMark.Held : PushMark → Prop
  | .header _ owner _ _ => owner = some sessionId.id
  | .frame _ owner _ => owner = some sessionId.id
  | _ => True

end

def latestConfig (kind : RenditionKind) (log : List PushMark) : Option (List Byte) :=
  log.foldl (fun c m => match m with
    | .config kind' cfg => if kind' = kind then some cfg else c
    | _ => c) none

/-- The header of the configuration was written under the key, and since then there was neither a claim of it nor another
configuration. -/
def HeaderWritten (log : List PushMark) (key : Name) (kind : RenditionKind) (cfg : List Byte) : Prop :=
  ∃ a owner b, log = a ++ .header key owner kind cfg :: b ∧ .claimed key ∉ b ∧ ∀ cfg', .config kind cfg' ∈ b → cfg' = cfg

/-- **Each frame comes behind the header of the latest configuration of its track**, written since the claim of the key and since
the configuration changed. -/
def HeadersFirst (log : List PushMark) : Prop :=
  ∀ pre key owner kind post, log = pre ++ .frame key owner kind :: post →
    ∀ cfg, latestConfig kind pre = some cfg → HeaderWritten pre key kind cfg

/-! ## The condition -/

/-- The session, and of each track the key and the configuration its header was written for, as long as they are the same. -/
structure MarkedPush where
  world : PushWorld := {}
  due : RenditionKind → Option (Name × List Byte) := fun _ => none

def PushInput.ByOthers (sessionId : SessionId) (me : Nat) : PushInput → Prop
  | .other _ (.claim x _) => x ≠ sessionId.id
  | .other _ (.addPlayer w _) => w ≠ me
  | _ => True

namespace PushWorld

def renamed (w : PushWorld) (m : ControlMessage) : MoqPushSession :=
  if m.type = kMoqtPublish then
    match parsePublish m.body ⟨0, []⟩ with
    | .ok b _ => w.session.named b.app b.stream
    | _ => w.session
  else if m.type = kMoqtSubscribe then
    match parseSubscribe m.body ⟨0, []⟩ with
    | .ok b _ => w.session.named b.app b.stream
    | _ => w.session
  else w.session

end PushWorld

namespace MarkedPush

variable (sessionId : SessionId) (writerId : Nat → Name) (me : Nat) (catalogJson : List (RenditionKind × List Byte) → List Byte)

def unclaimed (w w' : PushWorld) (d : Name × List Byte) : Bool :=
  !((w.streams d.1).owner ≠ some sessionId.id && (w'.streams d.1).owner = some sessionId.id)

/-- The header of a configuration, due when the first one comes and not written if the session is not the owner; another
configuration is not written. -/
def configured (d : MarkedPush) (kind : RenditionKind) (o : LocObject) : Option (Name × List Byte) :=
  if o.cfg = [] then d.due kind
  else if d.world.session.hasMedia = true ∧ o.payload ≠ [] ∧ d.world.session.seqSent kind = false then
    if d.world.isPublisherOwner sessionId then some (d.world.session.getKey, o.cfg) else none
  else (d.due kind).filter fun e => e.2 = o.cfg

def after (d : MarkedPush) (w' : PushWorld) : PushInput → RenditionKind → Option (Name × List Byte)
  | .heard (.object trackAlias o) _ _ => fun kind =>
    if PushWorld.kindOfAlias trackAlias = some kind then d.configured sessionId kind o else d.due kind
  | _ => fun kind => (d.due kind).filter (unclaimed sessionId d.world w')

def step (d : MarkedPush) (i : PushInput) : Option MarkedPush :=
  (d.world.step sessionId writerId me catalogJson i).map fun w' => ⟨w', d.after sessionId w' i⟩

/-- **The condition on an object that is written**: its key has an owner; and its header has been written for this key and
configuration, or is due now, or there never was a configuration. -/
def MeetsObject (d : MarkedPush) (kind : RenditionKind) (o : LocObject) : Prop :=
  d.world.stream.owner ≠ some [] ∧ if d.world.session.seqSent kind then
      ∃ e ∈ d.due kind, e.1 = d.world.session.getKey ∧ (o.cfg = [] ∨ o.cfg = e.2)
    else o.cfg = [] → latestConfig kind d.world.log = none

def Meets (d : MarkedPush) : PushInput → Prop
  | .heard (.control m) _ _ =>
    (d.world.renamed m).getKey ≠ d.world.session.getKey → ¬ d.world.At sessionId me d.world.session.getKey
  | .heard (.object trackAlias o) _ _ => ∀ kind ∈ PushWorld.kindOfAlias trackAlias, d.world.session.hasMedia = true →
    o.payload ≠ [] → d.world.isPublisherOwner sessionId = true → d.MeetsObject kind o
  | _ => True

instance (d : MarkedPush) (kind : RenditionKind) (o : LocObject) : Decidable (d.MeetsObject kind o) := by
  unfold MeetsObject
  infer_instance

instance (d : MarkedPush) (i : PushInput) : Decidable (d.Meets sessionId me i) := by
  unfold Meets
  split <;> infer_instance

end MarkedPush

/-! ## Where the session is -/

/-- **The session is at the key of its names only**, and knows it. -/
structure Placed (sessionId : SessionId) (writerId : Nat → Name) (me : Nat) (w : PushWorld) : Prop where
  away : ∀ key, key ≠ w.session.getKey → ¬ w.At sessionId me key
  publisher : w.stream.owner = some sessionId.id → w.session.publisher = true ∧ w.session.hasMedia = true
  player : me ∈ w.stream.players → w.session.playerAdded = true
  distinct : ∀ key, Distinct writerId (w.streams key).players

section

variable {sessionId : SessionId} {writerId : Nat → Name} {me : Nat} {w w' : PushWorld}

theorem Placed.update (h : Placed sessionId writerId me w) (key : Name) {k : StreamKey} (hstreams : w'.streams =
    Function.update w.streams key k) (hkey : w'.session.getKey = w.session.getKey) (hdistinct : Distinct writerId k.players)
    (howner : k.owner = some sessionId.id → (w.streams key).owner = some sessionId.id ∨ key = w.session.getKey ∧
    w'.session.publisher = true ∧ w'.session.hasMedia = true) (hplayers : me ∈ k.players → me ∈ (w.streams key).players ∨
    key = w.session.getKey ∧ w'.session.playerAdded = true) (hpublisher : w.session.publisher = true → w.session.hasMedia = true →
    w'.session.publisher = true ∧ w'.session.hasMedia = true) (hadded : (key = w.session.getKey → me ∈ k.players) →
    w.session.playerAdded = true → w'.session.playerAdded = true) : Placed sessionId writerId me w' := by
  have hother : ∀ key', key' ≠ key → w'.streams key' = w.streams key' := fun key' hne => by
    rw [hstreams, Function.update_of_ne hne]
  have hself : w'.streams key = k := by rw [hstreams, Function.update_self]
  refine ⟨fun key' hne hat => ?_, fun hown => ?_, fun hmem => ?_, fun key' => ?_⟩
  · rw [hkey] at hne
    by_cases hk : key' = key
    · subst hk
      unfold PushWorld.At at hat
      rw [hself] at hat
      rcases hat with hown | hmem
      · rcases howner hown with hown | ⟨heq, -⟩
        · exact h.away key' hne (.inl hown)
        · exact hne heq
      · rcases hplayers hmem with hmem | ⟨heq, -⟩
        · exact h.away key' hne (.inr hmem)
        · exact hne heq
    · unfold PushWorld.At at hat
      rw [hother key' hk] at hat
      exact h.away key' hne hat
  · unfold PushWorld.stream at hown
    rw [hkey] at hown
    by_cases hk : w.session.getKey = key
    · rw [hk, hself] at hown
      rcases howner hown with hown | ⟨-, hp⟩
      · have hbefore := h.publisher (by unfold PushWorld.stream; rwa [hk])
        exact hpublisher hbefore.1 hbefore.2
      · exact hp
    · rw [hother _ hk] at hown
      have hbefore := h.publisher hown
      exact hpublisher hbefore.1 hbefore.2
  · unfold PushWorld.stream at hmem
    rw [hkey] at hmem
    by_cases hk : w.session.getKey = key
    · rw [hk, hself] at hmem
      rcases hplayers hmem with hmem' | ⟨-, ha⟩
      · exact hadded (fun _ => hmem) (h.player (by unfold PushWorld.stream; rwa [hk]))
      · exact ha
    · rw [hother _ hk] at hmem
      exact hadded (fun heq => absurd heq.symm hk) (h.player hmem)
  · by_cases hk : key' = key
    · rw [hk, hself]
      exact hdistinct
    · rw [hother key' hk]
      exact h.distinct key'

theorem Placed.call (h : Placed sessionId writerId me w) (key : Name) (op : StreamOp) (hclaim : ∀ now, op ≠ .claim sessionId.id
    now) (hadd : ∀ fails, op ≠ .addPlayer me fails) (hstreams : w'.streams = Function.update w.streams key ((w.streams key).step
    writerId op)) (hkey : w'.session.getKey = w.session.getKey) (hpublisher : w.session.publisher = true →
    w.session.hasMedia = true → w'.session.publisher = true ∧ w'.session.hasMedia = true) (hadded : (key = w.session.getKey →
    me ∈ ((w.streams key).step writerId op).players) → w.session.playerAdded = true → w'.session.playerAdded = true) :
    Placed sessionId writerId me w' := by
  refine h.update key hstreams hkey (distinct_step writerId (h.distinct key) op) (fun hown => .inl ?_) (fun hmem => .inl ?_)
    hpublisher hadded
  · exact (owner_step writerId _ op sessionId.ne hown).resolve_right fun ⟨now, hop⟩ => hclaim now hop
  · rcases players_step writerId (w.streams key) op with hsub | ⟨x, fails, hop, hsub⟩
    · exact hsub.subset hmem
    · rcases mem_putWriter writerId (hsub.subset hmem) with hmem | rfl
      · exact hmem
      · exact absurd hop (hadd fails)

theorem Placed.rename (h : Placed sessionId writerId me w) {s : MoqPushSession}
    (hkey : s.getKey ≠ w.session.getKey → ¬ w.At sessionId me w.session.getKey)
    (hmedia : w.session.hasMedia = true → s.hasMedia = true) (hpublisher : s.publisher = w.session.publisher)
    (hadded : s.playerAdded = w.session.playerAdded) : Placed sessionId writerId me { w with session := s } := by
  have hnot : s.getKey ≠ w.session.getKey → ∀ key, ¬ w.At sessionId me key := fun hne key => by
    by_cases hk : key = w.session.getKey
    · rw [hk]
      exact hkey hne
    · exact h.away key hk
  refine ⟨fun key hne hat => ?_, fun hown => ?_, fun hmem => ?_, h.distinct⟩
  · by_cases hsame : s.getKey = w.session.getKey
    · exact h.away key (fun heq => hne (heq.trans hsame.symm)) hat
    · exact hnot hsame key hat
  · by_cases hsame : s.getKey = w.session.getKey
    · have hbefore := h.publisher (by unfold PushWorld.stream; rw [← hsame]; exact hown)
      exact ⟨hpublisher.trans hbefore.1, hmedia hbefore.2⟩
    · exact absurd (.inl hown) (hnot hsame s.getKey)
  · by_cases hsame : s.getKey = w.session.getKey
    · have hbefore := h.player (by unfold PushWorld.stream; rw [← hsame]; exact hmem)
      exact hadded.trans hbefore
    · exact absurd (.inr hmem) (hnot hsame s.getKey)

theorem named_hasMedia (s : MoqPushSession) (app stream : List Byte) (h : s.hasMedia = true) :
    (s.named app stream).hasMedia = true := by
  unfold MoqPushSession.hasMedia at h ⊢
  unfold MoqPushSession.named nameOf
  simp only [ne_eq, decide_not, Bool.and_eq_true, Bool.not_eq_eq_eq_not, Bool.not_true, decide_eq_false_iff_not] at h ⊢
  constructor
  · split
    · exact h.1
    · rename_i hne
      simpa using hne
  · split
    · exact h.2
    · rename_i hne
      simpa using hne

theorem Placed.claim (h : Placed sessionId writerId me w) (hmedia : w.session.hasMedia = true) (now : Int) :
    Placed sessionId writerId me (w.claim sessionId now) := by
  obtain ⟨hplayers, hclaim⟩ := claimPublisher_spec w.stream sessionId.id now
  have hdistinct : Distinct writerId (w.stream.claimPublisher sessionId.id now).1.players := by
    rw [hplayers]
    exact h.distinct _
  unfold PushWorld.claim
  dsimp only
  rcases hclaim with ⟨hrejected, hsame, hne⟩ | ⟨haccepted, -⟩
  · rw [if_pos hrejected]
    refine h.update w.session.getKey rfl rfl hdistinct (fun hown => .inl ?_) (fun hmem => .inl ?_)
      (fun hp hm => ⟨hp, hm⟩) (fun _ ha => ha)
    · exact hsame.symm.trans hown
    · rwa [hplayers] at hmem
  · rw [if_neg haccepted]
    have hplaced : Placed sessionId writerId me { w.putStream (w.stream.claimPublisher sessionId.id now).1 with
        session := { w.session with publisher := true } } := by
      refine h.update w.session.getKey rfl rfl hdistinct (fun _ => .inr ⟨rfl, rfl, hmedia⟩) (fun hmem => .inl ?_)
        (fun _ _ => ⟨rfl, hmedia⟩) (fun _ ha => ha)
      rwa [hplayers] at hmem
    split
    · exact hplaced
    · exact ⟨hplaced.away, hplaced.publisher, hplaced.player, hplaced.distinct⟩

theorem Placed.attachPlayer (h : Placed sessionId writerId me w) : Placed sessionId writerId me (w.attachPlayer writerId me) := by
  unfold PushWorld.attachPlayer
  split
  · exact h
  · have hsame : ∀ k : StreamKey, ({ k with inited := me :: k.inited } : StreamKey).owner = k.owner ∧
        ({ k with inited := me :: k.inited } : StreamKey).players = k.players := fun k => ⟨rfl, rfl⟩
    refine h.update w.session.getKey rfl rfl ?_ (fun hown => .inl ?_) (fun _ => .inr ⟨rfl, rfl⟩)
      (fun hp hm => ⟨hp, hm⟩) (fun _ _ => rfl)
    · exact distinct_step writerId (k := { w.stream with inited := me :: w.stream.inited }) (h.distinct _)
        (.addPlayer me fun _ _ => false)
    · have hstep := owner_step writerId { w.stream with inited := me :: w.stream.inited } (.addPlayer me fun _ _ => false)
        sessionId.ne hown
      exact hstep.resolve_right nofun

theorem Placed.detachPlayer (h : Placed sessionId writerId me w) : Placed sessionId writerId me (w.detachPlayer writerId me) := by
  unfold PushWorld.detachPlayer
  split
  · exact h
  · refine h.call w.session.getKey (.removePlayer me) nofun nofun rfl rfl (fun hp hm => ⟨hp, hm⟩) fun hmem _ => ?_
    exact absurd (hmem rfl) (removed_player writerId (h.distinct _))

theorem Placed.closed (h : Placed sessionId writerId me w) : (w.onSessionClose sessionId writerId me).Gone sessionId me := by
  have hdetached := h.detachPlayer
  have hnotAdded : (w.detachPlayer writerId me).session.playerAdded = false := by
    unfold PushWorld.detachPlayer
    split
    · rename_i hadded
      exact hadded
    · rfl
  have hplayer : me ∉ (w.detachPlayer writerId me).stream.players := fun hmem =>
    absurd ((hdetached.player hmem).symm.trans hnotAdded) (by decide)
  unfold PushWorld.onSessionClose
  dsimp only
  generalize w.detachPlayer writerId me = w₁ at hdetached hplayer
  intro key hat
  split at hat
  · by_cases hk : key = w₁.session.getKey
    · subst hk
      unfold PushWorld.At PushWorld.putStream at hat
      dsimp only at hat
      rw [Function.update_self] at hat
      rcases hat with hown | hmem
      · exact released_owner _ sessionId.ne hown
      · exact hplayer ((releasePublisher_players _ _).subset hmem)
    · unfold PushWorld.At PushWorld.putStream at hat
      dsimp only at hat
      rw [Function.update_of_ne hk] at hat
      exact hdetached.away key hk hat
  · rename_i hpublisher
    by_cases hk : key = w₁.session.getKey
    · subst hk
      rcases hat with hown | hmem
      · exact hpublisher (by simp [hdetached.publisher hown])
      · exact hplayer hmem
    · exact hdetached.away key hk hat

end

/-! ## The log -/

section

variable {log : List PushMark} {m : PushMark} {key : Name} {kind : RenditionKind} {cfg : List Byte}

theorem latestConfig_append (kind : RenditionKind) (log : List PushMark) (m : PushMark) : latestConfig kind (log ++ [m]) =
    match m with
    | .config kind' cfg => if kind' = kind then some cfg else latestConfig kind log
    | _ => latestConfig kind log := by
  unfold latestConfig
  rw [List.foldl_append]
  rfl

theorem headerWritten_now (log : List PushMark) (key : Name) (owner : Option Name) (kind : RenditionKind) (cfg : List Byte) :
    HeaderWritten (log ++ [.header key owner kind cfg]) key kind cfg :=
  ⟨log, owner, [], rfl, by simp, by simp⟩

theorem HeaderWritten.append (h : HeaderWritten log key kind cfg) (hclaim : m ≠ .claimed key)
    (hconfig : ∀ cfg', m = .config kind cfg' → cfg' = cfg) : HeaderWritten (log ++ [m]) key kind cfg := by
  obtain ⟨a, owner, b, rfl, hb, hcfg⟩ := h
  refine ⟨a, owner, b ++ [m], by simp, fun hmem => ?_, fun cfg' hmem => ?_⟩
  · rcases List.mem_append.1 hmem with hmem | hmem
    · exact hb hmem
    · exact hclaim (List.mem_singleton.1 hmem).symm
  · rcases List.mem_append.1 hmem with hmem | hmem
    · exact hcfg cfg' hmem
    · exact hconfig cfg' (List.mem_singleton.1 hmem).symm

theorem HeadersFirst.append (h : HeadersFirst log) (hframe : ∀ key owner kind, m = .frame key owner kind →
    ∀ cfg, latestConfig kind log = some cfg → HeaderWritten log key kind cfg) : HeadersFirst (log ++ [m]) := by
  intro pre key owner kind post heq cfg hcfg
  rcases List.eq_nil_or_concat post with rfl | ⟨post', last, rfl⟩
  · obtain ⟨rfl, hm⟩ := List.append_inj' heq rfl
    exact hframe key owner kind (List.cons.inj hm).1 cfg hcfg
  · have heq' : log ++ [m] = (pre ++ .frame key owner kind :: post') ++ [last] := by simpa using heq
    obtain ⟨hlog, -⟩ := List.append_inj' heq' rfl
    exact h pre key owner kind post' hlog cfg hcfg

def DueKept (log : List PushMark) (kind : RenditionKind) (d : Option (Name × List Byte)) : Prop :=
  ∀ e ∈ d, latestConfig kind log = some e.2 ∧ HeaderWritten log e.1 kind e.2

variable {d : Option (Name × List Byte)}

theorem DueKept.filter (h : DueKept log kind d) (q : Name × List Byte → Bool) :
    DueKept log kind (d.filter q) := fun e he => h e (Option.mem_filter_iff.1 he).1

theorem DueKept.append (h : DueKept log kind d) (hclaim : ∀ e ∈ d, m ≠ .claimed e.1)
    (hconfig : ∀ cfg, m ≠ .config kind cfg) : DueKept (log ++ [m]) kind d := by
  intro e he
  obtain ⟨hlatest, hwritten⟩ := h e he
  refine ⟨?_, hwritten.append (hclaim e he) fun cfg' hm => absurd hm (hconfig cfg')⟩
  rw [latestConfig_append, ← hlatest]
  cases m with
  | config kind' cfg' =>
    have hne : kind' ≠ kind := fun heq => hconfig cfg' (by rw [heq])
    exact if_neg hne
  | _ => rfl

theorem DueKept.again (h : DueKept log kind d) (cfg : List Byte) :
    DueKept (log ++ [.config kind cfg]) kind (d.filter fun e => e.2 = cfg) := by
  intro e he
  obtain ⟨hd, hcfg⟩ := Option.mem_filter_iff.1 he
  have hcfg : e.2 = cfg := by simpa using hcfg
  obtain ⟨-, hwritten⟩ := h e hd
  refine ⟨by simp [latestConfig_append, hcfg], hwritten.append nofun fun cfg' hm => ?_⟩
  cases hm
  exact hcfg.symm

end

theorem due_update {log : List PushMark} {due : RenditionKind → Option (Name × List Byte)} {kind : RenditionKind}
    {e : Option (Name × List Byte)} (hkind : DueKept log kind e) (hothers : ∀ kind', kind' ≠ kind → DueKept log kind' (due kind'))
    (kind' : RenditionKind) : DueKept log kind' (Function.update due kind e kind') := by
  by_cases hk : kind' = kind
  · subst hk
    rw [Function.update_self]
    exact hkind
  · rw [Function.update_of_ne hk]
    exact hothers kind' hk

/-! ## Writing -/

section

variable (sessionId : SessionId) (writerId : Nat → Name) (fails : Nat → MediaPacket → Bool)
    (catalogJson : List (RenditionKind × List Byte) → List Byte) {me : Nat} {w : PushWorld}

theorem emit_session (w : PushWorld) (p : MediaPacket) (m : PushMark) :
    (w.emit sessionId writerId fails p m).session = w.session := by
  unfold PushWorld.emit
  split <;> rfl

theorem emit_log (w : PushWorld) (p : MediaPacket) (m : PushMark) :
    (w.emit sessionId writerId fails p m).log = w.log ++ if w.isPublisherOwner sessionId then [m] else [] := by
  unfold PushWorld.emit
  split
  · rfl
  · simp

theorem Placed.emit (h : Placed sessionId writerId me w) (p : MediaPacket) (m : PushMark) :
    Placed sessionId writerId me (w.emit sessionId writerId fails p m) := by
  unfold PushWorld.emit
  split
  · exact h.call w.session.getKey (.packet p fails) nofun nofun rfl rfl (fun hp hm => ⟨hp, hm⟩) fun _ ha => ha
  · exact h

theorem Placed.publishCatalog (h : Placed sessionId writerId me w) :
    Placed sessionId writerId me (w.publishCatalog sessionId catalogJson) := by
  unfold PushWorld.publishCatalog
  dsimp only
  split
  · exact h
  · exact h.call w.session.getKey (.setCatalog sessionId.id _) nofun nofun rfl rfl (fun hp hm => ⟨hp, hm⟩) fun _ ha => ha

theorem emit_owner {p : MediaPacket} {m : PushMark} (h : w.stream.owner = some sessionId.id) :
    (w.emit sessionId writerId fails p m).stream.owner = some sessionId.id := by
  unfold PushWorld.emit
  split
  · have hstream : ((w.putStream (w.stream.writerMediaPacket writerId fails p)).mark m).stream =
        w.stream.writerMediaPacket writerId fails p := Function.update_self _ _ _
    rw [hstream, (writerMediaPacket_players writerId fails w.stream p).2, h]
    rfl
  · exact h

theorem setCatalogJson_owner (k : StreamKey) (x : Name) (json : List Byte) : (k.setCatalogJson x json).1.owner = k.owner := by
  unfold setCatalogJson owner
  cases hst : k.stream with
  | none => simp [hst]
  | some st =>
    dsimp only
    split_ifs <;> simp [hst]

theorem publishCatalog_spec (w : PushWorld) : (w.publishCatalog sessionId catalogJson).session = w.session ∧
    (w.publishCatalog sessionId catalogJson).log = w.log ∧
    (w.publishCatalog sessionId catalogJson).stream.owner = w.stream.owner := by
  unfold PushWorld.publishCatalog
  dsimp only
  split
  · exact ⟨rfl, rfl, rfl⟩
  · refine ⟨rfl, rfl, ?_⟩
    have hstream : (w.putStream (w.stream.setCatalogJson sessionId.id (catalogJson w.session.configs)).1).stream =
        (w.stream.setCatalogJson sessionId.id (catalogJson w.session.configs)).1 := Function.update_self _ _ _
    rw [hstream, setCatalogJson_owner]

theorem isPublisherOwner_iff (k : StreamKey) (x : Name) : k.isPublisherOwner x = true ↔ k.owner = some [] ∨ k.owner = some x := by
  unfold isPublisherOwner owner
  cases k.stream <;> simp

end

/-! ## Runs -/

/-- **The session is placed**, what it wrote so far was as it should be, and what is due is in order. -/
structure PushKept (sessionId : SessionId) (writerId : Nat → Name) (me : Nat) (d : MarkedPush) : Prop where
  placed : Placed sessionId writerId me d.world
  held : ∀ m ∈ d.world.log, m.Held sessionId
  first : HeadersFirst d.world.log
  due : ∀ kind, DueKept d.world.log kind (d.due kind)

section

variable (sessionId : SessionId) (writerId : Nat → Name) (fails : Nat → MediaPacket → Bool)
    (catalogJson : List (RenditionKind × List Byte) → List Byte) {me : Nat} {d d' : MarkedPush}

variable {w : PushWorld}

theorem isPublisherOwner_media (hmedia : w.session.hasMedia = true) :
    w.isPublisherOwner sessionId = w.stream.isPublisherOwner sessionId.id := by
  unfold PushWorld.isPublisherOwner
  have hboth : ¬ (w.session.app = [] ∨ w.session.stream = []) := by
    unfold MoqPushSession.hasMedia at hmedia
    simpa [not_or] using hmedia
  rw [if_neg hboth]

theorem given_names (s : MoqPushSession) (cfg : List Byte) (kind : RenditionKind) : (s.given cfg kind).getKey = s.getKey ∧
    (s.given cfg kind).hasMedia = s.hasMedia ∧ (s.given cfg kind).publisher = s.publisher ∧
    (s.given cfg kind).playerAdded = s.playerAdded := by
  cases kind <;> exact ⟨rfl, rfl, rfl, rfl⟩

theorem onConfig_spec (w : PushWorld) (kind : RenditionKind) (o : LocObject) : (w.onConfig sessionId writerId fails catalogJson
    kind o).session.getKey = w.session.getKey ∧ (w.onConfig sessionId writerId fails catalogJson kind o).session.hasMedia =
    w.session.hasMedia ∧ (w.onConfig sessionId writerId fails catalogJson kind o).log = w.log ++ (if w.isPublisherOwner sessionId
    then [.header w.session.getKey w.stream.owner kind o.cfg] else []) ∧ (w.stream.owner = some sessionId.id ∨
    w.isPublisherOwner sessionId = false → (w.onConfig sessionId writerId fails catalogJson kind o).stream.owner =
    w.stream.owner) := by
  have hsession : (w.emitHeader sessionId writerId fails kind o.tsMs.toInt o.cfg).session = w.session := emit_session _ _ _ _ _ _
  have hlog := emit_log sessionId writerId fails w (headerPacket o.tsMs.toInt o.cfg kind)
    (.header w.session.getKey w.stream.owner kind o.cfg)
  obtain ⟨hkey, hmedia, -, -⟩ := given_names w.session o.cfg kind
  obtain ⟨hsession', hlog', howner'⟩ := publishCatalog_spec sessionId catalogJson
    { w.emitHeader sessionId writerId fails kind o.tsMs.toInt o.cfg with session := w.session.given o.cfg kind }
  unfold PushWorld.onConfig
  dsimp only
  rw [hsession, hsession', hlog', howner']
  refine ⟨hkey, hmedia, hlog, fun hown => ?_⟩
  unfold PushWorld.stream
  dsimp only
  rw [hkey]
  rcases hown with hown | hnot
  · have hemit := emit_owner sessionId writerId fails (p := headerPacket o.tsMs.toInt o.cfg kind)
      (m := .header w.session.getKey w.stream.owner kind o.cfg) hown
    unfold PushWorld.stream at hemit
    rw [emit_session] at hemit
    exact hemit.trans hown.symm
  · unfold PushWorld.emitHeader PushWorld.emit
    rw [if_neg (by simp [hnot])]

theorem Placed.onConfig (h : Placed sessionId writerId me w) (kind : RenditionKind) (o : LocObject) :
    Placed sessionId writerId me (w.onConfig sessionId writerId fails catalogJson kind o) := by
  have hemit : Placed sessionId writerId me (w.emitHeader sessionId writerId fails kind o.tsMs.toInt o.cfg) :=
    Placed.emit sessionId writerId fails h _ _
  obtain ⟨hkey, hmedia, hpublisher, hadded⟩ :=
    given_names (w.emitHeader sessionId writerId fails kind o.tsMs.toInt o.cfg).session o.cfg kind
  unfold PushWorld.onConfig
  exact Placed.publishCatalog sessionId writerId catalogJson
    (hemit.rename (fun hne => absurd hkey hne) (fun hm => hmedia.trans hm) hpublisher hadded)

theorem PushKept.configured {due : RenditionKind → Option (Name × List Byte)}
    (h : PushKept sessionId writerId me ⟨w, due⟩) (kind : RenditionKind) (cfg : List Byte) :
    PushKept sessionId writerId me
      ⟨w.mark (.config kind cfg), Function.update due kind ((due kind).filter fun e => e.2 = cfg)⟩ := by
  refine ⟨⟨h.placed.away, h.placed.publisher, h.placed.player, h.placed.distinct⟩, fun m hm => ?_, ?_, ?_⟩
  · rcases List.mem_append.1 hm with hm | hm
    · exact h.held m hm
    · obtain rfl := List.mem_singleton.1 hm
      trivial
  · exact h.first.append nofun
  · refine due_update ((h.due kind).again cfg) fun kind' hk => (h.due kind').append nofun fun cfg' hm => ?_
    cases hm
    exact hk rfl

theorem PushKept.header {due : RenditionKind → Option (Name × List Byte)} (h : PushKept sessionId writerId me ⟨w, due⟩)
    (kind : RenditionKind) (o : LocObject) (hconfig : latestConfig kind w.log = some o.cfg) (howner : w.isPublisherOwner sessionId
    = true → w.stream.owner = some sessionId.id) : PushKept sessionId writerId me ⟨w.onConfig sessionId writerId fails catalogJson
    kind o, Function.update due kind (if w.isPublisherOwner sessionId then some (w.session.getKey, o.cfg) else none)⟩ := by
  obtain ⟨-, -, hlog, -⟩ := onConfig_spec sessionId writerId fails catalogJson w kind o
  have hplaced := h.placed.onConfig sessionId writerId fails catalogJson kind o
  cases hpass : w.isPublisherOwner sessionId with
  | false =>
    simp only [hpass, Bool.false_eq_true, if_false, List.append_nil] at hlog ⊢
    refine ⟨hplaced, ?_, ?_, ?_⟩
    · rw [hlog]
      exact h.held
    · rw [hlog]
      exact h.first
    · rw [hlog]
      exact due_update nofun fun kind' _ => h.due kind'
  | true =>
    simp only [hpass, if_true] at hlog ⊢
    refine ⟨hplaced, fun m hm => ?_, ?_, ?_⟩
    · rw [hlog] at hm
      rcases List.mem_append.1 hm with hm | hm
      · exact h.held m hm
      · obtain rfl := List.mem_singleton.1 hm
        exact howner hpass
    · rw [hlog]
      exact h.first.append nofun
    · rw [hlog]
      refine due_update (fun e he => ?_) fun kind' _ => (h.due kind').append nofun nofun
      obtain rfl := Option.some.inj he
      refine ⟨?_, headerWritten_now _ _ _ _ _⟩
      rw [latestConfig_append]
      exact hconfig

theorem PushKept.frame {due : RenditionKind → Option (Name × List Byte)} (h : PushKept sessionId writerId me ⟨w, due⟩)
    (kind : RenditionKind) (o : LocObject) (hwritten : w.isPublisherOwner sessionId = true → w.stream.owner = some sessionId.id ∧
    ∀ cfg, latestConfig kind w.log = some cfg → HeaderWritten w.log w.session.getKey kind cfg) : PushKept sessionId writerId me
    ⟨w.emitFrame sessionId writerId fails kind o, due⟩ := by
  have hlog : (w.emitFrame sessionId writerId fails kind o).log = _ :=
    emit_log sessionId writerId fails w (framePacket o kind) (.frame w.session.getKey w.stream.owner kind)
  have hplaced := Placed.emit sessionId writerId fails h.placed (framePacket o kind) (.frame w.session.getKey w.stream.owner kind)
  cases hpass : w.isPublisherOwner sessionId with
  | false =>
    simp only [hpass, Bool.false_eq_true, if_false, List.append_nil] at hlog
    refine ⟨hplaced, ?_, ?_, ?_⟩
    all_goals rw [hlog]
    · exact h.held
    · exact h.first
    · exact h.due
  | true =>
    obtain ⟨hown, hheader⟩ := hwritten hpass
    simp only [hpass, if_true] at hlog
    refine ⟨hplaced, ?_, ?_, ?_⟩
    all_goals rw [hlog]
    · intro m hm
      rcases List.mem_append.1 hm with hm | hm
      · exact h.held m hm
      · obtain rfl := List.mem_singleton.1 hm
        exact hown
    · refine h.first.append fun key owner kind' hm => ?_
      cases hm
      exact hheader
    · exact fun kind' => (h.due kind').append nofun nofun

theorem PushKept.objectFrame {due : RenditionKind → Option (Name × List Byte)} (h : PushKept sessionId writerId me ⟨w, due⟩)
    (kind : RenditionKind) (o : LocObject) (hwritten : w.isPublisherOwner sessionId = true → w.stream.owner = some sessionId.id ∧
    ((∃ e ∈ due kind, e.1 = w.session.getKey) ∨ latestConfig kind w.log = none)) : PushKept sessionId writerId me
    ⟨w.emitFrame sessionId writerId fails kind o, due⟩ := by
  refine h.frame sessionId writerId fails kind o fun hpass => ?_
  obtain ⟨hown, hdue⟩ := hwritten hpass
  refine ⟨hown, fun cfg hcfg => ?_⟩
  rcases hdue with ⟨e, he, hkey⟩ | hnone
  · obtain ⟨hlatest, hheader⟩ := h.due kind e he
    rw [hcfg, Option.some.injEq] at hlatest
    rwa [hkey, ← hlatest] at hheader
  · rw [hnone] at hcfg
    cases hcfg

theorem owner_of_passes (hmedia : w.session.hasMedia = true) (hpass : w.isPublisherOwner sessionId = true)
    (howned : w.stream.owner ≠ some []) : w.stream.owner = some sessionId.id := by
  rw [isPublisherOwner_media sessionId hmedia] at hpass
  exact ((isPublisherOwner_iff _ _).1 hpass).resolve_left howned

theorem PushKept.track {due : RenditionKind → Option (Name × List Byte)} (h : PushKept sessionId writerId me ⟨w, due⟩)
    (kind : RenditionKind) (o : LocObject) (hmeets : w.session.hasMedia = true → o.payload ≠ [] → w.isPublisherOwner sessionId =
    true → (⟨w, due⟩ : MarkedPush).MeetsObject kind o) : PushKept sessionId writerId me ⟨w.onTrackObject sessionId writerId fails
    catalogJson kind o, Function.update due kind ((⟨w, due⟩ : MarkedPush).configured sessionId kind o)⟩ := by
  unfold PushWorld.onTrackObject MarkedPush.configured
  by_cases hcfg : o.cfg = []
  · simp only [hcfg, if_true, ne_eq, not_true_eq_false, false_and, if_false, Function.update_eq_self]
    split
    · exact h
    · rename_i hgo
      rw [not_or, Bool.not_eq_false] at hgo
      refine h.objectFrame sessionId writerId fails kind o fun hpass => ?_
      obtain ⟨howned, hheader⟩ := hmeets hgo.1 hgo.2 hpass
      refine ⟨owner_of_passes sessionId hgo.1 hpass howned, ?_⟩
      split at hheader
      · obtain ⟨e, he, hkey, -⟩ := hheader
        exact .inl ⟨e, he, hkey⟩
      · exact .inr (hheader hcfg)
  · have hconfigured := h.configured sessionId writerId kind o.cfg
    simp only [hcfg, if_false, ne_eq, not_false_eq_true, true_and]
    by_cases hgo : w.session.hasMedia = true ∧ o.payload ≠ []
    · have hstop : ¬ ((w.mark (.config kind o.cfg)).session.hasMedia = false ∨ o.payload = []) := by
        rw [not_or, Bool.not_eq_false]
        exact hgo
      rw [if_neg hstop]
      by_cases hsent : w.session.seqSent kind = false
      · have hcond : w.session.hasMedia = true ∧ ¬ o.payload = [] ∧ w.session.seqSent kind = false := ⟨hgo.1, hgo.2, hsent⟩
        have hsent' : (w.mark (.config kind o.cfg)).session.seqSent kind = false := hsent
        rw [if_pos hcond, if_pos hsent']
        have hlatest : latestConfig kind (w.mark (.config kind o.cfg)).log = some o.cfg := by
          simp [PushWorld.mark, latestConfig_append]
        have hown : (w.mark (.config kind o.cfg)).isPublisherOwner sessionId = true →
            (w.mark (.config kind o.cfg)).stream.owner = some sessionId.id := fun hpass =>
          owner_of_passes sessionId hgo.1 hpass (hmeets hgo.1 hgo.2 hpass).1
        have hheader := hconfigured.header sessionId writerId fails catalogJson kind o hlatest hown
        rw [Function.update_idem] at hheader
        obtain ⟨hkey, hmedia, -, howner⟩ :=
          onConfig_spec sessionId writerId fails catalogJson (w.mark (.config kind o.cfg)) kind o
        refine hheader.objectFrame sessionId writerId fails kind o fun hpass => ?_
        cases hpass' : (w.mark (.config kind o.cfg)).isPublisherOwner sessionId with
        | false =>
          have hsame := howner (.inr hpass')
          have hmedia' : (w.mark (.config kind o.cfg)).session.hasMedia = true := hgo.1
          rw [isPublisherOwner_media sessionId (hmedia.trans hmedia'), isPublisherOwner_iff, hsame, ← isPublisherOwner_iff,
            ← isPublisherOwner_media sessionId hmedia'] at hpass
          exact absurd (hpass'.symm.trans hpass) (by decide)
        | true =>
          refine ⟨(howner (.inl (hown hpass'))).trans (hown hpass'), .inl ⟨(w.session.getKey, o.cfg), ?_, hkey.symm⟩⟩
          rw [Function.update_self, if_pos rfl]
          rfl
      · have hcond : ¬ (w.session.hasMedia = true ∧ ¬ o.payload = [] ∧ w.session.seqSent kind = false) := fun hc => hsent hc.2.2
        have hsent' : ¬ (w.mark (.config kind o.cfg)).session.seqSent kind = false := hsent
        rw [if_neg hcond, if_neg hsent']
        refine hconfigured.objectFrame sessionId writerId fails kind o fun hpass => ?_
        obtain ⟨howned, hheader⟩ := hmeets hgo.1 hgo.2 hpass
        refine ⟨owner_of_passes sessionId hgo.1 hpass howned, .inl ?_⟩
        rw [if_pos (by simpa using hsent)] at hheader
        obtain ⟨e, he, hkey, hsame⟩ := hheader
        refine ⟨e, ?_, hkey⟩
        rw [Function.update_self]
        exact Option.mem_filter_iff.2 ⟨he, by simpa using (hsame.resolve_left hcfg).symm⟩
    · have hcond : ¬ (w.session.hasMedia = true ∧ ¬ o.payload = [] ∧ w.session.seqSent kind = false) := fun hc => hgo ⟨hc.1, hc.2.1⟩
      have hstop : (w.mark (.config kind o.cfg)).session.hasMedia = false ∨ o.payload = [] := by
        by_contra hno
        rw [not_or, Bool.not_eq_false] at hno
        exact hgo hno
      rw [if_neg hcond, if_pos hstop]
      exact hconfigured

theorem PushKept.object (h : PushKept sessionId writerId me d) {trackAlias : BitVec 64} {o : LocObject} {now : Int}
    (hmeets : d.Meets sessionId me (.heard (.object trackAlias o) now fails)) (w' : PushWorld) : PushKept sessionId writerId me
    ⟨d.world.onLocObject sessionId writerId fails catalogJson trackAlias o, d.after sessionId w' (.heard (.object trackAlias o)
    now fails)⟩ := by
  unfold PushWorld.onLocObject
  cases hkind : PushWorld.kindOfAlias trackAlias with
  | none =>
    have hsame : d.after sessionId w' (.heard (.object trackAlias o) now fails) = d.due := by
      funext kind
      simp [MarkedPush.after, hkind]
    rw [hsame]
    exact h
  | some kind =>
    have hupdate : d.after sessionId w' (.heard (.object trackAlias o) now fails) =
        Function.update d.due kind (d.configured sessionId kind o) := by
      funext kind'
      by_cases hk : kind' = kind
      · subst hk
        simp [MarkedPush.after, hkind]
      · have hne : ¬ kind = kind' := fun heq => hk heq.symm
        simp [MarkedPush.after, hkind, Function.update_of_ne hk, hne]
    rw [hupdate]
    exact h.track sessionId writerId fails catalogJson kind o (hmeets kind hkind)

theorem PushKept.quiet (h : PushKept sessionId writerId me d) {w' : PushWorld} (hplaced : Placed sessionId writerId me w')
    (hlog : w'.log = d.world.log) :
    PushKept sessionId writerId me ⟨w', fun kind => (d.due kind).filter (MarkedPush.unclaimed sessionId d.world w')⟩ := by
  refine ⟨hplaced, ?_, ?_, fun kind => ?_⟩
  all_goals rw [hlog]
  · exact h.held
  · exact h.first
  · exact (h.due kind).filter _

theorem PushKept.claim (h : PushKept sessionId writerId me d) {s : MoqPushSession}
    (hplaced : Placed sessionId writerId me { d.world with session := s }) (hmedia : s.hasMedia = true) (now : Int) :
    PushKept sessionId writerId me ⟨({ d.world with session := s } : PushWorld).claim sessionId now, fun kind =>
      (d.due kind).filter
        (MarkedPush.unclaimed sessionId d.world (({ d.world with session := s } : PushWorld).claim sessionId now))⟩ := by
  have hclaimed := hplaced.claim hmedia now
  obtain ⟨-, hspec⟩ := claimPublisher_spec ({ d.world with session := s } : PushWorld).stream sessionId.id now
  have hstreams : (({ d.world with session := s } : PushWorld).claim sessionId now).streams =
      Function.update d.world.streams s.getKey
        (({ d.world with session := s } : PushWorld).stream.claimPublisher sessionId.id now).1 := by
    unfold PushWorld.claim
    dsimp only
    split_ifs <;> rfl
  by_cases hlog : (({ d.world with session := s } : PushWorld).claim sessionId now).log = d.world.log
  · exact h.quiet sessionId writerId hclaimed hlog
  · have hnew : (({ d.world with session := s } : PushWorld).stream.claimPublisher sessionId.id now).2 ≠ .rejected ∧
        (d.world.streams s.getKey).owner ≠ some sessionId.id ∧
        (({ d.world with session := s } : PushWorld).claim sessionId now).log = d.world.log ++ [.claimed s.getKey] := by
      unfold PushWorld.claim at hlog ⊢
      dsimp only at hlog ⊢
      split_ifs at hlog ⊢ with hrejected hown
      · exact absurd rfl hlog
      · exact absurd rfl hlog
      · exact ⟨hrejected, hown, rfl⟩
    obtain ⟨haccepted, hbefore, hlog'⟩ := hnew
    have hafter := (hspec.resolve_left fun hr => haccepted hr.1).2
    refine ⟨hclaimed, ?_, ?_, fun kind => ?_⟩
    all_goals rw [hlog']
    · intro m hm
      rcases List.mem_append.1 hm with hm | hm
      · exact h.held m hm
      · obtain rfl := List.mem_singleton.1 hm
        trivial
    · exact h.first.append nofun
    · refine ((h.due kind).filter _).append (fun e he hm => ?_) nofun
      have hkey : e.1 = s.getKey := by simpa using hm.symm
      have hkept := (Option.mem_filter_iff.1 he).2
      unfold MarkedPush.unclaimed at hkept
      rw [hstreams, hkey, Function.update_self] at hkept
      simp [hbefore, hafter] at hkept

theorem PushKept.control (h : PushKept sessionId writerId me d) {m : ControlMessage} {now : Int} {w' : PushWorld}
    (hmeets : d.Meets sessionId me (.heard (.control m) now fails))
    (hstep : d.world.onControl sessionId writerId me m now = some w') :
    PushKept sessionId writerId me ⟨w', fun kind => (d.due kind).filter (MarkedPush.unclaimed sessionId d.world w')⟩ := by
  have hmeets : (d.world.renamed m).getKey ≠ d.world.session.getKey → ¬ d.world.At sessionId me d.world.session.getKey := hmeets
  unfold PushWorld.onControl at hstep
  unfold PushWorld.renamed at hmeets
  have hnamed : ∀ app stream : List Byte, ((d.world.session.named app stream).getKey ≠ d.world.session.getKey →
      ¬ d.world.At sessionId me d.world.session.getKey) →
      Placed sessionId writerId me { d.world with session := d.world.session.named app stream } := fun app stream hkey =>
    h.placed.rename hkey (named_hasMedia _ app stream) rfl rfl
  by_cases hpublish : m.type = kMoqtPublish
  · rw [if_pos hpublish] at hstep hmeets
    cases hparse : parsePublish m.body ⟨0, []⟩ with
    | ok b c =>
      simp only [hparse] at hstep hmeets
      split at hstep
      · rename_i hmedia
        obtain rfl := Option.some.inj hstep
        exact h.claim sessionId writerId (hnamed _ _ hmeets) hmedia now
      · obtain rfl := Option.some.inj hstep
        exact h.quiet sessionId writerId (hnamed _ _ hmeets) rfl
    | short c =>
      simp only [hparse] at hstep
      obtain rfl := Option.some.inj hstep
      exact h.quiet sessionId writerId h.placed rfl
    | stop e c => simp [hparse] at hstep
  · rw [if_neg hpublish] at hstep hmeets
    by_cases hsubscribe : m.type = kMoqtSubscribe
    · rw [if_pos hsubscribe] at hstep hmeets
      cases hparse : parseSubscribe m.body ⟨0, []⟩ with
      | ok b c =>
        simp only [hparse] at hstep hmeets
        have hplaced := hnamed _ _ hmeets
        split at hstep
        · obtain rfl := Option.some.inj hstep
          have hsubscriber : Placed sessionId writerId me { d.world with
              session := { d.world.session.named b.app b.stream with subscriber := true } } :=
            ⟨hplaced.away, hplaced.publisher, hplaced.player, hplaced.distinct⟩
          refine h.quiet sessionId writerId hsubscriber.attachPlayer ?_
          unfold PushWorld.attachPlayer
          split <;> rfl
        · obtain rfl := Option.some.inj hstep
          exact h.quiet sessionId writerId hplaced rfl
      | short c =>
        simp only [hparse] at hstep
        obtain rfl := Option.some.inj hstep
        exact h.quiet sessionId writerId h.placed rfl
      | stop e c => simp [hparse] at hstep
    · rw [if_neg hsubscribe] at hstep
      obtain rfl := Option.some.inj hstep
      exact h.quiet sessionId writerId h.placed rfl

theorem pushKept_step (h : PushKept sessionId writerId me d) {i : PushInput} (hothers : i.ByOthers sessionId me)
    (hmeets : d.Meets sessionId me i) (hstep : d.step sessionId writerId me catalogJson i = some d') :
    PushKept sessionId writerId me d' := by
  obtain ⟨w', hw', rfl⟩ := Option.map_eq_some_iff.1 hstep
  cases i with
  | heard e now fails =>
    cases e with
    | control m => exact h.control sessionId writerId fails hmeets hw'
    | subgroup g =>
      obtain rfl := Option.some.inj hw'
      exact h.quiet sessionId writerId h.placed rfl
    | object trackAlias o =>
      obtain rfl := Option.some.inj hw'
      exact h.object sessionId writerId fails catalogJson hmeets _
  | kicked =>
    obtain rfl := Option.some.inj hw'
    refine h.quiet sessionId writerId h.placed.detachPlayer ?_
    unfold PushWorld.detachPlayer
    split <;> rfl
  | other key op =>
    obtain rfl := Option.some.inj hw'
    refine h.quiet sessionId writerId ?_ rfl
    refine h.placed.call key op (fun now hop => ?_) (fun fails hop => ?_) rfl rfl (fun hp hm => ⟨hp, hm⟩) fun _ ha => ha
    · rw [hop] at hothers
      exact hothers rfl
    · rw [hop] at hothers
      exact hothers rfl

theorem pushRun_marked : ∀ (is : List PushInput) (d : MarkedPush) (w' : PushWorld),
    d.world.run sessionId writerId me catalogJson is = some w' →
      ∃ due, is.foldlM (MarkedPush.step sessionId writerId me catalogJson) d = some ⟨w', due⟩
  | [], d, w', hrun => ⟨d.due, by rw [← Option.some.inj hrun]; rfl⟩
  | i :: is, d, w', hrun => by
    obtain ⟨w₁, hw₁, hrun⟩ := (foldlM_cons_some _).1 hrun
    obtain ⟨due, hdue⟩ := pushRun_marked is ⟨w₁, d.after sessionId w₁ i⟩ w' hrun
    refine ⟨due, (foldlM_cons_some _).2 ⟨⟨w₁, d.after sessionId w₁ i⟩, ?_, hdue⟩⟩
    unfold MarkedPush.step
    rw [hw₁]
    rfl

end

/-- **The life of a session**: closed, it has no key; what it wrote it wrote under its claim, and each frame behind the header of
its latest configuration. -/
theorem push_session_life (sessionId : SessionId) (writerId : Nat → Name) (me : Nat) (catalogJson : List (RenditionKind × List
    Byte) → List Byte) (is : List PushInput) (hothers : ∀ i ∈ is, i.ByOthers sessionId me) (hmeets : StepsOkM (MarkedPush.step
    sessionId writerId me catalogJson) (MarkedPush.Meets sessionId me) {} is) (w : PushWorld) (hrun : PushWorld.run sessionId
    writerId me catalogJson {} is = some w) : (w.onSessionClose sessionId writerId me).Gone sessionId me ∧
    (∀ m ∈ w.log, m.Held sessionId) ∧ HeadersFirst w.log := by
  obtain ⟨due, hdue⟩ := pushRun_marked sessionId writerId catalogJson is {} w hrun
  have hinit : PushKept sessionId writerId me {} := by
    refine ⟨⟨fun key _ hat => ?_, nofun, nofun, fun key => List.Pairwise.nil⟩, nofun, fun pre _ _ _ post heq => ?_, fun _ => nofun⟩
    · rcases hat with hown | hmem
      · cases hown
      · cases hmem
    · simp at heq
  have hby : StepsOkM (MarkedPush.step sessionId writerId me catalogJson) (fun _ i => i.ByOthers sessionId me) {} is :=
    stepsOkM_of_forall _ _ is _ fun i hi _ => hothers i hi
  have hok := stepsOkM_and _ hmeets hby
  have hkept := foldlM_inv _ _ (PushKept sessionId writerId me)
    (fun _ _ _ h hm hs => pushKept_step sessionId writerId catalogJson h hm.2 hm.1 hs) is _ _ hinit hok hdue
  exact ⟨hkept.placed.closed, hkept.held, hkept.first⟩

/-! ## Two names -/

def pushId : SessionId := ⟨"s".toList, by decide⟩

def publishSample (app stream : Byte) : PushInput :=
  .heard (.control ⟨kMoqtPublish, [0, 2, 1, app, 1, stream, 1, 0x76, 1, 0]⟩) 0 fun _ _ => false

def objectSample (cfg : List Byte) : PushInput :=
  .heard (.object kAliasVideo ⟨0, 0, true, cfg, [0x65]⟩) 0 fun _ _ => false

/-- **A claim that is left behind**: the session is closed under its second name, and publishes its first one still. -/
theorem left_behind : ¬ ∀ w, PushWorld.run pushId (fun _ => []) 1 (fun _ => []) {}
      [publishSample 0x61 0x78, publishSample 0x62 0x79] = some w → (w.onSessionClose pushId (fun _ => []) 1).Gone pushId 1 := by
  intro hall
  have hrun : (PushWorld.run pushId (fun _ => []) 1 (fun _ => []) {} [publishSample 0x61 0x78, publishSample 0x62 0x79]).map
      (fun w => ((w.onSessionClose pushId (fun _ => []) 1).streams "a/x".toList).owner) = some (some pushId.id) := by
    decide +kernel
  obtain ⟨w, hw, hown⟩ := Option.map_eq_some_iff.1 hrun
  exact hall w hw "a/x".toList (.inl hown)

theorem push_session_life_sample : ∃ w, PushWorld.run pushId (fun _ => []) 1 (fun _ => []) {}
      [publishSample 0x61 0x78, publishSample 0x61 0x78, objectSample [1], objectSample []] = some w ∧ w.log.length = 5 ∧
    (w.onSessionClose pushId (fun _ => []) 1).Gone pushId 1 ∧ (∀ m ∈ w.log, m.Held pushId) ∧ HeadersFirst w.log := by
  have hrun : (PushWorld.run pushId (fun _ => []) 1 (fun _ => []) {}
      [publishSample 0x61 0x78, publishSample 0x61 0x78, objectSample [1], objectSample []]).map (·.log.length) = some 5 := by
    decide +kernel
  obtain ⟨w, hw, hlen⟩ := Option.map_eq_some_iff.1 hrun
  refine ⟨w, hw, hlen, push_session_life pushId (fun _ => []) 1 (fun _ => []) _ (fun i hi => ?_) (by decide +kernel) w hw⟩
  simp only [publishSample, objectSample, List.mem_cons, List.not_mem_nil, or_false] at hi
  rcases hi with rfl | rfl | rfl | rfl <;> trivial

end MoqLiveCast
