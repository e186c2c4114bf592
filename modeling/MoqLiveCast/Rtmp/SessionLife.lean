import MoqLiveCast.Rtmp.Session
/-!
# SessionLife — what an RTMP session claims, writes and leaves

Close gives up what the last request says, the key of a PUBLISH or the player of a PLAY.
-/
namespace MoqLiveCast

open StreamKey

/-! ## What is asked -/

section

variable (sessionId : SessionId) (writerId : Nat → Name) (endpoint : Name)

def RtmpWorld.Plays (w : RtmpWorld) (key : Name) (p : Nat) : Prop := p ∈ (w.streams key).players ∧ writerId p = endpoint

/-- **A life as it should be**: a packet is written under a key that was claimed before, no two writers are players, and when the
session is closed it is no key's publisher and has no player. -/
structure RtmpWorld.LifeOk (w : RtmpWorld) : Prop where
  written : ∀ pre key post, w.log = pre ++ .written key :: post → .claimed key ∈ pre
  one : ∀ key p key' p', w.Plays writerId endpoint key p → w.Plays writerId endpoint key' p' → key = key' ∧ p = p'
  released : w.session.closed = true → ∀ key, (w.streams key).owner ≠ some sessionId.id
  removed : w.session.closed = true → ∀ key p, ¬w.Plays writerId endpoint key p

/-- Nobody else has the session's id or its address; the writers it makes have the address. -/
def RtmpInputEvent.ByOthers : RtmpInputEvent → Prop
  | .command _ _ writer _ => writerId writer = endpoint
  | .other _ (.claim x _) => x ≠ sessionId.id
  | .other _ (.addPlayer p _) => writerId p ≠ endpoint
  | _ => True

structure RtmpWorld.Fresh (w : RtmpWorld) : Prop where
  session : w.session = {}
  log : w.log = []
  owner : ∀ key, (w.streams key).owner ≠ some sessionId.id
  players : ∀ key p, ¬w.Plays writerId endpoint key p
  distinct : ∀ key, Distinct writerId (w.streams key).players

/-- The request that a command makes, if it is a PUBLISH or PLAY that is read to its end. -/
def RtmpWorld.requested (w : RtmpWorld) (items : List AmfItem) : Option RtmpRequest :=
  match items with
  | [] => none
  | item :: _ =>
    if item.amfType ≠ .string ∨ items.length < 3 then none
    else if item.descStr = amfText "publish" then
      if w.session.req.app = [] ∨ streamNameOf items = [] then none else some (w.session.req.named true (streamNameOf items))
    else if item.descStr = amfText "play" then some (w.session.req.named false (streamNameOf items))
    else none

/-- **The condition**: a PUBLISH or PLAY is the first, or asks again for what was asked for before. -/
def RtmpWorld.AsksAgain (w : RtmpWorld) : RtmpInputEvent → Prop
  | .command items _ _ _ => w.session.closed = false → w.session.req.isReady = true →
    ∀ r ∈ w.requested items, r.publishFlag = w.session.req.publishFlag ∧ r.key = w.session.req.key
  | _ => True

instance RtmpWorld.AsksAgain.decidable (w : RtmpWorld) : ∀ i : RtmpInputEvent, Decidable (w.AsksAgain i)
  | .command items _ _ _ => inferInstanceAs (Decidable (_ = false → _ = true → ∀ r ∈ w.requested items, _ ∧ _))
  | .media _ _ _ | .control _ | .amf3 | .written _ _ _ | .close | .other _ _ => .isTrue trivial

end

/-! ## Where the session is -/

/-- **The session is where its request says**, and nowhere else. -/
structure RtmpSettled (sessionId : SessionId) (writerId : Nat → Name) (endpoint : Name) (w : RtmpWorld) : Prop where
  distinct : ∀ key, Distinct writerId (w.streams key).players
  owner : ∀ key, (w.streams key).owner = some sessionId.id → w.session.closed = false ∧ key = w.session.req.key ∧
    w.session.req.publishFlag = true ∧ w.session.claimed = true
  player : ∀ key p, w.Plays writerId endpoint key p → w.session.closed = false ∧ key = w.session.req.key ∧
    w.session.req.isReady = true ∧ w.session.req.publishFlag = false ∧ w.session.playWriter = some p
  claimed : w.session.claimed = true → w.session.req.isReady = true ∧ w.session.req.publishFlag = true ∧
    .claimed w.session.req.key ∈ w.log
  key : w.session.req.isReady = true → w.session.req.key ≠ []
  written : ∀ pre key post, w.log = pre ++ .written key :: post → .claimed key ∈ pre

section

variable {sessionId : SessionId} {writerId : Nat → Name} {endpoint : Name} {w w' : RtmpWorld}

theorem RtmpSettled.lifeOk (h : RtmpSettled sessionId writerId endpoint w) : w.LifeOk sessionId writerId endpoint where
  written := h.written
  one key p key' p' hp hp' := by
    obtain ⟨-, hkey, -, -, hwriter⟩ := h.player key p hp
    obtain ⟨-, hkey', -, -, hwriter'⟩ := h.player key' p' hp'
    exact ⟨hkey.trans hkey'.symm, Option.some.inj (hwriter.symm.trans hwriter')⟩
  released hclosed key hown := by
    have hopen := (h.owner key hown).1
    rw [hclosed] at hopen
    cases hopen
  removed hclosed key p hp := by
    have hopen := (h.player key p hp).1
    rw [hclosed] at hopen
    cases hopen

/-- What does not touch the streams, the log and what the session goes by. -/
structure SameLife (w w' : RtmpWorld) : Prop where
  streams : w'.streams = w.streams
  log : w'.log = w.log
  closed : w'.session.closed = w.session.closed
  claimed : w'.session.claimed = w.session.claimed
  playWriter : w'.session.playWriter = w.session.playWriter
  publishFlag : w'.session.req.publishFlag = w.session.req.publishFlag
  isReady : w'.session.req.isReady = w.session.req.isReady
  key : w'.session.req.key = w.session.req.key

theorem SameLife.refl (w : RtmpWorld) : SameLife w w := ⟨rfl, rfl, rfl, rfl, rfl, rfl, rfl, rfl⟩

theorem SameLife.trans {w'' : RtmpWorld} (h : SameLife w w') (h' : SameLife w' w'') : SameLife w w'' where
  streams := h'.streams.trans h.streams
  log := h'.log.trans h.log
  closed := h'.closed.trans h.closed
  claimed := h'.claimed.trans h.claimed
  playWriter := h'.playWriter.trans h.playWriter
  publishFlag := h'.publishFlag.trans h.publishFlag
  isReady := h'.isReady.trans h.isReady
  key := h'.key.trans h.key

theorem RtmpSettled.same (h : RtmpSettled sessionId writerId endpoint w) (hsame : SameLife w w') : RtmpSettled sessionId writerId endpoint w' where
  distinct := by
    rw [hsame.streams]
    exact h.distinct
  owner := by
    rw [hsame.streams, hsame.closed, hsame.key, hsame.publishFlag, hsame.claimed]
    exact h.owner
  player := by
    unfold RtmpWorld.Plays
    rw [hsame.streams, hsame.closed, hsame.key, hsame.isReady, hsame.publishFlag, hsame.playWriter]
    exact h.player
  claimed := by
    rw [hsame.claimed, hsame.isReady, hsame.publishFlag, hsame.key, hsame.log]
    exact h.claimed
  key := by
    rw [hsame.isReady, hsame.key]
    exact h.key
  written := by
    rw [hsame.log]
    exact h.written

theorem send_fields (s : RtmpSession) (r : RtmpReply) : (s.send r).closed = s.closed ∧ (s.send r).claimed = s.claimed ∧
    (s.send r).playWriter = s.playWriter ∧ (s.send r).req = s.req := by
  unfold RtmpSession.send
  split
  · exact ⟨rfl, rfl, rfl, rfl⟩
  · cases r <;> exact ⟨rfl, rfl, rfl, rfl⟩

theorem sendAll_fields : ∀ (rs : List RtmpReply) (s : RtmpSession), (s.sendAll rs).closed = s.closed ∧
    (s.sendAll rs).claimed = s.claimed ∧ (s.sendAll rs).playWriter = s.playWriter ∧ (s.sendAll rs).req = s.req
  | [], _ => ⟨rfl, rfl, rfl, rfl⟩
  | r :: rs, s => by
    obtain ⟨hclosed, hclaimed, hwriter, hreq⟩ := send_fields s r
    obtain ⟨hclosed', hclaimed', hwriter', hreq'⟩ := sendAll_fields rs (s.send r)
    exact ⟨hclosed'.trans hclosed, hclaimed'.trans hclaimed, hwriter'.trans hwriter, hreq'.trans hreq⟩

theorem sameLife_reply (w : RtmpWorld) (rs : List RtmpReply) : SameLife w (w.reply rs) := by
  obtain ⟨hclosed, hclaimed, hwriter, hreq⟩ := sendAll_fields rs w.session
  refine ⟨rfl, rfl, hclosed, hclaimed, hwriter, ?_, ?_, ?_⟩
  · exact congrArg RtmpRequest.publishFlag hreq
  · exact congrArg RtmpRequest.isReady hreq
  · exact congrArg RtmpRequest.key hreq

/-! ## Steps -/

theorem RtmpSettled.update (h : RtmpSettled sessionId writerId endpoint w) (key : Name) (k : StreamKey)
    (hdistinct : Distinct writerId k.players) (howner : k.owner = some sessionId.id → (w.streams key).owner = some sessionId.id)
    (hplayers : ∀ p ∈ k.players, writerId p = endpoint → p ∈ (w.streams key).players) :
    RtmpSettled sessionId writerId endpoint { w with streams := Function.update w.streams key k } := by
  refine ⟨fun key' => ?_, fun key' hown => ?_, fun key' p hp => ?_, h.claimed, h.key, h.written⟩
  · by_cases hk : key' = key
    · subst hk
      simpa using hdistinct
    · simpa [hk] using h.distinct key'
  · by_cases hk : key' = key
    · subst hk
      exact h.owner key' (howner (by simpa using hown))
    · exact h.owner key' (by simpa [hk] using hown)
  · unfold RtmpWorld.Plays at hp
    by_cases hk : key' = key
    · subst hk
      obtain ⟨hmem, hid⟩ := hp
      exact h.player key' p ⟨hplayers p (by simpa using hmem) hid, hid⟩
    · exact h.player key' p (by simpa [RtmpWorld.Plays, hk] using hp)

theorem RtmpSettled.call (h : RtmpSettled sessionId writerId endpoint w) (key : Name) (op : StreamOp)
    (hclaim : ∀ now, op ≠ .claim sessionId.id now) (hadd : ∀ p fails, op = .addPlayer p fails → writerId p ≠ endpoint) :
    RtmpSettled sessionId writerId endpoint { w with streams := Function.update w.streams key ((w.streams key).step writerId op) } := by
  refine h.update key _ (distinct_step writerId (h.distinct key) op) (fun hown => ?_) fun p hp hid => ?_
  · exact (owner_step writerId _ op sessionId.ne hown).resolve_right fun ⟨now, hop⟩ => hclaim now hop
  · rcases players_step writerId (w.streams key) op with hsub | ⟨x, fails, hop, hsub⟩
    · exact hsub.subset hp
    · rcases mem_putWriter writerId (hsub.subset hp) with hmem | rfl
      · exact hmem
      · exact absurd hid (hadd p fails hop)

theorem RtmpSettled.named (h : RtmpSettled sessionId writerId endpoint w) {r : RtmpRequest} (hready : r.isReady = true) (hkey : r.key ≠ [])
    (hagain : w.session.req.isReady = true → r.publishFlag = w.session.req.publishFlag ∧ r.key = w.session.req.key) :
    RtmpSettled sessionId writerId endpoint { w with session := { w.session with req := r } } := by
  refine ⟨h.distinct, fun key hown => ?_, fun key p hp => ?_, fun hclaimed => ?_, fun _ => hkey, h.written⟩
  · obtain ⟨hopen, heq, hpublish, hclaimed⟩ := h.owner key hown
    obtain ⟨hflag, hsame⟩ := hagain (h.claimed hclaimed).1
    exact ⟨hopen, heq.trans hsame.symm, hflag.trans hpublish, hclaimed⟩
  · obtain ⟨hopen, heq, hwas, hplay, hwriter⟩ := h.player key p hp
    obtain ⟨hflag, hsame⟩ := hagain hwas
    exact ⟨hopen, heq.trans hsame.symm, hready, hflag.trans hplay, hwriter⟩
  · obtain ⟨hwas, hpublish, hlog⟩ := h.claimed hclaimed
    obtain ⟨hflag, hsame⟩ := hagain hwas
    refine ⟨hready, hflag.trans hpublish, ?_⟩
    dsimp only
    rw [hsame]
    exact hlog

theorem written_mark {log : List RtmpMark} (h : ∀ pre key post, log = pre ++ .written key :: post → .claimed key ∈ pre) (m : RtmpMark)
    (hm : ∀ key, m = .written key → .claimed key ∈ log) :
    ∀ pre key post, log ++ [m] = pre ++ .written key :: post → .claimed key ∈ pre := by
  intro pre key post heq
  rcases List.append_eq_append_iff.1 heq with ⟨mid, hpre, hpost⟩ | ⟨mid, hlog, hpost⟩
  · cases mid with
    | nil =>
      rw [List.append_nil] at hpre
      rw [hpre]
      exact hm key (List.cons.inj hpost).1
    | cons x mid =>
      have hnil := congrArg List.length hpost
      simp at hnil
  · cases mid with
    | nil =>
      rw [List.append_nil] at hlog
      rw [← hlog]
      exact hm key (List.cons.inj hpost).1.symm
    | cons x mid =>
      obtain ⟨rfl, -⟩ := List.cons.inj hpost
      exact h pre key mid hlog

theorem RtmpSettled.publishReady (h : RtmpSettled sessionId writerId endpoint w) (hopen : w.session.closed = false)
    (hready : w.session.req.isReady = true) (hpublish : w.session.req.publishFlag = true) (now : Int) :
    RtmpSettled sessionId writerId endpoint (w.onPublishReady sessionId now).1 := by
  obtain ⟨hplayers, hclaim⟩ := claimPublisher_spec w.stream sessionId.id now
  unfold RtmpWorld.onPublishReady
  split
  · exact h
  rename_i hunclaimed
  split
  · exact h
  dsimp only
  have hdistinct : Distinct writerId (w.stream.claimPublisher sessionId.id now).1.players := by
    rw [hplayers]
    exact h.distinct _
  rcases hclaim with ⟨hrejected, hsame, -⟩ | ⟨haccepted, -⟩
  · rw [if_pos hrejected]
    refine h.update _ _ hdistinct (fun hown => hsame.symm.trans hown) fun p hp _ => ?_
    rwa [hplayers] at hp
  · rw [if_neg haccepted]
    refine ⟨fun key => ?_, fun key hown => ?_, fun key p hp => ?_, fun _ => ⟨hready, hpublish, ?_⟩, h.key, ?_⟩
    · by_cases hk : key = w.session.req.key
      · subst hk
        simpa [RtmpWorld.mark, RtmpWorld.putStream] using hdistinct
      · simpa [RtmpWorld.mark, RtmpWorld.putStream, hk] using h.distinct key
    · by_cases hk : key = w.session.req.key
      · exact ⟨hopen, hk, hpublish, rfl⟩
      · have hbefore := (h.owner key (by simpa [RtmpWorld.mark, RtmpWorld.putStream, hk] using hown)).2.1
        exact absurd hbefore hk
    · have hbefore : w.Plays writerId endpoint key p := by
        by_cases hk : key = w.session.req.key
        · subst hk
          have hmem : p ∈ (w.stream.claimPublisher sessionId.id now).1.players := by
            simpa [RtmpWorld.mark, RtmpWorld.putStream] using hp.1
          rw [hplayers] at hmem
          exact ⟨hmem, hp.2⟩
        · exact ⟨by simpa [RtmpWorld.mark, RtmpWorld.putStream, hk] using hp.1, hp.2⟩
      exact h.player key p hbefore
    · exact List.mem_append_right _ (List.mem_singleton.2 rfl)
    · exact written_mark h.written _ fun key hm => by cases hm

theorem RtmpSettled.addPlayer (h : RtmpSettled sessionId writerId endpoint w) (hopen : w.session.closed = false)
    (hready : w.session.req.isReady = true) (hplay : w.session.req.publishFlag = false) {writer : Nat}
    (hid : writerId writer = endpoint) (fails : Nat → MediaPacket → Bool) :
    RtmpSettled sessionId writerId endpoint { w.putStream (w.stream.addPlayer writerId fails writer) with
      session := { w.session with playWriter := some writer } } := by
  have hdistinct : Distinct writerId (w.stream.addPlayer writerId fails writer).players :=
    distinct_step writerId (h.distinct w.session.req.key) (.addPlayer writer fails)
  refine ⟨fun key => ?_, fun key hown => ?_, fun key p hp => ?_, h.claimed, h.key, h.written⟩
  · by_cases hk : key = w.session.req.key
    · subst hk
      simpa [RtmpWorld.putStream] using hdistinct
    · simpa [RtmpWorld.putStream, hk] using h.distinct key
  · by_cases hk : key = w.session.req.key
    · subst hk
      have hown' : (w.stream.addPlayer writerId fails writer).owner = some sessionId.id := by
        simpa [RtmpWorld.putStream] using hown
      have hbefore : w.stream.owner = some sessionId.id :=
        (owner_step writerId w.stream (.addPlayer writer fails) sessionId.ne hown').resolve_right nofun
      exact h.owner _ hbefore
    · exact h.owner key (by simpa [RtmpWorld.putStream, hk] using hown)
  · by_cases hk : key = w.session.req.key
    · subst hk
      have hmem : p ∈ (w.stream.addPlayer writerId fails writer).players := by simpa [RtmpWorld.putStream] using hp.1
      have hself : p = writer := by
        rcases List.mem_append.1 ((addPlayer_players writerId fails w.stream writer).subset hmem) with hold | hnew
        · have hne : writerId p ≠ writerId writer := by simpa using (List.mem_filter.1 hold).2
          exact absurd (hp.2.trans hid.symm) hne
        · exact List.mem_singleton.1 hnew
      exact ⟨hopen, rfl, hready, hplay, by rw [hself]⟩
    · obtain ⟨-, heq, -⟩ := h.player key p ⟨by simpa [RtmpWorld.putStream, hk] using hp.1, hp.2⟩
      exact absurd heq hk

theorem RtmpSettled.close (h : RtmpSettled sessionId writerId endpoint w) : RtmpSettled sessionId writerId endpoint (w.close sessionId writerId) := by
  unfold RtmpWorld.close
  split
  · exact h
  rename_i hopen
  dsimp only
  cases hready : w.session.req.isReady && !w.session.req.publishFlag with
  | true =>
    obtain ⟨hr, hp⟩ : w.session.req.isReady = true ∧ w.session.req.publishFlag = false := by simpa using hready
    have howner : ∀ key, (w.streams key).owner ≠ some sessionId.id := fun key hown => by
      have hpublish := (h.owner key hown).2.2.1
      rw [hp] at hpublish
      cases hpublish
    rw [if_pos rfl]
    cases hwriter : w.session.playWriter with
    | none =>
      refine ⟨h.distinct, fun key hown => absurd hown (howner key), fun key p hplays => ?_, h.claimed, h.key, h.written⟩
      have hsome := (h.player key p hplays).2.2.2.2
      rw [hwriter] at hsome
      cases hsome
    | some p =>
      have hfewer := removePlayer_fewer writerId w.stream p
      refine ⟨fun key => ?_, fun key hown => ?_, fun key p' hplays => ?_, h.claimed, h.key, h.written⟩
      · by_cases hk : key = w.session.req.key
        · subst hk
          simpa [RtmpWorld.putStream, RtmpWorld.stream] using (h.distinct w.session.req.key).sublist writerId hfewer.players
        · simpa [RtmpWorld.putStream, hk] using h.distinct key
      · by_cases hk : key = w.session.req.key
        · subst hk
          have hown' : (w.stream.removePlayer writerId p).owner = some sessionId.id := by
            simpa [RtmpWorld.putStream, RtmpWorld.stream] using hown
          exact absurd ((owner_step writerId w.stream (.removePlayer p) sessionId.ne hown').resolve_right nofun) (howner _)
        · exact absurd (by simpa [RtmpWorld.putStream, hk] using hown) (howner key)
      · by_cases hk : key = w.session.req.key
        · subst hk
          have hmem : p' ∈ (w.stream.removePlayer writerId p).players := by
            simpa [RtmpWorld.putStream, RtmpWorld.stream] using hplays.1
          have hsame := (h.player _ p' ⟨hfewer.players.subset hmem, hplays.2⟩).2.2.2.2
          rw [hwriter] at hsame
          cases hsame
          exact absurd hmem (removed_player writerId (h.distinct _))
        · have hat := (h.player key p' ⟨by simpa [RtmpWorld.putStream, hk] using hplays.1, hplays.2⟩).2.1
          exact absurd hat hk
  | false =>
    rw [if_neg (by simp)]
    have hplayer : ∀ key p, ¬w.Plays writerId endpoint key p := fun key p hplays => by
      obtain ⟨-, -, hr, hp, -⟩ := h.player key p hplays
      rw [hr, hp] at hready
      cases hready
    split
    · refine ⟨fun key => ?_, fun key hown => ?_, fun key p hplays => ?_, (fun hclaimed => by cases hclaimed), h.key, h.written⟩
      · by_cases hk : key = w.session.req.key
        · subst hk
          simpa [RtmpWorld.putStream, RtmpWorld.stream] using
            (h.distinct w.session.req.key).sublist writerId (releasePublisher_players w.stream sessionId.id)
        · simpa [RtmpWorld.putStream, hk] using h.distinct key
      · by_cases hk : key = w.session.req.key
        · subst hk
          exact absurd (by simpa [RtmpWorld.putStream, RtmpWorld.stream] using hown) (released_owner w.stream sessionId.ne)
        · have hat := (h.owner key (by simpa [RtmpWorld.putStream, hk] using hown)).2.1
          exact absurd hat hk
      · by_cases hk : key = w.session.req.key
        · subst hk
          have hmem : p ∈ (w.stream.releasePublisher sessionId.id).1.players := by
            simpa [RtmpWorld.putStream, RtmpWorld.stream] using hplays.1
          exact absurd ⟨(releasePublisher_players w.stream sessionId.id).subset hmem, hplays.2⟩ (hplayer _ p)
        · exact absurd ⟨by simpa [RtmpWorld.putStream, hk] using hplays.1, hplays.2⟩ (hplayer key p)
    · rename_i hidle
      refine ⟨h.distinct, fun key hown => ?_, fun key p hplays => absurd hplays (hplayer key p), h.claimed, h.key, h.written⟩
      obtain ⟨-, -, hpublish, hclaimed⟩ := h.owner key hown
      have hkey := h.key (h.claimed hclaimed).1
      exact absurd (by simp [hpublish, hclaimed, hkey]) hidle

def RtmpWorld.asks (w : RtmpWorld) (r : RtmpRequest) : RtmpWorld := { w with session := { w.session with req := r } }

theorem handleRtmpConnectCommand_same (w : RtmpWorld) (items : List AmfItem) : SameLife w (w.handleRtmpConnectCommand items).1 := by
  unfold RtmpWorld.handleRtmpConnectCommand
  split
  · exact .refl w
  · split
    · exact .refl w
    · refine .trans ?_ (sameLife_reply _ _)
      exact ⟨rfl, rfl, rfl, rfl, rfl, rfl, rfl, rfl⟩

theorem handleRtmpCreatestreamCommand_same (w : RtmpWorld) (items : List AmfItem) :
    SameLife w (w.handleRtmpCreatestreamCommand items).1 := by
  unfold RtmpWorld.handleRtmpCreatestreamCommand
  split
  · exact .refl w
  · exact sameLife_reply _ _

theorem named_key_ne (r : RtmpRequest) (publish : Bool) (name : List Byte) : (r.named publish name).key ≠ [] := by
  simp [RtmpRequest.named]

theorem handleClientCommand_cases (w : RtmpWorld) (items : List AmfItem) (now : Int) : SameLife w (w.handleClientCommand sessionId
    items now).1 ∨ ∃ r, w.requested items = some r ∧ r.isReady = true ∧ r.key ≠ [] ∧ (r.publishFlag = false ∧ SameLife (w.asks r)
    (w.handleClientCommand sessionId items now).1 ∨ r.publishFlag = true ∧ SameLife ((w.asks r).onPublishReady sessionId now).1
    (w.handleClientCommand sessionId items now).1) := by
  unfold RtmpWorld.handleClientCommand RtmpWorld.requested
  cases items with
  | nil => exact .inl (.refl w)
  | cons item rest =>
    dsimp only
    by_cases htype : item.amfType = .string
    swap
    · simp only [htype, ne_eq, not_false_eq_true, if_true]
      exact .inl (.refl w)
    by_cases hconnect : item.descStr = amfText "connect"
    · rw [if_neg (by simpa using htype), if_pos hconnect]
      exact .inl (handleRtmpConnectCommand_same w _)
    by_cases hcreate : item.descStr = amfText "createStream"
    · rw [if_neg (by simpa using htype), if_neg hconnect, if_pos hcreate]
      exact .inl (handleRtmpCreatestreamCommand_same w _)
    rw [if_neg (by simpa using htype), if_neg hconnect, if_neg hcreate]
    by_cases hlength : (item :: rest).length < 3
    · left
      split
      · rw [RtmpWorld.handleRtmpPublishCommand, if_pos hlength]
        exact .refl w
      · split
        · rw [RtmpWorld.handleRtmpPlayCommand, if_pos hlength]
          exact .refl w
        · exact .refl w
    have hread : ¬(item.amfType ≠ .string ∨ (item :: rest).length < 3) := fun hbad => hbad.elim (· htype) hlength
    rw [if_neg hread]
    by_cases hpublish : item.descStr = amfText "publish"
    · rw [if_pos hpublish, if_pos hpublish, RtmpWorld.handleRtmpPublishCommand, if_neg hlength]
      by_cases hnone : w.session.req.app = [] ∨ streamNameOf (item :: rest) = []
      · rw [if_pos hnone]
        exact .inl (.refl w)
      rw [if_neg hnone, if_neg hnone]
      refine .inr ⟨_, rfl, rfl, named_key_ne _ _ _, .inr ⟨rfl, ?_⟩⟩
      dsimp only
      split
      · exact sameLife_reply _ _
      · exact .refl _
    · rw [if_neg hpublish, if_neg hpublish]
      by_cases hplay : item.descStr = amfText "play"
      · rw [if_pos hplay, if_pos hplay, RtmpWorld.handleRtmpPlayCommand, if_neg hlength]
        exact .inr ⟨_, rfl, rfl, named_key_ne _ _ _, .inl ⟨rfl, sameLife_reply _ _⟩⟩
      · rw [if_neg hplay]
        exact .inl (.refl w)

theorem onPublishReady_closed (w : RtmpWorld) (now : Int) :
    (w.onPublishReady sessionId now).1.session.closed = w.session.closed := by
  unfold RtmpWorld.onPublishReady
  split
  · rfl
  split
  · rfl
  dsimp only
  split <;> rfl

theorem RtmpSettled.handle (h : RtmpSettled sessionId writerId endpoint w) (hopen : w.session.closed = false)
    {items : List AmfItem} (hagain : w.session.req.isReady = true → ∀ r ∈ w.requested items, r.publishFlag =
    w.session.req.publishFlag ∧ r.key = w.session.req.key) (now : Int) : RtmpSettled sessionId writerId endpoint
    (w.handleClientCommand sessionId items now).1 ∧ (w.handleClientCommand sessionId items now).1.session.closed = false := by
  rcases @handleClientCommand_cases sessionId w items now with hsame | ⟨r, hreq, hready, hkey, hdone⟩
  · exact ⟨h.same hsame, hsame.closed.trans hopen⟩
  have hasks : RtmpSettled sessionId writerId endpoint (w.asks r) := h.named hready hkey fun hwas => hagain hwas r hreq
  rcases hdone with ⟨-, hsame⟩ | ⟨hpublish, hsame⟩
  · exact ⟨hasks.same hsame, hsame.closed.trans hopen⟩
  · exact ⟨(hasks.publishReady hopen hready hpublish now).same hsame,
      hsame.closed.trans ((onPublishReady_closed (w.asks r) now).trans hopen)⟩

theorem RtmpSettled.onCommand (h : RtmpSettled sessionId writerId endpoint w) (hopen : w.session.closed = false)
    {items : List AmfItem} (hagain : w.session.req.isReady = true → ∀ r ∈ w.requested items, r.publishFlag =
    w.session.req.publishFlag ∧ r.key = w.session.req.key) (now : Int) {writer : Nat} (hid : writerId writer = endpoint) (fails :
    Nat → MediaPacket → Bool) : RtmpSettled sessionId writerId endpoint (w.onCommand sessionId writerId items now writer
    fails) := by
  obtain ⟨hdone, hstill⟩ := h.handle hopen hagain now
  unfold RtmpWorld.onCommand
  dsimp only
  split
  · exact hdone.close
  split
  · rename_i hplays
    obtain ⟨hready, hplay⟩ : _ = true ∧ _ = false := by simpa using hplays
    exact hdone.addPlayer hstill hready hplay hid fails
  · exact hdone

theorem RtmpSettled.onMedia (h : RtmpSettled sessionId writerId endpoint w) (pkt : Option MediaPacket) (catalog : Option (List Byte))
    (fails : Nat → MediaPacket → Bool) : RtmpSettled sessionId writerId endpoint (w.onMedia sessionId writerId pkt catalog fails) := by
  unfold RtmpWorld.onMedia
  cases pkt with
  | none => exact h.close
  | some p =>
    dsimp only
    split
    swap
    · exact h
    rename_i howner
    obtain ⟨hclaimed, -⟩ : w.session.claimed = true ∧ _ := by simpa using howner
    have hflushed : ∀ w' : RtmpWorld, RtmpSettled sessionId writerId endpoint w' → w'.session = w.session → w'.log = w.log →
        RtmpSettled sessionId writerId endpoint
          ((w'.putStream (w'.stream.writerMediaPacket writerId fails p)).mark (.written w'.session.req.key)) := by
      intro w' h' hsession hlog
      have hwrite := h'.call w'.session.req.key (.packet p fails) nofun nofun
      refine ⟨hwrite.distinct, hwrite.owner, hwrite.player, fun hc => ?_, hwrite.key, ?_⟩
      · obtain ⟨hready, hpublish, hmem⟩ := hwrite.claimed hc
        exact ⟨hready, hpublish, List.mem_append_left _ hmem⟩
      · refine written_mark h'.written _ fun key hm => ?_
        cases hm
        exact (h'.claimed (by rw [hsession]; exact hclaimed)).2.2
    cases catalog with
    | none => exact hflushed w h rfl rfl
    | some json => exact hflushed _ (h.call w.session.req.key (.setCatalog sessionId.id json) nofun nofun) rfl rfl

theorem RtmpSettled.onControl (h : RtmpSettled sessionId writerId endpoint w) (m : RtmpMessage) :
    RtmpSettled sessionId writerId endpoint (w.onControl sessionId writerId m) := by
  unfold RtmpWorld.onControl
  split
  · split
    · exact h.close
    · refine h.same (.trans ?_ (sameLife_reply _ _))
      exact ⟨rfl, rfl, rfl, rfl, rfl, rfl, rfl, rfl⟩
  · split
    · exact h.close
    · exact h

theorem settled_step (h : RtmpSettled sessionId writerId endpoint w) (i : RtmpInputEvent) (hothers : i.ByOthers sessionId writerId
    endpoint) (hagain : w.AsksAgain i) : RtmpSettled sessionId writerId endpoint (w.step sessionId writerId i) := by
  cases i with
  | command items now writer fails =>
    dsimp only [RtmpWorld.step]
    split
    · exact h
    · rename_i hclosed
      have hopen : w.session.closed = false := by simpa using hclosed
      exact h.onCommand hopen (hagain hopen) now hothers fails
  | media pkt catalog fails =>
    dsimp only [RtmpWorld.step]
    split
    · exact h
    · exact h.onMedia pkt catalog fails
  | control m =>
    dsimp only [RtmpWorld.step]
    split
    · exact h
    · exact h.onControl m
  | amf3 => exact h.close
  | written p typeId streamId => exact h.same (sameLife_reply _ _)
  | close => exact h.close
  | other key op =>
    refine h.call key op (fun now hop => ?_) fun p fails hop => ?_
    · subst hop
      exact hothers rfl
    · subst hop
      exact hothers

theorem settled_fresh (h : w.Fresh sessionId writerId endpoint) : RtmpSettled sessionId writerId endpoint w where
  distinct := h.distinct
  owner key hown := absurd hown (h.owner key)
  player key p hp := absurd hp (h.players key p)
  claimed hclaimed := by
    rw [h.session] at hclaimed
    cases hclaimed
  key hready := by
    rw [h.session] at hready
    cases hready
  written pre key post heq := by
    rw [h.log] at heq
    exact absurd heq.symm (by simp)

end

/-- **A session that asks for one thing only leaves nothing**: in a run whose PUBLISH and PLAY commands all ask for the same, each
packet is written under a key that was claimed, there is one player at most, and nothing is left of a session that is closed. -/
theorem session_life (sessionId : SessionId) (writerId : Nat → Name) (endpoint : Name) (w : RtmpWorld) (ins : List RtmpInputEvent)
    (hfresh : w.Fresh sessionId writerId endpoint) (hothers : ∀ i ∈ ins, i.ByOthers sessionId writerId endpoint)
    (hagain : StepsOk (RtmpWorld.step sessionId writerId) RtmpWorld.AsksAgain w ins) :
    (w.run sessionId writerId ins).LifeOk sessionId writerId endpoint := by
  have hboth := stepsOk_and (RtmpWorld.step sessionId writerId) hagain (stepsOk_of_forall (RtmpWorld.step sessionId writerId)
    (fun _ i => i.ByOthers sessionId writerId endpoint) ins w fun i hi _ => hothers i hi)
  have hsettled : RtmpSettled sessionId writerId endpoint (w.run sessionId writerId ins) :=
    foldl_inv (RtmpWorld.step sessionId writerId) _ (RtmpSettled sessionId writerId endpoint)
      (fun w i h hok => settled_step h i hok.2 hok.1) ins w (settled_fresh hfresh) hboth
  exact hsettled.lifeOk

/-! ## Two names -/

def rtmpId : SessionId := ⟨"r".toList, by decide⟩

def commandSample (name : String) (item : AmfItem) : RtmpInputEvent :=
  .command [textItem name, { amfType := .number, number := doubleOne }, { amfType := .null }, item] 0 0 fun _ _ => false

def connectSample : RtmpInputEvent := commandSample "connect" { amfType := .object, amfObj := [(amfText "app", textItem "a")] }

/-- **A claim that is left behind**: two names are published, and the first one is the session's after the end. -/
theorem rtmp_left_behind : ¬ ∀ ins : List RtmpInputEvent, (∀ i ∈ ins, i.ByOthers rtmpId (fun _ => []) []) →
    (RtmpWorld.run rtmpId (fun _ => []) {} ins).LifeOk rtmpId (fun _ => []) [] := by
  intro hall
  have hlife := hall [connectSample, commandSample "publish" (textItem "x"), commandSample "publish" (textItem "y"), .close]
    fun i hi => by
      simp only [connectSample, commandSample, List.mem_cons, List.not_mem_nil, or_false] at hi
      rcases hi with rfl | rfl | rfl | rfl <;> trivial
  refine hlife.released (by decide +kernel) "a/x".toList ?_
  decide +kernel

theorem fresh_sample : RtmpWorld.Fresh rtmpId (fun _ => []) [] {} := by
  refine ⟨rfl, rfl, nofun, fun key p hp => ?_, fun key => ?_⟩
  · exact List.not_mem_nil hp.1
  · exact List.Pairwise.nil

theorem session_life_sample :
    let ins := [connectSample, commandSample "publish" (textItem "x"), commandSample "publish" (textItem "x"),
      .media (some ⟨.video, false, true, 0, 0, [0x17]⟩) none (fun _ _ => false), .close]
    (RtmpWorld.run rtmpId (fun _ => []) {} ins).log = [.claimed "a/x".toList, .written "a/x".toList] ∧
      (RtmpWorld.run rtmpId (fun _ => []) {} ins).LifeOk rtmpId (fun _ => []) [] := by
  intro ins
  refine ⟨by decide +kernel, session_life rtmpId (fun _ => []) [] {} ins fresh_sample (fun i hi => ?_) ?_⟩
  · simp only [ins, connectSample, commandSample, List.mem_cons, List.not_mem_nil, or_false] at hi
    rcases hi with rfl | rfl | rfl | rfl | rfl <;> trivial
  · decide +kernel

end MoqLiveCast
