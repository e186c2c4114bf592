import MoqLiveCast.Cluster.PullLife
/-!
# PullCycles — what a pull link keeps from one claim to the next

A link that stops and starts again before it is taken out keeps `last_media_ms_` and `seq_hdr_sig_`: its next claim may
be closed for idleness at once, and leaves the stream without the sequence headers that an earlier claim has written
(`headers_not_sent`).
-/
namespace MoqLiveCast

def StreamKey.Registered (s : StreamKey) (owner : Name) : Prop :=
  ∃ st ∈ s.stream, st.publisherId = owner ∧ st.publisherExist = true

instance (s : StreamKey) (owner : Name) : Decidable (s.Registered owner) := by
  unfold StreamKey.Registered
  infer_instance

namespace PullLife

/-! ## The condition -/

/-- What others do to the stream: they have ids of their own, and remove no publisher that is not theirs. -/
def Foreign (s : PullLife) : StreamOp → Prop
  | .claim x _ => x ≠ s.owner
  | .release x => x ≠ s.owner
  | .removePublisher => ¬s.stream.Registered s.owner
  | _ => True

/-- **The condition on a catalog** that is taken: a signature that is there already is of a header written since the latest claim,
which the link still has. -/
def SignaturesOk (s : PullLife) (catalog : List (Name × PulledRendition)) : Prop :=
  ∀ e ∈ catalog, ∀ r ∈ OrdMap.find catalog e.1, r.usable = true → r.config ≠ [] →
    OrdMap.find s.seqHdrSig e.1 = some r.sig → s.link.claimed = true ∧ (e.1, r.config) ∈ s.headers

/-- **The condition on a tick**, once the tracks had their turn: within the idle time of the latest claim, `last_media_ms_` is not
one that an earlier claim left longer ago than that. -/
def MediaTimeOk (s : PullLife) : Prop :=
  ∀ t ∈ s.claimedAt, s.now - t ≤ s.opts.pullIdleTimeoutMs → 0 < s.link.lastMediaMs → s.link.lastMediaMs < t →
    s.now - s.link.lastMediaMs ≤ s.opts.pullIdleTimeoutMs

def CallOk (writerId : Nat → Name) (fails : Nat → MediaPacket → Bool) (s : PullLife) : LifeEvent → Prop
  | .elsewhere op => s.Foreign op
  | .catalog raw (some catalog) =>
    s.sessionOpen = true → raw ≠ [] → ¬(s.stream.exists_ = true ∧ s.stream.isPublisherOwner s.owner = false) →
      s.SignaturesOk catalog
  | .timer ans => (s.drained writerId fails ans).MediaTimeOk
  | _ => True

def EventOk (writerId : Nat → Name) (fails : Nat → MediaPacket → Bool) (s : PullLife) (e : Nat × LifeEvent) : Prop :=
  s.gone = false → { s with now := s.now + e.1 }.CallOk writerId fails e.2

instance (s : PullLife) (op : StreamOp) : Decidable (s.Foreign op) :=
  match op with
  | .claim x _ | .release x => inferInstanceAs (Decidable (x ≠ s.owner))
  | .removePublisher => inferInstanceAs (Decidable ¬s.stream.Registered s.owner)
  | .addPlayer .. | .removePlayer _ | .addPublisher | .packet .. | .setCatalog .. => inferInstanceAs (Decidable True)

theorem lawful_header : LawfulBEq (Name × List Byte) := inferInstance

attribute [local instance] lawful_header

instance (s : PullLife) (catalog : List (Name × PulledRendition)) : Decidable (s.SignaturesOk catalog) := by
  refine @List.decidableBAll _ _ (fun _ => @Option.decidableForallMem _ _ (fun _ => ?_) _) _
  exact @instDecidableForall _ _ _ (@instDecidableForall _ _ _ instDecidableForall)

instance (s : PullLife) : Decidable s.MediaTimeOk := by
  unfold MediaTimeOk
  infer_instance

instance (writerId : Nat → Name) (fails : Nat → MediaPacket → Bool) (s : PullLife) (e : LifeEvent) :
    Decidable (s.CallOk writerId fails e) := by
  unfold CallOk
  cases e with
  | catalog raw info => cases info <;> infer_instance
  | _ => infer_instance

instance (writerId : Nat → Name) (fails : Nat → MediaPacket → Bool) (s : PullLife) (e : Nat × LifeEvent) :
    Decidable (s.EventOk writerId fails e) := by
  unfold EventOk
  infer_instance

end PullLife

/-! ## The registered publisher -/

namespace StreamKey

variable {s : StreamKey} {x : Name}

theorem Registered.players {s' : StreamKey} (h : s.Registered x) (hp : PlayersOnly s s') : s'.Registered x := by
  obtain ⟨st, hst, hid, hexist⟩ := h
  rcases hp.stream with ⟨-, hall⟩ | ⟨st', ws, hst', heq⟩
  · exact absurd ((hall st hst).symm.trans hexist) (by decide)
  · obtain rfl := Option.some.inj (hst'.symm.trans hst)
    exact ⟨_, heq, hid, hexist⟩

theorem Registered.published (h : s.Registered x) : s.published.publisherId = x := by
  obtain ⟨st, hst, hid, -⟩ := h
  have hst : s.stream = some st := hst
  simp [StreamKey.published, hst, hid]

theorem Registered.step (writerId : Nat → Name) (h : s.Registered x) (hx : x ≠ []) (op : StreamOp) (hremove : op ≠ .removePublisher)
    (hclaim : ∀ now, op ≠ .claim x now) (hrelease : op ≠ .release x) :
    (s.step writerId op).Registered x ∨ ∃ y now, op = .claim y now ∧ (s.claimPublisher y now).2 = .takeOver := by
  obtain ⟨st, (hst : s.stream = some st), hid, hexist⟩ := id h
  have hne : st.publisherId ≠ [] := fun hnil => hx (hid.symm.trans hnil)
  cases op with
  | addPlayer w fails =>
    rcases addPlayer_spec writerId fails s w with ⟨hnone, -⟩ | ⟨-, hp⟩
    · rw [hnone] at hst
      cases hst
    · exact .inl (h.players hp)
  | removePlayer w => exact .inl (h.players (removePlayer_players writerId s w))
  | addPublisher => exact .inl ⟨_, addPublisher_stream s, h.published, s.published_exist⟩
  | removePublisher => exact absurd rfl hremove
  | packet p fails =>
    obtain ⟨ws, hst', -⟩ := writerMediaPacket_spec writerId fails s p
    have hfed := fed_keeps s.published p
    exact .inl ⟨_, hst', hfed.2.1.trans h.published, hfed.1.trans s.published_exist⟩
  | setCatalog owner json =>
    refine .inl ?_
    simp only [StreamKey.step, setCatalogJson, hst]
    split_ifs
    · exact h
    · exact h
    · exact h
    · exact ⟨_, rfl, hid, hexist⟩
  | release owner =>
    have hother : st.publisherId ≠ owner := fun heq => hrelease (by rw [← heq, hid])
    refine .inl ?_
    simp only [StreamKey.step, releasePublisher, hst]
    rw [if_pos ⟨hne, hother⟩]
    exact h
  | claim owner now =>
    have hother : st.publisherId ≠ owner := fun heq => hclaim now (by rw [← heq, hid])
    have hnot : ¬(st.publisherId = [] ∨ st.publisherId = owner) := by simp [hne, hother]
    simp only [StreamKey.step, claimPublisher, hst, if_neg hnot]
    split
    · refine .inl ⟨_, rfl, ?_⟩
      unfold countTakeover
      split <;> exact ⟨hid, hexist⟩
    · refine .inr ⟨owner, now, rfl, ?_⟩
      rename_i hallowed
      simp [hnot, hallowed]

theorem claim_registered {now : Int} (htake : (s.claimPublisher x now).2 ≠ .takeOver)
    (hreject : (s.claimPublisher x now).2 ≠ .rejected) : (s.claimPublisher x now).1.Registered x := by
  unfold claimPublisher at htake hreject ⊢
  split at htake
  · exact ⟨_, notify_stream _ _, rfl, rfl⟩
  · rename_i st hst
    simp only [hst] at hreject
    split at htake
    · rename_i hfree
      rw [if_pos hfree]
      exact ⟨_, rfl, rfl, rfl⟩
    · rename_i hfree
      rw [if_neg hfree] at hreject
      split at htake
      · rename_i hrefused
        simp [hrefused] at hreject
      · exact absurd rfl htake

end StreamKey

/-! ## What the parts of a call do -/

namespace PullLife

variable (writerId : Nat → Name) (fails : Nat → MediaPacket → Bool)

/-- **A stream that the link writes to**: it stays registered. -/
def Holds (owner : Name) (stream stream' : StreamKey) : Prop := stream.Registered owner → stream'.Registered owner

theorem writeMedia_holds (s : PullLife) (p : MediaPacket) {x : Name} (hx : x ≠ []) :
    Holds x s.stream (s.writeMedia writerId fails p).stream := by
  intro h
  rcases h.step writerId hx (.packet p fails) nofun nofun nofun with h | ⟨y, now, heq, -⟩
  · exact h
  · cases heq

theorem writeAll_eq (ps : List MediaPacket) (s : PullLife) : ∃ st, ps.foldl (writeMedia writerId fails) s = { s with stream := st } ∧
    ∀ x, x ≠ [] → Holds x s.stream st := by
  induction ps generalizing s with
  | nil => exact ⟨s.stream, rfl, fun _ _ h => h⟩
  | cons p ps ih =>
    obtain ⟨st, heq, hst⟩ := ih (s.writeMedia writerId fails p)
    exact ⟨st, heq, fun x hx h => hst x hx (writeMedia_holds writerId fails s p hx h)⟩

theorem emit_spec (s : PullLife) (tracks : PullSession) : ∃ st m b,
    s.emit writerId fails tracks = { s with tracks, stream := st, link := { s.link with lastMediaMs := m }, bare := b } ∧
      (∀ x, x ≠ [] → Holds x s.stream st) ∧ (b = true → s.bare = true ∨ s.claimedAt ≠ none ∧ ¬s.Headed) := by
  unfold emit
  dsimp only
  split
  · exact ⟨s.stream, s.link.lastMediaMs, s.bare, rfl, fun _ _ h => h, .inl⟩
  · obtain ⟨st, heq, hst⟩ := writeAll_eq writerId fails
      ((tracks.line.written.drop s.tracks.line.written.length).map (·.packet)) { s with tracks }
    rw [heq]
    refine ⟨st, s.now, _, rfl, hst, fun hb => ?_⟩
    simp only [Bool.or_eq_true, Bool.and_eq_true, Bool.not_eq_true', decide_eq_false_iff_not] at hb
    exact hb.imp_right fun ⟨hsome, hnot⟩ => ⟨Option.isSome_iff_ne_none.1 hsome, hnot⟩

theorem sendSequenceHeader_spec (s : PullLife) (name : Name) :
    ∃ st sig hs, s.sendSequenceHeader writerId fails name = { s with stream := st, seqHdrSig := sig, headers := hs } ∧
      (∀ x, x ≠ [] → Holds x s.stream st) ∧ s.headers ⊆ hs := by
  unfold sendSequenceHeader
  split
  · exact ⟨s.stream, s.seqHdrSig, s.headers, rfl, fun _ _ h => h, List.Subset.refl _⟩
  · split_ifs
    · exact ⟨s.stream, s.seqHdrSig, s.headers, rfl, fun _ _ h => h, List.Subset.refl _⟩
    · exact ⟨s.stream, s.seqHdrSig, s.headers, rfl, fun _ _ h => h, List.Subset.refl _⟩
    · exact ⟨_, _, _, rfl, fun x hx => writeMedia_holds writerId fails s _ hx, List.subset_append_left _ _⟩

def Signed (s : PullLife) : Prop :=
  ∀ name r, OrdMap.find s.catalog name = some r → r.usable = true → r.config ≠ [] →
    OrdMap.find s.seqHdrSig name = some r.sig → (name, r.config) ∈ s.headers

theorem Signed.send {s : PullLife} (h : s.Signed) (name : Name) : (s.sendSequenceHeader writerId fails name).Signed ∧
    ∀ r, OrdMap.find s.catalog name = some r → r.usable = true → r.config ≠ [] → (name, r.config) ∈ (s.sendSequenceHeader writerId
    fails name).headers := by
  unfold sendSequenceHeader
  split
  · rename_i hnone
    refine ⟨h, fun r hr => ?_⟩
    rw [hnone] at hr
    cases hr
  · rename_i r hr
    split_ifs with hskip hsig
    · refine ⟨h, fun r' hr' huse hne => ?_⟩
      obtain rfl := Option.some.inj (hr.symm.trans hr')
      rcases hskip with hskip | hskip
      · exact absurd (huse.symm.trans hskip) (by decide)
      · exact absurd hskip hne
    · refine ⟨h, fun r' hr' huse hne => ?_⟩
      obtain rfl := Option.some.inj (hr.symm.trans hr')
      exact h name r hr huse hne hsig
    · refine ⟨fun n r' hr' huse hne hsig' => ?_, fun r' hr' _ _ => ?_⟩
      · simp only [writeMedia, List.mem_append, List.mem_singleton, OrdMap.find_put] at hr' hsig' ⊢
        by_cases hn : n = name
        · subst hn
          obtain rfl := Option.some.inj (hr.symm.trans hr')
          exact .inr rfl
        · rw [if_neg hn] at hsig'
          exact .inl (h n r' hr' huse hne hsig')
      · obtain rfl := Option.some.inj (hr.symm.trans hr')
        simp

theorem Signed.sendAll (names : List Name) {s : PullLife} (h : s.Signed) :
    ∃ st sig hs, names.foldl (sendSequenceHeader writerId fails) s = { s with stream := st, seqHdrSig := sig, headers := hs } ∧
      (∀ x, x ≠ [] → Holds x s.stream st) ∧ s.headers ⊆ hs ∧
      ∀ name ∈ names, ∀ r, OrdMap.find s.catalog name = some r → r.usable = true → r.config ≠ [] → (name, r.config) ∈ hs := by
  induction names generalizing s with
  | nil => exact ⟨s.stream, s.seqHdrSig, s.headers, rfl, fun _ _ h => h, List.Subset.refl _, nofun⟩
  | cons name names ih =>
    obtain ⟨hsigned, hsent⟩ := Signed.send writerId fails h name
    obtain ⟨st, sig, hs, heq, hst, hsub⟩ := sendSequenceHeader_spec writerId fails s name
    rw [heq] at hsigned hsent
    obtain ⟨st', sig', hs', heq', hst', hsub', hrest⟩ := ih hsigned
    refine ⟨st', sig', hs', ?_, fun x hx hreg => hst' x hx (hst x hx hreg), List.Subset.trans hsub hsub', fun n hn r hr huse hne => ?_⟩
    · rw [List.foldl_cons, heq, heq']
    · rcases List.mem_cons.1 hn with rfl | hn
      · exact hsub' (hsent r hr huse hne)
      · exact hrest n hn r hr huse hne

/-! ## What a run keeps -/

/-- **Of the claim, the headers and the closing for idleness.** -/
structure Kept (s : PullLife) : Prop where
  owner : s.owner ≠ []
  registered : s.link.claimed = true → s.stream.Registered s.owner ∨ s.takenOver = true
  claimedAt : s.link.claimed = true → s.claimedAt ≠ none
  headed : s.claimedAt ≠ none → s.Headed
  bare : s.bare = false
  idle : ∀ c ∈ s.idleCloses, ∃ t ∈ c.1, s.opts.pullIdleTimeoutMs < c.2 - t

variable {s : PullLife}

theorem Kept.put (h : Kept s) {l : ClusterPullLink} (hclaim : l.claimed = true → s.link.claimed = true) : Kept (s.put l) where
  owner := h.owner
  registered hl := by
    have hl : l.claimed = true := hl
    have hreg := h.registered (hclaim hl)
    simpa [PullLife.put, hl] using hreg
  claimedAt hl := h.claimedAt (hclaim hl)
  headed := h.headed
  bare := h.bare
  idle := h.idle

theorem Kept.clear (h : Kept s) : Kept s.clearSessionHandles := ⟨h.owner, h.registered, h.claimedAt, h.headed, h.bare, h.idle⟩

theorem Kept.emit (h : Kept s) (tracks : PullSession) : Kept (s.emit writerId fails tracks) := by
  obtain ⟨st, m, b, heq, hst, hb⟩ := emit_spec writerId fails s tracks
  rw [heq]
  refine ⟨h.owner, fun hl => (h.registered hl).imp_left (hst s.owner h.owner), h.claimedAt, h.headed,
    Bool.eq_false_iff.mpr fun hbare => ?_, h.idle⟩
  rcases hb hbare with hb | ⟨hsome, hnot⟩
  · exact absurd (h.bare.symm.trans hb) (by decide)
  · exact hnot (h.headed hsome)

theorem Kept.takeCatalog {raw : List Byte} {catalog : List (Name × PulledRendition)} (howner : s.owner ≠ [])
    (hreg : s.stream.Registered s.owner ∨ s.takenOver = true) (hat : s.claimedAt ≠ none) (hbare : s.bare = false)
    (hidle : ∀ c ∈ s.idleCloses, ∃ t ∈ c.1, s.opts.pullIdleTimeoutMs < c.2 - t)
    (hsigned : Signed { s with catalog := catalog }) : Kept (s.takeCatalog writerId fails raw catalog) := by
  have hset : Holds s.owner s.stream (s.stream.setCatalogJson s.owner raw).1 := by
    intro hr
    rcases hr.step writerId howner (.setCatalog s.owner raw) nofun nofun nofun with hr | ⟨y, now, heq, -⟩
    · exact hr
    · cases heq
  obtain ⟨st, sig, hs, heq, hst, -, hheads⟩ := Signed.sendAll writerId fails (catalog.map Prod.fst)
    (s := { s with
      catalog := catalog
      tracks := { s.tracks with line := s.tracks.line.step (.catalog (catalog.map fun e => (e.1, e.2.rendition))) }
      stream := (s.stream.setCatalogJson s.owner raw).1 }) hsigned
  unfold PullLife.takeCatalog
  dsimp only
  rw [heq]
  refine ⟨howner, fun _ => hreg.imp_left fun hr => hst s.owner howner (hset hr), fun _ => hat, fun _ e he r hr huse hne => ?_,
    hbare, hidle⟩
  exact hheads e.1 (List.mem_map_of_mem he) r hr huse hne

theorem Kept.handleCatalogFrame (h : Kept s) {raw : List Byte} {info : Option (List (Name × PulledRendition))}
    (hok : ∀ catalog ∈ info, raw ≠ [] → ¬(s.stream.exists_ = true ∧ s.stream.isPublisherOwner s.owner = false) →
    s.SignaturesOk catalog) : Kept (s.handleCatalogFrame writerId fails raw info) := by
  unfold PullLife.handleCatalogFrame
  split
  · exact h
  · rename_i catalog
    split
    · exact h
    · rename_i hraw
      split
      · exact h.put fun hl => hl
      · rename_i hmine
        have hsigs := hok catalog rfl hraw hmine
        have hsigned : ∀ headers, (∀ name r, s.link.claimed = true → (name, r) ∈ s.headers → (name, r) ∈ headers) →
            Signed { s with catalog, headers } := by
          intro headers hkept name r hr huse hne hsig
          obtain ⟨hclaimed, hin⟩ := hsigs (name, r) (OrdMap.mem_of_find hr) r hr huse hne hsig
          exact hkept name r.config hclaimed hin
        split
        · rename_i hclaimed
          exact Kept.takeCatalog writerId fails h.owner (h.registered hclaimed) (h.claimedAt hclaimed) h.bare h.idle
            (hsigned s.headers fun _ _ _ hin => hin)
        · rename_i hclaimed
          dsimp only
          split
          · have hstream : Kept { s with stream := (s.stream.claimPublisher s.owner s.now).1 } :=
              ⟨h.owner, fun hl => absurd hl hclaimed, h.claimedAt, h.headed, h.bare, h.idle⟩
            exact hstream.put fun hl => hl
          · rename_i htaken
            obtain ⟨htake, hreject⟩ := not_or.1 htaken
            refine Kept.takeCatalog writerId fails h.owner (.inl (StreamKey.claim_registered htake hreject))
              (Option.some_ne_none _) h.bare h.idle ?_
            exact hsigned [] fun _ _ hl => absurd hl hclaimed

theorem Kept.handleMediaFrame (h : Kept s) (name : Name) (group : Nat) (f : PullFrame) :
    Kept (s.handleMediaFrame writerId fails name group f) := by
  unfold PullLife.handleMediaFrame
  split_ifs
  · exact h
  · exact h.put fun hl => hl
  · exact h
  · exact h.emit writerId fails _
  · exact h

theorem freed_claimed (opts : ClusterOptions) (l : ClusterPullLink) (now : Int) : (l.freeSessionIfClosed opts now).claimed =
    l.claimed ∧ (l.freeSessionIfClosed opts now).stopped = l.stopped ∧ (l.freeSessionIfClosed opts now).acquireTimedOut =
    l.acquireTimedOut ∧ (l.freeSessionIfClosed opts now).acquireDeadlineMs = l.acquireDeadlineMs := by
  unfold ClusterPullLink.freeSessionIfClosed
  dsimp only
  split_ifs <;> exact ⟨rfl, rfl, rfl, rfl⟩

theorem created_claimed (opts : ClusterOptions) (ans : Answers) (l : ClusterPullLink) :
    (l.createSession opts ans).claimed = l.claimed := by
  unfold ClusterPullLink.createSession
  dsimp only
  split_ifs <;> rfl

theorem Kept.freeSession (h : Kept s) : Kept s.freeSessionIfClosed := by
  have hfree := (freed_claimed s.opts s.link s.now).1
  unfold PullLife.freeSessionIfClosed
  dsimp only
  split
  · exact h.clear.put fun hl => hfree.symm.trans hl
  · exact h.put fun hl => hfree.symm.trans hl

theorem Kept.reopen (h : Kept s) (ans : Answers) : Kept (s.reopen ans) := by
  unfold PullLife.reopen
  split
  · exact h.put fun hl => (created_claimed _ _ _).symm.trans hl
  · exact h

theorem Kept.drained (h : Kept s) (ans : Answers) : Kept (s.drained writerId fails ans) :=
  (h.freeSession.reopen ans).emit writerId fails _

theorem stop_claimed {l : ClusterPullLink} (hl : l.stop.claimed = true) : l.claimed = true := by
  unfold ClusterPullLink.stop at hl
  split at hl
  · exact hl
  · cases hl

theorem Kept.giveUp (h : Kept s) : Kept s.giveUp := by
  unfold PullLife.giveUp
  split
  · have hput : Kept (s.put { s.link with acquireTimedOut := true }.stop) := h.put fun hl => by
      have hl := stop_claimed hl
      exact hl
    exact ⟨hput.owner, hput.registered, hput.claimedAt, hput.headed, hput.bare, hput.idle⟩
  · exact h

theorem MediaTimeOk.giveUp (h : s.MediaTimeOk) : s.giveUp.MediaTimeOk := by
  unfold PullLife.giveUp
  split
  · have hmedia : { s.link with acquireTimedOut := true }.stop.lastMediaMs = s.link.lastMediaMs := by
      unfold ClusterPullLink.stop
      split <;> rfl
    intro t ht hnear
    simp only [PullLife.put, hmedia] at ht hnear ⊢
    exact h t ht hnear
  · exact h

theorem Kept.closeIdle (h : Kept s) (hok : s.MediaTimeOk) : Kept s.closeIdle := by
  unfold PullLife.closeIdle
  split
  · rename_i hover
    obtain ⟨-, hclaimed, hmedia, hlong⟩ := hover
    have hput : Kept (s.put s.link.stop) := h.put fun hl => stop_claimed hl
    refine ⟨hput.owner, hput.registered, hput.claimedAt, hput.headed, hput.bare, fun c hc => ?_⟩
    rcases List.mem_append.1 hc with hc | hc
    · exact h.idle c hc
    · obtain ⟨t, ht⟩ := Option.ne_none_iff_exists'.1 (h.claimedAt hclaimed)
      rw [List.mem_singleton.1 hc]
      refine ⟨t, ht, ?_⟩
      by_contra hearly
      rcases lt_or_ge s.link.lastMediaMs t with hstale | hfresh
      · have hshort := hok t ht (not_lt.mp hearly) hmedia hstale
        exact absurd hlong (not_lt.mpr hshort)
      · have hearly : ¬s.opts.pullIdleTimeoutMs < s.now - t := hearly
        omega
  · exact h

theorem Kept.onTimer (h : Kept s) {ans : Answers} (hok : (s.drained writerId fails ans).MediaTimeOk) :
    Kept (s.onTimer writerId fails ans) := by
  have htick : Kept (s.onTick writerId fails ans) := (h.drained writerId fails ans).giveUp.closeIdle hok.giveUp
  unfold PullLife.onTimer
  dsimp only
  split
  · exact ⟨htick.owner, nofun, nofun, htick.headed, htick.bare, htick.idle⟩
  · split
    · exact htick.put fun hl => stop_claimed hl
    · exact htick

theorem demand_claimed (opts : ClusterOptions) (ans : Answers) (l : ClusterPullLink) :
    (l.start opts ans).claimed = l.claimed := by
  unfold ClusterPullLink.start
  split
  · rfl
  · dsimp only
    split
    · rw [created_claimed]
    · rfl

theorem Kept.elsewhere (h : Kept s) {op : StreamOp} (hforeign : s.Foreign op) : Kept (s.call writerId fails (.elsewhere op)) := by
  refine ⟨h.owner, fun hl => ?_, h.claimedAt, h.headed, h.bare, h.idle⟩
  have htaken : ∀ b, s.takenOver = true → (s.takenOver || b) = true := fun b ht => by simp [ht]
  rcases h.registered hl with hreg | hover
  · have hclaim : ∀ now, atNow s.now op ≠ .claim s.owner now := by
      intro now heq
      cases op <;> simp only [atNow] at heq <;> cases heq
      exact hforeign rfl
    have hrelease : atNow s.now op ≠ .release s.owner := by
      intro heq
      cases op <;> simp only [atNow] at heq <;> cases heq
      exact hforeign rfl
    have hremove : atNow s.now op ≠ .removePublisher := by
      intro heq
      cases op <;> simp only [atNow] at heq <;> cases heq
      exact hforeign hreg
    rcases hreg.step writerId h.owner _ hremove hclaim hrelease with hreg | ⟨y, now, heq, hover⟩
    · exact .inl hreg
    · refine .inr ?_
      cases op <;> simp only [atNow] at heq <;> cases heq
      simp [PullLife.call, takesOver, hover]
  · exact .inr (htaken _ hover)

theorem Kept.call (h : Kept s) (e : LifeEvent) (hok : s.CallOk writerId fails e) : Kept (s.call writerId fails e) := by
  cases e with
  | demand ans =>
    refine h.put fun hl => ?_
    split at hl
    · have hl := (demand_claimed _ _ _).symm.trans hl
      exact hl
    · exact hl
  | timer ans => exact h.onTimer writerId fails hok
  | closed =>
    unfold PullLife.call
    dsimp only
    split
    · exact h.clear.put fun hl => hl
    · exact h
  | elsewhere op => exact h.elsewhere writerId fails hok
  | connected ans ok =>
    unfold PullLife.call
    dsimp only
    split
    · have hput : Kept (s.put (s.link.onSessionConnected (s.answers ans) ok)) := h.put fun hl => by
        unfold ClusterPullLink.onSessionConnected at hl
        split_ifs at hl <;> exact hl
      exact ⟨hput.owner, hput.registered, hput.claimedAt, hput.headed, hput.bare, hput.idle⟩
    · exact h
  | catalog raw info =>
    unfold PullLife.call
    dsimp only
    split
    · rename_i hopen
      refine h.handleCatalogFrame writerId fails fun catalog hc hraw hmine => ?_
      obtain rfl := hc
      exact hok hopen hraw hmine
    · exact h
  | frame name group f =>
    unfold PullLife.call
    dsimp only
    split
    · exact h.handleMediaFrame writerId fails name group f
    · exact h
  | groupEnd name group =>
    unfold PullLife.call
    dsimp only
    split
    · exact h.emit writerId fails _
    · exact h
  | subscribed name first =>
    unfold PullLife.call
    dsimp only
    split
    · exact h.emit writerId fails _
    · exact h
  | trackEnd =>
    unfold PullLife.call
    dsimp only
    split
    · refine h.put fun hl => ?_
      unfold ClusterPullLink.requestReconnect at hl
      split at hl <;> exact hl
    · exact h

/-! ## A link that did not get its stream -/

/-- **The link is given up**: it has no claim and no open session, its time is over, and if it is stopped it is so for that. -/
structure GivenUp (s : PullLife) : Prop where
  claimed : s.link.claimed = false
  closed : s.sessionOpen = false
  deadline : 0 < s.link.acquireDeadlineMs ∧ s.link.acquireDeadlineMs ≤ s.now
  stopped : s.link.stopped = true → s.link.acquireTimedOut = true

/-- The key has its entry in the negative cache once the link is taken out, and until then the link is given up. -/
def Timed (s : PullLife) : Prop :=
  s.timedOut = true → if s.gone then s.negativeUntil ≠ none else s.GivenUp ∧ s.link.session = true

theorem Timed.given (h : s.Timed) (hgone : s.gone = false) (ht : s.timedOut = true) : s.GivenUp ∧ s.link.session = true := by
  have hgiven := h ht
  rwa [hgone, if_neg Bool.false_ne_true] at hgiven

theorem timed_of_given (hgone : s.gone = false) (h : s.timedOut = true → s.GivenUp ∧ s.link.session = true) : s.Timed := by
  intro ht
  rw [hgone, if_neg Bool.false_ne_true]
  exact h ht

theorem clusterBackoffMs_pos (opts : ClusterOptions) (attempt : Nat) (key : Name) (now : Int) :
    0 < clusterBackoffMs opts attempt key now := by
  have hspan : ∀ delay : Int, 0 < delay → ∀ h : Nat, 0 < delay - ((delay / 5 + 1).toNat / 2 : Nat) + (h : Int) := by
    intro delay hdelay h
    omega
  have hmin : 0 < if 0 < opts.reconnectMinMs then opts.reconnectMinMs else 500 := by
    split <;> omega
  unfold clusterBackoffMs
  dsimp only
  refine hspan _ ?_ _
  generalize (if 0 < opts.reconnectMinMs then opts.reconnectMinMs else 500) = least at hmin
  generalize List.foldl _ _ _ = delay
  split_ifs <;> omega

theorem freed_waits (opts : ClusterOptions) {l : ClusterPullLink} (now : Int) (hsession : l.session = true)
    (hstopped : (l.freeSessionIfClosed opts now).stopped = false) (hfreed : (l.freeSessionIfClosed opts now).session = false) :
    now < (l.freeSessionIfClosed opts now).retryAtMs := by
  have hpos := clusterBackoffMs_pos opts (l.attempt + 1) l.localKey now
  unfold ClusterPullLink.freeSessionIfClosed at hstopped hfreed ⊢
  dsimp only at hstopped hfreed ⊢
  split_ifs at hstopped hfreed ⊢ <;> simp_all <;> omega

theorem GivenUp.put (h : s.GivenUp) {l : ClusterPullLink} (hclaimed : l.claimed = false)
    (hsession : s.link.session = true ∨ l.session = false) (hdeadline : l.acquireDeadlineMs = s.link.acquireDeadlineMs)
    (hflag : l.stopped = true → l.acquireTimedOut = true) : (s.put l).GivenUp := by
  refine ⟨hclaimed, ?_, ?_, hflag⟩
  · have hnew : (!s.link.session && l.session) = false := by
      rcases hsession with hs | hs <;> simp [hs]
    simp [PullLife.put, h.closed, hnew]
  · have hdead := h.deadline
    rw [← hdeadline] at hdead
    exact hdead

theorem GivenUp.emit (h : s.GivenUp) (tracks : PullSession) : (s.emit writerId fails tracks).GivenUp := by
  obtain ⟨st, m, b, heq, -, -⟩ := emit_spec writerId fails s tracks
  rw [heq]
  exact ⟨h.claimed, h.closed, h.deadline, h.stopped⟩

theorem GivenUp.drained (h : s.GivenUp) (hsession : s.link.session = true) (ans : Answers) :
    (s.drained writerId fails ans).GivenUp := by
  obtain ⟨hclaimed, hstopped, hflag, hdeadline⟩ := freed_claimed s.opts s.link s.now
  have hlink : s.freeSessionIfClosed.link = s.link.freeSessionIfClosed s.opts s.now := by
    unfold PullLife.freeSessionIfClosed
    dsimp only
    split <;> rfl
  have hnow : s.freeSessionIfClosed.now = s.now := by
    unfold PullLife.freeSessionIfClosed
    dsimp only
    split <;> rfl
  have hfreed : s.freeSessionIfClosed.GivenUp := by
    have hclear : s.clearSessionHandles.GivenUp := ⟨h.claimed, h.closed, h.deadline, h.stopped⟩
    have hstop : (s.link.freeSessionIfClosed s.opts s.now).stopped = true →
        (s.link.freeSessionIfClosed s.opts s.now).acquireTimedOut = true := by
      rw [hstopped, hflag]
      exact h.stopped
    unfold PullLife.freeSessionIfClosed
    dsimp only
    split
    · exact hclear.put (hclaimed.trans h.claimed) (.inl hsession) hdeadline hstop
    · exact h.put (hclaimed.trans h.claimed) (.inl hsession) hdeadline hstop
  have hsame : s.freeSessionIfClosed.reopen ans = s.freeSessionIfClosed := by
    unfold PullLife.reopen
    refine if_neg ?_
    rw [hlink, hnow]
    rintro ⟨hstop, hsess, -, hretry⟩
    exact absurd hretry (not_le.mpr (freed_waits s.opts s.now hsession hstop hsess))
  unfold PullLife.drained
  dsimp only
  rw [hsame]
  exact hfreed.emit writerId fails _

theorem giveUp_stopped (h : s.timedOut = true → s.GivenUp) (ht : s.giveUp.timedOut = true) :
    s.giveUp.GivenUp ∧ s.giveUp.link.stopped = true := by
  unfold PullLife.giveUp at ht ⊢
  split
  · rename_i hover
    obtain ⟨hstopped, hclaimed, hpos, hle⟩ := hover
    have hlink : { s.link with acquireTimedOut := true }.stop =
        { s.link with acquireTimedOut := true, stopped := true, claimed := false, linked := false, connecting := false } := by
      unfold ClusterPullLink.stop
      rw [if_neg (by simp [hstopped])]
    rw [hlink]
    exact ⟨⟨rfl, by simp [PullLife.put], ⟨hpos, hle⟩, fun _ => rfl⟩, rfl⟩
  · rename_i hnot
    rw [if_neg hnot] at ht
    have hgiven := h ht
    refine ⟨hgiven, ?_⟩
    by_contra hrunning
    exact hnot ⟨Bool.eq_false_iff.mpr hrunning, hgiven.claimed, hgiven.deadline.1, hgiven.deadline.2⟩

theorem closeIdle_timedOut (s : PullLife) : s.closeIdle.timedOut = s.timedOut := by
  unfold PullLife.closeIdle
  split <;> rfl

/-- The options, the link's id, and whether it was given up or taken out, stay. -/
structure Same (s s' : PullLife) : Prop where
  opts : s'.opts = s.opts
  id : s'.owner = s.owner
  timedOut : s'.timedOut = s.timedOut
  gone : s'.gone = s.gone

variable {s' s'' : PullLife}

theorem Same.refl (s : PullLife) : Same s s := ⟨rfl, rfl, rfl, rfl⟩

theorem Same.trans (h : Same s s') (h' : Same s' s'') : Same s s'' :=
  ⟨h'.opts.trans h.opts, h'.id.trans h.id, h'.timedOut.trans h.timedOut, h'.gone.trans h.gone⟩

theorem put_same (s : PullLife) (l : ClusterPullLink) : Same s (s.put l) := ⟨rfl, rfl, rfl, rfl⟩

theorem emit_same (s : PullLife) (tracks : PullSession) : Same s (s.emit writerId fails tracks) := by
  obtain ⟨st, m, b, heq, -, -⟩ := emit_spec writerId fails s tracks
  rw [heq]
  exact ⟨rfl, rfl, rfl, rfl⟩

theorem sendAll_same (names : List Name) (s : PullLife) : Same s (names.foldl (sendSequenceHeader writerId fails) s) := by
  induction names generalizing s with
  | nil => exact .refl s
  | cons name names ih =>
    obtain ⟨st, sig, hs, heq, -, -⟩ := sendSequenceHeader_spec writerId fails s name
    have hsent : Same s (s.sendSequenceHeader writerId fails name) := by
      rw [heq]
      exact ⟨rfl, rfl, rfl, rfl⟩
    exact hsent.trans (ih _)

theorem takeCatalog_same (s : PullLife) (raw : List Byte) (catalog : List (Name × PulledRendition)) :
    Same s (s.takeCatalog writerId fails raw catalog) := by
  have hsent := sendAll_same writerId fails (catalog.map Prod.fst)
    { s with
      catalog := catalog
      tracks := { s.tracks with line := s.tracks.line.step (.catalog (catalog.map fun e => (e.1, e.2.rendition))) }
      stream := (s.stream.setCatalogJson s.owner raw).1 }
  exact ⟨hsent.opts, hsent.id, hsent.timedOut, hsent.gone⟩

theorem handleCatalogFrame_same (s : PullLife) (raw : List Byte) (info : Option (List (Name × PulledRendition))) :
    Same s (s.handleCatalogFrame writerId fails raw info) := by
  unfold PullLife.handleCatalogFrame
  split
  · exact .refl s
  · dsimp only
    split_ifs
    · exact .refl s
    · exact put_same s _
    · exact takeCatalog_same writerId fails s _ _
    · exact ⟨rfl, rfl, rfl, rfl⟩
    · have htaken := takeCatalog_same writerId fails (s.claimed (s.stream.claimPublisher s.owner s.now).1) raw ‹_›
      exact ⟨htaken.opts, htaken.id, htaken.timedOut, htaken.gone⟩

theorem handleMediaFrame_same (s : PullLife) (name : Name) (group : Nat) (f : PullFrame) :
    Same s (s.handleMediaFrame writerId fails name group f) := by
  unfold PullLife.handleMediaFrame
  split_ifs
  · exact .refl s
  · exact put_same s _
  · exact .refl s
  · exact emit_same writerId fails s _
  · exact .refl s

theorem drained_same (s : PullLife) (ans : Answers) : Same s (s.drained writerId fails ans) := by
  have hfreed : Same s s.freeSessionIfClosed := by
    unfold PullLife.freeSessionIfClosed
    dsimp only
    split <;> exact ⟨rfl, rfl, rfl, rfl⟩
  have hopened : Same s.freeSessionIfClosed (s.freeSessionIfClosed.reopen ans) := by
    unfold PullLife.reopen
    split
    · exact put_same _ _
    · exact .refl _
  exact (hfreed.trans hopened).trans (emit_same writerId fails _ _)

theorem Timed.of_open (h : s.Timed) (hgone : s.gone = false) (hopen : s.sessionOpen = true) (hsame : Same s s') : s'.Timed := by
  intro ht
  have hgiven := h.given hgone (hsame.timedOut.symm.trans ht)
  exact absurd (hgiven.1.closed.symm.trans hopen) (by decide)

theorem onTick_same (s : PullLife) (ans : Answers) : (s.onTick writerId fails ans).opts = s.opts ∧
    (s.onTick writerId fails ans).owner = s.owner ∧ (s.onTick writerId fails ans).gone = s.gone := by
  have hsame := drained_same writerId fails s ans
  have hrest : ∀ s : PullLife, s.giveUp.closeIdle.opts = s.opts ∧ s.giveUp.closeIdle.owner = s.owner ∧
      s.giveUp.closeIdle.gone = s.gone := by
    intro s
    unfold PullLife.closeIdle PullLife.giveUp
    split_ifs <;> exact ⟨rfl, rfl, rfl⟩
  obtain ⟨hopts, hid, hgone⟩ := hrest (s.drained writerId fails ans)
  exact ⟨hopts.trans hsame.opts, hid.trans hsame.id, hgone.trans hsame.gone⟩

theorem Timed.onTimer (h : s.Timed) (hgone : s.gone = false) (hcache : 0 < s.opts.negativeCacheMs) (ans : Answers) :
    (s.onTimer writerId fails ans).Timed := by
  have hdrained : (s.drained writerId fails ans).timedOut = true → (s.drained writerId fails ans).GivenUp := by
    intro ht
    have hgiven := h.given hgone ((drained_same writerId fails s ans).timedOut.symm.trans ht)
    exact hgiven.1.drained writerId fails hgiven.2 ans
  have hticked : (s.onTick writerId fails ans).timedOut = true →
      (s.onTick writerId fails ans).GivenUp ∧ (s.onTick writerId fails ans).link.stopped = true := by
    intro ht
    have hgiven := giveUp_stopped hdrained ((closeIdle_timedOut _).symm.trans ht)
    have hnot : ¬(s.drained writerId fails ans).giveUp.idleOver := fun hidle =>
      absurd (hgiven.2.symm.trans hidle.1) (by decide)
    have hsame : s.onTick writerId fails ans = (s.drained writerId fails ans).giveUp := by
      unfold PullLife.onTick PullLife.closeIdle
      exact if_neg hnot
    rw [hsame]
    exact hgiven
  obtain ⟨hopts, -, hkept⟩ := onTick_same writerId fails s ans
  unfold PullLife.onTimer
  dsimp only
  split
  · intro ht
    obtain ⟨hgiven, hstopped⟩ := hticked ht
    have hentry : (s.onTick writerId fails ans).link.acquireTimedOut = true ∧
        0 < (s.onTick writerId fails ans).opts.negativeCacheMs := ⟨hgiven.stopped hstopped, by rw [hopts]; exact hcache⟩
    simp [hentry]
  · rename_i hsession
    split
    · rename_i hrunning
      intro ht
      exact absurd ((hticked ht).2.symm.trans hrunning.1) (by decide)
    · refine timed_of_given (hkept.trans hgone) fun ht => ?_
      obtain ⟨hgiven, hstopped⟩ := hticked ht
      refine ⟨hgiven, ?_⟩
      simpa [ClusterPullLink.fullyStopped, hstopped] using hsession

theorem Timed.call (h : s.Timed) (hgone : s.gone = false) (hcache : 0 < s.opts.negativeCacheMs) (e : LifeEvent) :
    (s.call writerId fails e).Timed := by
  have hput : ∀ {s : PullLife} {l : ClusterPullLink}, s.Timed → s.gone = false → (s.GivenUp → s.link.session = true →
      (s.put l).GivenUp ∧ l.session = true) → (s.put l).Timed := by
    intro s l h hgone hl
    refine timed_of_given (s := s.put l) hgone fun ht => ?_
    have hgiven := h.given hgone ht
    exact hl hgiven.1 hgiven.2
  unfold PullLife.call
  cases e with
  | demand ans =>
    refine hput h hgone fun hgiven hsession => ?_
    split
    · have hstart : (s.link.touchDemand s.now).start s.opts (s.answers ans) =
          { s.link.touchDemand s.now with stopped := false, acquireTimedOut := false, acquireDeadlineSet := false } := by
        rename_i hstopped
        simp [ClusterPullLink.start, ClusterPullLink.touchDemand, hsession] at hstopped ⊢
        simp [hstopped]
      rw [hstart]
      exact ⟨hgiven.put hgiven.claimed (.inl hsession) rfl nofun, hsession⟩
    · exact ⟨hgiven.put hgiven.claimed (.inl hsession) rfl hgiven.stopped, hsession⟩
  | timer ans => exact h.onTimer writerId fails hgone hcache ans
  | closed =>
    dsimp only
    split
    · have hclear : s.clearSessionHandles.Timed := by
        refine timed_of_given (s := s.clearSessionHandles) hgone fun ht => ?_
        have hgiven := h.given hgone ht
        exact ⟨⟨hgiven.1.claimed, hgiven.1.closed, hgiven.1.deadline, hgiven.1.stopped⟩, hgiven.2⟩
      exact hput hclear hgone fun hgiven hsession =>
        ⟨hgiven.put hgiven.claimed (.inl hsession) rfl hgiven.stopped, hsession⟩
    · exact h
  | elsewhere op =>
    refine timed_of_given hgone fun ht => ?_
    have hgiven := h.given hgone ht
    exact ⟨⟨hgiven.1.claimed, hgiven.1.closed, hgiven.1.deadline, hgiven.1.stopped⟩, hgiven.2⟩
  | connected ans ok =>
    dsimp only
    split
    · rename_i hopen
      exact h.of_open hgone hopen ⟨rfl, rfl, rfl, rfl⟩
    · exact h
  | catalog raw info =>
    dsimp only
    split
    · rename_i hopen
      exact h.of_open hgone hopen (handleCatalogFrame_same writerId fails s raw info)
    · exact h
  | frame name group f =>
    dsimp only
    split
    · rename_i hopen
      exact h.of_open hgone hopen (handleMediaFrame_same writerId fails s name group f)
    · exact h
  | groupEnd name group =>
    dsimp only
    split
    · rename_i hopen
      exact h.of_open hgone hopen (emit_same writerId fails s _)
    · exact h
  | subscribed name first =>
    dsimp only
    split
    · rename_i hopen
      exact h.of_open hgone hopen (emit_same writerId fails s _)
    · exact h
  | trackEnd =>
    dsimp only
    split
    · rename_i hopen
      exact h.of_open hgone hopen (put_same s _)
    · exact h

/-! ## Runs -/

theorem elapsed_kept (h : Kept s) (n : Nat) : Kept { s with now := s.now + n } :=
  ⟨h.owner, h.registered, h.claimedAt, h.headed, h.bare, h.idle⟩

theorem elapsed_timed (h : s.Timed) (hgone : s.gone = false) (n : Nat) : Timed { s with now := s.now + n } := by
  refine timed_of_given hgone fun ht => ?_
  have hgiven := h.given hgone ht
  have hle : s.link.acquireDeadlineMs ≤ s.now + n := Int.le_trans hgiven.1.deadline.2 (by omega)
  exact ⟨⟨hgiven.1.claimed, hgiven.1.closed, ⟨hgiven.1.deadline.1, hle⟩, hgiven.1.stopped⟩, hgiven.2⟩

theorem call_same (s : PullLife) (e : LifeEvent) : (s.call writerId fails e).opts = s.opts ∧
    (s.call writerId fails e).owner = s.owner := by
  unfold PullLife.call
  cases e with
  | timer ans =>
    obtain ⟨hopts, hid, -⟩ := onTick_same writerId fails s ans
    unfold PullLife.onTimer
    dsimp only
    split_ifs <;> exact ⟨hopts, hid⟩
  | demand ans => exact ⟨rfl, rfl⟩
  | elsewhere op => exact ⟨rfl, rfl⟩
  | closed =>
    dsimp only
    split <;> exact ⟨rfl, rfl⟩
  | connected ans ok =>
    dsimp only
    split <;> exact ⟨rfl, rfl⟩
  | trackEnd =>
    dsimp only
    split <;> exact ⟨rfl, rfl⟩
  | catalog raw info =>
    have hsame := handleCatalogFrame_same writerId fails s raw info
    dsimp only
    split
    · exact ⟨hsame.opts, hsame.id⟩
    · exact ⟨rfl, rfl⟩
  | frame name group f =>
    have hsame := handleMediaFrame_same writerId fails s name group f
    dsimp only
    split
    · exact ⟨hsame.opts, hsame.id⟩
    · exact ⟨rfl, rfl⟩
  | groupEnd name group =>
    have hsame := emit_same writerId fails s (s.tracks.step (s.now, .groupEnd name group))
    dsimp only
    split
    · exact ⟨hsame.opts, hsame.id⟩
    · exact ⟨rfl, rfl⟩
  | subscribed name first =>
    have hsame := emit_same writerId fails s (s.tracks.step (s.now, .subscribed name first))
    dsimp only
    split
    · exact ⟨hsame.opts, hsame.id⟩
    · exact ⟨rfl, rfl⟩

/-- **What every run keeps**, once its events meet the condition. -/
structure LifeInv (opts : ClusterOptions) (x : Name) (s : PullLife) : Prop extends Kept s where
  timed : s.Timed
  optsSame : s.opts = opts
  id : s.owner = x

theorem LifeInv.step {opts : ClusterOptions} {owner : Name} (h : LifeInv opts owner s) (hcache : 0 < opts.negativeCacheMs)
    (e : Nat × LifeEvent) (hok : s.EventOk writerId fails e) : LifeInv opts owner (s.step writerId fails e) := by
  unfold PullLife.step
  split
  · exact h
  · rename_i hgone
    have hgone : s.gone = false := Bool.eq_false_iff.mpr hgone
    have hsame := call_same writerId fails { s with now := s.now + e.1 } e.2
    have hcache : 0 < s.opts.negativeCacheMs := h.optsSame.symm ▸ hcache
    refine ⟨(elapsed_kept h.toKept e.1).call writerId fails e.2 (hok hgone), ?_, hsame.1.trans h.optsSame, hsame.2.trans h.id⟩
    exact (elapsed_timed h.timed hgone e.1).call writerId fails hgone hcache e.2

/-- **The cycles of a pull link**: in every state of a run whose events meet the condition, a link with a claim is the registered
publisher or has been taken over from since, no media was written before the headers of the catalog were, since the latest claim,
the link was closed for idleness only when it had had its claim for longer, and a link that did not get its stream in time is
given up, and leaves an entry in the negative cache. -/
theorem pull_link_cycles (opts : ClusterOptions) (owner key : Name) (stream : StreamKey) (now : Int) (ans : Answers)
    (events : List (Nat × LifeEvent)) (howner : owner ≠ []) (hcache : 0 < opts.negativeCacheMs)
    (hok : StepsOk (step writerId fails) (EventOk writerId fails) (started opts owner key stream now ans) events) :
    let s := events.foldl (step writerId fails) (started opts owner key stream now ans)
    (s.link.claimed = true → s.stream.Registered owner ∨ s.takenOver = true) ∧ s.bare = false ∧
      (∀ c ∈ s.idleCloses, ∃ t ∈ c.1, opts.pullIdleTimeoutMs < c.2 - t) ∧
        (s.timedOut = true → if s.gone then s.negativeUntil ≠ none else s.GivenUp) := by
  have hstart : LifeInv opts owner (started opts owner key stream now ans) := by
    have hnew : Kept { opts, owner, link := { localKey := key, lastDemandMs := now, retryAtMs := now }, stream, now } :=
      ⟨howner, fun hl => absurd hl Bool.false_ne_true, fun hl => absurd hl Bool.false_ne_true, fun hne => absurd rfl hne, rfl,
        fun c hc => by cases hc⟩
    have hput : Kept (started opts owner key stream now ans) := hnew.put fun hl => (demand_claimed _ _ _).symm.trans hl
    exact ⟨hput, fun ht => absurd ht Bool.false_ne_true, rfl, rfl⟩
  have hinv := foldl_inv (step writerId fails) (EventOk writerId fails) (LifeInv opts owner)
    (fun _ e h hok => h.step writerId fails hcache e hok) events _ hstart hok
  dsimp only
  refine ⟨fun hl => ?_, hinv.bare, fun c hc => ?_, fun ht => ?_⟩
  · have hreg := hinv.registered hl
    rwa [hinv.id] at hreg
  · rw [← hinv.optsSame]
    exact hinv.idle c hc
  · have hgiven := hinv.timed ht
    split at hgiven
    · rename_i hgone
      rwa [if_pos hgone]
    · rename_i hgone
      rw [if_neg hgone]
      exact hgiven.1

def waitedFor : StreamKey := { key := "live/a".toList, stream := some { writers := [7] } }

def oneTrack : List (Name × PulledRendition) :=
  [("video".toList, { rendition := { kind := .video }, codec := "avc1".toList, config := [1, 2], usable := true })]

def pulledOnce : List (Nat × LifeEvent) :=
  [(100, .connected { now := 0 } true), (100, .catalog [0x7b, 0x7d] (some oneTrack)),
    (100, .frame "video".toList 0 { tsUs := 0, key := true, data := [9] })]

def pulledSilent : List (Nat × LifeEvent) := pulledOnce ++ [(40000, .timer { now := 0 })]

theorem pull_link_cycles_sample :
    let s := pulledSilent.foldl (step (fun _ => ['p']) fun _ _ => false)
      (started {} "cluster-pull:live/a#1".toList "live/a".toList waitedFor 1000 { now := 0 })
    s.bare = false ∧ s.idleCloses.length = 1 ∧ ∀ c ∈ s.idleCloses, ∃ t ∈ c.1, 30000 < c.2 - t := by
  have hrun := pull_link_cycles (fun _ => ['p']) (fun _ _ => false) {} "cluster-pull:live/a#1".toList "live/a".toList waitedFor
    1000 { now := 0 } pulledSilent (by decide) (by decide) (by decide +kernel)
  exact ⟨hrun.2.1, by decide +kernel, hrun.2.2.1⟩

/-- The session is closed, the last player goes, and the link is stopped; it is wanted again before it is taken out, and gets
its stream. -/
def pulledTwice : List (Nat × LifeEvent) :=
  pulledOnce ++ [(5000, .closed), (100, .elsewhere (.removePlayer 7)), (100, .timer { now := 0 }), (10, .demand { now := 0 })] ++
    pulledOnce

/-- **The headers are not sent to the stream of a second claim**: its cache has media and no sequence header. -/
theorem headers_not_sent :
    let s := pulledTwice.foldl (step (fun _ => ['p']) fun _ _ => false)
      (started {} "cluster-pull:live/a#1".toList "live/a".toList waitedFor 1000 { now := 0 })
    s.claimedAt = some 6710 ∧ s.bare = true ∧
      ∃ st ∈ s.stream.stream, st.cache.videoHdr = none ∧ st.cache.audioHdr = none ∧ st.cache.packets.length = 1 := by
  decide +kernel

end PullLife
end MoqLiveCast
