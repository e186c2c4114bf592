import MoqLiveCast.Cluster.Links
/-!
# Manager — an edge's links with the center (`cluster/cluster_manager.cpp`)

A stream that is published here is pushed to the center, and one that is wanted and not published here is pulled from
it. A push link stays for a while after its publisher has gone, paused; the stream may be pulled meanwhile, and it is
not pushed before the pull link has been taken out: `no_replication_loop`.

Attaching a push link's writer asks for a player's stream, so the manager is called again in the middle of it
(`attachWriter`).
-/
namespace MoqLiveCast

structure ClusterManager where
  enabled : Bool := true
  opts : ClusterOptions := {}
  pushes : List (Name × ClusterPushLink) := []
  pulls : List (Name × ClusterPullLink) := []
  negativeCache : List (Name × Int) := []
  pullSeq : Nat := 0

/-- `SplitLocalKey`: a slash with something before and behind it. -/
def splitLocalKey (key : Name) : Option (Name × Name) :=
  let app := key.takeWhile (· ≠ '/')
  let stream := (key.dropWhile (· ≠ '/')).drop 1
  if app = [] ∨ stream = [] then none else some (app, stream)

namespace ClusterManager

variable (m : ClusterManager) (ans : Answers) (key : Name)

def isPulled : Bool := (OrdMap.find m.pulls key).isSome

def putPush (p : ClusterPushLink) : ClusterManager := { m with pushes := OrdMap.put m.pushes key p }

def putPull (l : ClusterPullLink) : ClusterManager := { m with pulls := OrdMap.put m.pulls key l }

/-- A new pull link, unless the key has been given up or there are too many. -/
def startPull : ClusterManager × Bool :=
  if ∃ expire ∈ OrdMap.find m.negativeCache key, ans.now < expire then (m, false)
  else
    let m := { m with negativeCache := OrdMap.erase m.negativeCache key }
    if m.opts.maxPullConnections ≤ m.pulls.length then (m, false)
    else
      let l : ClusterPullLink := { localKey := key, lastDemandMs := ans.now, retryAtMs := ans.now }
      ({ m with pullSeq := m.pullSeq + 1 }.putPull key (l.start m.opts ans), true)

def ensurePulled (wire : Name) : ClusterManager × Bool :=
  if m.enabled = false ∨ wire = [] then (m, false)
  else
    match OrdMap.find m.pulls key with
    | some l =>
      let l := l.touchDemand ans.now
      (m.putPull key (if l.stopped then l.start m.opts ans else l), true)
    | none =>
      if ∃ p ∈ OrdMap.find m.pushes key, p.paused = false then (m, false)
      else if ans.hasPublisher then (m, true)
      else m.startPull ans key

def playerRequest : ClusterManager := if m.enabled then (m.ensurePulled ans key key).1 else m

/-- `AttachWriter`: `AddPlayer` calls for the stream when it has no publisher. -/
def attachWriter (p : ClusterPushLink) : ClusterManager :=
  if p.writerAdded ∨ p.linked = false then m
  else
    let m := if ans.hasPublisher then m else m.playerRequest ans key
    match OrdMap.find m.pushes key with
    | some p => m.putPush key { p with writerAdded := true }
    | none => m

def startPush (catalogJson : List Byte) : ClusterManager :=
  if m.enabled = false ∨ catalogJson = [] ∨ m.isPulled key ∨ splitLocalKey key = none then m
  else
    match OrdMap.find m.pushes key with
    | some p =>
      let p := p.resume catalogJson
      (m.putPush key p).attachWriter ans key p
    | none => m.putPush key (ClusterPushLink.start m.opts ans { localKey := key, catalogJson, retryAtMs := ans.now })

def onCatalogUpdated : ClusterManager :=
  if m.enabled = false ∨ m.isPulled key then m
  else
    match ans.catalogJson with
    | some json => m.startPush ans key json
    | none => m

def onUnpublish : ClusterManager :=
  if m.enabled = false ∨ m.isPulled key then m
  else
    match OrdMap.find m.pushes key with
    | some p => m.putPush key (p.pause ans.now)
    | none => m

/-! ## The timer -/

/-- A push link's tick.  With players left and no publisher, the stream is pulled instead. -/
def tickPush : ClusterManager :=
  match OrdMap.find m.pushes key with
  | none => m
  | some p =>
    let p := p.onTick m.opts ans
    if p.fullyStopped then
      let m := { m with pushes := OrdMap.erase m.pushes key }
      if 0 < ans.playerCount ∧ ans.hasPublisher = false then (m.ensurePulled ans key key).1 else m
    else m.putPush key p

def kPullIdleDemandMs : Int := 5000

/-- A pull link gives up its claim: if it is the publisher, the stream is unpublished. -/
def releasePublisher : ClusterManager := if ans.isOwner ∧ '/' ∈ key then m.onUnpublish ans key else m

def putStopping (before after : ClusterPullLink) : ClusterManager :=
  let m := m.putPull key after
  if before.claimed ∧ after.claimed = false then m.releasePublisher ans key else m

/-- A pull link that has fully stopped is taken out; a key it could not get is given up for a while.  A publisher that took
over while it was there is pushed now. -/
def erasePull (l : ClusterPullLink) : ClusterManager :=
  let negativeCache :=
    if l.acquireTimedOut ∧ 0 < m.opts.negativeCacheMs then
      OrdMap.put m.negativeCache key (ans.now + m.opts.negativeCacheMs)
    else m.negativeCache
  let m := { m with negativeCache, pulls := OrdMap.erase m.pulls key }
  let m := if l.claimed then m.releasePublisher ans key else m
  match ans.catalogJson with
  | some json => if ans.hasPublisher then m.startPush ans key json else m
  | none => m

def tickPull : ClusterManager :=
  match OrdMap.find m.pulls key with
  | none => m
  | some l =>
    let ticked := l.onTick m.opts ans
    let m := m.putStopping ans key l ticked
    if ticked.fullyStopped then m.erasePull ans key ticked
    else if ticked.stopped = false ∧ ans.playerCount = 0 ∧ kPullIdleDemandMs < ans.now - ticked.lastDemandMs then
      m.putStopping ans key ticked ticked.stop
    else m

def onTimer (pushAns pullAns : Name → Answers) : ClusterManager :=
  let m := (m.pushes.map Prod.fst).foldl (fun m key => m.tickPush (pushAns key) key) m
  (m.pulls.map Prod.fst).foldl (fun m key => m.tickPull (pullAns key) key) m

/-! ## The links' callbacks -/

def pushConnected (ok : Bool) : ClusterManager :=
  match OrdMap.find m.pushes key with
  | none => m
  | some p =>
    let p' := p.onSessionConnected ans ok
    let m := m.putPush key p'
    if p.stopped = false ∧ ok ∧ ans.broadcast ∧ p'.paused = false then m.attachWriter ans key p' else m

def pushClosed (now : Int) : ClusterManager :=
  match OrdMap.find m.pushes key with
  | none => m
  | some p => m.putPush key (p.handleClosed now)

/-- Claiming the stream and telling its catalog call the manager too, while the key is pulled. -/
def pullCalled (c : PullCall) : ClusterManager :=
  match OrdMap.find m.pulls key with
  | none => m
  | some l => m.putPull key (l.call ans c)

def start (catalogs : List (Name × List Byte)) (pushAns : Name → Answers) : ClusterManager :=
  if m.enabled then catalogs.foldl (fun m e => m.startPush (pushAns e.1) e.1 e.2) m else m

def shutdown : ClusterManager := { m with enabled := false, pushes := [], pulls := [], negativeCache := [] }

/-- What the manager is called with.  A local stream that is published brings a catalog update. -/
inductive Event where
  | start (catalogs : List (Name × List Byte)) (pushAns : Name → Answers)
  | catalogUpdated (ans : Answers) (key : Name)
  | unpublish (ans : Answers) (key : Name)
  | ensurePulled (ans : Answers) (key wire : Name)
  | playerRequest (ans : Answers) (key : Name)
  | timer (pushAns pullAns : Name → Answers)
  | pushConnected (ans : Answers) (key : Name) (ok : Bool)
  | pushClosed (now : Int) (key : Name)
  | pull (ans : Answers) (key : Name) (c : PullCall)
  | shutdown

def step (m : ClusterManager) : Event → ClusterManager
  | .start catalogs pushAns => m.start catalogs pushAns
  | .catalogUpdated ans key => m.onCatalogUpdated ans key
  | .unpublish ans key => m.onUnpublish ans key
  | .ensurePulled ans key wire => (m.ensurePulled ans key wire).1
  | .playerRequest ans key => m.playerRequest ans key
  | .timer pushAns pullAns => m.onTimer pushAns pullAns
  | .pushConnected ans key ok => m.pushConnected ans key ok
  | .pushClosed now key => m.pushClosed key now
  | .pull ans key c => m.pullCalled ans key c
  | .shutdown => m.shutdown

/-! ## Pushed or pulled -/

/-- **A key that is pulled has its push link paused, and no paused link has its writer attached.** -/
def Apart (m : ClusterManager) : Prop :=
  ∀ key p, OrdMap.find m.pushes key = some p → p.Quiet ∧ (m.isPulled key = true → p.paused = true)

end ClusterManager

/-- A link that is paused or not as before, and has a writer only if it had. -/
def ClusterPushLink.Keeps (p p' : ClusterPushLink) : Prop :=
  p'.paused = p.paused ∧ (p'.writerAdded = true → p.writerAdded = true)

namespace ClusterPushLink

variable {opts : ClusterOptions} {ans : Answers} {p p' p'' : ClusterPushLink}

theorem Keeps.trans (h : p.Keeps p') (h' : p'.Keeps p'') : p.Keeps p'' := ⟨h'.1.trans h.1, fun hw => h.2 (h'.2 hw)⟩

theorem Keeps.quiet (h : p.Keeps p') (hq : p.Quiet) : p'.Quiet := by
  intro hpaused
  have hw := hq (h.1 ▸ hpaused)
  cases hadded : p'.writerAdded with
  | false => rfl
  | true => exact absurd ((h.2 hadded).symm.trans hw) (by decide)

theorem keeps_createSession : p.Keeps (p.createSession opts ans) := by
  unfold createSession
  split_ifs <;> exact ⟨rfl, id⟩

theorem keeps_start : p.Keeps (p.start opts ans) := by
  unfold start
  split
  · exact ⟨rfl, id⟩
  · exact keeps_createSession

theorem keeps_stop : p.Keeps p.stop := by
  unfold stop
  split
  · exact ⟨rfl, id⟩
  · exact ⟨rfl, fun h => by cases h⟩

theorem keeps_onSessionConnected (ok : Bool) : p.Keeps (p.onSessionConnected ans ok) := by
  unfold onSessionConnected handleConnected
  split_ifs <;> exact ⟨rfl, id⟩

theorem keeps_handleClosed (now : Int) : p.Keeps (p.handleClosed now) := ⟨rfl, fun h => by cases h⟩

theorem keeps_freeSessionIfClosed (now : Int) : p.Keeps (p.freeSessionIfClosed opts now) := by
  unfold freeSessionIfClosed
  dsimp only
  split_ifs <;> exact ⟨rfl, id⟩

theorem keeps_onTick : p.Keeps (p.onTick opts ans) := by
  have hfree : p.Keeps (p.freeSessionIfClosed opts ans.now) := keeps_freeSessionIfClosed ans.now
  unfold onTick
  dsimp only
  split_ifs
  · exact (hfree.trans keeps_stop).trans keeps_createSession
  · exact hfree.trans keeps_stop
  · exact hfree.trans keeps_createSession
  · exact hfree

theorem quiet_pause (hq : p.Quiet) (now : Int) : (p.pause now).Quiet ∧ (p.pause now).paused = true := by
  unfold pause
  split
  · rename_i h
    exact ⟨hq, h⟩
  · exact ⟨fun _ => rfl, rfl⟩

end ClusterPushLink

namespace ClusterManager

variable {m : ClusterManager} {ans : Answers} {key : Name} {p : ClusterPushLink}

@[simp] theorem isPulled_putPush (m : ClusterManager) (key k : Name) (p : ClusterPushLink) :
    (m.putPush key p).isPulled k = m.isPulled k := rfl

theorem find_putPush (m : ClusterManager) (key k : Name) (p : ClusterPushLink) :
    OrdMap.find (m.putPush key p).pushes k = if k = key then some p else OrdMap.find m.pushes k := OrdMap.find_put _ _ _ _

theorem isPulled_putPull (m : ClusterManager) (key k : Name) (l : ClusterPullLink) :
    (m.putPull key l).isPulled k = (decide (k = key) || m.isPulled k) := by
  unfold isPulled putPull
  rw [OrdMap.find_put]
  by_cases hk : k = key <;> simp [hk]

theorem Apart.putPush (h : Apart m) (hq : p.Quiet) (hpaused : m.isPulled key = true → p.paused = true) :
    Apart (m.putPush key p) := by
  intro k p' hp'
  rw [find_putPush] at hp'
  rw [isPulled_putPush]
  split at hp'
  · rename_i hk
    subst hk
    obtain rfl := Option.some.inj hp'
    exact ⟨hq, hpaused⟩
  · exact h k p' hp'

theorem Apart.keepPush (h : Apart m) {p' : ClusterPushLink} (hp : OrdMap.find m.pushes key = some p) (hkeeps : p.Keeps p') :
    Apart (m.putPush key p') :=
  h.putPush (hkeeps.quiet (h key p hp).1) fun hpulled => hkeeps.1.trans ((h key p hp).2 hpulled)

theorem Apart.putPull (h : Apart m) (l : ClusterPullLink) (hpaused : ∀ p ∈ OrdMap.find m.pushes key, p.paused = true) :
    Apart (m.putPull key l) := by
  intro k p hp
  refine ⟨(h k p hp).1, fun hpulled => ?_⟩
  rw [isPulled_putPull, Bool.or_eq_true, decide_eq_true_eq] at hpulled
  rcases hpulled with rfl | hpulled
  · exact hpaused p hp
  · exact (h k p hp).2 hpulled

theorem Apart.keepPull (h : Apart m) (hpulled : m.isPulled key = true) (l : ClusterPullLink) : Apart (m.putPull key l) :=
  h.putPull l fun p hp => (h key p hp).2 hpulled

theorem Apart.fewer (h : Apart m) {m' : ClusterManager} (hpushes : ∀ k p, OrdMap.find m'.pushes k = some p →
    OrdMap.find m.pushes k = some p) (hpulls : ∀ k, m'.isPulled k = true → m.isPulled k = true) : Apart m' :=
  fun k p hp => ⟨(h k p (hpushes k p hp)).1, fun hpulled => (h k p (hpushes k p hp)).2 (hpulls k hpulled)⟩

theorem find_of_erase {α : Type} {l : List (Name × α)} {k : Name} {a : α} (h : OrdMap.find (OrdMap.erase l key) k = some a) :
    OrdMap.find l k = some a := by
  rw [OrdMap.find_erase] at h
  split at h
  · cases h
  · exact h

theorem isPulled_of_erase {k : Name} (h : ({ m with pulls := OrdMap.erase m.pulls key } : ClusterManager).isPulled k = true) :
    m.isPulled k = true := by
  obtain ⟨l, hl⟩ := Option.isSome_iff_exists.mp h
  exact Option.isSome_iff_exists.mpr ⟨l, find_of_erase hl⟩

/-! What each call keeps. -/

theorem Apart.startPull (h : Apart m) (hpaused : ∀ p ∈ OrdMap.find m.pushes key, p.paused = true) :
    Apart (m.startPull ans key).1 := by
  unfold ClusterManager.startPull
  split
  · exact h
  · dsimp only
    split
    · exact h
    · exact Apart.putPull (m := { m with pullSeq := m.pullSeq + 1, negativeCache := _ }) h _ hpaused

theorem Apart.ensurePulled (h : Apart m) (wire : Name) : Apart (m.ensurePulled ans key wire).1 := by
  unfold ClusterManager.ensurePulled
  split
  · exact h
  · split
    · rename_i l hl
      exact h.keepPull (Option.isSome_iff_exists.mpr ⟨l, hl⟩) _
    · split
      · exact h
      · rename_i hactive
        split
        · exact h
        · refine h.startPull fun p hp => ?_
          cases hpaused : p.paused with
          | true => rfl
          | false => exact absurd ⟨p, hp, hpaused⟩ hactive

theorem Apart.playerRequest (h : Apart m) : Apart (m.playerRequest ans key) := by
  unfold ClusterManager.playerRequest
  split
  · exact h.ensurePulled key
  · exact h

theorem Apart.playerRequest_active (h : Apart m) (hp : OrdMap.find m.pushes key = some p) (hactive : p.paused = false) :
    m.playerRequest ans key = m := by
  have hnone : OrdMap.find m.pulls key = none := by
    cases hl : OrdMap.find m.pulls key with
    | none => rfl
    | some l => exact absurd ((h key p hp).2 (Option.isSome_iff_exists.mpr ⟨l, hl⟩)) (by simp [hactive])
  have hfound : ∃ p ∈ OrdMap.find m.pushes key, p.paused = false := ⟨p, hp, hactive⟩
  unfold ClusterManager.playerRequest ClusterManager.ensurePulled
  simp only [hnone, hfound, if_true]
  split_ifs <;> rfl

theorem Apart.attachWriter (h : Apart m) (hp : OrdMap.find m.pushes key = some p) (hactive : p.paused = false) :
    Apart (m.attachWriter ans key p) := by
  unfold ClusterManager.attachWriter
  split
  · exact h
  · rw [h.playerRequest_active hp hactive, ite_self]
    simp only [hp]
    refine h.putPush (fun hpaused => ?_) fun hpulled => (h key p hp).2 hpulled
    exact absurd (hpaused.symm.trans hactive) (by decide)

theorem Apart.startPush (h : Apart m) (json : List Byte) : Apart (m.startPush ans key json) := by
  unfold ClusterManager.startPush
  split
  · exact h
  · rename_i hfree
    have hnot : m.isPulled key ≠ true := fun hpulled => hfree (.inr (.inr (.inl hpulled)))
    split
    · rename_i p hp
      have hresumed : Apart (m.putPush key (p.resume json)) :=
        h.putPush (fun hpaused => by cases hpaused) fun hpulled => absurd hpulled hnot
      exact hresumed.attachWriter ((find_putPush _ _ _ _).trans (if_pos rfl)) rfl
    · refine h.putPush (ClusterPushLink.keeps_start.quiet fun _ => rfl) fun hpulled => absurd hpulled hnot

theorem Apart.onCatalogUpdated (h : Apart m) : Apart (m.onCatalogUpdated ans key) := by
  unfold ClusterManager.onCatalogUpdated
  split
  · exact h
  · split
    · exact h.startPush _
    · exact h

theorem Apart.onUnpublish (h : Apart m) : Apart (m.onUnpublish ans key) := by
  unfold ClusterManager.onUnpublish
  split
  · exact h
  · split
    · rename_i p hp
      obtain ⟨hquiet, hpaused⟩ := ClusterPushLink.quiet_pause (h key p hp).1 ans.now
      exact h.putPush hquiet fun _ => hpaused
    · exact h

theorem Apart.releasePublisher (h : Apart m) : Apart (m.releasePublisher ans key) := by
  unfold ClusterManager.releasePublisher
  split
  · exact h.onUnpublish
  · exact h

theorem Apart.putStopping (h : Apart m) (hpulled : m.isPulled key = true) (before after : ClusterPullLink) :
    Apart (m.putStopping ans key before after) := by
  unfold ClusterManager.putStopping
  dsimp only
  split
  · exact (h.keepPull hpulled after).releasePublisher
  · exact h.keepPull hpulled after

theorem Apart.tickPush (h : Apart m) : Apart (m.tickPush ans key) := by
  unfold ClusterManager.tickPush
  split
  · exact h
  · rename_i p hp
    dsimp only
    split
    · have herased : Apart { m with pushes := OrdMap.erase m.pushes key } :=
        h.fewer (fun k q hq => find_of_erase hq) fun k hk => hk
      split
      · exact herased.ensurePulled key
      · exact herased
    · exact h.keepPush hp ClusterPushLink.keeps_onTick

theorem isPulled_putStopping (m : ClusterManager) (before after : ClusterPullLink) :
    (m.putStopping ans key before after).isPulled key = true := by
  have hput : (m.putPull key after).isPulled key = true := by simp [isPulled_putPull]
  unfold ClusterManager.putStopping ClusterManager.releasePublisher ClusterManager.onUnpublish
  dsimp only
  split_ifs with _ _ hdone
  · exact hput
  · exact absurd (.inr hput) hdone
  · exact hput
  · exact hput

theorem Apart.erasePull (h : Apart m) (l : ClusterPullLink) : Apart (m.erasePull ans key l) := by
  have herased : ∀ negativeCache, Apart { m with negativeCache, pulls := OrdMap.erase m.pulls key } := fun negativeCache =>
    h.fewer (fun k p hp => hp) fun k hk => isPulled_of_erase hk
  have hreleased : ∀ {m : ClusterManager}, Apart m → Apart (if l.claimed then m.releasePublisher ans key else m) := by
    intro m h
    split
    · exact h.releasePublisher
    · exact h
  unfold ClusterManager.erasePull
  dsimp only
  split
  · split
    · exact (hreleased (herased _)).startPush _
    · exact hreleased (herased _)
  · exact hreleased (herased _)

theorem Apart.tickPull (h : Apart m) : Apart (m.tickPull ans key) := by
  unfold ClusterManager.tickPull
  split
  · exact h
  · rename_i l hl
    have hpulled : m.isPulled key = true := Option.isSome_iff_exists.mpr ⟨l, hl⟩
    have hput : Apart (m.putStopping ans key l (l.onTick m.opts ans)) := h.putStopping hpulled l _
    dsimp only
    split
    · exact hput.erasePull _
    · split
      · exact hput.putStopping (isPulled_putStopping m _ _) _ _
      · exact hput

theorem Apart.onTimer (h : Apart m) (pushAns pullAns : Name → Answers) : Apart (m.onTimer pushAns pullAns) := by
  have hpushes : Apart ((m.pushes.map Prod.fst).foldl (fun m key => m.tickPush (pushAns key) key) m) :=
    List.foldlRecOn _ _ h fun _ h _ _ => h.tickPush
  exact List.foldlRecOn _ _ hpushes fun _ h _ _ => h.tickPull

theorem Apart.pushConnected (h : Apart m) (ok : Bool) : Apart (m.pushConnected ans key ok) := by
  unfold ClusterManager.pushConnected
  split
  · exact h
  · rename_i p hp
    have hput : Apart (m.putPush key (p.onSessionConnected ans ok)) :=
      h.keepPush hp (ClusterPushLink.keeps_onSessionConnected ok)
    dsimp only
    split
    · rename_i hconnected
      exact hput.attachWriter ((find_putPush _ _ _ _).trans (if_pos rfl)) hconnected.2.2.2
    · exact hput

theorem Apart.start (h : Apart m) (catalogs : List (Name × List Byte)) (pushAns : Name → Answers) :
    Apart (m.start catalogs pushAns) := by
  unfold ClusterManager.start
  split
  · exact List.foldlRecOn _ _ h fun _ h e _ => h.startPush e.2
  · exact h

theorem Apart.step (h : Apart m) (e : Event) : Apart (m.step e) := by
  cases e with
  | start catalogs pushAns => exact h.start catalogs pushAns
  | catalogUpdated ans key => exact h.onCatalogUpdated
  | unpublish ans key => exact h.onUnpublish
  | ensurePulled ans key wire => exact h.ensurePulled wire
  | playerRequest ans key => exact h.playerRequest
  | timer pushAns pullAns => exact h.onTimer pushAns pullAns
  | pushConnected ans key ok => exact h.pushConnected ok
  | pushClosed now key =>
    show Apart (m.pushClosed key now)
    unfold ClusterManager.pushClosed
    split
    · exact h
    · rename_i p hp
      exact h.keepPush hp (ClusterPushLink.keeps_handleClosed now)
  | pull ans key c =>
    show Apart (m.pullCalled ans key c)
    unfold ClusterManager.pullCalled
    split
    · exact h
    · rename_i l hl
      exact h.keepPull (Option.isSome_iff_exists.mpr ⟨l, hl⟩) _
  | shutdown => exact fun k p hp => by cases hp

/-- **No replication loop**: in every state of every run, a key that has a pull link has its push link, if any, paused and
without its writer. -/
theorem no_replication_loop (opts : ClusterOptions) (enabled : Bool) (events : List Event) (key : Name) (p : ClusterPushLink)
    (l : ClusterPullLink) (hp : OrdMap.find (events.foldl step { enabled, opts }).pushes key = some p)
    (hl : OrdMap.find (events.foldl step { enabled, opts }).pulls key = some l) : p.paused = true ∧ p.writerAdded = false := by
  have hstart : Apart { enabled, opts } := fun k p hp => by cases hp
  have hapart : Apart (events.foldl step { enabled, opts }) := List.foldlRecOn _ _ hstart fun _ h e _ => h.step e
  obtain ⟨hquiet, hpaused⟩ := hapart key p hp
  have hpaused := hpaused (Option.isSome_iff_exists.mpr ⟨l, hl⟩)
  exact ⟨hpaused, hquiet hpaused⟩

/-- A stream is published, pushed and unpublished; a player asks for it within the time its link is kept. -/
def pulledAfterUnpublish : List Event :=
  let key : Name := "live/a".toList
  [.catalogUpdated { now := 1000, hasPublisher := true, catalogJson := some [0x7b, 0x7d] } key,
    .pushConnected { now := 1010, hasPublisher := true } key true, .unpublish { now := 2000 } key,
    .playerRequest { now := 2500, playerCount := 1 } key]

theorem no_replication_loop_sample :
    ∃ p l, OrdMap.find (pulledAfterUnpublish.foldl step { enabled := true, opts := {} }).pushes "live/a".toList = some p ∧
      OrdMap.find (pulledAfterUnpublish.foldl step { enabled := true, opts := {} }).pulls "live/a".toList = some l ∧
        p.paused = true ∧ p.writerAdded = false := by
  have hp : (OrdMap.find (pulledAfterUnpublish.foldl step { enabled := true, opts := {} }).pushes "live/a".toList).isSome := by
    decide +kernel
  have hl : (OrdMap.find (pulledAfterUnpublish.foldl step { enabled := true, opts := {} }).pulls "live/a".toList).isSome := by
    decide +kernel
  obtain ⟨p, hp⟩ := Option.isSome_iff_exists.mp hp
  obtain ⟨l, hl⟩ := Option.isSome_iff_exists.mp hl
  exact ⟨p, l, hp, hl, no_replication_loop {} true pulledAfterUnpublish "live/a".toList p l hp hl⟩

end ClusterManager
end MoqLiveCast
