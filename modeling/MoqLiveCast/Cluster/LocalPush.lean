import Mathlib.Logic.Function.Basic
import MoqLiveCast.Cluster.Manager
import MoqLiveCast.Media.CatalogOwner
import MoqLiveCast.Media.PublishNotice
/-!
# LocalPush — a stream that is published here is pushed to the center

The edge is the manager beside the streams.

A link that has been stopped stays until its session is gone, and a catalog that comes meanwhile is taken by it
(`catalog_lost`).
-/
namespace MoqLiveCast

def StreamKey.Pushable (s : StreamKey) : Prop := s.exists_ = true ∧ s.getCatalogJson ≠ none

instance (s : StreamKey) : Decidable s.Pushable := by
  unfold StreamKey.Pushable
  infer_instance

namespace ClusterManager

def ActiveAt (m : ClusterManager) (key : Name) : Prop :=
  ∃ p ∈ OrdMap.find m.pushes key, p.stopped = false ∧ p.paused = false

def LingersAt (m : ClusterManager) (key : Name) : Prop := ∃ p ∈ OrdMap.find m.pushes key, p.stopped = true

instance (m : ClusterManager) (key : Name) : Decidable (m.ActiveAt key) := by
  unfold ActiveAt
  infer_instance

instance (m : ClusterManager) (key : Name) : Decidable (m.LingersAt key) := by
  unfold LingersAt
  infer_instance

end ClusterManager

structure ClusterEdge where
  manager : ClusterManager
  streams : Name → StreamKey

/-- What happens to the edge.  A pull link's call brings what it does to its stream. -/
inductive EdgeEvent where
  | stream (ans : Answers) (key : Name) (op : StreamOp)
  | ensurePulled (ans : Answers) (key wire : Name)
  | timer (pushAns pullAns : Name → Answers) (owners : Name → Name)
  | pushConnected (ans : Answers) (key : Name) (ok : Bool)
  | pushClosed (now : Int) (key : Name)
  | pull (ans : Answers) (key : Name) (c : PullCall) (ops : List StreamOp)

namespace ClusterEdge

/-- The writer of a push link: `WritePacket` never fails. -/
def pushWriter : Nat := 0

section

variable (writerId : Nat → Name) (w : ClusterEdge) (ans : Answers) (key : Name)

def found (ans : Answers) (s : StreamKey) : Answers :=
  { ans with hasPublisher := s.exists_, playerCount := ((s.stream.map (·.writers)).getD []).length,
             catalogJson := s.getCatalogJson.map (·.1) }

def setStream (s : StreamKey) : ClusterEdge := { w with streams := Function.update w.streams key s }

def attached (s : StreamKey) : StreamKey :=
  { s with inited := s.inited.filter (· ≠ pushWriter) }.step writerId (.addPlayer pushWriter fun _ _ => false)

def detached (s : StreamKey) : StreamKey := s.step writerId (.removePlayer pushWriter)

def hasWriter (m : ClusterManager) (key : Name) : Bool := (OrdMap.find m.pushes key).any (·.writerAdded)

def called (m : ClusterManager) : ClusterEdge :=
  let s := w.streams key
  let s := if hasWriter m key then if hasWriter w.manager key then s else attached writerId s
    else if hasWriter w.manager key then detached writerId s else s
  { w.setStream key s with manager := m }

/-- `catalog_updated_cbs_`, `OnUnpublish` and the play callback. -/
def streamCall (op : StreamOp) : ClusterEdge :=
  let s := w.streams key
  let w := w.setStream key (s.step writerId op)
  let ans := found ans (w.streams key)
  match op with
  | .addPlayer _ _ => if s.exists_ then w else w.called writerId key (w.manager.playerRequest ans key)
  | .setCatalog owner json => if CatalogKey.stores s owner json then w.called writerId key (w.manager.onCatalogUpdated ans key) else w
  | .removePublisher =>
    if s.stream.isSome ∧ '/' ∈ key then w.called writerId key (w.manager.onUnpublish ans key) else w
  | .release owner =>
    if s.isPublisherOwner owner ∧ '/' ∈ key then w.called writerId key (w.manager.onUnpublish ans key) else w
  | _ => w

/-- A push link that is stopped here takes its writer off before the players are counted. -/
def tickPush : ClusterEdge :=
  match OrdMap.find w.manager.pushes key with
  | none => w
  | some p =>
    let s := if p.writerAdded ∧ (p.onTick w.manager.opts ans).writerAdded = false then detached writerId (w.streams key)
      else w.streams key
    { w.setStream key s with manager := w.manager.tickPush (found ans s) key }

def givesUp (opts : ClusterOptions) (l : ClusterPullLink) : Bool :=
  let ticked := l.onTick opts ans
  l.claimed && (!ticked.claimed || ticked.fullyStopped ||
    !ticked.stopped && ans.playerCount = 0 && ClusterManager.kPullIdleDemandMs < ans.now - ticked.lastDemandMs)

def afterPull (owner : Name) (l : ClusterPullLink) : StreamKey :=
  let s := w.streams key
  if givesUp (found ans s) w.manager.opts l then (s.releasePublisher owner).1 else s

def tickPull (owner : Name) : ClusterEdge :=
  match OrdMap.find w.manager.pulls key with
  | none => w
  | some l =>
    let s := w.afterPull ans key owner l
    let ans := { found ans s with
      isOwner := (w.streams key).isPublisherOwner owner, playerCount := (found ans (w.streams key)).playerCount }
    (w.setStream key s).called writerId key (w.manager.tickPull ans key)

def pushesTicked (pushAns : Name → Answers) : ClusterEdge :=
  (w.manager.pushes.map Prod.fst).foldl (fun w key => w.tickPush writerId (pushAns key) key) w

def step (w : ClusterEdge) : EdgeEvent → ClusterEdge
  | .stream ans key op => w.streamCall writerId ans key op
  | .ensurePulled ans key wire =>
    { w with manager := (w.manager.ensurePulled (found ans (w.streams key)) key wire).1 }
  | .timer pushAns pullAns owners =>
    let w := w.pushesTicked writerId pushAns
    (w.manager.pulls.map Prod.fst).foldl (fun w key => w.tickPull writerId (pullAns key) key (owners key)) w
  | .pushConnected ans key ok =>
    w.called writerId key (w.manager.pushConnected (found ans (w.streams key)) key ok)
  | .pushClosed now key => w.called writerId key (w.manager.pushClosed key now)
  | .pull ans key c ops =>
    if w.manager.isPulled key then
      { w.setStream key ((w.streams key).run writerId ops) with manager := w.manager.pullCalled ans key c }
    else w

end

def started (opts : ClusterOptions) : ClusterEdge := ⟨{ enabled := true, opts }, fun key => { key }⟩

/-- **What is published here and not pulled is pushed.** -/
def Pushes (w : ClusterEdge) : Prop :=
  ∀ key, splitLocalKey key ≠ none → (w.streams key).Pushable → w.manager.isPulled key = false → w.manager.ActiveAt key

def comes : StreamOp → Bool
  | .addPublisher | .packet .. | .claim .. => true
  | _ => false

/-- **The condition on a call**: a publisher that comes to a key without one, which is not pulled, finds no catalog there or the
push link active, and a catalog that is stored finds no push link that has been stopped. -/
def CallOk (w : ClusterEdge) (key : Name) (op : StreamOp) : Prop :=
  let s := w.streams key
  splitLocalKey key ≠ none → w.manager.isPulled key = false →
    (comes op = true → s.exists_ = false → s.getCatalogJson ≠ none → w.manager.ActiveAt key) ∧
      match op with
      | .setCatalog owner json => s.exists_ = true → CatalogKey.stores s owner json = true → ¬w.manager.LingersAt key
      | _ => True

instance (w : ClusterEdge) (key : Name) (op : StreamOp) : Decidable (CallOk w key op) := by
  unfold CallOk
  cases op <;> infer_instance

/-- **The condition on a pull link's tick**: taken out, it leaves no publisher with a catalog to a push link that has been
stopped. -/
def TakenOutOk (pullAns : Name → Answers) (owners : Name → Name) (w : ClusterEdge) (key : Name) : Prop :=
  ∀ l ∈ OrdMap.find w.manager.pulls key, (l.onTick w.manager.opts (pullAns key)).fullyStopped = true →
    (w.afterPull (pullAns key) key (owners key) l).Pushable → ¬w.manager.LingersAt key

instance (pullAns : Name → Answers) (owners : Name → Name) (w : ClusterEdge) (key : Name) :
    Decidable (TakenOutOk pullAns owners w key) := by
  unfold TakenOutOk
  infer_instance

def EventOk (writerId : Nat → Name) (w : ClusterEdge) : EdgeEvent → Prop
  | .stream _ key op => CallOk w key op
  | .timer pushAns pullAns owners =>
    let w := w.pushesTicked writerId pushAns
    StepsOk (fun w key => w.tickPull writerId (pullAns key) key (owners key)) (TakenOutOk pullAns owners) w
      (w.manager.pulls.map Prod.fst)
  | _ => True

instance (writerId : Nat → Name) (w : ClusterEdge) (e : EdgeEvent) : Decidable (EventOk writerId w e) := by
  cases e <;> unfold EventOk <;> infer_instance

end ClusterEdge

/-! ## What the manager does for a key -/

namespace ClusterManager

/-- **Only the key's links change.** -/
structure OnlyKey (key : Name) (m m' : ClusterManager) : Prop where
  enabled : m'.enabled = m.enabled
  pushes : ∀ k, k ≠ key → OrdMap.find m'.pushes k = OrdMap.find m.pushes k
  pulls : ∀ k, k ≠ key → m'.isPulled k = m.isPulled k

variable {m m₁ m₂ : ClusterManager} {ans : Answers} {key : Name}

theorem OnlyKey.refl (m : ClusterManager) : OnlyKey key m m := ⟨rfl, fun _ _ => rfl, fun _ _ => rfl⟩

theorem OnlyKey.trans (h : OnlyKey key m m₁) (h' : OnlyKey key m₁ m₂) : OnlyKey key m m₂ where
  enabled := h'.enabled.trans h.enabled
  pushes k hk := (h'.pushes k hk).trans (h.pushes k hk)
  pulls k hk := (h'.pulls k hk).trans (h.pulls k hk)

theorem OnlyKey.putPush (m : ClusterManager) (key : Name) (p : ClusterPushLink) : OnlyKey key m (m.putPush key p) :=
  ⟨rfl, fun k hk => (find_putPush m key k p).trans (if_neg hk), fun _ _ => rfl⟩

theorem OnlyKey.putPull (m : ClusterManager) (key : Name) (l : ClusterPullLink) : OnlyKey key m (m.putPull key l) := by
  refine ⟨rfl, fun _ _ => rfl, fun k hk => ?_⟩
  rw [isPulled_putPull]
  simp [hk]

theorem OnlyKey.erasePush (m : ClusterManager) (key : Name) : OnlyKey key m { m with pushes := OrdMap.erase m.pushes key } := by
  refine ⟨rfl, fun k hk => ?_, fun _ _ => rfl⟩
  simp [hk]

theorem OnlyKey.erasePull (m : ClusterManager) (key : Name) (negativeCache : List (Name × Int)) :
    OnlyKey key m { m with negativeCache, pulls := OrdMap.erase m.pulls key } := by
  refine ⟨rfl, fun _ _ => rfl, fun k hk => ?_⟩
  unfold isPulled
  simp [hk]

theorem startPull_only (m : ClusterManager) : OnlyKey key m (m.startPull ans key).1 := by
  unfold startPull
  dsimp only
  split_ifs
  · exact .refl m
  · exact ⟨rfl, fun _ _ => rfl, fun _ _ => rfl⟩
  · have hcleared : OnlyKey key m { m with pullSeq := m.pullSeq + 1, negativeCache := OrdMap.erase m.negativeCache key } :=
      ⟨rfl, fun _ _ => rfl, fun _ _ => rfl⟩
    exact hcleared.trans (.putPull _ _ _)

theorem ensurePulled_only (m : ClusterManager) (wire : Name) : OnlyKey key m (m.ensurePulled ans key wire).1 := by
  unfold ensurePulled
  split
  · exact .refl m
  · split
    · exact .putPull _ _ _
    · split_ifs
      · exact .refl m
      · exact .refl m
      · exact startPull_only m

theorem playerRequest_only (m : ClusterManager) : OnlyKey key m (m.playerRequest ans key) := by
  unfold playerRequest
  split
  · exact ensurePulled_only m key
  · exact .refl m

theorem attachWriter_only (m : ClusterManager) (p : ClusterPushLink) : OnlyKey key m (m.attachWriter ans key p) := by
  have hasked : OnlyKey key m (if ans.hasPublisher then m else m.playerRequest ans key) := by
    split
    · exact .refl m
    · exact playerRequest_only m
  unfold attachWriter
  split
  · exact .refl m
  · dsimp only
    split
    · exact hasked.trans (.putPush _ _ _)
    · exact hasked

theorem startPush_only (m : ClusterManager) (json : List Byte) : OnlyKey key m (m.startPush ans key json) := by
  unfold startPush
  split
  · exact .refl m
  · split
    · exact OnlyKey.trans (.putPush _ _ _) (attachWriter_only _ _)
    · exact .putPush _ _ _

theorem onCatalogUpdated_only (m : ClusterManager) : OnlyKey key m (m.onCatalogUpdated ans key) := by
  unfold onCatalogUpdated
  split
  · exact .refl m
  · split
    · exact startPush_only m _
    · exact .refl m

theorem onUnpublish_only (m : ClusterManager) : OnlyKey key m (m.onUnpublish ans key) := by
  unfold onUnpublish
  split
  · exact .refl m
  · split
    · exact .putPush _ _ _
    · exact .refl m

theorem tickPush_only (m : ClusterManager) : OnlyKey key m (m.tickPush ans key) := by
  unfold tickPush
  split
  · exact .refl m
  · dsimp only
    split_ifs
    · exact (OnlyKey.erasePush m key).trans (ensurePulled_only _ key)
    · exact .erasePush m key
    · exact .putPush _ _ _

theorem releasePublisher_only (m : ClusterManager) : OnlyKey key m (m.releasePublisher ans key) := by
  unfold releasePublisher
  split
  · exact onUnpublish_only m
  · exact .refl m

theorem putStopping_only (m : ClusterManager) (before after : ClusterPullLink) :
    OnlyKey key m (m.putStopping ans key before after) := by
  unfold putStopping
  dsimp only
  split
  · exact (OnlyKey.putPull m key after).trans (releasePublisher_only _)
  · exact .putPull m key after

theorem erasePull_only (m : ClusterManager) (l : ClusterPullLink) : OnlyKey key m (m.erasePull ans key l) := by
  have hreleased : ∀ negativeCache, OnlyKey key m
      (if l.claimed then ClusterManager.releasePublisher { m with negativeCache, pulls := OrdMap.erase m.pulls key } ans key
        else { m with negativeCache, pulls := OrdMap.erase m.pulls key }) := by
    intro negativeCache
    split
    · exact (OnlyKey.erasePull m key negativeCache).trans (releasePublisher_only _)
    · exact .erasePull m key negativeCache
  unfold erasePull
  dsimp only
  split
  · split
    · exact (hreleased _).trans (startPush_only _ _)
    · exact hreleased _
  · exact hreleased _

theorem tickPull_only (m : ClusterManager) : OnlyKey key m (m.tickPull ans key) := by
  unfold tickPull
  split
  · exact .refl m
  · rename_i l _
    have hput : OnlyKey key m (m.putStopping ans key l (l.onTick m.opts ans)) := putStopping_only m l _
    dsimp only
    split_ifs
    · exact hput.trans (erasePull_only _ _)
    · exact hput.trans (putStopping_only _ _ _)
    · exact hput

theorem pushConnected_only (m : ClusterManager) (ok : Bool) : OnlyKey key m (m.pushConnected ans key ok) := by
  unfold pushConnected
  split
  · exact .refl m
  · dsimp only
    split
    · exact OnlyKey.trans (.putPush _ _ _) (attachWriter_only _ _)
    · exact .putPush _ _ _

theorem pushClosed_only (m : ClusterManager) (now : Int) : OnlyKey key m (m.pushClosed key now) := by
  unfold pushClosed
  split
  · exact .refl m
  · exact .putPush _ _ _

theorem pullCalled_only (m : ClusterManager) (c : PullCall) : OnlyKey key m (m.pullCalled ans key c) := by
  unfold pullCalled
  split
  · exact .refl m
  · exact .putPull _ _ _

/-! What becomes of the key's own links. -/

theorem find_putPush_self (m : ClusterManager) (key : Name) (p : ClusterPushLink) :
    OrdMap.find (m.putPush key p).pushes key = some p := (find_putPush m key key p).trans (if_pos rfl)

theorem ActiveAt.of_pushes {m' : ClusterManager} (h : m.ActiveAt key) (hpushes : m'.pushes = m.pushes) : m'.ActiveAt key := by
  unfold ActiveAt
  rw [hpushes]
  exact h

theorem startPull_at (m : ClusterManager) : (m.startPull ans key).1.pushes = m.pushes ∧
    (m.isPulled key = true → (m.startPull ans key).1.isPulled key = true) := by
  unfold startPull
  dsimp only
  split_ifs
  · exact ⟨rfl, id⟩
  · exact ⟨rfl, id⟩
  · exact ⟨rfl, fun _ => by simp [isPulled_putPull]⟩

theorem ensurePulled_at (ans : Answers) (key : Name) (m : ClusterManager) (wire : Name) : (m.ensurePulled ans key wire).1.pushes = m.pushes ∧
    (m.isPulled key = true → (m.ensurePulled ans key wire).1.isPulled key = true) := by
  unfold ensurePulled
  split
  · exact ⟨rfl, id⟩
  · split
    · exact ⟨rfl, fun _ => by simp [isPulled_putPull]⟩
    · split_ifs
      · exact ⟨rfl, id⟩
      · exact ⟨rfl, id⟩
      · exact startPull_at m

theorem playerRequest_at (m : ClusterManager) : (m.playerRequest ans key).pushes = m.pushes ∧
    (m.isPulled key = true → (m.playerRequest ans key).isPulled key = true) := by
  unfold playerRequest
  split
  · exact ensurePulled_at ans key m key
  · exact ⟨rfl, id⟩

theorem attachWriter_pulled {p : ClusterPushLink} (h : m.isPulled key = true) :
    (m.attachWriter ans key p).isPulled key = true := by
  have hasked : (if ans.hasPublisher then m else m.playerRequest ans key).isPulled key = true := by
    split
    · exact h
    · exact (playerRequest_at m).2 h
  unfold attachWriter
  split
  · exact h
  · dsimp only
    split <;> exact hasked

theorem Apart.attachWriter_active (h : Apart m) {p q : ClusterPushLink} (hp : OrdMap.find m.pushes key = some p)
    (hstopped : p.stopped = false) (hpaused : p.paused = false) : (m.attachWriter ans key q).ActiveAt key := by
  unfold ClusterManager.attachWriter
  split
  · exact ⟨p, hp, hstopped, hpaused⟩
  · rw [h.playerRequest_active hp hpaused, ite_self]
    simp only [hp]
    exact ⟨_, find_putPush_self _ _ _, hstopped, hpaused⟩

theorem Apart.startPush_active (h : Apart m) {json : List Byte} (henabled : m.enabled = true) (hjson : json ≠ [])
    (hpulled : m.isPulled key = false) (hkey : splitLocalKey key ≠ none) (hlingers : ¬m.LingersAt key) :
    (m.startPush ans key json).ActiveAt key := by
  have hgo : ¬(m.enabled = false ∨ json = [] ∨ m.isPulled key = true ∨ splitLocalKey key = none) := by
    simp [henabled, hjson, hpulled, hkey]
  unfold ClusterManager.startPush
  rw [if_neg hgo]
  split
  · rename_i p hp
    have hstopped : p.stopped = false := by
      cases hs : p.stopped with
      | false => rfl
      | true => exact absurd ⟨p, hp, hs⟩ hlingers
    have hresumed : Apart (m.putPush key (p.resume json)) :=
      h.putPush (fun hpaused => by cases hpaused) fun hpulled' => by simp [hpulled] at hpulled'
    exact hresumed.attachWriter_active (find_putPush_self _ _ _) hstopped rfl
  · refine ⟨_, find_putPush_self _ _ _, ?_⟩
    unfold ClusterPushLink.start ClusterPushLink.createSession
    dsimp only
    split_ifs <;> exact ⟨rfl, rfl⟩

theorem Apart.onCatalogUpdated_active (h : Apart m) {json : List Byte} (henabled : m.enabled = true) (hcatalog : ans.catalogJson =
    some json) (hjson : json ≠ []) (hkey : splitLocalKey key ≠ none) (hpulled : (m.onCatalogUpdated ans key).isPulled key = false)
    (hlingers : ¬m.LingersAt key) : (m.onCatalogUpdated ans key).ActiveAt key := by
  unfold ClusterManager.onCatalogUpdated at hpulled ⊢
  split at hpulled
  · rename_i hdone
    rcases hdone with hdone | hdone
    · simp [henabled] at hdone
    · simp [hdone] at hpulled
  · rename_i hgo
    simp only [hcatalog, if_neg hgo]
    exact h.startPush_active henabled hjson (Bool.eq_false_iff.mpr fun hp => hgo (.inr hp)) hkey hlingers

theorem onTick_active {opts : ClusterOptions} {p : ClusterPushLink} (hstopped : p.stopped = false) (hpaused : p.paused = false) :
    (p.onTick opts ans).stopped = false ∧ (p.onTick opts ans).paused = false := by
  have hfree : (p.freeSessionIfClosed opts ans.now).stopped = false ∧ (p.freeSessionIfClosed opts ans.now).paused = false := by
    unfold ClusterPushLink.freeSessionIfClosed
    dsimp only
    split_ifs <;> exact ⟨hstopped, hpaused⟩
  unfold ClusterPushLink.onTick
  simp only [hfree.2, Bool.false_eq_true, false_and, and_false, if_false]
  split
  · unfold ClusterPushLink.createSession
    dsimp only
    split_ifs <;> exact hfree
  · exact hfree

theorem tickPush_active (h : m.ActiveAt key) : (m.tickPush ans key).ActiveAt key := by
  obtain ⟨p, (hp : OrdMap.find m.pushes key = some p), hstopped, hpaused⟩ := h
  have hticked : (p.onTick m.opts ans).stopped = false ∧ (p.onTick m.opts ans).paused = false :=
    onTick_active hstopped hpaused
  unfold tickPush
  simp only [hp, ClusterPushLink.fullyStopped, hticked.1, Bool.false_and, Bool.false_eq_true, if_false]
  exact ⟨_, find_putPush_self _ _ _, hticked⟩

theorem tickPush_pulled (h : m.isPulled key = true) : (m.tickPush ans key).isPulled key = true := by
  unfold tickPush
  split
  · exact h
  · dsimp only
    split_ifs
    · exact (ensurePulled_at ans key { m with pushes := OrdMap.erase m.pushes key } key).2 h
    · exact h
    · exact h

theorem pushConnected_pulled {ok : Bool} (h : m.isPulled key = true) : (m.pushConnected ans key ok).isPulled key = true := by
  unfold pushConnected
  split
  · exact h
  · dsimp only
    split
    · exact attachWriter_pulled h
    · exact h

theorem Apart.pushConnected_active (hapart : Apart m) {ok : Bool} (h : m.ActiveAt key) :
    (m.pushConnected ans key ok).ActiveAt key := by
  obtain ⟨p, (hp : OrdMap.find m.pushes key = some p), hstopped, hpaused⟩ := h
  have hlink : (p.onSessionConnected ans ok).stopped = false ∧ (p.onSessionConnected ans ok).paused = false := by
    unfold ClusterPushLink.onSessionConnected ClusterPushLink.handleConnected
    split_ifs <;> exact ⟨hstopped, hpaused⟩
  have hput : Apart (m.putPush key (p.onSessionConnected ans ok)) :=
    hapart.keepPush hp (ClusterPushLink.keeps_onSessionConnected ok)
  unfold ClusterManager.pushConnected
  simp only [hp]
  split
  · exact hput.attachWriter_active (find_putPush_self _ _ _) hlink.1 hlink.2
  · exact ⟨_, find_putPush_self _ _ _, hlink⟩

theorem pushClosed_active {now : Int} (h : m.ActiveAt key) : (m.pushClosed key now).ActiveAt key := by
  obtain ⟨p, (hp : OrdMap.find m.pushes key = some p), hstopped, hpaused⟩ := h
  unfold pushClosed
  simp only [hp]
  exact ⟨_, find_putPush_self _ _ _, hstopped, hpaused⟩

/-! A pull link's tick. -/

theorem putStopping_pushes (m : ClusterManager) (before after : ClusterPullLink) :
    (m.putStopping ans key before after).pushes = m.pushes := by
  have hpulled : (m.putPull key after).isPulled key = true := by simp [isPulled_putPull]
  unfold putStopping releasePublisher onUnpublish
  simp only [hpulled, or_true, if_true, ite_self]
  rfl

theorem releasePublisher_at (ans : Answers) (key : Name) (m : ClusterManager) : ((m.releasePublisher ans key).LingersAt key → m.LingersAt key) ∧
    (m.releasePublisher ans key).isPulled key = m.isPulled key := by
  unfold releasePublisher onUnpublish
  split_ifs
  · exact ⟨id, rfl⟩
  · split
    · rename_i p hp
      refine ⟨?_, rfl⟩
      rintro ⟨q, hq, hstopped⟩
      rw [find_putPush_self] at hq
      obtain rfl := Option.some.inj hq
      refine ⟨p, hp, ?_⟩
      unfold ClusterPushLink.pause at hstopped
      split at hstopped <;> exact hstopped
    · exact ⟨id, rfl⟩
  · exact ⟨id, rfl⟩

theorem Apart.erasePull_active (h : Apart m) {l : ClusterPullLink} (henabled : m.enabled = true) {json : List Byte}
    (hpublisher : ans.hasPublisher = true) (hcatalog : ans.catalogJson = some json) (hjson : json ≠ [])
    (hkey : splitLocalKey key ≠ none) (hlingers : ¬m.LingersAt key) : (m.erasePull ans key l).ActiveAt key := by
  have hreleased : ∀ negativeCache,
      let m' : ClusterManager := { m with negativeCache, pulls := OrdMap.erase m.pulls key }
      let m' := if l.claimed then m'.releasePublisher ans key else m'
      Apart m' ∧ m'.enabled = true ∧ m'.isPulled key = false ∧ ¬m'.LingersAt key := by
    intro negativeCache
    have herased : Apart { m with negativeCache, pulls := OrdMap.erase m.pulls key } :=
      h.fewer (fun k p hp => hp) fun k hk => isPulled_of_erase hk
    have hnot : ({ m with negativeCache, pulls := OrdMap.erase m.pulls key } : ClusterManager).isPulled key = false := by
      simp [isPulled]
    dsimp only
    split
    · have hat := releasePublisher_at ans key { m with negativeCache, pulls := OrdMap.erase m.pulls key }
      exact ⟨herased.releasePublisher, (releasePublisher_only _).enabled.trans henabled, hat.2.trans hnot,
        fun hl => hlingers (hat.1 hl)⟩
    · exact ⟨herased, henabled, hnot, hlingers⟩
  unfold ClusterManager.erasePull
  simp only [hcatalog, hpublisher, if_true]
  obtain ⟨hapart, hen, hnot, hnone⟩ := hreleased (if l.acquireTimedOut ∧ 0 < m.opts.negativeCacheMs then
      OrdMap.put m.negativeCache key (ans.now + m.opts.negativeCacheMs) else m.negativeCache)
  exact hapart.startPush_active hen hjson hnot hkey hnone

end ClusterManager

/-! ## What becomes of a stream -/

namespace StreamKey

open ClusterEdge

variable {writerId : Nat → Name} {s : StreamKey}

theorem removePublisher_exists (s : StreamKey) : s.removePublisher.exists_ = false := by
  unfold removePublisher StreamKey.exists_
  cases h : s.stream with
  | none => simp [h]
  | some st =>
    dsimp only
    rw [notify_stream]
    split <;> rfl

theorem exists_step (op : StreamOp) (hop : comes op = false) (h : (s.step writerId op).exists_ = true) : s.exists_ = true := by
  cases op with
  | addPublisher => cases hop
  | packet p fails => cases hop
  | claim owner now => cases hop
  | addPlayer w fails =>
    have h : (s.addPlayer writerId fails w).exists_ = true := h
    rcases addPlayer_spec writerId fails s w with ⟨-, heq⟩ | ⟨-, hp⟩
    · rw [heq] at h
      cases h
    · exact hp.exists_.symm.trans h
  | removePlayer w => exact (removePlayer_players writerId s w).exists_.symm.trans h
  | removePublisher => exact absurd (s.removePublisher_exists.symm.trans h) (by decide)
  | release owner =>
    have h : (s.releasePublisher owner).1.exists_ = true := h
    rw [releasePublisher_eq] at h
    split at h
    · exact absurd (s.removePublisher_exists.symm.trans h) (by decide)
    · exact h
  | setCatalog owner json =>
    have h : (s.setCatalogJson owner json).1.exists_ = true := h
    unfold setCatalogJson at h
    split at h
    · exact h
    · rename_i st hst
      split_ifs at h
      · exact h
      · exact h
      · exact h
      · unfold StreamKey.exists_
        rw [hst]
        exact h

theorem catalog_step {op : StreamOp} (hop : ∀ owner json, op ≠ .setCatalog owner json)
    (h : (s.step writerId op).getCatalogJson ≠ none) : s.getCatalogJson ≠ none := by
  obtain ⟨⟨json, rev⟩, hjson⟩ := Option.ne_none_iff_exists'.1 h
  obtain ⟨st', hst', rfl, -, hne⟩ := CatalogKey.getCatalogJson_eq_some hjson
  rcases CatalogKey.step_catalog writerId s op hop hst' with ⟨hnil, -⟩ | ⟨st, hst, hcat, -⟩
  · exact absurd hnil hne
  · rw [CatalogKey.getCatalogJson_of hst (hcat ▸ hne)]
    exact Option.some_ne_none _

theorem pushable_step {op : StreamOp} (hop : ∀ owner json, op ≠ .setCatalog owner json) (h : (s.step writerId op).Pushable) :
    s.Pushable ∨ comes op = true ∧ s.exists_ = false ∧ s.getCatalogJson ≠ none := by
  have hcat := catalog_step hop h.2
  cases he : s.exists_ with
  | true => exact .inl ⟨he, hcat⟩
  | false =>
    refine .inr ⟨?_, rfl, hcat⟩
    cases hc : comes op with
    | true => rfl
    | false => exact absurd (he.symm.trans (exists_step op hc h.1)) (by decide)

theorem pushable_players (op : StreamOp) (hop : ∀ owner json, op ≠ .setCatalog owner json) (hcomes : comes op = false)
    (h : (s.step writerId op).Pushable) : s.Pushable := by
  rcases pushable_step hop h with h | ⟨hc, -⟩
  · exact h
  · exact absurd (hcomes.symm.trans hc) (by decide)

theorem setCatalog_unstored {owner : Name} {json : List Byte} (h : CatalogKey.stores s owner json = false) :
    (s.setCatalogJson owner json).1 = s := by
  unfold CatalogKey.stores setCatalogJson at h
  unfold setCatalogJson
  cases hst : s.stream with
  | none => rfl
  | some st =>
    simp only [hst, Option.any_some] at h ⊢
    split_ifs at h ⊢ <;> simp_all

end StreamKey

/-! ## Runs of the edge -/

namespace ClusterEdge

open ClusterManager

variable {writerId : Nat → Name} {w : ClusterEdge} {ans : Answers} {key : Name}

theorem called_streams (m : ClusterManager) {k : Name} (hk : k ≠ key) : (w.called writerId key m).streams k = w.streams k := by
  simp [called, setStream, hk]

theorem pushable_called {m : ClusterManager} (h : ((w.called writerId key m).streams key).Pushable) :
    (w.streams key).Pushable := by
  have hplayer : ∀ {s : StreamKey} {op : StreamOp}, (s.step writerId op).Pushable → (∀ owner json, op ≠ .setCatalog owner json) →
      comes op = false → s.Pushable := fun h hop hcomes => StreamKey.pushable_players _ hop hcomes h
  simp only [called, setStream, Function.update_self] at h
  split_ifs at h
  · exact h
  · have hcleared := hplayer (s := { w.streams key with inited := (w.streams key).inited.filter (· ≠ pushWriter) }) h
      (fun _ _ hop => StreamOp.noConfusion hop) rfl
    exact hcleared
  · exact hplayer h (fun _ _ hop => StreamOp.noConfusion hop) rfl
  · exact h

/-- **What an edge keeps over a run.** -/
structure Kept (w : ClusterEdge) : Prop where
  enabled : w.manager.enabled = true
  apart : Apart w.manager
  pushes : w.Pushes

theorem Kept.change {w' : ClusterEdge} (h : Kept w) (key : Name) (hmanager : OnlyKey key w.manager w'.manager)
    (hapart : Apart w'.manager) (hstreams : ∀ k, k ≠ key → w'.streams k = w.streams k) (hpushed : splitLocalKey key ≠ none →
    (w'.streams key).Pushable → w'.manager.isPulled key = false → w'.manager.ActiveAt key) : Kept w' := by
  refine ⟨hmanager.enabled.trans h.enabled, hapart, fun k hkey hpush hpulled => ?_⟩
  by_cases hk : k = key
  · subst hk
    exact hpushed hkey hpush hpulled
  · rw [hstreams k hk] at hpush
    rw [hmanager.pulls k hk] at hpulled
    obtain ⟨p, hp, hactive⟩ := h.pushes k hkey hpush hpulled
    exact ⟨p, (hmanager.pushes k hk).trans hp, hactive⟩

theorem Kept.called {m : ClusterManager} (h : Kept w) (hmanager : OnlyKey key w.manager m) (hapart : Apart m)
    (hpulled : w.manager.isPulled key = true → m.isPulled key = true)
    (hactive : w.manager.ActiveAt key → m.ActiveAt key) : Kept (w.called writerId key m) := by
  refine h.change key hmanager hapart (fun k hk => called_streams m hk) fun hkey hpush hnot => hactive ?_
  refine h.pushes key hkey (pushable_called hpush) ?_
  cases hp : w.manager.isPulled key with
  | false => rfl
  | true => exact absurd ((hpulled hp).symm.trans hnot) (by decide)

theorem Kept.setStream (h : Kept w) {s : StreamKey} (hpushed : splitLocalKey key ≠ none → s.Pushable →
    w.manager.isPulled key = false → w.manager.ActiveAt key) : Kept (w.setStream key s) := by
  refine h.change key (.refl _) h.apart (fun k hk => Function.update_of_ne hk _ _) fun hkey hpush hnot => ?_
  refine hpushed hkey ?_ hnot
  simpa [ClusterEdge.setStream] using hpush

theorem Kept.setCalled (h : Kept w) {s : StreamKey} {m : ClusterManager} (hmanager : OnlyKey key w.manager m) (hapart : Apart m)
    (hpushed : splitLocalKey key ≠ none → s.Pushable → m.isPulled key = false → m.ActiveAt key) :
    Kept ((w.setStream key s).called writerId key m) := by
  refine h.change key hmanager hapart (fun k hk => ?_) fun hkey hpush hnot => ?_
  · rw [called_streams m hk]
    simp [ClusterEdge.setStream, hk]
  · have hstream := pushable_called hpush
    exact hpushed hkey (by simpa [ClusterEdge.setStream] using hstream) hnot

theorem Kept.streamCall (h : Kept w) {op : StreamOp} (hok : CallOk w key op) : Kept (w.streamCall writerId ans key op) := by
  have hplain : ∀ {op : StreamOp}, CallOk w key op → (∀ owner json, op ≠ .setCatalog owner json) →
      Kept (w.setStream key ((w.streams key).step writerId op)) := by
    intro op hok hop
    refine h.setStream fun hkey hpush hnot => ?_
    rcases StreamKey.pushable_step hop hpush with hpush | ⟨hcomes, hnone, hcat⟩
    · exact h.pushes key hkey hpush hnot
    · exact (hok hkey hnot).1 hcomes hnone hcat
  cases op with
  | removePlayer v => exact hplain hok fun _ _ hop => StreamOp.noConfusion hop
  | addPublisher => exact hplain hok fun _ _ hop => StreamOp.noConfusion hop
  | claim owner now => exact hplain hok fun _ _ hop => StreamOp.noConfusion hop
  | packet p fails => exact hplain hok fun _ _ hop => StreamOp.noConfusion hop
  | addPlayer v fails =>
    unfold ClusterEdge.streamCall
    dsimp only
    split
    · exact hplain hok fun _ _ hop => StreamOp.noConfusion hop
    · rename_i hnone
      refine h.setCalled (playerRequest_only _) h.apart.playerRequest fun _ hpush _ => ?_
      exact absurd (StreamKey.exists_step (.addPlayer v fails) rfl hpush.1) hnone
  | removePublisher =>
    unfold ClusterEdge.streamCall
    dsimp only
    split
    · refine h.setCalled (onUnpublish_only _) h.apart.onUnpublish fun _ hpush _ => ?_
      exact absurd ((w.streams key).removePublisher_exists.symm.trans hpush.1) (by decide)
    · exact hplain hok fun _ _ hop => StreamOp.noConfusion hop
  | release owner =>
    unfold ClusterEdge.streamCall
    dsimp only
    split
    · rename_i howner
      refine h.setCalled (onUnpublish_only _) h.apart.onUnpublish fun _ hpush _ => ?_
      have hexists : ((w.streams key).releasePublisher owner).1.exists_ = true := hpush.1
      rw [StreamKey.releasePublisher_eq, if_pos howner.1] at hexists
      exact absurd ((w.streams key).removePublisher_exists.symm.trans hexists) (by decide)
    · exact hplain hok fun _ _ hop => StreamOp.noConfusion hop
  | setCatalog owner json =>
    unfold ClusterEdge.streamCall
    dsimp only
    split
    · rename_i hstores
      refine h.setCalled (onCatalogUpdated_only _) h.apart.onCatalogUpdated fun hkey hpush hnot => ?_
      obtain ⟨⟨json', rev⟩, hcat⟩ := Option.ne_none_iff_exists'.1 hpush.2
      obtain ⟨-, -, -, -, hne⟩ := CatalogKey.getCatalogJson_eq_some hcat
      have hexists := StreamKey.exists_step (.setCatalog owner json) rfl hpush.1
      have hbefore : w.manager.isPulled key = false := by
        cases hp : w.manager.isPulled key with
        | false => rfl
        | true =>
          simp [onCatalogUpdated, ClusterEdge.setStream, hp] at hnot
      refine h.apart.onCatalogUpdated_active h.enabled ?_ hne hkey hnot ((hok hkey hbefore).2 hexists hstores)
      simp [found, ClusterEdge.setStream, hcat]
    · rename_i hstores
      refine h.setStream fun hkey hpush hnot => h.pushes key hkey ?_ hnot
      have hsame : (w.streams key).step writerId (.setCatalog owner json) = w.streams key :=
        StreamKey.setCatalog_unstored (Bool.eq_false_iff.mpr hstores)
      rwa [hsame] at hpush

/-! The timer. -/

theorem Kept.tickPush (h : Kept w) : Kept (w.tickPush writerId ans key) := by
  unfold ClusterEdge.tickPush
  split
  · exact h
  · dsimp only
    refine h.change key (tickPush_only _) h.apart.tickPush (fun k hk => Function.update_of_ne hk _ _)
      fun hkey hpush hnot => tickPush_active ?_
    refine h.pushes key hkey ?_ ?_
    · simp only [ClusterEdge.setStream, Function.update_self] at hpush
      split at hpush
      · exact StreamKey.pushable_players (.removePlayer pushWriter) (fun _ _ hop => StreamOp.noConfusion hop) rfl hpush
      · exact hpush
    · cases hp : w.manager.isPulled key with
      | false => rfl
      | true => exact absurd ((tickPush_pulled hp).symm.trans hnot) (by decide)

theorem Kept.pushesTicked (h : Kept w) (pushAns : Name → Answers) : Kept (w.pushesTicked writerId pushAns) :=
  List.foldlRecOn _ _ h fun _ h _ _ => h.tickPush

theorem Kept.tickPull (h : Kept w) {pullAns : Name → Answers} {owners : Name → Name} (hok : TakenOutOk pullAns owners w key) :
    Kept (w.tickPull writerId (pullAns key) key (owners key)) := by
  unfold ClusterEdge.tickPull
  split
  · exact h
  · rename_i l hl
    refine h.setCalled (tickPull_only _) h.apart.tickPull fun hkey hpush hnot => ?_
    have hpulled : w.manager.isPulled key = true := Option.isSome_iff_exists.mpr ⟨l, hl⟩
    obtain ⟨⟨json, rev⟩, hcat⟩ := Option.ne_none_iff_exists'.1 hpush.2
    obtain ⟨-, -, -, -, hne⟩ := CatalogKey.getCatalogJson_eq_some hcat
    unfold ClusterManager.tickPull at hnot ⊢
    simp only [hl] at hnot ⊢
    split at hnot
    · rename_i hstopped
      rw [if_pos hstopped]
      refine (h.apart.putStopping hpulled _ _).erasePull_active
        ((putStopping_only _ _ _).enabled.trans h.enabled) hpush.1 (by simp [found, hcat]) hne hkey fun hlingers => ?_
      refine hok l hl hstopped hpush ?_
      unfold LingersAt at hlingers ⊢
      rwa [putStopping_pushes] at hlingers
    · split at hnot
      · rw [isPulled_putStopping] at hnot
        cases hnot
      · rw [isPulled_putStopping] at hnot
        cases hnot

theorem Kept.step (h : Kept w) (e : EdgeEvent) (hok : EventOk writerId w e) : Kept (w.step writerId e) := by
  cases e with
  | stream ans key op => exact h.streamCall hok
  | ensurePulled ans key wire =>
    have hat := ensurePulled_at (found ans (w.streams key)) key w.manager wire
    refine h.change key (ensurePulled_only _ _) (h.apart.ensurePulled wire) (fun _ _ => rfl) fun hkey hpush hnot => ?_
    refine ActiveAt.of_pushes (h.pushes key hkey hpush ?_) hat.1
    cases hp : w.manager.isPulled key with
    | false => rfl
    | true => exact absurd ((hat.2 hp).symm.trans hnot) (by decide)
  | timer pushAns pullAns owners =>
    exact foldl_inv _ _ Kept (fun _ _ h hok => h.tickPull hok) _ _ (h.pushesTicked pushAns) hok
  | pushConnected ans key ok =>
    exact h.called (pushConnected_only _ _) (h.apart.pushConnected ok) pushConnected_pulled h.apart.pushConnected_active
  | pushClosed now key =>
    have hapart : Apart (w.manager.pushClosed key now) := h.apart.step (.pushClosed now key)
    refine h.called (pushClosed_only _ _) hapart (fun hp => ?_) pushClosed_active
    unfold ClusterManager.pushClosed
    split <;> exact hp
  | pull ans key c ops =>
    unfold ClusterEdge.step
    dsimp only
    split
    · rename_i hpulled
      have hapart : Apart (w.manager.pullCalled ans key c) := h.apart.step (.pull ans key c)
      refine h.change key (pullCalled_only _ _) hapart (fun k hk => Function.update_of_ne hk _ _) fun _ _ hnot => ?_
      have hstays : (w.manager.pullCalled ans key c).isPulled key = true := by
        unfold ClusterManager.pullCalled
        split
        · exact hpulled
        · simp [isPulled_putPull]
      exact absurd (hstays.symm.trans hnot) (by decide)
    · exact h

/-- **A local stream is pushed**: after every run whose events meet the condition, a stream with a publisher and a catalog that
is not pulled has a push link that is neither stopped nor paused. -/
theorem local_stream_pushed (writerId : Nat → Name) (opts : ClusterOptions) (events : List EdgeEvent) (key : Name)
    (hok : StepsOk (step writerId) (EventOk writerId) (started opts) events) (hkey : splitLocalKey key ≠ none) :
    let w := events.foldl (step writerId) (started opts)
    (w.streams key).Pushable → w.manager.isPulled key = false → w.manager.ActiveAt key := by
  have hstart : Kept (started opts) := ⟨rfl, fun k p hp => (by cases hp), fun k _ hpush _ => absurd hpush.1 Bool.false_ne_true⟩
  have hkept := foldl_inv (step writerId) (EventOk writerId) Kept (fun _ e h hok => h.step e hok) events _ hstart hok
  exact hkept.pushes key hkey

def writerNames (n : Nat) : Name := if n = pushWriter then "cluster-push:live/a".toList else "player".toList

def publishedOnce : List EdgeEvent :=
  let key : Name := "live/a".toList
  [.stream { now := 1000 } key (.claim ['a'] 1000), .stream { now := 1000 } key (.setCatalog ['a'] [0x7b, 0x7d]),
    .pushConnected { now := 1010 } key true, .stream { now := 2000 } key (.release ['a'])]

def publishedAgain : List EdgeEvent :=
  let key : Name := "live/a".toList
  publishedOnce ++ [.stream { now := 5000 } key (.claim ['b'] 5000),
    .stream { now := 5000 } key (.setCatalog ['b'] [0x7b, 0x20, 0x7d])]

theorem local_stream_pushed_sample : (publishedAgain.foldl (step writerNames) (started {})).manager.ActiveAt "live/a".toList :=
  local_stream_pushed writerNames {} publishedAgain "live/a".toList (by decide +kernel) (by decide) (by decide +kernel)
    (by decide +kernel)

def publishedLate : List EdgeEvent :=
  let key : Name := "live/a".toList
  publishedOnce ++ [.timer (fun _ => { now := 32500 }) (fun _ => { now := 32500 }) (fun _ => []),
    .stream { now := 32550 } key (.claim ['b'] 32550), .stream { now := 32550 } key (.setCatalog ['b'] [0x7b, 0x20, 0x7d]),
    .pushClosed 32600 key, .timer (fun _ => { now := 33000 }) (fun _ => { now := 33000 }) (fun _ => [])]

/-- **A catalog that comes while a stopped link closes is lost**: the link takes it, and is taken out at the next tick.  The
stream has its publisher and catalog, and no push link. -/
theorem catalog_lost :
    let key : Name := "live/a".toList
    let w := publishedLate.foldl (step writerNames) (started {})
    splitLocalKey key ≠ none ∧ (w.streams key).Pushable ∧ w.manager.isPulled key = false ∧
      OrdMap.find w.manager.pushes key = none ∧ ¬w.manager.ActiveAt key := by
  decide +kernel

end ClusterEdge
end MoqLiveCast
