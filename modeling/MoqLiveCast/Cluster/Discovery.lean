import MoqLiveCast.Cluster.Links
/-!
# Discovery — the directory of the center's broadcasts (`cluster/cluster_discovery.cpp`)

An edge has one session with the center that is asked for its announcements, and tells the manager which broadcasts come and
go.  The session is closed asynchronously, as a link's is (`Links`): the library calls back for a session that is open, and says
once that it is closed; a tick after that frees it, and another one opens the next.
-/
namespace MoqLiveCast

open OrdMap

/-! ## Notices -/

section Notices

variable {κ : Type} [DecidableEq κ]

/-- Whether a key is there after some notices: its last one counts. -/
def listed (told : List (κ × Bool)) (k : κ) : Bool := told.foldl (fun v n => if n.1 = k then n.2 else v) false

/-- **Every notice tells something new.** -/
def EachNew (told : List (κ × Bool)) : Prop := ∀ pre n post, told = pre ++ n :: post → listed pre n.1 = !n.2

variable {told : List (κ × Bool)}

theorem listed_snoc (n : κ × Bool) (k : κ) : listed (told ++ [n]) k = if n.1 = k then n.2 else listed told k := by
  unfold listed
  rw [List.foldl_append]
  rfl

theorem EachNew.snoc (h : EachNew told) {n : κ × Bool} (hn : listed told n.1 = !n.2) : EachNew (told ++ [n]) := by
  intro pre m post heq
  rcases List.eq_nil_or_concat post with rfl | ⟨post, l, rfl⟩
  · obtain ⟨rfl, hm⟩ := List.append_inj' heq rfl
    rw [← List.singleton_inj.1 hm]
    exact hn
  · rw [List.concat_eq_append, ← List.cons_append, ← List.append_assoc] at heq
    exact h pre m post (List.append_inj' heq rfl).1

theorem EachNew.withdraw : ∀ {ks : List κ} {told : List (κ × Bool)}, EachNew told → ks.Nodup → (∀ k ∈ ks, listed told k = true) →
    EachNew (told ++ ks.map fun k => (k, false)) ∧
      ∀ k, listed (told ++ ks.map fun k => (k, false)) k = (listed told k && decide (k ∉ ks))
  | [], told, h, _, _ => by simpa using h
  | k :: ks, told, h, hnodup, hall => by
    obtain ⟨hk, hrest⟩ := List.nodup_cons.1 hnodup
    have hlist : ∀ j ∈ ks, listed (told ++ [(k, false)]) j = true := by
      intro j hj
      rw [listed_snoc, if_neg fun heq : k = j => hk (heq ▸ hj)]
      exact hall j (List.mem_cons_of_mem _ hj)
    have ih := EachNew.withdraw (h.snoc (hall k List.mem_cons_self)) hrest hlist
    rw [List.append_assoc] at ih
    refine ⟨ih.1, fun j => (ih.2 j).trans ?_⟩
    rw [listed_snoc]
    by_cases hj : k = j
    · simp [hj]
    · simp [hj, Ne.symm hj]

end Notices

/-! ## `ClusterDiscovery` -/

/-- `known` is a set, and `told` what the sink was told. -/
structure ClusterDiscovery where
  session : Bool := false
  connecting : Bool := false
  stopped : Bool := false
  closePending : Bool := false
  sessionDead : Bool := false
  freeAtMs : Int := 0
  retryAtMs : Int := 0
  attempt : Nat := 0
  known : List (Name × Unit) := []
  bcPaths : List (Nat × Name) := []
  told : List (Name × Bool) := []
deriving DecidableEq

namespace ClusterDiscovery

variable (opts : ClusterOptions) (ans : Answers) (d : ClusterDiscovery)

def kDiscovery : Name := "discovery".toList

def createSession : ClusterDiscovery :=
  if d.session ∨ d.stopped then d
  else
    let retryAtMs := ans.now + clusterBackoffMs opts d.attempt kDiscovery ans.now
    if ans.sessionNew = false then { d with retryAtMs }
    else if ans.connect = false then
      { d with session := true, connecting := false, closePending := true, freeAtMs := ans.now + kFreeDelayMs, retryAtMs }
    else { d with session := true, connecting := true }

def start : ClusterDiscovery :=
  if d.stopped = false ∧ d.session then d
  else
    let d := { d with stopped := false }
    if d.session = false ∧ d.connecting = false then d.createSession opts ans else d

def clearKnown : ClusterDiscovery := { d with known := [], told := d.told ++ d.known.map fun e => (e.1, false) }

/-- `OnConnected`; a connection that fails, and an announcement that cannot be asked for, close the session. -/
def onConnected (ok : Bool) : ClusterDiscovery :=
  if d.stopped then d
  else if ok = false then { d with connecting := false }
  else { d with connecting := false, attempt := 0 }

def handleClosed (now : Int) : ClusterDiscovery :=
  { clearKnown { d with connecting := false, sessionDead := true, closePending := true, freeAtMs := now + kFreeDelayMs } with bcPaths := [] }

def freeSessionIfClosed (now : Int) : ClusterDiscovery :=
  if d.session = false ∨ d.closePending = false ∨ d.sessionDead = false ∨ now < d.freeAtMs then d
  else
    let d := { d with session := false, sessionDead := false, closePending := false, bcPaths := [] }
    if d.stopped then d
    else { d with attempt := d.attempt + 1, retryAtMs := now + clusterBackoffMs opts (d.attempt + 1) kDiscovery now }

def onTick : ClusterDiscovery :=
  let d := d.freeSessionIfClosed opts ans.now
  if d.stopped = false ∧ d.session = false ∧ d.connecting = false ∧ d.retryAtMs ≤ ans.now then d.createSession opts ans else d

def stop : ClusterDiscovery := if d.stopped then d else { clearKnown { d with stopped := true } with connecting := false }

def onAnnounce (bc : Nat) (path : Name) : ClusterDiscovery :=
  if d.stopped ∨ path = [] then d
  else
    let d := { d with bcPaths := put d.bcPaths bc path }
    if (find d.known path).isSome then d
    else { d with known := put d.known path (), told := d.told ++ [(path, true)] }

def onAnnounceEnd (bc : Nat) : ClusterDiscovery :=
  if d.stopped then d
  else
    match find d.bcPaths bc with
    | none => d
    | some path =>
      let d := { d with bcPaths := erase d.bcPaths bc }
      if (find d.known path).isSome then { d with known := erase d.known path, told := d.told ++ [(path, false)] } else d

end ClusterDiscovery

inductive DiscoveryEvent where
  | start (ans : Answers)
  | stop
  | tick (ans : Answers)
  | connected (ok : Bool)
  | closed (now : Int)
  | announce (bc : Nat) (path : Name)
  | announceEnd (bc : Nat)

namespace ClusterDiscovery

/-- The library calls back for a session there is and that is not closed yet. -/
def whileOpen (d : ClusterDiscovery) (f : ClusterDiscovery → ClusterDiscovery) : ClusterDiscovery :=
  if d.session ∧ d.sessionDead = false then f d else d

def step (opts : ClusterOptions) (d : ClusterDiscovery) : DiscoveryEvent → ClusterDiscovery
  | .start ans => d.start opts ans
  | .stop => d.stop
  | .tick ans => d.onTick opts ans
  | .connected ok => d.whileOpen (·.onConnected ok)
  | .closed now => d.whileOpen (·.handleClosed now)
  | .announce bc path => d.whileOpen (·.onAnnounce bc path)
  | .announceEnd bc => d.whileOpen (·.onAnnounceEnd bc)

/-- What is left of a directory that was made at `made`. -/
def run (opts : ClusterOptions) (made : Int) (events : List DiscoveryEvent) : ClusterDiscovery :=
  events.foldl (step opts) { retryAtMs := made }

/-! ## What every run keeps -/

/-- The sink has been told what is known; nothing is known, and nothing is due, without a session that is open. -/
structure Kept (d : ClusterDiscovery) : Prop where
  ordered : Ordered d.known
  eachNew : EachNew d.told
  seen : ∀ path, listed d.told path = (find d.known path).isSome
  away : d.session = false →
    d.connecting = false ∧ d.sessionDead = false ∧ d.closePending = false ∧ d.known = [] ∧ d.bcPaths = []
  dead : d.sessionDead = true → d.closePending = true ∧ d.connecting = false ∧ d.known = [] ∧ d.bcPaths = []
  stopped : d.stopped = true → d.known = []

variable {d : ClusterDiscovery}

theorem Kept.open (hsession : d.session = true) (hdead : d.sessionDead = false) (hrun : d.stopped = false)
    (ordered : Ordered d.known) (eachNew : EachNew d.told)
    (seen : ∀ path, listed d.told path = (find d.known path).isSome) : Kept d :=
  ⟨ordered, eachNew, seen, fun hx => absurd (hx.symm.trans hsession) (by decide),
    fun hx => absurd (hx.symm.trans hdead) (by decide), fun hx => absurd (hx.symm.trans hrun) (by decide)⟩

theorem Kept.clearKnown (h : Kept d) : EachNew d.clearKnown.told ∧ ∀ path, listed d.clearKnown.told path = false := by
  have hmap : d.clearKnown.told = d.told ++ (d.known.map Prod.fst).map fun k => (k, false) := by
    rw [List.map_map]
    rfl
  have hin : ∀ k ∈ d.known.map Prod.fst, listed d.told k = true := by
    intro k hk
    obtain ⟨e, he, rfl⟩ := List.mem_map.1 hk
    obtain ⟨u, hu⟩ := find_of_mem_keys he
    rw [h.seen, hu]
    rfl
  obtain ⟨hnew, hlist⟩ := h.eachNew.withdraw h.ordered.nodup hin
  rw [hmap]
  refine ⟨hnew, fun path => ?_⟩
  rw [hlist, h.seen]
  cases hf : find d.known path with
  | none => rfl
  | some u => simpa using ⟨u, mem_of_find hf⟩

theorem Kept.createSession (h : Kept d) (opts : ClusterOptions) (ans : Answers) : Kept (d.createSession opts ans) := by
  obtain ⟨ho, hn, hs, ha, hd, hst⟩ := h
  unfold ClusterDiscovery.createSession
  dsimp only
  split
  · exact ⟨ho, hn, hs, ha, hd, hst⟩
  · rename_i hno
    obtain ⟨-, hdead, -⟩ := ha (by simpa using fun h => hno (.inl h))
    split
    · exact ⟨ho, hn, hs, ha, hd, hst⟩
    · split <;> exact ⟨ho, hn, hs, nofun, fun hx => absurd (hx.symm.trans hdead) (by decide), hst⟩

theorem Kept.freeSessionIfClosed (h : Kept d) (opts : ClusterOptions) (now : Int) : Kept (d.freeSessionIfClosed opts now) := by
  unfold ClusterDiscovery.freeSessionIfClosed
  split
  · exact h
  · rename_i hno
    obtain ⟨-, hc, hk, -⟩ := h.dead (by simp only [not_or, Bool.not_eq_false] at hno; exact hno.2.2.1)
    dsimp only
    split <;> exact ⟨h.ordered, h.eachNew, h.seen, fun _ => ⟨hc, rfl, rfl, hk, rfl⟩, nofun, h.stopped⟩

theorem Kept.stop (h : Kept d) : Kept d.stop := by
  obtain ⟨hnew, hlist⟩ := h.clearKnown
  unfold ClusterDiscovery.stop
  split
  · exact h
  · refine ⟨List.Pairwise.nil, hnew, hlist, fun hx => ?_, fun hx => ?_, fun _ => rfl⟩
    · obtain ⟨-, hdead, hclose, -, hpaths⟩ := h.away hx
      exact ⟨rfl, hdead, hclose, rfl, hpaths⟩
    · obtain ⟨hclose, -, -, hpaths⟩ := h.dead hx
      exact ⟨hclose, rfl, rfl, hpaths⟩

theorem Kept.handleClosed (h : Kept d) (hsession : d.session = true) (now : Int) : Kept (d.handleClosed now) := by
  obtain ⟨hnew, hlist⟩ := h.clearKnown
  exact ⟨List.Pairwise.nil, hnew, hlist, fun hx => absurd (hx.symm.trans hsession) (by decide), fun _ => ⟨rfl, rfl, rfl, rfl⟩, fun _ => rfl⟩

section Open

variable (h : Kept d) (hsession : d.session = true) (hdead : d.sessionDead = false)
include h hsession hdead

theorem Kept.onConnected (ok : Bool) : Kept (d.onConnected ok) := by
  have hopen : ∀ d' : ClusterDiscovery, d'.session = d.session → d'.sessionDead = d.sessionDead → d'.stopped = d.stopped →
      d'.known = d.known → d'.told = d.told → Kept d' := by
    intro d' hs hd hst hk ht
    exact ⟨hk ▸ h.ordered, ht ▸ h.eachNew, by rw [ht, hk]; exact h.seen, fun hx => by simp [hs, hsession] at hx,
      fun hx => by simp [hd, hdead] at hx, fun hx => hk.trans (h.stopped (hst.symm.trans hx))⟩
  unfold ClusterDiscovery.onConnected
  split
  · exact h
  · split <;> exact hopen _ rfl rfl rfl rfl rfl

theorem Kept.onAnnounce (bc : Nat) (path : Name) : Kept (d.onAnnounce bc path) := by
  unfold ClusterDiscovery.onAnnounce
  split
  · exact h
  · rename_i hno
    have hrun : d.stopped = false := by simpa using fun hx => hno (.inl hx)
    dsimp only
    split
    · exact .open hsession hdead hrun h.ordered h.eachNew h.seen
    · rename_i hnew
      have habsent : listed d.told path = false := by
        rw [h.seen]
        simpa using hnew
      refine .open hsession hdead hrun (h.ordered.put path ()) (h.eachNew.snoc habsent) fun p => ?_
      rw [listed_snoc, find_put, h.seen]
      by_cases hp : path = p
      · simp [hp]
      · simp [hp, Ne.symm hp]

theorem Kept.onAnnounceEnd (bc : Nat) : Kept (d.onAnnounceEnd bc) := by
  unfold ClusterDiscovery.onAnnounceEnd
  split
  · exact h
  · rename_i hno
    have hrun : d.stopped = false := by simpa using hno
    split
    · exact h
    · rename_i path _
      dsimp only
      split
      · rename_i hthere
        have hlisted : listed d.told path = true := (h.seen path).trans hthere
        refine .open hsession hdead hrun (h.ordered.filter _) (h.eachNew.snoc hlisted) fun p => ?_
        rw [listed_snoc, find_erase, h.seen]
        by_cases hp : path = p
        · simp [hp]
        · simp [hp, Ne.symm hp]
      · exact .open hsession hdead hrun h.ordered h.eachNew h.seen

end Open

theorem Kept.whileOpen (h : Kept d) (f : ClusterDiscovery → ClusterDiscovery)
    (hf : d.session = true → d.sessionDead = false → Kept (f d)) : Kept (d.whileOpen f) := by
  unfold ClusterDiscovery.whileOpen
  split
  · rename_i ho
    exact hf ho.1 ho.2
  · exact h

theorem Kept.step (h : Kept d) (opts : ClusterOptions) (e : DiscoveryEvent) : Kept (d.step opts e) := by
  cases e with
  | start ans =>
    have hagain : Kept { d with stopped := false } := ⟨h.ordered, h.eachNew, h.seen, h.away, h.dead, nofun⟩
    show Kept (d.start opts ans)
    unfold ClusterDiscovery.start
    split
    · exact h
    · dsimp only
      split
      · exact hagain.createSession opts ans
      · exact hagain
  | stop => exact h.stop
  | tick ans =>
    have hfreed := h.freeSessionIfClosed opts ans.now
    show Kept (d.onTick opts ans)
    unfold ClusterDiscovery.onTick
    dsimp only
    split
    · exact hfreed.createSession opts ans
    · exact hfreed
  | connected ok => exact h.whileOpen (·.onConnected ok) fun hs hd => h.onConnected hs hd ok
  | closed now => exact h.whileOpen (·.handleClosed now) fun hs _ => h.handleClosed hs now
  | announce bc path => exact h.whileOpen (·.onAnnounce bc path) fun hs hd => h.onAnnounce hs hd bc path
  | announceEnd bc => exact h.whileOpen (·.onAnnounceEnd bc) fun hs hd => h.onAnnounceEnd hs hd bc

theorem kept_run (opts : ClusterOptions) (made : Int) (events : List DiscoveryEvent) : Kept (run opts made events) :=
  foldl_inv (step opts) (fun _ _ => True) Kept (fun _ e h _ => h.step opts e) events _
    ⟨List.Pairwise.nil, fun pre n post heq => (by cases pre <;> cases heq), fun _ => rfl, fun _ => ⟨rfl, rfl, rfl, rfl, rfl⟩, nofun, nofun⟩
    (stepsOk_of_forall _ _ _ _ fun _ _ _ => trivial)

/-- **The sink's view is the directory's**, whatever the library calls back and whenever the directory is stopped and started: of each
path it was told what is known now, every notice was new to it, and nothing is known without a session that is open. -/
theorem directory_told (opts : ClusterOptions) (made : Int) (events : List DiscoveryEvent) : (∀ path, listed (run opts made
    events).told path = (find (run opts made events).known path).isSome) ∧ EachNew (run opts made events).told ∧
    ((run opts made events).known ≠ [] → (run opts made events).session = true ∧ (run opts made events).sessionDead = false ∧
    (run opts made events).stopped = false) := by
  have h := kept_run opts made events
  refine ⟨h.seen, h.eachNew, fun hk => ⟨?_, ?_, ?_⟩⟩
  · exact eq_true_of_ne_false fun hx => hk (h.away hx).2.2.2.1
  · exact eq_false_of_ne_true fun hx => hk (h.dead hx).2.2.1
  · exact eq_false_of_ne_true fun hx => hk (h.stopped hx)

end ClusterDiscovery
end MoqLiveCast
