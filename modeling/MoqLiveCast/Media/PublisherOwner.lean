import MoqLiveCast.Lib.Run
import MoqLiveCast.Media.StreamSteps
/-!
# PublisherOwner — when a key has one publisher

An entry without an owner is everybody's. The owner's release leaves such an entry behind when players are there, and a
player or a packet makes one; then every session that ever claimed the key passes for its publisher
(`displaced_owner_returns`).
-/
namespace MoqLiveCast

open StreamKey

structure SessionId where
  id : Name
  ne : id ≠ []
deriving DecidableEq

/-- The key, the sessions that ever claimed it, and those displaced by a take-over since their last claim. -/
structure OwnedKey where
  key : StreamKey
  claimants : List SessionId := []
  displaced : List SessionId := []

inductive OwnerOp where
  | claim (x : SessionId) (now : Int)
  | release (x : SessionId)
  | addPlayer (w : Nat) (fails : Nat → MediaPacket → Bool)
  | removePlayer (w : Nat)
  | packet (p : MediaPacket) (fails : Nat → MediaPacket → Bool)
  | addPublisher
  | removePublisher

namespace OwnedKey

def ownerOf (s : StreamKey) (claimants : List SessionId) : List SessionId :=
  claimants.filter fun y => s.stream.any fun st => st.publisherId = y.id

def claimed (o : OwnedKey) (x : SessionId) (now : Int) : OwnedKey :=
  let r := o.key.claimPublisher x.id now
  match r.2 with
  | .rejected => { o with key := r.1 }
  | .takeOver => ⟨r.1, x :: o.claimants, (ownerOf o.key o.claimants ++ o.displaced).filter fun y => y ≠ x⟩
  | _ => ⟨r.1, x :: o.claimants, o.displaced.filter fun y => y ≠ x⟩

def step (writerId : Nat → Name) (o : OwnedKey) : OwnerOp → OwnedKey
  | .claim x now => o.claimed x now
  | .release x => { o with key := (o.key.releasePublisher x.id).1 }
  | .addPlayer w fails => { o with key := o.key.addPlayer writerId fails w }
  | .removePlayer w => { o with key := o.key.removePlayer writerId w }
  | .packet p fails => { o with key := o.key.writerMediaPacket writerId fails p }
  | .addPublisher => { o with key := o.key.addPublisher }
  | .removePublisher => { o with key := o.key.removePublisher }

def run (writerId : Nat → Name) (o : OwnedKey) (ops : List OwnerOp) : OwnedKey := ops.foldl (step writerId) o

def hasPlayers (s : StreamKey) : Prop := ∃ st, s.stream = some st ∧ st.writers ≠ []

/-- **The call leaves an entry without an owner**: the publisher goes and players stay, or an entry is made by other than a
claim. -/
def LeavesOwnerless (o : OwnedKey) : OwnerOp → Prop
  | .claim _ _ => False
  | .release x => hasPlayers o.key ∧ o.key.isPublisherOwner x.id = true
  | .addPlayer _ _ => o.key.stream = none
  | .removePlayer _ => False
  | .packet _ _ => o.key.stream = none
  | .addPublisher => o.key.stream = none
  | .removePublisher => hasPlayers o.key

def OwnedOk (o : OwnedKey) (op : OwnerOp) : Prop := LeavesOwnerless o op → ∀ x ∈ o.claimants, ∀ y ∈ o.claimants, x = y

/-- **One publisher**: of the sessions that claimed at most one passes for the owner, none that was displaced does, and a
release by one that was displaced changes nothing. -/
structure OnePublisher (o : OwnedKey) : Prop where
  one : ∀ x ∈ o.claimants, ∀ y ∈ o.claimants, o.key.isPublisherOwner x.id = true → o.key.isPublisherOwner y.id = true → x = y
  displaced : ∀ x ∈ o.displaced, o.key.isPublisherOwner x.id = false
  release : ∀ x ∈ o.displaced, (o.key.releasePublisher x.id).1 = o.key

/-- An entry has an owner who claimed and was not displaced, unless at most one session has claimed. -/
structure OwnerInv (o : OwnedKey) : Prop where
  owned : ∀ st, o.key.stream = some st → st.publisherId ≠ [] →
    (∃ x ∈ o.claimants, x.id = st.publisherId) ∧ ∀ x ∈ o.displaced, x.id ≠ st.publisherId
  ownerless : ∀ st, o.key.stream = some st → st.publisherId = [] → ∀ x ∈ o.claimants, ∀ y ∈ o.claimants, x = y
  displaced : ∀ x ∈ o.displaced, x ∈ o.claimants ∧ ∃ y ∈ o.claimants, y ≠ x

variable {o : OwnedKey}

theorem OwnerInv.onePublisher (h : OwnerInv o) : OnePublisher o := by
  have hnot : ∀ x ∈ o.displaced, ∀ st, o.key.stream = some st → st.publisherId ≠ [] ∧ st.publisherId ≠ x.id := by
    intro x hx st hst
    obtain ⟨hxc, y, hy, hne⟩ := h.displaced x hx
    have hid : st.publisherId ≠ [] := fun hid => hne (h.ownerless st hst hid y hy x hxc)
    exact ⟨hid, fun heq => (h.owned st hst hid).2 x hx heq.symm⟩
  refine ⟨fun x hx y hy hpx hpy => ?_, fun x hx => ?_, fun x hx => ?_⟩
  · unfold isPublisherOwner at hpx hpy
    split at hpx
    · cases hpx
    · rename_i st hst
      simp only [hst] at hpy
      by_cases hid : st.publisherId = []
      · exact h.ownerless st hst hid x hx y hy
      · simp only [hid, decide_false, Bool.false_or, decide_eq_true_eq] at hpx hpy
        cases x
        cases y
        simp only [SessionId.mk.injEq]
        exact hpx.symm.trans hpy
  · unfold isPublisherOwner
    split
    · rfl
    · rename_i st hst
      obtain ⟨h1, h2⟩ := hnot x hx st hst
      simp [h1, h2]
  · unfold releasePublisher
    split
    · rfl
    · rename_i st hst
      rw [if_pos (hnot x hx st hst)]

variable {k : StreamKey}

theorem OwnerInv.rekey (h : OwnerInv o)
    (hk : ∀ st, k.stream = some st → (∃ st0, o.key.stream = some st0 ∧ st0.publisherId = st.publisherId) ∨
      (st.publisherId = [] ∧ ∀ x ∈ o.claimants, ∀ y ∈ o.claimants, x = y)) : OwnerInv { o with key := k } where
  owned st hst hid := by
    rcases hk st hst with ⟨st0, hst0, heq⟩ | ⟨hid', -⟩
    · rw [← heq] at hid ⊢
      exact h.owned st0 hst0 hid
    · exact absurd hid' hid
  ownerless st hst hid := by
    rcases hk st hst with ⟨st0, hst0, heq⟩ | ⟨-, hall⟩
    · exact h.ownerless st0 hst0 (heq.trans hid)
    · exact hall
  displaced := h.displaced

theorem OwnerInv.players (h : OwnerInv o) (hp : PlayersOnly o.key k) : OwnerInv { o with key := k } := by
  refine h.rekey fun st hst => ?_
  rcases hp.stream with ⟨hnone, -⟩ | ⟨st0, ws, hst0, hst'⟩
  · rw [hnone] at hst
    cases hst
  · rw [hst'] at hst
    exact .inl ⟨st0, hst0, by rw [← Option.some.inj hst]⟩

theorem published_owner (s : StreamKey) : (∃ st, s.stream = some st ∧ st.publisherId = s.published.publisherId) ∨
    (s.stream = none ∧ s.published.publisherId = []) := by
  unfold published
  cases h : s.stream with
  | none => exact .inr ⟨rfl, rfl⟩
  | some st => exact .inl ⟨st, rfl, rfl⟩

theorem OwnerInv.published (h : OwnerInv o) (hok : o.key.stream = none → ∀ x ∈ o.claimants, ∀ y ∈ o.claimants, x = y)
    (hk : ∃ st, k.stream = some st ∧ st.publisherId = o.key.published.publisherId) : OwnerInv { o with key := k } := by
  obtain ⟨st, hst, hid⟩ := hk
  refine h.rekey fun st' hst' => ?_
  rw [hst] at hst'
  rw [← Option.some.inj hst', hid]
  rcases published_owner o.key with ⟨st0, hst0, heq⟩ | ⟨hnone, heq⟩
  · exact .inl ⟨st0, hst0, heq⟩
  · exact .inr ⟨heq, hok hnone⟩

theorem removePublisher_ownerless {s : StreamKey} {st : MediaStream} (h : s.removePublisher.stream = some st) :
    st.publisherId = [] ∧ hasPlayers s := by
  unfold removePublisher at h
  split at h
  · rename_i hnone
    rw [hnone] at h
    cases h
  · rename_i st0 hst0
    dsimp only at h
    rw [notify_stream] at h
    split at h
    · cases h
    · rename_i hws
      rw [← Option.some.inj h]
      exact ⟨rfl, st0, hst0, hws⟩

theorem OwnerInv.removed (h : OwnerInv o) (hok : hasPlayers o.key → ∀ x ∈ o.claimants, ∀ y ∈ o.claimants, x = y) :
    OwnerInv { o with key := o.key.removePublisher } :=
  h.rekey fun _ hst => .inr ⟨(removePublisher_ownerless hst).1, hok (removePublisher_ownerless hst).2⟩

theorem OwnerInv.owner (h : OwnerInv o) (x : SessionId) {more : List SessionId}
    (hk : ∃ st, k.stream = some st ∧ st.publisherId = x.id) (hmore : ∀ y ∈ more, y ∈ o.claimants) :
    OwnerInv ⟨k, x :: o.claimants, (more ++ o.displaced).filter fun y => y ≠ x⟩ where
  owned st hst hid := by
    obtain ⟨st', hst', hid'⟩ := hk
    rw [hst'] at hst
    rw [← Option.some.inj hst, hid']
    refine ⟨⟨x, List.mem_cons_self, rfl⟩, fun y hy heq => ?_⟩
    have hne : y ≠ x := by simpa using (List.mem_filter.1 hy).2
    cases x
    cases y
    exact hne (by simpa using heq)
  ownerless st hst hid := by
    obtain ⟨st', hst', hid'⟩ := hk
    rw [hst'] at hst
    rw [← Option.some.inj hst, hid'] at hid
    exact absurd hid x.ne
  displaced y hy := by
    obtain ⟨hy, hne⟩ := List.mem_filter.1 hy
    have hne : y ≠ x := by simpa using hne
    refine ⟨List.mem_cons_of_mem _ ?_, x, List.mem_cons_self, hne.symm⟩
    rcases List.mem_append.1 hy with hy | hy
    · exact hmore y hy
    · exact (h.displaced y hy).1

theorem claimPublisher_owner (s : StreamKey) (owner : Name) (now : Int) : ((s.claimPublisher owner now).2 = .rejected ∧
    ∃ st st', s.stream = some st ∧ (s.claimPublisher owner now).1.stream = some st' ∧ st'.publisherId = st.publisherId) ∨
    ((s.claimPublisher owner now).2 ≠ .rejected ∧ ∃ st, (s.claimPublisher owner now).1.stream = some st ∧ st.publisherId =
    owner) := by
  unfold claimPublisher
  split
  · exact .inr ⟨by simp, _, notify_stream _ _, rfl⟩
  · rename_i st hst
    split
    · exact .inr ⟨by simp, _, rfl, rfl⟩
    · split
      · refine .inl ⟨rfl, st, _, hst, rfl, ?_⟩
        unfold countTakeover
        split <;> rfl
      · exact .inr ⟨by simp, _, rfl, rfl⟩

theorem OwnerInv.claimed (h : OwnerInv o) (x : SessionId) (now : Int) : OwnerInv (o.claimed x now) := by
  have hown := claimPublisher_owner o.key x.id now
  unfold OwnedKey.claimed
  dsimp only
  split
  · rename_i hr
    rcases hown with ⟨-, st, st', hst, hst', hid⟩ | ⟨hne, -⟩
    · refine h.rekey fun st'' hst'' => .inl ⟨st, hst, ?_⟩
      rw [hst'] at hst''
      rw [← Option.some.inj hst'', hid]
    · exact absurd hr hne
  · rename_i hr
    refine h.owner x ((hown.resolve_left fun hl => ?_).2) fun y hy => (List.mem_filter.1 hy).1
    rw [hr] at hl
    cases hl.1
  · rename_i hr _
    have hmore : ∀ y ∈ ([] : List SessionId), y ∈ o.claimants := fun y hy => nomatch hy
    exact h.owner x ((hown.resolve_left fun hl => hr hl.1).2) hmore

theorem OwnerInv.step {writerId : Nat → Name} (h : OwnerInv o) (op : OwnerOp) (hok : OwnedOk o op) :
    OwnerInv (o.step writerId op) := by
  cases op with
  | claim x now => exact h.claimed x now
  | release x =>
    change OwnerInv { o with key := (o.key.releasePublisher x.id).1 }
    rw [releasePublisher_eq]
    split
    · rename_i hown
      exact h.removed fun hp => hok ⟨hp, hown⟩
    · exact h
  | addPlayer w fails =>
    rcases addPlayer_spec writerId fails o.key w with ⟨hnone, heq⟩ | ⟨-, hp⟩
    · refine h.rekey fun st hst => .inr ⟨?_, hok hnone⟩
      rw [heq] at hst
      rw [← Option.some.inj hst]
    · exact h.players hp
  | removePlayer w => exact h.players (removePlayer_players writerId o.key w)
  | packet p fails =>
    obtain ⟨ws, hst, -⟩ := writerMediaPacket_spec writerId fails o.key p
    exact h.published hok ⟨_, hst, (fed_keeps _ p).2.1⟩
  | addPublisher => exact h.published hok ⟨_, addPublisher_stream o.key, rfl⟩
  | removePublisher => exact h.removed hok

end OwnedKey

open OwnedKey

/-- **There is one publisher**: in every run in which no call leaves an entry without an owner once two sessions have
claimed the key. -/
theorem one_publisher (writerId : Nat → Name) (key : Name) (ops : List OwnerOp)
    (h : StepsOk (OwnedKey.step writerId) OwnedOk { key := { key := key } } ops) :
    OnePublisher (OwnedKey.run writerId { key := { key := key } } ops) := by
  have hinit : OwnerInv { key := { key := key } } := by
    refine ⟨fun st hst => ?_, fun st hst => ?_, fun x hx => ?_⟩
    · cases hst
    · cases hst
    · cases hx
  exact (foldl_inv _ _ OwnerInv (fun o op hi hok => hi.step op hok) ops _ hinit h).onePublisher

def sessionA : SessionId := ⟨['a'], by decide⟩

def sessionB : SessionId := ⟨['b'], by decide⟩

theorem one_publisher_sample :
    OnePublisher (OwnedKey.run (fun _ => []) { key := { key := ['k'] } } [.claim sessionA 1, .claim sessionB 2, .release sessionA]) := by
  refine one_publisher _ _ _ ⟨False.elim, False.elim, fun h => ?_, trivial⟩
  obtain ⟨⟨st, hst, hws⟩, -⟩ := h
  have heq : st.writers = [] := by
    have hrun : (OwnedKey.run (fun _ => []) { key := { key := ['k'] } } [.claim sessionA 1, .claim sessionB 2]).key.stream =
        some st := hst
    rw [← Option.some.inj hrun]
    rfl
  exact absurd heq hws

/-- **A displaced session passes for the publisher again**: the one that took over leaves, and a player keeps the entry. -/
theorem displaced_owner_returns : ¬OnePublisher (OwnedKey.run (fun _ => []) { key := { key := ['k'] } }
      [.claim sessionA 1, .claim sessionB 2, .addPlayer 0 fun _ _ => false, .release sessionB]) := by
  intro h
  have hdisplaced := h.displaced sessionA (by decide)
  exact absurd hdisplaced (by decide)

end MoqLiveCast
