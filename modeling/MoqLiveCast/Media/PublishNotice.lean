import MoqLiveCast.Lib.Run
import MoqLiveCast.Media.StreamSteps
/-!
# PublishNotice — when the publish callbacks tell what happens

`OnPublish` is called for a new entry alone, and `OnUnpublish` whenever a publisher is removed.  A publisher that comes to an
entry a player made is not told of, and one that leaves such an entry is (`late_publisher_untold`).
-/
namespace MoqLiveCast

open StreamKey

namespace StreamKey

/-- `publisher_exist_`, false without an entry. -/
def exists_ (s : StreamKey) : Bool := s.stream.any fun st => st.publisherExist

/-- What a change of `publisher_exist_` is to be told as. -/
def noticeOf : Bool → Bool → List Notice
  | false, true => [.onPublish]
  | true, false => [.onUnpublish]
  | _, _ => []

def tell : Bool → Notice → Option Bool
  | false, .onPublish => some true
  | true, .onUnpublish => some false
  | _, _ => none

/-- **The notices alternate**, from one of a publish on. -/
def Alternate (ns : List Notice) : Prop := (ns.foldlM tell false).isSome

instance (ns : List Notice) : Decidable (Alternate ns) := by
  unfold Alternate
  infer_instance

/-- **The call tells what it changed.** -/
def Tells (writerId : Nat → Name) (s : StreamKey) (op : StreamOp) : Prop :=
  (s.step writerId op).notices = s.notices ++ noticeOf s.exists_ (s.step writerId op).exists_

def ComesTold (s : StreamKey) : Prop := (s.stream = none ∧ '/' ∈ s.key) ∨ s.exists_ = true

/-- A claim is rejected: the key is another's, and was taken over too often. -/
def Rejects (s : StreamKey) (owner : Name) (now : Int) : Prop :=
  ∃ st, s.stream = some st ∧ st.publisherId ≠ [] ∧ st.publisherId ≠ owner ∧ refused st now

def GoesTold (s : StreamKey) : Prop := s.exists_ = true ↔ '/' ∈ s.key

/-- **The condition on a call**: a publisher does not come to an entry without one, nor leave one, and the key has a
slash. -/
def TellOk (s : StreamKey) : StreamOp → Prop
  | .addPublisher => ComesTold s
  | .packet _ _ => ComesTold s
  | .claim owner now => Rejects s owner now ∨ ComesTold s
  | .removePublisher => s.stream = none ∨ GoesTold s
  | .release owner => s.isPublisherOwner owner = false ∨ GoesTold s
  | _ => True

theorem noticeOf_self (b : Bool) : noticeOf b b = [] := by
  cases b <;> rfl

theorem told_same {s s' : StreamKey} (hn : s'.notices = s.notices) (he : s'.exists_ = s.exists_) :
    s'.notices = s.notices ++ noticeOf s.exists_ s'.exists_ := by
  rw [hn, he, noticeOf_self, List.append_nil]

theorem PlayersOnly.exists_ {s s' : StreamKey} (h : PlayersOnly s s') : s'.exists_ = s.exists_ := by
  unfold StreamKey.exists_
  rcases h.stream with ⟨hnone, hall⟩ | ⟨st, ws, hs, hs'⟩
  · rw [hnone]
    cases hs : s.stream with
    | none => rfl
    | some st => simp [hall st hs]
  · rw [hs, hs']
    rfl

theorem notify_notices (s : StreamKey) (n : Notice) : (s.notify n).notices = s.notices ++ if '/' ∈ s.key then [n] else [] := by
  unfold notify
  split <;> simp

theorem told_comes {s s' : StreamKey} (he : s'.exists_ = true)
    (hn : s'.notices = s.notices ++ if s.stream = none ∧ '/' ∈ s.key then [.onPublish] else []) :
    s'.notices = s.notices ++ noticeOf s.exists_ s'.exists_ ↔ ComesTold s := by
  rw [hn, he, List.append_cancel_left_eq]
  unfold ComesTold
  cases hs : s.exists_ with
  | true =>
    have hstream : ¬(s.stream = none ∧ '/' ∈ s.key) := by
      rintro ⟨hnone, -⟩
      simp [StreamKey.exists_, hnone] at hs
    simp [noticeOf, hstream]
  | false => by_cases h : s.stream = none ∧ '/' ∈ s.key <;> simp [noticeOf, h]

theorem told_goes {s s' : StreamKey} (he : s'.exists_ = false)
    (hn : s'.notices = s.notices ++ if '/' ∈ s.key then [.onUnpublish] else []) :
    s'.notices = s.notices ++ noticeOf s.exists_ s'.exists_ ↔ GoesTold s := by
  rw [hn, he, List.append_cancel_left_eq]
  unfold GoesTold
  cases hs : s.exists_ <;> by_cases h : '/' ∈ s.key <;> simp [noticeOf, h]

theorem addPublisher_notices (s : StreamKey) :
    s.addPublisher.notices = s.notices ++ if s.stream = none ∧ '/' ∈ s.key then [.onPublish] else [] := by
  unfold addPublisher
  cases h : s.stream with
  | none =>
    rw [notify_notices]
    by_cases hk : '/' ∈ s.key <;> simp [entered, hk]
  | some st => simp [entered]

theorem addPublisher_exists (s : StreamKey) : s.addPublisher.exists_ = true := by
  unfold StreamKey.exists_
  rw [addPublisher_stream]
  exact s.published_exist

theorem removePublisher_told (s : StreamKey) :
    s.removePublisher.notices = s.notices ++ noticeOf s.exists_ s.removePublisher.exists_ ↔ s.stream = none ∨ GoesTold s := by
  unfold removePublisher
  cases h : s.stream with
  | none => exact iff_of_true (told_same rfl rfl) (.inl rfl)
  | some st =>
    refine (told_goes ?_ ?_).trans (by simp)
    · unfold StreamKey.exists_
      dsimp only
      rw [notify_stream]
      split <;> rfl
    · dsimp only
      rw [notify_notices]
      split <;> rfl

theorem claimPublisher_told (s : StreamKey) (owner : Name) (now : Int) : (s.claimPublisher owner now).1.notices = s.notices ++
    noticeOf s.exists_ (s.claimPublisher owner now).1.exists_ ↔ Rejects s owner now ∨ ComesTold s := by
  unfold claimPublisher Rejects
  cases h : s.stream with
  | none =>
    refine (told_comes ?_ ?_).trans (by simp)
    · simp [StreamKey.exists_]
    · dsimp only
      rw [notify_notices]
      by_cases hk : '/' ∈ s.key <;> simp [entered, h, hk]
  | some st =>
    simp only [Option.some.injEq, exists_eq_left']
    split
    · rename_i hid
      refine (told_comes rfl ?_).trans ⟨.inr, fun hr => hr.resolve_left fun hr => ?_⟩
      · simp [entered, h]
      · tauto
    · rename_i hid
      obtain ⟨hnil, hother⟩ := not_or.1 hid
      split
      · rename_i hrefused
        refine iff_of_true (told_same rfl ?_) (.inl ⟨hnil, hother, hrefused⟩)
        unfold StreamKey.exists_ countTakeover
        rw [h]
        split <;> rfl
      · rename_i hrefused
        refine (told_comes rfl ?_).trans (by simp [hrefused])
        simp [entered, h]

theorem tells_iff (writerId : Nat → Name) (s : StreamKey) (op : StreamOp) : Tells writerId s op ↔ TellOk s op := by
  cases op with
  | addPlayer w fails =>
    refine iff_of_true ?_ trivial
    rcases addPlayer_spec writerId fails s w with ⟨hnone, heq⟩ | ⟨-, hp⟩
    · change (s.addPlayer writerId fails w).notices = _ ++ noticeOf _ (s.addPlayer writerId fails w).exists_
      rw [heq]
      exact told_same rfl (by simp [StreamKey.exists_, hnone])
    · exact told_same hp.notices hp.exists_
  | removePlayer w =>
    have hp := removePlayer_players writerId s w
    exact iff_of_true (told_same hp.notices hp.exists_) trivial
  | addPublisher => exact told_comes s.addPublisher_exists s.addPublisher_notices
  | removePublisher => exact s.removePublisher_told
  | claim owner now => exact s.claimPublisher_told owner now
  | release owner =>
    change (s.releasePublisher owner).1.notices = _ ++ noticeOf _ (s.releasePublisher owner).1.exists_ ↔ _
    rw [releasePublisher_eq]
    unfold TellOk
    split
    · rename_i hown
      have hthere : s.stream ≠ none := by
        intro hnone
        simp [isPublisherOwner, hnone] at hown
      refine s.removePublisher_told.trans ?_
      simp [hown, hthere]
    · rename_i hown
      exact iff_of_true (told_same rfl rfl) (.inl (by simpa using hown))
  | packet p fails =>
    obtain ⟨ws, hst, hn, -⟩ := writerMediaPacket_spec writerId fails s p
    refine told_comes ?_ (hn.trans s.addPublisher_notices)
    change (s.writerMediaPacket writerId fails p).exists_ = true
    unfold StreamKey.exists_
    rw [hst]
    exact (fed_keeps _ p).1.trans s.published_exist
  | setCatalog owner json =>
    refine iff_of_true ?_ trivial
    change (s.setCatalogJson owner json).1.notices = _ ++ noticeOf _ (s.setCatalogJson owner json).1.exists_
    unfold setCatalogJson
    split
    · exact told_same rfl rfl
    · rename_i st h
      split
      · exact told_same rfl rfl
      · split
        · exact told_same rfl rfl
        · split
          · exact told_same rfl rfl
          · exact told_same rfl (by simp [StreamKey.exists_, h, entered])

theorem tell_noticeOf (b b' : Bool) : (noticeOf b b').foldlM tell b = some b' := by
  cases b <;> cases b' <;> rfl

theorem alternate_step {writerId : Nat → Name} {s : StreamKey} {op : StreamOp} (h : s.notices.foldlM tell false = some s.exists_)
    (ht : Tells writerId s op) : (s.step writerId op).notices.foldlM tell false = some (s.step writerId op).exists_ := by
  rw [ht, List.foldlM_append, h]
  exact tell_noticeOf _ _

end StreamKey

/-- **The callbacks match what happens, and alternate**, exactly in the runs each of whose calls meets the condition. -/
theorem notices_match_iff (writerId : Nat → Name) (key : Name) (ops : List StreamOp) :
    (StepsOk (StreamKey.step writerId) (Tells writerId) { key := key } ops ∧
        Alternate (StreamKey.run writerId { key := key } ops).notices) ↔
      StepsOk (StreamKey.step writerId) TellOk { key := key } ops := by
  have hcongr : StepsOk (StreamKey.step writerId) (Tells writerId) { key := key } ops ↔
      StepsOk (StreamKey.step writerId) TellOk { key := key } ops := by
    rw [stepsOk_iff, stepsOk_iff]
    simp only [tells_iff]
  refine ⟨fun h => hcongr.1 h.1, fun h => ⟨hcongr.2 h, ?_⟩⟩
  have hrun := foldl_inv _ _ (fun s : StreamKey => s.notices.foldlM tell false = some s.exists_)
    (fun s op hi ht => alternate_step hi ht) ops { key := key } rfl (hcongr.2 h)
  unfold Alternate
  exact Option.isSome_iff_exists.2 ⟨_, hrun⟩

/-- **A publisher that comes behind a player is not told of.** -/
theorem late_publisher_untold : ¬(StepsOk (StreamKey.step fun _ => []) (Tells fun _ => []) { key := ['a', '/', 'b'] }
        [.addPlayer 0 fun _ _ => false, .claim ['s'] 1, .release ['s']] ∧
      Alternate (StreamKey.run (fun _ => []) { key := ['a', '/', 'b'] }
        [.addPlayer 0 fun _ _ => false, .claim ['s'] 1, .release ['s']]).notices) := by
  rintro ⟨-, h⟩
  exact absurd h (by decide)

end MoqLiveCast
