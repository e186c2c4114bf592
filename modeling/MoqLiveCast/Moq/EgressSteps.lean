import MoqLiveCast.Moq.Egress
/-!
# EgressSteps — what a step of the egress may do to the lines

`Flushed` is what becomes of the state while the queue is pushed: lines lose what waited at their ends, and the open
group stays as it is or is left. What holds of the state on the way is `EgressWell`.
-/
namespace MoqLiveCast

namespace Egress

def line (e : Egress) (sid : Nat) : List Seg := e.out.line Seg.sid sid

def handed (e : Egress) (sid : Nat) : List Seg := e.out.handed Seg.sid sid

/-- **Lines may have lost what waited at their ends.** -/
structure Trimmed (e e' : Egress) : Prop where
  isVideo : e'.isVideo = e.isVideo
  groups : e'.groups = e.groups
  offers : e'.offers = e.offers
  nextUni : e'.nextUni = e.nextUni
  pending : e'.out.pending <:+ e.out.pending
  line : ∀ i, e'.line i <+: e.line i
  handed : ∀ i, e.handed i <+: e'.handed i

/-- **The queue was pushed**: the open group lost nothing, or is left. -/
structure Flushed (e e' : Egress) : Prop extends Trimmed e e' where
  group : e'.groupSid = 0 ∨ (e'.groupSid = e.groupSid ∧ e'.groupPrevUs = e.groupPrevUs ∧ e'.line e.groupSid = e.line e.groupSid)

theorem Trimmed.trans {e e1 e2 : Egress} (h : Trimmed e e1) (h' : Trimmed e1 e2) : Trimmed e e2 where
  isVideo := h'.isVideo.trans h.isVideo
  groups := h'.groups.trans h.groups
  offers := h'.offers.trans h.offers
  nextUni := h'.nextUni.trans h.nextUni
  pending := h'.pending.trans h.pending
  line i := (h'.line i).trans (h.line i)
  handed i := (h.handed i).trans (h'.handed i)

theorem Flushed.trans {e e1 e2 : Egress} (h : Flushed e e1) (h' : Flushed e1 e2) : Flushed e e2 where
  toTrimmed := h.toTrimmed.trans h'.toTrimmed
  group := by
    rcases h'.group with h0 | ⟨hs', hp', hl'⟩
    · exact .inl h0
    · rcases h.group with h0 | ⟨hs, hp, hl⟩
      · exact .inl (hs'.trans h0)
      · exact .inr ⟨hs'.trans hs, hp'.trans hp, by rw [hs] at hl'; exact hl'.trans hl⟩

theorem Trimmed.of_out {e e' : Egress} (hv : e'.isVideo = e.isVideo) (hg : e'.groups = e.groups) (ho : e'.offers = e.offers)
    (hn : e'.nextUni = e.nextUni) (h : e'.out = e.out) : Trimmed e e' :=
  ⟨hv, hg, ho, hn, by rw [h], fun i => by simp [Egress.line, h], fun i => by simp [Egress.handed, h]⟩

theorem Flushed.of_out {e e' : Egress} (hv : e'.isVideo = e.isVideo) (hg : e'.groups = e.groups) (ho : e'.offers = e.offers)
    (hn : e'.nextUni = e.nextUni) (h : e'.out = e.out) (hs : e'.groupSid = e.groupSid)
    (hp : e'.groupPrevUs = e.groupPrevUs) : Flushed e e' :=
  ⟨.of_out hv hg ho hn h, .inr ⟨hs, hp, by simp [Egress.line, h]⟩⟩

theorem Flushed.refl (e : Egress) : Flushed e e := .of_out rfl rfl rfl rfl rfl rfl rfl

theorem Flushed.called (e : Egress) : Flushed e e.called := .of_out rfl rfl rfl rfl rfl rfl rfl

theorem Flushed.leaveGroup (e : Egress) : Flushed e e.leaveGroup := ⟨.of_out rfl rfl rfl rfl rfl, .inl rfl⟩

theorem Flushed.abandonGroup (e : Egress) : Flushed e e.abandonGroup := by
  unfold Egress.abandonGroup
  split
  · exact Flushed.refl e
  · exact Flushed.leaveGroup e

theorem Flushed.pass (e : Egress) (n : Nat) : Flushed e { e with out := e.out.pass, pendingBytes := n } where
  isVideo := rfl
  groups := rfl
  offers := rfl
  nextUni := rfl
  pending := List.drop_suffix _ _
  line i := by
    have h := Outbox.line_pass Seg.sid e.out i
    simp only [Egress.line, h, List.prefix_rfl]
  handed i := Outbox.handed_pass Seg.sid e.out i
  group := .inr ⟨rfl, rfl, Outbox.line_pass Seg.sid e.out _⟩

theorem Flushed.dead {e : Egress} (ho : e.out.Ordered Seg.sid) {seg : Seg} {segs : List Seg} (hp : e.out.pending = seg :: segs) :
    Flushed e (if (e.cutFront seg.sid).groupSid = seg.sid then (e.cutFront seg.sid).abandonGroup else e.cutFront seg.sid) := by
  have hcut : ∀ i, (e.cutFront seg.sid).line i <+: e.line i := Outbox.line_cut_le Seg.sid ho hp
  split
  · rename_i hg
    have hleft : (e.cutFront seg.sid).abandonGroup.groupSid = 0 := by
      unfold Egress.abandonGroup
      split
      · assumption
      · rfl
    have hout : (e.cutFront seg.sid).abandonGroup.out = (e.cutFront seg.sid).out := by
      unfold Egress.abandonGroup
      split <;> rfl
    have hab := Flushed.abandonGroup (e.cutFront seg.sid)
    exact ⟨⟨hab.isVideo, hab.groups, hab.offers, hab.nextUni, hab.pending.trans (List.dropWhile_suffix _),
      fun i => (hab.line i).trans (hcut i), hab.handed⟩, .inl hleft⟩
  · rename_i hg
    exact ⟨⟨rfl, rfl, rfl, rfl, List.dropWhile_suffix _, hcut, fun _ => List.prefix_rfl⟩,
      .inr ⟨rfl, rfl, Outbox.line_cut_ne Seg.sid e.out hg⟩⟩

theorem flushTurns_flushed (net : EgressNet) : ∀ (k : Nat) (e : Egress), e.out.Ordered Seg.sid → Flushed e (flushTurns net k e)
  | 0, e, _ => Flushed.refl e
  | k + 1, e, ho => by
    unfold flushTurns
    split
    · exact Flushed.refl e
    · rename_i seg segs hp
      split
      · exact Flushed.called e
      · have hcut := (Flushed.called e).trans (Flushed.dead (e := e.called) ho hp)
        exact hcut.trans (flushTurns_flushed net k _ (ho.suffix Seg.sid hcut.pending))
      · have hpass := (Flushed.called e).trans (Flushed.pass e.called (e.pendingBytes - seg.data.length))
        exact hpass.trans (flushTurns_flushed net k _ (ho.suffix Seg.sid hpass.pending))

theorem flushPending_flushed (net : EgressNet) {e : Egress} (ho : e.out.Ordered Seg.sid) : Flushed e (e.flushPending net) :=
  flushTurns_flushed net _ e ho

/-! ## Well-formed states -/

/-- **Groups have streams of their own**, opened one after the other, and what waits is in their order. -/
structure EgressWell (e : Egress) : Prop where
  ordered : e.out.Ordered Seg.sid
  upTo : e.groupSid ≠ 0 → ∀ s ∈ e.out.pending, s.sid ≤ e.groupSid
  fresh : ∀ i, e.nextUni ≤ i → e.line i = []
  below : ∀ g ∈ e.groups, 0 < g.sid ∧ g.sid < e.nextUni
  apart : e.groups.Pairwise fun g g' => g.sid < g'.sid
  current : e.groupSid ≠ 0 → ∃ g ∈ e.groups, g.sid = e.groupSid
  offered : ∀ o ∈ e.offers, o.sid < e.nextUni
  uni : 0 < e.nextUni

theorem EgressWell.init (isVideo : Bool) : EgressWell { isVideo := isVideo } where
  ordered := List.Pairwise.nil
  upTo h := absurd rfl h
  fresh _ _ := rfl
  below := by simp
  apart := List.Pairwise.nil
  current h := absurd rfl h
  offered := by simp
  uni := Nat.succ_pos 2

theorem EgressWell.groupSid_lt {e : Egress} (h : EgressWell e) : e.groupSid < e.nextUni := by
  by_cases h0 : e.groupSid = 0
  · rw [h0]
    exact h.uni
  · obtain ⟨g, hg, heq⟩ := h.current h0
    rw [← heq]
    exact (h.below g hg).2

theorem EgressWell.trimmed {e e' : Egress} (h : EgressWell e) (ht : Trimmed e e')
    (hs : e'.groupSid = 0 ∨ e'.groupSid = e.groupSid) : EgressWell e' where
  ordered := h.ordered.suffix Seg.sid ht.pending
  upTo h0 s hmem := by
    have hsid := hs.resolve_left h0
    rw [hsid] at h0 ⊢
    exact h.upTo h0 s (ht.pending.subset hmem)
  fresh i hi := by
    rw [ht.nextUni] at hi
    have hle := ht.line i
    rw [h.fresh i hi] at hle
    exact List.prefix_nil.1 hle
  below g hg := by
    rw [ht.groups] at hg
    rw [ht.nextUni]
    exact h.below g hg
  apart := by
    rw [ht.groups]
    exact h.apart
  current h0 := by
    have hsid := hs.resolve_left h0
    rw [hsid] at h0 ⊢
    rw [ht.groups]
    exact h.current h0
  offered o ho := by
    rw [ht.offers] at ho
    rw [ht.nextUni]
    exact h.offered o ho
  uni := by
    rw [ht.nextUni]
    exact h.uni

theorem EgressWell.flushed {e e' : Egress} (h : EgressWell e) (hf : Flushed e e') : EgressWell e' :=
  h.trimmed hf.toTrimmed (hf.group.imp_right And.left)

/-! ## A segment is pushed -/

/-- **The segment went to the end of the open group's line.** -/
structure Appended (seg : Seg) (e e' : Egress) : Prop where
  isVideo : e'.isVideo = e.isVideo
  groups : e'.groups = e.groups
  offers : e'.offers = e.offers
  nextUni : e'.nextUni = e.nextUni
  groupSid : e'.groupSid = e.groupSid
  groupPrevUs : e'.groupPrevUs = e.groupPrevUs
  line : ∀ i, e'.line i = e.line i ++ if seg.sid = i then [seg] else []
  handed : ∀ i, e.handed i <+: e'.handed i
  pending : ∀ s ∈ e'.out.pending, s ∈ e.out.pending ∨ s = seg
  ordered : e'.out.Ordered Seg.sid

theorem Appended.give {e : Egress} {seg : Seg} (hp : e.out.pending = []) :
    Appended seg e { e.called with out := e.out.give seg } where
  isVideo := rfl
  groups := rfl
  offers := rfl
  nextUni := rfl
  groupSid := rfl
  groupPrevUs := rfl
  line := Outbox.line_give Seg.sid (by simp [hp])
  handed i := by
    have h := Outbox.handed_give Seg.sid e.out seg i
    simp only [Egress.handed, h]
    exact List.prefix_append _ _
  pending s hs := .inl hs
  ordered := by
    have hnil : (e.out.give seg).pending = [] := hp
    simp [Outbox.Ordered, hnil]

theorem Appended.post {e : Egress} {seg : Seg} {n : Nat} (ho : e.out.Ordered Seg.sid)
    (hle : ∀ s ∈ e.out.pending, s.sid ≤ seg.sid) : Appended seg e { e with out := e.out.post seg, pendingBytes := n } where
  isVideo := rfl
  groups := rfl
  offers := rfl
  nextUni := rfl
  groupSid := rfl
  groupPrevUs := rfl
  line := Outbox.line_post Seg.sid e.out seg
  handed _ := List.prefix_rfl
  pending s hs := by
    rcases List.mem_append.1 hs with h | h
    · exact .inl h
    · exact .inr (List.mem_singleton.1 h)
  ordered := ho.post Seg.sid hle

theorem EgressWell.appended {e e' : Egress} {seg : Seg} (h : EgressWell e) (h0 : e.groupSid ≠ 0) (hseg : seg.sid = e.groupSid)
    (ha : Appended seg e e') : EgressWell e' where
  ordered := ha.ordered
  upTo _ s hs := by
    rw [ha.groupSid]
    rcases ha.pending s hs with hold | rfl
    · exact h.upTo h0 s hold
    · exact Nat.le_of_eq hseg
  fresh i hi := by
    rw [ha.nextUni] at hi
    have hlt := h.groupSid_lt
    rw [ha.line, h.fresh i hi, if_neg (by omega), List.append_nil]
  below g hg := by
    rw [ha.groups] at hg
    rw [ha.nextUni]
    exact h.below g hg
  apart := by
    rw [ha.groups]
    exact h.apart
  current _ := by
    rw [ha.groups, ha.groupSid]
    exact h.current h0
  offered o ho := by
    rw [ha.offers] at ho
    rw [ha.nextUni]
    exact h.offered o ho
  uni := by
    rw [ha.nextUni]
    exact h.uni

/-- **There is room for a segment of `n` bytes**, at the transport or in the queue, once the queue was pushed. -/
def Room (net : EgressNet) (e : Egress) (n : Nat) : Prop :=
  let e := e.flushPending net
  if e.out.pending = [] then net.send e.sends = .ok ∨ (net.send e.sends = .full ∧ e.pendingBytes + n ≤ kPendingCapBytes)
  else e.pendingBytes + n ≤ kPendingCapBytes

instance (net : EgressNet) (e : Egress) (n : Nat) : Decidable (e.Room net n) := by
  unfold Room
  infer_instance

/-- **What `Push` does**: the queue is pushed, and then the segment is appended, or dropped if it is no FIN and there is no
room, or the group is left. -/
inductive Pushed (net : EgressNet) (data : List Byte) (fin : Bool) (frame : Option MediaFrame) (e : Egress) :
    Egress × Fate → Prop
  | taken {e1 e' : Egress} (hf : Flushed e e1) (hsid : e1.groupSid = e.groupSid) (hroom : fin = false → data ≠ [] → e.Room net data.length)
      (ha : Appended ⟨e.groupSid, data, fin, frame⟩ e1 e') : Pushed net data fin frame e (e', .taken)
  | dropped {e' : Egress} (hf : Flushed e e') (hsid : e'.groupSid = e.groupSid) (hfin : fin = false)
      (hroom : ¬e.Room net data.length) : Pushed net data fin frame e (e', .dropped)
  | gone {e' : Egress} (hf : Flushed e e') (hsid : e'.groupSid = 0) : Pushed net data fin frame e (e', .gone)

theorem enqueue_pushed {net : EgressNet} {e e1 : Egress} {data : List Byte} {fin : Bool} {frame : Option MediaFrame}
    (h : EgressWell e1) (hf : Flushed e e1) (h0 : e1.groupSid ≠ 0) (hsid : e1.groupSid = e.groupSid)
    (hroom : e.Room net data.length ↔ e1.pendingBytes + data.length ≤ kPendingCapBytes) :
    Pushed net data fin frame e (e1.enqueue ⟨e.groupSid, data, fin, frame⟩) := by
  unfold enqueue
  split
  · rename_i hd
    exact .dropped hf hsid hd.2.1 fun hr => absurd (hroom.1 hr) (Nat.not_le.2 hd.2.2)
  · rename_i hd
    have hle : ∀ s ∈ e1.out.pending, s.sid ≤ e.groupSid := by
      rw [← hsid]
      exact h.upTo h0
    refine .taken hf hsid (fun hfin hne => hroom.2 ?_) (Appended.post h.ordered hle)
    by_contra hbig
    exact hd ⟨hne, hfin, Nat.not_le.1 hbig⟩

theorem push_spec (net : EgressNet) {e : Egress} (h : EgressWell e) (data : List Byte) (fin : Bool)
    (frame : Option MediaFrame) : Pushed net data fin frame e (e.push net data fin frame) := by
  have hf := flushPending_flushed net h.ordered
  have hw := h.flushed hf
  unfold push
  split
  · rename_i h0
    exact .gone (Flushed.refl e) h0
  · dsimp only
    split
    · rename_i h0
      exact .gone hf h0
    · rename_i hne h0
      have hsid : (e.flushPending net).groupSid = e.groupSid := by
        rcases hf.group with hz | ⟨hs, -, -⟩
        · exact absurd hz h0
        · exact hs
      split
      · rename_i hp
        split
        · rename_i hans
          rw [hsid]
          refine .taken hf hsid (fun _ _ => ?_) (Appended.give hp)
          simp [Room, hp, hans]
        · apply Pushed.gone (hf.trans ((Flushed.called _).trans (Flushed.abandonGroup _)))
          simp [Egress.abandonGroup, Egress.leaveGroup, Egress.called, h0]
        · rename_i hans
          rw [hsid]
          refine enqueue_pushed (hw.flushed (Flushed.called _)) (hf.trans (Flushed.called _)) h0 hsid ?_
          simp [Room, hp, hans, Egress.called]
      · rename_i hp
        rw [hsid]
        refine enqueue_pushed hw hf h0 hsid ?_
        simp [Room, hp]

end Egress
end MoqLiveCast
