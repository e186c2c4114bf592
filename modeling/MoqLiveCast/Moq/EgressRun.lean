import MoqLiveCast.Lib.Run
import MoqLiveCast.Moq.EgressSteps
/-!
# EgressRun — invariants of the egress over its runs

What holds between packets may not hold in between, when a group is open and its first frame is to come: `Kept` asks for
both and what leads from one to the other, and gives the invariant after every run (`Kept.run`), whose packets meet a
condition.
-/
namespace MoqLiveCast

open List

namespace Egress

/-- The state in which `Push` is called for a frame. -/
def atFrame (e : Egress) (f : MediaFrame) : Egress := { e with groupPrevUs := f.tsUs, groupHadMedia := true }

/-- **A condition on a packet**: on the state before a group is opened for it, and on the state in which it comes to the
frame. -/
def PacketOk (net : EgressNet) (openOk : Egress → Prop) (frameOk : Egress → MediaFrame → Prop) (e : Egress)
    (p : MediaPacket) : Prop :=
  e.wants p →
    let s := e.frameTsUs net p
    let e1 := s.2.endGroup net p.isKeyFrame s.1
    (e1.opensGroup p.isKeyFrame = true → openOk e1) ∧ ((e.atGroup net p).2 = true → frameOk (e.atGroup net p).1 (e.frameOf net p))

def StepOk (net : EgressNet) (openOk : Egress → Prop) (frameOk : Egress → MediaFrame → Prop) (e : Egress) : EgressOp → Prop
  | .start subscribeId subStreamId gop =>
    let r := e.accepted net subscribeId subStreamId
    r.2 = true → ∀ packets, gop = some packets →
      StepsOk (writePacket net) (PacketOk net openOk frameOk) { r.1 with clock := r.1.clock.ensureBase packets }
        (r.1.replayed packets)
  | .packet p => PacketOk net openOk frameOk e p
  | .stop => True

/-- **What keeps an invariant**, which holds between packets, and one that holds when a frame is to come. -/
structure Kept (net : EgressNet) (openOk : Egress → Prop) (frameOk : Egress → MediaFrame → Prop) (Inv : Egress → Prop)
    (Mid : MediaFrame → Egress → Prop) : Prop where
  flushed : ∀ {e e'}, Inv e → Flushed e e' → Inv e'
  close : ∀ {e} cleanEnd, Inv e → Inv (e.closeGroup net cleanEnd)
  opened : ∀ {e f} tsUs, Inv e → openOk e → e.opensGroup f.pkt.isKeyFrame = true → (e.openGroup net tsUs).2 = true →
    Mid f (e.openGroup net tsUs).1
  refused : ∀ {e} tsUs, Inv e → (e.openGroup net tsUs).2 = false → Inv (e.openGroup net tsUs).1
  here : ∀ {e} f, Inv e → e.groupSid ≠ 0 → Mid f e
  offer : ∀ {e f}, Mid f e → frameOk e f → f.tagHdr < f.pkt.body.length → Inv (e.offer net f)
  short : ∀ {e f}, Mid f e → frameOk e f → f.pkt.body.length ≤ f.tagHdr → Inv e
  stop : ∀ {e}, Inv e → Inv (e.stop net)

section Kept

variable {net : EgressNet} {openOk : Egress → Prop} {frameOk : Egress → MediaFrame → Prop} {Inv : Egress → Prop}
  {Mid : MediaFrame → Egress → Prop}

theorem Flushed.clock (e : Egress) (c : PullClock) : Flushed e { e with clock := c } := .of_out rfl rfl rfl rfl rfl rfl rfl

variable {e : Egress}

theorem Kept.endGroup (h : Kept net openOk frameOk Inv Mid) (hi : Inv e) (key : Bool) (tsUs : BitVec 64) :
    Inv (e.endGroup net key tsUs) := by
  unfold Egress.endGroup
  split
  · split
    · exact h.close true hi
    · exact hi
  · split
    · exact h.close true hi
    · exact hi

theorem Kept.frameTsUs (h : Kept net openOk frameOk Inv Mid) (hi : Inv e) (p : MediaPacket) : Inv (e.frameTsUs net p).2 := by
  have hc := h.flushed hi (Flushed.clock e (e.clock.stamp p).clock)
  unfold Egress.frameTsUs
  dsimp only
  split
  · exact h.close false hc
  · exact hc

theorem Kept.writePacket (h : Kept net openOk frameOk Inv Mid) {p : MediaPacket} (hi : Inv e)
    (hok : PacketOk net openOk frameOk e p) : Inv (e.writePacket net p) := by
  unfold Egress.writePacket
  split
  · rename_i hw
    obtain ⟨hopen, hframe⟩ := hok hw
    have h1 := h.endGroup (h.frameTsUs hi p) p.isKeyFrame (e.frameTsUs net p).1
    have hmid : ((e.atGroup net p).2 = true → Mid (e.frameOf net p) (e.atGroup net p).1) ∧
        ((e.atGroup net p).2 = false → Inv (e.atGroup net p).1) := by
      unfold Egress.atGroup Egress.beginGroup
      dsimp only
      split
      · rename_i ho
        exact ⟨fun ht => h.opened _ h1 (hopen ho) ho ht, fun hf => h.refused _ h1 hf⟩
      · exact ⟨fun ht => h.here _ h1 (by simpa using ht), fun _ => h1⟩
    dsimp only
    split
    · rename_i hf
      exact hmid.2 hf
    · rename_i ht
      have ht : (e.atGroup net p).2 = true := Bool.of_not_eq_false ht
      split
      · rename_i hs
        exact h.short (hmid.1 ht) (hframe ht) hs
      · rename_i hs
        exact h.offer (hmid.1 ht) (hframe ht) (Nat.lt_of_not_le hs)
  · exact hi

theorem Flushed.accepted (net : EgressNet) (e : Egress) (subscribeId : BitVec 64) (subStreamId : Nat) :
    Flushed e (e.accepted net subscribeId subStreamId).1 := by
  unfold Egress.accepted
  split
  · exact Flushed.refl e
  · split
    · exact Flushed.called e
    · exact .of_out rfl rfl rfl rfl rfl rfl rfl

theorem Kept.step (h : Kept net openOk frameOk Inv Mid) {op : EgressOp} (hi : Inv e)
    (hok : StepOk net openOk frameOk e op) : Inv (e.step net op) := by
  cases op with
  | start subscribeId subStreamId gop =>
    have ha := h.flushed hi (Flushed.accepted net e subscribeId subStreamId)
    change Inv (e.start net subscribeId subStreamId gop)
    unfold Egress.start
    dsimp only
    split
    · rename_i ht
      cases gop with
      | none => exact ha
      | some packets =>
        have hc := h.flushed ha (Flushed.clock _ ((e.accepted net subscribeId subStreamId).1.clock.ensureBase packets))
        exact foldl_inv _ _ Inv (fun _ _ hi hok => h.writePacket hi hok) _ _ hc (hok ht packets rfl)
    · exact ha
  | packet p => exact h.writePacket hi hok
  | stop => exact h.stop hi

theorem Kept.run (h : Kept net openOk frameOk Inv Mid) (ops : List EgressOp) (hi : Inv e)
    (hok : StepsOk (Egress.step net) (StepOk net openOk frameOk) e ops) : Inv (e.run net ops) :=
  foldl_inv _ _ Inv (fun _ _ hi hok => h.step hi hok) ops e hi hok

end Kept

/-! ## Groups and frames -/

/-- **The group is left**, with a last segment or without. -/
inductive Closed (e : Egress) : Egress → Prop
  | left {e' : Egress} (ht : Trimmed e e') (h0 : e'.groupSid = 0) : Closed e e'
  | ended {e1 e2 e' : Egress} {data : List Byte} (hmark : data = [] ∨ ∃ us, endMarker us = some data) (ht : Trimmed e e1)
      (hsid : e1.groupSid = e.groupSid) (h0 : e.groupSid ≠ 0) (ha : Appended ⟨e.groupSid, data, true, none⟩ e1 e2)
      (ht' : Trimmed e2 e') (h0' : e'.groupSid = 0) : Closed e e'

variable (net : EgressNet)

theorem closeGroup_closed {e : Egress} (h : EgressWell e) (cleanEnd : Bool) : Closed e (e.closeGroup net cleanEnd) := by
  unfold closeGroup
  split
  · rename_i h0
    exact .left (Flushed.refl e).toTrimmed h0
  · rename_i h0
    dsimp only
    generalize (if e.groupHadMedia = true then e.groupPrevUs else e.groupOpenUs) = us
    have hmark : (if cleanEnd = true then endMarker us else none).getD [] = [] ∨
        ∃ us', endMarker us' = some ((if cleanEnd = true then endMarker us else none).getD []) := by
      cases hm : (if cleanEnd = true then endMarker us else none) with
      | none => exact .inl rfl
      | some data =>
        refine .inr ⟨us, ?_⟩
        split at hm
        · exact hm
        · cases hm
    have hp := push_spec net h ((if cleanEnd = true then endMarker us else none).getD []) true none
    generalize (e.push net ((if cleanEnd = true then endMarker us else none).getD []) true none) = r at hp ⊢
    cases hp with
    | taken hf hsid hroom ha => exact .ended hmark hf.toTrimmed hsid h0 ha (Flushed.leaveGroup _).toTrimmed rfl
    | dropped hf hsid hfin => cases hfin
    | gone hf hsid => exact .left (hf.trans (Flushed.leaveGroup _)).toTrimmed rfl

theorem Trimmed.shut (e : Egress) : Trimmed e e.shut where
  isVideo := rfl
  groups := rfl
  offers := rfl
  nextUni := rfl
  pending := nil_suffix
  line i := by
    have h := Outbox.line_clear Seg.sid e.out i
    simp only [Egress.line, Egress.shut, h]
    exact Outbox.handed_le_line Seg.sid e.out i
  handed _ := prefix_rfl

theorem stop_closed (e : Egress) : e.stop net = e ∨ Closed e (e.stop net) := by
  unfold stop
  split
  · exact .inl rfl
  · right
    split
    · rename_i h0
      exact .left (Trimmed.shut e) h0
    · rename_i h0
      split
      · exact .ended (.inl rfl) (Trimmed.shut e) rfl h0 (Appended.give (e := e.shut) rfl) (.of_out rfl rfl rfl rfl rfl) rfl
      · exact .left ((Trimmed.shut e).trans (.of_out rfl rfl rfl rfl rfl)) rfl

theorem EgressWell.closed {e e' : Egress} (h : EgressWell e) (hc : Closed e e') : EgressWell e' := by
  cases hc with
  | left ht h0 => exact h.trimmed ht (.inl h0)
  | ended hmark ht hsid h0 ha ht' h0' =>
    have h1 := h.trimmed ht (.inr hsid)
    exact (h1.appended (hsid ▸ h0) hsid.symm ha).trimmed ht' (.inl h0')

/-- `OpenGroup` opens a stream that was none before, or nothing but the counts moves. -/
inductive Opened (net : EgressNet) (e : Egress) : Egress × Bool → Prop
  | refused {e' : Egress} (hf : Flushed { e with nextUni := e'.nextUni } e') (hsid : e'.groupSid = e.groupSid)
      (hnext : e.nextUni ≤ e'.nextUni) : Opened net e (e', false)
  | opened {e' : Egress} {g : Group} (hsid : e.nextUni ≤ g.sid) (hnext : e'.nextUni = g.sid + 4)
      (hvideo : e'.isVideo = e.isVideo) (hgroups : e'.groups = e.groups ++ [g]) (hoffers : e'.offers = e.offers)
      (hgroup : e'.groupSid = g.sid) (hprev : e'.groupPrevUs = 0) (hans : net.send e.sends ≠ .dead)
      (hout : e'.out = if net.send e.sends = .ok then e.out.give ⟨g.sid, g.header, false, none⟩ else e.out) :
      Opened net e (e', true)

theorem openGroup_opened (e : Egress) (tsUs : BitVec 64) : Opened net e (e.openGroup net tsUs) := by
  have hsame : ∀ e' : Egress, e'.isVideo = e.isVideo → e'.groups = e.groups → e'.offers = e.offers → e'.out = e.out →
      e'.groupSid = e.groupSid → e'.groupPrevUs = e.groupPrevUs → Flushed { e with nextUni := e'.nextUni } e' := by
    exact fun e' h1 h2 h3 h4 h5 h6 => .of_out h1 h2 h3 rfl h4 h5 h6
  unfold openGroup
  split
  · exact .refused (hsame _ rfl rfl rfl rfl rfl rfl) rfl (Nat.le_refl _)
  · dsimp only
    split
    · exact .refused (hsame _ rfl rfl rfl rfl rfl rfl) rfl (by dsimp only; omega)
    · split
      · exact .refused (hsame _ rfl rfl rfl rfl rfl rfl) rfl (by dsimp only [called]; omega)
      · rename_i k _ _ h _ hans
        exact .opened (g := ⟨e.nextUni + 4 * k, h⟩) (Nat.le_add_right _ _) rfl rfl rfl rfl rfl rfl hans rfl

end Egress

/-! ## What the streams of the groups carry -/

open Egress

/-- **The segments are the header and these frames**, the last of which has the time `prev`. -/
inductive Bears (g : Group) : List Seg → List MediaFrame → BitVec 64 → Prop
  | header : Bears g [⟨g.sid, g.header, false, none⟩] [] 0
  | media {l : List Seg} {fs : List MediaFrame} {prev : BitVec 64} {f : MediaFrame} {data : List Byte}
      (h : Bears g l fs prev) (hf : encodeFrame prev f = some data) :
      Bears g (l ++ [⟨g.sid, data, false, some f⟩]) (fs ++ [f]) f.tsUs

def Seg.EndsGroup (s : Seg) : Prop :=
  s.fin = true ∧ s.frame = none ∧ (s.data = [] ∨ ∃ us, endMarker us = some s.data)

def Marked (l l' : List Seg) : Prop := l' = l ∨ ∃ s : Seg, s.EndsGroup ∧ l' = l ++ [s]

variable {fs : List MediaFrame} {g : Group}

theorem Bears.cut {l : List Seg} {prev : BitVec 64} (h : Bears g l fs prev) :
    ∀ {l' : List Seg}, l' <+: l → l' ≠ [] → ∃ fs' prev', Bears g l' fs' prev' ∧ fs' <+: fs := by
  induction h with
  | header =>
    intro l' hp hne
    rw [← nil_append [_]] at hp
    rcases List.prefix_concat_iff.1 hp with h | h
    · exact ⟨[], 0, h ▸ .header, prefix_rfl⟩
    · exact absurd (List.prefix_nil.1 h) hne
  | @media l fs prev f data h hf ih =>
    intro l' hp hne
    rcases List.prefix_concat_iff.1 hp with heq | hp
    · exact ⟨fs ++ [f], f.tsUs, heq ▸ .media h hf, prefix_rfl⟩
    · obtain ⟨fs', prev', hc, hle⟩ := ih hp hne
      exact ⟨fs', prev', hc, hle.trans (prefix_append _ _)⟩

/-- **The line is the header, frames that begin `fs`, and at most one end marker.** -/
def Spoken (g : Group) (fs : List MediaFrame) (line : List Seg) : Prop :=
  ∃ l fs' prev, Bears g l fs' prev ∧ fs' <+: fs ∧ Marked l line

theorem Spoken.of_bears {l : List Seg} {prev : BitVec 64} (h : Bears g l fs prev) :
    Spoken g fs l := ⟨l, fs, prev, h, prefix_rfl, .inl rfl⟩

theorem Spoken.cut {line line' : List Seg} (h : Spoken g fs line) (hp : line' <+: line)
    (hne : line' ≠ []) : Spoken g fs line' := by
  obtain ⟨l, fs', prev, hc, hle, hend⟩ := h
  have hshort : ∀ {l' : List Seg}, l' <+: l → l' ≠ [] → Spoken g fs l' := by
    intro l' hp hne
    obtain ⟨fs'', prev', hc', hle'⟩ := hc.cut hp hne
    exact ⟨l', fs'', prev', hc', hle'.trans hle, .inl rfl⟩
  rcases hend with rfl | ⟨s, hs, rfl⟩
  · exact hshort hp hne
  · rcases List.prefix_concat_iff.1 hp with rfl | hp
    · exact ⟨l, fs', prev, hc, hle, .inr ⟨s, hs, rfl⟩⟩
    · exact hshort hp hne

theorem Spoken.more {fs fs' : List MediaFrame} {line : List Seg} (h : Spoken g fs line) (hle : fs <+: fs') :
    Spoken g fs' line := by
  obtain ⟨l, fs1, prev, hc, hle1, hend⟩ := h
  exact ⟨l, fs1, prev, hc, hle1.trans hle, hend⟩

namespace Egress

/-! ## Frames offered -/

def offered (e : Egress) (sid : Nat) : List MediaFrame := (e.offers.filter fun o => o.sid = sid).map Offer.frame

def taken (e : Egress) (sid : Nat) : List MediaFrame :=
  (e.offers.filter fun o => o.sid = sid ∧ o.fate = .taken).map Offer.frame

def hasHole (e : Egress) : Prop := ∃ o ∈ e.offers, o.sid = e.groupSid ∧ o.fate = .dropped

def lossy (e : Egress) : Prop := ∃ o ∈ e.offers, o.sid = e.groupSid ∧ o.fate ≠ .taken

theorem hasHole.lossy {e : Egress} (h : e.hasHole) : e.lossy := by
  obtain ⟨o, ho, hsid, hfate⟩ := h
  exact ⟨o, ho, hsid, by simp [hfate]⟩

theorem offered_noted (e : Egress) (sid : Nat) (f : MediaFrame) (fate : Fate) (i : Nat) :
    (e.noted sid f fate).offered i = e.offered i ++ if sid = i then [f] else [] := by
  simp only [offered, noted, filter_append, map_append, filter_singleton]
  by_cases h : sid = i <;> simp [h]

theorem taken_noted (e : Egress) (sid : Nat) (f : MediaFrame) (i : Nat) :
    (e.noted sid f .taken).taken i = e.taken i ++ if sid = i then [f] else [] := by
  simp only [taken, noted, filter_append, map_append, filter_singleton]
  by_cases h : sid = i <;> simp [h]

theorem taken_noted_lost (e : Egress) (sid : Nat) (f : MediaFrame) {fate : Fate} (hf : fate ≠ .taken) (i : Nat) :
    (e.noted sid f fate).taken i = e.taken i := by
  simp [taken, noted, filter_append, hf]

variable {e e' : Egress}

theorem taken_congr (h : e'.offers = e.offers) (i : Nat) : e'.taken i = e.taken i := by
  simp [taken, h]

theorem offered_congr (h : e'.offers = e.offers) (i : Nat) : e'.offered i = e.offered i := by
  simp [offered, h]

theorem hasHole_congr (h : e'.offers = e.offers) (hs : e'.groupSid = e.groupSid) : e'.hasHole ↔ e.hasHole := by
  simp [hasHole, h, hs]

theorem lossy_congr (h : e'.offers = e.offers) (hs : e'.groupSid = e.groupSid) : e'.lossy ↔ e.lossy := by
  simp [lossy, h, hs]

theorem EgressWell.taken_fresh {e : Egress} (h : EgressWell e) {i : Nat} (hi : e.nextUni ≤ i) : e.taken i = [] := by
  unfold taken
  rw [map_eq_nil_iff, filter_eq_nil_iff]
  intro o ho hsid
  have hlt := h.offered o ho
  simp only [decide_eq_true_eq] at hsid
  omega

theorem EgressWell.offered_fresh {e : Egress} (h : EgressWell e) {i : Nat} (hi : e.nextUni ≤ i) : e.offered i = [] := by
  unfold Egress.offered
  rw [map_eq_nil_iff, filter_eq_nil_iff]
  intro o ho hsid
  have hlt := h.offered o ho
  simp only [decide_eq_true_eq] at hsid
  omega

/-! ## What the lines say -/

/-- **Each group's line is its header and the frames taken**, all of them in the open group, where `prev` is the time of the
last one unless a frame was dropped. -/
structure LinesTold (prev : BitVec 64) (e : Egress) : Prop where
  headed : ∀ g ∈ e.groups, [⟨g.sid, g.header, false, none⟩] <+: e.handed g.sid
  past : ∀ g ∈ e.groups, g.sid ≠ e.groupSid → Spoken g (e.taken g.sid) (e.line g.sid)
  now : ∀ g ∈ e.groups, g.sid = e.groupSid → ∃ last, Bears g (e.line g.sid) (e.taken g.sid) last ∧ (¬e.hasHole → last = prev)

variable {prev : BitVec 64}

theorem LinesTold.spoken {e : Egress} (h : LinesTold prev e) {g : Group} (hg : g ∈ e.groups) :
    Spoken g (e.taken g.sid) (e.line g.sid) := by
  by_cases hs : g.sid = e.groupSid
  · obtain ⟨last, hc, -⟩ := h.now g hg hs
    exact .of_bears hc
  · exact h.past g hg hs

theorem LinesTold.ne_nil (h : LinesTold prev e) {g : Group} (hg : g ∈ e.groups)
    (hh : e.handed g.sid <+: e'.handed g.sid) : e'.line g.sid ≠ [] := by
  intro hnil
  have hle := ((h.headed g hg).trans hh).trans (Outbox.handed_le_line Seg.sid e'.out g.sid)
  rw [show Outbox.line Seg.sid e'.out g.sid = [] from hnil] at hle
  cases List.prefix_nil.1 hle

theorem LinesTold.flushed (hw : EgressWell e) (h : LinesTold prev e) (hf : Flushed e e') : LinesTold prev e' where
  headed g hg := by
    rw [hf.groups] at hg
    exact (h.headed g hg).trans (hf.handed g.sid)
  past g hg _ := by
    rw [hf.groups] at hg
    rw [taken_congr hf.offers]
    exact (h.spoken hg).cut (hf.line g.sid) (h.ne_nil hg (hf.handed g.sid))
  now g hg hs := by
    rw [hf.groups] at hg
    rcases hf.group with h0 | ⟨hsid, -, hline⟩
    · have hpos := (hw.below g hg).1
      omega
    · rw [hsid] at hs
      obtain ⟨last, hc, hlast⟩ := h.now g hg hs
      refine ⟨last, ?_, fun hh => hlast fun hh' => hh ((hasHole_congr hf.offers hsid).2 hh')⟩
      rw [taken_congr hf.offers, hs, hline, ← hs]
      exact hc

theorem LinesTold.left {prev prev' : BitVec 64} {e : Egress} (hw : EgressWell e) (h : LinesTold prev e)
    (h0 : e.groupSid = 0) : LinesTold prev' e where
  headed := h.headed
  past := h.past
  now g hg hs := by
    have hpos := (hw.below g hg).1
    omega

theorem LinesTold.closed {prev prev' : BitVec 64} (hw : EgressWell e) (h : LinesTold prev e)
    (hc : Closed e e') : LinesTold prev' e' := by
  have hw' := hw.closed hc
  cases hc with
  | left ht h0 =>
    refine ⟨fun g hg => ?_, fun g hg _ => ?_, fun g hg hs => ?_⟩
    · exact (h.headed g (ht.groups ▸ hg)).trans (ht.handed g.sid)
    · have hg : g ∈ e.groups := ht.groups ▸ hg
      rw [taken_congr ht.offers]
      exact (h.spoken hg).cut (ht.line g.sid) (h.ne_nil hg (ht.handed g.sid))
    · have hpos := (hw'.below g hg).1
      omega
  | @ended e1 e2 _ data hmark ht hsid h0 ha ht' h0' =>
    have hhanded : ∀ i, e.handed i <+: e'.handed i := fun i => ((ht.handed i).trans (ha.handed i)).trans (ht'.handed i)
    have hgroups : e'.groups = e.groups := (ht'.groups.trans ha.groups).trans ht.groups
    have hoffers : e'.offers = e.offers := (ht'.offers.trans ha.offers).trans ht.offers
    refine ⟨fun g hg => ?_, fun g hg _ => ?_, fun g hg hs => ?_⟩
    · exact (h.headed g (hgroups ▸ hg)).trans (hhanded g.sid)
    · have hg : g ∈ e.groups := hgroups ▸ hg
      rw [taken_congr hoffers]
      refine Spoken.cut ?_ (ht'.line g.sid) (h.ne_nil hg (hhanded g.sid))
      have hne := h.ne_nil hg (ht.handed g.sid)
      rw [ha.line]
      by_cases hs : g.sid = e.groupSid
      · obtain ⟨last, hb, -⟩ := h.now g hg hs
        obtain ⟨fs, prev', hb', hle⟩ := hb.cut (ht.line g.sid) hne
        rw [if_pos hs.symm]
        exact ⟨_, fs, prev', hb', hle, .inr ⟨_, ⟨rfl, rfl, hmark⟩, rfl⟩⟩
      · rw [if_neg (Ne.symm hs), append_nil]
        exact (h.past g hg hs).cut (ht.line g.sid) hne
    · have hpos := (hw'.below g hg).1
      omega

end Egress
end MoqLiveCast
