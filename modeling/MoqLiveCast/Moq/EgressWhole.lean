import MoqLiveCast.Moq.EgressRun
import MoqLiveCast.Moq.GroupWire
/-!
# EgressWhole — when a group is sent without a hole

The queue drops the newest segment when it is full, so that the beginning of the group is left whole, but the group
stays open: a smaller frame behind may be taken (`drop_leaves_hole`).
-/
namespace MoqLiveCast

open List

open Egress

namespace Egress

/-- The header is not turned away by a stream that is full; `QuicConnectionStreamSendEx` does so only above its mark. -/
def HeaderOk (net : EgressNet) (e : Egress) : Prop := net.send e.sends ≠ .full

instance (net : EgressNet) (e : Egress) : Decidable (HeaderOk net e) := by
  unfold HeaderOk
  infer_instance

/-- **There is no room either for a frame** of a group in which `lost` says that one was lost. -/
def FrameOk (net : EgressNet) (lost : Egress → Prop) (e : Egress) (f : MediaFrame) : Prop :=
  f.tagHdr < f.pkt.body.length → lost e → ∀ data, encodeFrame e.groupPrevUs f = some data → ¬(e.atFrame f).Room net data.length

/-! ## Lines through the steps -/

variable {e : Egress}

theorem EgressWell.atFrame (h : EgressWell e) (f : MediaFrame) : EgressWell (e.atFrame f) :=
  ⟨h.ordered, h.upTo, h.fresh, h.below, h.apart, h.current, h.offered, h.uni⟩

theorem EgressWell.noted (h : EgressWell e) {sid : Nat} (hs : sid < e.nextUni) (f : MediaFrame) (fate : Fate) :
    EgressWell (e.noted sid f fate) where
  ordered := h.ordered
  upTo := h.upTo
  fresh := h.fresh
  below := h.below
  apart := h.apart
  current := h.current
  offered o ho := by
    rcases List.mem_append.1 ho with ho | ho
    · exact h.offered o ho
    · rw [List.mem_singleton.1 ho]
      exact hs
  uni := h.uni

inductive OfferedAs (net : EgressNet) (f : MediaFrame) (e : Egress) : Egress → Prop
  | unencoded (h : encodeFrame e.groupPrevUs f = none) : OfferedAs net f e (e.noted e.groupSid f .unencoded)
  | pushed {data : List Byte} {r : Egress × Fate} (h : encodeFrame e.groupPrevUs f = some data)
      (hp : Pushed net data false (some f) (e.atFrame f) r) : OfferedAs net f e (r.1.noted e.groupSid f r.2)

theorem offer_some (net : EgressNet) {e : Egress} {f : MediaFrame} {data : List Byte} (h : encodeFrame e.groupPrevUs f =
    some data) : e.offer net f = ((e.atFrame f).push net data false (some f)).1.noted e.groupSid f ((e.atFrame f).push net data
    false (some f)).2 := by
  unfold offer
  rw [h]
  rfl

theorem offer_as (net : EgressNet) (h : EgressWell e) (f : MediaFrame) : OfferedAs net f e (e.offer net f) := by
  unfold offer
  split
  · rename_i hn
    exact .unencoded hn
  · rename_i data hs
    exact .pushed hs (push_spec net (h.atFrame f) data false (some f))

theorem EgressWell.pushed {net : EgressNet} {data : List Byte} {fin : Bool} {frame : Option MediaFrame} {e : Egress}
    {r : Egress × Fate} (h : EgressWell e) (h0 : e.groupSid ≠ 0) (hp : Pushed net data fin frame e r) : EgressWell r.1 := by
  cases hp with
  | taken hf hsid hroom ha => exact (h.flushed hf).appended (hsid ▸ h0) hsid.symm ha
  | dropped hf => exact h.flushed hf
  | gone hf => exact h.flushed hf

variable {net : EgressNet}

theorem Pushed.nextUni {data : List Byte} {fin : Bool} {frame : Option MediaFrame}
    {r : Egress × Fate} (hp : Pushed net data fin frame e r) : r.1.nextUni = e.nextUni := by
  cases hp with
  | taken hf hsid hroom ha => exact ha.nextUni.trans hf.nextUni
  | dropped hf => exact hf.nextUni
  | gone hf => exact hf.nextUni

theorem EgressWell.offer (h : EgressWell e) (h0 : e.groupSid ≠ 0) (f : MediaFrame) : EgressWell (e.offer net f) := by
  have ho := offer_as net h f
  generalize e.offer net f = e' at ho
  cases ho with
  | unencoded => exact h.noted h.groupSid_lt f _
  | pushed hs hp =>
    refine ((h.atFrame f).pushed h0 hp).noted ?_ f _
    rw [hp.nextUni]
    exact h.groupSid_lt

theorem LinesTold.noted_lost {prev prev' : BitVec 64} (h : LinesTold prev e) {sid : Nat} (f : MediaFrame)
    {fate : Fate} (hfate : fate ≠ .taken)
    (hprev : ¬(e.noted sid f fate).hasHole → e.groupSid ≠ 0 → prev = prev') (hw : EgressWell e) :
    LinesTold prev' (e.noted sid f fate) where
  headed := h.headed
  past g hg hs := by
    rw [taken_noted_lost e sid f hfate]
    exact h.past g hg hs
  now g hg hs := by
    obtain ⟨last, hc, hlast⟩ := h.now g hg hs
    rw [taken_noted_lost e sid f hfate]
    have hpos := (hw.below g hg).1
    have hs : g.sid = e.groupSid := hs
    refine ⟨last, hc, fun hh => (hlast fun hh' => hh ?_).trans (hprev hh (by omega))⟩
    obtain ⟨o, ho, hsid, hf⟩ := hh'
    exact ⟨o, mem_append_left _ ho, hsid, hf⟩

theorem LinesTold.taken {prev : BitVec 64} {e e' : Egress} (h : LinesTold prev e) (hhole : ¬e.hasHole)
    {f : MediaFrame} {data : List Byte} (hf : encodeFrame prev f = some data)
    (ha : Appended ⟨e.groupSid, data, false, some f⟩ e e') : LinesTold f.tsUs (e'.noted e.groupSid f .taken) where
  headed g hg := by
    have hg : g ∈ e.groups := ha.groups ▸ hg
    exact (h.headed g hg).trans (ha.handed g.sid)
  past g hg hs := by
    have hg : g ∈ e.groups := ha.groups ▸ hg
    have hs : g.sid ≠ e.groupSid := ha.groupSid ▸ hs
    have hline : (e'.noted e.groupSid f .taken).line g.sid = _ := ha.line g.sid
    rw [hline, taken_noted, if_neg (Ne.symm hs), if_neg (Ne.symm hs), taken_congr ha.offers, append_nil, append_nil]
    exact h.past g hg hs
  now g hg hs := by
    have hg : g ∈ e.groups := ha.groups ▸ hg
    have hs : g.sid = e.groupSid := ha.groupSid ▸ hs
    obtain ⟨last, hc, hlast⟩ := h.now g hg hs
    have hline : (e'.noted e.groupSid f .taken).line g.sid = _ := ha.line g.sid
    rw [hline, taken_noted, if_pos hs.symm, if_pos hs.symm, taken_congr ha.offers, ← hs]
    refine ⟨f.tsUs, .media hc ?_, fun _ => rfl⟩
    rw [hlast hhole]
    exact hf

theorem LinesTold.offer (hw : EgressWell e) (h0 : e.groupSid ≠ 0) (h : LinesTold e.groupPrevUs e) (f : MediaFrame)
    (hok : e.hasHole → ∀ data, encodeFrame e.groupPrevUs f = some data → ¬(e.atFrame f).Room net data.length) :
    LinesTold (e.offer net f).groupPrevUs (e.offer net f) := by
  have ho := offer_as net hw f
  generalize e.offer net f = e' at ho
  cases ho with
  | unencoded hn => exact h.noted_lost f (by simp) (fun _ _ => rfl) hw
  | @pushed data r hs hp =>
    have hat : LinesTold e.groupPrevUs (e.atFrame f) := ⟨h.headed, h.past, h.now⟩
    have hwat := hw.atFrame f
    cases hp with
    | @taken e1 e2 hf hsid hroom ha =>
      have hhole : ¬e.hasHole := fun hh => hok hh data hs (hroom rfl (encodeFrame_ne_nil hs))
      have hhole1 : ¬e1.hasHole := fun hh => hhole ((hasHole_congr hf.offers hsid).1 hh)
      have hsid : e1.groupSid = e.groupSid := hsid
      have ha1 : Appended ⟨e1.groupSid, data, false, some f⟩ e1 e2 := by
        rw [hsid]
        exact ha
      have ht := (hat.flushed hwat hf).taken hhole1 hs ha1
      have hprev : e2.groupPrevUs = f.tsUs := by
        rcases hf.group with hz | ⟨-, hp, -⟩
        · exact absurd (hsid.symm.trans hz) h0
        · exact ha.groupPrevUs.trans hp
      rw [hsid, ← hprev] at ht
      exact ht
    | @dropped e1 hf hsid hfin hroom =>
      refine (hat.flushed hwat hf).noted_lost f (by simp) (fun hh _ => absurd ?_ hh) (hwat.flushed hf)
      exact ⟨⟨e.groupSid, f, .dropped⟩, mem_append_right _ (mem_singleton_self _), hsid.symm, rfl⟩
    | gone hf hsid =>
      exact (hat.flushed hwat hf).noted_lost f (by simp) (fun _ hne => absurd hsid hne) (hwat.flushed hf)

theorem EgressWell.raise (h : EgressWell e) {n : Nat} (hn : e.nextUni ≤ n) : EgressWell { e with nextUni := n } where
  ordered := h.ordered
  upTo := h.upTo
  fresh i hi := h.fresh i (Nat.le_trans hn hi)
  below g hg := ⟨(h.below g hg).1, Nat.lt_of_lt_of_le (h.below g hg).2 hn⟩
  apart := h.apart
  current := h.current
  offered o ho := Nat.lt_of_lt_of_le (h.offered o ho) hn
  uni := Nat.lt_of_lt_of_le h.uni hn

theorem EgressWell.pending_lt (h : EgressWell e) {s : Seg} (hs : s ∈ e.out.pending) : s.sid < e.nextUni := by
  by_contra hge
  have hnil := h.fresh s.sid (Nat.le_of_not_lt hge)
  have hmem : s ∈ e.line s.sid := by
    unfold Egress.line
    rw [Outbox.line_eq]
    exact mem_append_right _ (List.mem_filter.2 ⟨hs, by simp⟩)
  rw [hnil] at hmem
  cases hmem

theorem line_opened {e e' : Egress} (h : EgressWell e) {g : Group} (hsid : e.nextUni ≤ g.sid)
    (hout : e'.out = if net.send e.sends = .ok then e.out.give ⟨g.sid, g.header, false, none⟩ else e.out) (i : Nat) :
    e'.line i = e.line i ++ if net.send e.sends = .ok ∧ g.sid = i then [⟨g.sid, g.header, false, none⟩] else [] := by
  have hne : ∀ s ∈ e.out.pending, s.sid ≠ g.sid := by
    intro s hs
    have := h.pending_lt hs
    omega
  unfold Egress.line
  rw [hout]
  by_cases hok : net.send e.sends = .ok
  · rw [if_pos hok, Outbox.line_give Seg.sid hne]
    simp [hok]
  · simp [hok]

theorem EgressWell.opened {net : EgressNet} {e : Egress} {r : Egress × Bool} (h : EgressWell e) (ho : Opened net e r) :
    EgressWell r.1 := by
  cases ho with
  | refused hf hsid hnext => exact (h.raise hnext).flushed hf
  | @opened e' g hsid hnext hvideo hgroups hoffers hgroup hprev hans hout =>
    change EgressWell e'
    have hpend : e'.out.pending = e.out.pending := by
      rw [hout]
      split <;> rfl
    have huni := h.uni
    refine ⟨?_, ?_, ?_, ?_, ?_, ?_, ?_, by omega⟩
    · unfold Outbox.Ordered
      rw [hpend]
      exact h.ordered
    · intro _ s hs
      rw [hpend] at hs
      have := h.pending_lt hs
      omega
    · intro i hi
      have hne : ¬(net.send e.sends = .ok ∧ g.sid = i) := by omega
      rw [line_opened h hsid hout, if_neg hne, append_nil]
      exact h.fresh i (by omega)
    · intro g' hg'
      rw [hgroups] at hg'
      rcases List.mem_append.1 hg' with hg' | hg'
      · have := h.below g' hg'
        omega
      · rw [List.mem_singleton.1 hg']
        omega
    · rw [hgroups]
      refine List.pairwise_append.2 ⟨h.apart, pairwise_singleton _ _, fun g1 hg1 g2 hg2 => ?_⟩
      have := h.below g1 hg1
      rw [List.mem_singleton.1 hg2]
      omega
    · intro _
      refine ⟨g, ?_, hgroup.symm⟩
      rw [hgroups]
      exact mem_append_right _ (mem_singleton_self _)
    · intro o ho
      rw [hoffers] at ho
      have := h.offered o ho
      omega

theorem EgressWell.opened_ne {r : Egress × Bool} (h : EgressWell e) (ho : Opened net e r)
    (ht : r.2 = true) : r.1.groupSid ≠ 0 := by
  cases ho with
  | refused => cases ht
  | opened hsid hnext hvideo hgroups hoffers hgroup =>
    have huni := h.uni
    exact fun h0 => absurd (hgroup.symm.trans h0) (by omega)

theorem LinesTold.refused {net : EgressNet} {e : Egress} {r : Egress × Bool} (hw : EgressWell e)
    (h : LinesTold e.groupPrevUs e) (hr : r.2 = false) (ho : Opened net e r) : LinesTold r.1.groupPrevUs r.1 := by
  cases ho with
  | @refused e' hf hsid hnext =>
    have hup : LinesTold e.groupPrevUs { e with nextUni := e'.nextUni } := ⟨h.headed, h.past, h.now⟩
    have hfl := hup.flushed (hw.raise hnext) hf
    rcases hf.group with h0 | ⟨-, hp, -⟩
    · exact hfl.left ((hw.raise hnext).flushed hf) h0
    · change LinesTold e'.groupPrevUs e'
      rw [hp]
      exact hfl
  | opened => cases hr

theorem LinesTold.opened {net : EgressNet} {e : Egress} {r : Egress × Bool} (hw : EgressWell e)
    (h : LinesTold e.groupPrevUs e) (hok : HeaderOk net e) (ho : Opened net e r) : LinesTold r.1.groupPrevUs r.1 := by
  cases ho with
  | refused hf hsid hnext => exact h.refused (r := (_, false)) hw rfl (@Opened.refused net e _ hf hsid hnext)
  | @opened e' g hsid hnext hvideo hgroups hoffers hgroup hprev hans hout =>
    change LinesTold e'.groupPrevUs e'
    have hok : net.send e.sends = .ok := by
      cases ha : net.send e.sends with
      | ok => rfl
      | full => exact absurd ha hok
      | dead => exact absurd ha hans
    have hline : ∀ i, e'.line i = e.line i ++ if g.sid = i then [⟨g.sid, g.header, false, none⟩] else [] := by
      intro i
      rw [line_opened hw hsid hout]
      simp only [hok, true_and]
    have hhanded : ∀ i, e'.handed i = e.handed i ++ if g.sid = i then [⟨g.sid, g.header, false, none⟩] else [] := by
      intro i
      unfold Egress.handed
      rw [hout, if_pos hok, Outbox.handed_give]
    have hold : ∀ g' ∈ e.groups, g.sid ≠ g'.sid := by
      intro g' hg'
      have := hw.below g' hg'
      omega
    refine ⟨fun g' hg' => ?_, fun g' hg' hs => ?_, fun g' hg' hs => ?_⟩
    · rw [hgroups] at hg'
      rw [hhanded]
      rcases List.mem_append.1 hg' with hg' | hg'
      · exact (h.headed g' hg').trans (prefix_append _ _)
      · rw [List.mem_singleton.1 hg', if_pos rfl]
        have hnil : e.handed g.sid = [] :=
          List.prefix_nil.1 ((Outbox.handed_le_line Seg.sid e.out g.sid).trans (hw.fresh g.sid hsid ▸ prefix_rfl))
        simp [hnil]
    · rw [hgroups] at hg'
      rw [hgroup] at hs
      have hg' : g' ∈ e.groups := by
        rcases List.mem_append.1 hg' with hg' | hg'
        · exact hg'
        · exact absurd (congrArg Group.sid (List.mem_singleton.1 hg')) hs
      rw [hline, if_neg (hold g' hg'), append_nil, taken_congr hoffers]
      exact h.spoken hg'
    · rw [hgroups] at hg'
      rw [hgroup] at hs
      rcases List.mem_append.1 hg' with hg' | hg'
      · exact absurd hs.symm (hold g' hg')
      · rw [List.mem_singleton.1 hg', hline, if_pos rfl, taken_congr hoffers, hw.fresh g.sid hsid, hw.taken_fresh hsid]
        exact ⟨0, .header, fun _ => hprev.symm⟩

theorem linesTold_kept (net : EgressNet) {lost : Egress → Prop} (hlost : ∀ e, e.hasHole → lost e) :
    Kept net (HeaderOk net) (FrameOk net lost) (fun e => EgressWell e ∧ LinesTold e.groupPrevUs e)
      (fun _ e => (EgressWell e ∧ LinesTold e.groupPrevUs e) ∧ e.groupSid ≠ 0) where
  flushed h hf := by
    refine ⟨h.1.flushed hf, ?_⟩
    have ht := h.2.flushed h.1 hf
    rcases hf.group with h0 | ⟨-, hp, -⟩
    · exact ht.left (h.1.flushed hf) h0
    · rw [hp]
      exact ht
  close cleanEnd h :=
    have hc := closeGroup_closed net h.1 cleanEnd
    ⟨h.1.closed hc, h.2.closed h.1 hc⟩
  opened {e f} tsUs h hok _ ht := by
    have ho := openGroup_opened net e tsUs
    exact ⟨⟨h.1.opened ho, h.2.opened h.1 hok ho⟩, h.1.opened_ne ho ht⟩
  refused {e} tsUs h hf := by
    have ho := openGroup_opened net e tsUs
    exact ⟨h.1.opened ho, h.2.refused h.1 hf ho⟩
  here _ h h0 := ⟨h, h0⟩
  offer h hok hlen := ⟨h.1.1.offer h.2 _, h.1.2.offer h.1.1 h.2 _ fun hh => hok hlen (hlost _ hh)⟩
  short h _ _ := h.1
  stop {e} h := by
    rcases stop_closed net e with heq | hc
    · rw [heq]
      exact h
    · exact ⟨h.1.closed hc, h.2.closed h.1 hc⟩

/-! ## No hole -/

/-- **The frames taken of a group are its first ones**, and all of them if none of the open group was lost. -/
structure HoleFree (e : Egress) : Prop where
  taken : ∀ i, e.taken i <+: e.offered i
  now : e.groupSid ≠ 0 → ¬e.lossy → e.taken e.groupSid = e.offered e.groupSid

theorem HoleFree.same {e e' : Egress} (h : HoleFree e) (ho : e'.offers = e.offers)
    (hs : e'.groupSid = 0 ∨ e'.groupSid = e.groupSid) : HoleFree e' where
  taken i := by
    rw [taken_congr ho, offered_congr ho]
    exact h.taken i
  now h0 hl := by
    have hsid := hs.resolve_left h0
    rw [taken_congr ho, offered_congr ho, hsid]
    exact h.now (hsid ▸ h0) fun hl' => hl ((lossy_congr ho hsid).2 hl')

theorem HoleFree.closed {e e' : Egress} (h : HoleFree e) (hc : Closed e e') : HoleFree e' := by
  cases hc with
  | left ht h0 => exact h.same ht.offers (.inl h0)
  | ended hmark ht hsid h0 ha ht' h0' => exact h.same ((ht'.offers.trans ha.offers).trans ht.offers) (.inl h0')

theorem HoleFree.opened {net : EgressNet} {e : Egress} {r : Egress × Bool} (hw : EgressWell e) (h : HoleFree e)
    (ho : Opened net e r) : HoleFree r.1 := by
  cases ho with
  | refused hf hsid hnext => exact h.same hf.offers (.inr hsid)
  | @opened e' g hsid hnext hvideo hgroups hoffers hgroup hprev hans hout =>
    refine ⟨fun i => ?_, fun _ _ => ?_⟩
    · have htaken : e'.taken i = e.taken i := taken_congr hoffers i
      have hoffered : e'.offered i = e.offered i := offered_congr hoffers i
      rw [htaken, hoffered]
      exact h.taken i
    · change e'.taken e'.groupSid = e'.offered e'.groupSid
      rw [taken_congr hoffers, offered_congr hoffers, hgroup, hw.taken_fresh hsid, hw.offered_fresh hsid]

theorem HoleFree.noted_lost (h : HoleFree e) {sid : Nat} (f : MediaFrame) {fate : Fate} (hfate : fate ≠ .taken)
    (hs : e.groupSid = 0 ∨ sid = e.groupSid) : HoleFree (e.noted sid f fate) where
  taken i := by
    rw [taken_noted_lost e sid f hfate, offered_noted]
    exact (h.taken i).trans (prefix_append _ _)
  now h0 hl := absurd ⟨⟨sid, f, fate⟩, mem_append_right _ (mem_singleton_self _), hs.resolve_left h0, hfate⟩ hl

theorem HoleFree.offer (hw : EgressWell e) (h0 : e.groupSid ≠ 0) (h : HoleFree e) (f : MediaFrame) (hok : e.lossy →
    ∀ data, encodeFrame e.groupPrevUs f = some data → ¬(e.atFrame f).Room net data.length) : HoleFree (e.offer net f) := by
  have ho := offer_as net hw f
  generalize e.offer net f = e' at ho
  cases ho with
  | unencoded => exact h.noted_lost f (by simp) (.inr rfl)
  | @pushed data r hs hp =>
    have hat : HoleFree (e.atFrame f) := ⟨h.taken, h.now⟩
    cases hp with
    | @taken e1 e2 hf hsid hroom ha =>
      have hl : ¬e.lossy := fun hl => hok hl data hs (hroom rfl (encodeFrame_ne_nil hs))
      have hoff : e2.offers = e.offers := ha.offers.trans hf.offers
      have hsame : ∀ i, (e2.noted e.groupSid f .taken).taken i <+: (e2.noted e.groupSid f .taken).offered i := by
        intro i
        rw [taken_noted, offered_noted, taken_congr hoff, offered_congr hoff]
        by_cases hi : e.groupSid = i
        · rw [if_pos hi, ← hi, h.now h0 hl]
        · rw [if_neg hi, append_nil, append_nil]
          exact h.taken i
      refine ⟨hsame, fun _ _ => ?_⟩
      have hcur : (e2.noted e.groupSid f .taken).groupSid = e.groupSid := ha.groupSid.trans hsid
      rw [hcur, taken_noted, offered_noted, taken_congr hoff, offered_congr hoff, h.now h0 hl]
    | dropped hf hsid hfin hroom => exact (hat.same hf.offers (.inr hsid)).noted_lost f (by simp) (.inr hsid.symm)
    | gone hf hsid => exact (hat.same hf.offers (.inl hsid)).noted_lost f (by simp) (.inl hsid)

theorem holeFree_kept (net : EgressNet) : Kept net (HeaderOk net) (FrameOk net lossy) (fun e => EgressWell e ∧ HoleFree e)
      (fun _ e => (EgressWell e ∧ HoleFree e) ∧ e.groupSid ≠ 0) where
  flushed h hf := ⟨h.1.flushed hf, h.2.same hf.offers (hf.group.imp_right And.left)⟩
  close cleanEnd h :=
    have hc := closeGroup_closed net h.1 cleanEnd
    ⟨h.1.closed hc, h.2.closed hc⟩
  opened {e f} tsUs h _ _ ht := by
    have ho := openGroup_opened net e tsUs
    exact ⟨⟨h.1.opened ho, h.2.opened h.1 ho⟩, h.1.opened_ne ho ht⟩
  refused {e} tsUs h _ := by
    have ho := openGroup_opened net e tsUs
    exact ⟨h.1.opened ho, h.2.opened h.1 ho⟩
  here _ h h0 := ⟨h, h0⟩
  offer h hok hlen := ⟨h.1.1.offer h.2 _, h.1.2.offer h.1.1 h.2 _ (hok hlen)⟩
  short h _ _ := h.1
  stop {e} h := by
    rcases stop_closed net e with heq | hc
    · rw [heq]
      exact h
    · exact ⟨h.1.closed hc, h.2.closed hc⟩

theorem HoleFree.init (isVideo : Bool) : HoleFree { isVideo := isVideo } :=
  ⟨fun _ => prefix_rfl, fun h0 => absurd rfl h0⟩

theorem LinesTold.init (isVideo : Bool) : LinesTold 0 { isVideo := isVideo } :=
  ⟨by simp, by simp, by simp⟩

end Egress

/-- **A group is sent without a hole**: in every run in which no header is turned away by a full stream, and a frame that
is offered to a group behind one that was lost finds no room either, what the transport took of a group and what waits of
it are the header, the first of the frames offered to it, and at most one end marker. -/
theorem groups_whole (net : EgressNet) (isVideo : Bool) (ops : List EgressOp)
    (h : StepsOk (Egress.step net) (StepOk net (HeaderOk net) (FrameOk net lossy)) { isVideo := isVideo } ops) :
    ∀ g ∈ (Egress.run net { isVideo := isVideo } ops).groups, Spoken g ((Egress.run net { isVideo := isVideo } ops).offered g.sid)
        ((Egress.run net { isVideo := isVideo } ops).line g.sid) := by
  intro g hg
  have ht := (linesTold_kept net fun _ hh => hh.lossy).run ops ⟨.init isVideo, .init isVideo⟩ h
  have hh := (holeFree_kept net).run ops ⟨.init isVideo, .init isVideo⟩ h
  exact (ht.2.spoken hg).more (hh.2.taken g.sid)

def openNet : EgressNet := ⟨fun _ => .ok, fun _ => some 0⟩

def videoPacket (key : Bool) (dts : Int) (body : List Byte) : MediaPacket := ⟨.video, false, key, dts, dts, body⟩

def keyOps : List EgressOp := [.start 1 4 none, .packet (videoPacket true 1000 [0x17, 1, 0, 0, 0, 9])]

theorem groups_whole_sample : (Egress.run openNet { isVideo := true } keyOps).groups = [⟨3, [0, 3, 1, 0, 0]⟩] ∧
    ∀ g ∈ (Egress.run openNet { isVideo := true } keyOps).groups,
      Spoken g ((Egress.run openNet { isVideo := true } keyOps).offered g.sid)
        ((Egress.run openNet { isVideo := true } keyOps).line g.sid) := by
  refine ⟨by decide +kernel, groups_whole openNet true keyOps ⟨(fun _ _ h => nomatch h), fun _ => ⟨fun _ => ?_, ?_⟩, trivial⟩⟩
  · exact fun h => SendAnswer.noConfusion h
  · rintro _ _ ⟨o, ho, -⟩
    cases ho

/-! ## A hole -/

theorem Bears.frames {g : Group} {l : List Seg} {fs : List MediaFrame} {prev : BitVec 64} (h : Bears g l fs prev) :
    l.filterMap Seg.frame = fs := by
  induction h with
  | header => rfl
  | media h hf ih => simp [ih]

theorem Spoken.frames {g : Group} {fs : List MediaFrame} {line : List Seg} (h : Spoken g fs line) :
    line.filterMap Seg.frame <+: fs := by
  obtain ⟨l, fs', prev, hb, hle, hend⟩ := h
  rcases hend with rfl | ⟨s, hs, rfl⟩
  · rw [hb.frames]
    exact hle
  · simp [hs.2.1, hb.frames, hle]

def fullNet : EgressNet := ⟨fun n => if n = 3 then .full else .ok, fun _ => some 0⟩

def holeOps (big : List Byte) : List EgressOp :=
  [.start 1 4 none, .packet (videoPacket true 1000 [0x17, 1, 0, 0, 0, 9]), .packet (videoPacket false 1040 big),
    .packet (videoPacket false 1080 [0x27, 1, 0, 0, 0, 7])]

def keyTaken : Egress := Egress.run fullNet { isVideo := true } ((holeOps []).take 2)

def bigFrame (big : List Byte) : MediaFrame := ⟨videoPacket false 1040 big, 40000, 5⟩

def atBig : Egress := (keyTaken.atGroup fullNet (videoPacket false 1040 [])).1

variable {big : List Byte}

theorem bigFrame_encoded (h : big.length = 2097160) :
    ∃ data, encodeFrame 0 (bigFrame big) = some data ∧ kPendingCapBytes < data.length := by
  have hpayload : (bigFrame big).payload.length = 2097159 := by
    change ([0x80, 0, 0x9c, 0x40] ++ big.drop 5).length = _
    rw [length_append, length_drop, h]
    rfl
  have hts : ¬kMlVarintMax < (40000 : BitVec 64) := by decide
  have hzig : ¬((40000 - 0 : BitVec 64).slt kMlZigzagMin ∨ kMlZigzagMax.slt (40000 - 0 : BitVec 64)) := by decide
  refine ⟨_, encodeFrame_eq_some.2 ⟨hts, hzig, ?_, rfl⟩, ?_⟩
  · rw [hpayload]
    decide
  · unfold frameOnWire kPendingCapBytes
    rw [length_append, hpayload]
    omega

theorem big_dropped (h : big.length = 2097160) : keyTaken.writePacket fullNet (videoPacket false 1040 big) =
    (atBig.atFrame (bigFrame big)).called.noted 3 (bigFrame big) .dropped := by
  have hne : big ≠ [] := by
    rintro rfl
    cases h
  have hwants : keyTaken.wants (videoPacket false 1040 big) := ⟨rfl, rfl, hne, rfl, rfl⟩
  have hat : keyTaken.atGroup fullNet (videoPacket false 1040 big) = (atBig, true) := rfl
  have hframe : keyTaken.frameOf fullNet (videoPacket false 1040 big) = bigFrame big := rfl
  have hlong : ¬(videoPacket false 1040 big).body.length ≤ keyTaken.tagHdr := by
    change ¬big.length ≤ 5
    omega
  obtain ⟨data, hcode, hbig⟩ := bigFrame_encoded h
  have hoffer := @offer_some fullNet atBig (bigFrame big) data (by exact hcode)
  have hpush : (atBig.atFrame (bigFrame big)).push fullNet data false (some (bigFrame big)) =
      (atBig.atFrame (bigFrame big)).called.enqueue ⟨3, data, false, some (bigFrame big)⟩ := rfl
  have hdrop : data ≠ [] ∧ false = false ∧ kPendingCapBytes < (atBig.atFrame (bigFrame big)).called.pendingBytes + data.length :=
    ⟨encodeFrame_ne_nil hcode, rfl, Nat.lt_of_lt_of_le hbig (Nat.le_add_left _ _)⟩
  unfold writePacket
  rw [if_pos hwants, hat, hframe]
  dsimp only
  rw [if_neg (by decide), if_neg hlong, hoffer, hpush]
  unfold enqueue
  rw [if_pos hdrop]
  rfl

def lastFrame : MediaFrame := ⟨videoPacket false 1080 [0x27, 1, 0, 0, 0, 7], 80000, 5⟩

def bigDropped (big : List Byte) : Egress := (atBig.atFrame (bigFrame big)).called.noted 3 (bigFrame big) .dropped

theorem last_taken (big : List Byte) : ∃ data, encodeFrame 40000 lastFrame = some data ∧
    (bigDropped big).writePacket fullNet lastFrame.pkt =
      ({ (((bigDropped big).atGroup fullNet lastFrame.pkt).1.atFrame lastFrame).called with
          out := (bigDropped big).out.give ⟨3, data, false, some lastFrame⟩ }).noted 3 lastFrame .taken := by
  have hsome : (encodeFrame 40000 lastFrame).isSome = true := by decide +kernel
  obtain ⟨data, hcode⟩ := Option.isSome_iff_exists.1 hsome
  have hoffer := @offer_some fullNet ((bigDropped big).atGroup fullNet lastFrame.pkt).1 lastFrame data (by exact hcode)
  have hwants : (bigDropped big).wants lastFrame.pkt := ⟨rfl, rfl, by decide, rfl, rfl⟩
  have hat : ((bigDropped big).atGroup fullNet lastFrame.pkt).2 = true := rfl
  have hframe : (bigDropped big).frameOf fullNet lastFrame.pkt = lastFrame := rfl
  have hlong : ¬lastFrame.pkt.body.length ≤ (bigDropped big).tagHdr := (by decide : ¬6 ≤ 5)
  refine ⟨data, hcode, ?_⟩
  unfold writePacket
  rw [if_pos hwants, hframe]
  dsimp only
  rw [hat, if_neg (by decide), if_neg hlong, hoffer]
  rfl

theorem holeOps_run (h : big.length = 2097160) : Egress.run fullNet { isVideo := true } (holeOps big) =
    (bigDropped big).writePacket fullNet lastFrame.pkt := by
  unfold bigDropped
  rw [← big_dropped h]
  rfl

/-- **A frame that is dropped leaves a hole**: the next one is taken. -/
theorem drop_leaves_hole : ¬∀ g ∈ (Egress.run fullNet { isVideo := true } (holeOps (replicate 2097160 0))).groups,
      Spoken g ((Egress.run fullNet { isVideo := true } (holeOps (replicate 2097160 0))).offered g.sid)
        ((Egress.run fullNet { isVideo := true } (holeOps (replicate 2097160 0))).line g.sid) := by
  intro h
  rw [holeOps_run length_replicate] at h
  generalize replicate 2097160 (0 : Byte) = big at h
  obtain ⟨data, -, htaken⟩ := last_taken big
  rw [htaken] at h
  have hle := (h ⟨3, [0, 3, 1, 0, 0]⟩ (mem_singleton_self _)).frames
  have hframes : [(⟨videoPacket true 1000 [0x17, 1, 0, 0, 0, 9], 0, 5⟩ : MediaFrame), lastFrame] <+:
      [⟨videoPacket true 1000 [0x17, 1, 0, 0, 0, 9], 0, 5⟩, bigFrame big, lastFrame] := hle
  simp [cons_prefix_cons, bigFrame, lastFrame] at hframes

end MoqLiveCast
