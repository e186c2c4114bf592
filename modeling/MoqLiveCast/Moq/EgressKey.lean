import MoqLiveCast.Moq.EgressWhole
/-!
# EgressKey — when each group of video starts with a key frame

A group is opened for a key frame, and stays open if that frame has no payload, cannot be encoded or finds no room
(`short_key_lost`).
-/
namespace MoqLiveCast

open Egress

namespace Egress

def frames (e : Egress) (sid : Nat) : List MediaFrame := (e.line sid).filterMap Seg.frame

/-- **A key frame has a payload, is encoded, and finds room.** -/
def KeyOk (net : EgressNet) (e : Egress) (f : MediaFrame) : Prop :=
  f.pkt.isKeyFrame = true → f.tagHdr < f.pkt.body.length ∧
    ∃ data, encodeFrame e.groupPrevUs f = some data ∧ (e.atFrame f).Room net data.length

def Seg.Sound (s : Seg) : Prop := ∀ f, s.frame = some f → ∃ prev, encodeFrame prev f = some s.data

/-- **The first frame on each line is a key frame**, and there is one on the line of the open group. -/
structure Keyed (e : Egress) : Prop where
  isVideo : e.isVideo = true
  first : ∀ i f, (e.frames i).head? = some f → f.pkt.isKeyFrame = true
  sound : ∀ i, ∀ s ∈ e.line i, Seg.Sound s

theorem frames_le {e e' : Egress} {i : Nat} (h : e'.line i <+: e.line i) : e'.frames i <+: e.frames i :=
  h.filterMap _

theorem head?_of_le {α : Type} {l l' : List α} {x : α} (h : l' <+: l) (hx : l'.head? = some x) : l.head? = some x := by
  obtain ⟨t, rfl⟩ := h
  rw [List.head?_append, hx]
  rfl

theorem Keyed.trimmed {e e' : Egress} (h : Keyed e) (ht : Trimmed e e') : Keyed e' where
  isVideo := ht.isVideo.trans h.isVideo
  first i f hf := h.first i f (head?_of_le (frames_le (ht.line i)) hf)
  sound i s hs := h.sound i s ((ht.line i).subset hs)

theorem Keyed.plain {e e' : Egress} {seg : Seg} (h : Keyed e) (hseg : seg.frame = none) (hv : e'.isVideo = e.isVideo)
    (hline : ∀ i, e'.line i = e.line i ++ if seg.sid = i then [seg] else []) : Keyed e' where
  isVideo := hv.trans h.isVideo
  first i f hf := by
    refine h.first i f ?_
    unfold Egress.frames at hf ⊢
    rw [hline, List.filterMap_append] at hf
    split at hf
    · simpa [hseg] using hf
    · simpa using hf
  sound i s hs := by
    rw [hline] at hs
    rcases List.mem_append.1 hs with hs | hs
    · exact h.sound i s hs
    · split at hs
      · rw [List.mem_singleton.1 hs]
        intro f hf
        rw [hseg] at hf
        cases hf
      · cases hs

theorem Keyed.closed {e e' : Egress} (h : Keyed e) (hc : Closed e e') : Keyed e' := by
  cases hc with
  | left ht h0 => exact h.trimmed ht
  | ended hmark ht hsid h0 ha ht' h0' => exact ((h.trimmed ht).plain rfl ha.isVideo ha.line).trimmed ht'

theorem Keyed.opened {net : EgressNet} {e : Egress} {r : Egress × Bool} (hw : EgressWell e) (h : Keyed e)
    (ho : Opened net e r) : Keyed r.1 := by
  cases ho with
  | @refused e' hf hsid hnext =>
    have hup : Keyed { e with nextUni := e'.nextUni } := ⟨h.isVideo, h.first, h.sound⟩
    exact hup.trimmed hf.toTrimmed
  | @opened e' g hsid hnext hvideo hgroups hoffers hgroup hprev hans hout =>
    have hline := line_opened hw hsid hout
    by_cases hok : net.send e.sends = .ok
    · have hseg : (⟨g.sid, g.header, false, none⟩ : Seg).frame = none := rfl
      exact h.plain hseg hvideo fun i => by
        rw [hline i]
        simp [hok]
    · have hsame : ∀ i, e'.line i = e.line i := fun i => by
        rw [hline i]
        simp [hok]
      exact ⟨hvideo.trans h.isVideo, fun i f hf => h.first i f (by rwa [Egress.frames, hsame] at hf),
        fun i s hs => h.sound i s (by rwa [hsame] at hs)⟩

theorem Keyed.media {e e' : Egress} {f : MediaFrame} {data : List Byte} {prev : BitVec 64} (h : Keyed e)
    (hcode : encodeFrame prev f = some data) (hkey : e.frames e.groupSid ≠ [] ∨ f.pkt.isKeyFrame = true)
    (ha : Appended ⟨e.groupSid, data, false, some f⟩ e e') : Keyed e' where
  isVideo := ha.isVideo.trans h.isVideo
  first i g hg := by
    unfold Egress.frames at hg
    rw [ha.line, List.filterMap_append, List.head?_append] at hg
    cases hold : (e.frames i).head? with
    | some g' =>
      have hold' : ((e.line i).filterMap Seg.frame).head? = some g' := hold
      rw [hold', Option.some_or] at hg
      rw [← Option.some.inj hg]
      exact h.first i g' hold
    | none =>
      have hold' : ((e.line i).filterMap Seg.frame).head? = none := hold
      rw [hold', Option.none_or] at hg
      split at hg
      · rename_i hi
        have hi : e.groupSid = i := hi
        have hnil : e.frames e.groupSid = [] := by
          rw [hi]
          exact List.head?_eq_none_iff.1 hold
        have hfg : f = g := Option.some.inj hg
        rw [← hfg]
        exact hkey.resolve_left fun hne => hne hnil
      · cases hg
  sound i s hs := by
    rw [ha.line] at hs
    rcases List.mem_append.1 hs with hs | hs
    · exact h.sound i s hs
    · split at hs
      · rw [List.mem_singleton.1 hs]
        intro g hg
        rw [← Option.some.inj hg]
        exact ⟨prev, hcode⟩
      · cases hs

def Begun (e : Egress) : Prop := e.groupSid ≠ 0 → e.frames e.groupSid ≠ []

theorem Begun.flushed {e e' : Egress} (h : Begun e) (hf : Flushed e e') : Begun e' := by
  intro h0
  rcases hf.group with hz | ⟨hsid, -, hline⟩
  · exact absurd hz h0
  · rw [hsid] at h0 ⊢
    unfold Egress.frames
    rw [hline]
    exact h h0

theorem Closed.groupSid {e e' : Egress} (h : Closed e e') : e'.groupSid = 0 := by
  cases h <;> assumption

theorem Keyed.offer {net : EgressNet} {e : Egress} (hw : EgressWell e) (h0 : e.groupSid ≠ 0) (h : Keyed e)
    {f : MediaFrame} (hkey : e.frames e.groupSid ≠ [] ∨ f.pkt.isKeyFrame = true) (hok : KeyOk net e f) :
    Keyed (e.offer net f) ∧ Begun (e.offer net f) := by
  have ho := offer_as net hw f
  generalize e.offer net f = e' at ho
  have hbegun : f.pkt.isKeyFrame = false → Begun e := by
    intro hf _
    exact hkey.resolve_right (by simp [hf])
  cases ho with
  | unencoded hn =>
    refine ⟨⟨h.isVideo, h.first, h.sound⟩, ?_⟩
    cases hk : f.pkt.isKeyFrame with
    | false => exact hbegun hk
    | true =>
      obtain ⟨-, data, hdata, -⟩ := hok hk
      rw [hn] at hdata
      cases hdata
  | @pushed data r hs hp =>
    have hat : Keyed (e.atFrame f) := ⟨h.isVideo, h.first, h.sound⟩
    cases hp with
    | @taken e1 e2 hf hsid hroom ha =>
      have h1 := hat.trimmed hf.toTrimmed
      have hsid : e1.groupSid = e.groupSid := hsid
      have hline : e1.line e.groupSid = e.line e.groupSid := by
        rcases hf.group with hz | ⟨-, -, hl⟩
        · exact absurd (hsid.symm.trans hz) h0
        · exact hl
      have hkey1 : e1.frames e1.groupSid ≠ [] ∨ f.pkt.isKeyFrame = true := by
        unfold Egress.frames
        rw [hsid, hline]
        exact hkey
      have ha1 : Appended ⟨e1.groupSid, data, false, some f⟩ e1 e2 := by
        rw [hsid]
        exact ha
      have h2 := h1.media hs hkey1 ha1
      refine ⟨⟨h2.isVideo, h2.first, h2.sound⟩, fun _ => ?_⟩
      change (e2.line e2.groupSid).filterMap Seg.frame ≠ []
      rw [ha1.groupSid, ha1.line, if_pos rfl, List.filterMap_append]
      simp
    | @dropped e1 hf hsid hfin hroom =>
      have h1 := hat.trimmed hf.toTrimmed
      refine ⟨⟨h1.isVideo, h1.first, h1.sound⟩, ?_⟩
      cases hk : f.pkt.isKeyFrame with
      | false =>
        have hb : Begun (e.atFrame f) := hbegun hk
        have hb1 : Begun e1 := hb.flushed hf
        exact hb1
      | true =>
        obtain ⟨-, data', hdata, hr⟩ := hok hk
        rw [hs] at hdata
        cases hdata
        exact absurd hr hroom
    | gone hf hsid =>
      have h1 := hat.trimmed hf.toTrimmed
      exact ⟨⟨h1.isVideo, h1.first, h1.sound⟩, fun hne => absurd hsid hne⟩

theorem keyed_kept (net : EgressNet) : Kept net (fun _ => True) (KeyOk net) (fun e => (EgressWell e ∧ Keyed e) ∧ Begun e)
      (fun f e => (EgressWell e ∧ Keyed e) ∧ e.groupSid ≠ 0 ∧
        (e.frames e.groupSid ≠ [] ∨ f.pkt.isKeyFrame = true)) where
  flushed h hf := ⟨⟨h.1.1.flushed hf, h.1.2.trimmed hf.toTrimmed⟩, h.2.flushed hf⟩
  close cleanEnd h :=
    have hc := closeGroup_closed net h.1.1 cleanEnd
    ⟨⟨h.1.1.closed hc, h.1.2.closed hc⟩, fun hne => absurd hc.groupSid hne⟩
  opened {e f} tsUs h _ hkey ht := by
    have ho := openGroup_opened net e tsUs
    have hkey : f.pkt.isKeyFrame = true := by
      unfold opensGroup at hkey
      rwa [if_pos h.1.2.isVideo] at hkey
    exact ⟨⟨h.1.1.opened ho, h.1.2.opened h.1.1 ho⟩, h.1.1.opened_ne ho ht, .inr hkey⟩
  refused {e} tsUs h hr := by
    have ho := openGroup_opened net e tsUs
    refine ⟨⟨h.1.1.opened ho, h.1.2.opened h.1.1 ho⟩, ?_⟩
    generalize e.openGroup net tsUs = r at hr ho
    cases ho with
    | @refused e' hf hsid hnext =>
      have hup : Begun { e with nextUni := e'.nextUni } := h.2
      have hb : Begun e' := hup.flushed hf
      exact hb
    | opened => cases hr
  here f h h0 := ⟨h.1, h0, .inl (h.2 h0)⟩
  offer {e f} h hok hlen := by
    obtain ⟨hk, hb⟩ := Keyed.offer h.1.1 h.2.1 h.1.2 h.2.2 hok
    exact ⟨⟨h.1.1.offer h.2.1 f, hk⟩, hb⟩
  short {e f} h hok hlen := by
    refine ⟨h.1, fun _ => h.2.2.resolve_right fun hkey => ?_⟩
    have := (hok hkey).1
    omega
  stop {e} h := by
    rcases stop_closed net e with heq | hc
    · rw [heq]
      exact h
    · exact ⟨⟨h.1.1.closed hc, h.1.2.closed hc⟩, fun hne => absurd hc.groupSid hne⟩

end Egress

/-- **Every group of video starts with a key frame**: in every run in which each key frame that comes to a group has a
payload, is encoded and finds room, the first media frame on each stream is that of a key packet, and its segment is the
frame's encoding. -/
theorem groups_keyed (net : EgressNet) (ops : List EgressOp)
    (h : StepsOk (Egress.step net) (StepOk net (fun _ => True) (KeyOk net)) { isVideo := true } ops) (sid : Nat) :
    (∀ f, ((Egress.run net { isVideo := true } ops).frames sid).head? = some f → f.pkt.isKeyFrame = true) ∧
      ∀ s ∈ (Egress.run net { isVideo := true } ops).line sid, Seg.Sound s := by
  have hinit : (EgressWell { isVideo := true } ∧ Keyed { isVideo := true }) ∧ Begun { isVideo := true } :=
    ⟨⟨.init true, rfl, (fun _ _ hf => nomatch hf), (fun _ _ hs => nomatch hs)⟩, fun h0 => absurd rfl h0⟩
  have hk := (keyed_kept net).run ops hinit h
  exact ⟨hk.1.2.first sid, hk.1.2.sound sid⟩

theorem groups_keyed_sample : (Egress.run openNet { isVideo := true } keyOps).frames 3 ≠ [] ∧
    (∀ f, ((Egress.run openNet { isVideo := true } keyOps).frames 3).head? = some f → f.pkt.isKeyFrame = true) ∧
      ∀ s ∈ (Egress.run openNet { isVideo := true } keyOps).line 3, Seg.Sound s := by
  have hroom : ∀ e : Egress, e.out.pending = [] → ∀ n, e.Room openNet n := by
    intro e hp n
    have hsame : e.flushPending openNet = e := by simp [flushPending, flushTurns, hp]
    unfold Room
    rw [hsame]
    dsimp only
    rw [if_pos hp]
    exact .inl rfl
  refine ⟨by decide +kernel, groups_keyed openNet keyOps
    ⟨(fun _ _ h => nomatch h), fun _ => ⟨fun _ => trivial, fun _ _ => ⟨by decide, ?_⟩⟩, trivial⟩ 3⟩
  exact ⟨[0, 2, 0, 9], by decide +kernel, hroom _ rfl _⟩

def shortKeyOps : List EgressOp :=
  [.start 1 4 none, .packet (videoPacket true 1000 [0x17, 1, 0, 0, 0]), .packet (videoPacket false 1040 [0x27, 1, 0, 0, 0, 7])]

/-- **A key frame without a payload is lost**, and the group begins with another frame. -/
theorem short_key_lost : ¬∀ sid f,
    ((Egress.run openNet { isVideo := true } shortKeyOps).frames sid).head? = some f → f.pkt.isKeyFrame = true := by
  intro h
  have hfirst : ((Egress.run openNet { isVideo := true } shortKeyOps).frames 3).head? =
      some ⟨videoPacket false 1040 [0x27, 1, 0, 0, 0, 7], 40000, 5⟩ := by decide +kernel
  exact absurd (h 3 _ hfirst) (by decide)

end MoqLiveCast
