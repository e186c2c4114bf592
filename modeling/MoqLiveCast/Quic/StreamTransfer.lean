import MoqLiveCast.Quic.StreamRecvSound
import MoqLiveCast.Quic.StreamSendFin
/-!
# StreamTransfer — what one end writes to a stream, the other end is given

The STREAM frames that `queue_fn` took at one end come to the other one in any order, more than once, or not at all; the frames of
other streams are as they may.
-/
namespace MoqLiveCast

/-- The frame is one that was sent, as the other end parses it. -/
def SentFrame.Carries (g : SentFrame) (f : StreamFrame) : Prop := f.offset = g.offset ∧ f.data.map some = g.data

instance (g : SentFrame) (f : StreamFrame) : Decidable (g.Carries f) := inferInstanceAs (Decidable (_ ∧ _))

/-- Frames that follow one another are cut out of the bytes they bring. -/
theorem Contiguous.cut {L : List (Option Byte)} : ∀ {l : List SentFrame} {a : Nat}, Contiguous a l →
    frameBytes l <+: L.drop a → ∀ g ∈ l, g.data = (L.drop g.offset).take g.data.length
  | [], _, _, _, g, hg => by cases hg
  | x :: l, _, ⟨rfl, hrest⟩, ⟨rest, hL⟩, g, hg => by
    rw [frameBytes, List.flatMap_cons, List.append_assoc] at hL
    rcases List.mem_cons.1 hg with rfl | hg
    · rw [← hL, List.take_left]
    · refine hrest.cut ⟨rest, ?_⟩ g hg
      rw [SentFrame.stop, ← List.drop_drop, ← hL, List.drop_left]
      rfl

theorem Contiguous.covers : ∀ {l : List SentFrame} {a i : Nat}, Contiguous a l → a ≤ i → i < a + (frameBytes l).length →
    ∃ g ∈ l, g.offset ≤ i ∧ i < g.stop
  | [], _, _, _, ha, hi => absurd hi (Nat.not_lt_of_le ha)
  | x :: l, _, i, ⟨rfl, hrest⟩, ha, hi => by
    by_cases hx : i < x.stop
    · exact ⟨x, List.mem_cons_self, ha, hx⟩
    · rw [frameBytes, List.flatMap_cons, List.length_append, ← Nat.add_assoc] at hi
      obtain ⟨g, hg, hin⟩ := hrest.covers (Nat.le_of_not_lt hx) hi
      exact ⟨g, List.mem_cons_of_mem _ hg, hin⟩

theorem cut_slice {w l : List Byte} {a : Nat} (h : l = (w.drop a).take l.length) (b : Byte) :
    l = slice (fun i => w.getD i b) a l.length := by
  refine List.ext_getElem? fun i => ?_
  rw [slice_getElem?]
  by_cases hi : i < l.length
  · have hget : l[i]? = w[a + i]? := by
      conv_lhs => rw [h]
      rw [List.getElem?_take_of_lt hi, List.getElem?_drop]
    rw [if_pos hi, hget, List.getD_eq_getElem?_getD]
    rw [List.getElem?_eq_getElem hi] at hget
    rw [← hget]
    rfl
  · rw [if_neg hi, List.getElem?_eq_none (Nat.le_of_not_lt hi)]

section Transfer

variable (q q' : QueueFn) (sid : Nat) (st : FreshStream sid) (cs : List WriteCall)

/-- The sender after its calls. -/
abbrev sender : SendRun := cs.foldl (sendRunStep q sid) { ctx := st.ctx }

theorem sender_intact : StreamHas (Intact (sender q sid st cs).written) sid (sender q sid st cs).ctx :=
  foldl_inv (sendRunStep q sid) (fun _ _ => True) (fun r => StreamHas (Intact r.written) sid r.ctx)
    (fun r c h _ => sendRunStep_intact r c h) cs _ ⟨st.nodup, st.stream, st.found, st.intact⟩
    (stepsOk_of_forall _ _ cs _ fun _ _ _ => trivial)

variable {q sid st cs}

/-- A frame that was sent carries the bytes of the stream that was written, whatever follows those. -/
theorem carried_frameOf {g : SentFrame} {f : StreamFrame} (hg : g ∈ sentFrames sid (sender q sid st cs).ctx.trace)
    (hf : g.Carries f) (b : Byte) : FrameOf (fun i => (sender q sid st cs).written.getD i b) f := by
  obtain ⟨s, hs, h⟩ := (sender_intact q sid st cs).holds
  have hid := streamFind_id hs
  have hcut := h.contiguous.cut ⟨_, h.bytes⟩ g (hid ▸ hg)
  have hlen : f.data.length = g.data.length := by rw [← hf.2, List.length_map]
  refine cut_slice (List.map_injective_iff.2 (fun _ _ => Option.some.inj) ?_) b
  rw [List.map_take, List.map_drop, hf.1, hlen, hf.2]
  exact hcut

variable {q' : QueueFn} {rst : RecvStart} {fs : List StreamFrame}

theorem delivered_slice (hfs : ∀ f ∈ fs, f.streamId = sid → ∃ g ∈ sentFrames sid (sender q sid st cs).ctx.trace, g.Carries f)
    {s : QuicStream} (hs : streamFind (recvRun q' rst fs).ctx sid = some s) (b : Byte) :
    delivered sid (recvRun q' rst fs).ctx.trace = slice (fun i => some ((sender q sid st cs).written.getD i b)) 0 s.recvOffset := by
  let S := fun i => (sender q sid st cs).written.getD i b
  have hinv := recvRun_streams q' (fun _ s d => s.streamId = sid → RecvSound S s d) (fun _ f => f.streamId = sid → FrameOf S f)
    (fun s hs _ => hs.sound)
    (fun _ f s ctx hon hid _ hok h hsid => by
      rw [← hid] at hok h ⊢
      rw [(recvFrame_local q' f s ctx).1] at hsid
      exact (h hsid).frame (hok hsid) hon)
    rst fs (stepsOk_of_forall _ _ fs _ fun f hf w _ hsid => by
      obtain ⟨g, hg, hc⟩ := hfs f hf hsid
      exact carried_frameOf hg hc b)
  exact (hinv.found sid s hs (streamFind_id hs)).delivered

theorem delivered_front (hfs : ∀ f ∈ fs, f.streamId = sid → ∃ g ∈ sentFrames sid (sender q sid st cs).ctx.trace, g.Carries f) :
    delivered sid (recvRun q' rst fs).ctx.trace <+: (sender q sid st cs).written.map some := by
  cases hs : streamFind (recvRun q' rst fs).ctx sid with
  | none =>
    have hinv := recvRun_streams q' (fun _ _ _ => True) (fun _ _ => True) (fun _ _ => trivial) (fun _ _ _ _ _ _ _ _ _ => trivial)
      rst fs (stepsOk_of_forall _ _ fs _ fun _ _ _ _ => trivial)
    rw [delivered, (hinv.absent sid hs).2]
    exact List.nil_prefix
  | some s =>
    have hbytes := delivered_slice hfs hs
    -- what lies behind the bytes that were written is not determined by them
    have hle : s.recvOffset ≤ (sender q sid st cs).written.length := by
      by_contra hlt
      have hsame := congrArg (·[(sender q sid st cs).written.length]?) ((hbytes 0).symm.trans (hbytes 1))
      simp only [slice_getElem?, if_pos (Nat.lt_of_not_le hlt), Nat.zero_add, List.getD_eq_getElem?_getD,
        List.getElem?_eq_none (Nat.le_refl _)] at hsame
      exact absurd hsame (by decide)
    refine List.prefix_iff_eq_take.2 (List.ext_getElem? fun i => ?_)
    rw [hbytes 0, slice_length, slice_getElem?, Nat.zero_add]
    by_cases hi : i < s.recvOffset
    · rw [if_pos hi, List.getElem?_take_of_lt hi, List.getElem?_map, List.getD_eq_getElem?_getD,
        List.getElem?_eq_getElem (Nat.lt_of_lt_of_le hi hle)]
      rfl
    · rw [if_neg hi, List.getElem?_take_eq_none (Nat.le_of_not_lt hi)]

/-- **A stream is carried from one end to the other**: whatever is lost, comes late or comes twice, what `on_stream_data` gets of it is
the first of what was written; and it is all of it once everything was sent and each frame was taken, if the gap table had room. -/
theorem stream_transferred (q q' : QueueFn) (sid : Nat) (st : FreshStream sid) (cs : List WriteCall) (rst : RecvStart)
    (fs : List StreamFrame) (hfs : ∀ f ∈ fs, f.streamId = sid → ∃ g ∈ sentFrames sid (sender q sid st cs).ctx.trace,
    g.Carries f) : delivered sid (recvRun q' rst fs).ctx.trace <+: (sender q sid st cs).written.map some ∧ (StepsOk (recvStep q')
    (RecvOk TableTakes) rst.run fs → (∀ g ∈ sentFrames sid (sender q sid st cs).ctx.trace, ∃ f ∈ (recvRun q' rst fs).accepted,
    f.streamId = sid ∧ g.Carries f) → (∀ s, streamFind (sender q sid st cs).ctx sid = some s → s.sendBufLen = 0) →
    delivered sid (recvRun q' rst fs).ctx.trace = (sender q sid st cs).written.map some) := by
  have hpre := @delivered_front q sid st cs q' rst fs hfs
  refine ⟨hpre, fun hok hall hflushed => hpre.eq_of_length_le ?_⟩
  obtain ⟨t, ht, h⟩ := (sender_intact q sid st cs).holds
  have htotal := h.total
  rw [hflushed t ht, h.offset] at htotal
  have hcov : ∀ i < (sender q sid st cs).written.length,
      ∃ f ∈ framesOf sid (recvRun q' rst fs).accepted, f.offset ≤ i ∧ i < f.stop := by
    intro i hi
    obtain ⟨g, hg, hlo, hhi⟩ := h.contiguous.covers (Nat.zero_le i) (by omega)
    obtain ⟨f, hf, hsid, hoff, hdata⟩ := hall g (streamFind_id ht ▸ hg)
    refine ⟨f, List.mem_filter.2 ⟨hf, by simpa using hsid⟩, by omega, ?_⟩
    have hlen := congrArg List.length hdata
    rw [List.length_map] at hlen
    unfold SentFrame.stop at hhi
    unfold StreamFrame.stop
    omega
  have hinv := recvRun_streams q' (fun fs s _ => RecvComplete fs s) TableTakes (fun s hs => hs.complete)
    (fun _ f s ctx _ _ _ hok h => h.frame hok) rst fs hok
  rw [List.length_map]
  by_contra hlt
  cases hs : streamFind (recvRun q' rst fs).ctx sid with
  | none =>
    obtain ⟨f, hf, -⟩ := hcov 0 (by omega)
    rw [(hinv.absent sid hs).1] at hf
    cases hf
  | some s =>
    rw [delivered_slice hfs hs 0, slice_length] at hlt
    obtain ⟨f, hf, hlo, hhi⟩ := hcov s.recvOffset (Nat.lt_of_not_le hlt)
    exact absurd ((hinv.found sid s hs).covered_lt hf hlo) (Nat.not_le_of_lt hhi)

end Transfer

def twoWrites : List WriteCall := [.write 0 [0] false none 0 0, .write 0 [1] true none 0 0]

theorem stream_transferred_swapped : delivered 0 (recvRun acceptAll serverStart swappedRun).ctx.trace = [some 0, some 1] :=
  (stream_transferred acceptAll acceptAll 0 openedStream twoWrites serverStart swappedRun (by decide)).2
    ⟨fun _ _ => Or.inl (by decide), fun _ h => absurd h (by decide), trivial⟩ (by decide) (fun s h => by cases h; rfl)

end MoqLiveCast
