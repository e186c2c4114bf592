import MoqLiveCast.Moq.EgressWhole
import MoqLiveCast.Moq.GroupRead
/-!
# TimeLine — the times of a group, from one end to the other

A frame is sent with the difference to the one before it, which is the last that was encoded; the other end adds the
differences it gets.
-/
namespace MoqLiveCast

open List

open Egress

namespace Egress

def sent (e : Egress) (sid : Nat) : List Byte := ((e.handed sid).map Seg.data).flatten

def InMemory (f : MediaFrame) : Prop := f.pkt.body.length < 2 ^ 63

instance (f : MediaFrame) : Decidable (InMemory f) := by
  unfold InMemory
  infer_instance

def TimeOk (net : EgressNet) (e : Egress) (f : MediaFrame) : Prop := FrameOk net hasHole e f ∧ InMemory f

/-! ## Headers and frames -/

/-- **Groups have their headers, and the frames offered have something behind the tag's header.** -/
structure Formed (e : Egress) : Prop where
  headers : ∀ g ∈ e.groups, ∃ subscribeId groupSeq, groupHeader subscribeId groupSeq = some g.header
  frames : ∀ o ∈ e.offers, o.frame.tagHdr < o.frame.pkt.body.length ∧ InMemory o.frame

theorem Formed.same {e e' : Egress} (h : Formed e) (hg : e'.groups = e.groups) (ho : e'.offers = e.offers) : Formed e' := by
  constructor
  · rw [hg]
    exact h.headers
  · rw [ho]
    exact h.frames

theorem Formed.closed {e e' : Egress} (h : Formed e) (hc : Closed e e') : Formed e' := by
  cases hc with
  | left ht h0 => exact h.same ht.groups ht.offers
  | ended hmark ht hsid h0 ha ht' h0' =>
    exact h.same ((ht'.groups.trans ha.groups).trans ht.groups) ((ht'.offers.trans ha.offers).trans ht.offers)

theorem Formed.openGroup (net : EgressNet) {e : Egress} (h : Formed e) (tsUs : BitVec 64) : Formed (e.openGroup net tsUs).1 := by
  unfold Egress.openGroup
  split
  · exact h.same rfl rfl
  · dsimp only
    split
    · exact h.same rfl rfl
    · rename_i header hheader
      split
      · exact h.same rfl rfl
      · refine ⟨fun g hg => ?_, h.frames⟩
        rcases List.mem_append.1 hg with hg | hg
        · exact h.headers g hg
        · rw [List.mem_singleton.1 hg]
          exact ⟨_, _, hheader⟩

theorem Formed.noted {e : Egress} (h : Formed e) (sid : Nat) {f : MediaFrame} (fate : Fate)
    (hf : f.tagHdr < f.pkt.body.length ∧ InMemory f) : Formed (e.noted sid f fate) where
  headers := h.headers
  frames o ho := by
    rcases List.mem_append.1 ho with ho | ho
    · exact h.frames o ho
    · rw [List.mem_singleton.1 ho]
      exact hf

theorem Formed.offer (net : EgressNet) {e : Egress} (hw : EgressWell e) (h : Formed e) {f : MediaFrame}
    (hf : f.tagHdr < f.pkt.body.length ∧ InMemory f) : Formed (e.offer net f) := by
  have ho := offer_as net hw f
  generalize e.offer net f = e' at ho
  cases ho with
  | unencoded => exact h.noted _ _ hf
  | pushed hs hp =>
    refine Formed.noted ?_ _ _ hf
    cases hp with
    | taken hflush hsid hroom ha => exact h.same (ha.groups.trans hflush.groups) (ha.offers.trans hflush.offers)
    | dropped hflush => exact h.same hflush.groups hflush.offers
    | gone hflush => exact h.same hflush.groups hflush.offers

structure Timed (e : Egress) : Prop where
  well : EgressWell e
  lines : LinesTold e.groupPrevUs e
  formed : Formed e

theorem timed_kept (net : EgressNet) : Kept net (HeaderOk net) (TimeOk net) Timed (fun _ e => Timed e ∧ e.groupSid ≠ 0) :=
  have hk := linesTold_kept net fun _ hh => hh
  { flushed := fun h hf =>
      have hl := hk.flushed ⟨h.well, h.lines⟩ hf
      ⟨hl.1, hl.2, h.formed.same hf.groups hf.offers⟩
    close := fun cleanEnd h =>
      have hl := hk.close cleanEnd ⟨h.well, h.lines⟩
      ⟨hl.1, hl.2, h.formed.closed (closeGroup_closed net h.well cleanEnd)⟩
    opened := fun tsUs h hok ho ht =>
      have hl := hk.opened tsUs ⟨h.well, h.lines⟩ hok ho ht
      ⟨⟨hl.1.1, hl.1.2, h.formed.openGroup net tsUs⟩, hl.2⟩
    refused := fun tsUs h hf =>
      have hl := hk.refused tsUs ⟨h.well, h.lines⟩ hf
      ⟨hl.1, hl.2, h.formed.openGroup net tsUs⟩
    here := fun _ h h0 => ⟨h, h0⟩
    offer := fun h hok hlen =>
      have hl := hk.offer ⟨⟨h.1.well, h.1.lines⟩, h.2⟩ hok.1 hlen
      ⟨hl.1, hl.2, h.1.formed.offer net h.1.well ⟨hlen, hok.2⟩⟩
    short := fun h _ _ => h.1
    stop := fun {e} h => by
      have hl := hk.stop ⟨h.well, h.lines⟩
      refine ⟨hl.1, hl.2, ?_⟩
      rcases stop_closed net e with heq | hc
      · rw [heq]
        exact h.formed
      · exact h.formed.closed hc }

end Egress

/-! ## The bytes of a group -/

theorem isMessage_of_small {body : List Byte} (h : body.length ≤ 24) : IsMessage (varintBytes body.length ++ body) := by
  have hmax : kMlMaxMessageSize.toNat = 64 * 1024 * 1024 := rfl
  have hvmax : kMlVarintMax.toNat = 2 ^ 62 - 1 := rfl
  have hnat : (BitVec.ofNat 64 body.length).toNat = body.length := by
    rw [BitVec.toNat_ofNat]
    omega
  have hfits : ¬kMlVarintMax < BitVec.ofNat 64 body.length := by
    rw [BitVec.lt_def, hnat, hvmax]
    omega
  have hsmall : ¬kMlMaxMessageSize < BitVec.ofNat 64 body.length := by
    rw [BitVec.lt_def, hnat, hmax]
    omega
  have hread := mlReadVarint_bytes hfits [] body
  rw [hnat, nil_append, length_nil, Nat.zero_add] at hread
  refine ⟨body, ?_⟩
  unfold frontMessage
  rw [frontAt_some hread, if_neg hsmall, hnat, if_neg (by simp), drop_left, take_length, length_append]

theorem groupHeader_message {subscribeId groupSeq : BitVec 64} {h : List Byte} (hh : groupHeader subscribeId groupSeq = some h) :
    ∃ message, h = varintBytes 0 ++ message ∧ IsMessage message := by
  have hzero : ∀ out : List Byte, mlWriteVarint out 0 = (true, out ++ varintBytes 0) := fun out => by
    rw [mlWriteVarint_eq, if_neg (by decide)]
    rfl
  unfold groupHeader mlBuildGroupHeader mlAppendVarint okBuild mlBuildMessage at hh
  simp only [hzero, mlWriteVarint_eq _ subscribeId, mlWriteVarint_eq _ groupSeq, nil_append] at hh
  by_cases hid : kMlVarintMax < subscribeId
  · simp [if_pos hid, okThen] at hh
  · by_cases hseq : kMlVarintMax < groupSeq
    · simp [if_neg hid, if_pos hseq, okThen] at hh
    · simp only [if_neg hid, if_neg hseq, okThen, if_true, Bool.false_eq_true, if_false] at hh
      generalize hbody : varintBytes subscribeId.toNat ++ varintBytes groupSeq.toNat ++ varintBytes 0 = body at hh
      have hsmall : body.length ≤ 24 := by
        have h1 := varintBytes_le subscribeId.toNat
        have h2 := varintBytes_le groupSeq.toNat
        have h3 := varintBytes_le 0
        rw [← hbody]
        simp only [length_append]
        omega
      have hnat : (BitVec.ofNat 64 body.length).toNat = body.length := by
        rw [BitVec.toNat_ofNat]
        omega
      have hfits : ¬kMlVarintMax < BitVec.ofNat 64 body.length := by
        have hvmax : kMlVarintMax.toNat = 2 ^ 62 - 1 := rfl
        rw [BitVec.lt_def, hnat, hvmax]
        omega
      rw [mlWriteVarint_eq, if_neg hfits, hnat] at hh
      simp only [if_true, Option.some.injEq] at hh
      exact ⟨_, by rw [← hh, append_assoc], isMessage_of_small hsmall⟩

def reached (acc : BitVec 64) (fs : List LineFrame) : BitVec 64 := fs.foldl (fun acc f => acc + f.diff) acc

theorem told_append : ∀ (fs fs' : List LineFrame) (acc : BitVec 64), told acc (fs ++ fs') = told acc fs ++ told (reached acc fs) fs'
  | [], _, _ => rfl
  | f :: fs, fs', acc => by
    rw [cons_append, told, told, told_append fs fs', cons_append]
    rfl

theorem lineBytes_append (fs fs' : List LineFrame) : lineBytes (fs ++ fs') = lineBytes fs ++ lineBytes fs' := by
  simp [lineBytes]

/-- A media frame as it is on the line, behind one with the time `prev`. -/
def MediaFrame.onLine (f : MediaFrame) (prev : BitVec 64) : LineFrame := ⟨f.tsUs - prev, f.payload⟩

theorem payload_size {f : MediaFrame} (hf : InMemory f) : f.payload.length < 2 ^ 64 := by
  have hts := varintBytes_le f.tsUs.toNat
  unfold InMemory at hf
  simp only [MediaFrame.payload, MediaFrame.codec, length_append, length_drop]
  omega

theorem onLine_encoded {prev : BitVec 64} {f : MediaFrame} {data : List Byte} (hf : InMemory f)
    (h : encodeFrame prev f = some data) : (f.onLine prev).Fits ∧ (f.onLine prev).bytes = data := by
  obtain ⟨-, hdiff, hlen, rfl⟩ := encodeFrame_eq_some.1 h
  exact ⟨⟨hdiff, hlen, payload_size hf⟩, rfl⟩

theorem Bears.onLine {g : Group} {l : List Seg} {fs : List MediaFrame} {prev : BitVec 64} (h : Bears g l fs prev)
    (hmem : ∀ f ∈ fs, InMemory f) : ∃ all : List LineFrame, (l.map Seg.data).flatten = g.header ++ lineBytes all ∧
      (∀ x ∈ all, x.Fits) ∧ told 0 all = fs.map (fun f => (f.tsUs, f.payload)) ∧ reached 0 all = prev := by
  induction h with
  | header => exact ⟨[], by simp [lineBytes], by simp, rfl, rfl⟩
  | @media l fs prev f data h hf ih =>
    obtain ⟨all, hbytes, hfits, htold, hreached⟩ := ih fun f' hf' => hmem f' (mem_append_left _ hf')
    obtain ⟨hfit, hdata⟩ := onLine_encoded (hmem f (mem_append_right _ (mem_singleton_self f))) hf
    have hsum : prev + (f.onLine prev).diff = f.tsUs := by
      rw [BitVec.add_comm]
      exact BitVec.sub_add_cancel f.tsUs prev
    refine ⟨all ++ [f.onLine prev], ?_, fun x hx => ?_, ?_, ?_⟩
    · rw [map_append, flatten_append, hbytes, lineBytes_append]
      simp [lineBytes, hdata]
    · rcases List.mem_append.1 hx with hx | hx
      · exact hfits x hx
      · rw [List.mem_singleton.1 hx]
        exact hfit
    · rw [told_append, htold, hreached, map_append, told, hsum]
      rfl
    · unfold reached at hreached ⊢
      rw [foldl_append, hreached]
      exact hsum

/-! ## What is received -/

/-- The frames `OnMediaFrame` takes for media: the sum of the differences, the time in the payload, and the data. -/
def mediaReceived (out : List LiteAction) : List (BitVec 64 × Nat × List Byte) :=
  (framesGot out).filterMap fun x => (containerFrame x.2).map fun c => (x.1, c)

def MediaFrame.asSent (f : MediaFrame) : BitVec 64 × Nat × List Byte := (f.tsUs, f.tsUs.toNat, f.codec)

theorem containerFrame_bytes {us : BitVec 64} (h : ¬kMlVarintMax < us) (data : List Byte) :
    containerFrame (varintBytes us.toNat ++ data) = if data = [] then none else some (us.toNat, data) := by
  have hread := mlReadVarint_bytes h [] data
  rw [nil_append, length_nil, Nat.zero_add] at hread
  unfold containerFrame
  rw [hread]
  cases data with
  | nil => simp
  | cons b data => simp

def mediaTold (all : List LineFrame) : List (BitVec 64 × Nat × List Byte) :=
  (told 0 all).filterMap fun x => (containerFrame x.2).map fun c => (x.1, c)

theorem Bears.fits {g : Group} {l : List Seg} {fs : List MediaFrame} {prev : BitVec 64} (h : Bears g l fs prev) :
    ∀ f ∈ fs, ¬kMlVarintMax < f.tsUs := by
  induction h with
  | header => exact fun _ hf => absurd hf not_mem_nil
  | media h hf ih =>
    intro f' hf'
    rcases List.mem_append.1 hf' with hf' | hf'
    · exact ih f' hf'
    · rw [List.mem_singleton.1 hf']
      exact (encodeFrame_eq_some.1 hf).1

theorem mediaTold_eq {fs : List MediaFrame} {all : List LineFrame} (h : told 0 all = fs.map (fun f => (f.tsUs, f.payload)))
    (hfits : ∀ f ∈ fs, ¬kMlVarintMax < f.tsUs) (hlong : ∀ f ∈ fs, f.tagHdr < f.pkt.body.length) :
    mediaTold all = fs.map MediaFrame.asSent := by
  unfold mediaTold
  rw [h, filterMap_map, ← filterMap_eq_map]
  refine filterMap_congr fun f hf => ?_
  have hcodec : f.codec ≠ [] := by
    have := hlong f hf
    rw [← length_pos_iff, MediaFrame.codec, length_drop]
    omega
  simp only [Function.comp, MediaFrame.payload, containerFrame_bytes (hfits f hf), if_neg hcodec]
  rfl

theorem marker_onLine {us : BitVec 64} {data : List Byte} (h : endMarker us = some data) (all : List LineFrame) :
    ∃ x : LineFrame, x.Fits ∧ x.bytes = data ∧ mediaTold (all ++ [x]) = mediaTold all := by
  obtain ⟨hus, rfl⟩ := endMarker_eq_some.1 h
  have hsmall := varintBytes_le us.toNat
  have hlen : ¬kMlVarintMax < BitVec.ofNat 64 (varintBytes us.toNat).length := by
    rw [varintBytes_length]
    rcases quicVarintLen_cases us.toNat with h | h | h | h <;> rw [h] <;> decide
  have hzero : ¬((0 : BitVec 64).slt kMlZigzagMin ∨ kMlZigzagMax.slt (0 : BitVec 64)) := by decide
  have hzigzag : LineFrame.zigzag ⟨0, varintBytes us.toNat⟩ = 0 := (by decide : ((0 : BitVec 64) <<< 1) ^^^ (0 : BitVec 64).sshiftRight 63 = 0)
  have hsize : (varintBytes us.toNat).length < 2 ^ 64 := by omega
  refine ⟨⟨0, varintBytes us.toNat⟩, ⟨hzero, hlen, hsize⟩, ?_, ?_⟩
  · rw [LineFrame.bytes, hzigzag]
  · have hnone := containerFrame_bytes hus []
    rw [append_nil, if_pos rfl] at hnone
    unfold mediaTold
    rw [told_append, filterMap_append]
    simp [told, hnone]

theorem Marked.onLine {g : Group} {l line : List Seg} {all : List LineFrame} (h : Marked l line)
    (hl : (l.map Seg.data).flatten = g.header ++ lineBytes all) (hfits : ∀ x ∈ all, x.Fits) :
    ∃ all', (line.map Seg.data).flatten = g.header ++ lineBytes all' ∧ (∀ x ∈ all', x.Fits) ∧ mediaTold all' = mediaTold all := by
  rcases h with rfl | ⟨s, ⟨-, -, hempty | ⟨us, hmark⟩⟩, rfl⟩
  · exact ⟨all, hl, hfits, rfl⟩
  · exact ⟨all, by simp [hl, hempty], hfits, rfl⟩
  · obtain ⟨x, hx, hbytes, htold⟩ := marker_onLine hmark all
    refine ⟨all ++ [x], ?_, fun y hy => ?_, htold⟩
    · rw [map_append, flatten_append, hl, lineBytes_append]
      simp [lineBytes, hbytes]
    · rcases List.mem_append.1 hy with hy | hy
      · exact hfits y hy
      · rw [List.mem_singleton.1 hy]
        exact hx

/-- **What is received of a group are the first of the frames taken, as they were sent**: each with its time, twice, and its
data, whatever part of the stream has come and however it was cut. -/
def TimesKept (e : Egress) : Prop :=
  ∀ g ∈ e.groups, ∀ calls : List DataCall, (calls.map DataCall.chunk).flatten <+: e.sent g.sid →
    mediaReceived (readGroup calls).out <+: (e.taken g.sid).map MediaFrame.asSent

theorem Egress.Timed.timesKept {e : Egress} (h : Timed e) : TimesKept e := by
  intro g hg calls hcalls
  obtain ⟨subscribeId, groupSeq, hheader⟩ := h.formed.headers g hg
  obtain ⟨message, hmessage, his⟩ := groupHeader_message hheader
  have hframes : ∀ f ∈ e.taken g.sid, f.tagHdr < f.pkt.body.length ∧ InMemory f := by
    intro f hf
    obtain ⟨o, ho, rfl⟩ := List.mem_map.1 hf
    exact h.formed.frames o (mem_of_mem_filter ho)
  have hne : e.handed g.sid ≠ [] := by
    intro hnil
    have hle := h.lines.headed g hg
    rw [hnil] at hle
    cases List.prefix_nil.1 hle
  obtain ⟨l, fs, prev, hbears, hle, hend⟩ := (h.lines.spoken hg).cut (Outbox.handed_le_line Seg.sid e.out g.sid) hne
  have hmem : ∀ f ∈ fs, f.tagHdr < f.pkt.body.length ∧ InMemory f := fun f hf => hframes f (hle.subset hf)
  obtain ⟨all, hbytes, hfits, htold, -⟩ := hbears.onLine fun f hf => (hmem f hf).2
  obtain ⟨all', hbytes', hfits', htold'⟩ := hend.onLine hbytes hfits
  have hsent : e.sent g.sid = varintBytes 0 ++ (message ++ lineBytes all') := by
    rw [← append_assoc, ← hmessage, ← hbytes']
    rfl
  rw [hsent] at hcalls
  have htells : Tells all' (readGroup calls).out := group_awaited his hfits' calls hcalls
  have hreceived : mediaReceived (readGroup calls).out <+: mediaTold all' := htells.filterMap _
  rw [htold', mediaTold_eq htold hbears.fits fun f hf => (hmem f hf).1] at hreceived
  exact hreceived.trans (hle.map _)

theorem Egress.Timed.init (isVideo : Bool) : Timed { isVideo := isVideo } :=
  ⟨.init isVideo, .init isVideo, ⟨by simp, by simp⟩⟩

/-- **The time line of a group comes through**, in every run in which no header is turned away by a full stream, and a frame
that is offered to a group behind one that was dropped finds no room either. -/
theorem times_kept (net : EgressNet) (isVideo : Bool) (ops : List EgressOp)
    (h : StepsOk (Egress.step net) (StepOk net (HeaderOk net) (TimeOk net)) { isVideo := isVideo } ops) :
    TimesKept (Egress.run net { isVideo := isVideo } ops) :=
  ((timed_kept net).run ops (.init isVideo) h).timesKept

theorem times_kept_sample : (Egress.run openNet { isVideo := true } keyOps).groups = [⟨3, [0, 3, 1, 0, 0]⟩] ∧
    TimesKept (Egress.run openNet { isVideo := true } keyOps) := by
  refine ⟨by decide +kernel, times_kept openNet true keyOps ⟨(fun _ _ h => nomatch h), fun _ => ⟨fun _ => ?_, ?_⟩, trivial⟩⟩
  · exact fun h => SendAnswer.noConfusion h
  · refine fun _ => ⟨?_, by decide⟩
    rintro _ ⟨o, ho, -⟩
    cases ho

/-! ## A frame behind a hole -/

def takingSession : LiteSession := { tracks := fun _ => some .unused }

def holeBytes : List Byte :=
  [0, 3, 1, 0, 0] ++ [0, 2, 0, 9] ++ [0x80, 1, 0x38, 0x80, 5, 0x80, 1, 0x38, 0x80, 7]

theorem holeBytes_received :
    mediaReceived (readGroup [⟨takingSession, holeBytes, false⟩]).out = [(0, 0, [9]), (40000, 80000, [7])] := by
  decide +kernel

/-- **The dropped frame was 40 ms later**, and by this the next one comes too early. -/
theorem drop_moves_times : ¬∀ (net : EgressNet) (isVideo : Bool) (ops : List EgressOp),
    TimesKept (Egress.run net { isVideo := isVideo } ops) := by
  intro h
  have hkept := h fullNet true (holeOps (replicate 2097160 0))
  rw [holeOps_run length_replicate] at hkept
  generalize replicate 2097160 (0 : Byte) = big at hkept
  obtain ⟨data, hcode, htaken⟩ := last_taken big
  have hdata : data = [0x80, 1, 0x38, 0x80, 5, 0x80, 1, 0x38, 0x80, 7] := by
    have hval : encodeFrame 40000 lastFrame = some [0x80, 1, 0x38, 0x80, 5, 0x80, 1, 0x38, 0x80, 7] := by decide +kernel
    exact Option.some.inj (hcode.symm.trans hval)
  rw [htaken, hdata] at hkept
  have hle := hkept ⟨3, [0, 3, 1, 0, 0]⟩ (mem_singleton_self _) [⟨takingSession, holeBytes, false⟩] prefix_rfl
  rw [holeBytes_received] at hle
  have hsent : [((0 : BitVec 64), 0, [(9 : Byte)]), (40000, 80000, [7])] <+: [(0, 0, [9]), (80000, 80000, [7])] := hle
  revert hsent
  decide

end MoqLiveCast
