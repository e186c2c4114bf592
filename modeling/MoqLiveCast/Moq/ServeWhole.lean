import MoqLiveCast.Moq.PubAnnounce
import MoqLiveCast.Moq.ServeGroups
/-!
# ServeWhole — when the groups of a subscription are whole

`serve_groups_whole`: in a run whose steps all meet `StepOk` the groups are as they should be in every state, and every border
closes those before it.  A border that comes while a group's stream is being opened leaves an opening behind:
`number_used_twice`.
-/
namespace MoqLiveCast

open List

/-! ## What C writes, C reads -/

theorem moqVarintRead_bytes {v : BitVec 64} (h : ¬ MOQ_VARINT_MAX < v) (pre rest : List Byte) :
    moqVarintRead (pre ++ (varintBytes v.toNat ++ rest)) pre.length = ⟨0, pre.length + (varintBytes v.toNat).length, some v⟩ := by
  have hmax : MOQ_VARINT_MAX.toNat = 2 ^ 62 - 1 := rfl
  have hfits : v.toNat < 2 ^ 62 := by
    rw [BitVec.lt_def, hmax] at h
    omega
  have hpos : varintBytes v.toNat ≠ [] := varintBytes_ne_nil _
  rw [moqVarintRead_eq, mlReadVarint, drop_left, quicVarintDecode_varintBytes hfits, if_neg]
  · simp [WireRead.toRc]
  · have := length_pos_of_ne_nil hpos
    simp only [length_append]
    omega

theorem moqVarintWrite_nil {v : BitVec 64} (h : ¬ MOQ_VARINT_MAX < v) : moqVarintWrite [] v = (0, varintBytes v.toNat) :=
  moqVarintWrite_bytes h []

namespace ServeGroups

open StreamRecords (readGroupHeader)

def headerBody (sid seq : BitVec 64) : List Byte := varintBytes sid.toNat ++ (varintBytes seq.toNat ++ varintBytes 0)

variable {sid seq : BitVec 64}

theorem headerBody_le (sid seq : BitVec 64) : (headerBody sid seq).length ≤ 24 := by
  have hsid := varintBytes_le sid.toNat
  have hseq := varintBytes_le seq.toNat
  have hzero := varintBytes_le 0
  simp only [headerBody, length_append]
  omega

theorem small_fits {n : Nat} (h : n ≤ 24) : ¬ MOQ_VARINT_MAX < BitVec.ofNat 64 n ∧ (BitVec.ofNat 64 n).toNat = n := by
  have hmax : MOQ_VARINT_MAX.toNat = 2 ^ 62 - 1 := rfl
  rw [BitVec.lt_def, hmax, BitVec.toNat_ofNat]
  omega

theorem groupHeader_bytes (hsid : ¬ MOQ_VARINT_MAX < sid) (hseq : ¬ MOQ_VARINT_MAX < seq) : groupHeader sid seq =
    (0, varintBytes 0 ++ (varintBytes (headerBody sid seq).length ++ headerBody sid seq)) := by
  have hzero : ¬ MOQ_VARINT_MAX < (0 : BitVec 64) := by decide
  obtain ⟨hlen, hnat⟩ := small_fits (headerBody_le sid seq)
  have hbody : rcThen (rcThen (moqVarintWrite [] sid) (moqVarintWrite · seq)) (moqVarintWrite · 0) = (0, headerBody sid seq) := by
    simp only [rcThen, moqVarintWrite_nil hsid, moqVarintWrite_bytes hseq, if_true, moqVarintWrite_bytes hzero, headerBody,
      append_assoc]
    rfl
  unfold groupHeader moqPutStreamType moqWireGroupHeader
  rw [moqVarintWrite_nil hzero, hbody]
  simp only [rcBuild, moqMsgBuild, moqVarintWrite_bytes hlen, hnat, moqBufAppend]
  simp

theorem readGroupHeader_bytes (hsid : ¬ MOQ_VARINT_MAX < sid) (hseq : ¬ MOQ_VARINT_MAX < seq) (rest : List Byte) :
    (readGroupHeader (varintBytes (headerBody sid seq).length ++ (headerBody sid seq ++ rest))).out = some (some (sid, seq, 0)) := by
  have hle := headerBody_le sid seq
  obtain ⟨hlen, hnat⟩ := small_fits hle
  have hread := moqVarintRead_bytes hlen [] (headerBody sid seq ++ rest)
  rw [hnat, nil_append, length_nil, Nat.zero_add] at hread
  generalize hp : varintBytes (headerBody sid seq).length ++ (headerBody sid seq ++ rest) = p at hread ⊢
  generalize hn : varintBytes (headerBody sid seq).length = len at hp hread
  have hmsg : moqMsgRead p 0 = ⟨.ok, len.length, some (headerBody sid seq).length⟩ := by
    have hbig : ¬ MOQ_MAX_MESSAGE_SIZE < BitVec.ofNat 64 (headerBody sid seq).length := by
      have hmax : MOQ_MAX_MESSAGE_SIZE.toNat = 64 * 1024 * 1024 := rfl
      rw [BitVec.lt_def, hmax, hnat]
      omega
    have hthere : ¬ p.length - len.length < (headerBody sid seq).length := by
      rw [← hp]
      simp only [length_append]
      omega
    unfold moqMsgRead
    rw [hread]
    simp only [Int.lt_irrefl, if_false, Option.getD_some, hbig, hnat, hthere]
  have hbody : p.take (len.length + (headerBody sid seq).length) = len ++ headerBody sid seq := by
    rw [← hp, ← append_assoc, ← length_append, take_left]
  have h1 := moqVarintRead_bytes hsid len (varintBytes seq.toNat ++ varintBytes 0)
  have h2 := moqVarintRead_bytes hseq (len ++ varintBytes sid.toNat) (varintBytes 0)
  have hend : len.length + (varintBytes sid.toNat).length + (varintBytes seq.toNat).length + (varintBytes 0).length =
      (len ++ headerBody sid seq).length := by
    simp only [headerBody, length_append]
    omega
  rw [← headerBody] at h1
  rw [append_assoc, ← headerBody, length_append] at h2
  have h3 : moqVarintRead (len ++ headerBody sid seq)
      (len.length + (varintBytes sid.toNat).length + (varintBytes seq.toNat).length) =
        ⟨0, (len ++ headerBody sid seq).length, some 0⟩ := by
    have h := moqVarintRead_bytes (v := 0) (by decide) (len ++ (varintBytes sid.toNat ++ varintBytes seq.toNat)) []
    simp only [append_nil, append_assoc, length_append, ← Nat.add_assoc] at h
    rw [← hend]
    exact h
  unfold readGroupHeader
  simp only [hmsg, Option.getD_some, hbody, h1, h2, h3, and_self, if_true]

/-! ## The bytes of a group -/

def ServeFrame.Fits (f : ServeFrame) : Prop := f.tsUs.toNat < 2 ^ 61 ∧ f.payload.length < 2 ^ 61

instance (f : ServeFrame) : Decidable f.Fits := inferInstanceAs (Decidable (_ ∧ _))

theorem fits_varint {v : BitVec 64} (h : v.toNat < 2 ^ 62) : ¬ MOQ_VARINT_MAX < v := by
  have hmax : MOQ_VARINT_MAX.toNat = 2 ^ 62 - 1 := rfl
  rw [BitVec.lt_def, hmax]
  omega

theorem frameSegment_bytes {prev : BitVec 64} {f : ServeFrame} (hf : f.Fits) (hprev : prev.toNat < 2 ^ 61) :
    frameSegment prev f = ((0 : Int), frameOnWire (((f.tsUs - prev) <<< 1) ^^^ (f.tsUs - prev).sshiftRight 63)
    (varintBytes f.tsUs.toNat ++ f.payload)) := by
  obtain ⟨hts, hlen⟩ := hf
  have hdelta : ¬ ((f.tsUs - prev).slt kMlZigzagMin ∨ kMlZigzagMax.slt (f.tsUs - prev)) := by
    have hMin : kMlZigzagMin.toInt = -2 ^ 61 := by decide
    have hMax : kMlZigzagMax.toInt = 2 ^ 61 - 1 := by decide
    have hsub : (f.tsUs - prev).toInt = f.tsUs.toNat - prev.toNat := by
      rw [BitVec.toInt_sub, BitVec.toInt_eq_toNat_cond, BitVec.toInt_eq_toNat_cond, if_pos (by omega), if_pos (by omega)]
      exact Int.bmod_eq_of_le (by omega) (by omega)
    rw [BitVec.slt_iff_toInt_lt, BitVec.slt_iff_toInt_lt, hMin, hMax, hsub]
    omega
  have hbody : (varintBytes f.tsUs.toNat ++ f.payload).length < 2 ^ 62 := by
    have := varintBytes_le f.tsUs.toNat
    rw [length_append]
    omega
  have hframe := mlAppendFrame_eq_some.2 ⟨hdelta, fits_varint (ofNat_fits hbody), rfl⟩
  unfold frameSegment
  rw [moqVarintWrite_nil (fits_varint (by omega))]
  simp only [if_true, moqBufAppend, moqWireFrame_eq, hframe, toRc]

theorem endSegment_bytes (us : BitVec 64) :
    moqWireFrame [] 0 (varintBytes us.toNat) = (0, frameOnWire 0 (varintBytes us.toNat)) := by
  have hlen : (varintBytes us.toNat).length < 2 ^ 62 := by
    have := varintBytes_le us.toNat
    omega
  have hzero : ((0 : BitVec 64) <<< 1) ^^^ (0 : BitVec 64).sshiftRight 63 = 0 := by decide
  have hdelta : ¬ ((0 : BitVec 64).slt kMlZigzagMin ∨ kMlZigzagMax.slt 0) := by decide
  have hframe := mlAppendFrame_eq_some.2 ⟨hdelta, fits_varint (ofNat_fits hlen), rfl⟩
  rw [hzero] at hframe
  rw [moqWireFrame_eq, hframe]
  rfl

theorem lastUs_cons (prev : BitVec 64) (f : ServeFrame) (run : List ServeFrame) : lastUs prev (f :: run) = lastUs f.tsUs run := by
  unfold lastUs
  rw [getLast?_cons]
  cases run.getLast? <;> rfl

theorem runBytes_append (f : ServeFrame) : ∀ (run : List ServeFrame) (prev : BitVec 64),
    runBytes prev (run ++ [f]) = runBytes prev run ++ runBytes (lastUs prev run) [f]
  | [], _ => rfl
  | g :: run, prev => by
    rw [cons_append, runBytes, runBytes_append f run, runBytes, lastUs_cons]
    rfl

theorem lastUs_append (prev : BitVec 64) (run : List ServeFrame) (f : ServeFrame) : lastUs prev (run ++ [f]) = f.tsUs := by
  simp [lastUs]

theorem lastUs_fits {run : List ServeFrame} (h : ∀ f ∈ run, f.Fits) : (lastUs 0 run).toNat < 2 ^ 61 := by
  unfold lastUs
  cases hlast : run.getLast? with
  | none => decide
  | some f => exact (h f (List.mem_of_getLast? hlast)).1

/-! ## What a stream is given -/

theorem modify_last {α : Type} (l : List α) (a : α) (f : α → α) : (l ++ [a]).modify l.length f = l ++ [f a] := by
  induction l with
  | nil => rfl
  | cons b l ih => simpa using ih

theorem mem_modify {α : Type} {l : List α} {i : Nat} {f : α → α} {x : α} (h : x ∈ l.modify i f) :
    x ∈ l ∨ ∃ y ∈ l[i]?, x = f y := by
  obtain ⟨j, hj⟩ := mem_iff_getElem?.mp h
  rw [List.getElem?_modify] at hj
  obtain ⟨y, hy, hx⟩ := Option.map_eq_some_iff.mp hj
  by_cases hij : i = j
  · subst hij
    exact .inr ⟨y, hy, by simpa using hx.symm⟩
  · rw [if_neg hij] at hx
    exact .inl (hx ▸ mem_of_getElem? hy)

theorem write_last {ss : MoqServeSub} {l : List GroupStream} {g : GroupStream} (huni : ss.uni = some l.length)
    (hstreams : ss.streams = l ++ [g]) (w : Write) :
    ss.write w = { ss with streams := l ++ [{ g with writes := g.writes ++ [w] }] } := by
  simp only [MoqServeSub.write, huni, hstreams, modify_last]

theorem serveWriteOne_bytes {ss : MoqServeSub} {l : List GroupStream} {g : GroupStream} {f : ServeFrame}
    (huni : ss.uni = some l.length) (hstreams : ss.streams = l ++ [g]) (hf : f.Fits) (hprev : ss.groupPrevUs.toNat < 2 ^ 61) :
    ss.serveWriteOne f = { ss with
      streams := l ++ [{ g with writes := g.writes ++ (runBytes ss.groupPrevUs [f]).map (⟨·, false⟩) }],
      groupPrevUs := f.tsUs, groupHadMedia := true } := by
  simp only [MoqServeSub.serveWriteOne, frameSegment_bytes hf hprev, if_true, write_last huni hstreams]
  rfl

theorem flush_bytes {l : List GroupStream} : ∀ {fs : List ServeFrame} {ss : MoqServeSub} {g : GroupStream},
    ss.uni = some l.length → ss.streams = l ++ [g] → (∀ f ∈ fs, f.Fits) → ss.groupPrevUs.toNat < 2 ^ 61 → fs ≠ [] →
      fs.foldl MoqServeSub.serveWriteOne ss = { ss with
        streams := l ++ [{ g with writes := g.writes ++ (runBytes ss.groupPrevUs fs).map (⟨·, false⟩) }],
        groupPrevUs := lastUs ss.groupPrevUs fs, groupHadMedia := true }
  | [], _, _, _, _, _, _, hne => absurd rfl hne
  | [f], ss, g, huni, hstreams, hfits, hprev, _ => serveWriteOne_bytes huni hstreams (hfits f mem_cons_self) hprev
  | f :: f' :: fs, ss, g, huni, hstreams, hfits, hprev, _ => by
    have hf := hfits f mem_cons_self
    rw [foldl_cons, serveWriteOne_bytes huni hstreams hf hprev]
    rw [@flush_bytes l (f' :: fs) { ss with streams := _, groupPrevUs := f.tsUs, groupHadMedia := true } _ huni rfl
      (fun f hf => hfits f (mem_cons_of_mem _ hf)) hf.1 (by simp)]
    simp [runBytes, lastUs_cons]

theorem serveFrameFlush_bytes (ss : MoqServeSub) {l : List GroupStream} {g : GroupStream} (huni : ss.uni = some l.length)
    (hstreams : ss.streams = l ++ [g]) (hfits : ∀ f ∈ ss.pend, f.Fits) (hprev : ss.groupPrevUs.toNat < 2 ^ 61)
    (hne : ss.pend ≠ []) :
    ss.serveFrameFlush = { ss with
      streams := l ++ [{ g with writes := g.writes ++ (runBytes ss.groupPrevUs ss.pend).map (⟨·, false⟩) }],
      groupPrevUs := lastUs ss.groupPrevUs ss.pend, groupHadMedia := true, pend := [] } := by
  unfold MoqServeSub.serveFrameFlush
  rw [if_pos (by simp [huni]), flush_bytes huni hstreams hfits hprev hne]

/-! ## What a subscription has written -/

def closedStreams (sid : BitVec 64) (runs : List (List ServeFrame)) : List GroupStream :=
  runs.zipIdx.map fun (run, i) => { writes := groupWrites sid (BitVec.ofNat 64 i) run true }

structure Closed (published : List ServeFrame) (runs : List (List ServeFrame)) (ss : MoqServeSub) : Prop where
  whole : ∀ run ∈ runs, run <:+: published ∧ FromKey run
  few : runs.length ≤ 2 ^ 62
  seq : ss.groupSeq = BitVec.ofNat 64 runs.length

structure Idle (published : List ServeFrame) (runs : List (List ServeFrame)) (ss : MoqServeSub) : Prop
    extends Closed published runs ss where
  uni : ss.uni = none
  opening : ss.groupOpening = false
  opens : ss.opens = 0
  pend : ss.pend = []
  streams : ss.streams = closedStreams ss.sid runs

structure Opening (published : List ServeFrame) (runs : List (List ServeFrame)) (ss : MoqServeSub) : Prop
    extends Closed published runs ss where
  current : ss.pend <:+ published
  fromKey : FromKey ss.pend
  uni : ss.uni = none
  opening : ss.groupOpening = true
  opens : ss.opens = 1
  prev : ss.groupPrevUs = 0
  streams : ss.streams = closedStreams ss.sid runs

structure Writing (published : List ServeFrame) (runs : List (List ServeFrame)) (run : List ServeFrame) (ss : MoqServeSub) : Prop
    extends Closed published runs ss where
  current : run <:+ published
  fromKey : FromKey run
  room : runs.length < 2 ^ 62
  uni : ss.uni = some (closedStreams ss.sid runs).length
  opening : ss.groupOpening = false
  opens : ss.opens = 0
  pend : ss.pend = []
  prev : ss.groupPrevUs = lastUs 0 run
  hadMedia : ss.groupHadMedia = true
  streams : ss.streams = closedStreams ss.sid runs ++ [{ writes := groupWrites ss.sid (BitVec.ofNat 64 runs.length) run false }]

/-- **Where a subscription stands.** -/
inductive Stands (published : List ServeFrame) (ss : MoqServeSub) : Prop
  | idle (runs : List (List ServeFrame)) (h : Idle published runs ss)
  | opening (runs : List (List ServeFrame)) (h : Opening published runs ss)
  | writing (runs : List (List ServeFrame)) (run : List ServeFrame) (h : Writing published runs run ss)

variable {published : List ServeFrame} {runs : List (List ServeFrame)} {run : List ServeFrame} {ss : MoqServeSub} {f : ServeFrame}

theorem closedStreams_append (sid : BitVec 64) (runs : List (List ServeFrame)) (run : List ServeFrame) : closedStreams sid
    (runs ++ [run]) = closedStreams sid runs ++ [{ writes := groupWrites sid (BitVec.ofNat 64 runs.length) run true }] := by
  simp [closedStreams, zipIdx_append]

theorem Closed.more (h : Closed published runs ss) (f : ServeFrame) : Closed (published ++ [f]) runs ss where
  whole run hrun := ⟨(h.whole run hrun).1.trans (prefix_append _ _).isInfix, (h.whole run hrun).2⟩
  few := h.few
  seq := h.seq

theorem FromKey.append (h : FromKey run) (f : ServeFrame) : FromKey (run ++ [f]) := by
  obtain ⟨k, hk, hkey⟩ := h
  refine ⟨k, ?_, hkey⟩
  cases run with
  | nil => cases hk
  | cons a as => exact hk

theorem suffix_snoc (h : run <:+ published) (f : ServeFrame) : run ++ [f] <:+ published ++ [f] := by
  obtain ⟨pre, rfl⟩ := h
  exact ⟨pre, by rw [append_assoc]⟩

theorem groupWrites_append (sid seq : BitVec 64) (run : List ServeFrame) (f : ServeFrame) :
    groupWrites sid seq (run ++ [f]) false = groupWrites sid seq run false ++ (runBytes (lastUs 0 run) [f]).map (⟨·, false⟩) := by
  simp [groupWrites, runBytes_append]

theorem groupWrites_closed (sid seq : BitVec 64) (run : List ServeFrame) : groupWrites sid seq run true = groupWrites sid seq run
    false ++ [⟨frameOnWire 0 (varintBytes (lastUs 0 run).toNat), true⟩] := by
  simp [groupWrites]

/-! ## What each call does to a subscription -/

theorem Idle.more (h : Idle published runs ss) (f : ServeFrame) : Idle (published ++ [f]) runs ss :=
  { h with toClosed := h.toClosed.more f }

theorem Idle.close (h : Idle published runs ss) : Idle published runs ss.serveGroupClose := by
  have hsame : ss.serveGroupClose = { ss with pend := [], groupOpening := false } := if_pos h.uni
  rw [hsame]
  exact { h with pend := rfl, opening := rfl }

theorem Writing.close (h : Writing published runs run ss) (hfits : ∀ f ∈ run, f.Fits) :
    Idle published (runs ++ [run]) ss.serveGroupClose := by
  have hus := lastUs_fits hfits
  have hclose : ss.serveGroupClose = { ss with
      streams := closedStreams ss.sid (runs ++ [run]), uni := none, groupHadMedia := false, groupSeq := ss.groupSeq + 1 } := by
    unfold MoqServeSub.serveGroupClose
    rw [if_neg (by simp [h.uni])]
    simp only [h.hadMedia, h.prev, if_true, moqVarintWrite_nil (fits_varint (Nat.lt_trans hus (by decide))), endSegment_bytes,
      and_self, write_last h.uni h.streams]
    rw [closedStreams_append, groupWrites_closed]
  rw [hclose]
  refine { uni := rfl, opening := h.opening, opens := h.opens, pend := h.pend, streams := rfl, whole := ?_, few := ?_, seq := ?_ }
  · intro r hr
    rcases List.mem_append.mp hr with hr | hr
    · exact h.whole r hr
    · rw [List.mem_singleton.mp hr]
      exact ⟨h.current.isInfix, h.fromKey⟩
  · have := h.room
    simp only [length_append, length_singleton]
    omega
  · simp only [h.seq, length_append, length_singleton, BitVec.ofNat_add]
    rfl

theorem Idle.key (h : Idle published runs ss) (hkey : f.key = true) : Opening (published ++ [f]) runs (ss.serveWriteFrame f) := by
  have hask : ss.serveWriteFrame f = { ss.askStream f.tsUs with pend := [f] } := by
    unfold MoqServeSub.serveWriteFrame MoqServeSub.serveFrameBuffer
    simp [h.uni, h.opening, MoqServeSub.askStream, h.pend, MOQ_MAX_PEND_FRAMES]
  rw [hask]
  exact { (h.toClosed.more f) with
    current := suffix_append _ _, fromKey := ⟨f, rfl, hkey⟩, uni := h.uni, opening := rfl
    opens := congrArg (· + 1) h.opens, prev := rfl, streams := h.streams }

theorem Opening.buffered (h : Opening published runs ss) (hroom : ss.pend.length < MOQ_MAX_PEND_FRAMES) :
    ss.serveWriteFrame f = { ss with pend := ss.pend ++ [f] } := by
  unfold MoqServeSub.serveWriteFrame MoqServeSub.serveFrameBuffer
  simp [h.uni, h.opening, hroom]

theorem Opening.frame (h : Opening published runs ss) (hroom : ss.pend.length < MOQ_MAX_PEND_FRAMES) :
    Opening (published ++ [f]) runs (ss.serveWriteFrame f) := by
  rw [h.buffered hroom]
  exact { (h.toClosed.more f) with
    current := suffix_snoc h.current f, fromKey := h.fromKey.append f, uni := h.uni, opening := h.opening
    opens := h.opens, prev := h.prev, streams := h.streams }

theorem Writing.frame (h : Writing published runs run ss) (hf : f.Fits) (hfits : ∀ f ∈ run, f.Fits) :
    Writing (published ++ [f]) runs (run ++ [f]) (ss.serveWriteFrame f) := by
  have hwrite : ss.serveWriteFrame f = _ := (if_neg (by simp [h.uni])).trans
    (serveWriteOne_bytes h.uni h.streams hf (h.prev ▸ lastUs_fits hfits))
  rw [hwrite]
  exact { (h.toClosed.more f) with
    current := suffix_snoc h.current f, fromKey := h.fromKey.append f, room := h.room, uni := h.uni, opening := h.opening
    opens := h.opens, pend := h.pend, prev := (lastUs_append 0 run f).symm, hadMedia := rfl
    streams := by simp only [h.prev, groupWrites_append] }

theorem answerStart_eq (ss : MoqServeSub) :
    ∃ started answer, ss.answerStart = { ss with started := started, answer := answer } := by
  unfold MoqServeSub.answerStart
  simp only
  split
  · exact ⟨_, _, rfl⟩
  · exact ⟨ss.started, ss.answer, rfl⟩

theorem Opening.uniOpen (h : Opening published runs ss) (hseq : ¬ MOQ_VARINT_MAX < ss.groupSeq) (hfits : ∀ f ∈ ss.pend, f.Fits) :
    Writing published runs ss.pend ss.onSessionUniOpen := by
  have hroom : runs.length < 2 ^ 62 := by
    have hmax : MOQ_VARINT_MAX.toNat = 2 ^ 62 - 1 := rfl
    have hfew := h.few
    rw [h.seq, BitVec.lt_def, hmax, BitVec.toNat_ofNat] at hseq
    omega
  have hne : ss.pend ≠ [] := by
    obtain ⟨k, hk, -⟩ := h.fromKey
    rintro hnil
    rw [hnil] at hk
    cases hk
  obtain ⟨started, answer, hstart⟩ :=
    answerStart_eq { ss with uni := some ss.streams.length, opens := ss.opens - 1 }
  have hopen : ss.onSessionUniOpen = { ss with
      started := started, answer := answer, uni := some (closedStreams ss.sid runs).length, opens := 0, groupOpening := false
      pend := [], groupPrevUs := lastUs 0 ss.pend, groupHadMedia := true
      streams := closedStreams ss.sid runs ++ [{ writes := groupWrites ss.sid (BitVec.ofNat 64 runs.length) ss.pend false }] } := by
    unfold MoqServeSub.onSessionUniOpen MoqServeSub.serveGroupOpenOnStream
    rw [if_neg (by simp [h.opens])]
    simp only [hstart]
    rw [if_neg (by simp [groupHeader_bytes ss.sidFits hseq])]
    let opened : MoqServeSub := { ss with
      started := started, answer := answer, uni := some ss.streams.length, opens := ss.opens - 1, groupOpening := false
      streams := ss.streams ++ [{ writes := [⟨(groupHeader ss.sid ss.groupSeq).2, false⟩] }] }
    refine (serveFrameFlush_bytes opened rfl rfl hfits (by simp [opened, h.prev]) hne).trans ?_
    dsimp only [opened]
    simp only [h.streams, h.opens, h.prev, groupWrites, h.seq]
    simp
  rw [hopen]
  exact { whole := h.whole, few := h.few, seq := h.seq, current := h.current, fromKey := h.fromKey, room := hroom, uni := rfl
          opening := rfl, opens := rfl, pend := rfl, prev := rfl, hadMedia := rfl, streams := rfl }

theorem Opening.replay : ∀ (fs : List ServeFrame) (ss : MoqServeSub) (published : List ServeFrame), Opening published [] ss →
    ss.pend.length + fs.length ≤ MOQ_MAX_PEND_FRAMES → Opening (published ++ fs) [] (fs.foldl MoqServeSub.serveWriteFrame ss)
  | [], ss, published, h, _ => by simpa using h
  | f :: fs, ss, published, h, hroom => by
    have hlen : ss.pend.length < MOQ_MAX_PEND_FRAMES := by
      rw [length_cons] at hroom
      omega
    have hone := h.frame (f := f) hlen
    have hpend : (ss.serveWriteFrame f).pend = ss.pend ++ [f] := congrArg MoqServeSub.pend (h.buffered hlen)
    have hmore : (ss.serveWriteFrame f).pend.length + fs.length ≤ MOQ_MAX_PEND_FRAMES := by
      rw [hpend, length_append, length_singleton, Nat.add_assoc, Nat.add_comm 1]
      exact hroom
    have := Opening.replay fs _ _ hone hmore
    rwa [append_assoc] at this

/-! ## The condition, and what it keeps -/

/-- **No border comes while a group waits for its stream, and no more frames than it may keep, also not from the hold, which
begins at a keyframe** (and what is told is told by a varint: times, and the numbers of the groups). -/
def StepOk (t : MoqPubTrack) : Event → Prop
  | .frame f => t.dead = false → f.payload ≠ [] → f.Fits ∧
      ∀ ss ∈ t.subs, ss.groupOpening = true → f.key = false ∧ ss.pend.length < MOQ_MAX_PEND_FRAMES
  | .trackEnd => t.dead = false → ∀ ss ∈ t.subs, ss.groupOpening = false
  | .subscribe _ => t.dead = false → t.hold.length ≤ MOQ_MAX_PEND_FRAMES ∧ ∀ f ∈ t.hold.head?, f.key = true
  | .uniOpen i => ∀ ss ∈ t.subs[i]?, ¬ MOQ_VARINT_MAX < ss.groupSeq

instance (t : MoqPubTrack) (e : Event) : Decidable (StepOk t e) := by
  unfold StepOk
  cases e <;> infer_instance

/-- Every subscription stands somewhere, and the hold is the end of what was published. -/
structure Sound (t : MoqPubTrack) : Prop where
  stands : ∀ ss ∈ t.subs, Stands t.published ss
  fits : ∀ f ∈ t.published, f.Fits
  hold : t.hold <:+ t.published

theorem Stands.idle_of_closed (h : Stands published ss) (hfits : ∀ f ∈ published, f.Fits) (hopen : ss.groupOpening = false) :
    ∃ runs, Idle published runs ss.serveGroupClose := by
  cases h with
  | idle runs h => exact ⟨runs, h.close⟩
  | opening runs h => exact absurd (h.opening.symm.trans hopen) (by decide)
  | writing runs run h => exact ⟨_, h.close fun f hf => hfits f (h.current.subset hf)⟩

theorem Stands.key (h : Stands published ss) (hfits : ∀ f ∈ published, f.Fits) (hopen : ss.groupOpening = false)
    (hkey : f.key = true) : ∃ runs, Opening (published ++ [f]) runs (ss.trackFrame f) := by
  obtain ⟨runs, hidle⟩ : ∃ runs, Idle published runs (if ss.uni.isSome ∨ ss.groupOpening then ss.serveGroupClose else ss) := by
    split
    · exact h.idle_of_closed hfits hopen
    · rename_i hnone
      cases h with
      | idle runs h => exact ⟨runs, h⟩
      | opening runs h => exact absurd (Or.inr h.opening) hnone
      | writing runs run h => exact absurd (Or.inl (by simp [h.uni])) hnone
  unfold MoqServeSub.trackFrame
  rw [if_pos hkey]
  exact ⟨runs, hidle.key hkey⟩

theorem Stands.frame (h : Stands published ss) (hfits : ∀ f ∈ published, f.Fits) (hf : f.Fits) (hok : ss.groupOpening = true →
    f.key = false ∧ ss.pend.length < MOQ_MAX_PEND_FRAMES) : Stands (published ++ [f]) (ss.trackFrame f) := by
  cases hkey : f.key with
  | true =>
    have hopen : ss.groupOpening = false := by
      by_contra hopening
      have := (hok (by simpa using hopening)).1
      rw [hkey] at this
      cases this
    obtain ⟨runs, hopening⟩ := h.key hfits hopen hkey
    exact .opening runs hopening
  | false =>
    unfold MoqServeSub.trackFrame
    rw [if_neg (by simp [hkey])]
    cases h with
    | idle runs h =>
      rw [if_pos ⟨h.uni, h.opening⟩]
      exact .idle runs (h.more f)
    | opening runs h =>
      rw [if_neg (by simp [h.opening])]
      exact .opening runs (h.frame (hok h.opening).2)
    | writing runs run h =>
      rw [if_neg (by simp [h.uni])]
      exact .writing runs _ (h.frame hf fun f hf => hfits f (h.current.subset hf))

theorem Stands.uniOpen (h : Stands published ss) (hfits : ∀ f ∈ published, f.Fits) (hseq : ¬ MOQ_VARINT_MAX < ss.groupSeq) :
    Stands published ss.onSessionUniOpen := by
  cases h with
  | idle runs h =>
    rw [MoqServeSub.onSessionUniOpen, if_pos h.opens]
    exact .idle runs h
  | opening runs h => exact .writing runs _ (h.uniOpen hseq fun f hf => hfits f (h.current.subset hf))
  | writing runs run h =>
    rw [MoqServeSub.onSessionUniOpen, if_pos h.opens]
    exact .writing runs run h

theorem stands_new (sid : { v : BitVec 64 // ¬ MOQ_VARINT_MAX < v }) {hold : List ServeFrame} (hsuffix : hold <:+ published)
    (hlen : hold.length ≤ MOQ_MAX_PEND_FRAMES) (hkey : ∀ f ∈ hold.head?, f.key = true) :
    Stands published (hold.foldl MoqServeSub.serveWriteFrame { sid := sid.1, sidFits := sid.2 }) := by
  have hnew : Idle [] [] { sid := sid.1, sidFits := sid.2 } :=
    { whole := by simp, few := by simp, seq := rfl, uni := rfl, opening := rfl, opens := rfl, pend := rfl, streams := rfl }
  have hgrow : ∀ {fs : List ServeFrame}, fs <:+ published → ∀ ss, Opening fs [] ss → Stands published ss := fun hfs ss h =>
    .opening [] { h with whole := by simp, current := h.current.trans hfs }
  cases hold with
  | nil => exact .idle [] { hnew with whole := by simp }
  | cons f rest =>
    have hfirst := hnew.key (f := f) (hkey f rfl)
    have hpend : (MoqServeSub.serveWriteFrame { sid := sid.1, sidFits := sid.2 } f).pend.length = 1 := rfl
    exact hgrow hsuffix _ (hfirst.replay rest _ _ (by rw [hpend, Nat.add_comm]; exact hlen))

theorem keepHold_hold (t : MoqPubTrack) (f : ServeFrame) (published : List ServeFrame) (h : t.hold <:+ published) :
    (t.keepHold f).hold <:+ published ++ [f] := by
  unfold MoqPubTrack.keepHold
  dsimp only
  split
  · split
    · exact nil_suffix
    · exact suffix_append _ _
  · split
    · exact nil_suffix
    · exact suffix_snoc h f

theorem keepHold_subs (t : MoqPubTrack) (f : ServeFrame) :
    (t.keepHold f).subs = t.subs ∧ (t.keepHold f).published = t.published := by
  unfold MoqPubTrack.keepHold MoqPubTrack.holdPush MoqPubTrack.holdClear
  dsimp only
  split <;> split <;> exact ⟨rfl, rfl⟩

theorem Sound.step {t : MoqPubTrack} (h : Sound t) {e : Event} (hok : StepOk t e) : Sound (step t e) := by
  cases e with
  | frame f =>
    simp only [ServeGroups.step, MoqPubTrack.moqLiteTrackFrame]
    split
    · exact h
    · rename_i htaken
      obtain ⟨hdead, hpayload⟩ := not_or.mp htaken
      obtain ⟨hf, hsubs⟩ := hok (by simpa using hdead) hpayload
      generalize ht : ({ t with subs := t.subs.map (MoqServeSub.trackFrame f), published := t.published ++ [f] } : MoqPubTrack) = u
      obtain ⟨hsub, hpub⟩ := keepHold_subs u f
      subst ht
      refine ⟨?_, ?_, ?_⟩
      · rw [hsub, hpub]
        intro ss hss
        obtain ⟨old, hold, rfl⟩ := List.mem_map.mp hss
        exact (h.stands old hold).frame h.fits hf (hsubs old hold)
      · rw [hpub]
        intro g hg
        rcases List.mem_append.mp hg with hg | hg
        · exact h.fits g hg
        · rwa [List.mem_singleton.mp hg]
      · rw [hpub]
        exact keepHold_hold _ f t.published h.hold
  | trackEnd =>
    simp only [ServeGroups.step, MoqPubTrack.moqLiteTrackEnd]
    split
    · exact h
    · rename_i hdead
      refine ⟨fun ss hss => ?_, h.fits, nil_suffix⟩
      obtain ⟨old, hold, rfl⟩ := List.mem_map.mp hss
      obtain ⟨runs, hidle⟩ := (h.stands old hold).idle_of_closed h.fits (hok (by simpa using hdead) old hold)
      exact .idle runs hidle
  | subscribe sid =>
    simp only [ServeGroups.step, MoqPubTrack.subscribe]
    split
    · exact h
    · rename_i hdead
      obtain ⟨hlen, hkey⟩ := hok (by simpa using hdead)
      refine ⟨fun ss hss => ?_, h.fits, h.hold⟩
      rcases List.mem_append.mp hss with hss | hss
      · exact h.stands ss hss
      · rw [List.mem_singleton.mp hss]
        exact stands_new sid h.hold hlen hkey
  | uniOpen i =>
    refine ⟨fun ss hss => ?_, h.fits, h.hold⟩
    rcases mem_modify hss with hss | ⟨old, hold, rfl⟩
    · exact h.stands ss hss
    · exact (h.stands old (mem_of_getElem? hold)).uniOpen h.fits (hok old hold)

/-! ## The groups -/

theorem groupOf_writes (ss : MoqServeSub) {seq : BitVec 64} (hseq : ¬ MOQ_VARINT_MAX < seq) (run : List ServeFrame)
    (closed : Bool) : groupOf { writes := groupWrites ss.sid seq run closed } = some seq := by
  have hheader := readGroupHeader_bytes ss.sidFits hseq
  generalize hrest : ((runBytes 0 run).map (⟨·, false⟩) ++
    if closed then [⟨frameOnWire 0 (varintBytes (lastUs 0 run).toNat), true⟩] else [] : List Write).flatMap Write.bytes = rest
  have htype : moqVarintRead (varintBytes 0 ++ (varintBytes (headerBody ss.sid seq).length ++ (headerBody ss.sid seq ++ rest))) 0 =
      ⟨0, (varintBytes 0).length, some 0⟩ := by
    have h := moqVarintRead_bytes (v := 0) (by decide) []
      (varintBytes (headerBody ss.sid seq).length ++ (headerBody ss.sid seq ++ rest))
    rwa [nil_append, length_nil, Nat.zero_add] at h
  have hbytes : (groupWrites ss.sid seq run closed).flatMap Write.bytes =
      varintBytes 0 ++ (varintBytes (headerBody ss.sid seq).length ++ (headerBody ss.sid seq ++ rest)) := by
    rw [groupWrites, cons_append, flatMap_cons, hrest, groupHeader_bytes ss.sidFits hseq]
    simp only [append_assoc]
  unfold groupOf
  simp only [hbytes, htype, Int.lt_irrefl, if_false, drop_left, hheader]
  rfl

theorem number_fits {n : Nat} (h : n < 2 ^ 62) : ¬ MOQ_VARINT_MAX < BitVec.ofNat 64 n := fits_varint (ofNat_fits h)

theorem groupOf_closed (ss : MoqServeSub) (hfew : runs.length ≤ 2 ^ 62) :
    (closedStreams ss.sid runs).map groupOf = (range runs.length).map (some ∘ BitVec.ofNat 64) := by
  rw [closedStreams, map_map, range_eq_range', ← zipIdx_map_snd 0 runs, map_map]
  refine map_congr_left fun ⟨run, i⟩ hi => ?_
  have hlt : i < runs.length := by simpa using snd_lt_of_mem_zipIdx hi
  exact groupOf_writes ss (number_fits (by omega)) run true

theorem numbers_nodup {n : Nat} (h : n ≤ 2 ^ 62) : ((range n).map (some ∘ BitVec.ofNat 64)).Nodup := by
  refine List.Nodup.map_on ?_ nodup_range
  intro i hi j hj hij
  have hi := List.mem_range.mp hi
  have hj := List.mem_range.mp hj
  have hnat := congrArg BitVec.toNat (Option.some.inj hij)
  rw [BitVec.toNat_ofNat, BitVec.toNat_ofNat, Nat.mod_eq_of_lt (by omega), Nat.mod_eq_of_lt (by omega)] at hnat
  exact hnat

theorem Closed.carries (h : Closed published runs ss) : ∀ g ∈ closedStreams ss.sid runs, ∃ seq run closed,
    run <:+: published ∧ FromKey run ∧ g = { writes := groupWrites ss.sid seq run closed } := by
  intro g hg
  obtain ⟨⟨run, i⟩, hi, rfl⟩ := List.mem_map.mp hg
  have hrun := h.whole run (fst_mem_of_mem_zipIdx hi)
  exact ⟨_, run, true, hrun.1, hrun.2, rfl⟩

theorem Closed.well (h : Closed published runs ss) (hstreams : ss.streams = closedStreams ss.sid runs) :
    GroupsWell published ss where
  distinct := by
    rw [hstreams, groupOf_closed ss h.few]
    exact numbers_nodup h.few
  carries := by
    rw [hstreams]
    exact h.carries

theorem Stands.well (h : Stands published ss) : GroupsWell published ss := by
  cases h with
  | idle runs h => exact h.toClosed.well h.streams
  | opening runs h => exact h.toClosed.well h.streams
  | writing runs run h =>
    constructor
    · rw [h.streams, map_append, groupOf_closed ss h.few, map_singleton, groupOf_writes ss (number_fits h.room)]
      have hsnoc := numbers_nodup (n := runs.length + 1) h.room
      rw [range_succ, map_append] at hsnoc
      exact hsnoc
    · intro g hg
      rw [h.streams] at hg
      rcases List.mem_append.mp hg with hg | hg
      · exact h.carries g hg
      · rw [List.mem_singleton.mp hg]
        exact ⟨_, run, false, h.current.isInfix, h.fromKey, rfl⟩

theorem closed_allClosed (hstreams : ss.streams = closedStreams ss.sid runs) : AllClosed ss := by
  intro g hg
  rw [hstreams] at hg
  obtain ⟨⟨run, i⟩, -, rfl⟩ := List.mem_map.mp hg
  refine ⟨⟨frameOnWire 0 (varintBytes (lastUs 0 run).toNat), true⟩, ?_, rfl⟩
  simp [groupWrites_closed]

theorem Sound.border {t : MoqPubTrack} (h : Sound t) {e : Event} (hok : StepOk t e) (hborder : IsBorder t e) :
    ∀ ss ∈ (ServeGroups.step t e).subs, AllClosed ss := by
  intro ss hss
  cases e with
  | frame f =>
    obtain ⟨hdead, hpayload, hkey⟩ := hborder
    have hsubs := (hok hdead hpayload).2
    simp only [ServeGroups.step, MoqPubTrack.moqLiteTrackFrame, hdead, hpayload, Bool.false_eq_true, or_self, if_false,
      (keepHold_subs _ f).1] at hss
    obtain ⟨old, hold, rfl⟩ := List.mem_map.mp hss
    have hopen : old.groupOpening = false := by
      by_contra hopening
      exact absurd ((hsubs old hold (by simpa using hopening)).1.symm.trans hkey) (by decide)
    obtain ⟨runs, hopening⟩ := (h.stands old hold).key h.fits hopen hkey
    exact closed_allClosed hopening.streams
  | trackEnd =>
    have hdead : t.dead = false := hborder
    simp only [ServeGroups.step, MoqPubTrack.moqLiteTrackEnd, hdead, Bool.false_eq_true, if_false] at hss
    obtain ⟨old, hold, rfl⟩ := List.mem_map.mp hss
    obtain ⟨runs, hidle⟩ := (h.stands old hold).idle_of_closed h.fits (hok hdead old hold)
    exact closed_allClosed hidle.streams
  | subscribe sid => exact hborder.elim
  | uniOpen i => exact hborder.elim

theorem sound_start : Sound {} := ⟨by simp, by simp, suffix_refl _⟩

/-- **In every run whose steps meet the condition, every subscription's groups are as they should be in every state, and
every keyframe and the end of the track end all groups begun before.** -/
theorem serve_groups_whole (events : List Event) (h : StepsOk step StepOk {} events) : (∀ pre post, events = pre ++ post →
    ∀ ss ∈ (pre.foldl step {}).subs, GroupsWell (pre.foldl step {}).published ss) ∧ ∀ pre e post, events = pre ++ e :: post →
    IsBorder (pre.foldl step {}) e → ∀ ss ∈ (step (pre.foldl step {}) e).subs, AllClosed ss := by
  have hsound : ∀ pre post, events = pre ++ post → Sound (pre.foldl step {}) := by
    rintro pre post rfl
    exact foldl_inv step StepOk Sound (fun _ _ hs hok => hs.step hok) pre {} sound_start ((stepsOk_append step StepOk pre post {}).mp h).1
  constructor
  · intro pre post hevents ss hss
    exact ((hsound pre post hevents).stands ss hss).well
  · intro pre e post hevents hborder
    exact (hsound pre (e :: post) hevents).border ((stepsOk_iff step StepOk events {}).mp h pre e post hevents) hborder

/-! ## Two keyframes before the stream -/

def subscribed (sid : BitVec 64) (h : ¬ MOQ_VARINT_MAX < sid) : Event := .subscribe ⟨sid, h⟩

def keyAt (tsUs : BitVec 64) : Event := .frame ⟨tsUs, [0x65], true⟩
def deltaAt (tsUs : BitVec 64) : Event := .frame ⟨tsUs, [0x41], false⟩

/-- A subscription from the first frame, one that joins within the first group, and a second group. -/
def twoGroups : List Event :=
  [subscribed 5 (by decide), keyAt 0, .uniOpen 0, deltaAt 40000, subscribed 6 (by decide), deltaAt 80000, .uniOpen 1,
    keyAt 120000, .uniOpen 0, .uniOpen 1, .trackEnd]

theorem serve_groups_whole_sample : (∀ pre post, twoGroups = pre ++ post → ∀ ss ∈ (pre.foldl step {}).subs, GroupsWell
    (pre.foldl step {}).published ss) ∧ ∀ pre e post, twoGroups = pre ++ e :: post → IsBorder (pre.foldl step {}) e →
    ∀ ss ∈ (step (pre.foldl step {}) e).subs, AllClosed ss :=
  serve_groups_whole twoGroups (by decide +kernel)

def keysTogether : List Event := [subscribed 5 (by decide), keyAt 0, keyAt 40000, .uniOpen 0, .uniOpen 0]

/-- **Both streams that were asked for become the group of one number**, and the first of them is left behind open. -/
theorem number_used_twice : (∃ ss ∈ (keysTogether.foldl step {}).subs, ss.streams.map groupOf = [some 0, some 0] ∧ ss.uni =
    some 1) ∧ ¬ ∀ ss ∈ (keysTogether.foldl step {}).subs, GroupsWell (keysTogether.foldl step {}).published ss := by
  have htwice : ∃ ss ∈ (keysTogether.foldl step {}).subs, ss.streams.map groupOf = [some 0, some 0] ∧ ss.uni = some 1 := by
    decide +kernel
  refine ⟨htwice, fun hall => ?_⟩
  obtain ⟨ss, hss, hgroups, -⟩ := htwice
  have hdistinct := (hall ss hss).distinct
  rw [hgroups] at hdistinct
  exact absurd hdistinct (by decide)

end ServeGroups
end MoqLiveCast
