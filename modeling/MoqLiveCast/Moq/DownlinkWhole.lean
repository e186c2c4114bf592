import MoqLiveCast.Lib.Run
import MoqLiveCast.Moq.Downlink
/-!
# DownlinkWhole — the header of a downlink's stream, and its objects

What the transport took of a stream and what waits for it are one line: the header, and objects as they were encoded, some of them
dropped.  The line stays so while its header is not among what is dropped (`downlinks_whole`).

The session's handlers are runs of `DownOp`s (`session_runs`).
-/
namespace MoqLiveCast

open List

/-- The functions of a downlink that touch its stream, and what the handlers do beside. -/
inductive DownOp where
  | openStream (t : RenditionKind)
  | emitLoc (t : RenditionKind) (p : MediaPacket)
  | drain (t : RenditionKind)
  | ensureBase (gop : List MediaPacket)
  | waitKey (t : RenditionKind) (wait : Bool)
  | detached (t : RenditionKind)
  | flags (subscriber session writerClosed : Bool)
  | close

def DownMark.sid : DownMark → Nat
  | .opened _ sid => sid
  | .emitted sid _ => sid
  | .taken sid _ => sid

section

variable (sid : Nat) (log : List DownMark)

def takenOn : List (List Byte) := log.filterMap fun
  | .taken k buf => if k = sid then some buf else none
  | _ => none

def emittedOn : List (List Byte) := log.filterMap fun
  | .emitted k obj => if k = sid then some obj else none
  | _ => none

end

/-- **A stream's bytes**: nothing yet, or the header and whole objects in the order they were encoded. -/
def StreamWhole (trackAlias : BitVec 64) (sid : Nat) (log : List DownMark) : Prop :=
  (takenOn sid log).flatten = [] ∨
    ∃ objs, Sublist objs (emittedOn sid log) ∧ (takenOn sid log).flatten = encodeSubgroup trackAlias 0 ++ objs.flatten

/-- What was taken of a stream and what waits for it are the header, and objects. -/
def LineWhole (hdr : List Byte) (taken queue emitted : List (List Byte)) : Prop :=
  ∃ objs, Sublist objs emitted ∧ taken ++ queue = hdr :: objs

namespace PushDown

def step (net : EgressNet) (s : PushDown) : DownOp → PushDown
  | .openStream t => (s.openStream net t).1
  | .emitLoc t p => s.emitLoc net t p
  | .drain t => s.drainSendQueue net t
  | .ensureBase gop => { s with clock := s.clock.ensureBase gop }
  | .waitKey t wait => s.setDl t { s.dl t with waitKey := wait }
  | .detached t => s.detached t
  | .flags subscriber session writerClosed => { s with subscriber := subscriber, session := session, writerClosed := writerClosed }
  | .close => s.close

/-- **The downlinks are well formed**: every stream's bytes are, what waits for a stream continues them, and the bytes that wait are
counted. -/
structure Whole (s : PushDown) : Prop where
  streams : ∀ trackAlias sid, .opened trackAlias sid ∈ s.log → StreamWhole trackAlias sid s.log
  queues : ∀ t sid, (s.dl t).st = some ⟨sid, true⟩ →
    LineWhole (encodeSubgroup t.trackAlias 0) (takenOn sid s.log) (s.dl t).sendQ (emittedOn sid s.log)
  counted : ∀ t, (s.dl t).sendQBytes = ((s.dl t).sendQ.map List.length).sum

def headerWaits (s : PushDown) (t : RenditionKind) : Bool := (s.dl t).st.any fun st => st.valid && takenOn st.sid s.log = []

/-- **The condition**: no header waits when a packet sets the time line anew; a header that waits is not refused for good; and where it
is refused for now, an object behind it finds room. -/
def OpOk (net : EgressNet) (s : PushDown) : DownOp → Prop
  | .emitLoc t p =>
    (s.dl t).st ≠ none → t.tagHdr < p.body.length →
      ((s.clock.stamp p).rebased = true → ∀ t', s.headerWaits t' = false) ∧
      (s.headerWaits t = true → net.send s.sends = .ok ∨ net.send s.sends = .full ∧ (s.dl t).sendQ.length < kMaxQItems ∧
        (s.dl t).sendQBytes + (locObject t p (s.clock.stamp p).ts).length ≤ kMaxQBytes)
  | .drain t => s.headerWaits t = true → net.send s.sends ≠ .dead
  | _ => True

end PushDown

instance (net : EgressNet) (s : PushDown) : ∀ op : DownOp, Decidable (PushDown.OpOk net s op)
  | .emitLoc t p =>
    have : Decidable (∀ t', s.headerWaits t' = false) :=
      decidable_of_iff (s.headerWaits .video = false ∧ s.headerWaits .audio = false)
        ⟨fun h t' => by cases t' with | video => exact h.1 | audio => exact h.2, fun h => ⟨h .video, h .audio⟩⟩
    inferInstanceAs (Decidable (_ → _ → _ ∧ _))
  | .drain _ => inferInstanceAs (Decidable (_ → _))
  | .openStream _ => inferInstanceAs (Decidable True)
  | .ensureBase _ => inferInstanceAs (Decidable True)
  | .waitKey _ _ => inferInstanceAs (Decidable True)
  | .detached _ => inferInstanceAs (Decidable True)
  | .flags _ _ _ => inferInstanceAs (Decidable True)
  | .close => inferInstanceAs (Decidable True)

/-! ## Lines -/

section

variable {hdr x : List Byte} {taken queue emitted more : List (List Byte)}

theorem LineWhole.mono (h : LineWhole hdr taken queue emitted) : LineWhole hdr taken queue (emitted ++ more) := by
  obtain ⟨objs, hobjs, heq⟩ := h
  exact ⟨objs, hobjs.trans (sublist_append_left _ _), heq⟩

theorem LineWhole.pass (h : LineWhole hdr taken (x :: queue) emitted) : LineWhole hdr (taken ++ [x]) queue emitted := by
  obtain ⟨objs, hobjs, heq⟩ := h
  exact ⟨objs, hobjs, by rw [← heq, append_assoc, singleton_append]⟩

theorem LineWhole.post (h : LineWhole hdr taken queue emitted) : LineWhole hdr taken (queue ++ [x]) (emitted ++ [x]) := by
  obtain ⟨objs, hobjs, heq⟩ := h
  exact ⟨objs ++ [x], hobjs.append (List.Sublist.refl _), by rw [← append_assoc, heq, cons_append]⟩

theorem LineWhole.lose (h : LineWhole hdr taken queue emitted) (htaken : taken ≠ []) {queue' : List (List Byte)}
    (hq : Sublist queue' queue) : LineWhole hdr taken queue' emitted := by
  obtain ⟨objs, hobjs, heq⟩ := h
  cases taken with
  | nil => exact absurd rfl htaken
  | cons b bs =>
    rw [cons_append, List.cons.injEq] at heq
    obtain ⟨rfl, rfl⟩ := heq
    exact ⟨bs ++ queue', ((List.Sublist.refl bs).append hq).trans hobjs, rfl⟩

theorem LineWhole.front (h : LineWhole hdr [] queue emitted) : ∃ q, queue = hdr :: q := by
  obtain ⟨objs, -, heq⟩ := h
  exact ⟨objs, heq⟩

theorem LineWhole.bytes (h : LineWhole hdr taken queue emitted) :
    taken.flatten = [] ∨ ∃ objs, Sublist objs emitted ∧ taken.flatten = hdr ++ objs.flatten := by
  obtain ⟨objs, hobjs, heq⟩ := h
  cases taken with
  | nil => exact .inl rfl
  | cons b bs =>
    rw [cons_append, List.cons.injEq] at heq
    obtain ⟨rfl, rfl⟩ := heq
    exact .inr ⟨bs, (sublist_append_left _ _).trans hobjs, rfl⟩

end

theorem StreamWhole.mono {trackAlias : BitVec 64} {sid : Nat} {log log' : List DownMark} (h : StreamWhole trackAlias sid log)
    (htaken : takenOn sid log' = takenOn sid log) {more : List (List Byte)} (hemitted : emittedOn sid log' = emittedOn sid log ++ more) :
    StreamWhole trackAlias sid log' := by
  unfold StreamWhole at h ⊢
  rw [htaken, hemitted]
  exact h.imp_right fun ⟨objs, hobjs, heq⟩ => ⟨objs, hobjs.trans (sublist_append_left _ _), heq⟩

/-! ## Queues -/

namespace Downlink

def Counted (d : Downlink) : Prop := d.sendQBytes = (d.sendQ.map List.length).sum

theorem trimTurns_spec : ∀ (q : List (List Byte)) (bytes : Nat), bytes = (q.map List.length).sum →
    Sublist (trimTurns q bytes).1 q ∧ (trimTurns q bytes).2 = ((trimTurns q bytes).1.map List.length).sum
  | [], _, h => ⟨List.Sublist.refl _, h⟩
  | b :: q, bytes, h => by
    rw [trimTurns]
    split
    · obtain ⟨hsub, hsum⟩ := trimTurns_spec q (bytes - b.length) (by rw [h, map_cons, sum_cons]; omega)
      exact ⟨hsub.cons b, hsum⟩
    · exact ⟨List.Sublist.refl _, h⟩

theorem enqueueSend_spec {d : Downlink} (h : d.Counted) (buf : List Byte) :
    Sublist (d.enqueueSend buf).sendQ (d.sendQ ++ [buf]) ∧ (d.enqueueSend buf).Counted ∧ (d.enqueueSend buf).st = d.st := by
  unfold enqueueSend
  split
  · exact ⟨sublist_append_left _ _, h, rfl⟩
  · have hsum : d.sendQBytes + buf.length = ((d.sendQ ++ [buf]).map List.length).sum := by
      rw [h, map_append, sum_append]
      simp
    obtain ⟨hsub, hcounted⟩ := trimTurns_spec (d.sendQ ++ [buf]) _ hsum
    exact ⟨hsub, hcounted, rfl⟩

theorem enqueueSend_room {d : Downlink} {buf : List Byte} (hbuf : buf ≠ []) (hitems : d.sendQ.length < kMaxQItems)
    (hbytes : d.sendQBytes + buf.length ≤ kMaxQBytes) : (d.enqueueSend buf).sendQ = d.sendQ ++ [buf] := by
  unfold enqueueSend trimSendQueue
  rw [if_neg hbuf]
  dsimp only
  cases hq : d.sendQ ++ [buf] with
  | nil => rfl
  | cons b q =>
    have hlen := congrArg List.length hq
    rw [length_append, length_singleton] at hlen
    rw [trimTurns, if_neg (by omega)]

end Downlink

/-! ## One stream -/

section

variable (sid k : Nat) (log more : List DownMark)

@[simp] theorem takenOn_append : takenOn k (log ++ more) = takenOn k log ++ takenOn k more := filterMap_append

@[simp] theorem emittedOn_append : emittedOn k (log ++ more) = emittedOn k log ++ emittedOn k more := filterMap_append

theorem takenOn_taken (buf : List Byte) : takenOn k [.taken sid buf] = if sid = k then [buf] else [] := by
  by_cases h : sid = k <;> simp [takenOn, h]

theorem emittedOn_emitted (obj : List Byte) : emittedOn k [.emitted sid obj] = if sid = k then [obj] else [] := by
  by_cases h : sid = k <;> simp [emittedOn, h]

end

/-- Buffers were taken of the stream `sid`, and nothing else was logged. -/
def TakenOnly (sid : Nat) (more : List DownMark) : Prop := ∀ m ∈ more, ∃ buf, m = .taken sid buf

theorem TakenOnly.emitted {sid : Nat} {more : List DownMark} (h : TakenOnly sid more) (k : Nat) : emittedOn k more = [] := by
  refine List.filterMap_eq_nil_iff.2 fun m hm => ?_
  obtain ⟨buf, rfl⟩ := h m hm
  rfl

theorem TakenOnly.other {sid k : Nat} {more : List DownMark} (h : TakenOnly sid more) (hk : sid ≠ k) : takenOn k more = [] := by
  refine List.filterMap_eq_nil_iff.2 fun m hm => ?_
  obtain ⟨buf, rfl⟩ := h m hm
  exact if_neg hk

namespace PushDown

@[simp] theorem setDl_self (s : PushDown) (t : RenditionKind) (d : Downlink) : (s.setDl t d).dl t = d := Function.update_self ..

theorem setDl_other (s : PushDown) {t t' : RenditionKind} (d : Downlink) (h : t' ≠ t) : (s.setDl t d).dl t' = s.dl t' :=
  Function.update_of_ne h ..

theorem setDl_dl (s : PushDown) (t t' : RenditionKind) (d : Downlink) : (s.setDl t d).dl t' = if t' = t then d else s.dl t' :=
  Function.update_apply ..

/-- **What is done to a downlink's stream**: the other downlink and the streams that were opened stay as they are. -/
structure OnLine (t : RenditionKind) (sid : Nat) (s s' : PushDown) : Prop where
  others : ∀ t', t' ≠ t → s'.dl t' = s.dl t'
  st : (s'.dl t).st = (s.dl t).st
  nextUni : s'.nextUni = s.nextUni
  log : ∃ more, s'.log = s.log ++ more ∧ TakenOnly sid more
  counted : (s.dl t).Counted → (s'.dl t).Counted

variable {t : RenditionKind}

theorem OnLine.trans {sid : Nat} {s s' s'' : PushDown} (h : OnLine t sid s s') (h' : OnLine t sid s' s'') :
    OnLine t sid s s'' := by
  obtain ⟨more, hlog, htaken⟩ := h.log
  obtain ⟨more', hlog', htaken'⟩ := h'.log
  refine ⟨fun t' ht => (h'.others t' ht).trans (h.others t' ht), h'.st.trans h.st, h'.nextUni.trans h.nextUni,
    ⟨more ++ more', by rw [hlog', hlog, append_assoc], fun m hm => ?_⟩, fun hc => h'.counted (h.counted hc)⟩
  exact (List.mem_append.1 hm).elim (htaken m) (htaken' m)

theorem OnLine.taken {t : RenditionKind} {sid : Nat} {s s' : PushDown} (h : OnLine t sid s s')
    (htaken : takenOn sid s.log ≠ []) : takenOn sid s'.log ≠ [] := by
  obtain ⟨more, hlog, -⟩ := h.log
  rw [hlog, takenOn_append]
  exact append_ne_nil_of_left_ne_nil htaken _

theorem onLine_setDl (s : PushDown) (t : RenditionKind) (sid : Nat) {d : Downlink} (hst : d.st = (s.dl t).st)
    (hcounted : (s.dl t).Counted → d.Counted) : OnLine t sid s (s.setDl t d) := by
  refine ⟨fun t' ht => s.setDl_other d ht, ?_, rfl, ⟨[], (append_nil _).symm, fun _ hm => (nomatch hm)⟩, ?_⟩
  · rw [setDl_self, hst]
  · rw [setDl_self]
    exact hcounted

theorem onLine_clear (s : PushDown) (t : RenditionKind) (sid : Nat) : OnLine t sid s (s.clear t) := onLine_setDl s t sid rfl fun _ => rfl

variable {s : PushDown} (net : EgressNet)

theorem write_valid {sid : Nat} (hst : (s.dl t).st = some ⟨sid, true⟩)
    (buf : List Byte) : s.write net t buf = (net.send s.sends, (s.write net t buf).2) ∧ (s.write net t buf).2.dl = s.dl ∧
      OnLine t sid s (s.write net t buf).2 ∧
      (s.write net t buf).2.log = s.log ++ if net.send s.sends = .ok then [.taken sid buf] else [] := by
  have hlog : (s.write net t buf).2.log = s.log ++ if net.send s.sends = .ok then [.taken sid buf] else [] := by
    unfold write
    rw [hst]
    dsimp only
    split
    · rfl
    · rw [append_nil]
  have hdl : (s.write net t buf).2.dl = s.dl := by
    unfold write
    rw [hst]
  refine ⟨?_, hdl, ⟨fun t' _ => by rw [hdl], by rw [hdl], ?_, ⟨_, hlog, ?_⟩, by rw [hdl]; exact id⟩, hlog⟩
  · unfold write
    rw [hst]
  · unfold write
    rw [hst]
  · intro m hm
    split at hm
    · exact ⟨buf, List.mem_singleton.1 hm⟩
    · cases hm

/-! ## The queue goes -/

/-- What `DrainSendQueue` leaves: the line, and where its header still waits, the queue as it was. -/
structure Drained (hdr : List Byte) (emitted : List (List Byte)) (net : EgressNet) (t : RenditionKind) (sid : Nat) (s s' : PushDown) :
    Prop where
  onLine : OnLine t sid s s'
  line : LineWhole hdr (takenOn sid s'.log) (s'.dl t).sendQ emitted
  waits : takenOn sid s'.log = [] →
    (s'.dl t).sendQ = (s.dl t).sendQ ∧ (s'.dl t).sendQBytes = (s.dl t).sendQBytes ∧ net.send s.sends ≠ .ok

theorem drainTurns_spec (net : EgressNet) (t : RenditionKind) (sid : Nat) {hdr : List Byte} (hhdr : hdr ≠ [])
    {emitted : List (List Byte)} : ∀ (q : List (List Byte)) (s : PushDown), (s.dl t).st = some ⟨sid, true⟩ → (s.dl t).sendQ = q →
      LineWhole hdr (takenOn sid s.log) q emitted → (takenOn sid s.log = [] → net.send s.sends ≠ .dead) →
      Drained hdr emitted net t sid s (drainTurns net t q s)
  | [], s, hst, hq, hline, _ => by
    have hsome : takenOn sid s.log ≠ [] := fun hnone => by
      rw [hnone] at hline
      obtain ⟨q, hfront⟩ := hline.front
      cases hfront
    rw [drainTurns]
    refine ⟨onLine_setDl s t sid rfl id, ?_, fun hnone => absurd hnone hsome⟩
    rw [setDl_self, hq]
    exact hline
  | b :: q, s, hst, hq, hline, halive => by
    rw [drainTurns]
    split
    · rename_i hb
      -- an empty buffer is not the header
      have hsome : takenOn sid s.log ≠ [] := fun hnone => by
        rw [hnone] at hline
        obtain ⟨q', hfront⟩ := hline.front
        rw [hb, List.cons.injEq] at hfront
        exact hhdr hfront.1.symm
      have honLine : OnLine t sid s (s.setDl t { s.dl t with sendQ := q }) := onLine_setDl s t sid rfl fun hc => by
        unfold Downlink.Counted at hc ⊢
        rw [hc, hq, hb, map_cons, sum_cons, length_nil, Nat.zero_add]
      have ih := drainTurns_spec net t sid hhdr q (s.setDl t { s.dl t with sendQ := q }) (by rw [setDl_self]; exact hst)
        (by rw [setDl_self]) (hline.lose hsome (sublist_cons_self b q)) fun hnone => absurd hnone hsome
      exact ⟨honLine.trans ih.onLine, ih.line, fun hnone => absurd hnone (ih.onLine.taken hsome)⟩
    · obtain ⟨hanswer, hdl, honLine, hlog⟩ := write_valid net hst b
      rw [hanswer]
      generalize (s.write net t b).2 = s₁ at hdl honLine hlog
      have hst₁ : (s₁.dl t).st = some ⟨sid, true⟩ := by rw [hdl, hst]
      have hq₁ : (s₁.dl t).sendQ = b :: q := by rw [hdl, hq]
      cases ha : net.send s.sends with
      | full =>
        rw [ha, if_neg (by decide), append_nil] at hlog
        refine ⟨honLine.trans (onLine_setDl s₁ t sid rfl id), ?_, fun _ => ?_⟩
        · rw [setDl_self, hq₁]
          exact hlog ▸ hline
        · rw [setDl_self, hdl]
          exact ⟨rfl, rfl, fun hok => nomatch ha.symm.trans hok⟩
      | dead =>
        rw [ha, if_neg (by decide), append_nil] at hlog
        have hsome : takenOn sid s₁.log ≠ [] := fun hnone => halive (hlog ▸ hnone) ha
        refine ⟨honLine.trans (onLine_clear s₁ t sid), ?_, fun hnone => absurd hnone hsome⟩
        unfold clear
        rw [setDl_self]
        exact (hlog.symm ▸ hline).lose hsome (nil_sublist _)
      | ok =>
        rw [ha, if_pos rfl] at hlog
        have htaken : takenOn sid s₁.log = takenOn sid s.log ++ [b] := by rw [hlog, takenOn_append, takenOn_taken, if_pos rfl]
        have hsome : takenOn sid s₁.log ≠ [] := by
          rw [htaken]
          exact concat_ne_nil _ _
        have hset : OnLine t sid s₁ (s₁.setDl t { s₁.dl t with sendQ := q, sendQBytes := (s₁.dl t).sendQBytes - b.length }) :=
          onLine_setDl s₁ t sid rfl fun hc => by
            unfold Downlink.Counted at hc ⊢
            rw [hc, hq₁, map_cons, sum_cons, Nat.add_sub_cancel_left]
        have ih := drainTurns_spec net t sid hhdr q _ (hset.st.trans hst₁) (by rw [setDl_self]) (htaken.symm ▸ hline.pass)
          fun hnone => absurd hnone hsome
        exact ⟨(honLine.trans hset).trans ih.onLine, ih.line, fun hnone => absurd hnone (ih.onLine.taken hsome)⟩

theorem drainSendQueue_valid {sid : Nat}
    (hst : (s.dl t).st = some ⟨sid, true⟩) : s.drainSendQueue net t = drainTurns net t (s.dl t).sendQ s := by
  unfold drainSendQueue
  rw [hst]
  rfl

theorem onLine_counted (s : PushDown) (t : RenditionKind) (sid : Nat) : OnLine t sid s (s.counted t) := onLine_setDl s t sid rfl id

theorem enqueue_line {sid : Nat} {hdr : List Byte} {emitted : List (List Byte)} (obj : List Byte) (hline : LineWhole hdr
    (takenOn sid s.log) (s.dl t).sendQ emitted) (hcounted : (s.dl t).Counted) (hroom : takenOn sid s.log = [] →
    (s.dl t).sendQ.length < kMaxQItems ∧ (s.dl t).sendQBytes + obj.length ≤ kMaxQBytes) : OnLine t sid s
    ((s.enqueue t obj).counted t) ∧ LineWhole hdr (takenOn sid s.log) (((s.enqueue t obj).counted t).dl t).sendQ (emitted ++
    [obj]) := by
  obtain ⟨hsub, hcounted', hst⟩ := Downlink.enqueueSend_spec hcounted obj
  have honLine : OnLine t sid s (s.enqueue t obj) := onLine_setDl s t sid hst fun _ => hcounted'
  refine ⟨honLine.trans (onLine_counted _ t sid), ?_⟩
  unfold counted enqueue
  rw [setDl_self, setDl_self]
  dsimp only
  by_cases hnone : takenOn sid s.log = []
  · obtain ⟨hitems, hbytes⟩ := hroom hnone
    by_cases hobj : obj = []
    · unfold Downlink.enqueueSend
      rw [if_pos hobj]
      exact hline.mono
    · rw [Downlink.enqueueSend_room hobj hitems hbytes]
      exact hline.post
  · exact hline.post.lose hnone hsub

theorem sendObject_line {sid : Nat} (hst : (s.dl t).st = some ⟨sid, true⟩) {hdr : List Byte} (hhdr : hdr ≠ [])
    {emitted : List (List Byte)} (hline : LineWhole hdr (takenOn sid s.log) (s.dl t).sendQ emitted) (hcounted : (s.dl t).Counted)
    {obj : List Byte} (hok : takenOn sid s.log = [] → net.send s.sends = .ok ∨ net.send s.sends = .full ∧ (s.dl t).sendQ.length <
    kMaxQItems ∧ (s.dl t).sendQBytes + obj.length ≤ kMaxQBytes) : OnLine t sid s (s.sendObject net t obj) ∧ LineWhole hdr
    (takenOn sid (s.sendObject net t obj).log) ((s.sendObject net t obj).dl t).sendQ (emitted ++ [obj]) := by
  have halive : takenOn sid s.log = [] → net.send s.sends ≠ .dead := fun hnone hdead => by
    rcases hok hnone with ha | ⟨ha, -⟩ <;> cases ha.symm.trans hdead
  have hdrained := drainTurns_spec net t sid hhdr (s.dl t).sendQ s hst rfl hline halive
  unfold sendObject
  dsimp only
  rw [drainSendQueue_valid net hst]
  generalize drainTurns net t (s.dl t).sendQ s = s₁ at hdrained
  obtain ⟨honLine, hline₁, hwaits⟩ := hdrained
  have hst₁ : (s₁.dl t).st = some ⟨sid, true⟩ := honLine.st.trans hst
  split
  · rename_i hempty
    have hsome : takenOn sid s₁.log ≠ [] := fun hnone => by
      rw [hnone, hempty.2] at hline₁
      obtain ⟨q, hfront⟩ := hline₁.front
      cases hfront
    obtain ⟨hanswer, hdl, hwrite, hlog⟩ := write_valid net hst₁ obj
    rw [hanswer]
    generalize (s₁.write net t obj).2 = s₂ at hdl hwrite hlog
    have hq₂ : (s₂.dl t).sendQ = [] := by rw [hdl, hempty.2]
    rw [hempty.2, ← hq₂] at hline₁
    cases ha : net.send s₁.sends with
    | ok =>
      rw [ha, if_pos rfl] at hlog
      refine ⟨(honLine.trans hwrite).trans (onLine_counted s₂ t sid), ?_⟩
      have htaken : takenOn sid (s₂.counted t).log = takenOn sid s₁.log ++ [obj] := by
        unfold counted
        exact (congrArg (takenOn sid) hlog).trans (by rw [takenOn_append, takenOn_taken, if_pos rfl])
      unfold counted at htaken ⊢
      rw [htaken, setDl_self, hq₂]
      rw [hq₂] at hline₁
      exact hline₁.post.pass
    | full =>
      rw [ha, if_neg (by decide), append_nil] at hlog
      have hcongested : OnLine t sid s₂ (s₂.setDl t { s₂.dl t with congested := true }) := onLine_setDl s₂ t sid rfl id
      have hq : LineWhole hdr (takenOn sid (s₂.setDl t { s₂.dl t with congested := true }).log)
          ((s₂.setDl t { s₂.dl t with congested := true }).dl t).sendQ emitted := by
        rw [setDl_self]
        exact hlog.symm ▸ hline₁
      obtain ⟨henqueue, hline₂⟩ := enqueue_line obj hq (hcongested.counted (hwrite.counted (honLine.counted hcounted)))
        fun hnone => absurd (hlog ▸ hnone) hsome
      exact ⟨((honLine.trans hwrite).trans hcongested).trans henqueue, hline₂⟩
    | dead =>
      rw [ha, if_neg (by decide), append_nil] at hlog
      exact ⟨honLine.trans hwrite, hlog.symm ▸ hline₁.mono⟩
  · obtain ⟨henqueue, hline₂⟩ := enqueue_line obj hline₁ (honLine.counted hcounted) fun hnone => by
      obtain ⟨hq, hbytes, hnot⟩ := hwaits hnone
      have hbefore : takenOn sid s.log = [] := by
        by_contra hsome
        exact honLine.taken hsome hnone
      rw [hq, hbytes]
      exact ((hok hbefore).resolve_left hnot).2
    exact ⟨honLine.trans henqueue, hline₂⟩

/-! ## The invariant -/

/-- Every stream that was opened has its bytes, and one that is open a line; no stream is opened twice. -/
structure DownInv (s : PushDown) : Prop where
  streams : ∀ trackAlias sid, .opened trackAlias sid ∈ s.log → StreamWhole trackAlias sid s.log
  known : ∀ t st, (s.dl t).st = some st → .opened t.trackAlias st.sid ∈ s.log
  line : ∀ t sid, (s.dl t).st = some ⟨sid, true⟩ →
    LineWhole (encodeSubgroup t.trackAlias 0) (takenOn sid s.log) (s.dl t).sendQ (emittedOn sid s.log)
  fresh : ∀ m ∈ s.log, m.sid < s.nextUni
  once : ∀ a a' sid, .opened a sid ∈ s.log → .opened a' sid ∈ s.log → a = a'
  counted : ∀ t, (s.dl t).Counted

theorem DownInv.whole (h : s.DownInv) : s.Whole := ⟨h.streams, h.line, h.counted⟩

theorem headerWaits_valid {sid : Nat} (hst : (s.dl t).st = some ⟨sid, true⟩) :
    s.headerWaits t = true ↔ takenOn sid s.log = [] := by
  unfold headerWaits
  rw [hst]
  simp

theorem DownInv.shrink {s s' : PushDown} (h : s.DownInv) (hlog : s'.log = s.log) (hnext : s'.nextUni = s.nextUni)
    (hst : ∀ t, (s'.dl t).st = (s.dl t).st) (hcounted : ∀ t, (s'.dl t).Counted)
    (hq : ∀ t, (s'.dl t).sendQ = (s.dl t).sendQ ∨ s.headerWaits t = false ∧ Sublist (s'.dl t).sendQ (s.dl t).sendQ) : s'.DownInv := by
  refine ⟨by rw [hlog]; exact h.streams, fun t st => ?_, fun t sid ht => ?_, by rw [hlog, hnext]; exact h.fresh,
    by rw [hlog]; exact h.once, hcounted⟩
  · rw [hst, hlog]
    exact h.known t st
  · rw [hst] at ht
    have hline := h.line t sid ht
    rw [hlog]
    rcases hq t with heq | ⟨hwaits, hsub⟩
    · rw [heq]
      exact hline
    · refine hline.lose (fun hnone => ?_) hsub
      rw [(headerWaits_valid ht).2 hnone] at hwaits
      cases hwaits

theorem clear_dl (s : PushDown) (t t' : RenditionKind) :
    (s.clear t).dl t' = if t' = t then (s.dl t).clearSendQueue else s.dl t' := s.setDl_dl t t' _

theorem DownInv.clear (h : s.DownInv) (hwaits : s.headerWaits t = false) : (s.clear t).DownInv := by
  refine h.shrink rfl rfl (fun t' => ?_) (fun t' => ?_) fun t' => ?_
  all_goals
    rw [clear_dl]
    by_cases ht : t' = t
  · rw [if_pos ht, ht]
    rfl
  · rw [if_neg ht]
  · rw [if_pos ht]
    rfl
  · rw [if_neg ht]
    exact h.counted t'
  · rw [if_pos ht, ht]
    exact .inr ⟨hwaits, nil_sublist _⟩
  · rw [if_neg ht]
    exact .inl rfl

theorem pullTs_kept (s : PushDown) (p : MediaPacket) : (s.pullTs p).log = s.log ∧ (s.pullTs p).sends = s.sends ∧
    ∀ t, ((s.pullTs p).dl t).st = (s.dl t).st ∧ ((s.clock.stamp p).rebased = false → (s.pullTs p).dl t = s.dl t) := by
  unfold pullTs
  dsimp only
  split
  · rename_i hrebased
    refine ⟨rfl, rfl, fun t => ⟨?_, fun hnot => ?_⟩⟩
    · rw [clear_dl, clear_dl, clear_dl]
      cases t <;> rfl
    · cases hrebased.symm.trans hnot
  · exact ⟨rfl, rfl, fun t => ⟨rfl, fun _ => rfl⟩⟩

theorem DownInv.pullTs (h : s.DownInv) {p : MediaPacket}
    (hok : (s.clock.stamp p).rebased = true → ∀ t, s.headerWaits t = false) : (s.pullTs p).DownInv := by
  have hclock : ({ s with clock := (s.clock.stamp p).clock } : PushDown).DownInv :=
    h.shrink rfl rfl (fun _ => rfl) h.counted fun _ => .inl rfl
  unfold PushDown.pullTs
  dsimp only
  split
  · rename_i hrebased
    refine (hclock.clear (hok hrebased .video)).clear ?_
    unfold headerWaits
    rw [clear_dl, if_neg (by decide)]
    exact hok hrebased .audio
  · exact hclock

theorem DownInv.emitted (h : s.DownInv) {sid : Nat} (hsid : sid < s.nextUni) (obj : List Byte) :
    (s.mark (.emitted sid obj)).DownInv := by
  have hopened : ∀ a k, .opened a k ∈ (s.mark (.emitted sid obj)).log → .opened a k ∈ s.log := fun a k hm =>
    (List.mem_append.1 hm).elim id fun hm => nomatch List.mem_singleton.1 hm
  have htaken : ∀ k, takenOn k (s.mark (.emitted sid obj)).log = takenOn k s.log := fun k =>
    (takenOn_append k s.log _).trans (append_nil _)
  have hemitted : ∀ k, emittedOn k (s.mark (.emitted sid obj)).log = emittedOn k s.log ++ emittedOn k [.emitted sid obj] :=
    fun k => emittedOn_append k s.log _
  refine ⟨fun a k hm => (h.streams a k (hopened a k hm)).mono (htaken k) (hemitted k),
    fun t st ht => mem_append_left _ (h.known t st ht), fun t k ht => ?_, fun m hm => ?_,
    fun a a' k hm hm' => h.once a a' k (hopened a k hm) (hopened a' k hm'), h.counted⟩
  · rw [htaken, hemitted]
    exact (h.line t k ht).mono
  · rcases List.mem_append.1 hm with hm | hm
    · exact h.fresh m hm
    · rw [List.mem_singleton.1 hm]
      exact hsid

theorem trackAlias_inj {t t' : RenditionKind} (h : t.trackAlias = t'.trackAlias) : t = t' := by
  cases t <;> cases t' <;> first | rfl | cases h

theorem DownInv.onLine {s s' : PushDown} (h : s.DownInv) {sid : Nat} (hst : (s.dl t).st = some ⟨sid, true⟩)
    (honLine : OnLine t sid s s')
    (hline : LineWhole (encodeSubgroup t.trackAlias 0) (takenOn sid s'.log) (s'.dl t).sendQ (emittedOn sid s.log)) : s'.DownInv := by
  obtain ⟨more, hlog, honly⟩ := honLine.log
  have hopen := h.known t _ hst
  have hopened : ∀ a k, .opened a k ∈ s'.log → .opened a k ∈ s.log := fun a k hm => by
    rw [hlog] at hm
    refine (List.mem_append.1 hm).elim id fun hm => ?_
    obtain ⟨buf, heq⟩ := honly _ hm
    cases heq
  have hemitted : ∀ k, emittedOn k s'.log = emittedOn k s.log := fun k => by
    rw [hlog, emittedOn_append, honly.emitted, append_nil]
  have htaken : ∀ k, sid ≠ k → takenOn k s'.log = takenOn k s.log := fun k hk => by
    rw [hlog, takenOn_append, honly.other hk, append_nil]
  refine ⟨fun a k hm => ?_, fun t' st ht => ?_, fun t' k ht => ?_, fun m hm => ?_,
    fun a a' k hm hm' => h.once a a' k (hopened a k hm) (hopened a' k hm'), fun t' => ?_⟩
  · have hm := hopened a k hm
    by_cases hk : sid = k
    · subst hk
      rw [h.once a t.trackAlias sid hm hopen]
      unfold StreamWhole
      rw [hemitted]
      exact hline.bytes
    · exact (h.streams a k hm).mono (htaken k hk) ((hemitted k).trans (append_nil _).symm)
  · rw [hlog]
    refine mem_append_left _ (h.known t' st ?_)
    by_cases htt : t' = t
    · rw [← ht, htt, honLine.st]
    · rw [← ht, honLine.others t' htt]
  · by_cases htt : t' = t
    · subst htt
      rw [honLine.st, hst, Option.some.injEq, DownStream.mk.injEq] at ht
      obtain ⟨rfl, -⟩ := ht
      rw [hemitted]
      exact hline
    · rw [honLine.others t' htt] at ht ⊢
      have hk : sid ≠ k := by
        rintro rfl
        exact htt (trackAlias_inj (h.once _ _ sid (h.known t' _ ht) hopen))
      rw [hemitted, htaken k hk]
      exact h.line t' k ht
  · rw [honLine.nextUni]
    rw [hlog] at hm
    rcases List.mem_append.1 hm with hm | hm
    · exact h.fresh m hm
    · obtain ⟨buf, rfl⟩ := honly m hm
      have hlt : sid < s.nextUni := h.fresh _ hopen
      exact hlt
  · by_cases htt : t' = t
    · subst htt
      exact honLine.counted (h.counted t')
    · rw [honLine.others t' htt]
      exact h.counted t'

/-! ## The functions -/

theorem encodeSubgroup_spec (t : RenditionKind) : encodeSubgroup t.trackAlias 0 ≠ [] ∧ (encodeSubgroup t.trackAlias 0).length ≤ kMaxQBytes := by
  cases t <;> decide

theorem DownInv.opened {s s' : PushDown} (h : s.DownInv) {t : RenditionKind} {sid : Nat} (hsid : s.nextUni ≤ sid)
    {more : List DownMark} (hlog : s'.log = s.log ++ .opened t.trackAlias sid :: more) (honly : TakenOnly sid more)
    (hnext : s'.nextUni = sid + 4) (hothers : ∀ t', t' ≠ t → s'.dl t' = s.dl t') (hcounted : (s'.dl t).Counted)
    (hline : ((s'.dl t).st = none ∧ more = []) ∨ ((s'.dl t).st = some ⟨sid, true⟩ ∧ LineWhole (encodeSubgroup t.trackAlias 0)
    (takenOn sid more) (s'.dl t).sendQ [])) : s'.DownInv := by
  have hnew : ∀ m ∈ s.log, m.sid ≠ sid := fun m hm => by
    have hlt := h.fresh m hm
    omega
  have htaken : ∀ k, takenOn k s'.log = takenOn k s.log ++ takenOn k more := fun k => by
    rw [hlog, takenOn_append]
    rfl
  have hemitted : ∀ k, emittedOn k s'.log = emittedOn k s.log := fun k => by
    rw [hlog, emittedOn_append]
    exact (congrArg (_ ++ ·) (honly.emitted k)).trans (append_nil _)
  have hnothing : takenOn sid s.log = [] := List.filterMap_eq_nil_iff.2 fun m hm => by
    cases m with
    | taken k buf => exact if_neg (hnew _ hm)
    | _ => rfl
  have hunemitted : emittedOn sid s.log = [] := List.filterMap_eq_nil_iff.2 fun m hm => by
    cases m with
    | emitted k obj => exact if_neg (hnew _ hm)
    | _ => rfl
  have hopened : ∀ a k, .opened a k ∈ s'.log → .opened a k ∈ s.log ∨ a = t.trackAlias ∧ k = sid := fun a k hm => by
    rw [hlog] at hm
    rcases List.mem_append.1 hm with hm | hm
    · exact .inl hm
    · rcases List.mem_cons.1 hm with heq | hm
      · rw [DownMark.opened.injEq] at heq
        exact .inr heq
      · obtain ⟨buf, heq⟩ := honly _ hm
        cases heq
  have hold : ∀ a, .opened a sid ∉ s.log := fun a hm => hnew _ hm rfl
  refine ⟨fun a k hm => ?_, fun t' st ht => ?_, fun t' k ht => ?_, fun m hm => ?_, fun a a' k hm hm' => ?_, fun t' => ?_⟩
  · rcases hopened a k hm with hm | ⟨rfl, rfl⟩
    · have hk : sid ≠ k := fun he => hnew _ hm he.symm
      refine (h.streams a k hm).mono ?_ ((hemitted k).trans (append_nil _).symm)
      rw [htaken, honly.other hk, append_nil]
    · unfold StreamWhole
      rw [htaken, hemitted, hnothing, hunemitted, nil_append]
      rcases hline with ⟨-, rfl⟩ | ⟨-, hline⟩
      · exact .inl rfl
      · exact hline.bytes
  · rw [hlog]
    by_cases htt : t' = t
    · subst htt
      rcases hline with ⟨hnone, -⟩ | ⟨hst, -⟩
      · cases hnone.symm.trans ht
      · rw [hst, Option.some.injEq] at ht
        subst ht
        exact mem_append_right _ mem_cons_self
    · rw [hothers t' htt] at ht
      exact mem_append_left _ (h.known t' st ht)
  · by_cases htt : t' = t
    · subst htt
      rcases hline with ⟨hnone, -⟩ | ⟨hst, hline⟩
      · cases hnone.symm.trans ht
      · rw [hst, Option.some.injEq, DownStream.mk.injEq] at ht
        obtain ⟨rfl, -⟩ := ht
        rw [htaken, hemitted, hnothing, hunemitted]
        exact hline
    · rw [hothers t' htt] at ht ⊢
      have hk : sid ≠ k := fun he => hnew _ (h.known t' _ ht) he.symm
      rw [htaken, hemitted, honly.other hk, append_nil]
      exact h.line t' k ht
  · rw [hnext]
    rw [hlog] at hm
    rcases List.mem_append.1 hm with hm | hm
    · have hlt := h.fresh m hm
      omega
    · have hof : m.sid = sid := by
        rcases List.mem_cons.1 hm with rfl | hm
        · rfl
        · obtain ⟨buf, rfl⟩ := honly m hm
          rfl
      omega
  · rcases hopened a k hm with hm | ⟨rfl, rfl⟩
    · rcases hopened a' k hm' with hm' | ⟨rfl, rfl⟩
      · exact h.once a a' k hm hm'
      · exact absurd hm (hold a)
    · rcases hopened a' k hm' with hm' | ⟨rfl, -⟩
      · exact absurd hm' (hold a')
      · rfl
  · by_cases htt : t' = t
    · subst htt
      exact hcounted
    · rw [hothers t' htt]
      exact h.counted t'

theorem DownInv.openStream (h : s.DownInv) (net : EgressNet) (t : RenditionKind) : (s.openStream net t).1.DownInv := by
  obtain ⟨hhdr, hshort⟩ := encodeSubgroup_spec t
  unfold PushDown.openStream
  cases net.uni s.opens with
  | none => exact h.shrink rfl rfl (fun _ => rfl) h.counted fun _ => .inl rfl
  | some k =>
    dsimp only
    generalize hs₀ : (({ s with opens := s.opens + 1, nextUni := s.nextUni + 4 * k + 4 } : PushDown).mark
      (.opened t.trackAlias (s.nextUni + 4 * k))).setDl t { st := some ⟨s.nextUni + 4 * k, true⟩ } = s₀
    have hdl₀ : s₀.dl t = { st := some ⟨s.nextUni + 4 * k, true⟩ } := by rw [← hs₀, setDl_self]
    have hst₀ : (s₀.dl t).st = some ⟨s.nextUni + 4 * k, true⟩ := by rw [hdl₀]
    have hothers₀ : ∀ t', t' ≠ t → s₀.dl t' = s.dl t' := fun t' ht => by
      rw [← hs₀]
      exact setDl_other _ _ ht
    have hlog₀ : s₀.log = s.log ++ [.opened t.trackAlias (s.nextUni + 4 * k)] := by rw [← hs₀]; rfl
    have hnext₀ : s₀.nextUni = s.nextUni + 4 * k + 4 := by rw [← hs₀]; rfl
    obtain ⟨hanswer, hdl, hwrite, hlog⟩ := write_valid net hst₀ (encodeSubgroup t.trackAlias 0)
    have hnext := hwrite.nextUni.trans hnext₀
    rw [hanswer]
    generalize (s₀.write net t (encodeSubgroup t.trackAlias 0)).2 = s₁ at hdl hlog hnext
    rw [hlog₀] at hlog
    cases ha : net.send s₀.sends with
    | ok =>
      rw [ha, if_pos rfl, append_assoc, singleton_append] at hlog
      refine h.opened (Nat.le_add_right _ _) hlog (fun m hm => ⟨_, List.mem_singleton.1 hm⟩) hnext (fun t' ht => ?_) ?_ (.inr ⟨?_, ?_⟩)
      · rw [setDl_other _ _ ht, hdl, hothers₀ t' ht]
      · rw [setDl_self, hdl, hdl₀]
        rfl
      · rw [setDl_self, hdl, hdl₀]
      · rw [setDl_self, hdl, hdl₀, takenOn_taken, if_pos rfl]
        exact ⟨[], List.Sublist.refl _, rfl⟩
    | full =>
      rw [ha, if_neg (by decide), append_nil] at hlog
      obtain ⟨-, hcounted, hst⟩ := Downlink.enqueueSend_spec (d := s₁.dl t) (by rw [hdl, hdl₀]; rfl) (encodeSubgroup t.trackAlias 0)
      have hq : ((s₁.dl t).enqueueSend (encodeSubgroup t.trackAlias 0)).sendQ = [encodeSubgroup t.trackAlias 0] := by
        rw [hdl, hdl₀]
        exact Downlink.enqueueSend_room hhdr (by simp [kMaxQItems]) (by rw [Nat.zero_add]; exact hshort)
      refine h.opened (Nat.le_add_right _ _) hlog (fun m hm => nomatch hm) hnext (fun t' ht => ?_) ?_ (.inr ⟨?_, ?_⟩)
      · rw [setDl_other _ _ ht, hdl, hothers₀ t' ht]
      · rw [setDl_self]
        exact hcounted
      · rw [setDl_self]
        exact hst.trans (by rw [hdl, hdl₀])
      · rw [setDl_self]
        exact ⟨[], List.Sublist.refl _, hq⟩
    | dead =>
      rw [ha, if_neg (by decide), append_nil] at hlog
      refine h.opened (Nat.le_add_right _ _) hlog (fun m hm => nomatch hm) hnext (fun t' ht => ?_) ?_ (.inl ⟨?_, rfl⟩)
      · rw [setDl_other _ _ ht, hdl, hothers₀ t' ht]
      · rw [setDl_self, hdl, hdl₀]
        rfl
      · rw [setDl_self]

theorem sendObject_closed (hst : (s.dl t).st.any DownStream.valid = false)
    (obj : List Byte) : s.sendObject net t obj = s.clear t := by
  have hdrain : s.drainSendQueue net t = s.clear t := by
    unfold drainSendQueue
    rw [hst]
    rfl
  have hwrite : (s.clear t).write net t obj = (.dead, s.clear t) := by
    unfold write
    rw [clear_dl, if_pos rfl]
    unfold Downlink.clearSendQueue
    dsimp only
    split
    · rename_i sid heq
      rw [heq] at hst
      cases hst
    · rfl
  unfold sendObject
  dsimp only
  rw [hdrain, if_pos (by rw [clear_dl, if_pos rfl]; exact ⟨rfl, rfl⟩), hwrite]

theorem DownInv.emitLoc {net : EgressNet} (h : s.DownInv) {p : MediaPacket}
    (hok : OpOk net s (.emitLoc t p)) : (s.emitLoc net t p).DownInv := by
  unfold PushDown.emitLoc
  cases hst : (s.dl t).st with
  | none => exact h
  | some st =>
    dsimp only
    split
    · exact h
    · rename_i hlong
      obtain ⟨hrebase, hroom⟩ := hok (by rw [hst]; exact Option.some_ne_none st) (by omega)
      have hpull := h.pullTs hrebase
      have hkept := s.pullTs_kept p
      generalize s.pullTs p = s₁ at hpull hkept
      obtain ⟨hlog₁, hsends₁, hdl₁⟩ := hkept
      have hst₁ : (s₁.dl t).st = some st := (hdl₁ t).1.trans hst
      generalize locObject t p (s.clock.stamp p).ts = obj at hroom ⊢
      have hsid : st.sid < s₁.nextUni := hpull.fresh _ (hpull.known t st hst₁)
      have hemitted := hpull.emitted hsid obj
      obtain ⟨sid, valid⟩ := st
      cases valid with
      | false =>
        rw [sendObject_closed net (by rw [show (s₁.mark _).dl = s₁.dl from rfl, hst₁]; rfl)]
        refine hemitted.clear ?_
        unfold headerWaits
        rw [show (s₁.mark _).dl = s₁.dl from rfl, hst₁]
        rfl
      | true =>
        have hline := hpull.line t sid hst₁
        have htaken : takenOn sid (s₁.mark (.emitted sid obj)).log = takenOn sid s.log :=
          (takenOn_append sid s₁.log _).trans ((append_nil _).trans (by rw [hlog₁]))
        have hemittedOn : emittedOn sid (s₁.mark (.emitted sid obj)).log = emittedOn sid s₁.log ++ [obj] := by
          exact (emittedOn_append sid s₁.log _).trans (by rw [emittedOn_emitted, if_pos rfl])
        have hwaits : takenOn sid s.log = [] → net.send (s₁.mark (.emitted sid obj)).sends = .ok ∨
            net.send (s₁.mark (.emitted sid obj)).sends = .full ∧ ((s₁.mark (.emitted sid obj)).dl t).sendQ.length < kMaxQItems ∧
              ((s₁.mark (.emitted sid obj)).dl t).sendQBytes + obj.length ≤ kMaxQBytes := by
          intro hnone
          have hheader := (headerWaits_valid hst).2 hnone
          have hnot : (s.clock.stamp p).rebased = false := by
            rw [Bool.eq_false_iff]
            intro hrebased
            cases (hrebase hrebased t).symm.trans hheader
          have hsame : (s₁.mark (.emitted sid obj)).dl t = s.dl t := (hdl₁ t).2 hnot
          have hsends : (s₁.mark (.emitted sid obj)).sends = s.sends := hsends₁
          rw [hsame, hsends]
          exact hroom hheader
        obtain ⟨honLine, hline'⟩ := sendObject_line net (s := s₁.mark (.emitted sid obj)) hst₁ (encodeSubgroup_spec t).1
          (by rw [htaken, ← hlog₁]; exact hline) (hpull.counted t) (by rw [htaken]; exact hwaits)
        exact hemitted.onLine hst₁ honLine (by rw [hemittedOn]; exact hline')

theorem DownInv.drain {net : EgressNet} (h : s.DownInv)
    (hok : s.headerWaits t = true → net.send s.sends ≠ .dead) : (s.drainSendQueue net t).DownInv := by
  by_cases hvalid : ∃ sid, (s.dl t).st = some ⟨sid, true⟩
  · obtain ⟨sid, hst⟩ := hvalid
    rw [drainSendQueue_valid net hst]
    have hdrained := drainTurns_spec net t sid (encodeSubgroup_spec t).1 _ s hst rfl (h.line t sid hst)
      fun hnone => hok ((headerWaits_valid hst).2 hnone)
    exact h.onLine hst hdrained.onLine hdrained.line
  · have hclosed : (s.dl t).st.any DownStream.valid = false := by
      cases hst : (s.dl t).st with
      | none => rfl
      | some st =>
        obtain ⟨sid, valid⟩ := st
        cases valid with
        | false => rfl
        | true => exact absurd ⟨sid, hst⟩ hvalid
    unfold drainSendQueue
    rw [hclosed]
    refine h.clear ?_
    unfold headerWaits
    cases hst : (s.dl t).st with
    | none => rfl
    | some st =>
      rw [hst] at hclosed
      rw [Option.any_some] at hclosed ⊢
      rw [hclosed, Bool.false_and]

theorem DownInv.detached (h : s.DownInv) (t : RenditionKind) : (s.detached t).DownInv := by
  have hdl := fun t' => s.setDl_dl t t' { s.dl t with st := (s.dl t).st.map fun st => { st with valid := false } }
  refine ⟨h.streams, fun t' st hst => ?_, fun t' sid hst => ?_, h.fresh, h.once, fun t' => ?_⟩
  all_goals
    unfold PushDown.detached at *
    rw [hdl] at *
    by_cases ht : t' = t
  · rw [if_pos ht, Option.map_eq_some_iff] at hst
    obtain ⟨st', hst', rfl⟩ := hst
    rw [ht]
    exact h.known t st' hst'
  · rw [if_neg ht] at hst
    exact h.known t' st hst
  · rw [if_pos ht, Option.map_eq_some_iff] at hst
    obtain ⟨st', -, hst'⟩ := hst
    cases hst'
  · rw [if_neg ht] at hst ⊢
    exact h.line t' sid hst
  · rw [if_pos ht]
    exact h.counted t
  · rw [if_neg ht]
    exact h.counted t'

theorem DownInv.step {net : EgressNet} (h : s.DownInv) (op : DownOp) (hok : OpOk net s op) : (s.step net op).DownInv := by
  cases op with
  | openStream t => exact h.openStream net t
  | emitLoc t p => exact h.emitLoc hok
  | drain t => exact h.drain hok
  | ensureBase gop => exact h.shrink rfl rfl (fun _ => rfl) h.counted fun _ => .inl rfl
  | waitKey t wait =>
    have hdl := fun t' => s.setDl_dl t t' { s.dl t with waitKey := wait }
    refine h.shrink rfl rfl (fun t' => ?_) (fun t' => ?_) fun t' => .inl ?_
    all_goals
      unfold PushDown.step
      rw [hdl]
      by_cases ht : t' = t
    · rw [if_pos ht, ht]
    · rw [if_neg ht]
    · rw [if_pos ht]
      exact h.counted t
    · rw [if_neg ht]
      exact h.counted t'
    · rw [if_pos ht, ht]
    · rw [if_neg ht]
  | detached t => exact h.detached t
  | flags subscriber session writerClosed => exact h.shrink rfl rfl (fun _ => rfl) h.counted fun _ => .inl rfl
  | close => exact ⟨h.streams, fun _ _ hst => (nomatch hst), fun _ _ hst => (nomatch hst), h.fresh, h.once, fun _ => rfl⟩

/-- The transport has no room for the first `n` writes. -/
def fullAtFirst (n : Nat) : EgressNet := ⟨fun i => if i < n then .full else .ok, fun _ => some 0⟩

def videoAt (dts : Int) : MediaPacket := ⟨.video, false, true, dts, dts, [0x17, 0x01, 0x00, 0x00, 0x00, 0x65]⟩

def RunsTo (net : EgressNet) (s s' : PushDown) : Prop := ∃ ops : List DownOp, s' = ops.foldl (step net) s

section

variable {net : EgressNet} {s s' s'' : PushDown}

theorem RunsTo.refl : RunsTo net s s := ⟨[], rfl⟩

theorem RunsTo.trans (h : RunsTo net s s') (h' : RunsTo net s' s'') : RunsTo net s s'' := by
  obtain ⟨ops, rfl⟩ := h
  obtain ⟨ops', rfl⟩ := h'
  exact ⟨ops ++ ops', (List.foldl_append ..).symm⟩

theorem RunsTo.one (op : DownOp) : RunsTo net s (s.step net op) := ⟨[op], rfl⟩

end

theorem replay_runs (net : EgressNet) (t : RenditionKind) : ∀ (ps : List MediaPacket) (s : PushDown),
    RunsTo net s (ps.foldl (fun s p => s.emitLoc net t p) s)
  | [], _      => .refl
  | p :: ps, _ => (RunsTo.one (.emitLoc t p)).trans (replay_runs net t ps _)

section

variable (net : EgressNet) (s : PushDown)

theorem sendGop_runs (t : RenditionKind) (gop : Option GopCache) : RunsTo net s (s.sendGop net t gop) := by
  unfold sendGop
  cases gop with
  | none => exact .refl
  | some gop =>
    dsimp only
    refine (RunsTo.one (.ensureBase gop.packets)).trans ?_
    generalize t.hdrOf gop = hdr
    have hhdr : ∀ s : PushDown, RunsTo net s (hdr.elim s fun p => s.emitLoc net t p) := fun s => by
      cases hdr with
      | none => exact .refl
      | some p => exact .one (.emitLoc t p)
    refine (hhdr _).trans ?_
    split
    · exact .one (.waitKey t true)
    · exact replay_runs net t _ _

theorem openUniDownlink_runs (t : RenditionKind) (gop : Option GopCache) : RunsTo net s (s.openUniDownlink net t gop) := by
  unfold openUniDownlink
  split
  · exact .refl
  · dsimp only
    refine (RunsTo.one (.openStream t)).trans ?_
    split
    · exact sendGop_runs net _ t gop
    · exact .refl

theorem offerPacket_runs (t : RenditionKind) (p : MediaPacket) : RunsTo net s (s.offerPacket net t p) := by
  unfold offerPacket
  split
  · exact .refl
  · split
    · split
      · exact .refl
      · exact (RunsTo.one (.waitKey t false)).trans (.one (.emitLoc t p))
    · exact .one (.emitLoc t p)

theorem hear_ops (i : DownInput) : RunsTo net s (s.hear net i) := by
  cases i with
  | subscribe trackAlias gop =>
    refine (RunsTo.one (.flags true true s.writerClosed)).trans ?_
    unfold hear subscribe
    dsimp only
    split
    · exact openUniDownlink_runs net _ .video gop
    · split
      · exact openUniDownlink_runs net _ .audio gop
      · exact .refl
  | packet p gop =>
    have hwrite : ∀ t : RenditionKind, RunsTo net s
        ((if (s.dl t).st = none ∧ s.session then s.openUniDownlink net t gop else s).offerPacket net t p) := fun t => by
      refine RunsTo.trans ?_ (offerPacket_runs net _ t p)
      split
      · exact openUniDownlink_runs net s t gop
      · exact .refl
    unfold hear writePacket
    dsimp only
    split
    · exact .refl
    · split
      · exact hwrite .video
      · split
        · exact hwrite .audio
        · exact .refl
  | writable t => exact .one (.drain t)
  | detached t => exact .one (.detached t)
  | closeWriter => exact .one (.flags s.subscriber s.session true)
  | close => exact .one .close

end

/-- **Whatever a session is asked is a run of its functions**, in some order, so what holds of these in any order holds of the session. -/
theorem session_runs (net : EgressNet) : ∀ (is : List DownInput) (s : PushDown),
    ∃ ops : List DownOp, is.foldl (hear net) s = ops.foldl (step net) s
  | [], _ => ⟨[], rfl⟩
  | i :: is, s => by
    obtain ⟨ops, hops⟩ := hear_ops net s i
    obtain ⟨ops', hrun⟩ := session_runs net is (s.hear net i)
    exact ⟨ops ++ ops', by rw [List.foldl_cons, hrun, hops, List.foldl_append]⟩

/-! ## A transport with room -/

def Idle (s : PushDown) : Prop := ∀ t, (s.dl t).sendQ = []

section

variable {net : EgressNet} {s : PushDown} {t : RenditionKind}

theorem Idle.setDl (h : s.Idle) {d : Downlink} (hd : d.sendQ = []) : (s.setDl t d).Idle := fun t' => by
  rw [setDl_dl]
  split
  exacts [hd, h t']

theorem Idle.write (h : s.Idle) (hroom : ∀ n, net.send n = .ok) (buf : List Byte) :
    (s.write net t buf).1 ≠ .full ∧ (s.write net t buf).2.Idle := by
  unfold PushDown.write
  split
  exacts [⟨by simp [hroom], h⟩, ⟨nofun, h⟩]

theorem Idle.drain (h : s.Idle) (net : EgressNet) (t : RenditionKind) :
    ∃ d : Downlink, s.drainSendQueue net t = s.setDl t d ∧ d.sendQ = [] ∧ d.congested = false := by
  unfold drainSendQueue
  rw [h t]
  split
  exacts [⟨_, rfl, h t, rfl⟩, ⟨_, rfl, rfl, rfl⟩]

theorem Idle.sendObject (h : s.Idle) (hroom : ∀ n, net.send n = .ok) (obj : List Byte) : (s.sendObject net t obj).Idle := by
  obtain ⟨d, hdrain, hq, hcongested⟩ := h.drain net t
  obtain ⟨hfull, hwrite⟩ := (h.setDl (t := t) hq).write hroom (t := t) obj
  unfold PushDown.sendObject
  dsimp only
  rw [hdrain, setDl_self, if_pos ⟨hcongested, hq⟩]
  split <;> rename_i heq <;> rw [heq] at hfull hwrite
  exacts [hwrite.setDl (hwrite t), absurd rfl hfull, hwrite]

theorem Idle.emitLoc (h : s.Idle) (hroom : ∀ n, net.send n = .ok) (p : MediaPacket) : (s.emitLoc net t p).Idle := by
  unfold PushDown.emitLoc
  split
  · exact h
  split
  · exact h
  refine Idle.sendObject ?_ hroom _
  unfold PushDown.pullTs
  dsimp only
  split
  exacts [Idle.setDl (Idle.setDl h rfl) rfl, h]

theorem Idle.openStream (h : s.Idle) (hroom : ∀ n, net.send n = .ok) : (s.openStream net t).1.Idle := by
  unfold PushDown.openStream
  split
  · exact h
  dsimp only
  generalize hs : PushDown.setDl _ t _ = s'
  have hidle : s'.Idle := hs ▸ Idle.setDl h rfl
  obtain ⟨hfull, hwrite⟩ := hidle.write hroom (t := t) (encodeSubgroup t.trackAlias 0)
  split <;> rename_i heq <;> rw [heq] at hfull hwrite
  exacts [hwrite.setDl (hwrite t), absurd rfl hfull, hwrite.setDl (hwrite t)]

theorem Idle.step (h : s.Idle) (hroom : ∀ n, net.send n = .ok) (op : DownOp) : (s.step net op).Idle := by
  cases op with
  | emitLoc t p => exact h.emitLoc hroom p
  | drain t =>
    obtain ⟨d, hdrain, hq, -⟩ := h.drain net t
    exact (congrArg Idle hdrain).mpr (h.setDl hq)
  | close => exact fun _ => rfl
  | waitKey t wait => exact h.setDl (h t)
  | detached t => exact h.setDl (h t)
  | ensureBase gop => exact h
  | flags subscriber session writerClosed => exact h
  | openStream t => exact h.openStream hroom

theorem Idle.opOk (h : s.Idle) (hinv : s.DownInv) (op : DownOp) : OpOk net s op := by
  have hwaits : ∀ t, s.headerWaits t = false := fun t => by
    rw [headerWaits, Option.any_eq_false]
    rintro ⟨sid, valid⟩ hst
    cases valid with
    | false => rfl
    | true =>
      obtain ⟨objs, -, heq⟩ := hinv.line t sid hst
      rw [h t, List.append_nil] at heq
      simp [heq]
  cases op with
  | emitLoc t p => exact fun _ _ => ⟨fun _ => hwaits, fun hw => absurd hw (by simp [hwaits])⟩
  | drain t => exact fun hw => absurd hw (by simp [hwaits])
  | _ => trivial

end

/-- **Over a transport with room every stream of a session is whole**, and nothing waits, whatever the session is asked. -/
theorem session_whole (net : EgressNet) (hroom : ∀ n, net.send n = .ok) (is : List DownInput) :
    (is.foldl (hear net) {}).Whole ∧ ∀ t, ((is.foldl (hear net) {}).dl t).sendQ = [] := by
  obtain ⟨ops, hops⟩ := session_runs net is {}
  have hstart : ({} : PushDown).DownInv := ⟨nofun, nofun, nofun, nofun, nofun, fun _ => rfl⟩
  have hrun : (ops.foldl (step net) {}).DownInv ∧ (ops.foldl (step net) {}).Idle :=
    List.foldlRecOn (motive := fun s => s.DownInv ∧ s.Idle) ops (step net) ⟨hstart, fun _ => rfl⟩ fun _ h op _ =>
      ⟨h.1.step op (h.2.opOk h.1 op), h.2.step hroom op⟩
  rw [hops]
  exact ⟨hrun.1.whole, hrun.2⟩

theorem session_whole_sample : ([.subscribe kAliasVideo none, .packet (videoAt 1000) none, .packet (videoAt 100000) none].foldl
    (hear (fullAtFirst 0)) {}).Whole ∧ ∀ t, (([.subscribe kAliasVideo none, .packet (videoAt 1000) none, .packet (videoAt 100000)
    none].foldl (hear (fullAtFirst 0)) {}).dl t).sendQ = [] :=
  session_whole (fullAtFirst 0) (fun _ => rfl) _

end PushDown
end MoqLiveCast
