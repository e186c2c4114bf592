import MoqLiveCast.Lib.Run
import MoqLiveCast.Quic.StreamCalls
import MoqLiveCast.Quic.StreamRecvApart
/-!
# StreamPeerCount — the peer's stream limit is raised before it is reached

The streams of the peer are counted where `quic_stream_on_recv` makes their record, and only there. The ids the frames
have named are kept beside the run (`seen`); as long as a STREAM frame is the first to name a stream of the peer, the
count is the number of ids seen, and the limit stays ahead of it (`limit_ahead`).
-/
namespace MoqLiveCast

/-! ## Counters -/

def peerOpened (ctx : QuicStreamCtx) (bidi : Bool) : Nat := if bidi then ctx.peerBidiOpened else ctx.peerUniOpened

def localLimit (ctx : QuicStreamCtx) (bidi : Bool) : Nat :=
  if bidi then ctx.maxStreamsBidiLocal else ctx.maxStreamsUniLocal

def isBidi (sid : Nat) : Bool := decide (sid / 2 % 2 = 0)

def Known (ctx : QuicStreamCtx) (sid : Nat) : Prop := sid ∈ ctx.streams.map QuicStream.streamId

/-- The role, the peer's records and the counters stay; a limit may be raised. -/
structure CountsKept (ctx ctx' : QuicStreamCtx) : Prop where
  role : ctx'.nextLocalBidiId = ctx.nextLocalBidiId
  known : ∀ sid, sid % 2 ≠ ctx.nextLocalBidiId % 2 → (Known ctx' sid ↔ Known ctx sid)
  opened : ∀ bidi, peerOpened ctx' bidi = peerOpened ctx bidi
  limit : ∀ bidi, localLimit ctx bidi ≤ localLimit ctx' bidi

theorem CountsKept.refl (ctx : QuicStreamCtx) : CountsKept ctx ctx :=
  ⟨rfl, fun _ _ => Iff.rfl, fun _ => rfl, fun _ => Nat.le_refl _⟩

theorem CountsKept.trans {a b c : QuicStreamCtx} (h1 : CountsKept a b) (h2 : CountsKept b c) : CountsKept a c :=
  ⟨h2.role.trans h1.role, fun sid h => (h2.known sid (by rw [h1.role]; exact h)).trans (h1.known sid h),
    fun bidi => (h2.opened bidi).trans (h1.opened bidi), fun bidi => Nat.le_trans (h1.limit bidi) (h2.limit bidi)⟩

theorem CountsKept.set (ctx : QuicStreamCtx) (s : QuicStream) : CountsKept ctx (setStream ctx s) := by
  refine ⟨rfl, fun sid _ => ?_, fun _ => rfl, fun _ => Nat.le_refl _⟩
  unfold Known setStream
  rw [store_keys]

theorem known_iff_find {ctx : QuicStreamCtx} {sid : Nat} : Known ctx sid ↔ (streamFind ctx sid).isSome = true := by
  unfold Known
  rw [List.mem_map]
  cases hf : streamFind ctx sid with
  | none =>
    have hnone := (lookup_eq_none_iff QuicStream.streamId).1 hf
    simpa using hnone
  | some s => simpa using ⟨s, lookup_mem _ hf, streamFind_id hf⟩

theorem known_append (ctx : QuicStreamCtx) (sid sid' : Nat) :
    Known { ctx with streams := ctx.streams ++ [newStream ctx sid] } sid' ↔ Known ctx sid' ∨ sid' = sid := by
  simp [Known, newStream]

section Note

variable (q : QueueFn) (ctx : QuicStreamCtx)

theorem quicStreamGrantCredit_spec (bidi : Bool) : CountsKept ctx (quicStreamGrantCredit q ctx bidi) ∧
    peerOpened ctx bidi + QUIC_STREAM_CREDIT_CHUNK ≤ localLimit (quicStreamGrantCredit q ctx bidi) bidi := by
  by_cases hle : peerOpened ctx bidi + QUIC_STREAM_CREDIT_CHUNK ≤ localLimit ctx bidi
  · have hsame : quicStreamGrantCredit q ctx bidi = ctx := if_pos hle
    rw [hsame]
    exact ⟨CountsKept.refl ctx, hle⟩
  · have hraised : quicStreamGrantCredit q ctx bidi =
        (if bidi then { ctx with maxStreamsBidiLocal := peerOpened ctx bidi + QUIC_STREAM_CREDIT_CHUNK }
          else { ctx with maxStreamsUniLocal := peerOpened ctx bidi + QUIC_STREAM_CREDIT_CHUNK }).queueFn q
            (.maxStreams (peerOpened ctx bidi + QUIC_STREAM_CREDIT_CHUNK) bidi) := if_neg hle
    have hlt := Nat.le_of_not_le hle
    rw [hraised]
    cases bidi
    · refine ⟨⟨rfl, fun _ _ => Iff.rfl, fun b => by cases b <;> rfl, fun b => ?_⟩, Nat.le_refl _⟩
      cases b
      · exact hlt
      · exact Nat.le_refl _
    · refine ⟨⟨rfl, fun _ _ => Iff.rfl, fun b => by cases b <;> rfl, fun b => ?_⟩, Nat.le_refl _⟩
      cases b
      · exact Nat.le_refl _
      · exact hlt

theorem quicStreamNotePeerStream_ours {sid : Nat} (h : sid % 2 = ctx.nextLocalBidiId % 2) :
    quicStreamNotePeerStream q ctx sid = ctx := if_pos h

theorem quicStreamNotePeerStream_spec {sid : Nat} (h : sid % 2 ≠ ctx.nextLocalBidiId % 2) :
    let ctx' := quicStreamNotePeerStream q ctx sid
    ctx'.nextLocalBidiId = ctx.nextLocalBidiId ∧
      (∀ sid', sid' % 2 ≠ ctx.nextLocalBidiId % 2 → (Known ctx' sid' ↔ Known ctx sid')) ∧
      (∀ bidi, peerOpened ctx' bidi = peerOpened ctx bidi + if bidi = isBidi sid then 1 else 0) ∧
      (∀ bidi, localLimit ctx bidi ≤ localLimit ctx' bidi) ∧
      (0 < localLimit ctx (isBidi sid) →
        peerOpened ctx' (isBidi sid) + QUIC_STREAM_CREDIT_RESERVE ≤ localLimit ctx' (isBidi sid)) := by
  have hnote : quicStreamNotePeerStream q ctx sid =
      let counted := if isBidi sid then { ctx with peerBidiOpened := ctx.peerBidiOpened + 1 }
                     else { ctx with peerUniOpened := ctx.peerUniOpened + 1 }
      if 0 < localLimit counted (isBidi sid) ∧
          localLimit counted (isBidi sid) < peerOpened counted (isBidi sid) + QUIC_STREAM_CREDIT_RESERVE then
        quicStreamGrantCredit q counted (isBidi sid)
      else counted := if_neg h
  generalize hb : isBidi sid = b at hnote ⊢
  have hcounted : ∃ counted : QuicStreamCtx, (if b then { ctx with peerBidiOpened := ctx.peerBidiOpened + 1 }
        else { ctx with peerUniOpened := ctx.peerUniOpened + 1 }) = counted ∧
      counted.nextLocalBidiId = ctx.nextLocalBidiId ∧ (∀ sid', Known counted sid' ↔ Known ctx sid') ∧
      (∀ bidi, peerOpened counted bidi = peerOpened ctx bidi + if bidi = b then 1 else 0) ∧
      (∀ bidi, localLimit counted bidi = localLimit ctx bidi) := by
    refine ⟨_, rfl, ?_⟩
    cases b
    · exact ⟨rfl, fun _ => Iff.rfl, fun bidi => by cases bidi <;> rfl, fun bidi => by cases bidi <;> rfl⟩
    · exact ⟨rfl, fun _ => Iff.rfl, fun bidi => by cases bidi <;> rfl, fun bidi => by cases bidi <;> rfl⟩
  obtain ⟨counted, hc, hrole, hknown, hopened, hlimit⟩ := hcounted
  rw [hc] at hnote
  dsimp only at hnote ⊢
  rw [hnote]
  split
  · rename_i hnear
    obtain ⟨hgrant, hahead⟩ := quicStreamGrantCredit_spec q counted b
    refine ⟨hgrant.role.trans hrole, ?_, ?_, ?_, ?_⟩
    · intro sid' hsid'
      exact (hgrant.known sid' (by rw [hrole]; exact hsid')).trans (hknown sid')
    · intro bidi
      rw [hgrant.opened, hopened]
    · intro bidi
      rw [← hlimit]
      exact hgrant.limit bidi
    · intro _
      rw [hgrant.opened]
      unfold QUIC_STREAM_CREDIT_CHUNK at hahead
      unfold QUIC_STREAM_CREDIT_RESERVE
      omega
  · rename_i hfar
    refine ⟨hrole, fun sid' _ => hknown sid', hopened, fun bidi => Nat.le_of_eq (hlimit bidi).symm, ?_⟩
    intro hpos
    rw [hlimit] at hfar ⊢
    omega

end Note

/-! ## Runs -/

/-- The frames by which the peer names its streams, and asks for more. -/
inductive PeerFrame where
  | stream (f : StreamFrame)
  | maxStreamData (sid maxData : Nat)
  | resetStream (sid finalSize errorCode : Nat)
  | streamsBlocked (maxStreams : Nat) (bidi : Bool)

def PeerFrame.call : PeerFrame → StreamCall
  | .stream f => .onRecv f
  | .maxStreamData sid maxData => .send (.onMaxStreamData sid maxData)
  | .resetStream sid finalSize errorCode => .onReset sid finalSize errorCode
  | .streamsBlocked maxStreams bidi => .onStreamsBlocked maxStreams bidi

def PeerFrame.sid : PeerFrame → Option Nat
  | .stream f => some f.streamId
  | .maxStreamData sid _ => some sid
  | .resetStream sid _ _ => some sid
  | .streamsBlocked _ _ => none

structure PeerRun where
  ctx : QuicStreamCtx
  seen : List Nat := []

def noteSeen (server : Bool) (seen : List Nat) : Option Nat → List Nat
  | none => seen
  | some sid => if weOpen server sid ∨ sid ∈ seen then seen else seen ++ [sid]

def peerStep (q : QueueFn) (server : Bool) (r : PeerRun) (f : PeerFrame) : PeerRun :=
  ⟨streamStep q r.ctx f.call, noteSeen server r.seen f.sid⟩

def seenOf (bidi : Bool) (seen : List Nat) : Nat := seen.countP (fun sid => isBidi sid = bidi)

/-- A connection that has advertised limits and has seen no stream of the peer yet. -/
structure PeerStart (server : Bool) where
  ctx : QuicStreamCtx
  role : ctx.nextLocalBidiId % 2 = if server then 1 else 0
  ours : ∀ s ∈ ctx.streams, weOpen server s.streamId
  noneOpened : ∀ bidi, peerOpened ctx bidi = 0
  limit : ∀ bidi, 0 < localLimit ctx bidi

/-- **The limit stays ahead** of the streams the peer has opened. -/
def LimitAhead (r : PeerRun) : Prop :=
  ∀ bidi, seenOf bidi r.seen + QUIC_STREAM_CREDIT_RESERVE ≤ localLimit r.ctx bidi

def PeerInLimit (server : Bool) (r : PeerRun) (f : PeerFrame) : Prop :=
  ∀ sid ∈ f.sid, ¬ weOpen server sid → sid / 4 < localLimit r.ctx (isBidi sid)

instance (server : Bool) (r : PeerRun) (f : PeerFrame) : Decidable (PeerInLimit server r f) :=
  inferInstanceAs (Decidable (∀ sid ∈ f.sid, _))

def StreamNamesFirst (server : Bool) (r : PeerRun) : PeerFrame → Prop
  | .maxStreamData sid _ => weOpen server sid ∨ sid ∈ r.seen
  | .resetStream sid _ _ => weOpen server sid ∨ sid ∈ r.seen
  | _ => True

/-- **What a run keeps**: the peer's records are the streams seen, and each of them is counted. -/
structure PeerCounted (server : Bool) (r : PeerRun) : Prop where
  role : r.ctx.nextLocalBidiId % 2 = if server then 1 else 0
  table : ∀ sid, ¬ weOpen server sid → (Known r.ctx sid ↔ sid ∈ r.seen)
  opened : ∀ bidi, peerOpened r.ctx bidi = seenOf bidi r.seen
  ahead : LimitAhead r

section Runs

variable {q : QueueFn} {server : Bool} {r : PeerRun}

theorem PeerCounted.keep (h : PeerCounted server r) {ctx : QuicStreamCtx} (hk : CountsKept r.ctx ctx) :
    PeerCounted server ⟨ctx, r.seen⟩ := by
  constructor
  · show ctx.nextLocalBidiId % 2 = _
    rw [hk.role]
    exact h.role
  · intro sid hsid
    refine (hk.known sid ?_).trans (h.table sid hsid)
    rw [h.role]
    exact hsid
  · intro bidi
    exact (hk.opened bidi).trans (h.opened bidi)
  · intro bidi
    exact Nat.le_trans (h.ahead bidi) (hk.limit bidi)

theorem quicStreamOnRecv_kept (ctx : QuicStreamCtx) (f : StreamFrame) :
    CountsKept (recvOpen q ctx f.streamId).2 (quicStreamOnRecv q ctx f).2 := by
  unfold quicStreamOnRecv
  dsimp only
  generalize recvOpen q ctx f.streamId = o
  split
  · exact CountsKept.refl _
  · have hsame := (recvFrame_apart q f o.1 o.2).same
    generalize recvFrame q f o.1 o.2 = fr at hsame ⊢
    have hframe : CountsKept o.2 fr.2 := by
      rw [hsame]
      exact ⟨rfl, fun _ _ => Iff.rfl, fun _ => rfl, fun _ => Nat.le_refl _⟩
    have hflush : CountsKept (setStream fr.2 fr.1) (setStream fr.2 fr.1).flushFn :=
      ⟨rfl, fun _ _ => Iff.rfl, fun _ => rfl, fun _ => Nat.le_refl _⟩
    exact (hframe.trans (CountsKept.set _ _)).trans hflush

theorem recvOpen_kept (ctx : QuicStreamCtx) {sid : Nat} (h : sid % 2 = ctx.nextLocalBidiId % 2 ∨ Known ctx sid) :
    CountsKept ctx (recvOpen q ctx sid).2 := by
  rw [recvOpen_eq]
  split
  · exact CountsKept.refl ctx
  · rename_i hnew
    have hours : sid % 2 = ctx.nextLocalBidiId % 2 := h.resolve_right (fun hk => hnew (known_iff_find.1 hk))
    rw [quicStreamNotePeerStream_ours q { ctx with streams := ctx.streams ++ [newStream ctx sid] } hours]
    refine ⟨rfl, fun sid' hsid' => ?_, fun _ => rfl, fun _ => Nat.le_refl _⟩
    rw [known_append]
    exact or_iff_left (fun he => hsid' (he ▸ hours))

theorem PeerCounted.note (h : PeerCounted server r) {sid : Nat} (hpeer : ¬ weOpen server sid) (hnew : sid ∉ r.seen) :
    PeerCounted server ⟨(recvOpen q r.ctx sid).2, r.seen ++ [sid]⟩ ∧ ∀ bidi, localLimit r.ctx bidi ≤ localLimit (recvOpen q r.ctx
    sid).2 bidi := by
  have hrole : ∀ sid, ¬ weOpen server sid → sid % 2 ≠ r.ctx.nextLocalBidiId % 2 := by
    intro sid hsid
    rw [h.role]
    exact hsid
  have hunknown : ¬ (streamFind r.ctx sid).isSome = true := by
    rw [← known_iff_find, h.table sid hpeer]
    exact hnew
  rw [recvOpen_eq, if_neg hunknown]
  obtain ⟨hr, hknown, hopened, hlimit, hahead⟩ := quicStreamNotePeerStream_spec q
    { r.ctx with streams := r.ctx.streams ++ [newStream r.ctx sid] } (hrole sid hpeer)
  generalize quicStreamNotePeerStream q { r.ctx with streams := r.ctx.streams ++ [newStream r.ctx sid] } sid = ctx'
    at hr hknown hopened hlimit hahead ⊢
  have hseen : ∀ bidi, seenOf bidi (r.seen ++ [sid]) = seenOf bidi r.seen + if bidi = isBidi sid then 1 else 0 := by
    intro bidi
    unfold seenOf
    rw [List.countP_append, List.countP_singleton]
    by_cases hb : bidi = isBidi sid
    · simp [hb]
    · simp [hb, Ne.symm hb]
  have hcount : ∀ bidi, peerOpened ctx' bidi = seenOf bidi (r.seen ++ [sid]) := by
    intro bidi
    rw [hopened, hseen, ← h.opened]
    rfl
  refine ⟨⟨?_, ?_, hcount, ?_⟩, hlimit⟩
  · show ctx'.nextLocalBidiId % 2 = _
    rw [hr]
    exact h.role
  · intro sid' hsid'
    show Known ctx' sid' ↔ _
    rw [hknown sid' (hrole sid' hsid'), known_append, h.table sid' hsid', List.mem_append, List.mem_singleton]
  · intro bidi
    show seenOf bidi (r.seen ++ [sid]) + _ ≤ localLimit ctx' bidi
    have hbefore := h.ahead bidi
    by_cases hb : bidi = isBidi sid
    · subst hb
      rw [← hcount]
      refine hahead ?_
      show 0 < localLimit r.ctx (isBidi sid)
      unfold QUIC_STREAM_CREDIT_RESERVE at hbefore
      omega
    · rw [hseen, if_neg hb, Nat.add_zero]
      exact Nat.le_trans hbefore (hlimit bidi)

theorem peerStep_counted (f : PeerFrame) (h : PeerCounted server r) (hok : StreamNamesFirst server r f) :
    PeerCounted server (peerStep q server r f) ∧ ∀ bidi, localLimit r.ctx bidi ≤ localLimit (peerStep q server r f).ctx bidi := by
  have hold : ∀ {sid : Nat} {ctx : QuicStreamCtx}, (weOpen server sid ∨ sid ∈ r.seen) → CountsKept r.ctx ctx →
      PeerCounted server ⟨ctx, noteSeen server r.seen (some sid)⟩ ∧ ∀ bidi, localLimit r.ctx bidi ≤ localLimit ctx bidi := by
    intro sid ctx hsid hk
    have hseen : noteSeen server r.seen (some sid) = r.seen := if_pos hsid
    rw [hseen]
    exact ⟨h.keep hk, hk.limit⟩
  have hknown : ∀ {sid : Nat}, (weOpen server sid ∨ sid ∈ r.seen) → sid % 2 = r.ctx.nextLocalBidiId % 2 ∨ Known r.ctx sid := by
    intro sid hsid
    by_cases hours : weOpen server sid
    · left
      rw [h.role]
      exact hours
    · exact Or.inr ((h.table sid hours).2 (hsid.resolve_left hours))
  cases f with
  | stream f =>
    have hrest := quicStreamOnRecv_kept (q := q) r.ctx f
    by_cases hsid : weOpen server f.streamId ∨ f.streamId ∈ r.seen
    · exact hold hsid ((recvOpen_kept r.ctx (hknown hsid)).trans hrest)
    · have hseen : noteSeen server r.seen (some f.streamId) = r.seen ++ [f.streamId] := if_neg hsid
      rw [not_or] at hsid
      obtain ⟨hcounted, hlimit⟩ := h.note (q := q) hsid.1 hsid.2
      have hafter := hcounted.keep hrest
      rw [← hseen] at hafter
      exact ⟨hafter, fun bidi => Nat.le_trans (hlimit bidi) (hrest.limit bidi)⟩
  | maxStreamData sid maxData =>
    refine hold hok ?_
    have hopen : CountsKept r.ctx (streamFindOrCreate r.ctx sid).2 := by
      have hk := hknown hok
      unfold streamFindOrCreate
      split
      · exact CountsKept.refl _
      · rename_i hnone
        have hours : sid % 2 = r.ctx.nextLocalBidiId % 2 := hk.resolve_right (fun hk => by
          rw [known_iff_find, hnone] at hk
          cases hk)
        refine ⟨rfl, fun sid' hsid' => ?_, fun _ => rfl, fun _ => Nat.le_refl _⟩
        rw [known_append]
        exact or_iff_left (fun he => hsid' (he ▸ hours))
    exact hopen.trans (CountsKept.set _ _)
  | resetStream sid finalSize errorCode =>
    refine hold hok ?_
    have hcall : CountsKept r.ctx (if r.ctx.onStreamReset then r.ctx.call (.streamReset sid errorCode) else r.ctx) := by
      split
      · exact ⟨rfl, fun _ _ => Iff.rfl, fun _ => rfl, fun _ => Nat.le_refl _⟩
      · exact CountsKept.refl _
    show CountsKept r.ctx (quicStreamOnReset r.ctx sid finalSize errorCode)
    unfold quicStreamOnReset
    dsimp only
    split
    · exact hcall
    · exact hcall.trans (CountsKept.set _ _)
  | streamsBlocked maxStreams bidi =>
    have hgrant := (quicStreamGrantCredit_spec q r.ctx bidi).1
    exact ⟨h.keep hgrant, hgrant.limit⟩

theorem PeerStart.counted (st : PeerStart server) (h : ∀ bidi, QUIC_STREAM_CREDIT_RESERVE ≤ localLimit st.ctx bidi) :
    PeerCounted server { ctx := st.ctx } := by
  refine ⟨st.role, fun sid hsid => ?_, st.noneOpened, fun bidi => ?_⟩
  · refine iff_of_false ?_ (List.not_mem_nil)
    intro hk
    obtain ⟨s, hs, rfl⟩ := List.mem_map.1 hk
    exact hsid (st.ours s hs)
  · show 0 + _ ≤ _
    rw [Nat.zero_add]
    exact h bidi

end Runs

/-- **The limit stays ahead and never goes down**, in every run from limits of 16 at least in which a STREAM frame is
the first to name a stream of the peer. -/
theorem limit_ahead (q : QueueFn) (server : Bool) (st : PeerStart server)
    (hstart : ∀ bidi, QUIC_STREAM_CREDIT_RESERVE ≤ localLimit st.ctx bidi) (fs fs' : List PeerFrame)
    (hok : StepsOk (peerStep q server) (StreamNamesFirst server) { ctx := st.ctx } (fs ++ fs')) :
    LimitAhead ((fs ++ fs').foldl (peerStep q server) { ctx := st.ctx }) ∧
      ∀ bidi, localLimit (fs.foldl (peerStep q server) { ctx := st.ctx }).ctx bidi ≤
        localLimit ((fs ++ fs').foldl (peerStep q server) { ctx := st.ctx }).ctx bidi := by
  obtain ⟨hok1, hok2⟩ := (stepsOk_append _ _ fs fs' _).1 hok
  have hmid := foldl_inv (peerStep q server) (StreamNamesFirst server) (PeerCounted server)
    (fun r f h hf => (peerStep_counted f h hf).1) fs _ (st.counted hstart) hok1
  rw [List.foldl_append]
  generalize fs.foldl (peerStep q server) { ctx := st.ctx } = r at hmid hok2 ⊢
  have hend := foldl_inv (peerStep q server) (StreamNamesFirst server)
    (fun r' => PeerCounted server r' ∧ ∀ bidi, localLimit r.ctx bidi ≤ localLimit r'.ctx bidi)
    (fun r' f h hf => ⟨(peerStep_counted f h.1 hf).1,
      fun bidi => Nat.le_trans (h.2 bidi) ((peerStep_counted f h.1 hf).2 bidi)⟩) fs' r
    ⟨hmid, fun _ => Nat.le_refl _⟩ hok2
  exact ⟨hend.1.ahead, hend.2⟩

def hundredStreams : PeerStart true :=
  ⟨{ streamCtxStart true with maxStreamsBidiLocal := 100, maxStreamsUniLocal := 100 }, rfl, by simp [streamCtxStart],
    fun bidi => by cases bidi <;> rfl, fun bidi => by cases bidi <;> decide⟩

def firstFrames : List PeerFrame := [.stream ⟨0, 0, false, [97], zero_lt_two_pow_62, one_lt_two_pow_62⟩, .streamsBlocked 100 true]

theorem limit_ahead_hundred :
    LimitAhead (([] ++ firstFrames).foldl (peerStep (fun _ _ => true) true) { ctx := hundredStreams.ctx }) ∧
      ∀ bidi, localLimit hundredStreams.ctx bidi ≤
        localLimit (([] ++ firstFrames).foldl (peerStep (fun _ _ => true) true) { ctx := hundredStreams.ctx }).ctx bidi :=
  limit_ahead (fun _ _ => true) true hundredStreams (fun bidi => by cases bidi <;> decide) [] firstFrames
    ⟨trivial, trivial, trivial⟩

/-- **Streams the peer resets are not counted**: after 85 of them the limit of 100 is not ahead. -/
theorem limit_not_ahead : ¬ ∀ (q : QueueFn) (server : Bool) (st : PeerStart server) (fs : List PeerFrame),
    StepsOk (peerStep q server) (PeerInLimit server) { ctx := st.ctx } fs →
      LimitAhead (fs.foldl (peerStep q server) { ctx := st.ctx }) := by
  intro h
  have hrun := h (fun _ _ => true) true hundredStreams ((List.range 85).map (fun i => .resetStream (4 * i) 0 0))
    (by decide +kernel) true
  revert hrun
  decide +kernel

end MoqLiveCast
