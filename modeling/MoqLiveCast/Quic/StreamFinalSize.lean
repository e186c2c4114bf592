import MoqLiveCast.Lib.Run
import MoqLiveCast.Quic.StreamSent
/-!
# StreamFinalSize — a stream that has ended keeps its final size

The STREAM and RESET_STREAM frames `queue_fn` accepted for a stream are read off the trace (`queued`): how far each
reaches and whether it ends the stream.
-/
namespace MoqLiveCast

open List

/-! ## Queued frames -/

/-- The frames queued for one stream: where each ends, and whether it ends the stream. -/
def queued (sid : Nat) (tr : List Effect) : List (Nat × Bool) :=
  tr.filterMap (fun e => match e with
    | .queueFrame (.stream id offset fin data) true => if id = sid then some (offset + data.length, fin) else none
    | .queueFrame (.resetStream id _ finalSize) true => if id = sid then some (finalSize, true) else none
    | _ => none)

/-- **After an end with final size `F`** nothing reaches past `F`, and every later end has final size `F`. -/
def FinalSizeKept (l : List (Nat × Bool)) : Prop :=
  l.Pairwise (fun x y => x.2 = true → y.1 ≤ x.1 ∧ (y.2 = true → y.1 = x.1))

def Ended (l : List (Nat × Bool)) : Prop := ∃ x ∈ l, x.2 = true

structure FinalSize (l : List (Nat × Bool)) (offset : Nat) : Prop where
  kept : FinalSizeKept l
  ended : ∀ x ∈ l, x.2 = true → x.1 = offset

theorem queued_append (sid : Nat) (tr tr' : List Effect) : queued sid (tr ++ tr') = queued sid tr ++ queued sid tr' :=
  filterMap_append

theorem FinalSize.data {l : List (Nat × Bool)} {offset : Nat} (h : FinalSize l offset) (hne : ¬ Ended l)
    (stop : Nat) (fin : Bool) : FinalSize (l ++ [(stop, fin)]) stop := by
  have hnot : ∀ x ∈ l, x.2 ≠ true := fun x hx hf => hne ⟨x, hx, hf⟩
  refine ⟨List.pairwise_append.2 ⟨h.kept, pairwise_singleton _ _, fun x hx y _ hf => absurd hf (hnot x hx)⟩, ?_⟩
  intro x hx hf
  rcases List.mem_append.1 hx with hx | hx
  · exact absurd hf (hnot x hx)
  · rw [mem_singleton] at hx
    rw [hx]

theorem FinalSize.same {l : List (Nat × Bool)} {offset : Nat} (h : FinalSize l offset) (fin : Bool) :
    FinalSize (l ++ [(offset, fin)]) offset := by
  refine ⟨List.pairwise_append.2 ⟨h.kept, pairwise_singleton _ _, fun x hx y hy hf => ?_⟩, fun x hx hf => ?_⟩
  · rw [mem_singleton] at hy
    rw [hy, h.ended x hx hf]
    exact ⟨Nat.le_refl _, fun _ => rfl⟩
  · rcases List.mem_append.1 hx with hx | hx
    · exact h.ended x hx hf
    · rw [mem_singleton] at hx
      rw [hx]

theorem queued_stream {q : QueueFn} {ctx : QuicStreamCtx} {id offset : Nat} {fin : Bool} {data : List (Option Byte)}
    (hacc : q ctx.trace (.stream id offset fin data) = true) (sid : Nat) :
    queued sid (ctx.queueFn q (.stream id offset fin data)).trace =
      queued sid ctx.trace ++ if id = sid then [(offset + data.length, fin)] else [] := by
  unfold QuicStreamCtx.queueFn
  rw [QuicStreamCtx.call_trace, queued_append, hacc]
  by_cases hid : id = sid <;> simp [queued, hid]

variable (q : QueueFn)

theorem queued_reset (ctx : QuicStreamCtx) (id errorCode finalSize sid : Nat) :
    queued sid (ctx.queueFn q (.resetStream id errorCode finalSize)).trace = queued sid ctx.trace ++
      if q ctx.trace (.resetStream id errorCode finalSize) = true ∧ id = sid then [(finalSize, true)] else [] := by
  unfold QuicStreamCtx.queueFn
  rw [QuicStreamCtx.call_trace, queued_append]
  cases q ctx.trace (.resetStream id errorCode finalSize) <;> by_cases hid : id = sid <;> simp [queued, hid]

theorem queued_refused {q : QueueFn} {ctx : QuicStreamCtx} {f : Frame} (hacc : q ctx.trace f = false) (sid : Nat) :
    queued sid (ctx.queueFn q f).trace = queued sid ctx.trace := by
  unfold QuicStreamCtx.queueFn
  rw [QuicStreamCtx.call_trace, queued_append, hacc]
  cases f <;> simp [queued]

/-! ## Idle steps -/

/-- What the final size of a stream does not see: no frame of a stream is queued, and the offset, the pending bytes and
the rooms stay. -/
structure SendIdle (s : QuicStream) (ctx : QuicStreamCtx) (s' : QuicStream) (ctx' : QuicStreamCtx) : Prop where
  id : s'.streamId = s.streamId
  sendOffset : s'.sendOffset = s.sendOffset
  sendBufLen : s'.sendBufLen = s.sendBufLen
  sendMaxData : s'.sendMaxData = s.sendMaxData
  streams : ctx'.streams = ctx.streams
  queued : ∀ sid, queued sid ctx'.trace = queued sid ctx.trace
  connRoom : connRoom ctx' = connRoom ctx

theorem SendIdle.refl (s : QuicStream) (ctx : QuicStreamCtx) : SendIdle s ctx s ctx :=
  ⟨rfl, rfl, rfl, rfl, rfl, fun _ => rfl, rfl⟩

theorem SendIdle.trans {s s' s'' : QuicStream} {ctx ctx' ctx'' : QuicStreamCtx} (h1 : SendIdle s ctx s' ctx')
    (h2 : SendIdle s' ctx' s'' ctx'') : SendIdle s ctx s'' ctx'' :=
  ⟨h2.id.trans h1.id, h2.sendOffset.trans h1.sendOffset, h2.sendBufLen.trans h1.sendBufLen,
    h2.sendMaxData.trans h1.sendMaxData, h2.streams.trans h1.streams, fun sid => (h2.queued sid).trans (h1.queued sid),
    h2.connRoom.trans h1.connRoom⟩

theorem SendIdle.streamRoom {s s' : QuicStream} {ctx ctx' : QuicStreamCtx} (h : SendIdle s ctx s' ctx') :
    streamRoom s' = streamRoom s := by
  unfold MoqLiveCast.streamRoom
  rw [h.sendOffset, h.sendMaxData]

variable {ctx ctx' : QuicStreamCtx} {s s' : QuicStream}

theorem SendIdle.call {e : Effect} (h : SendIdle s ctx s' ctx')
    (he : ∀ f b, e ≠ .queueFrame f b) : SendIdle s ctx s' (ctx'.call e) := by
  refine h.trans ⟨rfl, rfl, rfl, rfl, rfl, fun sid => ?_, rfl⟩
  rw [QuicStreamCtx.call_trace, queued_append]
  cases e with
  | queueFrame f b => exact absurd rfl (he f b)
  | _ => simp [MoqLiveCast.queued]

theorem SendIdle.queueFn (h : SendIdle s ctx s' ctx') (q : QueueFn) {f : Frame} (hf : (∃ id l, f = .streamDataBlocked id l) ∨
    ∃ l, f = .dataBlocked l) : SendIdle s ctx s' (ctx'.queueFn q f) := by
  refine h.trans ⟨rfl, rfl, rfl, rfl, rfl, fun sid => ?_, rfl⟩
  unfold QuicStreamCtx.queueFn
  rw [QuicStreamCtx.call_trace, queued_append]
  obtain ⟨id, l, rfl⟩ | ⟨l, rfl⟩ := hf <;> simp [MoqLiveCast.queued]

theorem Idle.sendIdle (h : Idle s ctx s' ctx') : SendIdle s ctx s' ctx' := by
  have hs := h.stream
  have hc := h.same
  unfold SameSend at hs
  refine ⟨by rw [hs], by rw [hs], by rw [hs], by rw [hs], by rw [hc], ?_, by rw [hc]; rfl⟩
  intro sid
  obtain ⟨l, hl, haside⟩ := h.adds
  have hnone : MoqLiveCast.queued sid l = [] := by
    refine List.filterMap_eq_nil_iff.2 (fun e he => ?_)
    have := haside e he
    cases e with
    | queueFrame f b =>
      cases f <;> first
        | rfl
        | exact this.elim
    | _ => rfl
  rw [hl, queued_append, hnone, append_nil]

/-! ## Steps of one stream -/

/-- A step queues frames of its own stream only and never opens the connection's room. -/
structure SendLocal (s : QuicStream) (ctx : QuicStreamCtx) (s' : QuicStream) (ctx' : QuicStreamCtx) : Prop where
  id : s'.streamId = s.streamId
  streams : ctx'.streams = ctx.streams
  other : ∀ sid, sid ≠ s.streamId → queued sid ctx'.trace = queued sid ctx.trace
  room : connRoom ctx = 0 → connRoom ctx' = 0

theorem SendLocal.refl (s : QuicStream) (ctx : QuicStreamCtx) : SendLocal s ctx s ctx :=
  ⟨rfl, rfl, fun _ _ => rfl, fun h => h⟩

theorem SendLocal.trans {s s' s'' : QuicStream} {ctx ctx' ctx'' : QuicStreamCtx} (h1 : SendLocal s ctx s' ctx')
    (h2 : SendLocal s' ctx' s'' ctx'') : SendLocal s ctx s'' ctx'' :=
  ⟨h2.id.trans h1.id, h2.streams.trans h1.streams,
    fun sid h => (h2.other sid (by rw [h1.id]; exact h)).trans (h1.other sid h), fun h => h2.room (h1.room h)⟩

theorem SendIdle.local (h : SendIdle s ctx s' ctx') :
    SendLocal s ctx s' ctx' := ⟨h.id, h.streams, fun sid _ => h.queued sid, fun hr => h.connRoom.trans hr⟩

def Settled (s : QuicStream) (ctx : QuicStreamCtx) : Prop :=
  Ended (queued s.streamId ctx.trace) → s.sendBufLen = 0 ∨ streamRoom s = 0 ∨ connRoom ctx = 0

structure SendOk (s : QuicStream) (ctx : QuicStreamCtx) (s' : QuicStream) (ctx' : QuicStreamCtx) : Prop where
  here : SendLocal s ctx s' ctx'
  final : FinalSize (queued s.streamId ctx.trace) s.sendOffset → Settled s ctx →
    FinalSize (queued s'.streamId ctx'.trace) s'.sendOffset ∧ Settled s' ctx'

theorem SendOk.trans {s s' s'' : QuicStream} {ctx ctx' ctx'' : QuicStreamCtx} (h1 : SendOk s ctx s' ctx')
    (h2 : SendOk s' ctx' s'' ctx'') : SendOk s ctx s'' ctx'' :=
  ⟨h1.here.trans h2.here, fun hf hs => h2.final (h1.final hf hs).1 (h1.final hf hs).2⟩

theorem SendIdle.ok (h : SendIdle s ctx s' ctx') : SendOk s ctx s' ctx' := by
  refine ⟨h.local, fun hf hs => ⟨?_, fun he => ?_⟩⟩
  · rw [h.id, h.queued, h.sendOffset]
    exact hf
  · rw [h.id, h.queued] at he
    rw [h.sendBufLen, h.streamRoom, h.connRoom]
    exact hs he

theorem queued_addSent (sid : Nat) (ctx : QuicStreamCtx) (n : Nat) :
    queued sid (ctx.addSent n).trace = queued sid ctx.trace := rfl

theorem connRoom_addSent {ctx : QuicStreamCtx} (h : connRoom ctx = 0) (n : Nat) : connRoom (ctx.addSent n) = 0 := by
  unfold connRoom QuicStreamCtx.addSent at *
  dsimp only
  split at h <;> split <;> omega

theorem connRoom_queueFn (ctx : QuicStreamCtx) (f : Frame) : connRoom (ctx.queueFn q f) = connRoom ctx :=
  rfl

theorem queueFn_local (s s' : QuicStream) (ctx : QuicStreamCtx) (n : Nat) {f : Frame}
    (hf : (∃ o fin d, f = .stream s.streamId o fin d) ∨ ∃ e z, f = .resetStream s.streamId e z)
    (hid : s'.streamId = s.streamId) : SendLocal s ctx s' ((ctx.queueFn q f).addSent n) := by
  refine ⟨hid, rfl, fun sid h => ?_, fun h => connRoom_addSent (by rw [connRoom_queueFn]; exact h) n⟩
  rw [queued_addSent]
  cases hacc : q ctx.trace f with
  | false => exact queued_refused hacc sid
  | true =>
    obtain ⟨o, fin, d, rfl⟩ | ⟨e, z, rfl⟩ := hf
    · rw [queued_stream hacc, if_neg (Ne.symm h), append_nil]
    · rw [queued_reset, if_neg (fun hh => Ne.symm h hh.2), append_nil]

theorem queueChunk_ok {s : QuicStream} {ctx : QuicStreamCtx} (hlen : s.sendBufLen ≠ 0) (hstream : streamRoom s ≠ 0)
    (hconn : connRoom ctx ≠ 0) (hacc : q ctx.trace (.stream s.streamId s.sendOffset (consumeIsLast s ctx) (s.sendBuf.read
    s.sendBufHead (consumeChunk s ctx))) = true) : SendOk s ctx (consumeAdvance s (consumeChunk s ctx)) ((ctx.queueFn q
    (.stream s.streamId s.sendOffset (consumeIsLast s ctx) (s.sendBuf.read s.sendBufHead (consumeChunk s ctx)))).addSent
    (consumeChunk s ctx)) := by
  refine ⟨queueFn_local q s (consumeAdvance s (consumeChunk s ctx)) ctx _ (Or.inl ⟨_, _, _, rfl⟩) rfl, fun hf hs => ?_⟩
  -- the stream has not ended, or it could not send
  have hne : ¬ Ended (queued s.streamId ctx.trace) := by
    intro he
    rcases hs he with h | h | h
    · exact hlen h
    · exact hstream h
    · exact hconn h
  have hq := queued_stream hacc s.streamId
  rw [if_pos rfl, show (s.sendBuf.read s.sendBufHead (consumeChunk s ctx)).length = consumeChunk s ctx from
    slice_length _ _ _] at hq
  constructor
  · show FinalSize (queued s.streamId _) (s.sendOffset + consumeChunk s ctx)
    rw [queued_addSent, hq]
    exact hf.data hne _ _
  · intro he
    change Ended (queued s.streamId _) at he
    rw [queued_addSent, hq] at he
    obtain ⟨x, hx, hfin⟩ := he
    rcases List.mem_append.1 hx with hx | hx
    · exact absurd ⟨x, hx, hfin⟩ hne
    · rw [mem_singleton] at hx
      rw [hx] at hfin
      unfold consumeIsLast at hfin
      dsimp only at hfin
      split at hfin
      · rename_i hlast
        exact Or.inl (Nat.sub_eq_zero_of_le hlast)
      · cases hfin

theorem consumeSendBuf_ok (s : QuicStream) (ctx : QuicStreamCtx) :
    SendOk s ctx (consumeSendBuf q s ctx).1 (consumeSendBuf q s ctx).2 := by
  apply consumeLoop_inv q (SendOk s ctx)
  · intro s1 c1 s2 c2 hidle h
    exact h.trans hidle.sendIdle.ok
  · intro s1 c1 _ h
    have hfreed : SendIdle s1 c1 (consumeFreed s1) c1 := ⟨rfl, rfl, rfl, rfl, rfl, fun _ => rfl, rfl⟩
    exact h.trans hfreed.ok
  · intro s1 c1 hlen hstream hconn hacc h
    exact h.trans (queueChunk_ok q hlen hstream hconn hacc)
  · intro s1 c1 _ _ _ hacc h
    have hrefused : SendIdle s1 c1 s1 (c1.queueFn q (.stream s1.streamId s1.sendOffset (consumeIsLast s1 c1)
        (s1.sendBuf.read s1.sendBufHead (consumeChunk s1 c1)))) :=
      ⟨rfl, rfl, rfl, rfl, rfl, fun sid => queued_refused hacc sid, rfl⟩
    exact h.trans hrefused.ok
  · exact Nat.le_refl _
  · exact (SendIdle.refl s ctx).ok

theorem flushStream_ok (now : Nat) (s : QuicStream) (ctx : QuicStreamCtx) :
    SendOk s ctx (flushStream q now s ctx).1 (flushStream q now s ctx).2 := by
  unfold flushStream
  have hexp := (reqExpire_idle s s.streamId now s.writeReqs ctx).sendIdle
  dsimp only
  generalize reqExpire s.streamId now s.writeReqs ctx = r at hexp ⊢
  have hreqs : SendIdle s r.2 { s with writeReqs := r.1 } r.2 := ⟨rfl, rfl, rfl, rfl, rfl, fun _ => rfl, rfl⟩
  have h1 : SendOk s ctx { s with writeReqs := r.1 } r.2 := (hexp.trans hreqs).ok
  have h2 : ∀ p : QuicStream × QuicStreamCtx, SendOk { s with writeReqs := r.1 } r.2 p.1 p.2 →
      SendOk s ctx (maybeNotifyWritable (reqFireCompleted p.1 p.2 p.1.sendOffset).1 (reqFireCompleted p.1 p.2 p.1.sendOffset).2).1
        (maybeNotifyWritable (reqFireCompleted p.1 p.2 p.1.sendOffset).1
          (reqFireCompleted p.1 p.2 p.1.sendOffset).2).2 := fun p hp => by
    have h3 := reqFireCompleted_idle p.1 p.2 p.1.sendOffset
    exact (h1.trans hp).trans (h3.trans (maybeNotifyWritable_idle _ _)).sendIdle.ok
  split
  · exact h2 _ (consumeSendBuf_ok q _ _)
  · exact h2 _ (maybeNotifyWritable_idle _ _).sendIdle.ok

/-! ## The invariant of a run -/

/-- Ids name streams, the final size of the stream `sid` is kept, and it is the stream's offset. -/
structure SendInv (sid : Nat) (ctx : QuicStreamCtx) : Prop where
  nodup : (ctx.streams.map QuicStream.streamId).Nodup
  kept : FinalSizeKept (queued sid ctx.trace)
  ended : ∀ x ∈ queued sid ctx.trace, x.2 = true → ∃ s, streamFind ctx sid = some s ∧ x.1 = s.sendOffset

section Inv

variable {sid : Nat} {ctx : QuicStreamCtx}

theorem SendInv.finalSize (h : SendInv sid ctx) {s : QuicStream} (hs : streamFind ctx sid = some s) :
    FinalSize (queued sid ctx.trace) s.sendOffset := by
  refine ⟨h.kept, fun x hx hf => ?_⟩
  obtain ⟨s', hs', he⟩ := h.ended x hx hf
  rw [hs] at hs'
  cases hs'
  exact he

variable {ctx' : QuicStreamCtx}

theorem SendInv.of_same (h : SendInv sid ctx) (hs : ctx'.streams = ctx.streams)
    (hq : queued sid ctx'.trace = queued sid ctx.trace) : SendInv sid ctx' := by
  refine ⟨by rw [hs]; exact h.nodup, by rw [hq]; exact h.kept, ?_⟩
  rw [hq]
  unfold streamFind
  rw [hs]
  exact h.ended

theorem SendInv.set (h : SendInv sid ctx) {s s' : QuicStream} (hs : streamFind ctx s.streamId = some s) (hl :
    SendLocal s ctx s' ctx') (hf : s.streamId = sid → FinalSize (queued sid ctx.trace) s.sendOffset →
    FinalSize (queued sid ctx'.trace) s'.sendOffset) : SendInv sid (setStream ctx' s') := by
  have hfind : streamFind ctx' s'.streamId = some s := by
    unfold streamFind
    rw [hl.streams, hl.id]
    exact hs
  have hnodup : ((setStream ctx' s').streams.map QuicStream.streamId).Nodup := by
    show ((store QuicStream.streamId s' ctx'.streams).map QuicStream.streamId).Nodup
    rw [store_keys, hl.streams]
    exact h.nodup
  by_cases hsid : s.streamId = sid
  · obtain ⟨hkept, hended⟩ := hf hsid (h.finalSize (hsid ▸ hs))
    refine ⟨hnodup, hkept, fun x hx hfin => ⟨s', ?_, hended x hx hfin⟩⟩
    rw [← hsid, ← hl.id]
    exact streamFind_setStream_self hfind
  · have hq := hl.other sid (Ne.symm hsid)
    refine ⟨hnodup, by rw [setStream_trace, hq]; exact h.kept, fun x hx hfin => ?_⟩
    rw [setStream_trace, hq] at hx
    obtain ⟨t, ht, he⟩ := h.ended x hx hfin
    refine ⟨t, ?_, he⟩
    rw [streamFind_setStream_ne (by rw [hl.id]; exact Ne.symm hsid)]
    unfold streamFind
    rw [hl.streams]
    exact ht

theorem SendInv.setOk (h : SendInv sid ctx) {s s' : QuicStream} (hs : streamFind ctx s.streamId = some s) (hok :
    SendOk s ctx s' ctx') (hset : s.streamId = sid → Settled s ctx) : SendInv sid (setStream ctx' s') := by
  refine h.set hs hok.here (fun hsid hf => ?_)
  subst hsid
  have := (hok.final hf (hset rfl)).1
  rwa [hok.here.id] at this

theorem SendInv.findOrCreate (h : SendInv sid ctx) (id : Nat) : SendInv sid (streamFindOrCreate ctx id).2 := by
  cases hf : streamFind ctx id with
  | some s =>
    have he : (streamFindOrCreate ctx id).2 = ctx := by
      unfold streamFindOrCreate
      rw [hf]
    rw [he]
    exact h
  | none =>
    have he : (streamFindOrCreate ctx id).2 = { ctx with streams := ctx.streams ++ [newStream ctx id] } := by
      unfold streamFindOrCreate
      rw [hf]
    refine ⟨?_, by rw [streamFindOrCreate_trace]; exact h.kept, fun x hx hfin => ?_⟩
    · rw [he, map_append]
      refine List.nodup_append.2 ⟨h.nodup, pairwise_singleton _ _, fun a ha b hb hab => ?_⟩
      obtain ⟨r, hr, hra⟩ := List.mem_map.1 ha
      rw [map_singleton, mem_singleton] at hb
      exact (lookup_eq_none_iff _).1 hf r hr (by rw [hra, hab, hb]; rfl)
    · rw [streamFindOrCreate_trace] at hx
      obtain ⟨s, hs, hxs⟩ := h.ended x hx hfin
      refine ⟨s, ?_, hxs⟩
      rw [streamFindOrCreate_find_ne ctx (fun hid => by rw [hid, hf] at hs; cases hs)]
      exact hs

end Inv

/-! ## The calls -/

def OffersNoData (ctx : QuicStreamCtx) (s : QuicStream) : SendCall → Prop
  | .write id data _ _ _ _ => id = s.streamId →
      SendEnded s ∨ Congested s data.length ∨ s.sendBufLen + data.length = 0 ∨ streamRoom s = 0 ∨ connRoom ctx = 0
  | .send id data _ => id = s.streamId →
      SendEnded s ∨ data.length = 0 ∨ s.sendMaxData < s.sendOffset + data.length ∨ ctx.maxDataPeer < ctx.bytesSent + data.length
  | .flushPending _ => ctx.flushing = true ∨ s.sendBufLen = 0 ∨ streamRoom s = 0 ∨ connRoom ctx = 0
  | _ => True

def EndedQuiet (sid : Nat) (ctx : QuicStreamCtx) (c : SendCall) : Prop :=
  Ended (queued sid ctx.trace) → ∀ s, streamFind ctx sid = some s → OffersNoData ctx s c

section Calls

variable {sid : Nat} {ctx : QuicStreamCtx} (q : QueueFn)

theorem SendInv.call (h : SendInv sid ctx) {e : Effect} (he : ∀ f b, e ≠ .queueFrame f b) : SendInv sid (ctx.call e) :=
  h.of_same rfl (((SendIdle.refl (newStream ctx sid) ctx).call he).queued sid)

theorem SendInv.blocked (h : SendInv sid ctx) {f : Frame}
    (hf : (∃ id l, f = .streamDataBlocked id l) ∨ ∃ l, f = .dataBlocked l) : SendInv sid (ctx.queueFn q f).flushFn := by
  have hq : SendInv sid (ctx.queueFn q f) :=
    h.of_same rfl (((SendIdle.refl (newStream ctx sid) ctx).queueFn q hf).queued sid)
  exact hq.call (e := .flush) (fun _ _ h => by cases h)

theorem writeFail_inv (h : SendInv sid ctx) (id : Nat) (cb : Option Nat) : SendInv sid (writeFail ctx id cb) := by
  cases cb with
  | none => exact h
  | some userData => exact h.call (fun _ _ h => by cases h)

theorem quicStreamWrite_inv (h : SendInv sid ctx) (id : Nat) (data : List Byte) (fin : Bool) (cb : Option Nat)
    (timeoutMs now : Nat) (hok : EndedQuiet sid ctx (.write id data fin cb timeoutMs now)) :
    SendInv sid (quicStreamWrite q ctx id data fin cb timeoutMs now).2 := by
  unfold quicStreamWrite
  cases hs : streamFind ctx id with
  | none => exact writeFail_inv h id cb
  | some s =>
    have hid := streamFind_id hs
    have hs' : streamFind ctx s.streamId = some s := by rw [hid]; exact hs
    dsimp only
    split
    · exact writeFail_inv h id cb
    · rename_i hended
      split
      · exact h.set hs' ⟨rfl, rfl, fun _ _ => rfl, fun h => h⟩ (fun _ hf => hf)
      · rename_i hcong
        obtain ⟨hi, ho, hm, hl⟩ := writeAppend_appends s data fin cb timeoutMs now
        generalize writeAppend s data fin cb timeoutMs now = s1 at hi ho hm hl ⊢
        have hsend : SendOk s1 ctx _ _ := (consumeSendBuf_ok q s1 ctx).trans (maybeNotifyWritable_idle _ _).sendIdle.ok
        refine h.set hs' (SendLocal.trans ⟨hi, rfl, fun _ _ => rfl, fun h => h⟩ hsend.here) (fun hsid hf => ?_)
        have hset : Settled s1 ctx := fun he => by
          rw [hi, hsid] at he
          rcases hok he s (hsid ▸ hs') hid.symm with h | h | h | h | h
          · exact absurd h hended
          · exact absurd h hcong
          · exact Or.inl (by rw [hl]; exact h)
          · refine Or.inr (Or.inl ?_)
            unfold streamRoom at h ⊢
            rw [ho, hm]
            exact h
          · exact Or.inr (Or.inr h)
        rw [← hsid, ← hi, ← ho] at hf
        have := (hsend.final hf hset).1
        rwa [hsend.here.id, hi, hsid] at this

theorem sendLoop_ok (data : List Byte) (fin : Bool) : ∀ (n sent : Nat) (s : QuicStream) (ctx : QuicStreamCtx),
    SendLocal s ctx (sendLoop q data fin n sent s ctx).2.1 (sendLoop q data fin n sent s ctx).2.2 ∧
      (FinalSize (queued s.streamId ctx.trace) s.sendOffset → (sent < data.length → ¬ Ended (queued s.streamId ctx.trace)) →
        FinalSize (queued s.streamId (sendLoop q data fin n sent s ctx).2.2.trace)
          (sendLoop q data fin n sent s ctx).2.1.sendOffset)
  | 0, sent, s, ctx => ⟨SendLocal.refl s ctx, fun hf _ => hf⟩
  | n + 1, sent, s, ctx => by
    unfold sendLoop
    split
    · rename_i hmore
      split
      · exact ⟨SendLocal.refl s ctx, fun hf _ => hf⟩
      · dsimp only
        generalize hchunk : min (min (min (data.length - sent) MC) (streamRoom s)) (connRoom ctx) = chunk
        generalize hlast : (if data.length ≤ sent + chunk then fin else false) = isLast
        split
        · exact ⟨SendLocal.refl s ctx, fun hf _ => hf⟩
        · rename_i frame hframe
          have hfr := quicFrameWriteStream_eq hframe
          subst hfr
          split
          · rename_i hacc
            have hlen : (((data.drop sent).take chunk).map some).length = chunk := by
              rw [length_map, length_take, length_drop]
              omega
            have hq := queued_stream hacc s.streamId
            rw [if_pos rfl, hlen] at hq
            have hlocal := queueFn_local q s { s with sendOffset := s.sendOffset + chunk } ctx chunk
              (Or.inl ⟨s.sendOffset, isLast, ((data.drop sent).take chunk).map some, rfl⟩) rfl
            have ih := sendLoop_ok data fin n (sent + chunk) { s with sendOffset := s.sendOffset + chunk }
              ((ctx.queueFn q (.stream s.streamId s.sendOffset isLast (((data.drop sent).take chunk).map some))).addSent chunk)
            refine ⟨hlocal.trans ih.1, fun hf hne => ih.2 ?_ ?_⟩
            · show FinalSize (queued s.streamId _) (s.sendOffset + chunk)
              rw [queued_addSent, hq]
              exact hf.data (hne hmore) _ _
            · intro hmore'
              show ¬ Ended (queued s.streamId _)
              rw [queued_addSent, hq]
              rintro ⟨x, hx, hfin⟩
              rcases List.mem_append.1 hx with hx | hx
              · exact hne hmore ⟨x, hx, hfin⟩
              · rw [mem_singleton] at hx
                rw [hx, ← hlast, if_neg (by omega)] at hfin
                cases hfin
          · rename_i hacc
            have hacc := Bool.eq_false_iff.2 hacc
            have hidle : SendIdle s ctx s (ctx.queueFn q (.stream s.streamId s.sendOffset isLast
                (((data.drop sent).take chunk).map some))) :=
              ⟨rfl, rfl, rfl, rfl, rfl, fun sid => queued_refused hacc sid, rfl⟩
            exact ⟨hidle.local, fun hf _ => by rw [hidle.queued]; exact hf⟩
    · exact ⟨SendLocal.refl s ctx, fun hf _ => hf⟩

theorem queueEnd_final {s : QuicStream} {f : Frame} (hf : (∃ fin, f = .stream s.streamId s.sendOffset fin []) ∨ ∃ e, f =
    .resetStream s.streamId e s.sendOffset) (h : FinalSize (queued s.streamId ctx.trace) s.sendOffset) :
    FinalSize (queued s.streamId (ctx.queueFn q f).trace) s.sendOffset := by
  cases hacc : q ctx.trace f with
  | false => rw [queued_refused hacc]; exact h
  | true =>
    obtain ⟨fin, rfl⟩ | ⟨e, rfl⟩ := hf
    · rw [queued_stream hacc, if_pos rfl]
      exact h.same fin
    · rw [queued_reset, if_pos ⟨hacc, rfl⟩]
      exact h.same true

theorem sendFrames_ok (s : QuicStream) (ctx : QuicStreamCtx) (data : List Byte) (fin : Bool) : SendLocal s ctx (sendFrames q s ctx
    data fin).2.1 (sendFrames q s ctx data fin).2.2 ∧ (FinalSize (queued s.streamId ctx.trace) s.sendOffset →
    (data.length ≠ 0 → ¬ Ended (queued s.streamId ctx.trace)) → FinalSize (queued s.streamId (sendFrames q s ctx data
    fin).2.2.trace) (sendFrames q s ctx data fin).2.1.sendOffset) := by
  unfold sendFrames
  split
  · split
    · exact ⟨SendLocal.refl s ctx, fun hf _ => hf⟩
    · rename_i frame hframe
      have hfr := quicFrameWriteStream_eq hframe
      subst hfr
      exact ⟨queueFn_local q s s ctx 0 (Or.inl ⟨s.sendOffset, true, [], rfl⟩) rfl,
        fun hf _ => queueEnd_final q (Or.inl ⟨true, rfl⟩) hf⟩
  · have h := sendLoop_ok q data fin data.length 0 s ctx
    exact ⟨h.1, fun hf hne => h.2 hf (fun h => hne (by omega))⟩

theorem quicStreamSend_inv (h : SendInv sid ctx) (id : Nat) (data : List Byte) (fin : Bool)
    (hok : EndedQuiet sid ctx (.send id data fin)) : SendInv sid (quicStreamSend q ctx id data fin).2 := by
  unfold quicStreamSend
  cases hs : streamFind ctx id with
  | none => exact h
  | some s =>
    have hid := streamFind_id hs
    have hs' : streamFind ctx s.streamId = some s := by rw [hid]; exact hs
    dsimp only
    split
    · exact h
    · rename_i hended
      split
      · exact h.blocked q (Or.inl ⟨_, _, rfl⟩)
      · rename_i hstream
        split
        · exact h.blocked q (Or.inr ⟨_, rfl⟩)
        · rename_i hconn
          obtain ⟨hl, hfinal⟩ := sendFrames_ok q s ctx data fin
          have hset : ∀ s', s'.streamId = (sendFrames q s ctx data fin).2.1.streamId →
              s'.sendOffset = (sendFrames q s ctx data fin).2.1.sendOffset →
              SendInv sid (setStream (sendFrames q s ctx data fin).2.2 s') := fun s' hi ho => by
            refine h.set hs' ⟨hi.trans hl.id, hl.streams, hl.other, hl.room⟩ (fun hsid hf => ?_)
            rw [ho]
            rw [← hsid] at hf ⊢
            refine hfinal hf (fun hlen he => ?_)
            rw [hsid] at he
            rcases hok he s (hsid ▸ hs') hid.symm with h | h | h | h
            · exact hended h
            · exact hlen h
            · exact hstream h
            · exact hconn h
          split
          · exact hset _ rfl rfl
          · refine hset _ ?_ ?_
            · split
              · rfl
              · split <;> rfl
            · split
              · rfl
              · split <;> rfl

theorem quicStreamCloseSend_inv (h : SendInv sid ctx) (id : Nat) : SendInv sid (quicStreamCloseSend q ctx id) := by
  unfold quicStreamCloseSend
  cases hs : streamFind ctx id with
  | none => exact h
  | some s =>
    have hid := streamFind_id hs
    subst hid
    dsimp only
    split
    · exact h
    · split
      · rename_i frame hframe
        have hfr := quicFrameWriteStream_eq hframe
        subst hfr
        refine h.set hs ?_ (fun hsid hf => ?_)
        · exact (queueFn_local q s { s with sendState := .dataSent } ctx 0 (Or.inl ⟨s.sendOffset, true, [], rfl⟩)
            rfl).trans ((SendIdle.refl { s with sendState := .dataSent } _).call (e := .flush)
              (fun _ _ h => by cases h)).local
        · subst hsid
          have hq := queueEnd_final q (s := s) (f := .stream s.streamId s.sendOffset true []) (Or.inl ⟨true, rfl⟩) hf
          have hflush := ((SendIdle.refl s (ctx.queueFn q (.stream s.streamId s.sendOffset true []))).call (e := .flush)
            (fun _ _ h => by cases h)).queued s.streamId
          show FinalSize (queued s.streamId (QuicStreamCtx.flushFn _).trace) s.sendOffset
          unfold QuicStreamCtx.flushFn
          rw [hflush]
          exact hq
      · exact h.set hs ⟨rfl, rfl, fun _ _ => rfl, fun h => h⟩ (fun _ hf => hf)

theorem quicStreamReset_inv (h : SendInv sid ctx) (id errorCode : Nat) : SendInv sid (quicStreamReset q ctx id errorCode).2 := by
  unfold quicStreamReset
  cases hs : streamFind ctx id with
  | none => exact h
  | some s =>
    have hid := streamFind_id hs
    subst hid
    dsimp only
    have hclosed : ∀ c, SendIdle s c { s with sendState := .resetSent } c := fun _ =>
      ⟨rfl, rfl, rfl, rfl, rfl, fun _ => rfl, rfl⟩
    have hidle := ((SendIdle.refl s (ctx.queueFn q (.resetStream s.streamId errorCode s.sendOffset))).call (e := .flush)
      (fun _ _ h => by cases h)).trans ((hclosed _).trans
        (reqFailAll_idle { s with sendState := .resetSent } (resetRetCode errorCode) _).sendIdle)
    refine h.set hs (SendLocal.trans (queueFn_local q s s ctx 0 (Or.inr ⟨errorCode, s.sendOffset, rfl⟩) rfl)
      hidle.local) (fun hsid hf => ?_)
    subst hsid
    have hq := queueEnd_final q (s := s) (Or.inr ⟨errorCode, rfl⟩) hf
    rw [← hidle.queued, ← hidle.sendOffset] at hq
    exact hq

theorem quicStreamOnStopSending_inv (h : SendInv sid ctx) (id : Nat) : SendInv sid (quicStreamOnStopSending q ctx id) := by
  unfold quicStreamOnStopSending
  split
  · exact h
  · split
    · exact quicStreamReset_inv q h id 0
    · exact h

theorem quicStreamOnMaxData_inv (h : SendInv sid ctx) (maxData : Nat) : SendInv sid (quicStreamOnMaxData ctx maxData) := by
  unfold quicStreamOnMaxData
  split
  · exact h.of_same rfl rfl
  · exact h

theorem quicStreamOnMaxStreamData_inv (h : SendInv sid ctx) (id maxData : Nat) :
    SendInv sid (quicStreamOnMaxStreamData ctx id maxData) := by
  have hfind : streamFind (streamFindOrCreate ctx id).2 (streamFindOrCreate ctx id).1.streamId =
      some (streamFindOrCreate ctx id).1 := by
    rw [streamFindOrCreate_id]
    exact streamFindOrCreate_find ctx id
  have hc := h.findOrCreate id
  show SendInv sid (setStream (streamFindOrCreate ctx id).2 (raiseSendMaxData (streamFindOrCreate ctx id).1 maxData))
  generalize streamFindOrCreate ctx id = r at hfind hc ⊢
  obtain ⟨hi, ho⟩ := raiseSendMaxData_id r.1 maxData
  exact hc.set hfind ⟨hi, rfl, fun _ _ => rfl, fun h => h⟩ (fun _ hf => by rw [ho]; exact hf)

theorem quicStreamApplyInitSendCredit_inv (h : SendInv sid ctx) : SendInv sid (quicStreamApplyInitSendCredit ctx) := by
  have hraise := fun s : QuicStream => raiseSendMaxData_id s (peerSendCredit ctx s.streamId)
  refine ⟨?_, h.kept, fun x hx hf => ?_⟩
  · show ((ctx.streams.map _).map QuicStream.streamId).Nodup
    have hids : (ctx.streams.map (fun s => raiseSendMaxData s (peerSendCredit ctx s.streamId))).map
        QuicStream.streamId = ctx.streams.map QuicStream.streamId := by
      rw [map_map]
      exact map_congr_left (fun s _ => (hraise s).1)
    rw [hids]
    exact h.nodup
  · obtain ⟨s, hs, he⟩ := h.ended x hx hf
    refine ⟨raiseSendMaxData s (peerSendCredit ctx s.streamId), ?_, he.trans (hraise s).2.symm⟩
    show lookup QuicStream.streamId sid (ctx.streams.map _) = _
    rw [lookup_map _ (fun r => (hraise r).1), show lookup QuicStream.streamId sid ctx.streams = some s from hs]
    rfl

theorem flushTurn_inv (now : Nat) (h : SendInv sid ctx) (hset : ∀ s, streamFind ctx sid = some s → Settled s ctx) (i : Nat) :
    SendInv sid (flushTurn q now ctx i) ∧ ∀ s, streamFind (flushTurn q now ctx i) sid = some s → Settled s (flushTurn q now ctx
    i) := by
  unfold flushTurn
  cases hi : ctx.streams[i]? with
  | none => exact ⟨h, hset⟩
  | some t =>
    have ht : streamFind ctx t.streamId = some t := lookup_of_mem _ h.nodup (mem_of_getElem? hi)
    have hok := flushStream_ok q now t ctx
    dsimp only
    generalize flushStream q now t ctx = r at hok ⊢
    have hfind : streamFind r.2 r.1.streamId = some t := by
      unfold streamFind
      rw [hok.here.streams, hok.here.id]
      exact ht
    refine ⟨h.setOk ht hok (fun hsid => hset t (hsid ▸ ht)), fun s hs => ?_⟩
    by_cases hsid : t.streamId = sid
    · subst hsid
      rw [← hok.here.id, streamFind_setStream_self hfind] at hs
      cases hs
      exact (hok.final (h.finalSize ht) (hset t ht)).2
    · rw [streamFind_setStream_ne (by rw [hok.here.id]; exact Ne.symm hsid)] at hs
      have hs' : streamFind ctx sid = some s := by
        unfold streamFind at hs ⊢
        rwa [hok.here.streams] at hs
      intro he
      have hid := streamFind_id hs'
      rw [setStream_trace, hid, hok.here.other sid (Ne.symm hsid), ← hid] at he
      exact (hset s hs' he).imp_right (fun h => h.imp_right (fun h => hok.here.room h))

theorem quicStreamFlushPending_inv (h : SendInv sid ctx) (now : Nat) (hok : EndedQuiet sid ctx (.flushPending now)) :
    SendInv sid (quicStreamFlushPending q ctx now) := by
  unfold quicStreamFlushPending
  split
  · exact h
  · rename_i hidle
    have hset : ∀ s, streamFind ctx sid = some s → Settled s { ctx with flushing := true } := fun s hs he => by
      rw [streamFind_id hs] at he
      exact (hok he s hs).resolve_left hidle
    have hloop : ∀ (l : List Nat) (c : QuicStreamCtx), SendInv sid c →
        (∀ s, streamFind c sid = some s → Settled s c) → SendInv sid (l.foldl (flushTurn q now) c) := by
      intro l
      induction l with
      | nil => exact fun c hc _ => hc
      | cons i l ih =>
        exact fun c hc hs => ih _ (flushTurn_inv q now hc hs i).1 (flushTurn_inv q now hc hs i).2
    exact (hloop _ { ctx with flushing := true } (h.of_same rfl rfl) hset).of_same rfl rfl

theorem sendStep_inv (h : SendInv sid ctx) (c : SendCall) (hok : EndedQuiet sid ctx c) : SendInv sid (sendStep q ctx c) := by
  cases c with
  | write id data fin cb timeoutMs now => exact quicStreamWrite_inv q h id data fin cb timeoutMs now hok
  | send id data fin => exact quicStreamSend_inv q h id data fin hok
  | closeSend id => exact quicStreamCloseSend_inv q h id
  | reset id errorCode => exact quicStreamReset_inv q h id errorCode
  | onStopSending id => exact quicStreamOnStopSending_inv q h id
  | flushPending now => exact quicStreamFlushPending_inv q h now hok
  | onMaxData maxData => exact quicStreamOnMaxData_inv h maxData
  | onMaxStreamData id maxData => exact quicStreamOnMaxStreamData_inv h id maxData
  | applyInitSendCredit => exact quicStreamApplyInitSendCredit_inv h

end Calls

/-- A context before anything has been queued; ids name streams. -/
structure SendStart where
  ctx : QuicStreamCtx
  trace : ctx.trace = []
  nodup : (ctx.streams.map QuicStream.streamId).Nodup

/-- **The final size of a stream is kept** in every run no call of which offers data of the stream after its end. -/
theorem final_size_kept (q : QueueFn) (st : SendStart) (sid : Nat) (cs : List SendCall) (hok : StepsOk (sendStep q)
    (EndedQuiet sid) st.ctx cs) : FinalSizeKept (queued sid (cs.foldl (sendStep q) st.ctx).trace) := by
  have hstart : SendInv sid st.ctx := by
    refine ⟨st.nodup, ?_, fun x hx => ?_⟩
    · rw [st.trace]
      exact List.Pairwise.nil
    · rw [st.trace] at hx
      cases hx
  exact (foldl_inv (sendStep q) (EndedQuiet sid) (SendInv sid) (fun ctx c h hc => sendStep_inv q h c hc) cs st.ctx
    hstart hok).kept

def openStream : SendStart :=
  ⟨{ streams := [{ streamId := 0, sendState := .send, sendMaxData := 100 }], maxDataPeer := 100 }, rfl, by decide⟩

theorem final_size_kept_closed :
    FinalSizeKept (queued 0 ([SendCall.write 0 [97] true none 0 0, .closeSend 0].foldl (sendStep fun _ _ => true)
      openStream.ctx).trace) :=
  final_size_kept (fun _ _ => true) openStream 0 [.write 0 [97] true none 0 0, .closeSend 0]
    ⟨fun ⟨_, hx, _⟩ => absurd hx not_mem_nil, fun _ _ _ => trivial, trivial⟩

/-- **A write after a write with FIN is sent past the final size**: FIN leaves the stream in the state SEND. -/
theorem data_after_fin : ¬ ∀ (q : QueueFn) (st : SendStart) (sid : Nat) (cs : List SendCall),
      FinalSizeKept (queued sid (cs.foldl (sendStep q) st.ctx).trace) := fun h => by
  have hrun := h (fun _ _ => true) openStream 0 [.write 0 [97] true none 0 0, .write 0 [98] false none 0 0]
  have hq : queued 0 ([SendCall.write 0 [97] true none 0 0, .write 0 [98] false none 0 0].foldl
      (sendStep fun _ _ => true) openStream.ctx).trace = [(1, true), (2, false)] := by decide
  rw [hq] at hrun
  exact absurd (rel_of_pairwise_cons hrun mem_cons_self rfl).1 (by decide)

end MoqLiveCast
