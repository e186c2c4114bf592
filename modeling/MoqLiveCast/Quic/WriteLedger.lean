import MoqLiveCast.Quic.StreamReset
import MoqLiveCast.Quic.WriteSuccess
/-!
# WriteLedger — what the calls of the stream layer do to the writes

A write callback that waits goes on waiting or is called back, whatever is called; only a write adds one, unless it is
turned away for back-pressure (`quicStreamWrite_ledger`, `streamStep_ledger`).
-/
namespace MoqLiveCast

def EndedAt (sid : Nat) (ctx : QuicStreamCtx) : Prop := ∃ s ∈ streamFind ctx sid, SendEnded s

instance (sid : Nat) (ctx : QuicStreamCtx) : Decidable (EndedAt sid ctx) := inferInstanceAs (Decidable (∃ _ ∈ _, _))

/-- The write callbacks called and waiting are the same, with `d` more; the stream `sid` keeps its record, and its end. -/
structure WritesKept (sid : Nat) (d : Nat → Nat) (ctx ctx' : QuicStreamCtx) : Prop where
  known : (streamFind ctx sid).isSome → (streamFind ctx' sid).isSome
  ended : EndedAt sid ctx → EndedAt sid ctx'
  ledger : (ctx.streams.map QuicStream.streamId).Nodup → ∀ u,
    calledBack u ctx'.trace + pendingFor u ctx'.streams = calledBack u ctx.trace + pendingFor u ctx.streams + d u

structure WriteSide (sid : Nat) (d : Nat → Nat) (s : QuicStream) (ctx : QuicStreamCtx) (s' : QuicStream)
    (ctx' : QuicStreamCtx) : Prop where
  id : s'.streamId = s.streamId
  streams : ctx'.streams = ctx.streams
  ended : s.streamId = sid → SendEnded s → SendEnded s'
  ledger : ∀ u, calledBack u ctx'.trace + reqsFor u s'.writeReqs = calledBack u ctx.trace + reqsFor u s.writeReqs + d u

abbrev noCallback : Nat → Nat := fun _ => 0

def SameWrites (s s' : QuicStream) : Prop :=
  s'.streamId = s.streamId ∧ s'.sendState = s.sendState ∧ s'.writeReqs = s.writeReqs

theorem calledBack_same {tr tr' : List Effect} (h : CallsNone tr tr') (u : Nat) : calledBack u tr' = calledBack u tr := by
  obtain ⟨l, rfl, hl⟩ := h
  rw [calledBack_append, calledBack_eq_zero fun e he => hl e he u, Nat.add_zero]

section Kept

variable {sid : Nat} {d : Nat → Nat} {ctx ctx' ctx'' : QuicStreamCtx} {s s' s'' : QuicStream}

theorem WritesKept.refl (sid : Nat) (ctx : QuicStreamCtx) : WritesKept sid noCallback ctx ctx :=
  ⟨fun h => h, fun h => h, fun _ _ => rfl⟩

theorem WritesKept.trans (h1 : WritesKept sid d ctx ctx') (h2 : WritesKept sid noCallback ctx' ctx'') (hn :
    (ctx.streams.map QuicStream.streamId).Nodup → (ctx'.streams.map QuicStream.streamId).Nodup) : WritesKept sid d ctx ctx'' := by
  refine ⟨fun h => h2.known (h1.known h), fun h => h2.ended (h1.ended h), fun hnd u => ?_⟩
  have hfirst := h1.ledger hnd u
  have hsecond : calledBack u ctx''.trace + pendingFor u ctx''.streams = _ + 0 := h2.ledger (hn hnd) u
  omega

theorem writesKept_same (sid : Nat) (hs : ctx'.streams = ctx.streams) (ht : CallsNone ctx.trace ctx'.trace) :
    WritesKept sid noCallback ctx ctx' := by
  have hfind : streamFind ctx' sid = streamFind ctx sid := by
    unfold streamFind
    rw [hs]
  refine ⟨fun h => ?_, fun h => ?_, fun _ u => ?_⟩
  · rw [hfind]
    exact h
  · unfold EndedAt
    rw [hfind]
    exact h
  · rw [calledBack_same ht, hs]
    rfl

theorem WriteSide.trans (h1 : WriteSide sid d s ctx s' ctx') (h2 : WriteSide sid noCallback s' ctx' s'' ctx'') :
    WriteSide sid d s ctx s'' ctx'' := by
  refine ⟨h2.id.trans h1.id, h2.streams.trans h1.streams, fun hid he => ?_, fun u => ?_⟩
  · exact h2.ended (h1.id.trans hid) (h1.ended hid he)
  · have hfirst := h1.ledger u
    have hsecond : calledBack u ctx''.trace + reqsFor u s''.writeReqs = _ + 0 := h2.ledger u
    omega

theorem writeSide_same (sid : Nat) (h : SameWrites s s') (hs : ctx'.streams = ctx.streams)
    (ht : CallsNone ctx.trace ctx'.trace) : WriteSide sid noCallback s ctx s' ctx' := by
  refine ⟨h.1, hs, fun _ he => ?_, fun u => ?_⟩
  · unfold SendEnded
    rw [h.2.1]
    exact he
  · rw [calledBack_same ht, h.2.2]
    rfl

theorem WriteSide.kept (h : WriteSide sid d s ctx s' ctx') (hfind : streamFind ctx s.streamId = some s) :
    WritesKept sid d ctx (setStream ctx' s') := by
  have hfind' : streamFind ctx' s'.streamId = some s := by
    unfold streamFind
    rw [h.streams, h.id]
    exact hfind
  have hother : sid ≠ s'.streamId → streamFind (setStream ctx' s') sid = streamFind ctx sid := fun hne => by
    rw [streamFind_setStream_ne hne]
    unfold streamFind
    rw [h.streams]
  refine ⟨fun hk => ?_, fun he => ?_, fun hn u => ?_⟩
  · by_cases hid : sid = s'.streamId
    · rw [hid, streamFind_setStream_self hfind']
      rfl
    · rw [hother hid]
      exact hk
  · by_cases hid : sid = s'.streamId
    · obtain ⟨t, ht, het⟩ := he
      have hts : t = s := by
        have ht : streamFind ctx sid = some t := ht
        rw [hid, h.id, hfind] at ht
        exact (Option.some.inj ht).symm
      subst hts
      refine ⟨s', ?_, h.ended (h.id.symm.trans hid.symm) het⟩
      rw [hid, streamFind_setStream_self hfind']
      rfl
    · unfold EndedAt
      rw [hother hid]
      exact he
  · have hstore := sum_store QuicStream.streamId (fun s => reqsFor u s.writeReqs) (l := ctx'.streams)
      (by rw [h.streams]; exact hn) hfind'
    have hone := h.ledger u
    rw [h.streams] at hstore
    show calledBack u ctx'.trace + pendingFor u (store QuicStream.streamId s' ctx'.streams) = _
    rw [h.streams]
    unfold pendingFor
    omega

theorem writesKept_findOrCreate (sid : Nat) (ctx : QuicStreamCtx) (id : Nat) :
    WritesKept sid noCallback ctx (streamFindOrCreate ctx id).2 := by
  cases hf : streamFind ctx id with
  | some s =>
    have hsame : (streamFindOrCreate ctx id).2 = ctx := by
      unfold streamFindOrCreate
      rw [hf]
    rw [hsame]
    exact WritesKept.refl sid ctx
  | none =>
    have hne : (streamFind ctx sid).isSome → sid ≠ id := by
      rintro hk rfl
      rw [hf] at hk
      cases hk
    refine ⟨fun hk => ?_, fun he => ?_, fun _ u => ?_⟩
    · rw [streamFindOrCreate_find_ne ctx (hne hk)]
      exact hk
    · obtain ⟨s, hs, hes⟩ := he
      refine ⟨s, ?_, hes⟩
      rw [streamFindOrCreate_find_ne ctx (hne (Option.isSome_of_mem hs))]
      exact hs
    · have hnew : (streamFindOrCreate ctx id).2.streams = ctx.streams ++ [newStream ctx id] := by
        unfold streamFindOrCreate
        rw [hf]
      rw [streamFindOrCreate_trace, hnew]
      simp [pendingFor, newStream, reqsFor]

theorem opened_writesKept (sid : Nat) (ctx : QuicStreamCtx) (id : Nat) (g : QuicStream → QuicStream) (hid : ∀ s, (g s).streamId =
    s.streamId) (hreqs : ∀ s, (g s).writeReqs = s.writeReqs) (hended : id = sid → EndedAt sid ctx → SendEnded (streamFindOrCreate
    ctx id).1 → SendEnded (g (streamFindOrCreate ctx id).1)) : WritesKept sid noCallback ctx (setStream (streamFindOrCreate ctx
    id).2 (g (streamFindOrCreate ctx id).1)) := by
  have hopen := writesKept_findOrCreate sid ctx id
  have hsome := streamFindOrCreate_find ctx id
  have hsid := streamFindOrCreate_id ctx id
  have hnd := (recvKept_findOrCreate sid ctx id).nodup
  have hnew : SendEnded (streamFindOrCreate ctx id).1 → id = sid → EndedAt sid ctx := by
    rintro he rfl
    cases hf : streamFind ctx id with
    | some s =>
      refine ⟨s, hf, ?_⟩
      simpa [streamFindOrCreate, hf] using he
    | none => simp [streamFindOrCreate, hf, newStream, SendEnded] at he
  generalize streamFindOrCreate ctx id = r at hopen hsome hsid hnd hnew hended ⊢
  refine hopen.trans (WriteSide.kept (s := r.1) ⟨hid r.1, rfl, fun he hse => ?_, fun u => ?_⟩ ?_) hnd
  · have heq := hsid.symm.trans he
    exact hended heq (hnew hse heq) hse
  · rw [hreqs]
    rfl
  · rw [hsid]
    exact hsome

end Kept

/-! ## Sending -/

section Sending

variable (q : QueueFn) (sid : Nat)

theorem Idle.sendState {s s' : QuicStream} {ctx ctx' : QuicStreamCtx} (h : Idle s ctx s' ctx') : s'.sendState = s.sendState := by
  have hs := h.stream
  unfold SameSend at hs
  rw [hs]

variable (s : QuicStream)

theorem maybeNotifyWritable_writeSide (ctx : QuicStreamCtx) :
    WriteSide sid noCallback s ctx (maybeNotifyWritable s ctx).1 (maybeNotifyWritable s ctx).2 := by
  have h := maybeNotifyWritable_reqs s ctx
  exact writeSide_same sid ⟨h.id, (maybeNotifyWritable_idle s ctx).sendState, h.reqs⟩ h.streams h.adds

theorem consumeSendBuf_writeSide (ctx : QuicStreamCtx) :
    WriteSide sid noCallback s ctx (consumeSendBuf q s ctx).1 (consumeSendBuf q s ctx).2 := by
  have h := consumeLoop_reqs q s.sendBufLen s ctx
  have hstate : (consumeSendBuf q s ctx).1.sendState = s.sendState := by
    apply consumeLoop_inv q (fun s1 _ => s1.sendState = s.sendState)
    · intro s1 c1 s2 c2 hi h
      exact hi.sendState.trans h
    · intro s1 c1 _ h
      exact h
    · intro s1 c1 _ _ _ _ h
      exact h
    · intro s1 c1 _ _ _ _ h
      exact h
    · exact Nat.le_refl _
    · rfl
  exact writeSide_same sid ⟨h.id, hstate, h.reqs⟩ h.streams h.adds

theorem reqFireCompletedLoop_ledger (id acked u : Nat) : ∀ (reqs : List QuicStreamWriteReq) (ctx : QuicStreamCtx),
    (reqFireCompletedLoop id acked reqs ctx).2.streams = ctx.streams ∧
      calledBack u (reqFireCompletedLoop id acked reqs ctx).2.trace +
          reqsFor u (reqFireCompletedLoop id acked reqs ctx).1 = calledBack u ctx.trace + reqsFor u reqs
  | [], ctx => ⟨rfl, rfl⟩
  | r :: rs, ctx => by
    unfold reqFireCompletedLoop
    split
    · exact ⟨rfl, rfl⟩
    · obtain ⟨hs, hl⟩ := reqFireCompletedLoop_ledger id acked u rs (ctx.call (.writeDone id 0 r.length r.userData))
      refine ⟨hs, hl.trans ?_⟩
      rw [QuicStreamCtx.call_trace, calledBack_append, reqsFor_cons]
      simp only [calledBack, List.countP_singleton, Effect.isDone, decide_eq_true_eq]
      omega

theorem reqExpire_ledger (id now u : Nat) : ∀ (reqs : List QuicStreamWriteReq) (ctx : QuicStreamCtx),
    (reqExpire id now reqs ctx).2.streams = ctx.streams ∧
      calledBack u (reqExpire id now reqs ctx).2.trace + reqsFor u (reqExpire id now reqs ctx).1 =
        calledBack u ctx.trace + reqsFor u reqs
  | [], ctx => ⟨rfl, rfl⟩
  | r :: rs, ctx => by
    unfold reqExpire
    split
    · obtain ⟨hs, hl⟩ := reqExpire_ledger id now u rs (ctx.call (.writeDone id (-2) r.length r.userData))
      refine ⟨hs, hl.trans ?_⟩
      rw [QuicStreamCtx.call_trace, calledBack_append, reqsFor_cons]
      simp only [calledBack, List.countP_singleton, Effect.isDone, decide_eq_true_eq]
      omega
    · exact ⟨rfl, rfl⟩

theorem reqFailAll_ledger (id : Nat) (retCode : Int) (u : Nat) : ∀ (reqs : List QuicStreamWriteReq) (ctx : QuicStreamCtx),
    (reqs.foldl (fun ctx r => ctx.call (.writeDone id retCode 0 r.userData)) ctx).streams = ctx.streams ∧
      calledBack u (reqs.foldl (fun ctx r => ctx.call (.writeDone id retCode 0 r.userData)) ctx).trace =
        calledBack u ctx.trace + reqsFor u reqs
  | [], ctx => ⟨rfl, rfl⟩
  | r :: rs, ctx => by
    obtain ⟨hs, hl⟩ := reqFailAll_ledger id retCode u rs (ctx.call (.writeDone id retCode 0 r.userData))
    rw [List.foldl_cons]
    refine ⟨hs, hl.trans ?_⟩
    rw [QuicStreamCtx.call_trace, calledBack_append, reqsFor_cons]
    simp only [calledBack, List.countP_singleton, Effect.isDone, decide_eq_true_eq]
    omega

theorem flushStream_writeSide (now : Nat) (s : QuicStream) (ctx : QuicStreamCtx) :
    WriteSide sid noCallback s ctx (flushStream q now s ctx).1 (flushStream q now s ctx).2 := by
  have hend : ∀ r : QuicStream × QuicStreamCtx, WriteSide sid noCallback s ctx r.1 r.2 → WriteSide sid noCallback s ctx
        (maybeNotifyWritable (reqFireCompleted r.1 r.2 r.1.sendOffset).1 (reqFireCompleted r.1 r.2 r.1.sendOffset).2).1
        (maybeNotifyWritable (reqFireCompleted r.1 r.2 r.1.sendOffset).1
          (reqFireCompleted r.1 r.2 r.1.sendOffset).2).2 := fun r hr => by
    refine (hr.trans ?_).trans (maybeNotifyWritable_writeSide sid _ _)
    have hfire := reqFireCompletedLoop_ledger r.1.streamId r.1.sendOffset
    exact ⟨rfl, (hfire 0 r.1.writeReqs r.2).1, fun _ he => he, fun u => (hfire u r.1.writeReqs r.2).2⟩
  have hexpire := reqExpire_ledger s.streamId now
  have h1 : WriteSide sid noCallback s ctx { s with writeReqs := (reqExpire s.streamId now s.writeReqs ctx).1 }
      (reqExpire s.streamId now s.writeReqs ctx).2 :=
    ⟨rfl, (hexpire 0 s.writeReqs ctx).1, fun _ he => he, fun u => (hexpire u s.writeReqs ctx).2⟩
  unfold flushStream
  dsimp only at h1 ⊢
  split
  · exact hend _ (h1.trans (consumeSendBuf_writeSide q sid _ _))
  · exact hend _ (h1.trans (maybeNotifyWritable_writeSide sid _ _))

/-- A write that was taken, or turned down because the stream has ended or is unknown, owes its callback. -/
def writeOwes (cb : Option Nat) (ret : Int) (u : Nat) : Nat := if cb = some u ∧ ret ≠ 1 then 1 else 0

variable (ctx : QuicStreamCtx)

theorem quicStreamWrite_ledger (id : Nat) (data : List Byte) (fin : Bool) (cb : Option Nat) (timeoutMs now : Nat) :
    WritesKept sid (writeOwes cb (quicStreamWrite q ctx id data fin cb timeoutMs now).1) ctx (quicStreamWrite q ctx id data fin cb
    timeoutMs now).2 := by
  have hfail : WritesKept sid (writeOwes cb (-1)) ctx (writeFail ctx id cb) := by
    cases cb with
    | none =>
      have hnone : writeOwes none (-1) = noCallback := funext fun u => by simp [writeOwes]
      rw [hnone]
      exact WritesKept.refl sid ctx
    | some userData =>
      refine ⟨fun h => h, fun h => h, fun _ u => ?_⟩
      show calledBack u (ctx.trace ++ [_]) + pendingFor u ctx.streams = _
      rw [calledBack_append]
      simp only [calledBack, List.countP_singleton, Effect.isDone, decide_eq_true_eq, writeOwes, Option.some.injEq]
      split <;> simp_all
      omega
  unfold quicStreamWrite
  cases hs : streamFind ctx id with
  | none => exact hfail
  | some s =>
    have hid := streamFind_id hs
    rw [← hid] at hs
    dsimp only
    split
    · exact hfail
    · next htaking =>
      split
      · have hnone : writeOwes cb 1 = noCallback := funext fun u => by simp [writeOwes]
        rw [hnone]
        refine WriteSide.kept (s := s) ?_ hs
        exact writeSide_same sid ⟨rfl, rfl, rfl⟩ rfl (Adds.refl _ _)
      · have happend : WriteSide sid (writeOwes cb 0) s ctx (writeAppend s data fin cb timeoutMs now) ctx := by
          refine ⟨(writeAppend_appends s data fin cb timeoutMs now).id, rfl, fun _ he => absurd he htaking, fun u => ?_⟩
          rw [writeAppend_reqs]
          simp only [writeOwes]
          split <;> simp_all
          omega
        have hsend := happend.trans (consumeSendBuf_writeSide q sid _ ctx)
        exact (hsend.trans (maybeNotifyWritable_writeSide sid _ _)).kept hs

theorem quicStreamSend_ledger (id : Nat) (data : List Byte) (fin : Bool) :
    WritesKept sid noCallback ctx (quicStreamSend q ctx id data fin).2 := by
  have hblocked : ∀ f, WritesKept sid noCallback ctx (ctx.queueFn q f).flushFn := fun f =>
    writesKept_same sid rfl ((queueFn_callsNone q (Adds.refl _ _) f).call fun _ => rfl)
  unfold quicStreamSend
  cases hs : streamFind ctx id with
  | none => exact WritesKept.refl sid ctx
  | some s =>
    have hid := streamFind_id hs
    rw [← hid] at hs
    have hframes : WriteSide sid noCallback s ctx (sendFrames q s ctx data fin).2.1 (sendFrames q s ctx data fin).2.2 := by
      have h := sendFrames_inv q (fun s1 c1 => SameWrites s s1 ∧ c1.streams = ctx.streams ∧ CallsNone ctx.trace c1.trace)
        (fun _ _ _ _ _ h => ⟨h.1, h.2.1, queueFn_callsNone q h.2.2 _⟩) (fun _ _ _ _ h => ⟨h.1, h.2.1, queueFn_callsNone q h.2.2 _⟩)
        data fin (show SameWrites s s ∧ ctx.streams = ctx.streams ∧ CallsNone ctx.trace ctx.trace from ⟨⟨rfl, rfl, rfl⟩, rfl, Adds.refl _ _⟩)
      exact writeSide_same sid h.1 h.2.1 h.2.2
    dsimp only
    split
    · exact WritesKept.refl sid ctx
    · next htaking =>
      split
      · exact hblocked _
      · split
        · exact hblocked _
        · split
          · exact hframes.kept hs
          · refine WriteSide.kept (s := s) ⟨?_, hframes.streams, fun _ he => absurd he htaking, fun u => ?_⟩ hs
            · refine Eq.trans ?_ hframes.id
              split
              · rfl
              · split <;> rfl
            · refine Eq.trans ?_ (hframes.ledger u)
              split
              · rfl
              · split <;> rfl

theorem quicStreamCloseSend_ledger (id : Nat) : WritesKept sid noCallback ctx (quicStreamCloseSend q ctx id) := by
  unfold quicStreamCloseSend
  cases hs : streamFind ctx id with
  | none => exact WritesKept.refl sid ctx
  | some s =>
    have hid := streamFind_id hs
    rw [← hid] at hs
    have hclosed : ∀ c : QuicStreamCtx, c.streams = ctx.streams → CallsNone ctx.trace c.trace →
        WritesKept sid noCallback ctx (setStream c { s with sendState := .dataSent }) := fun c hc ht =>
      WriteSide.kept (s := s) ⟨rfl, hc, fun _ _ => .inr rfl, fun u => by rw [calledBack_same ht]; rfl⟩ hs
    dsimp only
    split
    · exact WritesKept.refl sid ctx
    · split
      · exact hclosed _ rfl ((queueFn_callsNone q (Adds.refl _ _) _).call fun _ => rfl)
      · exact hclosed _ rfl (Adds.refl _ _)

theorem quicStreamReset_ledger (id errorCode : Nat) : WritesKept sid noCallback ctx (quicStreamReset q ctx id errorCode).2 := by
  unfold quicStreamReset
  cases hs : streamFind ctx id with
  | none => exact WritesKept.refl sid ctx
  | some s =>
    have hid := streamFind_id hs
    rw [← hid] at hs
    have hfail := reqFailAll_ledger s.streamId (resetRetCode errorCode)
    have hframe : CallsNone ctx.trace ((ctx.queueFn q (.resetStream id errorCode s.sendOffset)).flushFn).trace :=
      (queueFn_callsNone q (Adds.refl _ _) _).call fun _ => rfl
    refine WriteSide.kept (s := s) ⟨rfl, ?_, fun _ _ => .inl rfl, fun u => ?_⟩ hs
    · exact (hfail 0 s.writeReqs _).1
    · have hled := (hfail u s.writeReqs ((ctx.queueFn q (.resetStream id errorCode s.sendOffset)).flushFn)).2
      rw [calledBack_same hframe] at hled
      exact hled

theorem quicStreamOnStopSending_ledger (id : Nat) : WritesKept sid noCallback ctx (quicStreamOnStopSending q ctx id) := by
  unfold quicStreamOnStopSending
  split
  · exact WritesKept.refl sid ctx
  · split
    · exact quicStreamReset_ledger q sid ctx id 0
    · exact WritesKept.refl sid ctx

theorem quicStreamFlushPending_ledger (now : Nat) (hn : (ctx.streams.map QuicStream.streamId).Nodup) :
    WritesKept sid noCallback ctx (quicStreamFlushPending q ctx now) := by
  have h := flushPending_inv q (fun c => (c.streams.map QuicStream.streamId).Nodup ∧ WritesKept sid noCallback ctx c)
    (fun b h => ⟨h.1, h.2.trans (writesKept_same sid rfl (Adds.refl _ _)) fun _ => h.1⟩) now
    (fun {c s} hs h => ?_) ⟨hn, WritesKept.refl sid ctx⟩
  · exact h.2
  · have hfind := lookup_of_mem QuicStream.streamId h.1 hs
    have hturn := flushStream_writeSide q sid now s c
    refine ⟨?_, h.2.trans (hturn.kept hfind) fun _ => h.1⟩
    show ((store QuicStream.streamId _ (flushStream q now s c).2.streams).map QuicStream.streamId).Nodup
    rw [store_keys, hturn.streams]
    exact h.1

/-! ## Credit -/

theorem raiseSendMaxData_writes (lim : Nat) : SameWrites s (raiseSendMaxData s lim) := by
  unfold raiseSendMaxData SameWrites
  split <;> exact ⟨rfl, rfl, rfl⟩

theorem quicStreamOnMaxStreamData_ledger (id maxData : Nat) :
    WritesKept sid noCallback ctx (quicStreamOnMaxStreamData ctx id maxData) := by
  refine opened_writesKept sid ctx id (fun s => raiseSendMaxData s maxData) (fun s => (raiseSendMaxData_writes s _).1)
    (fun s => (raiseSendMaxData_writes s _).2.2) fun _ _ he => ?_
  unfold SendEnded
  rw [(raiseSendMaxData_writes _ _).2.1]
  exact he

theorem quicStreamApplyInitSendCredit_ledger : WritesKept sid noCallback ctx (quicStreamApplyInitSendCredit ctx) := by
  have hsame : ∀ s : QuicStream, SameWrites s (raiseSendMaxData s (peerSendCredit ctx s.streamId)) := fun s =>
    raiseSendMaxData_writes s _
  have hfind : streamFind (quicStreamApplyInitSendCredit ctx) sid =
      (streamFind ctx sid).map fun s => raiseSendMaxData s (peerSendCredit ctx s.streamId) := by
    unfold streamFind quicStreamApplyInitSendCredit
    exact lookup_map _ (fun s => (hsame s).1) sid ctx.streams
  refine ⟨fun hk => ?_, fun he => ?_, fun _ u => ?_⟩
  · rw [hfind, Option.isSome_map]
    exact hk
  · obtain ⟨s, hs, hes⟩ := he
    have hs : streamFind ctx sid = some s := hs
    refine ⟨_, by rw [hfind, hs]; rfl, ?_⟩
    unfold SendEnded
    rw [(hsame s).2.1]
    exact hes
  · have hreqs : pendingFor u (quicStreamApplyInitSendCredit ctx).streams = pendingFor u ctx.streams := by
      unfold pendingFor quicStreamApplyInitSendCredit
      rw [List.map_map]
      exact congrArg List.sum (List.map_congr_left fun s _ => by rw [Function.comp_apply, (hsame s).2.2])
    rw [hreqs]
    rfl

theorem gotTransportParams_ledger (params : List Byte) : WritesKept sid noCallback ctx (gotTransportParams ctx params) := by
  have hloop : ∀ (l : List (Nat × List Byte)) (c : QuicStreamCtx), (l.foldl setTransportParam c).streams = c.streams ∧
      (l.foldl setTransportParam c).trace = c.trace := by
    intro l
    induction l with
    | nil => exact fun c => ⟨rfl, rfl⟩
    | cons tp l ih =>
      intro c
      obtain ⟨hs, ht⟩ := setTransportParam_same c tp
      exact ⟨(ih _).1.trans hs, (ih _).2.trans ht⟩
  obtain ⟨hs, ht⟩ := hloop (transportParams params.length params) ctx
  refine (writesKept_same sid hs (ht ▸ Adds.refl _ _)).trans (quicStreamApplyInitSendCredit_ledger sid _) ?_
  rw [hs]
  exact id

/-! ## Receiving and opening -/

theorem recvFrame_writes (f : StreamFrame) (s : QuicStream) (ctx : QuicStreamCtx) : SameWrites s (recvFrame q f s ctx).1 := by
  have hnote : SameWrites s (noteFin f s) := by
    unfold noteFin
    split <;> exact ⟨rfl, rfl, rfl⟩
  have hdeliver : SameWrites s (recvDeliver f (noteFin f s) ctx).1 := by
    unfold recvDeliver
    split
    · refine (gapDrainLoop_inv (fun s1 _ => SameWrites s s1) ?_ _ _ _ (Nat.le_refl _) ?_).1
      · intro s1 c1 g t _ _ h
        unfold gapDrainOne
        split <;> exact h
      · exact hnote
    · exact hnote
  by_cases hpast : s.recvOffset < f.offset
  · obtain ⟨⟨m, hm⟩, -⟩ := recvOutOfOrder_spec q f (noteFin f s) ctx
    rw [recvFrame_past q hpast, hm]
    exact hnote
  · obtain ⟨m, c, he, -⟩ := recvInOrder_spec q f (noteFin f s) ctx
    rw [recvFrame_inOrder q (Nat.not_lt.1 hpast), he]
    unfold recvFin
    split <;> exact hdeliver

theorem quicStreamOnRecv_ledger (f : StreamFrame) : WritesKept sid noCallback ctx (quicStreamOnRecv q ctx f).2 := by
  have hrecord := writesKept_findOrCreate sid ctx f.streamId
  have hnd := (recvKept_findOrCreate sid ctx f.streamId).nodup
  have hquiet := quiet_recvOpen q ctx f.streamId
  have htrace : CallsNone (streamFindOrCreate ctx f.streamId).2.trace (recvOpen q ctx f.streamId).2.trace := by
    rw [streamFindOrCreate_trace]
    exact recvOpen_callsNone q ctx f.streamId
  have hopen : WritesKept sid noCallback ctx (recvOpen q ctx f.streamId).2 :=
    hrecord.trans (writesKept_same sid hquiet.streams htrace) hnd
  by_cases hacc : RecvAccepts ctx f
  · have hlocal := recvFrame_local q f (streamOrNew ctx f.streamId) (recvOpen q ctx f.streamId).2
    have hside := writeSide_same sid (recvFrame_writes q f (streamOrNew ctx f.streamId) (recvOpen q ctx f.streamId).2)
      hlocal.2.streams (recvFrame_callsNone q f _ _)
    have hfind : streamFind (recvOpen q ctx f.streamId).2 (streamOrNew ctx f.streamId).streamId =
        some (streamOrNew ctx f.streamId) := by
      have hsome := streamFindOrCreate_find ctx f.streamId
      have hfst : (streamFindOrCreate ctx f.streamId).1 = streamOrNew ctx f.streamId := recvOpen_fst q ctx f.streamId
      rw [streamOrNew_id, ← hfst]
      unfold streamFind at hsome ⊢
      rw [hquiet.streams]
      exact hsome
    rw [onRecv_accepts hacc]
    refine (hopen.trans (hside.kept hfind) fun hn => ?_).trans (writesKept_same sid rfl ((Adds.refl _ _).call fun _ => rfl))
      fun hn => ?_
    · rw [hquiet.streams]
      exact hnd hn
    · show ((store QuicStream.streamId _ (recvFrame q f _ _).2.streams).map QuicStream.streamId).Nodup
      rw [store_keys, hlocal.2.streams, hquiet.streams]
      exact hnd hn
  · rw [onRecv_rejects hacc]
    exact hopen

theorem quicStreamOnReset_ledger (id finalSize errorCode : Nat) :
    WritesKept sid noCallback ctx (quicStreamOnReset ctx id finalSize errorCode) := by
  have hcall : (if ctx.onStreamReset then ctx.call (.streamReset id errorCode) else ctx).streams = ctx.streams ∧
      CallsNone ctx.trace (if ctx.onStreamReset then ctx.call (.streamReset id errorCode) else ctx).trace := by
    split
    · exact ⟨rfl, (Adds.refl _ _).call fun _ => rfl⟩
    · exact ⟨rfl, Adds.refl _ _⟩
  unfold quicStreamOnReset
  cases hs : streamFind ctx id with
  | none => exact writesKept_same sid hcall.1 hcall.2
  | some s =>
    have hid := streamFind_id hs
    rw [← hid] at hs
    refine WriteSide.kept (s := s) ?_ hs
    exact writeSide_same sid ⟨rfl, rfl, rfl⟩ hcall.1 hcall.2

theorem quicStreamStopSending_ledger (id errorCode : Nat) :
    WritesKept sid noCallback ctx (quicStreamStopSending q ctx id errorCode).2 := by
  unfold quicStreamStopSending
  cases hs : streamFind ctx id with
  | none => exact WritesKept.refl sid ctx
  | some s =>
    have hid := streamFind_id hs
    rw [← hid] at hs
    have htrace : CallsNone ctx.trace ((ctx.queueFn q (.stopSending id errorCode)).flushFn).trace :=
      (queueFn_callsNone q (Adds.refl _ _) _).call fun _ => rfl
    refine WriteSide.kept (s := s) ?_ hs
    exact writeSide_same sid ⟨rfl, rfl, rfl⟩ rfl htrace

def OpensAnother (sid : Nat) (ctx : QuicStreamCtx) : StreamCall → Prop
  | .openBidi => ctx.nextLocalBidiId = sid → ¬ EndedAt sid ctx
  | .openUni => ctx.nextLocalUniId = sid → ¬ EndedAt sid ctx
  | _ => True

instance (sid : Nat) (ctx : QuicStreamCtx) (c : StreamCall) : Decidable (OpensAnother sid ctx c) := by
  unfold OpensAnother
  cases c <;> infer_instance

theorem quicStreamOpen_ledger (h : OpensAnother sid ctx .openBidi) : WritesKept sid noCallback ctx (quicStreamOpen q ctx).2 := by
  unfold quicStreamOpen
  dsimp only
  split
  · exact writesKept_same sid rfl (queueFn_callsNone q (Adds.refl _ _) _)
  · have hnext : WritesKept sid noCallback ctx { ctx with nextLocalBidiId := ctx.nextLocalBidiId + 4 } :=
      writesKept_same sid rfl (Adds.refl _ _)
    exact hnext.trans (opened_writesKept sid _ ctx.nextLocalBidiId (fun s => { s with sendState := .send }) (fun _ => rfl)
      (fun _ => rfl) fun hid he _ => absurd he (h hid)) id

theorem quicStreamOpenUni_ledger (h : OpensAnother sid ctx .openUni) :
    WritesKept sid noCallback ctx (quicStreamOpenUni q ctx).2 := by
  unfold quicStreamOpenUni
  dsimp only
  split
  · exact writesKept_same sid rfl (queueFn_callsNone q (Adds.refl _ _) _)
  · have hnext : WritesKept sid noCallback ctx { ctx with nextLocalUniId := ctx.nextLocalUniId + 4 } :=
      writesKept_same sid rfl (Adds.refl _ _)
    refine hnext.trans ?_ id
    generalize hlim : peerSendCredit (streamFindOrCreate { ctx with nextLocalUniId := ctx.nextLocalUniId + 4 }
      ctx.nextLocalUniId).2 ctx.nextLocalUniId = lim
    exact opened_writesKept sid _ ctx.nextLocalUniId
      (fun s => { s with sendState := .send, recvState := .resetRecvd, recvMaxData := 0, sendMaxData := lim })
      (fun _ => rfl) (fun _ => rfl) fun hid he _ => absurd he (h hid)

/-! ## Every call -/

def StreamCall.owes (ctx : QuicStreamCtx) : StreamCall → Nat → Nat
  | .send (.write id data fin cb timeoutMs now) => writeOwes cb (quicStreamWrite q ctx id data fin cb timeoutMs now).1
  | _ => noCallback

theorem streamStep_ledger (hn : (ctx.streams.map QuicStream.streamId).Nodup) (c : StreamCall)
    (h : OpensAnother sid ctx c) : WritesKept sid (c.owes q ctx) ctx (streamStep q ctx c) := by
  cases c with
  | send c =>
    cases c with
    | write id data fin cb timeoutMs now => exact quicStreamWrite_ledger q sid ctx id data fin cb timeoutMs now
    | send id data fin => exact quicStreamSend_ledger q sid ctx id data fin
    | closeSend id => exact quicStreamCloseSend_ledger q sid ctx id
    | reset id errorCode => exact quicStreamReset_ledger q sid ctx id errorCode
    | onStopSending id => exact quicStreamOnStopSending_ledger q sid ctx id
    | flushPending now => exact quicStreamFlushPending_ledger q sid ctx now hn
    | onMaxData maxData =>
      show WritesKept sid noCallback ctx (quicStreamOnMaxData ctx maxData)
      unfold quicStreamOnMaxData
      split
      · exact writesKept_same sid rfl (Adds.refl _ _)
      · exact WritesKept.refl sid ctx
    | onMaxStreamData id maxData => exact quicStreamOnMaxStreamData_ledger sid ctx id maxData
    | applyInitSendCredit => exact quicStreamApplyInitSendCredit_ledger sid ctx
  | openBidi => exact quicStreamOpen_ledger q sid ctx h
  | openUni => exact quicStreamOpenUni_ledger q sid ctx h
  | stopSending id errorCode => exact quicStreamStopSending_ledger q sid ctx id errorCode
  | handshakeDone => exact writesKept_same sid rfl ((Adds.refl _ _).call fun _ => rfl)
  | onRecv f => exact quicStreamOnRecv_ledger q sid ctx f
  | onReset id finalSize errorCode => exact quicStreamOnReset_ledger sid ctx id finalSize errorCode
  | onMaxStreams maxStreams bidi =>
    show WritesKept sid noCallback ctx (quicStreamOnMaxStreams ctx maxStreams bidi)
    unfold quicStreamOnMaxStreams
    split <;> exact writesKept_same sid rfl (Adds.refl _ _)
  | onStreamsBlocked maxStreams bidi =>
    exact writesKept_same sid (quiet_grantCredit q ctx bidi).streams (quicStreamGrantCredit_callsNone q ctx bidi)
  | transportParams params => exact gotTransportParams_ledger sid ctx params

end Sending
end MoqLiveCast
