import MoqLiveCast.Quic.StreamRecvStep
import MoqLiveCast.Quic.StreamSendData
/-!
# StreamRecvKept — what the other calls leave of the receive side

Only `quic_stream_on_recv` and `quic_stream_on_reset` move `recv_offset`, and only the first delivers data; every other
call of the stream layer keeps both for every stream (`RecvKept`).
-/
namespace MoqLiveCast

def recvOffsetOf (ctx : QuicStreamCtx) (sid : Nat) : Option Nat := (streamFind ctx sid).map QuicStream.recvOffset

/-- Nothing is delivered for the stream `sid`, and its record keeps `recv_offset`. -/
structure RecvKept (sid : Nat) (ctx ctx' : QuicStreamCtx) : Prop where
  nodup : (ctx.streams.map QuicStream.streamId).Nodup → (ctx'.streams.map QuicStream.streamId).Nodup
  offset : ∀ r, recvOffsetOf ctx sid = some r → recvOffsetOf ctx' sid = some r
  data : streamData sid ctx'.trace = streamData sid ctx.trace
  onStreamData : ctx'.onStreamData = ctx.onStreamData

structure SendSide (s : QuicStream) (ctx : QuicStreamCtx) (s' : QuicStream) (ctx' : QuicStreamCtx) : Prop where
  id : s'.streamId = s.streamId
  recvOffset : s'.recvOffset = s.recvOffset
  quiet : Quiet ctx ctx'

section Kept

variable {sid : Nat} {ctx ctx' ctx'' : QuicStreamCtx} {s s' s'' : QuicStream}

theorem RecvKept.refl (sid : Nat) (ctx : QuicStreamCtx) : RecvKept sid ctx ctx := ⟨id, fun _ => id, rfl, rfl⟩

theorem RecvKept.trans (h1 : RecvKept sid ctx ctx') (h2 : RecvKept sid ctx' ctx'') : RecvKept sid ctx ctx'' :=
  ⟨h2.nodup ∘ h1.nodup, fun r h => h2.offset r (h1.offset r h), h2.data.trans h1.data,
    h2.onStreamData.trans h1.onStreamData⟩

theorem Quiet.kept (h : Quiet ctx ctx') (sid : Nat) : RecvKept sid ctx ctx' := by
  refine ⟨?_, fun r hr => ?_, h.data sid, h.onStreamData⟩
  · rw [h.streams]
    exact id
  · unfold recvOffsetOf streamFind at hr ⊢
    rw [h.streams]
    exact hr

theorem RecvKept.set (h : RecvKept sid ctx ctx') (hstreams : ctx'.streams = ctx.streams)
    (hfind : streamFind ctx s.streamId = some s) (hid : s'.streamId = s.streamId)
    (hoff : s.streamId = sid → s'.recvOffset = s.recvOffset) : RecvKept sid ctx (setStream ctx' s') := by
  refine ⟨fun hn => ?_, fun r hr => ?_, h.data, h.onStreamData⟩
  · show ((store QuicStream.streamId s' ctx'.streams).map QuicStream.streamId).Nodup
    rw [store_keys]
    exact h.nodup hn
  · have hfind' : streamFind ctx' s'.streamId = some s := by
      unfold streamFind
      rw [hstreams, hid]
      exact hfind
    by_cases hsid : sid = s'.streamId
    · have hown : s.streamId = sid := hid.symm.trans hsid.symm
      rw [← hown] at hr
      unfold recvOffsetOf at hr ⊢
      rw [hsid, streamFind_setStream_self hfind']
      rw [hfind] at hr
      rw [Option.map_some, hoff hown]
      exact hr
    · unfold recvOffsetOf
      rw [streamFind_setStream_ne hsid]
      exact h.offset r hr

theorem recvKept_findOrCreate (sid : Nat) (ctx : QuicStreamCtx) (id : Nat) : RecvKept sid ctx (streamFindOrCreate ctx id).2 := by
  refine ⟨fun hn => ?_, fun r hr => ?_, by rw [streamFindOrCreate_trace], streamFindOrCreate_onStreamData ctx id⟩
  · unfold streamFindOrCreate
    split
    · exact hn
    · next hnone =>
      rw [List.map_append, List.map_singleton]
      refine List.nodup_append.2 ⟨hn, List.pairwise_singleton _ _, fun a ha b hb => ?_⟩
      obtain ⟨x, hx, rfl⟩ := List.mem_map.1 ha
      rw [List.mem_singleton.1 hb]
      exact (lookup_eq_none_iff _).1 hnone x hx
  · unfold recvOffsetOf at hr ⊢
    by_cases hid : sid = id
    · subst hid
      unfold streamFindOrCreate
      split
      · exact hr
      · next hnone =>
        rw [hnone] at hr
        cases hr
    · rw [streamFindOrCreate_find_ne ctx hid]
      exact hr

theorem SendSide.refl (s : QuicStream) (ctx : QuicStreamCtx) : SendSide s ctx s ctx := ⟨rfl, rfl, Quiet.refl ctx⟩

theorem SendSide.trans (h1 : SendSide s ctx s' ctx') (h2 : SendSide s' ctx' s'' ctx'') : SendSide s ctx s'' ctx'' :=
  ⟨h2.id.trans h1.id, h2.recvOffset.trans h1.recvOffset, h1.quiet.trans h2.quiet⟩

theorem SendSide.kept (h : SendSide s ctx s' ctx') (hfind : streamFind ctx s.streamId = some s) (sid : Nat) :
    RecvKept sid ctx (setStream ctx' s') :=
  (h.quiet.kept sid).set h.quiet.streams hfind h.id fun _ => h.recvOffset

theorem Idle.sendSide (h : Idle s ctx s' ctx') : SendSide s ctx s' ctx' := by
  have hs := h.stream
  unfold SameSend at hs
  refine ⟨by rw [hs], by rw [hs], by rw [h.same], fun sid => ?_, by rw [h.same], by rw [h.same]⟩
  obtain ⟨l, hl, hall⟩ := h.adds
  rw [hl, streamData_append]
  have hnone : streamData sid l = [] := List.filterMap_eq_nil_iff.2 fun e he => by
    have haside := hall e he
    cases e with
    | streamData => exact haside.elim
    | _ => rfl
  rw [hnone, List.append_nil]

theorem SendSide.queueFn (q : QueueFn) (h : SendSide s ctx s' ctx') (f : Frame) : SendSide s ctx s' (ctx'.queueFn q f) :=
  ⟨h.id, h.recvOffset, h.quiet.queueFn q f⟩

theorem SendSide.flushFn (h : SendSide s ctx s' ctx') : SendSide s ctx s' ctx'.flushFn :=
  ⟨h.id, h.recvOffset, h.quiet.trans ⟨rfl, fun sid => streamData_flushFn sid ctx', rfl, rfl⟩⟩

theorem SendSide.addSent (h : SendSide s ctx s' ctx') (n : Nat) : SendSide s ctx s' (ctx'.addSent n) :=
  ⟨h.id, h.recvOffset, h.quiet.trans ⟨rfl, fun _ => rfl, rfl, rfl⟩⟩

theorem SendSide.sets (h : SendSide s ctx s' ctx') (hid : s''.streamId = s'.streamId)
    (hoff : s''.recvOffset = s'.recvOffset) : SendSide s ctx s'' ctx' := ⟨hid.trans h.id, hoff.trans h.recvOffset, h.quiet⟩

theorem consumeSendBuf_sendSide (q : QueueFn) (s : QuicStream) (ctx : QuicStreamCtx) :
    SendSide s ctx (consumeSendBuf q s ctx).1 (consumeSendBuf q s ctx).2 := by
  apply consumeLoop_inv q (SendSide s ctx)
  · intro s1 c1 s2 c2 hi h
    exact h.trans hi.sendSide
  · intro s1 c1 _ h
    exact h.sets rfl rfl
  · intro s1 c1 _ _ _ _ h
    exact ((h.queueFn q _).addSent _).sets rfl rfl
  · intro s1 c1 _ _ _ _ h
    exact h.queueFn q _
  · exact Nat.le_refl _
  · exact SendSide.refl s ctx

theorem sendFrames_sendSide (q : QueueFn) (s : QuicStream) (ctx : QuicStreamCtx) (data : List Byte) (fin : Bool) :
    SendSide s ctx (sendFrames q s ctx data fin).2.1 (sendFrames q s ctx data fin).2.2 := by
  apply sendFrames_inv q (SendSide s ctx) _ _ data fin (SendSide.refl s ctx)
  · intro s1 c1 fin bytes _ _ _ h
    exact ((h.queueFn q _).addSent _).sets rfl rfl
  · intro s1 c1 fin bytes _ _ h
    exact h.queueFn q _

theorem flushStream_sendSide (q : QueueFn) (now : Nat) (s : QuicStream) (ctx : QuicStreamCtx) :
    SendSide s ctx (flushStream q now s ctx).1 (flushStream q now s ctx).2 := by
  apply flushStream_inv (P := SendSide s ctx) q
  · intro s1 c1 s2 c2 hi h
    exact h.trans hi.sendSide
  · intro s1 c1 h
    exact h.trans (consumeSendBuf_sendSide q s1 c1)
  · exact SendSide.refl s ctx

theorem writeAppend_sendSide (s : QuicStream) (ctx : QuicStreamCtx) (data : List Byte) (fin : Bool) (cb : Option Nat)
    (timeoutMs now : Nat) : SendSide s ctx (writeAppend s data fin cb timeoutMs now) ctx := by
  refine (SendSide.refl s ctx).sets (writeAppend_appends s data fin cb timeoutMs now).id ?_
  have hreq : (writeRequest s data.length cb timeoutMs now).recvOffset = s.recvOffset := by
    cases cb <;> rfl
  unfold writeAppend
  rw [writeFlags_eq]
  show (sendBufAppend _ data).recvOffset = s.recvOffset
  rw [← hreq]
  generalize writeRequest s data.length cb timeoutMs now = s1
  unfold sendBufAppend
  split
  · rfl
  · have hsame := (sendBufEnsure_spec s1 (s1.sendBufLen + data.length)).2.2
    show (sendBufEnsure s1 (s1.sendBufLen + data.length)).recvOffset = s1.recvOffset
    rw [hsame]

theorem recvKept_call (sid : Nat) (ctx : QuicStreamCtx) {e : Effect} (he : streamData sid [e] = []) :
    RecvKept sid ctx (ctx.call e) := by
  refine ⟨id, fun _ => id, ?_, rfl⟩
  rw [QuicStreamCtx.call_trace, streamData_append, he, List.append_nil]

theorem RecvKept.ite {p : Prop} [Decidable p] (h1 : RecvKept sid ctx ctx') (h2 : RecvKept sid ctx ctx'') :
    RecvKept sid ctx (if p then ctx' else ctx'') := by
  split
  · exact h1
  · exact h2

theorem recvKept_same (sid : Nat) (hs : ctx'.streams = ctx.streams) (ht : ctx'.trace = ctx.trace)
    (hon : ctx'.onStreamData = ctx.onStreamData) : RecvKept sid ctx ctx' := by
  refine ⟨?_, fun r hr => ?_, by rw [ht], hon⟩
  · rw [hs]
    exact id
  · unfold recvOffsetOf streamFind at hr ⊢
    rw [hs]
    exact hr

end Kept

/-! ## The calls -/

section Calls

variable (q : QueueFn) (sid : Nat) (ctx : QuicStreamCtx)

theorem quicStreamWrite_kept (id : Nat) (data : List Byte) (fin : Bool) (cb : Option Nat) (timeoutMs now : Nat) :
    RecvKept sid ctx (quicStreamWrite q ctx id data fin cb timeoutMs now).2 := by
  have hfail : RecvKept sid ctx (writeFail ctx id cb) := by
    cases cb with
    | none => exact RecvKept.refl sid ctx
    | some userData => exact recvKept_call sid ctx rfl
  unfold quicStreamWrite
  cases hs : streamFind ctx id with
  | none => exact hfail
  | some s =>
    have hid := streamFind_id hs
    rw [← hid] at hs
    dsimp only
    split
    · exact hfail
    · split
      · refine SendSide.kept ?_ hs sid
        exact ⟨rfl, rfl, Quiet.refl ctx⟩
      · have happ := writeAppend_sendSide s ctx data fin cb timeoutMs now
        have hsend := happ.trans (consumeSendBuf_sendSide q _ ctx)
        exact (hsend.trans (maybeNotifyWritable_idle _ _).sendSide).kept hs sid

theorem quicStreamSend_kept (id : Nat) (data : List Byte) (fin : Bool) :
    RecvKept sid ctx (quicStreamSend q ctx id data fin).2 := by
  unfold quicStreamSend
  cases hs : streamFind ctx id with
  | none => exact RecvKept.refl sid ctx
  | some s =>
    have hid := streamFind_id hs
    rw [← hid] at hs
    have hsend := sendFrames_sendSide q s ctx data fin
    dsimp only
    split
    · exact RecvKept.refl sid ctx
    · split
      · exact (((SendSide.refl s ctx).queueFn q _).flushFn).quiet.kept sid
      · split
        · exact (((SendSide.refl s ctx).queueFn q _).flushFn).quiet.kept sid
        · split
          · exact hsend.kept hs sid
          · refine SendSide.kept (s := s) (hsend.sets ?_ ?_) hs sid
            all_goals
              split
              · rfl
              · split <;> rfl

theorem quicStreamCloseSend_kept (id : Nat) : RecvKept sid ctx (quicStreamCloseSend q ctx id) := by
  unfold quicStreamCloseSend
  cases hs : streamFind ctx id with
  | none => exact RecvKept.refl sid ctx
  | some s =>
    have hid := streamFind_id hs
    rw [← hid] at hs
    dsimp only
    split
    · exact RecvKept.refl sid ctx
    · split
      · refine SendSide.kept ?_ hs sid
        exact ⟨rfl, rfl, (((SendSide.refl s ctx).queueFn q _).flushFn).quiet⟩
      · refine SendSide.kept ?_ hs sid
        exact ⟨rfl, rfl, Quiet.refl ctx⟩

theorem quicStreamReset_kept (id errorCode : Nat) : RecvKept sid ctx (quicStreamReset q ctx id errorCode).2 := by
  unfold quicStreamReset
  cases hs : streamFind ctx id with
  | none => exact RecvKept.refl sid ctx
  | some s =>
    have hid := streamFind_id hs
    rw [← hid] at hs
    have hframe : SendSide s ctx { s with sendState := .resetSent }
        ((ctx.queueFn q (.resetStream id errorCode s.sendOffset)).flushFn) :=
      (((SendSide.refl s ctx).queueFn q _).flushFn).sets rfl rfl
    exact (hframe.trans (reqFailAll_idle _ (resetRetCode errorCode) _).sendSide).kept hs sid

theorem quicStreamOnStopSending_kept (id : Nat) : RecvKept sid ctx (quicStreamOnStopSending q ctx id) := by
  unfold quicStreamOnStopSending
  split
  · exact RecvKept.refl sid ctx
  · exact RecvKept.ite (quicStreamReset_kept q sid ctx id 0) (RecvKept.refl sid ctx)

theorem quicStreamFlushPending_kept (now : Nat) (hn : (ctx.streams.map QuicStream.streamId).Nodup) :
    RecvKept sid ctx (quicStreamFlushPending q ctx now) := by
  refine flushPending_inv q (RecvKept sid ctx) (fun b h => h.trans (recvKept_same sid rfl rfl rfl)) now ?_
    (RecvKept.refl sid ctx)
  intro c s hs h
  have hfind := lookup_of_mem QuicStream.streamId (h.nodup hn) hs
  exact h.trans ((flushStream_sendSide q now s c).kept hfind sid)

theorem raiseSendMaxData_recvOffset (s : QuicStream) (lim : Nat) : (raiseSendMaxData s lim).recvOffset = s.recvOffset := by
  unfold raiseSendMaxData
  split <;> rfl

theorem opened_kept (id : Nat) (g : QuicStream → QuicStream) (hg : ∀ s, (g s).streamId = s.streamId ∧ (g s).recvOffset =
    s.recvOffset) : RecvKept sid ctx (setStream (streamFindOrCreate ctx id).2 (g (streamFindOrCreate ctx id).1)) := by
  have hfind := streamFindOrCreate_find ctx id
  have hid := streamFindOrCreate_id ctx id
  have hopen := recvKept_findOrCreate sid ctx id
  generalize streamFindOrCreate ctx id = r at hopen hfind hid ⊢
  have hfind' : streamFind r.2 r.1.streamId = some r.1 := by rw [hid]; exact hfind
  exact hopen.trans (SendSide.kept ⟨(hg r.1).1, (hg r.1).2, Quiet.refl r.2⟩ hfind' sid)

theorem quicStreamOnMaxStreamData_kept (id maxData : Nat) : RecvKept sid ctx (quicStreamOnMaxStreamData ctx id maxData) :=
  opened_kept sid ctx id (fun s => raiseSendMaxData s maxData) fun s =>
    ⟨(raiseSendMaxData_id s maxData).1, raiseSendMaxData_recvOffset s maxData⟩

theorem quicStreamApplyInitSendCredit_kept : RecvKept sid ctx (quicStreamApplyInitSendCredit ctx) := by
  have hid : ∀ s : QuicStream, (raiseSendMaxData s (peerSendCredit ctx s.streamId)).streamId = s.streamId := fun s =>
    (raiseSendMaxData_id s _).1
  refine ⟨fun hn => ?_, fun r hr => ?_, rfl, rfl⟩
  · show ((ctx.streams.map _).map QuicStream.streamId).Nodup
    rw [List.map_map, show QuicStream.streamId ∘ (fun s => raiseSendMaxData s (peerSendCredit ctx s.streamId)) =
      QuicStream.streamId from funext hid]
    exact hn
  · obtain ⟨s, hs, rfl⟩ := Option.map_eq_some_iff.1 hr
    show (lookup QuicStream.streamId sid (ctx.streams.map _)).map QuicStream.recvOffset = _
    rw [lookup_map _ hid, show lookup QuicStream.streamId sid ctx.streams = some s from hs, Option.map_some,
      Option.map_some, raiseSendMaxData_recvOffset]

theorem sendStep_kept (c : SendCall) (hn : (ctx.streams.map QuicStream.streamId).Nodup) :
    RecvKept sid ctx (sendStep q ctx c) := by
  cases c with
  | write id data fin cb timeoutMs now => exact quicStreamWrite_kept q sid ctx id data fin cb timeoutMs now
  | send id data fin => exact quicStreamSend_kept q sid ctx id data fin
  | closeSend id => exact quicStreamCloseSend_kept q sid ctx id
  | reset id errorCode => exact quicStreamReset_kept q sid ctx id errorCode
  | onStopSending id => exact quicStreamOnStopSending_kept q sid ctx id
  | flushPending now => exact quicStreamFlushPending_kept q sid ctx now hn
  | onMaxData maxData => exact RecvKept.ite (recvKept_same sid rfl rfl rfl) (RecvKept.refl sid ctx)
  | onMaxStreamData id maxData => exact quicStreamOnMaxStreamData_kept sid ctx id maxData
  | applyInitSendCredit => exact quicStreamApplyInitSendCredit_kept sid ctx

theorem quicStreamOpen_kept : RecvKept sid ctx (quicStreamOpen q ctx).2 := by
  unfold quicStreamOpen
  dsimp only
  split
  · exact ((Quiet.refl ctx).queueFn q _).kept sid
  · have hnext : RecvKept sid ctx { ctx with nextLocalBidiId := ctx.nextLocalBidiId + 4 } := recvKept_same sid rfl rfl rfl
    exact hnext.trans (opened_kept sid _ ctx.nextLocalBidiId (fun s => { s with sendState := .send }) fun _ => ⟨rfl, rfl⟩)

theorem quicStreamOpenUni_kept : RecvKept sid ctx (quicStreamOpenUni q ctx).2 := by
  unfold quicStreamOpenUni
  dsimp only
  split
  · exact ((Quiet.refl ctx).queueFn q _).kept sid
  · have hnext : RecvKept sid ctx { ctx with nextLocalUniId := ctx.nextLocalUniId + 4 } := recvKept_same sid rfl rfl rfl
    refine hnext.trans ?_
    generalize ({ ctx with nextLocalUniId := ctx.nextLocalUniId + 4 } : QuicStreamCtx) = c
    generalize hlim : peerSendCredit (streamFindOrCreate c ctx.nextLocalUniId).2 ctx.nextLocalUniId = lim
    exact opened_kept sid c ctx.nextLocalUniId
      (fun s => { s with sendState := .send, recvState := .resetRecvd, recvMaxData := 0, sendMaxData := lim })
      fun _ => ⟨rfl, rfl⟩

theorem quicStreamStopSending_kept (id errorCode : Nat) : RecvKept sid ctx (quicStreamStopSending q ctx id errorCode).2 := by
  unfold quicStreamStopSending
  cases hs : streamFind ctx id with
  | none => exact RecvKept.refl sid ctx
  | some s =>
    have hid := streamFind_id hs
    rw [← hid] at hs
    refine SendSide.kept ?_ hs sid
    exact ⟨rfl, rfl, (((SendSide.refl s ctx).queueFn q _).flushFn).quiet⟩

theorem quicStreamOnMaxStreams_kept (maxStreams : Nat) (bidi : Bool) :
    RecvKept sid ctx (quicStreamOnMaxStreams ctx maxStreams bidi) :=
  RecvKept.ite (recvKept_same sid rfl rfl rfl) (recvKept_same sid rfl rfl rfl)

theorem gotTransportParams_kept (params : List Byte) : RecvKept sid ctx (gotTransportParams ctx params) := by
  have hone : ∀ (c : QuicStreamCtx) (tp : Nat × List Byte), RecvKept sid c (setTransportParam c tp) := by
    intro c tp
    unfold setTransportParam
    split
    · exact RecvKept.refl sid c
    · split <;> exact recvKept_same sid rfl rfl rfl
  have hloop : ∀ (l : List (Nat × List Byte)) (c : QuicStreamCtx), RecvKept sid c (l.foldl setTransportParam c) := by
    intro l
    induction l with
    | nil => exact fun c => RecvKept.refl sid c
    | cons tp l ih => exact fun c => (hone c tp).trans (ih _)
  exact (hloop _ ctx).trans (quicStreamApplyInitSendCredit_kept sid _)

end Calls

end MoqLiveCast
