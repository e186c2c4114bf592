import MoqLiveCast.Quic.StreamRecvCount
import MoqLiveCast.Quic.StreamRecvFin
import MoqLiveCast.Quic.StreamRecvKept
/-!
# StreamReset — the receive side once it is given up (`quic_stream_on_reset`, `quic_stream_stop_sending`)

Both set `recv_state` and free `recv_buf`; `quic_stream_on_recv` looks at neither.  What keeps it quiet is
`recv_offset`, and only for frames that end there.
-/
namespace MoqLiveCast

/-! ## Frames after the end -/

/-- A frame that neither reaches past `recv_offset` nor has FIN delivered: it is all past, or all before with FIN not yet
reached. -/
def LateFrameOk (s : QuicStream) (f : StreamFrame) : Prop :=
  s.recvOffset < f.offset ∨ f.stop ≤ s.recvOffset ∧ f.fin = false ∧ ¬ RecvDone s

/-- A call that leaves the ended receive side of the stream `sid` as it is. -/
def LateOk (sid : Nat) (ctx : QuicStreamCtx) : StreamCall → Prop
  | .onRecv f => f.streamId = sid → RecvAccepts ctx f → LateFrameOk (streamOrNew ctx sid) f
  | .onReset id finalSize _ => id = sid → recvOffsetOf ctx sid = some finalSize
  | _ => True

/-- The call ends the receive side of the stream `sid`. -/
def Terminates (ctx : QuicStreamCtx) (sid : Nat) : StreamCall → Prop
  | .onReset id _ _ => id = sid ∧ (streamFind ctx sid).isSome = true
  | .stopSending id _ => id = sid ∧ (streamFind ctx sid).isSome = true
  | _ => False

section Late

variable {q : QueueFn} {f : StreamFrame} {s : QuicStream} {ctx : QuicStreamCtx}

theorem noteFin_done (hle : f.stop ≤ s.recvOffset) : RecvDone (noteFin f s) ↔ f.fin = true ∨ RecvDone s := by
  unfold noteFin RecvDone
  cases f.fin
  · simp
  · simpa using hle

theorem recvFin_silent (hon : ctx.onStreamData = true) :
    streamData s.streamId (recvFin s ctx).2.trace = streamData s.streamId ctx.trace ↔ ¬ RecvDone s := by
  by_cases hd : RecvDone s
  · have he : recvFin s ctx = ({ s with recvState := .sizeKnown }, ctx.deliver s.streamId [] true) := if_pos hd
    rw [he, streamData_deliver hon, if_pos rfl]
    simp [hd]
  · have he : recvFin s ctx = (s, ctx) := if_neg hd
    rw [he]
    exact ⟨fun _ => hd, fun _ => rfl⟩

theorem recvFin_recvOffset (s : QuicStream) (ctx : QuicStreamCtx) : (recvFin s ctx).1.recvOffset = s.recvOffset := by
  unfold recvFin
  split <;> rfl

theorem recvFrame_late (hon : ctx.onStreamData = true) : (recvFrame q f s ctx).1.recvOffset = s.recvOffset ∧
    streamData s.streamId (recvFrame q f s ctx).2.trace = streamData s.streamId ctx.trace ↔ LateFrameOk s f := by
  have hid := noteFin_id f s
  have hoff := noteFin_recvOffset f s
  unfold LateFrameOk
  by_cases hlt : s.recvOffset < f.offset
  · obtain ⟨⟨m, hm⟩, hq⟩ := recvOutOfOrder_spec q f (noteFin f s) ctx
    rw [recvFrame_past q hlt, hm]
    exact ⟨fun _ => .inl hlt, fun _ => ⟨hoff, hq.data _⟩⟩
  · obtain ⟨m, ctx', he, hq⟩ := recvInOrder_spec q f (noteFin f s) ctx
    rw [recvFrame_inOrder q (Nat.not_lt.1 hlt), he, recvFin_recvOffset]
    by_cases hle : f.stop ≤ s.recvOffset
    · -- nothing is new, so only FIN can be delivered
      have hdeliver : recvDeliver f (noteFin f s) ctx = (noteFin f s, ctx) := if_neg (by omega)
      rw [hdeliver] at hq ⊢
      have hfin := recvFin_silent (s := { noteFin f s with recvMaxData := m }) (hq.onStreamData.trans hon)
      rw [show ({ noteFin f s with recvMaxData := m } : QuicStream).streamId = s.streamId from hid, hq.data] at hfin
      have hdone : RecvDone { noteFin f s with recvMaxData := m } ↔ f.fin = true ∨ RecvDone s := noteFin_done hle
      dsimp only
      rw [hfin, hdone, not_or, Bool.not_eq_true]
      refine ⟨fun h => .inr ⟨hle, h.2⟩, fun h => ?_⟩
      rcases h with h | h
      · exact absurd h hlt
      · exact ⟨hoff, h.2⟩
    · have hmono : f.stop ≤ (recvDeliver f (noteFin f s) ctx).1.recvOffset := by
        unfold recvDeliver
        rw [if_pos (by omega)]
        exact (gapDrain_count { noteFin f s with recvOffset := f.stop, recvBufLen := _ } _).1
      refine ⟨fun h => ?_, fun h => ?_⟩
      · have := h.1
        dsimp only at this
        omega
      · omega

end Late

/-! ## Steps -/

structure RecvReady (ctx : QuicStreamCtx) : Prop where
  nodup : (ctx.streams.map QuicStream.streamId).Nodup
  onStreamData : ctx.onStreamData = true

/-- The record of the stream `sid` has this `recv_offset`, and these deliveries were made. -/
def RecvAt (sid r : Nat) (d : List (List (Option Byte) × Bool)) (ctx : QuicStreamCtx) : Prop :=
  recvOffsetOf ctx sid = some r ∧ streamData sid ctx.trace = d

section Steps

variable {q : QueueFn} {sid r : Nat} {d : List (List (Option Byte) × Bool)} {ctx ctx' : QuicStreamCtx}

theorem RecvKept.ready (hk : RecvKept sid ctx ctx') (h : RecvReady ctx) : RecvReady ctx' :=
  ⟨hk.nodup h.nodup, hk.onStreamData.trans h.onStreamData⟩

theorem RecvKept.at (hk : RecvKept sid ctx ctx') (h : RecvAt sid r d ctx) : RecvAt sid r d ctx' :=
  ⟨hk.offset r h.1, hk.data.trans h.2⟩

theorem quicStreamOnRecv_ready (f : StreamFrame) (h : RecvReady ctx) : RecvReady (quicStreamOnRecv q ctx f).2 := by
  have hopen := (recvKept_findOrCreate f.streamId ctx f.streamId).trans ((quiet_recvOpen q ctx f.streamId).kept _)
  by_cases hacc : RecvAccepts ctx f
  · obtain ⟨-, hlocal⟩ := recvFrame_local q f (streamOrNew ctx f.streamId) (recvOpen q ctx f.streamId).2
    rw [onRecv_accepts hacc]
    refine ⟨?_, hlocal.onStreamData.trans (hopen.onStreamData.trans h.onStreamData)⟩
    show ((store QuicStream.streamId _ (recvFrame q f _ _).2.streams).map QuicStream.streamId).Nodup
    rw [store_keys, hlocal.streams]
    exact hopen.nodup h.nodup
  · rw [onRecv_rejects hacc]
    exact hopen.ready h

theorem quicStreamOnRecv_late (f : StreamFrame) (h : RecvReady ctx) (hat : RecvAt sid r d ctx) : RecvAt sid r d (quicStreamOnRecv
    q ctx f).2 ↔ (f.streamId = sid → RecvAccepts ctx f → LateFrameOk (streamOrNew ctx sid) f) := by
  obtain ⟨s, hs, hr⟩ := Option.map_eq_some_iff.1 hat.1
  have hnew : streamOrNew ctx sid = s := by
    unfold streamOrNew
    rw [hs, Option.getD_some]
  by_cases hacc : RecvAccepts ctx f
  · obtain ⟨-, -, hfind, hdata⟩ := recvStep_accepts (q := q) (w := ⟨ctx, []⟩) hacc
    have hfind := hfind sid
    have hdata := hdata sid
    unfold RecvAt recvOffsetOf
    show (streamFind (recvStep q ⟨ctx, []⟩ f).ctx sid).map _ = _ ∧ streamData sid (recvStep q ⟨ctx, []⟩ f).ctx.trace = _ ↔ _
    by_cases hsid : sid = f.streamId
    · subst hsid
      have hon := (recvOpen_onStreamData q ctx f.streamId).trans h.onStreamData
      have hlate := recvFrame_late (q := q) (f := f) (s := s) hon
      rw [streamFind_id hs, recvOpen_data, hat.2, hr] at hlate
      rw [if_pos rfl] at hfind hdata
      unfold recvResult at hfind hdata
      dsimp only at hfind hdata
      rw [hfind, hdata, hnew, Option.map_some, Option.some.injEq, hlate]
      exact ⟨fun h _ _ => h, fun h => h rfl hacc⟩
    · rw [if_neg hsid] at hfind hdata
      rw [hfind, hdata]
      exact ⟨fun _ he => absurd he.symm hsid, fun _ => hat⟩
  · obtain ⟨-, -, hfind, hdata⟩ := recvStep_rejects (q := q) (w := ⟨ctx, []⟩) hacc
    refine ⟨fun _ _ ha => absurd ha hacc, fun _ => ⟨?_, (hdata sid).trans hat.2⟩⟩
    show (streamFind (recvStep q ⟨ctx, []⟩ f).ctx sid).map _ = _
    rw [hfind sid]
    by_cases hsid : sid = f.streamId
    · rw [if_pos hsid, ← hsid, hnew, Option.map_some, hr]
    · rw [if_neg hsid]
      exact hat.1

theorem quicStreamOnReset_ready (id finalSize errorCode : Nat) (h : RecvReady ctx) :
    RecvReady (quicStreamOnReset ctx id finalSize errorCode) := by
  have hcall : RecvReady (if ctx.onStreamReset then ctx.call (.streamReset id errorCode) else ctx) := by
    split
    · exact ⟨h.nodup, h.onStreamData⟩
    · exact h
  unfold quicStreamOnReset
  dsimp only
  generalize (if ctx.onStreamReset then ctx.call (.streamReset id errorCode) else ctx) = c at hcall ⊢
  split
  · exact hcall
  · refine ⟨?_, hcall.onStreamData⟩
    show ((store QuicStream.streamId _ c.streams).map QuicStream.streamId).Nodup
    rw [store_keys]
    exact hcall.nodup

theorem quicStreamOnReset_data (id finalSize errorCode : Nat) :
    streamData sid (quicStreamOnReset ctx id finalSize errorCode).trace = streamData sid ctx.trace := by
  have hcall : streamData sid (if ctx.onStreamReset then ctx.call (.streamReset id errorCode) else ctx).trace =
      streamData sid ctx.trace := (RecvKept.ite (recvKept_call sid ctx rfl) (RecvKept.refl sid ctx)).data
  unfold quicStreamOnReset
  dsimp only
  split <;> exact hcall

theorem quicStreamOnReset_find {id : Nat} {s : QuicStream} (hs : streamFind ctx id = some s) (finalSize errorCode sid : Nat) :
    recvOffsetOf (quicStreamOnReset ctx id finalSize errorCode) sid =
      if sid = id then some finalSize else recvOffsetOf ctx sid := by
  have hstreams : (if ctx.onStreamReset then ctx.call (.streamReset id errorCode) else ctx).streams = ctx.streams := by
    split <;> rfl
  have hid := streamFind_id hs
  unfold recvOffsetOf quicStreamOnReset
  rw [hs]
  dsimp only
  generalize (if ctx.onStreamReset then ctx.call (.streamReset id errorCode) else ctx) = c at hstreams ⊢
  have hfind : ∀ sid, streamFind c sid = streamFind ctx sid := fun sid => by
    unfold streamFind
    rw [hstreams]
  obtain ⟨s', hs', hid', hoff'⟩ : ∃ s' : QuicStream, s' = { s with
      recvState := .resetRecvd, recvOffset := finalSize, recvBuf := none, recvBufLen := 0 } ∧
      s'.streamId = s.streamId ∧ s'.recvOffset = finalSize := ⟨_, rfl, rfl, rfl⟩
  rw [← hs']
  rw [hid] at hid'
  by_cases hsid : sid = id
  · rw [if_pos hsid, hsid, ← hid', streamFind_setStream_self (by rw [hid', hfind]; exact hs), Option.map_some, hoff']
  · rw [if_neg hsid, streamFind_setStream_ne (by rw [hid']; exact hsid), hfind]

theorem quicStreamOnReset_late (id finalSize errorCode : Nat) (hat : RecvAt sid r d ctx) :
    RecvAt sid r d (quicStreamOnReset ctx id finalSize errorCode) ↔ (id = sid → recvOffsetOf ctx sid = some finalSize) := by
  unfold RecvAt
  rw [quicStreamOnReset_data, hat.1, hat.2]
  cases hs : streamFind ctx id with
  | none =>
    have hsame : recvOffsetOf (quicStreamOnReset ctx id finalSize errorCode) sid = recvOffsetOf ctx sid := by
      unfold recvOffsetOf quicStreamOnReset
      rw [hs]
      dsimp only
      split <;> rfl
    rw [hsame]
    refine iff_of_true ⟨hat.1, rfl⟩ fun hid => ?_
    obtain ⟨t, ht, -⟩ := Option.map_eq_some_iff.1 hat.1
    rw [← hid, hs] at ht
    cases ht
  | some s =>
    rw [quicStreamOnReset_find hs]
    by_cases hsid : sid = id
    · rw [if_pos hsid]
      exact ⟨fun h _ => h.1.symm, fun h => ⟨(h hsid.symm).symm, rfl⟩⟩
    · rw [if_neg hsid]
      exact iff_of_true ⟨hat.1, rfl⟩ fun he => absurd he.symm hsid

theorem streamStep_ready (c : StreamCall) (h : RecvReady ctx) : RecvReady (streamStep q ctx c) := by
  cases c with
  | send c => exact (sendStep_kept q 0 ctx c h.nodup).ready h
  | openBidi => exact (quicStreamOpen_kept q 0 ctx).ready h
  | openUni => exact (quicStreamOpenUni_kept q 0 ctx).ready h
  | stopSending id errorCode => exact (quicStreamStopSending_kept q 0 ctx id errorCode).ready h
  | handshakeDone => exact ⟨h.nodup, h.onStreamData⟩
  | onRecv f => exact quicStreamOnRecv_ready f h
  | onReset id finalSize errorCode => exact quicStreamOnReset_ready id finalSize errorCode h
  | onMaxStreams maxStreams bidi =>
    exact (quicStreamOnMaxStreams_kept 0 ctx maxStreams bidi).ready h
  | onStreamsBlocked maxStreams bidi => exact ((quiet_grantCredit q ctx bidi).kept 0).ready h
  | transportParams params => exact (gotTransportParams_kept 0 ctx params).ready h

theorem streamStep_late (c : StreamCall) (h : RecvReady ctx) (hat : RecvAt sid r d ctx) :
    RecvAt sid r d (streamStep q ctx c) ↔ LateOk sid ctx c := by
  cases c with
  | send c => exact iff_of_true ((sendStep_kept q sid ctx c h.nodup).at hat) trivial
  | openBidi => exact iff_of_true ((quicStreamOpen_kept q sid ctx).at hat) trivial
  | openUni => exact iff_of_true ((quicStreamOpenUni_kept q sid ctx).at hat) trivial
  | stopSending id errorCode => exact iff_of_true ((quicStreamStopSending_kept q sid ctx id errorCode).at hat) trivial
  | handshakeDone =>
    have hlimit : RecvKept sid ctx { ctx with maxDataLocal := QUIC_STREAM_RECV_BUF_SIZE } := recvKept_same sid rfl rfl rfl
    exact iff_of_true ((hlimit.trans (((Quiet.refl _).queueFn q _).kept sid)).at hat) trivial
  | onRecv f => exact quicStreamOnRecv_late f h hat
  | onReset id finalSize errorCode => exact quicStreamOnReset_late id finalSize errorCode hat
  | onMaxStreams maxStreams bidi =>
    exact iff_of_true ((quicStreamOnMaxStreams_kept sid ctx maxStreams bidi).at hat) trivial
  | onStreamsBlocked maxStreams bidi => exact iff_of_true (((quiet_grantCredit q ctx bidi).kept sid).at hat) trivial
  | transportParams params => exact iff_of_true ((gotTransportParams_kept sid ctx params).at hat) trivial

end Steps

/-! ## Runs -/

def streamRun (q : QueueFn) (server : Bool) (calls : List StreamCall) : QuicStreamCtx :=
  calls.foldl (streamStep q) (streamCtxStart server)

/-- **Once the receive side of a stream has ended, nothing is delivered for it and `recv_offset` stays.** -/
def SilentOnceEnded (q : QueueFn) (server : Bool) (calls : List StreamCall) : Prop :=
  ∀ before c after rest sid, calls = before ++ c :: (after ++ rest) → Terminates (streamRun q server before) sid c →
    let ended := streamRun q server (before ++ [c])
    let later := streamRun q server (before ++ c :: after)
    streamData sid later.trace = streamData sid ended.trace ∧ recvOffsetOf later sid = recvOffsetOf ended sid

/-- After a call that ends the receive side of a stream, every frame of the stream that is taken either starts past
`recv_offset`, or ends there with no FIN due, and a second RESET_STREAM has the same final size. -/
def LateCallsOk (q : QueueFn) (server : Bool) (calls : List StreamCall) : Prop :=
  ∀ before c after sid, calls = before ++ c :: after → Terminates (streamRun q server before) sid c →
    StepsOk (streamStep q) (LateOk sid) (streamRun q server (before ++ [c])) after

theorem terminates_offset {q : QueueFn} {ctx : QuicStreamCtx} {sid : Nat} {c : StreamCall} (h : Terminates ctx sid c) :
    ∃ r, recvOffsetOf (streamStep q ctx c) sid = some r := by
  cases c with
  | onReset id finalSize errorCode =>
    obtain ⟨rfl, hsome⟩ := h
    obtain ⟨s, hs⟩ := Option.isSome_iff_exists.1 hsome
    have hfind := quicStreamOnReset_find hs finalSize errorCode id
    rw [if_pos rfl] at hfind
    exact ⟨finalSize, hfind⟩
  | stopSending id errorCode =>
    obtain ⟨rfl, hsome⟩ := h
    obtain ⟨s, hs⟩ := Option.isSome_iff_exists.1 hsome
    have hoff : recvOffsetOf ctx id = some s.recvOffset := by
      unfold recvOffsetOf
      rw [hs, Option.map_some]
    exact ⟨s.recvOffset, (quicStreamStopSending_kept q id ctx id errorCode).offset _ hoff⟩
  | _ => exact h.elim

theorem streamRun_ready (q : QueueFn) (server : Bool) (calls : List StreamCall) : RecvReady (streamRun q server calls) := by
  refine foldl_inv (streamStep q) (fun _ _ => True) RecvReady (fun s c h _ => streamStep_ready c h) calls _ ?_
    (stepsOk_of_forall _ _ calls _ fun _ _ _ => trivial)
  cases server <;> exact ⟨List.nodup_nil, rfl⟩

/-- **What has ended stays silent in exactly the runs whose later calls are late ones.** -/
theorem silentOnceEnded_iff (q : QueueFn) (server : Bool) (calls : List StreamCall) :
    SilentOnceEnded q server calls ↔ LateCallsOk q server calls := by
  -- after one ending call: the deliveries and the offset stay over every prefix exactly when every step is a late one
  have hone : ∀ before c after sid, Terminates (streamRun q server before) sid c → ((∀ pre post, after = pre ++ post →
        streamData sid (streamRun q server (before ++ c :: pre)).trace =
            streamData sid (streamRun q server (before ++ [c])).trace ∧
          recvOffsetOf (streamRun q server (before ++ c :: pre)) sid = recvOffsetOf (streamRun q server (before ++ [c])) sid) ↔
        StepsOk (streamStep q) (LateOk sid) (streamRun q server (before ++ [c])) after) := by
    intro before c after sid hends
    have hrun : ∀ pre, streamRun q server (before ++ c :: pre) =
        pre.foldl (streamStep q) (streamRun q server (before ++ [c])) := fun pre => by
      unfold streamRun
      rw [← List.foldl_append, List.append_assoc, List.singleton_append]
    obtain ⟨r, hr⟩ : ∃ r, recvOffsetOf (streamRun q server (before ++ [c])) sid = some r := by
      unfold streamRun
      rw [List.foldl_append]
      exact terminates_offset hends
    have hiff := forall_prefix_iff (streamStep q) (LateOk sid) (fun _ => True) RecvReady
      (RecvAt sid r (streamData sid (streamRun q server (before ++ [c])).trace))
      (fun s e h _ => streamStep_ready e h) (fun s e h _ hat => streamStep_late e h hat) after
      (streamRun q server (before ++ [c])) (fun _ _ => trivial) (streamRun_ready q server _) ⟨hr, rfl⟩
    rw [← hiff]
    refine forall_congr' fun pre => forall_congr' fun post => imp_congr_right fun _ => ?_
    rw [hrun, hr]
    exact and_comm
  constructor
  · intro h before c after sid hcalls hends
    refine (hone before c after sid hends).1 fun pre post hafter => ?_
    exact h before c pre post sid (by rw [hcalls, hafter]) hends
  · intro h before c after rest sid hcalls hends
    exact (hone before c (after ++ rest) sid hends).2 (h before c (after ++ rest) sid hcalls hends) after rest rfl

/-! ## Data in flight -/

/-- A byte arrives, the application stops the stream, and the byte that was in flight arrives. -/
def stoppedRun : List StreamCall :=
  [.onRecv (firstByte false), .stopSending 0 0, .onRecv (secondByte false)]

theorem stoppedRun_delivers : ¬ SilentOnceEnded acceptAll true stoppedRun := by
  intro h
  have hends : Terminates (streamRun acceptAll true [.onRecv (firstByte false)]) 0 (.stopSending 0 0) :=
    ⟨rfl, by decide⟩
  have hsilent := (h [.onRecv (firstByte false)] (.stopSending 0 0) [.onRecv (secondByte false)] [] 0 rfl hends).1
  revert hsilent
  decide

end MoqLiveCast
