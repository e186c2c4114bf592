import MoqLiveCast.Quic.WriteOnce
/-!
# WriteEnds — a run in which the callbacks make finitely many calls ends

The measure is the requests in the lists and twice the calls the callbacks may still make.  A drain takes a request off
a list before it calls back.  A call a callback makes uses up two and adds one request at most.
-/
namespace MoqLiveCast

/-! ## The measure -/

def reqCount (streams : List QuicStream) : Nat := (streams.map (fun s => s.writeReqs.length)).sum

/-- What is left to do when the callbacks make `k` calls in all. -/
def AppRun.left (k : Nat) (w : AppRun) : Nat := reqCount w.ctx.streams + 2 * (k - w.called)

structure Spends (k d : Nat) (w w' : AppRun) : Prop where
  ids : w'.ctx.streams.map QuicStream.streamId = w.ctx.streams.map QuicStream.streamId
  left : w'.left k ≤ w.left k + d

def Returns (k n : Nat) (back : AppRun → Option AppRun) : Prop :=
  ∀ w : AppRun, w.Distinct → w.left k + 1 < n → ∃ w', back w = some w' ∧ Spends k 0 w w'

/-- The callbacks make `k` calls at most, and none to a layer whose streams are being freed. -/
def StopsAfter (k : Nat) (script : Script) : Prop := ∀ w, k ≤ w.called ∨ w.freed ≠ 0 → script w = none

namespace Spends

variable {k d d' : Nat} {w w' w'' : AppRun}

theorem refl (k : Nat) (w : AppRun) : Spends k 0 w w := ⟨rfl, Nat.le_refl _⟩

theorem trans (h : Spends k d w w') (h' : Spends k d' w' w'') : Spends k (d + d') w w'' where
  ids := h'.ids.trans h.ids
  left := by
    have h1 := h.left
    have h2 := h'.left
    omega

theorem weaken (h : Spends k d w w') (hd : d ≤ d') : Spends k d' w w' := ⟨h.ids, h.left.trans (Nat.add_le_add_left hd _)⟩

theorem distinct (h : Spends k d w w') (hd : w.Distinct) : w'.Distinct := by
  unfold AppRun.Distinct
  rw [h.ids]
  exact hd

end Spends

variable {ctx : QuicStreamCtx} {w : AppRun}

theorem left_setStream {k : Nat} {s s' : QuicStream} (hd : w.Distinct)
    (hs : streamFind w.ctx s.streamId = some s) (hid : s'.streamId = s.streamId) (hstreams : ctx.streams = w.ctx.streams) :
    AppRun.left k { w with ctx := setStream ctx s' } + s.writeReqs.length = w.left k + s'.writeReqs.length := by
  have hsum := sum_store QuicStream.streamId (fun s => s.writeReqs.length) hd
    (show lookup QuicStream.streamId s'.streamId w.ctx.streams = some s by rw [hid]; exact hs)
  change reqCount (store QuicStream.streamId s' ctx.streams) + 2 * (k - w.called) + _ = _
  rw [hstreams]
  unfold AppRun.left reqCount
  omega

theorem Spends.stream {k d : Nat} {s s' : QuicStream} (hd : w.Distinct)
    (hs : streamFind w.ctx s.streamId = some s) (hid : s'.streamId = s.streamId) (hstreams : ctx.streams = w.ctx.streams)
    (hreqs : s'.writeReqs.length ≤ s.writeReqs.length + d) : Spends k d w { w with ctx := setStream ctx s' } where
  ids := by
    change (store QuicStream.streamId s' ctx.streams).map QuicStream.streamId = _
    rw [store_keys, hstreams]
  left := by
    have := left_setStream (k := k) hd hs hid hstreams
    omega

theorem left_take {k : Nat} {s : QuicStream} {r : QuicStreamWriteReq} {rs : List QuicStreamWriteReq}
    (e : Effect) (hd : w.Distinct) (hs : streamFind w.ctx s.streamId = some s) (hreqs : s.writeReqs = r :: rs) :
    ((w.set { s with writeReqs := rs }).call e).left k + 1 = w.left k := by
  have h : AppRun.left k { w with ctx := setStream (w.ctx.call e) { s with writeReqs := rs } } + s.writeReqs.length =
      w.left k + rs.length := left_setStream hd hs rfl rfl
  rw [hreqs, List.length_cons] at h
  change AppRun.left k { w with ctx := setStream (w.ctx.call e) { s with writeReqs := rs } } + 1 = w.left k
  omega

/-! ## Each call returns -/

theorem AppRun.find_live (hfreed : w.freed = 0) (sid : Nat) : w.find sid = some (streamFind w.ctx sid) :=
  if_pos hfreed

theorem through_returns {k : Nat} (sid : Nat) {f : QuicStream → Option AppRun} (hf : ∀ {s}, streamFind w.ctx s.streamId = some s →
    s.streamId = sid → ∃ w', f s = some w' ∧ Spends k 0 w w') : ∃ w', w.through sid f = some w' ∧ Spends k 0 w w' := by
  unfold AppRun.through
  cases hs : streamFind w.ctx sid with
  | none => exact ⟨w, rfl, Spends.refl k w⟩
  | some s =>
    have hid := streamFind_id hs
    exact hf (hid.symm ▸ hs) hid

theorem foldlM_returns {ι : Type} {f : AppRun → ι → Option AppRun} {k d m n : Nat} (Ok : AppRun → Prop)
    (hstep : ∀ w x, w.Distinct → Ok w → w.left k + m < n → ∃ w', f w x = some w' ∧ Ok w' ∧ Spends k d w w') :
    ∀ (l : List ι) (w : AppRun), w.Distinct → Ok w → w.left k + (d * l.length + m) < n →
      ∃ w', l.foldlM f w = some w' ∧ Ok w' ∧ Spends k (d * l.length) w w'
  | [], w, _, hok, _ => ⟨w, rfl, hok, Spends.refl k w⟩
  | x :: l, w, hd, hok, hn => by
    rw [List.length_cons, Nat.mul_succ] at hn ⊢
    obtain ⟨w1, h1, hok1, hspend1⟩ := hstep w x hd hok (by omega)
    have hleft := hspend1.left
    obtain ⟨w2, h2, hok2, hspend2⟩ := foldlM_returns Ok hstep l w1 (hspend1.distinct hd) hok1 (by omega)
    refine ⟨w2, ?_, hok2, ?_⟩
    · rw [List.foldlM_cons, h1]
      exact h2
    · rw [Nat.add_comm]
      exact hspend1.trans hspend2

section Callback

variable {q : QueueFn} {back : AppRun → Option AppRun} {k n : Nat} (hback : Returns k n back)
include hback

variable {w : AppRun}

theorem thenWritable_returns {d : Nat} {s₀ s : QuicStream} {r : QuicStream × QuicStreamCtx} (hd : w.Distinct)
    (hs : streamFind w.ctx s₀.streamId = some s₀) (hid : s.streamId = s₀.streamId)
    (hreqs : s.writeReqs.length ≤ s₀.writeReqs.length + d) (hr : ReqsKept s w.ctx r) (hn : w.left k + d + 1 < n) :
    ∃ w', thenWritable back w s r = some w' ∧ Spends k d w w' := by
  have hsend : Spends k d w { w with ctx := setStream r.2 r.1 } :=
    Spends.stream hd hs (hr.id.trans hid) hr.streams (hr.reqs.symm ▸ hreqs)
  unfold thenWritable
  dsimp only
  split
  · have hleft := hsend.left
    obtain ⟨w', hw, hspend⟩ := hback _ (hsend.distinct hd) (by omega)
    exact ⟨w', hw, hsend.trans hspend⟩
  · exact ⟨_, rfl, hsend⟩

theorem maybeNotifyWritableCb_returns {s : QuicStream} (hd : w.Distinct) (hs : streamFind w.ctx s.streamId = some s)
    (hn : w.left k + 1 < n) : ∃ w', maybeNotifyWritableCb back w s = some w' ∧ Spends k 0 w w' :=
  thenWritable_returns hback hd hs rfl (Nat.le_refl _) (maybeNotifyWritable_reqs s w.ctx) hn

theorem consumeSendBufCb_returns {d : Nat} {s₀ s : QuicStream} (hd : w.Distinct) (hs : streamFind w.ctx s₀.streamId = some s₀)
    (hid : s.streamId = s₀.streamId) (hreqs : s.writeReqs.length ≤ s₀.writeReqs.length + d) (hn : w.left k + d + 1 < n) :
    ∃ w', consumeSendBufCb q back w s = some w' ∧ Spends k d w w' :=
  thenWritable_returns hback hd hs hid hreqs (consumeLoop_reqs q s.sendBufLen s w.ctx) hn

theorem writeFailCb_returns {sid : Nat} {cb : Option Nat} (hd : w.Distinct) (hn : w.left k + 1 < n) :
    ∃ r, writeFailCb back w sid cb = some r ∧ Spends k 0 w r.2 := by
  cases cb with
  | none => exact ⟨(-1, w), rfl, Spends.refl k w⟩
  | some userData =>
    obtain ⟨w', hw, hspend⟩ := hback (w.call (.writeDone sid (-1) 0 userData)) hd hn
    have hcall : Spends k 0 w (w.call (.writeDone sid (-1) 0 userData)) := ⟨rfl, Nat.le_refl _⟩
    refine ⟨(-1, w'), ?_, hcall.trans hspend⟩
    simp only [writeFailCb, hw, Option.map_some]

theorem reqDrain_returns (due : QuicStreamWriteReq → Bool) (code : Int) (length : QuicStreamWriteReq → Nat) (sid : Nat) :
    ∀ (j : Nat) {w : AppRun}, w.Distinct → w.left k < j → w.left k < n →
      ∃ w', reqDrain back due code length sid j w = some w' ∧ Spends k 0 w w'
  | 0, w, _, hj, _ => absurd hj (Nat.not_lt_zero _)
  | j + 1, w, hd, hj, hn => by
    unfold reqDrain
    refine through_returns sid fun {s} hs hid => ?_
    cases hreqs : s.writeReqs with
    | nil => exact ⟨w, rfl, Spends.refl k w⟩
    | cons r rs =>
      dsimp only
      split
      · have hone := left_take (k := k) (.writeDone sid code (length r) r.userData) hd hs hreqs
        have htake : Spends k 0 w ((w.set { s with writeReqs := rs }).call (.writeDone sid code (length r) r.userData)) :=
          ⟨store_keys .., by omega⟩
        obtain ⟨w1, h1, hspend1⟩ := hback _ (htake.distinct hd) (by omega)
        have hleft1 := hspend1.left
        obtain ⟨w2, h2, hspend2⟩ :=
          reqDrain_returns due code length sid j (hspend1.distinct (htake.distinct hd)) (by omega) (by omega)
        refine ⟨w2, ?_, (htake.trans hspend1).trans hspend2⟩
        rw [h1]
        exact h2
      · exact ⟨w, rfl, Spends.refl k w⟩

theorem quicStreamWriteCb_returns {sid : Nat} {data : List Byte} {fin : Bool} {cb : Option Nat}
    {timeoutMs now : Nat} (hd : w.Distinct) (hfreed : w.freed = 0) (hn : w.left k + 2 < n) :
    ∃ r, quicStreamWriteCb q back w sid data fin cb timeoutMs now = some r ∧ Spends k 1 w r.2 := by
  have hfail : ∃ r, writeFailCb back w sid cb = some r ∧ Spends k 1 w r.2 := by
    obtain ⟨r, hr, hspend⟩ := writeFailCb_returns hback hd (by omega)
    exact ⟨r, hr, hspend.weaken (Nat.zero_le _)⟩
  unfold quicStreamWriteCb
  rw [AppRun.find_live hfreed]
  cases hfind : streamFind w.ctx sid with
  | none => exact hfail
  | some s =>
    have hs : streamFind w.ctx s.streamId = some s := (streamFind_id hfind).symm ▸ hfind
    simp only [Option.bind_eq_bind, Option.bind_some]
    split
    · exact hfail
    · split
      · exact ⟨_, rfl, Spends.stream hd hs rfl rfl (Nat.le_succ _)⟩
      · have hreqs : (writeAppend s data fin cb timeoutMs now).writeReqs.length ≤ s.writeReqs.length + 1 :=
          writeAppend_length s data fin cb timeoutMs now
        obtain ⟨w1, h1, hsend⟩ := consumeSendBufCb_returns (q := q) hback hd hs
          (writeAppend_appends s data fin cb timeoutMs now).id hreqs (by omega)
        have hleft := hsend.left
        obtain ⟨w2, h2, hnotify⟩ := through_returns (k := k) (w := w1) sid fun hs' _ =>
          maybeNotifyWritableCb_returns hback (hsend.distinct hd) hs' (by omega)
        refine ⟨(0, w2), ?_, hsend.trans hnotify⟩
        rw [h1, Option.bind_some, h2, Option.bind_some]

theorem quicStreamResetCb_returns (sid errorCode : Nat) (hd : w.Distinct) (hfreed : w.freed = 0)
    (hn : w.left k < n) : ∃ r, quicStreamResetCb q back n w sid errorCode = some r ∧ Spends k 0 w r.2 := by
  unfold quicStreamResetCb
  rw [AppRun.find_live hfreed]
  cases hfind : streamFind w.ctx sid with
  | none => exact ⟨_, rfl, Spends.refl k w⟩
  | some s =>
    have hs : streamFind w.ctx s.streamId = some s := (streamFind_id hfind).symm ▸ hfind
    simp only [Option.bind_eq_bind, Option.bind_some]
    generalize hctx : (w.ctx.queueFn q (.resetStream sid errorCode s.sendOffset)).flushFn = ctx
    have hframe : Spends k 0 w { w with ctx := setStream ctx { s with sendState := .resetSent } } :=
      Spends.stream hd hs rfl (by rw [← hctx]; rfl) (Nat.le_refl _)
    have hleft := hframe.left
    obtain ⟨w', hw, hspend⟩ := reqDrain_returns hback (fun _ => true) (resetRetCode errorCode) (fun _ => 0) sid n
      (hframe.distinct hd) (by omega) (by omega)
    refine ⟨(0, w'), ?_, hframe.trans hspend⟩
    unfold reqFailAllCb
    rw [hw, Option.bind_some]

theorem quicStreamOnStopSendingCb_returns (sid : Nat) (hd : w.Distinct) (hfreed : w.freed = 0)
    (hn : w.left k < n) : ∃ w', quicStreamOnStopSendingCb q back n w sid = some w' ∧ Spends k 0 w w' := by
  unfold quicStreamOnStopSendingCb
  rw [AppRun.find_live hfreed]
  cases streamFind w.ctx sid with
  | none => exact ⟨w, rfl, Spends.refl k w⟩
  | some s =>
    simp only [Option.bind_eq_bind, Option.bind_some]
    split
    · obtain ⟨r, hr, hspend⟩ := quicStreamResetCb_returns (q := q) hback sid 0 hd hfreed hn
      exact ⟨r.2, by rw [hr]; rfl, hspend⟩
    · exact ⟨w, rfl, Spends.refl k w⟩

theorem flushTurnCb_returns (now i : Nat) (hd : w.Distinct) (hn : w.left k + 1 < n) :
    ∃ w', flushTurnCb q back n now w i = some w' ∧ Spends k 0 w w' := by
  unfold flushTurnCb
  cases w.ctx.streams[i]? with
  | none => exact ⟨w, rfl, Spends.refl k w⟩
  | some s =>
    obtain ⟨w1, h1, hexpired⟩ := reqDrain_returns hback (fun r => 0 < r.deadlineMs ∧ r.deadlineMs ≤ now) (-2)
      QuicStreamWriteReq.length s.streamId n hd (by omega) (by omega)
    have hd1 := hexpired.distinct hd
    have hleft1 := hexpired.left
    obtain ⟨w2, h2, hsent⟩ : ∃ w2, w1.through s.streamId (fun s =>
        if 0 < s.sendBufLen then consumeSendBufCb q back w1 s else maybeNotifyWritableCb back w1 s) = some w2 ∧
        Spends k 0 w1 w2 := by
      refine through_returns s.streamId fun hs _ => ?_
      split
      · exact consumeSendBufCb_returns hback hd1 hs rfl (Nat.le_refl _) (by omega)
      · exact maybeNotifyWritableCb_returns hback hd1 hs (by omega)
    have hd2 := hsent.distinct hd1
    have hleft2 := hsent.left
    obtain ⟨w3, h3, hfired⟩ : ∃ w3, w2.through s.streamId (fun s' =>
        reqFireCompletedCb back n w2 s.streamId s'.sendOffset) = some w3 ∧ Spends k 0 w2 w3 :=
      through_returns s.streamId fun _ _ => reqDrain_returns hback _ _ _ _ n hd2 (by omega) (by omega)
    have hleft3 := hfired.left
    obtain ⟨w4, h4, hnotify⟩ := through_returns (k := k) (w := w3) s.streamId fun hs _ =>
      maybeNotifyWritableCb_returns hback (hfired.distinct hd2) hs (by omega)
    refine ⟨w4, ?_, ((hexpired.trans hsent).trans hfired).trans hnotify⟩
    simp only [reqExpireCb, Option.bind_eq_bind, h1, Option.bind_some, h2, h3, h4]

theorem quicStreamFlushPendingCb_returns (now : Nat) (hd : w.Distinct) (hfreed : w.freed = 0)
    (hn : w.left k + 1 < n) : ∃ w', quicStreamFlushPendingCb q back n w now = some w' ∧ Spends k 0 w w' := by
  unfold quicStreamFlushPendingCb
  split
  · exact ⟨w, rfl, Spends.refl k w⟩
  · rw [if_neg (not_not_intro hfreed)]
    have hflag : ∀ (w : AppRun) b, Spends k 0 w { w with ctx := { w.ctx with flushing := b } } :=
      fun w b => ⟨rfl, Nat.le_refl _⟩
    have hleft := (hflag w true).left
    obtain ⟨w1, h1, -, hturns⟩ := foldlM_returns (f := flushTurnCb q back n now) (d := 0) (m := 1) (fun _ => True)
      (fun w i hd _ hn => by
        obtain ⟨w', hw, hspend⟩ := flushTurnCb_returns (q := q) hback now i hd hn
        exact ⟨w', hw, trivial, hspend⟩)
      (List.range w.ctx.streams.length) { w with ctx := { w.ctx with flushing := true } } ((hflag w true).distinct hd)
      trivial (by omega)
    rw [Nat.zero_mul] at hturns
    refine ⟨_, ?_, ((hflag w true).trans hturns).trans (hflag w1 false)⟩
    simp only [Option.bind_eq_bind, h1, Option.bind_some]

theorem appStep_returns {c : AppCall} (hd : w.Distinct) (hfreed : w.freed = 0) (hn : w.left k + 2 < n) :
    ∃ w', appStep q back n w c = some w' ∧ Spends k 1 w w' := by
  have hcall : ∃ r, callApp q back n w c = some r ∧ Spends k 1 w r.2 := by
    cases c with
    | write sid data fin cb timeoutMs now => exact quicStreamWriteCb_returns hback hd hfreed hn
    | flushPending now =>
      obtain ⟨w', hw, hspend⟩ := quicStreamFlushPendingCb_returns (q := q) hback now hd hfreed (by omega)
      exact ⟨(0, w'), by simp [callApp, hw], hspend.weaken (Nat.zero_le _)⟩
    | reset sid errorCode =>
      obtain ⟨r, hr, hspend⟩ := quicStreamResetCb_returns (q := q) hback sid errorCode hd hfreed (by omega)
      exact ⟨r, hr, hspend.weaken (Nat.zero_le _)⟩
    | onStopSending sid =>
      obtain ⟨w', hw, hspend⟩ := quicStreamOnStopSendingCb_returns (q := q) hback sid hd hfreed (by omega)
      exact ⟨(0, w'), by simp [callApp, hw], hspend.weaken (Nat.zero_le _)⟩
  obtain ⟨r, hr, hspend⟩ := hcall
  refine ⟨r.2.answer c r.1, ?_, hspend.ids, hspend.left⟩
  unfold appStep
  rw [hr]
  rfl

end Callback

theorem callback_returns {k : Nat} {script : Script} (q : QueueFn) (hstops : StopsAfter k script) :
    ∀ n, Returns k n (callback q script n)
  | 0, _, _, hn => absurd hn (Nat.not_lt_zero _)
  | n + 1, w, hd, hn => by
    unfold callback
    cases hask : script w with
    | none => exact ⟨w, rfl, Spends.refl k w⟩
    | some c =>
      have hmore : ¬ (k ≤ w.called ∨ w.freed ≠ 0) := fun hstop => by
        rw [hstops w hstop] at hask
        cases hask
      -- asking pays for the request the call may add and for the turn
      have hasked : AppRun.left k { w with called := w.called + 1 } + 2 = w.left k := by
        unfold AppRun.left
        dsimp only
        omega
      obtain ⟨w1, h1, hspend1⟩ := appStep_returns (q := q) (c := c) (callback_returns q hstops n)
        (w := { w with called := w.called + 1 }) hd (by dsimp only; omega) (by omega)
      have hleft1 := hspend1.left
      obtain ⟨w2, h2, hspend2⟩ := callback_returns q hstops n w1 (hspend1.distinct hd) (by omega)
      have hleft2 := hspend2.left
      refine ⟨w2, ?_, hspend2.ids.trans hspend1.ids, by omega⟩
      dsimp only
      rw [h1, Option.bind_some, h2]

/-! ## A run ends -/

theorem appRun_returns {k n : Nat} {q : QueueFn} {script : Script} {calls : List AppCall}
    (hstops : StopsAfter k script) (hd : (ctx.streams.map QuicStream.streamId).Nodup)
    (hn : reqCount ctx.streams + 2 * k + calls.length + 2 < n) : ∃ w, appRun q script n calls ctx = some w := by
  have hback := callback_returns q hstops n
  have hstart : ({ ctx } : AppRun).left k = reqCount ctx.streams + 2 * k := rfl
  obtain ⟨w1, h1, -, hspend1⟩ := foldlM_returns (f := appStep q (callback q script n) n) (k := k) (d := 1) (m := 2) (n := n)
    (fun w => w.freed = 0) (fun w c hd hfreed hn => by
      obtain ⟨w', hw, hspend⟩ := appStep_returns (q := q) (c := c) hback hd hfreed hn
      exact ⟨w', hw, (appStep_balanced (callback_balanced q script) hw).freed.trans hfreed, hspend⟩)
    calls { ctx } hd rfl (by omega)
  rw [Nat.one_mul] at hspend1
  have hleft1 := hspend1.left
  obtain ⟨w2, h2, -, -⟩ := foldlM_returns (f := cleanupTurn (callback q script n) n) (k := k) (d := 0) (m := 0) (n := n)
    (fun _ => True) (fun w i hd _ hn => by
      unfold cleanupTurn
      cases w.ctx.streams[i]? with
      | none => exact ⟨w, rfl, trivial, Spends.refl k w⟩
      | some s =>
        obtain ⟨w', hw, hspend⟩ := reqDrain_returns hback (fun _ => true) (-1) (fun _ => 0) s.streamId n hd hn hn
        refine ⟨{ w' with freed := i + 1 }, ?_, trivial, hspend.ids, hspend.left⟩
        dsimp only
        rw [reqFailAllCb, hw, Option.map_some])
    (List.range w1.ctx.streams.length) w1 (hspend1.distinct hd) trivial (by omega)
  refine ⟨{ w2 with ctx := { w2.ctx with streams := [] }, freed := 0 }, ?_⟩
  unfold appRun quicStreamCleanup
  simp only [h1, Option.bind_some, Option.bind_eq_bind, h2]

/-- **Every write callback is called exactly once**, by the end of a run that ends with `quic_stream_cleanup`, whatever
the callbacks call; and when they make finitely many calls, none while the streams are freed, the run ends. -/
theorem writeCallbacks_once (q : QueueFn) (script : Script) (calls : List AppCall) {ctx : QuicStreamCtx} (h : AtRest ctx) :
    (∀ n w, appRun q script n calls ctx = some w → CalledOnce w) ∧
    ∀ k, StopsAfter k script → ∀ n, 2 * k + calls.length + 2 < n → ∃ w, appRun q script n calls ctx = some w := by
  refine ⟨fun n w hrun => appRun_calledOnce q script n calls h hrun, fun k hstops n hn => ?_⟩
  have hidle : reqCount ctx.streams = 0 := by
    unfold reqCount
    rw [List.map_congr_left (g := fun _ => 0) fun s hs => by rw [h.idle s hs]; rfl]
    simp
  exact appRun_returns hstops h.distinct (by omega)

/-- A stream without credit: a write waits past its deadline, and its callback writes again. -/
def rewriteCtx : QuicStreamCtx := { streams := [{ streamId := 0, sendState := .send }] }

def rewriteScript : Script := fun w =>
  if w.called = 0 ∧ w.freed = 0 then some (.write 0 [] false (some 2) 0 20) else none

theorem rewriteCtx_atRest : AtRest rewriteCtx where
  distinct := by decide
  idle := by decide
  quiet e he := by cases he

theorem rewriteScript_stops : StopsAfter 1 rewriteScript := by
  intro w hw
  refine if_neg fun hask => ?_
  omega

def rewriteCalls : List AppCall := [.write 0 [7] false (some 1) 5 10, .flushPending 20]

theorem rewriteCalls_once : ∃ w, appRun (fun _ _ => true) rewriteScript 7 rewriteCalls rewriteCtx = some w ∧ CalledOnce w := by
  obtain ⟨honce, hends⟩ := writeCallbacks_once (fun _ _ => true) rewriteScript rewriteCalls rewriteCtx_atRest
  obtain ⟨w, hw⟩ := hends 1 rewriteScript_stops 7 (by decide)
  exact ⟨w, hw, honce 7 w hw⟩

end MoqLiveCast
