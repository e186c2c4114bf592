import MoqLiveCast.Quic.StreamSendData
/-!
# StreamSendFin — FIN on the send side

FIN is kept in `send_buf_fin` and goes out with the last byte of `send_buf` (`FinSent`).
-/
namespace MoqLiveCast

section Fin

variable {q : QueueFn} {s : QuicStream} {ctx : QuicStreamCtx}

/-- FIN is still to be sent with the last byte, or it was sent at the offset. -/
structure FinSent (s : QuicStream) (ctx : QuicStreamCtx) : Prop where
  sent : s.sendBufLen = 0 → ∃ f ∈ sentFrames s.streamId ctx.trace, f.fin = true ∧ f.stop = s.sendOffset
  pending : s.sendBufLen ≠ 0 → s.sendBufFin = true

theorem FinSent.queued (h : FinSent s ctx) (hlen : s.sendBufLen ≠ 0) (hacc : q ctx.trace (.stream s.streamId s.sendOffset
    (consumeIsLast s ctx) (s.sendBuf.read s.sendBufHead (consumeChunk s ctx))) = true) : FinSent (consumeAdvance s (consumeChunk s
    ctx)) ((ctx.queueFn q (.stream s.streamId s.sendOffset (consumeIsLast s ctx) (s.sendBuf.read s.sendBufHead (consumeChunk s
    ctx)))).addSent (consumeChunk s ctx)) := by
  constructor
  · intro hempty
    have hlast : consumeIsLast s ctx = true := by
      unfold consumeIsLast
      rw [if_pos (Nat.le_of_sub_eq_zero hempty)]
      exact h.pending hlen
    refine ⟨⟨s.sendOffset, true, s.sendBuf.read s.sendBufHead (consumeChunk s ctx)⟩, ?_, rfl, ?_⟩
    · show _ ∈ sentFrames s.streamId (QuicStreamCtx.queueFn q ctx _).trace
      rw [sent_stream, if_pos ⟨rfl, hacc⟩, hlast]
      simp
    · simp [SentFrame.stop, consumeAdvance, Mem.read]
  · intro _
    exact h.pending hlen

theorem FinSent.idle {s' : QuicStream} {ctx' : QuicStreamCtx} (h : FinSent s ctx) (hi : Idle s ctx s' ctx') :
    FinSent s' ctx' := by
  have hs := hi.stream
  unfold SameSend at hs
  have hf : sentFrames s'.streamId ctx'.trace = sentFrames s.streamId ctx.trace := by rw [hs, hi.silent.sent]
  constructor
  · rw [hf, hs]
    exact h.sent
  · rw [hs]
    exact h.pending

theorem FinSent.consume (h : FinSent s ctx) : FinSent (consumeSendBuf q s ctx).1 (consumeSendBuf q s ctx).2 := by
  apply consumeLoop_inv q FinSent
  · intro s ctx s' ctx' hi h
    exact h.idle hi
  · intro s ctx h0 h
    exact ⟨h.sent, fun hne => absurd h0 hne⟩
  · intro s ctx hlen _ _ hacc h
    exact h.queued hlen hacc
  · intro s ctx _ _ _ hacc h
    refine ⟨fun h0 => ?_, h.pending⟩
    rw [sent_stream, if_neg (by simp [hacc]), List.append_nil]
    exact h.sent h0
  · exact Nat.le_refl _
  · exact h

theorem FinSent.append (data : List Byte) (cb : Option Nat) (timeoutMs now : Nat)
    (hcap : s.sendBufHead + s.sendBufLen ≤ s.sendBufCap) (hopen : ¬ SendEnded s)
    (hpos : 0 < s.sendBufLen + data.length) : FinSent (writeAppend s data true cb timeoutMs now) ctx := by
  obtain ⟨s1, hs1, _, _, _, _, hlen, hfin, _⟩ := writeAppend_spec s data true cb timeoutMs now hcap hopen
  rw [hs1]
  exact ⟨fun h0 => by omega, fun _ => by rw [hfin, Bool.or_true]⟩

theorem finSent_sendStreamInv (q : QueueFn) : SendStreamInv q FinSent := by
  constructor
  · intro s ctx ctx' hf h
    exact ⟨by rw [hf]; exact h.sent, h.pending⟩
  · intro s ctx lim h
    exact ⟨h.sent, h.pending⟩
  · intro s ctx s' ctx' hi h
    exact h.idle hi
  · intro s ctx h
    exact h.consume

end Fin

/-! ## Runs -/

/-- **FIN is not lost**: once a write with FIN was accepted, an empty `send_buf` means that a frame with FIN was queued
that ends where the accepted data ends, and no write was accepted since. -/
def FinKept (sid : Nat) (r : SendRun) : Prop :=
  r.finished = true → (∀ s, streamFind r.ctx sid = some s → s.sendBufLen = 0 →
      ∃ f ∈ sentFrames sid r.ctx.trace, f.fin = true ∧ f.stop = r.written.length) ∧ r.reopened = false

/-- A write that has a byte to send FIN with, and that is turned away after FIN. -/
def FinHasByte (sid : Nat) (r : SendRun) : WriteCall → Prop
  | .write id data fin _ _ _ => id = sid → ∀ s, streamFind r.ctx sid = some s →
      (fin = true → 0 < s.sendBufLen + data.length) ∧ (r.finished = true → Congested s data.length)
  | _ => True

def FinIntact (written : List Byte) (finished : Bool) (s : QuicStream) (ctx : QuicStreamCtx) : Prop :=
  Intact written s ctx ∧ (finished = true → FinSent s ctx)

theorem finIntact_sendStreamInv (q : QueueFn) (written : List Byte) (finished : Bool) :
    SendStreamInv q (FinIntact written finished) := by
  have hI := intact_sendStreamInv q written
  have hF := finSent_sendStreamInv q
  constructor
  · intro s ctx ctx' hf h
    exact ⟨hI.frames hf h.1, fun hfin => hF.frames hf (h.2 hfin)⟩
  · intro s ctx lim h
    exact ⟨hI.credit lim h.1, fun hfin => hF.credit lim (h.2 hfin)⟩
  · intro s ctx s' ctx' hi h
    exact ⟨hI.idle hi h.1, fun hfin => hF.idle hi (h.2 hfin)⟩
  · intro s ctx h
    exact ⟨hI.consume h.1, fun hfin => hF.consume (h.2 hfin)⟩

structure FinInv (sid : Nat) (r : SendRun) : Prop where
  stream : StreamHas (FinIntact r.written r.finished) sid r.ctx
  closed : r.reopened = false

theorem FinInv.kept {sid : Nat} {r : SendRun} (h : FinInv sid r) : FinKept sid r := by
  intro hfin
  refine ⟨?_, h.closed⟩
  intro s hs hempty
  obtain ⟨t, ht, hintact, hsent⟩ := h.stream.holds
  rw [hs] at ht
  cases ht
  obtain ⟨f, hf, hff, hstop⟩ := (hsent hfin).sent hempty
  rw [streamFind_id hs] at hf
  have htotal := hintact.total
  exact ⟨f, hf, hff, by omega⟩

theorem sendRunStep_fin {q : QueueFn} {sid : Nat} {r : SendRun} (c : WriteCall) (h : FinInv sid r)
    (hok : FinHasByte sid r c) : FinInv sid (sendRunStep q sid r c) := by
  have hI := finIntact_sendStreamInv q r.written r.finished
  have hother := otherCall_has hI h.stream c
  cases c with
  | write id data fin cb timeoutMs now =>
    unfold sendRunStep
    dsimp only
    by_cases hid : id = sid
    · subst hid
      rw [if_pos rfl]
      have happend : ∀ s, streamFind r.ctx id = some s → ¬ Congested s data.length → FinIntact r.written r.finished s r.ctx →
          FinIntact (r.written ++ data) (r.finished || fin) (writeAppend s data fin cb timeoutMs now) r.ctx := by
        intro s hs hc hs'
        obtain ⟨hbyte, hturned⟩ := hok rfl s hs
        refine ⟨hs'.1.append data fin cb timeoutMs now, ?_⟩
        intro hfin
        cases hr : r.finished with
        | true => exact absurd (hturned hr) hc
        | false =>
          rw [hr, Bool.false_or] at hfin
          subst hfin
          exact FinSent.append data cb timeoutMs now hs'.1.cap hs'.1.taking (hbyte rfl)
      have hw := quicStreamWrite_same hI (finIntact_sendStreamInv q (r.written ++ data) (r.finished || fin)) h.stream
        data fin cb timeoutMs now (fun s hs => hs.1.taking) happend
      unfold SendRun.note
      rcases hw with ⟨hret, hw, s, hs, hc⟩ | ⟨hret, hw⟩
      · rw [hret, if_pos rfl]
        refine ⟨hw, ?_⟩
        cases hr : r.finished with
        | true => exact absurd ((hok rfl s hs).2 hr) hc
        | false => simpa using h.closed
      · rw [hret, if_neg (by decide)]
        exact ⟨hw, h.closed⟩
    · rw [if_neg hid]
      refine ⟨hother ?_, h.closed⟩
      rintro _ _ _ _ _ he
      cases he
      exact hid rfl
  | _ =>
    refine ⟨hother ?_, h.closed⟩
    rintro _ _ _ _ _ he
    cases he

/-- **FIN is sent at the end of what was accepted, and the stream takes nothing more**, in every run in which a write
with FIN finds or brings a byte, and a write after one is turned away by the high water mark. -/
theorem fin_kept (q : QueueFn) (sid : Nat) (st : FreshStream sid) (cs : List WriteCall)
    (hok : StepsOk (sendRunStep q sid) (FinHasByte sid) { ctx := st.ctx } cs) :
    FinKept sid (cs.foldl (sendRunStep q sid) { ctx := st.ctx }) := by
  have hstart : FinInv sid { ctx := st.ctx } :=
    ⟨⟨st.nodup, st.stream, st.found, st.intact, fun h => Bool.noConfusion h⟩, rfl⟩
  exact (foldl_inv (sendRunStep q sid) (FinHasByte sid) (FinInv sid) (fun r c h hc => sendRunStep_fin c h hc) cs _
    hstart hok).kept

theorem openedStream_nodup : ([{ streamId := 0, sendState := .send, sendMaxData := 100 }].map QuicStream.streamId).Nodup := by
  decide

def openedStream : FreshStream 0 :=
  ⟨{ streams := [{ streamId := 0, sendState := .send, sendMaxData := 100 }], maxDataPeer := 100 }, openedStream_nodup,
    { streamId := 0, sendState := .send, sendMaxData := 100 }, rfl, rfl, rfl, rfl, rfl, by decide⟩

theorem fin_kept_opened : FinKept 0 ([WriteCall.write 0 [97] true none 0 0, .flushPending 1].foldl
    (sendRunStep (fun _ _ => true) 0) { ctx := openedStream.ctx }) := by
  refine fin_kept (fun _ _ => true) 0 openedStream [.write 0 [97] true none 0 0, .flushPending 1] ⟨?_, trivial, trivial⟩
  intro _ s _
  exact ⟨fun _ => Nat.succ_pos _, fun h => absurd h (by decide)⟩

/-- **A write with FIN and no bytes returns 0 and queues nothing.** -/
theorem fin_lost : ¬ ∀ (q : QueueFn) (sid : Nat) (st : FreshStream sid) (cs : List WriteCall),
    FinKept sid (cs.foldl (sendRunStep q sid) { ctx := st.ctx }) := by
  intro h
  have hfin := (h (fun _ _ => true) 0 openedStream [.write 0 [] true none 0 0] rfl).1
  obtain ⟨f, hf, _⟩ := hfin _ rfl rfl
  cases hf

end MoqLiveCast
