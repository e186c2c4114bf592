import MoqLiveCast.Lib.Run
import MoqLiveCast.Quic.StreamCalls
import MoqLiveCast.Quic.StreamSent
/-!
# StreamSendData — what is sent is what was written

The frames queued for a stream follow one another from offset 0, and their bytes with those left in `send_buf` are the
bytes of the accepted writes (`Intact`), in every state a run of writes, flushes and credit updates reaches
(`sent_is_written`).
-/
namespace MoqLiveCast

open List

/-! ## Frames that follow one another -/

/-- The frames start at `a` and leave no gap. -/
def Contiguous : Nat → List SentFrame → Prop
  | _, [] => True
  | a, f :: fs => f.offset = a ∧ Contiguous f.stop fs

def frameBytes (l : List SentFrame) : List (Option Byte) := l.flatMap SentFrame.data

@[simp] theorem frameBytes_append (l l' : List SentFrame) : frameBytes (l ++ l') = frameBytes l ++ frameBytes l' := by
  simp [frameBytes]

@[simp] theorem frameBytes_singleton (f : SentFrame) : frameBytes [f] = f.data := by simp [frameBytes]

theorem Contiguous.snoc {f : SentFrame} : ∀ {l : List SentFrame} {a : Nat}, Contiguous a l →
    f.offset = a + (frameBytes l).length → Contiguous a (l ++ [f])
  | [], a, _, hf => ⟨by simpa [frameBytes] using hf, trivial⟩
  | g :: l, a, h, hf => by
    refine ⟨h.1, h.2.snoc ?_⟩
    rw [hf, SentFrame.stop, h.1]
    simp only [frameBytes, flatMap_cons, length_append]
    omega

/-! ## `send_buf` -/

theorem growCap_ge (needed : Nat) : ∀ (n cap : Nat), needed ≤ cap * 2 ^ n → needed ≤ growCap needed n cap
  | 0, cap, h => by simpa [growCap] using h
  | n + 1, cap, h => by
    unfold growCap
    split
    · apply growCap_ge needed n
      rwa [Nat.mul_assoc, ← Nat.pow_succ']
    · omega

theorem sendBufEnsure_spec (s : QuicStream) (total : Nat) :
    (sendBufEnsure s total).sendBufHead + total ≤ (sendBufEnsure s total).sendBufCap ∧
      (sendBufEnsure s total).sendBuf.read (sendBufEnsure s total).sendBufHead s.sendBufLen =
        s.sendBuf.read s.sendBufHead s.sendBufLen ∧
      (sendBufEnsure s total) = { s with
        sendBuf := (sendBufEnsure s total).sendBuf
        sendBufHead := (sendBufEnsure s total).sendBufHead
        sendBufCap := (sendBufEnsure s total).sendBufCap } := by
  have hmove := Mem.read_move s.sendBuf 0 s.sendBufHead s.sendBufLen
  unfold sendBufEnsure
  dsimp only
  split
  · split
    · refine ⟨?_, hmove, rfl⟩
      dsimp only
      omega
    · exact ⟨by omega, rfl, rfl⟩
  · split
    · refine ⟨?_, hmove, rfl⟩
      dsimp only
      omega
    · refine ⟨?_, rfl, rfl⟩
      apply growCap_ge
      have hpos : 1 ≤ (if s.sendBufCap ≠ 0 then s.sendBufCap * 2 else 4096) := by
        split <;> omega
      calc s.sendBufHead + total
          ≤ 2 ^ (s.sendBufHead + total) := Nat.le_of_lt Nat.lt_two_pow_self
        _ = 1 * 2 ^ (s.sendBufHead + total) := (Nat.one_mul _).symm
        _ ≤ _ := Nat.mul_le_mul_right _ hpos

theorem sendBufAppend_spec (s : QuicStream) (data : List Byte) (hcap : s.sendBufHead + s.sendBufLen ≤ s.sendBufCap) :
    (sendBufAppend s data).sendBufHead + (sendBufAppend s data).sendBufLen ≤ (sendBufAppend s data).sendBufCap ∧
      (sendBufAppend s data).sendBufLen = s.sendBufLen + data.length ∧
      (sendBufAppend s data).sendBuf.read (sendBufAppend s data).sendBufHead (sendBufAppend s data).sendBufLen =
        s.sendBuf.read s.sendBufHead s.sendBufLen ++ data.map some ∧
      (sendBufAppend s data) = { s with
        sendBuf := (sendBufAppend s data).sendBuf
        sendBufHead := (sendBufAppend s data).sendBufHead
        sendBufLen := (sendBufAppend s data).sendBufLen
        sendBufCap := (sendBufAppend s data).sendBufCap } := by
  unfold sendBufAppend
  split
  · rename_i h0
    rw [eq_nil_of_length_eq_zero h0]
    simpa using hcap
  · obtain ⟨hroom, hbytes, hsame⟩ := sendBufEnsure_spec s (s.sendBufLen + data.length)
    generalize sendBufEnsure s (s.sendBufLen + data.length) = s' at hroom hbytes hsame ⊢
    have hlen : s'.sendBufLen = s.sendBufLen := by rw [hsame]
    dsimp only
    rw [hlen]
    refine ⟨hroom, rfl, ?_, by rw [hsame]⟩
    have := Mem.read_write_append s'.sendBuf s'.sendBufHead s.sendBufLen (data.map some)
    rwa [length_map, hbytes] at this

theorem writeFlags_eq (s : QuicStream) (fin : Bool) : writeFlags s fin = { s with
    sendBufFin := s.sendBufFin || fin
    sendState := if s.sendState = .ready then .send else s.sendState } := by
  unfold writeFlags
  by_cases hr : s.sendState = .ready <;> cases fin <;> simp [hr]

theorem writeAppend_spec (s : QuicStream) (data : List Byte) (fin : Bool) (cb : Option Nat) (timeoutMs now : Nat)
    (hcap : s.sendBufHead + s.sendBufLen ≤ s.sendBufCap) (hopen : ¬ SendEnded s) :
    ∃ s1 : QuicStream, writeAppend s data fin cb timeoutMs now = s1 ∧ s1.streamId = s.streamId ∧
      s1.sendOffset = s.sendOffset ∧ s1.sendMaxData = s.sendMaxData ∧ s1.sendBufHead + s1.sendBufLen ≤ s1.sendBufCap ∧
      s1.sendBufLen = s.sendBufLen + data.length ∧ s1.sendBufFin = (s.sendBufFin || fin) ∧ ¬ SendEnded s1 ∧
      s1.sendBuf.read s1.sendBufHead s1.sendBufLen = s.sendBuf.read s.sendBufHead s.sendBufLen ++ data.map some := by
  have hreq : writeRequest s data.length cb timeoutMs now =
      { s with writeReqs := (writeRequest s data.length cb timeoutMs now).writeReqs } := by
    cases cb <;> rfl
  obtain ⟨hcap, hlen, hbytes, hsame⟩ := sendBufAppend_spec (writeRequest s data.length cb timeoutMs now) data
    (by rw [hreq]; exact hcap)
  refine ⟨_, rfl, ?_⟩
  unfold writeAppend
  generalize sendBufAppend (writeRequest s data.length cb timeoutMs now) data = s1 at hcap hlen hbytes hsame ⊢
  rw [hreq] at hlen hbytes hsame
  rw [writeFlags_eq]
  have hstate : s1.sendState = s.sendState := by rw [hsame]
  refine ⟨by rw [hsame], by rw [hsame], by rw [hsame], hcap, hlen, by rw [hsame], ?_, hbytes⟩
  unfold SendEnded at hopen ⊢
  dsimp only
  rw [hstate]
  cases hst : s.sendState <;> simp [hst] at hopen ⊢

/-! ## A stream is intact -/

/-- What was queued and what is buffered of one stream, together the bytes `written`. -/
structure Intact (written : List Byte) (s : QuicStream) (ctx : QuicStreamCtx) : Prop where
  contiguous : Contiguous 0 (sentFrames s.streamId ctx.trace)
  offset : s.sendOffset = (frameBytes (sentFrames s.streamId ctx.trace)).length
  bytes : frameBytes (sentFrames s.streamId ctx.trace) ++ s.sendBuf.read s.sendBufHead s.sendBufLen = written.map some
  cap : s.sendBufHead + s.sendBufLen ≤ s.sendBufCap
  taking : ¬ SendEnded s

theorem Intact.total {written : List Byte} {s : QuicStream} {ctx : QuicStreamCtx} (h : Intact written s ctx) :
    s.sendOffset + s.sendBufLen = written.length := by
  have hb := congrArg List.length h.bytes
  rw [length_append, ← h.offset, length_map] at hb
  rw [← hb, Mem.read, slice_length]

theorem Intact.idle {written : List Byte} {s s' : QuicStream} {ctx ctx' : QuicStreamCtx} (h : Intact written s ctx)
    (hi : Idle s ctx s' ctx') : Intact written s' ctx' := by
  have hs := hi.stream
  unfold SameSend at hs
  have hf : sentFrames s'.streamId ctx'.trace = sentFrames s.streamId ctx.trace := by rw [hs, hi.silent.sent]
  refine ⟨?_, ?_, ?_, ?_, ?_⟩
  · rw [hf]; exact h.contiguous
  · rw [hf, hs]; exact h.offset
  · rw [hf, hs]; exact h.bytes
  · rw [hs]; exact h.cap
  · rw [hs]; exact h.taking

theorem consumeChunk_le (s : QuicStream) (ctx : QuicStreamCtx) : consumeChunk s ctx ≤ s.sendBufLen := by
  unfold consumeChunk
  omega

section Consume

variable {q : QueueFn} {written : List Byte} {s : QuicStream} {ctx : QuicStreamCtx}

theorem Intact.queued (h : Intact written s ctx) (hacc : q ctx.trace (.stream s.streamId s.sendOffset (consumeIsLast s ctx)
    (s.sendBuf.read s.sendBufHead (consumeChunk s ctx))) = true) : Intact written (consumeAdvance s (consumeChunk s ctx))
    ((ctx.queueFn q (.stream s.streamId s.sendOffset (consumeIsLast s ctx) (s.sendBuf.read s.sendBufHead (consumeChunk s
    ctx)))).addSent (consumeChunk s ctx)) := by
  have hle := consumeChunk_le s ctx
  have hf := sent_stream q ctx s.streamId s.sendOffset (consumeIsLast s ctx)
    (s.sendBuf.read s.sendBufHead (consumeChunk s ctx)) s.streamId
  rw [if_pos ⟨rfl, hacc⟩] at hf
  have hbuf := slice_append s.sendBuf s.sendBufHead (consumeChunk s ctx) (s.sendBufLen - consumeChunk s ctx)
  rw [Nat.add_sub_cancel' hle] at hbuf
  have hcap := h.cap
  constructor
  · show Contiguous 0 (sentFrames s.streamId (QuicStreamCtx.queueFn q ctx _).trace)
    rw [hf]
    exact h.contiguous.snoc (by rw [h.offset]; simp)
  · show s.sendOffset + consumeChunk s ctx = (frameBytes (sentFrames s.streamId (QuicStreamCtx.queueFn q ctx _).trace)).length
    rw [hf, frameBytes_append, length_append, ← h.offset]
    simp [Mem.read]
  · show frameBytes (sentFrames s.streamId (QuicStreamCtx.queueFn q ctx _).trace) ++ _ = _
    rw [hf, frameBytes_append, frameBytes_singleton, append_assoc, ← h.bytes]
    congr 1
  · simp only [consumeAdvance]
    omega
  · exact h.taking

theorem Intact.consume (h : Intact written s ctx) : Intact written (consumeSendBuf q s ctx).1 (consumeSendBuf q s ctx).2 := by
  apply consumeLoop_inv q (Intact written)
  · intro s ctx s' ctx' hi h
    exact h.idle hi
  · intro s ctx h0 h
    refine ⟨h.contiguous, h.offset, ?_, ?_, h.taking⟩
    · have hb := h.bytes
      rw [h0] at hb
      show frameBytes (sentFrames s.streamId ctx.trace) ++ Mem.fresh.read 0 s.sendBufLen = _
      rw [h0]
      exact hb
    · simp [consumeFreed, h0]
  · intro s ctx _ _ _ hacc h
    exact h.queued hacc
  · intro s ctx _ _ _ hacc h
    have hf : ∀ sid, sentFrames sid (ctx.queueFn q (.stream s.streamId s.sendOffset (consumeIsLast s ctx)
        (s.sendBuf.read s.sendBufHead (consumeChunk s ctx)))).trace = sentFrames sid ctx.trace := by
      intro sid
      rw [sent_stream, if_neg (by simp [hacc]), append_nil]
    exact ⟨by rw [hf]; exact h.contiguous, by rw [hf]; exact h.offset, by rw [hf]; exact h.bytes, h.cap, h.taking⟩
  · exact Nat.le_refl _
  · exact h

theorem Intact.append (h : Intact written s ctx) (data : List Byte) (fin : Bool) (cb : Option Nat)
    (timeoutMs now : Nat) : Intact (written ++ data) (writeAppend s data fin cb timeoutMs now) ctx := by
  obtain ⟨s1, hs1, hid, hoff, _, hcap, _, _, hopen, hbytes⟩ := writeAppend_spec s data fin cb timeoutMs now h.cap h.taking
  rw [hs1]
  refine ⟨?_, ?_, ?_, hcap, hopen⟩
  · rw [hid]
    exact h.contiguous
  · rw [hid, hoff]
    exact h.offset
  · rw [hid, hbytes, ← append_assoc, h.bytes, map_append]

end Consume

/-! ## Runs of writes, flushes and credit updates -/

/-- **An invariant of one stream and the frames queued for it** that its turns and new credit keep. -/
structure SendStreamInv (q : QueueFn) (I : QuicStream → QuicStreamCtx → Prop) : Prop where
  frames : ∀ {s ctx ctx'}, sentFrames s.streamId ctx'.trace = sentFrames s.streamId ctx.trace → I s ctx → I s ctx'
  credit : ∀ {s ctx} (lim : Nat), I s ctx → I { s with sendMaxData := lim } ctx
  idle : ∀ {s ctx s' ctx'}, Idle s ctx s' ctx' → I s ctx → I s' ctx'
  consume : ∀ {s ctx}, I s ctx → I (consumeSendBuf q s ctx).1 (consumeSendBuf q s ctx).2

theorem intact_sendStreamInv (q : QueueFn) (written : List Byte) : SendStreamInv q (Intact written) := by
  constructor
  · intro s ctx ctx' hf h
    exact ⟨by rw [hf]; exact h.contiguous, by rw [hf]; exact h.offset, by rw [hf]; exact h.bytes, h.cap, h.taking⟩
  · intro s ctx lim h
    exact ⟨h.contiguous, h.offset, h.bytes, h.cap, h.taking⟩
  · intro s ctx s' ctx' hi h
    exact h.idle hi
  · intro s ctx h
    exact h.consume

/-- Ids name streams, and the stream `sid` has the invariant. -/
structure StreamHas (I : QuicStream → QuicStreamCtx → Prop) (sid : Nat) (ctx : QuicStreamCtx) : Prop where
  nodup : (ctx.streams.map QuicStream.streamId).Nodup
  holds : ∃ s, streamFind ctx sid = some s ∧ I s ctx

section Runs

variable {q : QueueFn} {I J : QuicStream → QuicStreamCtx → Prop} {sid : Nat} {ctx : QuicStreamCtx}

theorem StreamHas.set (hI : SendStreamInv q J) (h : StreamHas I sid ctx) {s s' : QuicStream} {ctx' : QuicStreamCtx}
    (hs : streamFind ctx s.streamId = some s) (ha : SendApart s ctx s' ctx') (hsame : s.streamId ≠ sid → I = J)
    (hstep : s.streamId = sid → I s ctx → J s' ctx') : StreamHas J sid (setStream ctx' s') := by
  have hstreams : ctx'.streams = ctx.streams := by rw [ha.same]
  constructor
  · show ((store QuicStream.streamId s' ctx'.streams).map QuicStream.streamId).Nodup
    rw [store_keys, hstreams]
    exact h.nodup
  · obtain ⟨t, ht, hIt⟩ := h.holds
    by_cases hsid : s.streamId = sid
    · rw [← hsid, hs] at ht
      cases ht
      refine ⟨s', ?_, ?_⟩
      · rw [← hsid, ← ha.id]
        apply streamFind_setStream_self
        unfold streamFind
        rw [hstreams, ha.id]
        exact hs
      · refine hI.frames ?_ (hstep hsid hIt)
        rfl
    · refine ⟨t, ?_, ?_⟩
      · rw [streamFind_setStream_ne (by rw [ha.id]; exact Ne.symm hsid)]
        unfold streamFind
        rw [hstreams]
        exact ht
      · have hJ : J t ctx := hsame hsid ▸ hIt
        refine hI.frames ?_ hJ
        rw [setStream_trace, streamFind_id ht]
        exact ha.other sid (Ne.symm hsid)

theorem StreamHas.same (hI : SendStreamInv q I) (h : StreamHas I sid ctx) {ctx' : QuicStreamCtx}
    (hs : ctx'.streams = ctx.streams) (ht : ctx'.trace = ctx.trace) : StreamHas I sid ctx' := by
  obtain ⟨s, hfind, hIs⟩ := h.holds
  refine ⟨by rw [hs]; exact h.nodup, s, ?_, hI.frames (by rw [ht]) hIs⟩
  unfold streamFind
  rw [hs]
  exact hfind

theorem StreamHas.call (hI : SendStreamInv q I) (h : StreamHas I sid ctx) {e : Effect} (he : streamEffect e = none) :
    StreamHas I sid (ctx.call e) := by
  obtain ⟨s, hfind, hIs⟩ := h.holds
  have hsilent : Silent ctx.trace (ctx.call e).trace := (Adds.refl _ _).call he
  exact ⟨h.nodup, s, hfind, hI.frames (hsilent.sent _) hIs⟩

theorem quicStreamWrite_other (hI : SendStreamInv q I) (h : StreamHas I sid ctx) {id : Nat} (hid : id ≠ sid)
    (data : List Byte) (fin : Bool) (cb : Option Nat) (timeoutMs now : Nat) :
    StreamHas I sid (quicStreamWrite q ctx id data fin cb timeoutMs now).2 := by
  have hfail : StreamHas I sid (writeFail ctx id cb) := by
    cases cb with
    | none => exact h
    | some userData => exact h.call hI rfl
  unfold quicStreamWrite
  cases hs : streamFind ctx id with
  | none => exact hfail
  | some s =>
    have hsid := streamFind_id hs
    subst hsid
    dsimp only
    split
    · exact hfail
    · split
      · exact h.set hI hs ⟨rfl, rfl, fun _ _ => rfl⟩ (fun _ => rfl) (fun he => absurd he hid)
      · have happ : SendApart s ctx (writeAppend s data fin cb timeoutMs now) ctx :=
          ⟨(writeAppend_appends s data fin cb timeoutMs now).id, rfl, fun _ _ => rfl⟩
        exact h.set hI hs ((happ.trans (consumeSendBuf_apart q _ ctx)).trans (maybeNotifyWritable_idle _ _).apart)
          (fun _ => rfl) (fun he => absurd he hid)

theorem quicStreamWrite_same (hI : SendStreamInv q I) (hJ : SendStreamInv q J) (h : StreamHas I sid ctx) (data : List Byte)
    (fin : Bool) (cb : Option Nat) (timeoutMs now : Nat) (hopen : ∀ s, I s ctx → ¬ SendEnded s) (happend : ∀ s, streamFind ctx sid
    = some s → ¬ Congested s data.length → I s ctx → J (writeAppend s data fin cb timeoutMs now) ctx) : ((quicStreamWrite q ctx
    sid data fin cb timeoutMs now).1 = 0 ∧ StreamHas J sid (quicStreamWrite q ctx sid data fin cb timeoutMs now).2 ∧
    ∃ s, streamFind ctx sid = some s ∧ ¬ Congested s data.length) ∨ ((quicStreamWrite q ctx sid data fin cb timeoutMs now).1 = 1 ∧
    StreamHas I sid (quicStreamWrite q ctx sid data fin cb timeoutMs now).2) := by
  obtain ⟨s, hs, hIs⟩ := h.holds
  have hid := streamFind_id hs
  have hs' : streamFind ctx s.streamId = some s := by rw [hid]; exact hs
  unfold quicStreamWrite
  rw [hs]
  dsimp only
  rw [if_neg (hopen s hIs)]
  by_cases hc : Congested s data.length
  · rw [if_pos hc]
    refine Or.inr ⟨rfl, ?_⟩
    exact h.set hI hs' ⟨rfl, rfl, fun _ _ => rfl⟩ (fun _ => rfl)
      (fun _ => hI.idle (Idle.flags s ctx s.sendBlocked true s.writeReqs))
  · rw [if_neg hc]
    refine Or.inl ⟨rfl, ?_, s, rfl, hc⟩
    have happ : SendApart s ctx (writeAppend s data fin cb timeoutMs now) ctx :=
      ⟨(writeAppend_appends s data fin cb timeoutMs now).id, rfl, fun _ _ => rfl⟩
    refine h.set hJ hs' ((happ.trans (consumeSendBuf_apart q _ ctx)).trans (maybeNotifyWritable_idle _ _).apart)
      (fun hne => absurd hid hne) ?_
    intro _ hIs
    exact hJ.idle (maybeNotifyWritable_idle _ _) (hJ.consume (happend s hs hc hIs))

theorem quicStreamFlushPending_has (hI : SendStreamInv q I) (h : StreamHas I sid ctx) (now : Nat) :
    StreamHas I sid (quicStreamFlushPending q ctx now) := by
  apply flushPending_inv q (StreamHas I sid) _ now _ h
  · intro c b hc
    exact hc.same hI rfl rfl
  · intro c s hs hc
    have hfind := lookup_of_mem QuicStream.streamId hc.nodup hs
    exact hc.set hI hfind (flushStream_apart q now s c) (fun _ => rfl)
      (fun _ => flushStream_inv q hI.idle hI.consume now)

theorem raiseSendMaxData_eq (s : QuicStream) (lim : Nat) :
    raiseSendMaxData s lim = { s with sendMaxData := max s.sendMaxData lim } := by
  unfold raiseSendMaxData
  split
  · rw [Nat.max_eq_right (by omega)]
  · rw [Nat.max_eq_left (by omega)]

theorem quicStreamOnMaxStreamData_has (hI : SendStreamInv q I) (h : StreamHas I sid ctx) (id maxData : Nat) :
    StreamHas I sid (quicStreamOnMaxStreamData ctx id maxData) := by
  have hopen : StreamHas I sid (streamFindOrCreate ctx id).2 := by
    obtain ⟨s, hs, hIs⟩ := h.holds
    cases hf : streamFind ctx id with
    | some t =>
      unfold streamFindOrCreate
      rw [hf]
      exact h
    | none =>
      have hne : sid ≠ id := by
        rintro rfl
        rw [hf] at hs
        cases hs
      refine ⟨?_, s, by rw [streamFindOrCreate_find_ne ctx hne]; exact hs, hI.frames (by simp) hIs⟩
      unfold streamFindOrCreate
      rw [hf]
      simp only [map_append, map_cons, map_nil]
      refine List.nodup_append.2 ⟨h.nodup, pairwise_singleton _ _, ?_⟩
      intro a ha b hb hab
      obtain ⟨r, hr, hra⟩ := List.mem_map.1 ha
      rw [mem_singleton] at hb
      exact (lookup_eq_none_iff _).1 hf r hr (by rw [hra, hab, hb]; rfl)
  have hfind := streamFindOrCreate_find ctx id
  have hid := streamFindOrCreate_id ctx id
  show StreamHas I sid (setStream (streamFindOrCreate ctx id).2 (raiseSendMaxData (streamFindOrCreate ctx id).1 maxData))
  generalize streamFindOrCreate ctx id = r at hopen hfind hid ⊢
  rw [raiseSendMaxData_eq]
  have hfind' : streamFind r.2 r.1.streamId = some r.1 := by rw [hid]; exact hfind
  exact hopen.set hI hfind' ⟨rfl, rfl, fun _ _ => rfl⟩ (fun _ => rfl) (fun _ hIs => hI.credit _ hIs)

theorem quicStreamApplyInitSendCredit_has (hI : SendStreamInv q I) (h : StreamHas I sid ctx) :
    StreamHas I sid (quicStreamApplyInitSendCredit ctx) := by
  have hid : ∀ s : QuicStream, (raiseSendMaxData s (peerSendCredit ctx s.streamId)).streamId = s.streamId := by
    intro s
    rw [raiseSendMaxData_eq]
  obtain ⟨s, hs, hIs⟩ := h.holds
  refine ⟨?_, raiseSendMaxData s (peerSendCredit ctx s.streamId), ?_, ?_⟩
  · show ((ctx.streams.map _).map QuicStream.streamId).Nodup
    have hids : (ctx.streams.map (fun s => raiseSendMaxData s (peerSendCredit ctx s.streamId))).map
        QuicStream.streamId = ctx.streams.map QuicStream.streamId := by
      rw [map_map]
      exact map_congr_left (fun s _ => hid s)
    rw [hids]
    exact h.nodup
  · show lookup QuicStream.streamId sid (ctx.streams.map _) = _
    rw [lookup_map _ hid, show lookup QuicStream.streamId sid ctx.streams = some s from hs]
    rfl
  · rw [raiseSendMaxData_eq]
    refine hI.frames ?_ (hI.credit _ hIs)
    rfl

theorem setTransportParam_same (ctx : QuicStreamCtx) (tp : Nat × List Byte) :
    (setTransportParam ctx tp).streams = ctx.streams ∧ (setTransportParam ctx tp).trace = ctx.trace := by
  unfold setTransportParam
  split
  · exact ⟨rfl, rfl⟩
  · split <;> exact ⟨rfl, rfl⟩

theorem gotTransportParams_has (hI : SendStreamInv q I) (h : StreamHas I sid ctx) (params : List Byte) :
    StreamHas I sid (gotTransportParams ctx params) := by
  have hloop : ∀ (l : List (Nat × List Byte)) (c : QuicStreamCtx), StreamHas I sid c →
      StreamHas I sid (l.foldl setTransportParam c) := by
    intro l
    induction l with
    | nil => exact fun c hc => hc
    | cons tp l ih =>
      intro c hc
      obtain ⟨hs, ht⟩ := setTransportParam_same c tp
      exact ih _ (hc.same hI hs ht)
  exact quicStreamApplyInitSendCredit_has hI (hloop _ _ h)

/-! ## The run of a stream -/

/-- The calls of a run: writes and flushes, and what changes the peer's credit. -/
inductive WriteCall where
  | write (sid : Nat) (data : List Byte) (fin : Bool) (cb : Option Nat) (timeoutMs now : Nat)
  | flushPending (now : Nat)
  | onMaxData (maxData : Nat)
  | onMaxStreamData (sid maxData : Nat)
  | transportParams (params : List Byte)

def WriteCall.call : WriteCall → StreamCall
  | .write sid data fin cb timeoutMs now => .send (.write sid data fin cb timeoutMs now)
  | .flushPending now => .send (.flushPending now)
  | .onMaxData maxData => .send (.onMaxData maxData)
  | .onMaxStreamData sid maxData => .send (.onMaxStreamData sid maxData)
  | .transportParams params => .transportParams params

structure SendRun where
  ctx : QuicStreamCtx
  /-- the data of the accepted writes -/
  written : List Byte := []
  /-- a write with FIN was accepted -/
  finished : Bool := false
  /-- a write was accepted after that -/
  reopened : Bool := false

def SendRun.note (r : SendRun) (ret : Int) (data : List Byte) (fin : Bool) : SendRun :=
  if ret = 0 then
    { r with
      written := r.written ++ data, finished := r.finished || fin, reopened := r.reopened || r.finished }
  else r

def sendRunStep (q : QueueFn) (sid : Nat) (r : SendRun) (c : WriteCall) : SendRun :=
  let ctx := streamStep q r.ctx c.call
  match c with
  | .write id data fin cb timeoutMs now =>
    if id = sid then { r.note (quicStreamWrite q r.ctx id data fin cb timeoutMs now).1 data fin with ctx }
    else { r with ctx }
  | _ => { r with ctx }

structure FreshStream (sid : Nat) where
  ctx : QuicStreamCtx
  nodup : (ctx.streams.map QuicStream.streamId).Nodup
  stream : QuicStream
  found : streamFind ctx sid = some stream
  nothingSent : sentFrames sid ctx.trace = []
  sendOffset : stream.sendOffset = 0
  sendBufHead : stream.sendBufHead = 0
  sendBufLen : stream.sendBufLen = 0
  taking : ¬ SendEnded stream

theorem FreshStream.intact {sid : Nat} (st : FreshStream sid) : Intact [] st.stream st.ctx := by
  have hid := streamFind_id st.found
  have hsent : sentFrames st.stream.streamId st.ctx.trace = [] := by
    rw [hid]
    exact st.nothingSent
  refine ⟨?_, ?_, ?_, ?_, st.taking⟩
  · rw [hsent]
    trivial
  · rw [hsent, st.sendOffset]
    rfl
  · rw [hsent, st.sendBufLen]
    rfl
  · rw [st.sendBufHead, st.sendBufLen]
    exact Nat.zero_le _

theorem otherCall_has (hI : SendStreamInv q I) (h : StreamHas I sid ctx) (c : WriteCall)
    (hc : ∀ data fin cb timeoutMs now, c ≠ .write sid data fin cb timeoutMs now) : StreamHas I sid (streamStep q ctx c.call) := by
  cases c with
  | write id data fin cb timeoutMs now =>
    refine quicStreamWrite_other hI h ?_ data fin cb timeoutMs now
    rintro rfl
    exact hc _ _ _ _ _ rfl
  | flushPending now => exact quicStreamFlushPending_has hI h now
  | onMaxData maxData =>
    show StreamHas I sid (quicStreamOnMaxData ctx maxData)
    unfold quicStreamOnMaxData
    split
    · exact h.same hI rfl rfl
    · exact h
  | onMaxStreamData id maxData => exact quicStreamOnMaxStreamData_has hI h id maxData
  | transportParams params => exact gotTransportParams_has hI h params

theorem sendRunStep_intact (r : SendRun) (c : WriteCall) (h : StreamHas (Intact r.written) sid r.ctx) :
    StreamHas (Intact (sendRunStep q sid r c).written) sid (sendRunStep q sid r c).ctx := by
  have hother := otherCall_has (intact_sendStreamInv q r.written) h c
  cases c with
  | write id data fin cb timeoutMs now =>
    unfold sendRunStep
    dsimp only
    by_cases hid : id = sid
    · subst hid
      rw [if_pos rfl]
      have hw := quicStreamWrite_same (intact_sendStreamInv q r.written) (intact_sendStreamInv q (r.written ++ data)) h data
        fin cb timeoutMs now (fun s hs => hs.taking) (fun s _ _ hs => hs.append data fin cb timeoutMs now)
      unfold SendRun.note
      rcases hw with ⟨hret, hw, _⟩ | ⟨hret, hw⟩
      · rw [hret, if_pos rfl]
        exact hw
      · rw [hret, if_neg (by decide)]
        exact hw
    · rw [if_neg hid]
      refine hother ?_
      rintro _ _ _ _ _ he
      cases he
      exact hid rfl
  | _ =>
    refine hother ?_
    rintro _ _ _ _ _ he
    cases he

end Runs

/-- **What is sent is what was written**: in every run of writes, flushes and credit updates, whatever `queue_fn`
refuses, the accepted STREAM frames of a stream follow one another from offset 0, and their payloads followed by what
`send_buf` holds are the data of the accepted writes. -/
theorem sent_is_written (q : QueueFn) (sid : Nat) (st : FreshStream sid) (cs : List WriteCall) :
    ∃ s, streamFind (cs.foldl (sendRunStep q sid) { ctx := st.ctx }).ctx sid = some s ∧
      Contiguous 0 (sentFrames sid (cs.foldl (sendRunStep q sid) { ctx := st.ctx }).ctx.trace) ∧
      frameBytes (sentFrames sid (cs.foldl (sendRunStep q sid) { ctx := st.ctx }).ctx.trace) ++
          s.sendBuf.read s.sendBufHead s.sendBufLen =
        (cs.foldl (sendRunStep q sid) { ctx := st.ctx }).written.map some ∧
      s.sendBufHead + s.sendBufLen ≤ s.sendBufCap := by
  have hinv := foldl_inv (sendRunStep q sid) (fun _ _ => True) (fun r => StreamHas (Intact r.written) sid r.ctx)
    (fun r c h _ => sendRunStep_intact r c h) cs { ctx := st.ctx } ⟨st.nodup, st.stream, st.found, st.intact⟩
    (stepsOk_of_forall _ _ cs _ (fun _ _ _ => trivial))
  generalize cs.foldl (sendRunStep q sid) { ctx := st.ctx } = r at hinv ⊢
  obtain ⟨s, hs, h⟩ := hinv.holds
  have hid := streamFind_id hs
  exact ⟨s, hs, hid ▸ h.contiguous, hid ▸ h.bytes, h.cap⟩

end MoqLiveCast
