import MoqLiveCast.Quic.StreamSend
/-!
# StreamSent — the STREAM frames of a trace, and what the send side does to a stream

The STREAM frames handed to `queue_fn` are read off the trace. `consumeLoop_inv` is the rule the properties of
`consume_send_buf` are proved by: what idle steps, a queued chunk and a freed buffer keep, the loop keeps.
-/
namespace MoqLiveCast

/-! ## STREAM frames -/

structure SentFrame where
  offset : Nat
  fin : Bool
  data : List (Option Byte)
deriving DecidableEq

def SentFrame.stop (f : SentFrame) : Nat := f.offset + f.data.length

/-- A STREAM frame handed to `queue_fn`, with its stream and the answer. -/
def streamEffect : Effect → Option (Nat × SentFrame × Bool)
  | .queueFrame (.stream sid offset fin data) accepted => some (sid, ⟨offset, fin, data⟩, accepted)
  | _ => none

def handedFrames (tr : List Effect) : List (Nat × SentFrame × Bool) := tr.filterMap streamEffect

/-- The STREAM frames `queue_fn` accepted for a stream. -/
def sentFrames (sid : Nat) (tr : List Effect) : List SentFrame :=
  (handedFrames tr).filterMap (fun h => if h.1 = sid ∧ h.2.2 = true then some h.2.1 else none)

def sentTotal (tr : List Effect) : Nat :=
  ((handedFrames tr).map (fun h => if h.2.2 = true then h.2.1.data.length else 0)).sum

@[simp] theorem handedFrames_append (tr tr' : List Effect) :
    handedFrames (tr ++ tr') = handedFrames tr ++ handedFrames tr' := List.filterMap_append

def Adds (p : Effect → Prop) (tr tr' : List Effect) : Prop := ∃ l, tr' = tr ++ l ∧ ∀ e ∈ l, p e

theorem Adds.refl (p : Effect → Prop) (tr : List Effect) : Adds p tr tr := ⟨[], by simp, by simp⟩

theorem Adds.trans {p : Effect → Prop} {tr tr' tr'' : List Effect} (h1 : Adds p tr tr') (h2 : Adds p tr' tr'') :
    Adds p tr tr'' := by
  obtain ⟨l, rfl, hl⟩ := h1
  obtain ⟨l', rfl, hl'⟩ := h2
  refine ⟨l ++ l', by simp, ?_⟩
  intro e he
  exact (List.mem_append.1 he).elim (hl e) (hl' e)

variable {tr tr' : List Effect}

theorem Adds.mono {p p' : Effect → Prop} (h : Adds p tr tr') (hp : ∀ e, p e → p' e) : Adds p' tr tr' := by
  obtain ⟨l, hl, hall⟩ := h
  exact ⟨l, hl, fun e he => hp e (hall e he)⟩

theorem Adds.call {p : Effect → Prop} {tr : List Effect} {ctx : QuicStreamCtx} (h : Adds p tr ctx.trace) {e : Effect}
    (he : p e) : Adds p tr (ctx.call e).trace :=
  h.trans ⟨[e], rfl, by simpa using he⟩

abbrev Silent : List Effect → List Effect → Prop := Adds (fun e => streamEffect e = none)

theorem Silent.handed (h : Silent tr tr') : handedFrames tr' = handedFrames tr := by
  obtain ⟨l, rfl, hl⟩ := h
  have : handedFrames l = [] := List.filterMap_eq_nil_iff.2 hl
  simp [this]

theorem Silent.sent (h : Silent tr tr') (sid : Nat) : sentFrames sid tr' = sentFrames sid tr := by
  simp only [sentFrames, h.handed]

theorem Silent.total (h : Silent tr tr') : sentTotal tr' = sentTotal tr := by
  simp only [sentTotal, h.handed]

variable (q : QueueFn)

theorem handed_stream (ctx : QuicStreamCtx) (id offset : Nat) (fin : Bool) (data : List (Option Byte)) : handedFrames
    (ctx.queueFn q (.stream id offset fin data)).trace = handedFrames ctx.trace ++ [(id, ⟨offset, fin, data⟩, q ctx.trace
    (.stream id offset fin data))] := by
  unfold QuicStreamCtx.queueFn
  simp [handedFrames, streamEffect]

theorem sent_stream (ctx : QuicStreamCtx) (id offset : Nat) (fin : Bool) (data : List (Option Byte))
    (sid : Nat) : sentFrames sid (ctx.queueFn q (.stream id offset fin data)).trace = sentFrames sid ctx.trace ++
      if id = sid ∧ q ctx.trace (.stream id offset fin data) = true then [⟨offset, fin, data⟩] else [] := by
  unfold sentFrames
  rw [handed_stream, List.filterMap_append]
  congr 1
  by_cases hid : id = sid <;> cases hq : q ctx.trace (.stream id offset fin data) <;> simp [hid]

theorem total_stream (ctx : QuicStreamCtx) (id offset : Nat) (fin : Bool) (data : List (Option Byte)) :
    sentTotal (ctx.queueFn q (.stream id offset fin data)).trace =
      sentTotal ctx.trace + if q ctx.trace (.stream id offset fin data) = true then data.length else 0 := by
  unfold sentTotal
  rw [handed_stream]
  simp

/-! ## Idle steps -/

def SameSend (s s' : QuicStream) : Prop :=
  s' = { s with
    sendBlocked := s'.sendBlocked, wantWritable := s'.wantWritable, writeReqs := s'.writeReqs }

/-- An effect on the side: a callback of the sender, or a frame that tells the peer of a limit. -/
def Aside : Effect → Prop
  | .queueFrame (.streamDataBlocked _ _) _ => True
  | .queueFrame (.dataBlocked _) _ => True
  | .queueFrame _ _ => False
  | .streamData _ _ _ => False
  | .streamReset _ _ => False
  | _ => True

theorem Aside.silent {e : Effect} (h : Aside e) : streamEffect e = none := by
  unfold Aside at h
  split at h <;> simp_all [streamEffect]

structure Idle (s : QuicStream) (ctx : QuicStreamCtx) (s' : QuicStream) (ctx' : QuicStreamCtx) : Prop where
  stream : SameSend s s'
  same : ctx' = { ctx with trace := ctx'.trace }
  adds : Adds Aside ctx.trace ctx'.trace

variable {ctx ctx' : QuicStreamCtx}

theorem Idle.silent {s s' : QuicStream} (h : Idle s ctx s' ctx') :
    Silent ctx.trace ctx'.trace := h.adds.mono (fun _ => Aside.silent)

variable (s : QuicStream)

theorem Idle.refl (ctx : QuicStreamCtx) : Idle s ctx s ctx := ⟨rfl, rfl, Adds.refl _ _⟩

theorem Idle.trans {s s' s'' : QuicStream} {ctx ctx' ctx'' : QuicStreamCtx} (h1 : Idle s ctx s' ctx')
    (h2 : Idle s' ctx' s'' ctx'') : Idle s ctx s'' ctx'' := by
  refine ⟨?_, ?_, h1.adds.trans h2.adds⟩
  · have h := h2.stream
    unfold SameSend at *
    rw [h1.stream] at h
    exact h
  · have h := h2.same
    rw [h1.same] at h
    exact h

theorem Idle.flags (ctx : QuicStreamCtx) (blocked want : Bool) (reqs : List QuicStreamWriteReq) :
    Idle s ctx { s with sendBlocked := blocked, wantWritable := want, writeReqs := reqs } ctx :=
  ⟨rfl, rfl, Adds.refl _ _⟩

theorem Idle.call {s s' : QuicStream} (h : Idle s ctx s' ctx') {e : Effect} (he : Aside e) : Idle s ctx s' (ctx'.call e) :=
  h.trans ⟨rfl, rfl, (Adds.refl _ _).call he⟩

theorem maybeNotifyWritable_idle (ctx : QuicStreamCtx) :
    Idle s ctx (maybeNotifyWritable s ctx).1 (maybeNotifyWritable s ctx).2 := by
  unfold maybeNotifyWritable
  split
  · exact Idle.refl s ctx
  · have h := Idle.flags s ctx s.sendBlocked false s.writeReqs
    dsimp only
    split
    · exact h.call trivial
    · exact h

theorem consumeBlocked_idle {limit : Frame} (hl : ∀ b, Aside (.queueFrame limit b)) (s : QuicStream)
    (ctx : QuicStreamCtx) : Idle s ctx (consumeBlocked q limit s ctx).1 (consumeBlocked q limit s ctx).2 := by
  have h := Idle.flags s ctx true s.wantWritable s.writeReqs
  unfold consumeBlocked
  dsimp only
  split
  · exact h.trans (maybeNotifyWritable_idle _ _)
  · exact ((h.call (hl _)).call (e := .flush) trivial).trans (maybeNotifyWritable_idle _ _)

theorem reqExpire_idle (s : QuicStream) (sid now : Nat) : ∀ (reqs : List QuicStreamWriteReq) (ctx : QuicStreamCtx),
    Idle s ctx s (reqExpire sid now reqs ctx).2
  | [], ctx => Idle.refl s ctx
  | r :: rs, ctx => by
    unfold reqExpire
    split
    · exact ((Idle.refl s ctx).call (e := .writeDone sid (-2) r.length r.userData) trivial).trans (reqExpire_idle s sid now rs _)
    · exact Idle.refl s ctx

theorem reqFireCompleted_idle (ctx : QuicStreamCtx) (acked : Nat) :
    Idle s ctx (reqFireCompleted s ctx acked).1 (reqFireCompleted s ctx acked).2 := by
  have hloop : ∀ (reqs : List QuicStreamWriteReq) (c : QuicStreamCtx),
      Idle s c s (reqFireCompletedLoop s.streamId acked reqs c).2 := by
    intro reqs
    induction reqs with
    | nil => exact fun c => Idle.refl s c
    | cons r rs ih =>
      intro c
      unfold reqFireCompletedLoop
      split
      · exact Idle.refl s c
      · exact ((Idle.refl s c).call (e := .writeDone s.streamId 0 r.length r.userData) trivial).trans (ih _)
  exact (hloop s.writeReqs ctx).trans (Idle.flags s _ s.sendBlocked s.wantWritable _)

theorem reqFailAll_idle (retCode : Int) (ctx : QuicStreamCtx) :
    Idle s ctx (reqFailAll s ctx retCode).1 (reqFailAll s ctx retCode).2 := by
  have hcalls : ∀ (reqs : List QuicStreamWriteReq) (c : QuicStreamCtx), Idle s c s
      (reqs.foldl (fun ctx r => ctx.call (.writeDone s.streamId retCode 0 r.userData)) c) := by
    intro reqs
    induction reqs with
    | nil => exact fun c => Idle.refl s c
    | cons r rs ih => exact fun c =>
      ((Idle.refl s c).call (e := .writeDone s.streamId retCode 0 r.userData) trivial).trans (ih _)
  exact (hcalls s.writeReqs ctx).trans (Idle.flags s _ s.sendBlocked s.wantWritable [])

/-! ## The rule of `consume_send_buf` -/

def consumeFreed (s : QuicStream) : QuicStream :=
  { s with sendBuf := Mem.fresh, sendBufHead := 0, sendBufCap := 0, sendBufFin := false, sendBlocked := false }

section Consume

variable (q : QueueFn) (P : QuicStream → QuicStreamCtx → Prop)

theorem consumeLoop_inv (hidle : ∀ {s ctx s' ctx'}, Idle s ctx s' ctx' → P s ctx → P s' ctx') (hfreed : ∀ {s ctx}, s.sendBufLen =
    0 → P s ctx → P (consumeFreed s) ctx) (hqueued : ∀ {s ctx}, s.sendBufLen ≠ 0 → streamRoom s ≠ 0 → connRoom ctx ≠ 0 →
    q ctx.trace (.stream s.streamId s.sendOffset (consumeIsLast s ctx) (s.sendBuf.read s.sendBufHead (consumeChunk s ctx))) =
    true → P s ctx → P (consumeAdvance s (consumeChunk s ctx)) ((ctx.queueFn q (.stream s.streamId s.sendOffset (consumeIsLast s
    ctx) (s.sendBuf.read s.sendBufHead (consumeChunk s ctx)))).addSent (consumeChunk s ctx))) (hrefused : ∀ {s ctx},
    s.sendBufLen ≠ 0 → streamRoom s ≠ 0 → connRoom ctx ≠ 0 → q ctx.trace (.stream s.streamId s.sendOffset (consumeIsLast s ctx)
    (s.sendBuf.read s.sendBufHead (consumeChunk s ctx))) = false → P s ctx → P s (ctx.queueFn q (.stream s.streamId s.sendOffset
    (consumeIsLast s ctx) (s.sendBuf.read s.sendBufHead (consumeChunk s ctx))))) : ∀ (n : Nat) (s : QuicStream) (ctx :
    QuicStreamCtx), s.sendBufLen ≤ n → P s ctx → P (consumeLoop q n s ctx).1 (consumeLoop q n s ctx).2 := by
  have hdone : ∀ s ctx, s.sendBufLen = 0 → P s ctx → P (consumeDone s ctx).1 (consumeDone s ctx).2 :=
    fun s ctx h0 h => hidle (maybeNotifyWritable_idle _ ctx) (hfreed h0 h)
  intro n
  induction n with
  | zero => exact fun s ctx hn h => hdone s ctx (Nat.le_zero.1 hn) h
  | succ n ih =>
    intro s ctx hn h
    unfold consumeLoop
    split
    · rename_i h0
      exact hdone s ctx h0 h
    · rename_i h0
      split
      · refine hidle (consumeBlocked_idle q ?_ s ctx) h
        intro b
        trivial
      · rename_i hs
        split
        · refine hidle (consumeBlocked_idle q ?_ s ctx) h
          intro b
          trivial
        · rename_i hc
          split
          · exact h
          · rename_i frame hframe
            have hfr := quicFrameWriteStream_eq hframe
            subst hfr
            split
            · rename_i hacc
              refine ih _ _ ?_ (hqueued h0 hs hc hacc h)
              have hchunk : 0 < consumeChunk s ctx := by
                unfold consumeChunk MAX_PAYLOAD_CHUNK
                omega
              simp only [consumeAdvance]
              omega
            · rename_i hacc
              have hacc := Bool.eq_false_iff.2 hacc
              exact hidle (maybeNotifyWritable_idle _ _)
                (hidle (Idle.flags s _ true s.wantWritable s.writeReqs) (hrefused h0 hs hc hacc h))

end Consume

/-! ## The rule of `quic_stream_send` -/

def sendAdvance (s : QuicStream) (n : Nat) : QuicStream := { s with sendOffset := s.sendOffset + n }

section SendFrames

variable (q : QueueFn) (P : QuicStream → QuicStreamCtx → Prop)

theorem sendFrames_inv (hqueued : ∀ {s ctx} (fin : Bool) (bytes : List (Option Byte)), bytes.length ≤ streamRoom s →
    bytes.length ≤ connRoom ctx → q ctx.trace (.stream s.streamId s.sendOffset fin bytes) = true → P s ctx →
    P (sendAdvance s bytes.length) ((ctx.queueFn q (.stream s.streamId s.sendOffset fin bytes)).addSent bytes.length)) (hrefused :
    ∀ {s ctx} (fin : Bool) (bytes : List (Option Byte)), bytes.length ≤ streamRoom s → q ctx.trace (.stream s.streamId
    s.sendOffset fin bytes) = false → P s ctx → P s (ctx.queueFn q (.stream s.streamId s.sendOffset fin bytes))) (data :
    List Byte) (fin : Bool) {s : QuicStream} {ctx : QuicStreamCtx} (h : P s ctx) : P (sendFrames q s ctx data fin).2.1
    (sendFrames q s ctx data fin).2.2 := by
  have hloop : ∀ (n sent : Nat) (s : QuicStream) (ctx : QuicStreamCtx), P s ctx →
      P (sendLoop q data fin n sent s ctx).2.1 (sendLoop q data fin n sent s ctx).2.2 := by
    intro n
    induction n with
    | zero => exact fun _ _ _ h => h
    | succ n ih =>
      intro sent s ctx h
      unfold sendLoop
      split
      · split
        · exact h
        · dsimp only
          generalize hchunk : min (min (min (data.length - sent) MC) (streamRoom s)) (connRoom ctx) = chunk
          generalize (if data.length ≤ sent + chunk then fin else false) = isLast
          split
          · exact h
          · rename_i frame hframe
            have hfr := quicFrameWriteStream_eq hframe
            subst hfr
            have hlen : (((data.drop sent).take chunk).map some).length = chunk := by
              rw [List.length_map, List.length_take, List.length_drop]
              omega
            have hstream : chunk ≤ streamRoom s := by omega
            have hconn : chunk ≤ connRoom ctx := by omega
            rw [← hlen] at hstream hconn
            split
            · rename_i hacc
              have hnext := hqueued isLast _ hstream hconn hacc h
              rw [hlen] at hnext
              exact ih _ _ _ hnext
            · rename_i hacc
              exact hrefused isLast _ hstream (Bool.eq_false_iff.2 hacc) h
      · exact h
  unfold sendFrames
  split
  · split
    · exact h
    · rename_i frame hframe
      have hfr := quicFrameWriteStream_eq hframe
      subst hfr
      dsimp only
      cases hacc : q ctx.trace (.stream s.streamId s.sendOffset true []) with
      | true => exact hqueued true [] (Nat.zero_le _) (Nat.zero_le _) hacc h
      | false => exact hrefused true [] (Nat.zero_le _) hacc h
  · exact hloop _ _ _ _ h

end SendFrames

/-! ## A write appends -/

/-- `n` more bytes are pending; the id, the offset and the credit stay. -/
structure Appends (n : Nat) (s s' : QuicStream) : Prop where
  id : s'.streamId = s.streamId
  sendOffset : s'.sendOffset = s.sendOffset
  sendMaxData : s'.sendMaxData = s.sendMaxData
  sendBufLen : s'.sendBufLen = s.sendBufLen + n

theorem Appends.refl : Appends 0 s s := ⟨rfl, rfl, rfl, rfl⟩

theorem Appends.trans {m n : Nat} {s s' s'' : QuicStream} (h1 : Appends m s s') (h2 : Appends n s' s'') : Appends (m + n) s s'' :=
  ⟨h2.id.trans h1.id, h2.sendOffset.trans h1.sendOffset, h2.sendMaxData.trans h1.sendMaxData, by
    rw [h2.sendBufLen, h1.sendBufLen, Nat.add_assoc]⟩

theorem Appends.ite {n : Nat} {s a b : QuicStream} (p : Prop) [Decidable p] (h1 : Appends n s a) (h2 : Appends n s b) :
    Appends n s (if p then a else b) := by
  split
  · exact h1
  · exact h2

theorem sendBufAppend_appends (data : List Byte) : Appends data.length s (sendBufAppend s data) := by
  have hensure : ∀ n, Appends 0 s (sendBufEnsure s n) := fun n =>
    Appends.ite _ (Appends.ite _ ⟨rfl, rfl, rfl, rfl⟩ (Appends.refl s)) (Appends.ite _ ⟨rfl, rfl, rfl, rfl⟩ ⟨rfl, rfl, rfl, rfl⟩)
  unfold sendBufAppend
  split
  · rename_i h
    rw [h]
    exact Appends.refl s
  · have hcopy : ∀ b : QuicStream, Appends data.length b { b with
        sendBuf := b.sendBuf.write (b.sendBufHead + b.sendBufLen) (data.map some)
        sendBufLen := b.sendBufLen + data.length } := fun _ => ⟨rfl, rfl, rfl, rfl⟩
    have h := (hensure (s.sendBufLen + data.length)).trans (hcopy _)
    rwa [Nat.zero_add] at h

theorem writeAppend_appends (data : List Byte) (fin : Bool) (cb : Option Nat) (timeoutMs now : Nat) :
    Appends data.length s (writeAppend s data fin cb timeoutMs now) := by
  have hreq : Appends 0 s (writeRequest s data.length cb timeoutMs now) := by
    cases cb with
    | none => exact Appends.refl s
    | some userData => exact ⟨rfl, rfl, rfl, rfl⟩
  have hflags : ∀ t, Appends 0 t (writeFlags t fin) := fun t => by
    unfold writeFlags
    cases fin
    · exact Appends.ite _ ⟨rfl, rfl, rfl, rfl⟩ (Appends.refl t)
    · exact Appends.ite _ ⟨rfl, rfl, rfl, rfl⟩ ⟨rfl, rfl, rfl, rfl⟩
  have h := (hreq.trans (sendBufAppend_appends _ data)).trans (hflags _)
  rwa [Nat.zero_add] at h

theorem raiseSendMaxData_id (lim : Nat) :
    (raiseSendMaxData s lim).streamId = s.streamId ∧ (raiseSendMaxData s lim).sendOffset = s.sendOffset := by
  unfold raiseSendMaxData
  split <;> exact ⟨rfl, rfl⟩

/-! ## A stream's turn -/

/-- What a stream's turn does to the context: frames of the stream are queued and counted. -/
structure SendApart (s : QuicStream) (ctx : QuicStreamCtx) (s' : QuicStream) (ctx' : QuicStreamCtx) : Prop where
  id : s'.streamId = s.streamId
  same : ctx' = { ctx with trace := ctx'.trace, bytesSent := ctx'.bytesSent }
  other : ∀ sid, sid ≠ s.streamId → sentFrames sid ctx'.trace = sentFrames sid ctx.trace

theorem SendApart.refl (ctx : QuicStreamCtx) : SendApart s ctx s ctx := ⟨rfl, rfl, fun _ _ => rfl⟩

theorem SendApart.trans {s s' s'' : QuicStream} {ctx ctx' ctx'' : QuicStreamCtx} (h1 : SendApart s ctx s' ctx')
    (h2 : SendApart s' ctx' s'' ctx'') : SendApart s ctx s'' ctx'' := by
  refine ⟨h2.id.trans h1.id, ?_, fun sid h => ?_⟩
  · have h := h2.same
    rw [h1.same] at h
    exact h
  · exact (h2.other sid (by rw [h1.id]; exact h)).trans (h1.other sid h)

theorem Idle.apart {s s' : QuicStream} (h : Idle s ctx s' ctx') : SendApart s ctx s' ctx' := by
  have hs := h.stream
  unfold SameSend at hs
  refine ⟨by rw [hs], ?_, fun sid _ => h.silent.sent sid⟩
  have hc := h.same
  rw [hc]

theorem queueStream_apart (s s' : QuicStream) (ctx : QuicStreamCtx) (hid : s'.streamId = s.streamId)
    (offset : Nat) (fin : Bool) (data : List (Option Byte)) (n : Nat) :
    SendApart s ctx s' ((ctx.queueFn q (.stream s.streamId offset fin data)).addSent n) := by
  refine ⟨hid, rfl, fun sid h => ?_⟩
  show sentFrames sid (QuicStreamCtx.queueFn q ctx _).trace = _
  rw [sent_stream, if_neg (fun hh => h hh.1.symm), List.append_nil]

theorem consumeSendBuf_apart (s : QuicStream) (ctx : QuicStreamCtx) :
    SendApart s ctx (consumeSendBuf q s ctx).1 (consumeSendBuf q s ctx).2 := by
  apply consumeLoop_inv q (SendApart s ctx)
  · intro s1 c1 s2 c2 hi h
    exact h.trans hi.apart
  · intro s1 c1 _ h
    exact h.trans ⟨rfl, rfl, fun _ _ => rfl⟩
  · intro s1 c1 _ _ _ _ h
    exact h.trans (queueStream_apart q s1 (consumeAdvance s1 (consumeChunk s1 c1)) c1 rfl _ _ _ _)
  · intro s1 c1 _ _ _ _ h
    exact h.trans (queueStream_apart q s1 s1 c1 rfl _ _ _ 0)
  · exact Nat.le_refl _
  · exact SendApart.refl s ctx

theorem flushStream_inv {P : QuicStream → QuicStreamCtx → Prop} (hidle : ∀ {s ctx s' ctx'}, Idle s ctx s' ctx' → P s ctx →
    P s' ctx') (hconsume : ∀ {s ctx}, P s ctx → P (consumeSendBuf q s ctx).1 (consumeSendBuf q s ctx).2) (now : Nat) {s :
    QuicStream} {ctx : QuicStreamCtx} (h : P s ctx) : P (flushStream q now s ctx).1 (flushStream q now s ctx).2 := by
  have hend : ∀ r : QuicStream × QuicStreamCtx, P r.1 r.2 →
      P (maybeNotifyWritable (reqFireCompleted r.1 r.2 r.1.sendOffset).1 (reqFireCompleted r.1 r.2 r.1.sendOffset).2).1
        (maybeNotifyWritable (reqFireCompleted r.1 r.2 r.1.sendOffset).1
          (reqFireCompleted r.1 r.2 r.1.sendOffset).2).2 := fun r hr =>
    hidle ((reqFireCompleted_idle r.1 r.2 _).trans (maybeNotifyWritable_idle _ _)) hr
  have h1 := hidle ((reqExpire_idle s s.streamId now s.writeReqs ctx).trans
    (Idle.flags s _ s.sendBlocked s.wantWritable (reqExpire s.streamId now s.writeReqs ctx).1)) h
  unfold flushStream
  dsimp only at h1 ⊢
  split
  · exact hend _ (hconsume h1)
  · exact hend _ (hidle (maybeNotifyWritable_idle _ _) h1)

theorem flushStream_apart (now : Nat) (s : QuicStream) (ctx : QuicStreamCtx) :
    SendApart s ctx (flushStream q now s ctx).1 (flushStream q now s ctx).2 := by
  apply flushStream_inv (P := SendApart s ctx) q
  · intro s1 c1 s2 c2 hi h
    exact h.trans hi.apart
  · intro s1 c1 h
    exact h.trans (consumeSendBuf_apart q s1 c1)
  · exact SendApart.refl s ctx

theorem flushPending_inv (J : QuicStreamCtx → Prop) (hflag : ∀ {ctx} (b : Bool), J ctx → J { ctx with flushing := b }) (now : Nat)
    (hturn : ∀ {ctx s}, s ∈ ctx.streams → J ctx →
      J (setStream (flushStream q now s ctx).2 (flushStream q now s ctx).1)) {ctx : QuicStreamCtx} (h : J ctx) :
    J (quicStreamFlushPending q ctx now) := by
  have hloop : ∀ (l : List Nat) (c : QuicStreamCtx), J c → J (l.foldl (flushTurn q now) c) := by
    intro l
    induction l with
    | nil => exact fun c hc => hc
    | cons i l ih =>
      intro c hc
      refine ih _ ?_
      unfold flushTurn
      cases hi : c.streams[i]? with
      | none => exact hc
      | some s => exact hturn (List.mem_of_getElem? hi) hc
  unfold quicStreamFlushPending
  split
  · exact h
  · exact hflag false (hloop _ _ (hflag true h))

end MoqLiveCast
