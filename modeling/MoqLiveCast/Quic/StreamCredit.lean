import MoqLiveCast.Lib.Run
import MoqLiveCast.Quic.StreamCalls
import MoqLiveCast.Quic.StreamRecvApart
/-!
# StreamCredit — nothing is sent past the peer's credit

The limits the peer has sent (`Limit`) are kept beside the run; the credit of a stream and of the connection is the
largest of those that are for it.
-/
namespace MoqLiveCast

/-! ## What the peer allows -/

/-- A limit the peer sends: of a frame, or of its transport parameters. -/
inductive Limit where
  | conn (n : Nat)
  | stream (sid n : Nat)
  | bidiLocal (n : Nat)
  | bidiRemote (n : Nat)
  | uni (n : Nat)

def paramLimit (tp : Nat × List Byte) : Option Limit :=
  match quicVarintDecode tp.2 with
  | none => none
  | some (val, _) =>
    match tp.1 with
    | 0x04 => some (.conn val)
    | 0x05 => some (.bidiLocal val)
    | 0x06 => some (.bidiRemote val)
    | 0x07 => some (.uni val)
    | _ => none

def StreamCall.limits : StreamCall → List Limit
  | .send (.onMaxData n) => [.conn n]
  | .send (.onMaxStreamData sid n) => [.stream sid n]
  | .transportParams params => (MoqLiveCast.transportParams params.length params).filterMap paramLimit
  | _ => []

def Limit.onConn : Limit → Nat
  | .conn n => n
  | _ => 0

def Limit.onStream (server : Bool) (sid : Nat) : Limit → Nat
  | .conn _ => 0
  | .stream id n => if id = sid then n else 0
  | .bidiLocal n => if sid / 2 % 2 = 0 ∧ ¬ weOpen server sid then n else 0
  | .bidiRemote n => if sid / 2 % 2 = 0 ∧ weOpen server sid then n else 0
  | .uni n => if sid / 2 % 2 = 1 then n else 0

def largest (l : List Nat) : Nat := l.foldr max 0

theorem le_largest {n : Nat} : ∀ {l : List Nat}, n ∈ l → n ≤ largest l
  | m :: l, h => by
    unfold largest
    rw [List.foldr_cons]
    rcases List.mem_cons.1 h with rfl | h
    · exact Nat.le_max_left _ _
    · exact Nat.le_trans (le_largest h) (Nat.le_max_right _ _)

theorem largest_append : ∀ l l' : List Nat, largest (l ++ l') = max (largest l) (largest l')
  | [], l' => by simp [largest]
  | n :: l, l' => by
    have ih := largest_append l l'
    unfold largest at *
    rw [List.cons_append, List.foldr_cons, List.foldr_cons, ih, Nat.max_assoc]

def connCredit (ls : List Limit) : Nat := largest (ls.map Limit.onConn)

def streamCredit (server : Bool) (ls : List Limit) (sid : Nat) : Nat := largest (ls.map (Limit.onStream server sid))

theorem connCredit_append (ls ls' : List Limit) : connCredit (ls ++ ls') = max (connCredit ls) (connCredit ls') := by
  unfold connCredit
  rw [List.map_append, largest_append]

theorem streamCredit_append (server : Bool) (ls ls' : List Limit) (sid : Nat) :
    streamCredit server (ls ++ ls') sid = max (streamCredit server ls sid) (streamCredit server ls' sid) := by
  unfold streamCredit
  rw [List.map_append, largest_append]

/-! ## Within the credit -/

structure StreamWithin (C : Nat → Nat) (s : QuicStream) : Prop where
  sendOffset : s.sendOffset ≤ C s.streamId
  sendMaxData : s.sendMaxData ≤ C s.streamId

/-- What was handed over is within the credit `C` of the streams and `D` of the connection. -/
structure SendsWithin (C : Nat → Nat) (D : Nat) (ctx : QuicStreamCtx) : Prop where
  handed : ∀ h ∈ handedFrames ctx.trace, h.2.1.stop ≤ C h.1
  total : sentTotal ctx.trace = ctx.bytesSent
  bytesSent : ctx.bytesSent ≤ D
  maxDataPeer : ctx.maxDataPeer ≤ D

section Within

variable {C : Nat → Nat} {D : Nat} {s : QuicStream} {ctx : QuicStreamCtx}

theorem StreamWithin.mono {C' : Nat → Nat} (hC : ∀ sid, C sid ≤ C' sid) (h : StreamWithin C s) : StreamWithin C' s :=
  ⟨Nat.le_trans h.sendOffset (hC _), Nat.le_trans h.sendMaxData (hC _)⟩

theorem SendsWithin.mono {C' : Nat → Nat} {D' : Nat} (hC : ∀ sid, C sid ≤ C' sid) (hD : D ≤ D')
    (h : SendsWithin C D ctx) : SendsWithin C' D' ctx :=
  ⟨fun f hf => Nat.le_trans (h.handed f hf) (hC _), h.total, Nat.le_trans h.bytesSent hD,
    Nat.le_trans h.maxDataPeer hD⟩

theorem SendsWithin.silent (h : SendsWithin C D ctx) {ctx' : QuicStreamCtx} (hs : Silent ctx.trace ctx'.trace)
    (hb : ctx'.bytesSent = ctx.bytesSent) (hm : ctx'.maxDataPeer = ctx.maxDataPeer) : SendsWithin C D ctx' := by
  constructor
  · rw [hs.handed]
    exact h.handed
  · rw [hs.total, hb]
    exact h.total
  · rw [hb]
    exact h.bytesSent
  · rw [hm]
    exact h.maxDataPeer

theorem StreamWithin.advance (hw : StreamWithin C s) {n : Nat} (hroom : n ≤ streamRoom s) : s.sendOffset + n ≤ C s.streamId := by
  have hoff := hw.sendOffset
  have hmax := hw.sendMaxData
  unfold streamRoom at hroom
  split at hroom <;> omega

theorem SendsWithin.handOver (q : QueueFn) (h : SendsWithin C D ctx) (hw : StreamWithin C s) (fin : Bool)
    {bytes : List (Option Byte)} (hroom : bytes.length ≤ streamRoom s) :
    ∀ x ∈ handedFrames (ctx.queueFn q (.stream s.streamId s.sendOffset fin bytes)).trace, x.2.1.stop ≤ C x.1 := by
  intro x hx
  rw [handed_stream] at hx
  rcases List.mem_append.1 hx with hx | hx
  · exact h.handed x hx
  · rw [List.mem_singleton] at hx
    subst hx
    exact hw.advance hroom

theorem SendsWithin.queued (q : QueueFn) (h : SendsWithin C D ctx) (hw : StreamWithin C s) (fin : Bool)
    {bytes : List (Option Byte)} (hroom : bytes.length ≤ streamRoom s) (hconn : bytes.length ≤ connRoom ctx)
    (hacc : q ctx.trace (.stream s.streamId s.sendOffset fin bytes) = true) :
    SendsWithin C D ((ctx.queueFn q (.stream s.streamId s.sendOffset fin bytes)).addSent bytes.length) := by
  have hsent := h.bytesSent
  have hpeer := h.maxDataPeer
  refine ⟨h.handOver q hw fin hroom, ?_, ?_, hpeer⟩
  · show sentTotal (QuicStreamCtx.queueFn q ctx _).trace = ctx.bytesSent + bytes.length
    rw [total_stream, if_pos hacc, h.total]
  · show ctx.bytesSent + bytes.length ≤ D
    unfold connRoom at hconn
    split at hconn <;> omega

theorem SendsWithin.refused (q : QueueFn) (h : SendsWithin C D ctx) (hw : StreamWithin C s) (fin : Bool)
    {bytes : List (Option Byte)} (hroom : bytes.length ≤ streamRoom s) (hacc : q ctx.trace (.stream s.streamId s.sendOffset fin
    bytes) = false) : SendsWithin C D (ctx.queueFn q (.stream s.streamId s.sendOffset fin bytes)) := by
  refine ⟨h.handOver q hw fin hroom, ?_, h.bytesSent, h.maxDataPeer⟩
  rw [total_stream, if_neg (by rw [hacc]; decide), Nat.add_zero]
  exact h.total

/-! ## The senders -/

def Within (C : Nat → Nat) (D : Nat) (s : QuicStream) (ctx : QuicStreamCtx) : Prop :=
  StreamWithin C s ∧ SendsWithin C D ctx

theorem Within.idle {s' : QuicStream} {ctx' : QuicStreamCtx} (hi : Idle s ctx s' ctx') (h : Within C D s ctx) :
    Within C D s' ctx' := by
  have hs := hi.stream
  unfold SameSend at hs
  refine ⟨?_, h.2.silent hi.silent (by rw [hi.same]) (by rw [hi.same])⟩
  rw [hs]
  exact ⟨h.1.sendOffset, h.1.sendMaxData⟩

theorem consumeSendBuf_within (q : QueueFn) (h : Within C D s ctx) :
    Within C D (consumeSendBuf q s ctx).1 (consumeSendBuf q s ctx).2 := by
  have hread : ∀ (s : QuicStream) (ctx : QuicStreamCtx),
      (s.sendBuf.read s.sendBufHead (consumeChunk s ctx)).length = consumeChunk s ctx := fun _ _ => slice_length _ _ _
  have hrooms : ∀ (s : QuicStream) (ctx : QuicStreamCtx),
      consumeChunk s ctx ≤ streamRoom s ∧ consumeChunk s ctx ≤ connRoom ctx := by
    intro s ctx
    unfold consumeChunk
    omega
  apply consumeLoop_inv q (Within C D)
  · intro s ctx s' ctx' hi h
    exact h.idle hi
  · intro s ctx _ h
    exact ⟨⟨h.1.sendOffset, h.1.sendMaxData⟩, h.2⟩
  · intro s ctx _ _ _ hacc h
    obtain ⟨hstream, hconn⟩ := hrooms s ctx
    refine ⟨⟨h.1.advance hstream, h.1.sendMaxData⟩, ?_⟩
    have hq := h.2.queued q h.1 _ (by rw [hread]; exact hstream) (by rw [hread]; exact hconn) hacc
    rw [hread] at hq
    exact hq
  · intro s ctx _ _ _ hacc h
    exact ⟨h.1, h.2.refused q h.1 _ (by rw [hread]; exact (hrooms s ctx).1) hacc⟩
  · exact Nat.le_refl _
  · exact h

theorem sendFrames_within (q : QueueFn) (data : List Byte) (fin : Bool) (h : Within C D s ctx) :
    Within C D (sendFrames q s ctx data fin).2.1 (sendFrames q s ctx data fin).2.2 := by
  apply sendFrames_inv q (Within C D) _ _ data fin h
  · intro s ctx fin bytes hstream hconn hacc h
    exact ⟨⟨h.1.advance hstream, h.1.sendMaxData⟩, h.2.queued q h.1 fin hstream hconn hacc⟩
  · intro s ctx fin bytes hstream hacc h
    exact ⟨h.1, h.2.refused q h.1 fin hstream hacc⟩

theorem sendFrames_apart (q : QueueFn) (s : QuicStream) (ctx : QuicStreamCtx) (data : List Byte) (fin : Bool) :
    SendApart s ctx (sendFrames q s ctx data fin).2.1 (sendFrames q s ctx data fin).2.2 := by
  apply sendFrames_inv q (SendApart s ctx) _ _ data fin (SendApart.refl s ctx)
  · intro s1 c1 fin bytes _ _ _ h
    exact h.trans (queueStream_apart q s1 (sendAdvance s1 bytes.length) c1 rfl _ _ _ _)
  · intro s1 c1 fin bytes _ _ h
    exact h.trans (queueStream_apart q s1 s1 c1 rfl _ _ _ 0)

end Within

/-! ## The calls -/

/-- **Nothing is past the credit the peer has given so far.** -/
structure InCredit (server : Bool) (ls : List Limit) (ctx : QuicStreamCtx) : Prop where
  role : ctx.nextLocalBidiId % 2 = if server then 1 else 0
  init : ∀ sid, peerSendCredit ctx sid ≤ streamCredit server ls sid
  streams : ∀ s ∈ ctx.streams, StreamWithin (streamCredit server ls) s
  sends : SendsWithin (streamCredit server ls) (connCredit ls) ctx

section Calls

variable {server : Bool} {ls : List Limit} {ctx : QuicStreamCtx} (q : QueueFn)

theorem InCredit.mono (ls' : List Limit) (h : InCredit server ls ctx) : InCredit server (ls ++ ls') ctx := by
  have hC : ∀ sid, streamCredit server ls sid ≤ streamCredit server (ls ++ ls') sid := by
    intro sid
    rw [streamCredit_append]
    exact Nat.le_max_left _ _
  have hD : connCredit ls ≤ connCredit (ls ++ ls') := by
    rw [connCredit_append]
    exact Nat.le_max_left _ _
  exact ⟨h.role, fun sid => Nat.le_trans (h.init sid) (hC sid), fun s hs => (h.streams s hs).mono hC,
    h.sends.mono hC hD⟩

theorem InCredit.step (h : InCredit server ls ctx) {ctx' : QuicStreamCtx}
    (hrole : ctx'.nextLocalBidiId = ctx.nextLocalBidiId) (hinit : ∀ sid, peerSendCredit ctx' sid = peerSendCredit ctx sid)
    (hstreams : ∀ s ∈ ctx'.streams, s ∈ ctx.streams ∨ StreamWithin (streamCredit server ls) s)
    (hsends : SendsWithin (streamCredit server ls) (connCredit ls) ctx') : InCredit server ls ctx' := by
  constructor
  · rw [hrole]
    exact h.role
  · intro sid
    rw [hinit]
    exact h.init sid
  · intro s hs
    exact (hstreams s hs).elim (h.streams s) id
  · exact hsends

theorem InCredit.set (h : InCredit server ls ctx) {s s' : QuicStream} {ctx' : QuicStreamCtx} (ha : SendApart s ctx s' ctx')
    (hw : Within (streamCredit server ls) (connCredit ls) s' ctx') : InCredit server ls (setStream ctx' s') := by
  have hsame := ha.same
  refine h.step ?_ ?_ ?_ ⟨hw.2.handed, hw.2.total, hw.2.bytesSent, hw.2.maxDataPeer⟩
  · show ctx'.nextLocalBidiId = _
    rw [hsame]
  · intro sid
    show peerSendCredit ctx' sid = _
    rw [hsame]
    rfl
  · intro t ht
    rcases mem_store QuicStream.streamId ht with rfl | ht
    · exact Or.inr hw.1
    · rw [hsame] at ht
      exact Or.inl ht

theorem InCredit.call (h : InCredit server ls ctx) {e : Effect} (he : streamEffect e = none) : InCredit server ls (ctx.call e) :=
  h.step rfl (fun _ => rfl) (fun _ => Or.inl) (h.sends.silent ((Adds.refl _ _).call he) rfl rfl)

theorem InCredit.queueFn (h : InCredit server ls ctx) {f : Frame} (hf : ∀ b, streamEffect (.queueFrame f b) = none) :
    InCredit server ls (ctx.queueFn q f) := h.call (hf _)

theorem InCredit.within (h : InCredit server ls ctx) {sid : Nat} {s : QuicStream} (hs : streamFind ctx sid = some s) :
    Within (streamCredit server ls) (connCredit ls) s ctx := ⟨h.streams s (lookup_mem _ hs), h.sends⟩

theorem quicStreamWrite_credit (h : InCredit server ls ctx) (sid : Nat) (data : List Byte) (fin : Bool)
    (cb : Option Nat) (timeoutMs now : Nat) : InCredit server ls (quicStreamWrite q ctx sid data fin cb timeoutMs now).2 := by
  have hfail : InCredit server ls (writeFail ctx sid cb) := by
    cases cb with
    | none => exact h
    | some userData => exact h.call rfl
  unfold quicStreamWrite
  cases hs : streamFind ctx sid with
  | none => exact hfail
  | some s =>
    have hw := h.within hs
    dsimp only
    split
    · exact hfail
    · split
      · exact h.set (s := s) ⟨rfl, rfl, fun _ _ => rfl⟩ ⟨⟨hw.1.sendOffset, hw.1.sendMaxData⟩, hw.2⟩
      · have happ := writeAppend_appends s data fin cb timeoutMs now
        generalize writeAppend s data fin cb timeoutMs now = s1 at happ ⊢
        have hw1 : Within (streamCredit server ls) (connCredit ls) s1 ctx := by
          refine ⟨⟨?_, ?_⟩, hw.2⟩
          · rw [happ.sendOffset, happ.id]
            exact hw.1.sendOffset
          · rw [happ.sendMaxData, happ.id]
            exact hw.1.sendMaxData
        have hidle := maybeNotifyWritable_idle (consumeSendBuf q s1 ctx).1 (consumeSendBuf q s1 ctx).2
        exact h.set ((consumeSendBuf_apart q s1 ctx).trans hidle.apart) ((consumeSendBuf_within q hw1).idle hidle)

theorem quicStreamSend_credit (h : InCredit server ls ctx) (sid : Nat) (data : List Byte) (fin : Bool) :
    InCredit server ls (quicStreamSend q ctx sid data fin).2 := by
  unfold quicStreamSend
  cases hs : streamFind ctx sid with
  | none => exact h
  | some s =>
    dsimp only
    split
    · exact h
    · split
      · exact (h.queueFn q (fun _ => rfl)).call (e := .flush) rfl
      · split
        · exact (h.queueFn q (fun _ => rfl)).call (e := .flush) rfl
        · have ha := sendFrames_apart q s ctx data fin
          have hw := sendFrames_within q data fin (h.within hs)
          generalize sendFrames q s ctx data fin = r at ha hw ⊢
          split
          · exact h.set ha hw
          · refine h.set (s := s) ⟨?_, ha.same, ha.other⟩ ⟨?_, hw.2⟩
            · split
              · exact ha.id
              · split <;> exact ha.id
            · split
              · exact ⟨hw.1.sendOffset, hw.1.sendMaxData⟩
              · split <;> exact ⟨hw.1.sendOffset, hw.1.sendMaxData⟩

theorem quicStreamCloseSend_credit (h : InCredit server ls ctx) (sid : Nat) :
    InCredit server ls (quicStreamCloseSend q ctx sid) := by
  unfold quicStreamCloseSend
  cases hs : streamFind ctx sid with
  | none => exact h
  | some s =>
    have hid := streamFind_id hs
    subst hid
    have hw := h.within hs
    have hclosed : StreamWithin (streamCredit server ls) { s with sendState := .dataSent } :=
      ⟨hw.1.sendOffset, hw.1.sendMaxData⟩
    dsimp only
    split
    · exact h
    · split
      · rename_i frame hframe
        have hfr := quicFrameWriteStream_eq hframe
        subst hfr
        have hend : SendsWithin (streamCredit server ls) (connCredit ls)
            (ctx.queueFn q (.stream s.streamId s.sendOffset true [])) := by
          cases hacc : q ctx.trace (.stream s.streamId s.sendOffset true []) with
          | true => exact hw.2.queued q hw.1 true (Nat.zero_le _) (Nat.zero_le _) hacc
          | false => exact hw.2.refused q hw.1 true (Nat.zero_le _) hacc
        have hidle := (Idle.refl s (ctx.queueFn q (.stream s.streamId s.sendOffset true []))).call (e := .flush) trivial
        exact h.set ((queueStream_apart q s { s with sendState := .dataSent } ctx rfl s.sendOffset true [] 0).trans
          ⟨rfl, rfl, hidle.apart.other⟩) ⟨hclosed, hend.silent hidle.silent rfl rfl⟩
      · exact h.set (s := s) ⟨rfl, rfl, fun _ _ => rfl⟩ ⟨hclosed, hw.2⟩

theorem quicStreamReset_credit (h : InCredit server ls ctx) (sid errorCode : Nat) :
    InCredit server ls (quicStreamReset q ctx sid errorCode).2 := by
  unfold quicStreamReset
  cases hs : streamFind ctx sid with
  | none => exact h
  | some s =>
    dsimp only
    have hsent : Silent ctx.trace (ctx.queueFn q (.resetStream sid errorCode s.sendOffset)).flushFn.trace :=
      (silent_queueFn q ctx (fun _ => rfl)).call rfl
    have hw : Within (streamCredit server ls) (connCredit ls) { s with sendState := .resetSent }
        (ctx.queueFn q (.resetStream sid errorCode s.sendOffset)).flushFn :=
      ⟨⟨(h.within hs).1.sendOffset, (h.within hs).1.sendMaxData⟩, h.sends.silent hsent rfl rfl⟩
    have hidle := reqFailAll_idle { s with sendState := .resetSent } (resetRetCode errorCode)
      (ctx.queueFn q (.resetStream sid errorCode s.sendOffset)).flushFn
    have hfirst : SendApart s ctx { s with sendState := .resetSent }
        (ctx.queueFn q (.resetStream sid errorCode s.sendOffset)).flushFn := ⟨rfl, rfl, fun id _ => hsent.sent id⟩
    exact h.set (hfirst.trans hidle.apart) (hw.idle hidle)

theorem InCredit.ite {a b : QuicStreamCtx} (p : Prop) [Decidable p] (ha : InCredit server ls a)
    (hb : InCredit server ls b) : InCredit server ls (if p then a else b) := by
  split
  · exact ha
  · exact hb

theorem InCredit.same (h : InCredit server ls ctx) {ctx' : QuicStreamCtx} (hrole : ctx'.nextLocalBidiId = ctx.nextLocalBidiId)
    (hinit : ∀ sid, peerSendCredit ctx' sid = peerSendCredit ctx sid) (hstreams : ctx'.streams = ctx.streams)
    (htrace : ctx'.trace = ctx.trace) (hb : ctx'.bytesSent = ctx.bytesSent) (hm : ctx'.maxDataPeer = ctx.maxDataPeer) :
    InCredit server ls ctx' := by
  refine h.step hrole hinit (fun s hs => Or.inl ?_) (h.sends.silent ?_ hb hm)
  · rw [← hstreams]
    exact hs
  · rw [htrace]
    exact Adds.refl _ _

theorem quicStreamFlushPending_credit (h : InCredit server ls ctx) (now : Nat) :
    InCredit server ls (quicStreamFlushPending q ctx now) := by
  apply flushPending_inv q (InCredit server ls) _ now _ h
  · intro c b hc
    exact hc.same rfl (fun _ => rfl) rfl rfl rfl rfl
  · intro c s hs hc
    refine hc.set (flushStream_apart q now s c) ?_
    apply flushStream_inv (P := Within (streamCredit server ls) (connCredit ls)) q _ _ now ⟨hc.streams s hs, hc.sends⟩
    · intro s1 c1 s2 c2 hi h1
      exact h1.idle hi
    · intro s1 c1 h1
      exact consumeSendBuf_within q h1

theorem quicStreamOnMaxData_credit (h : InCredit server ls ctx) (maxData : Nat) :
    InCredit server (ls ++ [.conn maxData]) (quicStreamOnMaxData ctx maxData) := by
  have hm := h.mono [.conn maxData]
  have hle : maxData ≤ connCredit (ls ++ [.conn maxData]) := by
    rw [connCredit_append]
    exact Nat.le_trans (le_largest (List.mem_singleton_self _)) (Nat.le_max_right _ _)
  unfold quicStreamOnMaxData
  split
  · exact hm.step rfl (fun _ => rfl) (fun _ => Or.inl) ⟨hm.sends.handed, hm.sends.total, hm.sends.bytesSent, hle⟩
  · exact hm

theorem streamFindOrCreate_credit (h : InCredit server ls ctx) (sid : Nat) :
    InCredit server ls (streamFindOrCreate ctx sid).2 := by
  unfold streamFindOrCreate
  split
  · exact h
  · refine h.step rfl (fun _ => rfl) ?_ ⟨h.sends.handed, h.sends.total, h.sends.bytesSent, h.sends.maxDataPeer⟩
    intro s hs
    rcases List.mem_append.1 hs with hs | hs
    · exact Or.inl hs
    · rw [List.mem_singleton] at hs
      subst hs
      exact Or.inr ⟨Nat.zero_le _, h.init sid⟩

theorem raiseSendMaxData_within {C : Nat → Nat} {s : QuicStream} (h : StreamWithin C s) {lim : Nat}
    (hlim : lim ≤ C s.streamId) : StreamWithin C (raiseSendMaxData s lim) := by
  unfold raiseSendMaxData
  split
  · exact ⟨h.sendOffset, hlim⟩
  · exact h

theorem quicStreamOnMaxStreamData_credit (h : InCredit server ls ctx) (sid maxData : Nat) :
    InCredit server (ls ++ [.stream sid maxData]) (quicStreamOnMaxStreamData ctx sid maxData) := by
  have hopen := streamFindOrCreate_credit (h.mono [.stream sid maxData]) sid
  have hs := hopen.within (streamFindOrCreate_find ctx sid)
  have hid := streamFindOrCreate_id ctx sid
  unfold quicStreamOnMaxStreamData
  dsimp only
  generalize streamFindOrCreate ctx sid = r at hopen hs hid ⊢
  refine hopen.set (s := r.1) ⟨(raiseSendMaxData_id _ _).1, rfl, fun _ _ => rfl⟩ ⟨raiseSendMaxData_within hs.1 ?_, hs.2⟩
  rw [streamCredit_append, hid]
  refine Nat.le_trans (le_largest (List.mem_singleton.2 ?_)) (Nat.le_max_right _ _)
  exact (if_pos rfl).symm

theorem quicStreamApplyInitSendCredit_credit (h : InCredit server ls ctx) :
    InCredit server ls (quicStreamApplyInitSendCredit ctx) := by
  refine h.step rfl (fun _ => rfl) ?_ ⟨h.sends.handed, h.sends.total, h.sends.bytesSent, h.sends.maxDataPeer⟩
  intro s hs
  obtain ⟨t, ht, rfl⟩ := List.mem_map.1 hs
  exact Or.inr (raiseSendMaxData_within (h.streams t ht) (h.init _))

theorem quicStreamOpen_credit (h : InCredit server ls ctx) : InCredit server ls (quicStreamOpen q ctx).2 := by
  unfold quicStreamOpen
  dsimp only
  split
  · exact h.queueFn q (fun _ => rfl)
  · have hnext : InCredit server ls { ctx with nextLocalBidiId := ctx.nextLocalBidiId + 4 } := by
      have hmod : (ctx.nextLocalBidiId + 4) % 2 = ctx.nextLocalBidiId % 2 := by omega
      refine ⟨hmod.trans h.role, ?_, h.streams,
        ⟨h.sends.handed, h.sends.total, h.sends.bytesSent, h.sends.maxDataPeer⟩⟩
      intro sid
      have hinit := h.init sid
      unfold peerSendCredit at hinit ⊢
      dsimp only
      rw [hmod]
      exact hinit
    have hopen := streamFindOrCreate_credit hnext ctx.nextLocalBidiId
    have hs := hopen.within (streamFindOrCreate_find _ ctx.nextLocalBidiId)
    exact hopen.set (s := (streamFindOrCreate _ ctx.nextLocalBidiId).1) ⟨rfl, rfl, fun _ _ => rfl⟩
      ⟨⟨hs.1.sendOffset, hs.1.sendMaxData⟩, hs.2⟩

theorem quicStreamOpenUni_credit (h : InCredit server ls ctx) : InCredit server ls (quicStreamOpenUni q ctx).2 := by
  unfold quicStreamOpenUni
  dsimp only
  split
  · exact h.queueFn q (fun _ => rfl)
  · have hnext : InCredit server ls { ctx with nextLocalUniId := ctx.nextLocalUniId + 4 } :=
      h.step rfl (fun _ => rfl) (fun _ => Or.inl) ⟨h.sends.handed, h.sends.total, h.sends.bytesSent,
        h.sends.maxDataPeer⟩
    have hopen := streamFindOrCreate_credit hnext ctx.nextLocalUniId
    have hs := hopen.within (streamFindOrCreate_find _ ctx.nextLocalUniId)
    have hid := streamFindOrCreate_id { ctx with nextLocalUniId := ctx.nextLocalUniId + 4 } ctx.nextLocalUniId
    generalize streamFindOrCreate { ctx with nextLocalUniId := ctx.nextLocalUniId + 4 } ctx.nextLocalUniId = r
      at hopen hs hid ⊢
    refine hopen.set (s := r.1) ⟨rfl, rfl, fun _ _ => rfl⟩ ⟨⟨hs.1.sendOffset, ?_⟩, hs.2⟩
    show peerSendCredit r.2 ctx.nextLocalUniId ≤ streamCredit server ls r.1.streamId
    rw [hid]
    exact hopen.init _

theorem quicStreamStopSending_credit (h : InCredit server ls ctx) (sid errorCode : Nat) :
    InCredit server ls (quicStreamStopSending q ctx sid errorCode).2 := by
  unfold quicStreamStopSending
  cases hs : streamFind ctx sid with
  | none => exact h
  | some s =>
    have hc : InCredit server ls (ctx.queueFn q (.stopSending sid errorCode)).flushFn :=
      (h.queueFn q (fun _ => rfl)).call (e := .flush) rfl
    have hw := h.within hs
    exact hc.set (s := s) ⟨rfl, rfl, fun _ _ => rfl⟩ ⟨⟨hw.1.sendOffset, hw.1.sendMaxData⟩, hc.sends⟩

theorem quicStreamOnReset_credit (h : InCredit server ls ctx) (sid finalSize errorCode : Nat) :
    InCredit server ls (quicStreamOnReset ctx sid finalSize errorCode) := by
  have hcall : InCredit server ls (if ctx.onStreamReset then ctx.call (.streamReset sid errorCode) else ctx) := by
    split
    · exact h.call rfl
    · exact h
  unfold quicStreamOnReset
  dsimp only
  cases hs : streamFind ctx sid with
  | none => exact hcall
  | some s =>
    have hw := h.within hs
    exact hcall.set (s := s) ⟨rfl, rfl, fun _ _ => rfl⟩ ⟨⟨hw.1.sendOffset, hw.1.sendMaxData⟩, hcall.sends⟩

theorem quicStreamGrantCredit_credit (h : InCredit server ls ctx) (bidi : Bool) :
    InCredit server ls (quicStreamGrantCredit q ctx bidi) := by
  unfold quicStreamGrantCredit
  refine InCredit.ite _ h (InCredit.queueFn q ?_ (fun _ => rfl))
  exact InCredit.ite _ (h.same rfl (fun _ => rfl) rfl rfl rfl rfl) (h.same rfl (fun _ => rfl) rfl rfl rfl rfl)

theorem quicStreamNotePeerStream_credit (h : InCredit server ls ctx) (sid : Nat) :
    InCredit server ls (quicStreamNotePeerStream q ctx sid) := by
  have hcount : InCredit server ls
      (if decide (sid / 2 % 2 = 0) = true then { ctx with peerBidiOpened := ctx.peerBidiOpened + 1 }
        else { ctx with peerUniOpened := ctx.peerUniOpened + 1 }) :=
    InCredit.ite _ (h.same rfl (fun _ => rfl) rfl rfl rfl rfl) (h.same rfl (fun _ => rfl) rfl rfl rfl rfl)
  unfold quicStreamNotePeerStream
  exact InCredit.ite _ h (InCredit.ite _ (quicStreamGrantCredit_credit q hcount _) hcount)

theorem quicStreamOnRecv_credit (h : InCredit server ls ctx) (f : StreamFrame) :
    InCredit server ls (quicStreamOnRecv q ctx f).2 := by
  have hcreate := streamFindOrCreate_credit h f.streamId
  have hs := hcreate.within (streamFindOrCreate_find ctx f.streamId)
  have hopen : InCredit server ls (recvOpen q ctx f.streamId).2 := by
    unfold recvOpen
    dsimp only
    split
    · exact quicStreamNotePeerStream_credit q hcreate f.streamId
    · exact hcreate
  have hfst : (recvOpen q ctx f.streamId).1 = (streamFindOrCreate ctx f.streamId).1 := rfl
  unfold quicStreamOnRecv
  rw [← hfst] at hs
  dsimp only
  generalize recvOpen q ctx f.streamId = r at hs hopen ⊢
  split
  · exact hopen
  · have ha := recvFrame_apart q f r.1 r.2
    have hsame := ha.same
    refine InCredit.call ?_ rfl
    have hown : SendApart r.1 (recvFrame q f r.1 r.2).2 _ (recvFrame q f r.1 r.2).2 := ⟨ha.id, rfl, fun _ _ => rfl⟩
    refine InCredit.set ?_ hown ⟨⟨?_, ?_⟩, ?_⟩
    · refine hopen.step ?_ ?_ ?_ (hopen.sends.silent ha.silent ?_ ?_)
      · rw [hsame]
      · intro sid
        rw [hsame]
        rfl
      · intro s hs
        rw [hsame] at hs
        exact Or.inl hs
      · rw [hsame]
      · rw [hsame]
    · rw [ha.sendOffset, ha.id]
      exact hs.1.sendOffset
    · rw [ha.sendMaxData, ha.id]
      exact hs.1.sendMaxData
    · refine hopen.sends.silent ha.silent ?_ ?_
      · rw [hsame]
      · rw [hsame]

/-! ## Transport parameters -/

theorem InCredit.params (h : InCredit server ls ctx) (l : Limit) (bidiLocal bidiRemote uni : Nat)
    (hinit : ∀ sid, peerSendCredit { ctx with
        peerInitMaxStreamDataBidiLocal := bidiLocal, peerInitMaxStreamDataBidiRemote := bidiRemote
        peerInitMaxStreamDataUni := uni } sid ≤ max (peerSendCredit ctx sid) (l.onStream server sid)) :
    InCredit server (ls ++ [l]) { ctx with
      peerInitMaxStreamDataBidiLocal := bidiLocal, peerInitMaxStreamDataBidiRemote := bidiRemote
      peerInitMaxStreamDataUni := uni } := by
  have hm := h.mono [l]
  refine ⟨hm.role, ?_, hm.streams, ⟨hm.sends.handed, hm.sends.total, hm.sends.bytesSent, hm.sends.maxDataPeer⟩⟩
  intro sid
  refine Nat.le_trans (hinit sid) (Nat.max_le.2 ⟨hm.init sid, ?_⟩)
  rw [streamCredit_append]
  exact Nat.le_trans (le_largest (List.mem_singleton.2 rfl)) (Nat.le_max_right _ _)

theorem setTransportParam_credit (h : InCredit server ls ctx) (tp : Nat × List Byte) :
    InCredit server (ls ++ (paramLimit tp).toList) (setTransportParam ctx tp) := by
  have hnone : InCredit server (ls ++ none.toList) ctx := by simpa using h
  have hrole : ∀ sid, sid % 2 = ctx.nextLocalBidiId % 2 ↔ weOpen server sid := by
    intro sid
    rw [h.role]
    exact Iff.rfl
  obtain ⟨tpId, value⟩ := tp
  unfold setTransportParam paramLimit
  dsimp only
  cases quicVarintDecode value with
  | none => exact hnone
  | some r =>
    obtain ⟨val, rest⟩ := r
    dsimp only
    split
    · have hm := h.mono [.conn val]
      refine ⟨hm.role, hm.init, hm.streams, ⟨hm.sends.handed, hm.sends.total, hm.sends.bytesSent, ?_⟩⟩
      show val ≤ connCredit (ls ++ [.conn val])
      rw [connCredit_append]
      exact Nat.le_trans (le_largest (List.mem_singleton_self _)) (Nat.le_max_right _ _)
    · refine h.params (.bidiLocal val) val _ _ ?_
      intro sid
      simp only [peerSendCredit, Limit.onStream, hrole]
      rcases Nat.mod_two_eq_zero_or_one (sid / 2) with hu | hu <;> by_cases hw : weOpen server sid <;>
        simp [hu, hw, Nat.le_max_right]
    · refine h.params (.bidiRemote val) _ val _ ?_
      intro sid
      simp only [peerSendCredit, Limit.onStream, hrole]
      rcases Nat.mod_two_eq_zero_or_one (sid / 2) with hu | hu <;> by_cases hw : weOpen server sid <;>
        simp [hu, hw, Nat.le_max_right]
    · refine h.params (.uni val) _ _ val ?_
      intro sid
      simp only [peerSendCredit, Limit.onStream, hrole]
      rcases Nat.mod_two_eq_zero_or_one (sid / 2) with hu | hu <;> by_cases hw : weOpen server sid <;>
        simp [hu, hw, Nat.le_max_right]
    · rename_i h4 h5 h6 h7
      -- the parameters that bring no credit
      split
      · exact absurd rfl h4
      · exact absurd rfl h5
      · exact absurd rfl h6
      · exact absurd rfl h7
      · exact hnone.same rfl (fun _ => rfl) rfl rfl rfl rfl
      · exact hnone.same rfl (fun _ => rfl) rfl rfl rfl rfl
      · exact hnone

theorem gotTransportParams_credit (h : InCredit server ls ctx) (params : List Byte) : InCredit server (ls ++
    (transportParams params.length params).filterMap paramLimit) (gotTransportParams ctx params) := by
  have hloop : ∀ (tps : List (Nat × List Byte)) (ls : List Limit) (c : QuicStreamCtx), InCredit server ls c →
      InCredit server (ls ++ tps.filterMap paramLimit) (tps.foldl setTransportParam c) := by
    intro tps
    induction tps with
    | nil =>
      intro ls c hc
      simpa using hc
    | cons tp tps ih =>
      intro ls c hc
      have htail := ih _ _ (setTransportParam_credit hc tp)
      have hcons : (tp :: tps).filterMap paramLimit = (paramLimit tp).toList ++ tps.filterMap paramLimit := by
        rw [List.filterMap_cons]
        cases paramLimit tp <;> rfl
      rw [hcons, ← List.append_assoc]
      exact htail
  exact quicStreamApplyInitSendCredit_credit (hloop _ _ _ h)

/-! ## Runs -/

theorem streamStep_credit (h : InCredit server ls ctx) (c : StreamCall) :
    InCredit server (ls ++ c.limits) (streamStep q ctx c) := by
  have hsame : ∀ {ctx'}, InCredit server ls ctx' → InCredit server (ls ++ []) ctx' := by
    intro ctx' h
    rw [List.append_nil]
    exact h
  cases c with
  | send c =>
    cases c with
    | write sid data fin cb timeoutMs now => exact hsame (quicStreamWrite_credit q h sid data fin cb timeoutMs now)
    | send sid data fin => exact hsame (quicStreamSend_credit q h sid data fin)
    | closeSend sid => exact hsame (quicStreamCloseSend_credit q h sid)
    | reset sid errorCode => exact hsame (quicStreamReset_credit q h sid errorCode)
    | onStopSending sid =>
      refine hsame ?_
      show InCredit server ls (quicStreamOnStopSending q ctx sid)
      unfold quicStreamOnStopSending
      split
      · exact h
      · exact InCredit.ite _ (quicStreamReset_credit q h sid 0) h
    | flushPending now => exact hsame (quicStreamFlushPending_credit q h now)
    | onMaxData maxData => exact quicStreamOnMaxData_credit h maxData
    | onMaxStreamData sid maxData => exact quicStreamOnMaxStreamData_credit h sid maxData
    | applyInitSendCredit => exact hsame (quicStreamApplyInitSendCredit_credit h)
  | openBidi => exact hsame (quicStreamOpen_credit q h)
  | openUni => exact hsame (quicStreamOpenUni_credit q h)
  | stopSending sid errorCode => exact hsame (quicStreamStopSending_credit q h sid errorCode)
  | handshakeDone =>
    have hlocal : InCredit server ls { ctx with maxDataLocal := QUIC_STREAM_RECV_BUF_SIZE } :=
      h.same rfl (fun _ => rfl) rfl rfl rfl rfl
    exact hsame (hlocal.queueFn q (f := .maxData QUIC_STREAM_RECV_BUF_SIZE) (fun _ => rfl))
  | onRecv f => exact hsame (quicStreamOnRecv_credit q h f)
  | onReset sid finalSize errorCode => exact hsame (quicStreamOnReset_credit h sid finalSize errorCode)
  | onMaxStreams maxStreams bidi =>
    exact hsame (InCredit.ite _ (h.same rfl (fun _ => rfl) rfl rfl rfl rfl) (h.same rfl (fun _ => rfl) rfl rfl rfl rfl))
  | onStreamsBlocked maxStreams bidi => exact hsame (quicStreamGrantCredit_credit q h bidi)
  | transportParams params => exact gotTransportParams_credit h params

end Calls

structure CreditRun where
  ctx : QuicStreamCtx
  limits : List Limit := []

def creditStep (q : QueueFn) (r : CreditRun) (c : StreamCall) : CreditRun :=
  ⟨streamStep q r.ctx c, r.limits ++ c.limits⟩

theorem streamCtxStart_credit (server : Bool) : InCredit server [] (streamCtxStart server) := by
  cases server
  all_goals
    refine ⟨rfl, ?_, ?_, ⟨?_, rfl, Nat.le_refl _, Nat.le_refl _⟩⟩
    · intro sid
      simp [peerSendCredit, streamCtxStart]
    · intro s hs
      cases hs
    · intro x hx
      cases hx

/-- **Nothing is sent past the peer's credit**: in every run of the stream layer of a new connection, each STREAM frame
handed to `queue_fn` ends within the largest credit received for its stream, and `bytes_sent`, which is what the
accepted frames carry, is within the largest credit received for the connection. -/
theorem sent_within_credit (q : QueueFn) (server : Bool) (cs : List StreamCall) :
    let r := cs.foldl (creditStep q) { ctx := streamCtxStart server }
    (∀ h ∈ handedFrames r.ctx.trace, h.2.1.stop ≤ streamCredit server r.limits h.1) ∧
      sentTotal r.ctx.trace = r.ctx.bytesSent ∧ r.ctx.bytesSent ≤ connCredit r.limits := by
  have hinv := foldl_inv (creditStep q) (fun _ _ => True) (fun r => InCredit server r.limits r.ctx)
    (fun r c h _ => streamStep_credit q h c) cs { ctx := streamCtxStart server } (streamCtxStart_credit server)
    (stepsOk_of_forall _ _ cs _ (fun _ _ _ => trivial))
  exact ⟨hinv.sends.handed, hinv.sends.total, hinv.sends.bytesSent⟩

end MoqLiveCast
