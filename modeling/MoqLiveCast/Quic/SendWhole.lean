import MoqLiveCast.Quic.StreamSent
/-!
# SendWhole — when `quic_stream_send` sends all or nothing, and in order

The frames of a call are known before it (`sendFramesOf`).  `queue_fn` answers them one by one, and the stream moves with each that it
takes; none of them goes behind what waits in `send_buf`.
-/
namespace MoqLiveCast

open List

/-- The frames for `data` from the position `off` on, `n` at most. -/
def sendFramesOf (sid : Nat) (fin : Bool) : Nat → Nat → List Byte → List Frame
  | 0, _, _ => []
  | n + 1, off, data =>
    if data = [] then []
    else
      let chunk := min data.length MC
      .stream sid off (if data.length ≤ MC then fin else false) ((data.take chunk).map some) ::
        sendFramesOf sid fin n (off + chunk) (data.drop chunk)

def queueTakesAll (q : QueueFn) : List Effect → List Frame → Bool
  | _, [] => true
  | trace, f :: fs => q trace f && queueTakesAll q (trace ++ [.queueFrame f true]) fs

def placedBytes (sid : Nat) (effects : List Effect) : List (Option Byte × Nat) := effects.flatMap fun
  | .queueFrame (.stream k off _ data) true => if k = sid then data.zipIdx off else []
  | _ => []

def QueuedStream : Effect → Bool
  | .queueFrame (.stream _ _ _ _) true => true
  | _ => false

def callTrace (ctx ctx' : QuicStreamCtx) : List Effect := ctx'.trace.drop ctx.trace.length

/-- **The call is all or nothing, and keeps the order**: a call that fails moves no offset, ends nothing and queues no STREAM frame; the
bytes of one that succeeds are queued right behind all that the stream took before, also into `send_buf`. -/
def SendExact (q : QueueFn) (ctx : QuicStreamCtx) (sid : Nat) (data : List Byte) (fin : Bool) : Prop :=
  ((quicStreamSend q ctx sid data fin).1 = -1 → (quicStreamSend q ctx sid data fin).2.bytesSent = ctx.bytesSent ∧
    (streamFind (quicStreamSend q ctx sid data fin).2 sid).map (fun s => (s.sendOffset, s.sendState)) =
      (streamFind ctx sid).map (fun s => (s.sendOffset, s.sendState)) ∧
    (callTrace ctx (quicStreamSend q ctx sid data fin).2).any QueuedStream = false) ∧
  ((quicStreamSend q ctx sid data fin).1 = 0 → ∀ s, streamFind ctx sid = some s →
    placedBytes sid (callTrace ctx (quicStreamSend q ctx sid data fin).2) = (data.map some).zipIdx (s.sendOffset + s.sendBufLen))

def CallSends (ctx : QuicStreamCtx) (s : QuicStream) (data : List Byte) : Prop :=
  ¬SendEnded s ∧ s.sendOffset + data.length ≤ s.sendMaxData ∧ ctx.bytesSent + data.length ≤ ctx.maxDataPeer

/-- **The condition** on a call with data that comes to its first frame: `queue_fn` refuses that frame, or it takes all of them and
nothing waits in `send_buf`. -/
def SendInOrder (q : QueueFn) (ctx : QuicStreamCtx) (sid : Nat) (data : List Byte) (fin : Bool) : Prop :=
  ∀ s, streamFind ctx sid = some s → CallSends ctx s data → data ≠ [] →
    queueTakesAll q ctx.trace ((sendFramesOf sid fin data.length s.sendOffset data).take 1) = false ∨
      queueTakesAll q ctx.trace (sendFramesOf sid fin data.length s.sendOffset data) = true ∧ s.sendBufLen = 0

/-! ## The loop -/

theorem quicFrameWriteStream_fits (sid offset : Nat) (fin : Bool) {data : List (Option Byte)} (h : data.length ≤ MC) :
    quicFrameWriteStream MAX_FRAME_BUF sid offset fin data = some (.stream sid offset fin data) := by
  have hlen : ∀ v, quicVarintLen v ≤ 8 := fun v => by
    unfold quicVarintLen
    (repeat' split) <;> omega
  have h1 := hlen sid
  have h2 := hlen offset
  have h3 := hlen data.length
  unfold MC at h
  unfold quicFrameWriteStream MAX_FRAME_BUF
  rw [if_neg (by omega)]

structure Room (s : QuicStream) (ctx : QuicStreamCtx) (len : Nat) : Prop where
  stream : s.sendOffset + len ≤ s.sendMaxData
  conn : ctx.bytesSent + len ≤ ctx.maxDataPeer

variable (q : QueueFn)

theorem sendLoop_turn (data : List Byte) (fin : Bool) (n sent : Nat) (s : QuicStream) (ctx : QuicStreamCtx)
    (hsent : sent < data.length) (hroom : Room s ctx (data.length - sent)) {chunk : Nat} (hchunk : chunk = min (data.length - sent) MC)
    {frame : Frame} (hframe : frame = .stream s.streamId s.sendOffset (if data.length - sent ≤ MC then fin else false)
      (((data.drop sent).take chunk).map some)) :
    sendLoop q data fin (n + 1) sent s ctx = if q ctx.trace frame then
        sendLoop q data fin n (sent + chunk) { s with sendOffset := s.sendOffset + chunk } ((ctx.queueFn q frame).addSent chunk)
      else (-1, s, ctx.queueFn q frame) := by
  obtain ⟨hstream, hconn⟩ := hroom
  have hsr : streamRoom s = s.sendMaxData - s.sendOffset := if_pos (by omega)
  have hcr : connRoom ctx = ctx.maxDataPeer - ctx.bytesSent := if_pos (by omega)
  have hmin : min (min (min (data.length - sent) MC) (streamRoom s)) (connRoom ctx) = chunk := by
    rw [hsr, hcr]
    omega
  have hlast : (if data.length ≤ sent + chunk then fin else false) = if data.length - sent ≤ MC then fin else false :=
    if_congr (by omega) rfl rfl
  have hfits : (((data.drop sent).take chunk).map some).length ≤ MC := by
    rw [length_map, length_take]
    omega
  rw [sendLoop, if_pos hsent, if_neg (by rw [hsr, hcr]; omega), hmin]
  dsimp only
  rw [hlast, quicFrameWriteStream_fits _ _ _ hfits, hframe]

theorem sendFramesOf_cons (sid : Nat) (fin : Bool) (n off : Nat) {data : List Byte} (h : data ≠ []) : sendFramesOf sid fin
    (n + 1) off data = .stream sid off (if data.length ≤ MC then fin else false) ((data.take (min data.length MC)).map some) ::
    sendFramesOf sid fin n (off + min data.length MC) (data.drop (min data.length MC)) := by
  rw [sendFramesOf, if_neg h]

/-- The stream when `len` more bytes are queued. -/
def QuicStream.advanced (s : QuicStream) (len : Nat) : QuicStream := { s with sendOffset := s.sendOffset + len }

variable {ctx : QuicStreamCtx} {s : QuicStream}

theorem Room.advance {len chunk : Nat} (h : Room s ctx len) (hle : chunk ≤ len) {q : QueueFn} {frame : Frame} :
    Room { s with sendOffset := s.sendOffset + chunk } ((ctx.queueFn q frame).addSent chunk) (len - chunk) := by
  obtain ⟨hstream, hconn⟩ := h
  constructor
  · dsimp only
    omega
  · have hsent : ((ctx.queueFn q frame).addSent chunk).bytesSent = ctx.bytesSent + chunk := rfl
    have hmax : ((ctx.queueFn q frame).addSent chunk).maxDataPeer = ctx.maxDataPeer := rfl
    omega

theorem addSent_trace (ctx : QuicStreamCtx) (n : Nat) : (ctx.addSent n).trace = ctx.trace := rfl

theorem queueFn_taken {frame : Frame} (h : q ctx.trace frame = true) :
    (ctx.queueFn q frame).trace = ctx.trace ++ [.queueFrame frame true] := by
  rw [← h]
  rfl

theorem sendLoop_taken (q : QueueFn) (data : List Byte) (fin : Bool) : ∀ (n sent : Nat) (s : QuicStream) (ctx : QuicStreamCtx),
    data.length - sent ≤ n → Room s ctx (data.length - sent) →
    queueTakesAll q ctx.trace (sendFramesOf s.streamId fin n s.sendOffset (data.drop sent)) = true →
    sendLoop q data fin n sent s ctx = (0, s.advanced (data.length - sent), { ctx with
      bytesSent := ctx.bytesSent + (data.length - sent)
      trace := ctx.trace ++ (sendFramesOf s.streamId fin n s.sendOffset (data.drop sent)).map fun f => .queueFrame f true })
  | 0, sent, s, ctx, hn, _, _ => by
    have hdone : data.length - sent = 0 := by omega
    rw [sendLoop, hdone, sendFramesOf]
    simp [QuicStream.advanced]
  | n + 1, sent, s, ctx, hn, hroom, htakes => by
    by_cases hsent : sent < data.length
    · have hne : data.drop sent ≠ [] := by
        rw [Ne, drop_eq_nil_iff]
        omega
      have hturn := sendLoop_turn q data fin n sent s ctx hsent hroom rfl rfl
      rw [sendFramesOf_cons _ _ _ _ hne, length_drop, drop_drop] at htakes ⊢
      generalize hchunk : min (data.length - sent) MC = chunk at hturn htakes ⊢
      generalize Frame.stream s.streamId s.sendOffset (if data.length - sent ≤ MC then fin else false)
        (((data.drop sent).take chunk).map some) = frame at hturn htakes ⊢
      rw [queueTakesAll, Bool.and_eq_true] at htakes
      have hleft : data.length - (sent + chunk) = data.length - sent - chunk := by omega
      have ih := sendLoop_taken q data fin n (sent + chunk) { s with sendOffset := s.sendOffset + chunk }
        ((ctx.queueFn q frame).addSent chunk) (by unfold MC at hchunk; omega) (by rw [hleft]; exact hroom.advance (by omega))
        (by rw [addSent_trace, queueFn_taken q htakes.1]; exact htakes.2)
      rw [hturn, if_pos htakes.1, ih]
      have hsum : chunk + (data.length - (sent + chunk)) = data.length - sent := by omega
      have hstream : QuicStream.advanced { s with sendOffset := s.sendOffset + chunk } (data.length - (sent + chunk)) =
          s.advanced (data.length - sent) := by
        unfold QuicStream.advanced
        rw [← hsum, ← Nat.add_assoc]
      have hbytes : ((ctx.queueFn q frame).addSent chunk).bytesSent + (data.length - (sent + chunk)) =
          ctx.bytesSent + (data.length - sent) := by
        rw [← hsum, ← Nat.add_assoc]
        rfl
      rw [hstream, hbytes, addSent_trace, queueFn_taken q htakes.1, append_assoc, map_cons]
      rfl
    · have hdone : data.length - sent = 0 := by omega
      have hempty : data.drop sent = [] := List.drop_eq_nil_iff.2 (by omega)
      rw [sendLoop, if_neg hsent, hdone, hempty, sendFramesOf, if_pos rfl]
      simp [QuicStream.advanced]

theorem sendLoop_refused (q : QueueFn) (data : List Byte) (fin : Bool) : ∀ (n sent : Nat) (s : QuicStream) (ctx : QuicStreamCtx),
    data.length - sent ≤ n → Room s ctx (data.length - sent) →
    queueTakesAll q ctx.trace (sendFramesOf s.streamId fin n s.sendOffset (data.drop sent)) = false →
    (sendLoop q data fin n sent s ctx).1 = -1 ∧ s.sendOffset ≤ (sendLoop q data fin n sent s ctx).2.1.sendOffset ∧
      (sendLoop q data fin n sent s ctx).2.1.streamId = s.streamId
  | 0, _, _, _, _, _, hnot => nomatch hnot
  | n + 1, sent, s, ctx, hn, hroom, hnot => by
    by_cases hsent : sent < data.length
    · have hne : data.drop sent ≠ [] := by
        rw [Ne, drop_eq_nil_iff]
        omega
      rw [sendLoop_turn q data fin n sent s ctx hsent hroom rfl rfl]
      rw [sendFramesOf_cons _ _ _ _ hne, length_drop, drop_drop] at hnot
      generalize hchunk : min (data.length - sent) MC = chunk at hnot ⊢
      generalize Frame.stream s.streamId s.sendOffset (if data.length - sent ≤ MC then fin else false)
        (((data.drop sent).take chunk).map some) = frame at hnot ⊢
      rw [queueTakesAll, Bool.and_eq_false_imp] at hnot
      by_cases ha : q ctx.trace frame = true
      · rw [if_pos ha]
        have hleft : data.length - (sent + chunk) = data.length - sent - chunk := by omega
        obtain ⟨hret, hoffset, hid⟩ := sendLoop_refused q data fin n (sent + chunk) { s with sendOffset := s.sendOffset + chunk }
          ((ctx.queueFn q frame).addSent chunk) (by unfold MC at hchunk; omega) (by rw [hleft]; exact hroom.advance (by omega))
          (by rw [addSent_trace, queueFn_taken q ha]; exact hnot ha)
        exact ⟨hret, Nat.le_trans (Nat.le_add_right _ _) hoffset, hid⟩
      · rw [if_neg ha]
        exact ⟨rfl, Nat.le_refl _, rfl⟩
    · rw [List.drop_eq_nil_iff.2 (by omega), sendFramesOf, if_pos rfl] at hnot
      cases hnot

/-- What the loop comes to: the first frame is refused and nothing has moved, or all are taken, or the call fails in the middle. -/
inductive SendOutcome (q : QueueFn) (data : List Byte) (fin : Bool) (s : QuicStream) (ctx : QuicStreamCtx) : Prop
  | first (hnot : queueTakesAll q ctx.trace ((sendFramesOf s.streamId fin data.length s.sendOffset data).take 1) = false) (frame : Frame)
      (hrefused : q ctx.trace frame = false)
      (heq : sendLoop q data fin data.length 0 s ctx = (-1, s, ctx.queueFn q frame))
  | all (htakes : queueTakesAll q ctx.trace (sendFramesOf s.streamId fin data.length s.sendOffset data) = true)
      (heq : sendLoop q data fin data.length 0 s ctx = (0, s.advanced data.length, { ctx with
        bytesSent := ctx.bytesSent + data.length
        trace := ctx.trace ++ (sendFramesOf s.streamId fin data.length s.sendOffset data).map fun f => .queueFrame f true }))
  | middle (hfirst : queueTakesAll q ctx.trace ((sendFramesOf s.streamId fin data.length s.sendOffset data).take 1) = true)
      (hnot : queueTakesAll q ctx.trace (sendFramesOf s.streamId fin data.length s.sendOffset data) = false)
      (hret : (sendLoop q data fin data.length 0 s ctx).1 = -1)
      (hmoved : s.sendOffset < (sendLoop q data fin data.length 0 s ctx).2.1.sendOffset)
      (hid : (sendLoop q data fin data.length 0 s ctx).2.1.streamId = s.streamId)

theorem sendLoop_outcome {data : List Byte} (fin : Bool) (hdata : data ≠ [])
    (hroom : Room s ctx data.length) : SendOutcome q data fin s ctx := by
  cases htakes : queueTakesAll q ctx.trace (sendFramesOf s.streamId fin data.length s.sendOffset data) with
  | true => exact .all htakes (sendLoop_taken q data fin data.length 0 s ctx (Nat.le_refl _) hroom htakes)
  | false =>
    obtain ⟨n, hn⟩ := Nat.exists_eq_succ_of_ne_zero (mt List.length_eq_zero_iff.1 hdata)
    have hturn := sendLoop_turn q data fin n 0 s ctx (by omega) hroom rfl rfl
    have hframes := sendFramesOf_cons s.streamId fin n s.sendOffset hdata
    rw [← Nat.succ_eq_add_one, ← hn] at hturn hframes
    rw [drop_zero, Nat.sub_zero, Nat.zero_add] at hturn
    generalize hchunk : min data.length MC = chunk at hturn hframes
    generalize Frame.stream s.streamId s.sendOffset (if data.length ≤ MC then fin else false) ((data.take chunk).map some) = frame
      at hturn hframes
    have hone : queueTakesAll q ctx.trace ((sendFramesOf s.streamId fin data.length s.sendOffset data).take 1) = q ctx.trace frame := by
      rw [hframes]
      exact Bool.and_true _
    cases ha : q ctx.trace frame with
    | false => exact .first (hone.trans ha) frame ha (by rw [hturn, if_neg (by simp [ha])])
    | true =>
      rw [hframes, queueTakesAll, ha, Bool.true_and, ← queueFn_taken q ha, ← addSent_trace _ chunk] at htakes
      have hpos : 0 < chunk := by
        unfold MC at hchunk
        omega
      obtain ⟨hret, hoffset, hid⟩ := sendLoop_refused q data fin n chunk { s with sendOffset := s.sendOffset + chunk }
        ((ctx.queueFn q frame).addSent chunk) (by omega) (hroom.advance (by omega)) htakes
      have hnot : queueTakesAll q ctx.trace (sendFramesOf s.streamId fin data.length s.sendOffset data) = false := by
        rw [addSent_trace, queueFn_taken q ha] at htakes
        rw [hframes, queueTakesAll, ha, Bool.true_and, htakes]
      rw [if_pos ha] at hturn
      exact .middle (hone.trans ha) hnot (by rw [hturn]; exact hret)
        (by rw [hturn]; exact Nat.lt_of_lt_of_le (Nat.lt_add_of_pos_right hpos) hoffset) (by rw [hturn]; exact hid)

theorem placedBytes_frames (sid : Nat) (fin : Bool) : ∀ (n off : Nat) (data : List Byte), data.length ≤ n →
    placedBytes sid ((sendFramesOf sid fin n off data).map fun f => .queueFrame f true) = (data.map some).zipIdx off
  | 0, off, data, hn => by
    rw [List.length_eq_zero_iff.1 (Nat.le_zero.1 hn)]
    rfl
  | n + 1, off, data, hn => by
    by_cases hdata : data = []
    · rw [hdata]
      rfl
    · have hpos : data.length ≠ 0 := mt List.length_eq_zero_iff.1 hdata
      have hone : ∀ (m : List (Option Byte)) (isLast : Bool) (fs : List Frame),
          placedBytes sid ((Frame.stream sid off isLast m :: fs).map fun f => Effect.queueFrame f true) =
            m.zipIdx off ++ placedBytes sid (fs.map fun f => .queueFrame f true) := fun m isLast fs => by
        unfold placedBytes
        rw [map_cons, flatMap_cons]
        dsimp only
        rw [if_pos rfl]
      have hlen : ((data.take (min data.length MC)).map some).length = min data.length MC := by
        rw [length_map, length_take]
        omega
      rw [sendFramesOf_cons _ _ _ _ hdata, hone, placedBytes_frames sid fin n _ _ (by rw [length_drop]; unfold MC; omega)]
      generalize min data.length MC = chunk at hlen ⊢
      conv_rhs => rw [← take_append_drop chunk data]
      rw [map_append, zipIdx_append, hlen]

/-! ## The call -/

theorem callTrace_append {ctx ctx' : QuicStreamCtx} {more : List Effect} (h : ctx'.trace = ctx.trace ++ more) : callTrace ctx ctx' = more := by
  unfold callTrace
  rw [h, drop_left]

theorem SendExact.failed {q : QueueFn} {ctx ctx' : QuicStreamCtx} {sid : Nat} {data : List Byte} {fin : Bool}
    (h : quicStreamSend q ctx sid data fin = (-1, ctx')) {more : List Effect} (hbytes : ctx'.bytesSent = ctx.bytesSent)
    (hfind : streamFind ctx' sid = streamFind ctx sid) (htrace : ctx'.trace = ctx.trace ++ more)
    (hmore : more.any QueuedStream = false) : SendExact q ctx sid data fin := by
  unfold SendExact
  rw [h]
  refine ⟨fun _ => ⟨hbytes, by rw [hfind], ?_⟩, fun hret => (nomatch hret)⟩
  rw [callTrace_append htrace]
  exact hmore

theorem SendExact.succeeded {q : QueueFn} {ctx ctx' : QuicStreamCtx} {sid : Nat} {data : List Byte} {fin : Bool}
    (h : quicStreamSend q ctx sid data fin = (0, ctx')) (hs : streamFind ctx sid = some s) {more : List Effect}
    (htrace : ctx'.trace = ctx.trace ++ more) : SendExact q ctx sid data fin ↔ placedBytes sid more = (data.map some).zipIdx
    (s.sendOffset + s.sendBufLen) := by
  unfold SendExact
  rw [h, callTrace_append htrace, hs]
  refine ⟨fun hexact => hexact.2 rfl s rfl, fun hplaced => ⟨fun hret => (nomatch hret), fun _ s' hs' => ?_⟩⟩
  rw [← Option.some.inj hs']
  exact hplaced

theorem quicStreamSend_turned_away {sid : Nat} (hs : streamFind ctx sid = some s)
    {data : List Byte} (hnot : ¬CallSends ctx s data) (fin : Bool) : SendExact q ctx sid data fin := by
  by_cases hended : SendEnded s
  · have heq : quicStreamSend q ctx sid data fin = (-1, ctx) := by
      unfold quicStreamSend
      rw [hs]
      exact if_pos hended
    exact .failed heq rfl rfl (append_nil _).symm rfl
  · by_cases hstream : s.sendMaxData < s.sendOffset + data.length
    · have heq : quicStreamSend q ctx sid data fin = (-1, (ctx.queueFn q (.streamDataBlocked sid s.sendMaxData)).flushFn) := by
        unfold quicStreamSend
        rw [hs]
        dsimp only
        rw [if_neg hended, if_pos hstream]
      exact .failed heq rfl rfl (append_assoc ..) rfl
    · by_cases hconn : ctx.maxDataPeer < ctx.bytesSent + data.length
      · have heq : quicStreamSend q ctx sid data fin = (-1, (ctx.queueFn q (.dataBlocked ctx.maxDataPeer)).flushFn) := by
          unfold quicStreamSend
          rw [hs]
          dsimp only
          rw [if_neg hended, if_neg hstream, if_pos hconn]
        exact .failed heq rfl rfl (append_assoc ..) rfl
      · exact absurd ⟨hended, Nat.le_of_not_lt hstream, Nat.le_of_not_lt hconn⟩ hnot

def sendEnd (s : QuicStream) (fin : Bool) : QuicStream :=
  if fin then { s with sendState := .dataSent } else if s.sendState = .ready then { s with sendState := .send } else s

theorem quicStreamSend_sends {sid : Nat} (hs : streamFind ctx sid = some s)
    {data : List Byte} (h : CallSends ctx s data) {fin : Bool} {ret : Int} {s' : QuicStream} {ctx' : QuicStreamCtx}
    (hsent : sendFrames q s ctx data fin = (ret, s', ctx')) :
    quicStreamSend q ctx sid data fin = if ret < 0 then (-1, setStream ctx' s') else (0, setStream ctx' (sendEnd s' fin)) := by
  obtain ⟨hended, hstream, hconn⟩ := h
  unfold quicStreamSend
  rw [hs]
  dsimp only
  rw [if_neg hended, if_neg (by omega), if_neg (by omega), hsent]
  rfl

theorem queueFn_refused {frame : Frame} (h : q ctx.trace frame = false) :
    (ctx.queueFn q frame).trace = ctx.trace ++ [.queueFrame frame false] := by
  rw [← h]
  rfl

theorem refused_unqueued (frame : Frame) : [Effect.queueFrame frame false].any QueuedStream = false := by
  cases frame <;> rfl

theorem streamFind_written {ctx ctx' : QuicStreamCtx} {sid : Nat} {s s' : QuicStream} (hs : streamFind ctx sid = some s)
    (hstreams : ctx'.streams = ctx.streams) (hid : s'.streamId = s.streamId) : streamFind (setStream ctx' s') sid = some s' := by
  have hkey : s'.streamId = sid := hid.trans (streamFind_id hs)
  have hfind : streamFind ctx' s'.streamId = some s := by
    rw [hkey, ← hs]
    unfold streamFind
    rw [hstreams]
  rw [← hkey]
  exact streamFind_setStream_self hfind

theorem SendExact.refused {q : QueueFn} {ctx : QuicStreamCtx} {sid : Nat} {s : QuicStream} (hs : streamFind ctx sid = some s)
    {data : List Byte} {fin : Bool} {frame : Frame} (hrefused : q ctx.trace frame = false)
    (h : quicStreamSend q ctx sid data fin = (-1, setStream (ctx.queueFn q frame) s)) : SendExact q ctx sid data fin := by
  have hfind : streamFind (setStream (ctx.queueFn q frame) s) sid = streamFind ctx sid :=
    (streamFind_written hs rfl rfl).trans hs.symm
  exact .failed h rfl hfind (queueFn_refused q hrefused) (refused_unqueued frame)

theorem send_exact_empty {sid : Nat} (hs : streamFind ctx sid = some s)
    (h : CallSends ctx s []) (fin : Bool) : SendExact q ctx sid [] fin := by
  cases fin with
  | false =>
    have heq := quicStreamSend_sends q hs h (rfl : sendFrames q s ctx [] false = (0, s, ctx))
    rw [if_neg (by simp)] at heq
    exact (SendExact.succeeded heq hs (append_nil _).symm).2 rfl
  | true =>
    have hframes : sendFrames q s ctx [] true = (if q ctx.trace (.stream s.streamId s.sendOffset true []) then 0 else -1, s,
          ctx.queueFn q (.stream s.streamId s.sendOffset true [])) := by
      unfold sendFrames
      rw [if_pos ⟨rfl, rfl⟩, quicFrameWriteStream_fits _ _ _ (Nat.zero_le _)]
    cases ha : q ctx.trace (.stream s.streamId s.sendOffset true []) with
    | false =>
      rw [if_neg (by simp [ha])] at hframes
      have heq := quicStreamSend_sends q hs h hframes
      rw [if_pos (by simp)] at heq
      exact .refused hs ha heq
    | true =>
      rw [if_pos ha] at hframes
      have heq := quicStreamSend_sends q hs h hframes
      rw [if_neg (by simp)] at heq
      refine (SendExact.succeeded heq hs (queueFn_taken q ha)).2 ?_
      unfold placedBytes
      simp

theorem zipIdx_offset {data : List Byte} (hdata : data ≠ []) (off len : Nat) :
    (data.map some).zipIdx off = (data.map some).zipIdx (off + len) ↔ len = 0 := by
  refine ⟨fun h => ?_, fun h => by rw [h, Nat.add_zero]⟩
  obtain ⟨b, rest, rfl⟩ := exists_cons_of_ne_nil hdata
  rw [map_cons, zipIdx_cons, zipIdx_cons] at h
  have hhead := (Prod.mk.inj (List.cons.inj h).1).2
  omega

theorem queueTakesAll_first : ∀ {trace : List Effect} {frames : List Frame}, queueTakesAll q trace frames = true →
    queueTakesAll q trace (frames.take 1) = true
  | _, [], _ => rfl
  | _, f :: _, h => by
    rw [queueTakesAll, Bool.and_eq_true] at h
    exact (Bool.and_true _).trans h.1

theorem sendFrames_streams (s : QuicStream) (ctx : QuicStreamCtx) (data : List Byte) (fin : Bool) :
    (sendFrames q s ctx data fin).2.2.streams = ctx.streams := by
  apply sendFrames_inv q (fun _ c => c.streams = ctx.streams)
  · exact fun _ _ _ _ _ h => h
  · exact fun _ _ _ _ h => h
  · rfl

theorem send_exact_data {sid : Nat} (hs : streamFind ctx sid = some s) {data : List Byte} (h : CallSends ctx s data)
    (hdata : data ≠ []) (fin : Bool) : SendExact q ctx sid data fin ↔ queueTakesAll q ctx.trace ((sendFramesOf sid fin data.length
    s.sendOffset data).take 1) = false ∨ queueTakesAll q ctx.trace (sendFramesOf sid fin data.length s.sendOffset data) = true ∧
    s.sendBufLen = 0 := by
  have hid := streamFind_id hs
  have hframes : sendFrames q s ctx data fin = sendLoop q data fin data.length 0 s ctx := by
    unfold sendFrames
    rw [if_neg fun hnone => hdata (List.length_eq_zero_iff.1 hnone.1)]
  rcases sendLoop_outcome q fin hdata ⟨h.2.1, h.2.2⟩ with ⟨hnot, frame, hrefused, hloop⟩ | ⟨htakes, hloop⟩ |
    ⟨hfirst, hnot, hret, hmoved, hsame⟩
  · have heq := quicStreamSend_sends q hs h (hframes.trans hloop)
    rw [if_pos (by simp)] at heq
    exact iff_of_true (.refused hs hrefused heq) (.inl (hid ▸ hnot))
  · have heq := quicStreamSend_sends q hs h (hframes.trans hloop)
    rw [if_neg (by simp)] at heq
    rw [hid] at htakes heq
    rw [SendExact.succeeded heq hs rfl, placedBytes_frames _ _ _ _ _ (Nat.le_refl _), zipIdx_offset hdata, queueTakesAll_first q htakes, htakes]
    simp
  · have hstreams := sendFrames_streams q s ctx data fin
    rw [hframes] at hstreams
    generalize hr : sendLoop q data fin data.length 0 s ctx = r at hframes hret hmoved hsame hstreams
    obtain ⟨ret, s', ctx'⟩ := r
    have heq := quicStreamSend_sends q hs h hframes
    dsimp only at hret hmoved hsame hstreams
    rw [hret, if_pos (by simp)] at heq
    refine iff_of_false (fun hexact => ?_) fun hok => ?_
    · -- the offset has moved
      have hkept := (hexact.1 (by rw [heq])).2.1
      rw [heq, streamFind_written hs hstreams hsame, hs] at hkept
      have hoffset := (Prod.mk.inj (Option.some.inj hkept)).1
      omega
    · rw [← hid, hfirst, hnot] at hok
      rcases hok with hok | hok
      · cases hok
      · cases hok.1

/-- **`quic_stream_send` is all or nothing and keeps the order exactly when** no chunk behind the first is refused and nothing waits in
`send_buf`. -/
theorem send_exact_iff (q : QueueFn) (ctx : QuicStreamCtx) (sid : Nat) (data : List Byte) (fin : Bool) :
    SendExact q ctx sid data fin ↔ SendInOrder q ctx sid data fin := by
  unfold SendInOrder
  cases hs : streamFind ctx sid with
  | none =>
    have heq : quicStreamSend q ctx sid data fin = (-1, ctx) := by
      unfold quicStreamSend
      rw [hs]
    exact iff_of_true (.failed heq rfl rfl (append_nil _).symm rfl) fun s hs' => (nomatch hs')
  | some s =>
    simp only [Option.some.injEq, forall_eq']
    by_cases hsends : CallSends ctx s data
    · by_cases hdata : data = []
      · subst hdata
        exact iff_of_true (send_exact_empty q hs hsends fin) fun _ hne => absurd rfl hne
      · rw [send_exact_data q hs hsends hdata fin]
        exact ⟨fun h _ _ => h, fun h => h hsends hdata⟩
    · exact iff_of_true (quicStreamSend_turned_away q hs hsends fin) fun h => absurd h hsends

/-- `queue_fn` refuses the first frame of all, which leaves the byte of a write in `send_buf`. -/
def refusesFirst : QueueFn := fun trace _ => trace ≠ []

def heldBack : QuicStreamCtx :=
  (quicStreamWrite refusesFirst { streams := [{ streamId := 4, sendMaxData := 100 }], maxDataPeer := 100 } 4 [1] false none 0 0).2

/-- The byte that is sent then takes the place of the one that waits. -/
theorem waiting_overtaken : ¬∀ q ctx sid data fin, SendExact q ctx sid data fin := by
  intro h
  have hplaced := (h refusesFirst heldBack 4 [2] false).2 (by decide) _ (rfl : streamFind heldBack 4 = some _)
  exact absurd hplaced (by decide)

end MoqLiveCast
