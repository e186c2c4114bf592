import MoqLiveCast.Quic.Stream
/-!
# StreamRecv — the receive side (`quic_stream_on_recv` and what it calls)

A frame past `recv_offset` is copied into `recv_buf` and its range recorded in the gap table; any other frame that
reaches past `recv_offset` is delivered from the packet, and the ranges it joins are then delivered from `recv_buf`.
-/
namespace MoqLiveCast

/-! ## The gap table -/

/-- `gap_insert`: the range goes before the first one with a greater offset and touching ranges are joined.  A full
table takes no new range. -/
def gapInsert (t : GapTable) (offset length : Nat) : GapTable :=
  if h : t.gaps.length < QUIC_STREAM_MAX_GAPS then
    ⟨Range.merge (Range.place ⟨offset, length⟩ t.gaps),
      Nat.le_trans (Range.merge_length_le _) (by rw [Range.place_length]; exact h)⟩
  else ⟨Range.merge t.gaps, Nat.le_trans (Range.merge_length_le _) t.count_le⟩

def GapTable.pop (t : GapTable) : GapTable :=
  ⟨t.gaps.tail, by have := t.count_le; rw [List.length_tail]; omega⟩

/-- One turn of `gap_drain`: deliver what the range `g` adds to the bytes already delivered, and drop it. -/
def gapDrainOne (g : QuicStreamGap) (s : QuicStream) (ctx : QuicStreamCtx) : QuicStream × QuicStreamCtx :=
  if s.recvOffset < g.stop then
    let newBytes := g.stop - s.recvOffset
    let ctx := ctx.addRecvd newBytes
    let ctx := match s.recvBuf with
      | some buf => ctx.deliver s.streamId (buf.read s.recvOffset newBytes) false
      | none => ctx
    ({ s with recvOffset := g.stop, gapTable := s.gapTable.pop }, ctx)
  else ({ s with gapTable := s.gapTable.pop }, ctx)

/-- The loop of `gap_drain`; a turn drops one range, so `n` is the number of ranges at the start. -/
def gapDrainLoop : Nat → QuicStream → QuicStreamCtx → QuicStream × QuicStreamCtx
  | 0, s, ctx => (s, ctx)
  | n + 1, s, ctx =>
    match s.gapTable.gaps with
    | [] => (s, ctx)
    | g :: _ =>
      if g.offset ≤ s.recvOffset then gapDrainLoop n (gapDrainOne g s ctx).1 (gapDrainOne g s ctx).2 else (s, ctx)

def gapDrain (s : QuicStream) (ctx : QuicStreamCtx) : QuicStream × QuicStreamCtx :=
  gapDrainLoop s.gapTable.gaps.length s ctx

/-! ## Flow-control and stream credit -/

section Credit

variable (q : QueueFn)

def streamFcUpdate (s : QuicStream) (ctx : QuicStreamCtx) : QuicStream × QuicStreamCtx :=
  let ctx :=
    if sub64 ctx.maxDataLocal ctx.bytesRecvd < QUIC_STREAM_RECV_BUF_SIZE / 4 then
      let limit := ctx.bytesRecvd + QUIC_STREAM_RECV_BUF_SIZE
      { ctx with maxDataLocal := limit }.queueFn q (.maxData limit)
    else ctx
  if sub64 s.recvMaxData s.recvOffset < QUIC_STREAM_RECV_BUF_SIZE / 4 then
    let limit := s.recvOffset + QUIC_STREAM_RECV_BUF_SIZE
    ({ s with recvMaxData := limit }, ctx.queueFn q (.maxStreamData s.streamId limit))
  else (s, ctx)

def QUIC_STREAM_CREDIT_CHUNK : Nat := 256
def QUIC_STREAM_CREDIT_RESERVE : Nat := 16

/-- Raise the peer's stream limit to the streams it opened and a chunk more; the limit never goes down. -/
def quicStreamGrantCredit (ctx : QuicStreamCtx) (bidi : Bool) : QuicStreamCtx :=
  let opened := if bidi then ctx.peerBidiOpened else ctx.peerUniOpened
  let limit := if bidi then ctx.maxStreamsBidiLocal else ctx.maxStreamsUniLocal
  let want := opened + QUIC_STREAM_CREDIT_CHUNK
  if want ≤ limit then ctx
  else
    let ctx := if bidi then { ctx with maxStreamsBidiLocal := want } else { ctx with maxStreamsUniLocal := want }
    ctx.queueFn q (.maxStreams want bidi)

def quicStreamNotePeerStream (ctx : QuicStreamCtx) (sid : Nat) : QuicStreamCtx :=
  if sid % 2 = ctx.nextLocalBidiId % 2 then ctx
  else
    let bidi := decide (sid / 2 % 2 = 0)
    let ctx := if bidi then { ctx with peerBidiOpened := ctx.peerBidiOpened + 1 }
               else { ctx with peerUniOpened := ctx.peerUniOpened + 1 }
    let opened := if bidi then ctx.peerBidiOpened else ctx.peerUniOpened
    let limit := if bidi then ctx.maxStreamsBidiLocal else ctx.maxStreamsUniLocal
    if 0 < limit ∧ limit < opened + QUIC_STREAM_CREDIT_RESERVE then quicStreamGrantCredit q ctx bidi else ctx

/-! ## `quic_stream_on_recv` -/

/-- The copy into `recv_buf`, allocated at the first frame and grown when a frame ends past it. -/
def bufferFrame (f : StreamFrame) (s : QuicStream) : QuicStream :=
  { s with
    recvBuf := some ((s.recvBuf.getD Mem.fresh).write f.offset (f.data.map some))
    recvBufCap := if s.recvBuf.isNone ∨ s.recvBufCap < f.stop then f.stop + 65536 else s.recvBufCap }

/-- The branch of a frame past `recv_offset`. -/
def recvOutOfOrder (f : StreamFrame) (s : QuicStream) (ctx : QuicStreamCtx) : QuicStream × QuicStreamCtx :=
  let s := bufferFrame f s
  let s := { s with gapTable := gapInsert s.gapTable f.offset f.data.length }
  let ctx := ctx.addRecvd f.data.length
  let s := { s with recvBufLen := max s.recvBufLen f.stop }
  streamFcUpdate q s ctx

/-- The delivery of a frame that starts at or before `recv_offset`. -/
def recvDeliver (f : StreamFrame) (s : QuicStream) (ctx : QuicStreamCtx) : QuicStream × QuicStreamCtx :=
  if s.recvOffset < f.stop then
    let newBytes := f.stop - s.recvOffset
    let skip := s.recvOffset - f.offset
    let ctx := ctx.addRecvd newBytes
    let s := { s with recvOffset := f.stop, recvBufLen := max s.recvBufLen f.stop }
    let ctx := ctx.deliver s.streamId ((f.data.drop skip).map some) false
    gapDrain s ctx
  else (s, ctx)

def recvFin (s : QuicStream) (ctx : QuicStreamCtx) : QuicStream × QuicStreamCtx :=
  if s.finRecvd ∧ s.finalSize ≤ s.recvOffset then
    ({ s with recvState := .sizeKnown }, ctx.deliver s.streamId [] true)
  else (s, ctx)

def recvInOrder (f : StreamFrame) (s : QuicStream) (ctx : QuicStreamCtx) : QuicStream × QuicStreamCtx :=
  let (s, ctx) := recvDeliver f s ctx
  let (s, ctx) := streamFcUpdate q s ctx
  recvFin s ctx

/-- `fin_recvd` and `final_size` of a frame with FIN. -/
def noteFin (f : StreamFrame) (s : QuicStream) : QuicStream :=
  if f.fin then { s with finRecvd := true, finalSize := f.stop } else s

/-- What a call does to its stream once the frame is inside the flow-control limit. -/
def recvFrame (f : StreamFrame) (s : QuicStream) (ctx : QuicStreamCtx) : QuicStream × QuicStreamCtx :=
  let s := noteFin f s
  if s.recvOffset < f.offset then recvOutOfOrder q f s ctx else recvInOrder q f s ctx

def recvOpen (ctx : QuicStreamCtx) (sid : Nat) : QuicStream × QuicStreamCtx :=
  let isNew := (streamFind ctx sid).isNone
  let (s, ctx) := streamFindOrCreate ctx sid
  (s, if isNew then quicStreamNotePeerStream q ctx sid else ctx)

def quicStreamOnRecv (ctx : QuicStreamCtx) (f : StreamFrame) : Int × QuicStreamCtx :=
  let (s, ctx) := recvOpen q ctx f.streamId
  if s.recvMaxData < f.stop then (-1, ctx)
  else
    let (s, ctx) := recvFrame q f s ctx
    (0, (setStream ctx s).flushFn)

end Credit
end MoqLiveCast
