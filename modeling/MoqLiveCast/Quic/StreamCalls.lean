import MoqLiveCast.Quic.StreamRecv
import MoqLiveCast.Quic.StreamSend
/-!
# StreamCalls — the other calls of the stream layer, and all of them as steps

Opening a stream, what the peer's frames and transport parameters change (`quic_stream.c`,
`got_transport_params_cb` of `quic_connection.c`), and `StreamCall`, a call of any kind.  The transport parameters that
no stream reads are stepped over.
-/
namespace MoqLiveCast

/-! ## Transport parameters -/

/-- The parameters of a block, each with the bytes of its value, up to the first that is cut off; a parameter has two
bytes at least, so `n` bounds the turns. -/
def transportParams : Nat → List Byte → List (Nat × List Byte)
  | 0, _ => []
  | n + 1, params =>
    match readVarint params with
    | none => []
    | some (tpId, rest) =>
      match readVarint rest with
      | none => []
      | some (tpLen, rest) =>
        if rest.length < tpLen then [] else (tpId, rest.take tpLen) :: transportParams n (rest.drop tpLen)

/-- One turn of the loop of `got_transport_params_cb`; a value that does not decode changes nothing. -/
def setTransportParam (ctx : QuicStreamCtx) (tp : Nat × List Byte) : QuicStreamCtx :=
  match quicVarintDecode tp.2 with
  | none => ctx
  | some (val, _) =>
    match tp.1 with
    | 0x04 => { ctx with maxDataPeer := val }
    | 0x05 => { ctx with peerInitMaxStreamDataBidiLocal := val }
    | 0x06 => { ctx with peerInitMaxStreamDataBidiRemote := val }
    | 0x07 => { ctx with peerInitMaxStreamDataUni := val }
    | 0x08 => { ctx with maxStreamsBidiPeer := val }
    | 0x09 => { ctx with maxStreamsUniPeer := val }
    | _ => ctx

def gotTransportParams (ctx : QuicStreamCtx) (params : List Byte) : QuicStreamCtx :=
  quicStreamApplyInitSendCredit ((transportParams params.length params).foldl setTransportParam ctx)

section Calls

variable (q : QueueFn)

/-! ## Opening a stream -/

def NO_STREAM : Nat := 18446744073709551615

def quicStreamOpen (ctx : QuicStreamCtx) : Nat × QuicStreamCtx :=
  let sid := ctx.nextLocalBidiId
  if ctx.maxStreamsBidiPeer ≤ sid / 4 ∧ 0 < ctx.maxStreamsBidiPeer then
    (NO_STREAM, ctx.queueFn q (.streamsBlocked ctx.maxStreamsBidiPeer true))
  else
    let ctx := { ctx with nextLocalBidiId := ctx.nextLocalBidiId + 4 }
    let (s, ctx) := streamFindOrCreate ctx sid
    (sid, setStream ctx { s with sendState := .send })

def quicStreamOpenUni (ctx : QuicStreamCtx) : Nat × QuicStreamCtx :=
  let sid := ctx.nextLocalUniId
  if ctx.maxStreamsUniPeer ≤ sid / 4 ∧ 0 < ctx.maxStreamsUniPeer then
    (NO_STREAM, ctx.queueFn q (.streamsBlocked ctx.maxStreamsUniPeer false))
  else
    let ctx := { ctx with nextLocalUniId := ctx.nextLocalUniId + 4 }
    let (s, ctx) := streamFindOrCreate ctx sid
    (sid, setStream ctx
      { s with sendState := .send, recvState := .resetRecvd, recvMaxData := 0, sendMaxData := peerSendCredit ctx sid })

/-! ## What the peer's frames change -/

def quicStreamStopSending (ctx : QuicStreamCtx) (sid errorCode : Nat) : Int × QuicStreamCtx :=
  match streamFind ctx sid with
  | none => (-1, ctx)
  | some s =>
    let ctx := (ctx.queueFn q (.stopSending sid errorCode)).flushFn
    (0, setStream ctx { s with recvState := .resetRecvd, recvBuf := none, recvBufLen := 0 })

def quicStreamHandshakeDone (ctx : QuicStreamCtx) : QuicStreamCtx :=
  { ctx with maxDataLocal := QUIC_STREAM_RECV_BUF_SIZE }.queueFn q (.maxData QUIC_STREAM_RECV_BUF_SIZE)

def quicStreamOnMaxStreams (ctx : QuicStreamCtx) (maxStreams : Nat) (bidi : Bool) : QuicStreamCtx :=
  if bidi then { ctx with maxStreamsBidiPeer := maxStreams } else { ctx with maxStreamsUniPeer := maxStreams }

/-- `on_stream_reset` hears of a stream that has no record, too. -/
def quicStreamOnReset (ctx : QuicStreamCtx) (sid finalSize errorCode : Nat) : QuicStreamCtx :=
  let found := streamFind ctx sid
  let ctx := if ctx.onStreamReset then ctx.call (.streamReset sid errorCode) else ctx
  match found with
  | none => ctx
  | some s => setStream ctx { s with recvState := .resetRecvd, recvOffset := finalSize, recvBuf := none, recvBufLen := 0 }

def quicStreamOnStreamsBlocked (ctx : QuicStreamCtx) (bidi : Bool) : QuicStreamCtx := quicStreamGrantCredit q ctx bidi

/-! ## Calls -/

/-- A call of the stream layer: by the application, for a frame of the peer, or by TLS. -/
inductive StreamCall where
  | send (c : SendCall)
  | openBidi
  | openUni
  | stopSending (sid errorCode : Nat)
  | handshakeDone
  | onRecv (f : StreamFrame)
  | onReset (sid finalSize errorCode : Nat)
  | onMaxStreams (maxStreams : Nat) (bidi : Bool)
  | onStreamsBlocked (maxStreams : Nat) (bidi : Bool)
  | transportParams (params : List Byte)

def streamStep (ctx : QuicStreamCtx) : StreamCall → QuicStreamCtx
  | .send c => sendStep q ctx c
  | .openBidi => (quicStreamOpen q ctx).2
  | .openUni => (quicStreamOpenUni q ctx).2
  | .stopSending sid errorCode => (quicStreamStopSending q ctx sid errorCode).2
  | .handshakeDone => quicStreamHandshakeDone q ctx
  | .onRecv f => (quicStreamOnRecv q ctx f).2
  | .onReset sid finalSize errorCode => quicStreamOnReset ctx sid finalSize errorCode
  | .onMaxStreams maxStreams bidi => quicStreamOnMaxStreams ctx maxStreams bidi
  | .onStreamsBlocked _ bidi => quicStreamOnStreamsBlocked q ctx bidi
  | .transportParams params => gotTransportParams ctx params

end Calls

def weOpen (server : Bool) (sid : Nat) : Prop := sid % 2 = if server then 1 else 0

instance (server : Bool) (sid : Nat) : Decidable (weOpen server sid) := inferInstanceAs (Decidable (_ = _))

def streamCtxStart (server : Bool) : QuicStreamCtx :=
  if server then { nextLocalBidiId := 1, nextLocalUniId := 3 } else { nextLocalBidiId := 0, nextLocalUniId := 2 }

end MoqLiveCast
