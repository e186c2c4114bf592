import MoqLiveCast.Lib.Word
import MoqLiveCast.Quic.AckFrame
import MoqLiveCast.Quic.ConnectionId
import MoqLiveCast.Quic.CryptoFrame
/-!
# FrameCodec — the frames that have a writer and a parser (`quic_packet.c`)

A writer puts the type, the fields as varints and the payload into a buffer of `cap` bytes; a parser reads them back.
Both return an `int`: `-1`, or the number of bytes, which is a `size_t` cut down to 32 bits.
-/
namespace MoqLiveCast
namespace Codec

def QUIC_FRAME_RESET_STREAM : Byte := 0x04
def QUIC_FRAME_STOP_SENDING : Byte := 0x05
def QUIC_FRAME_STREAM : Byte := 0x08
def QUIC_FRAME_MAX_DATA : Byte := 0x10
def QUIC_FRAME_MAX_STREAM_DATA : Byte := 0x11
def QUIC_FRAME_MAX_STREAMS_BIDI : Byte := 0x12
def QUIC_FRAME_MAX_STREAMS_UNI : Byte := 0x13
def QUIC_FRAME_DATA_BLOCKED : Byte := 0x14
def QUIC_FRAME_STREAM_DATA_BLOCKED : Byte := 0x15
def QUIC_FRAME_STREAMS_BLOCKED_BIDI : Byte := 0x16
def QUIC_FRAME_STREAMS_BLOCKED_UNI : Byte := 0x17
def QUIC_FRAME_CONNECTION_CLOSE : Byte := 0x1c
def QUIC_FRAME_CONNECTION_CLOSE_APP : Byte := 0x1d
def QUIC_FRAME_DATAGRAM : Byte := 0x30
def QUIC_FRAME_DATAGRAM_LEN : Byte := 0x31

/-! ## Writers -/

/-- `pos += quic_varint_encode(buf + pos, cap - pos, val)` for each value. -/
def encodeVarints : Nat → List Nat → Option (List Byte)
  | _, [] => some []
  | cap, val :: vals =>
    (quicVarintEncode cap val).bind fun bytes => (encodeVarints (cap - bytes.length) vals).map (bytes ++ ·)

/-- What every writer does: nothing in a buffer that is too small, else the type, the fields and the payload. -/
def writeFrame (cap : Nat) (type : Byte) (vals : List Nat) (payload : List Byte) : Option (List Byte) :=
  if cap < 1 + (vals.map quicVarintLen).sum + payload.length then none
  else (encodeVarints (cap - 1) vals).map fun bytes => type :: (bytes ++ payload)

def quicFrameWriteCrypto (cap offset : Nat) (data : List Byte) : Option (List Byte) :=
  writeFrame cap QUIC_FRAME_CRYPTO [offset, data.length] data

def quicFrameWriteAck (cap : Nat) (ack : QuicAckFrame) : Option (List Byte) :=
  writeFrame cap QUIC_FRAME_ACK ([ack.largestAcknowledged, ack.ackDelay, ack.ranges.length, ack.firstAckRange] ++
      ack.ranges.flatMap (fun r => [r.1, r.2])) []

def quicFrameWriteConnectionClose (cap errorCode : Nat) (reason : List Byte) : Option (List Byte) :=
  writeFrame cap QUIC_FRAME_CONNECTION_CLOSE [errorCode, 0, reason.length] reason

def streamType (fin : Bool) : Byte := QUIC_FRAME_STREAM ||| 0x04 ||| 0x02 ||| if fin then 0x01 else 0

def quicFrameWriteStream (cap streamId offset : Nat) (fin : Bool) (data : List Byte) : Option (List Byte) :=
  writeFrame cap (streamType fin) [streamId, offset, data.length] data

def quicFrameWriteMaxData (cap maxData : Nat) : Option (List Byte) := writeFrame cap QUIC_FRAME_MAX_DATA [maxData] []

def quicFrameWriteMaxStreamData (cap streamId maxData : Nat) : Option (List Byte) :=
  writeFrame cap QUIC_FRAME_MAX_STREAM_DATA [streamId, maxData] []

def quicFrameWriteMaxStreams (cap maxStreams : Nat) (bidi : Bool) : Option (List Byte) :=
  writeFrame cap (if bidi then QUIC_FRAME_MAX_STREAMS_BIDI else QUIC_FRAME_MAX_STREAMS_UNI) [maxStreams] []

def quicFrameWriteResetStream (cap streamId errorCode finalSize : Nat) : Option (List Byte) :=
  writeFrame cap QUIC_FRAME_RESET_STREAM [streamId, errorCode, finalSize] []

def quicFrameWriteStopSending (cap streamId errorCode : Nat) : Option (List Byte) :=
  writeFrame cap QUIC_FRAME_STOP_SENDING [streamId, errorCode] []

def quicFrameWriteRetireConnId (cap seqNum : Nat) : Option (List Byte) :=
  writeFrame cap QUIC_FRAME_RETIRE_CONNECTION_ID [seqNum] []

def quicFrameWriteDataBlocked (cap maxData : Nat) : Option (List Byte) :=
  writeFrame cap QUIC_FRAME_DATA_BLOCKED [maxData] []

def quicFrameWriteStreamDataBlocked (cap streamId maxStreamData : Nat) : Option (List Byte) :=
  writeFrame cap QUIC_FRAME_STREAM_DATA_BLOCKED [streamId, maxStreamData] []

def quicFrameWriteStreamsBlocked (cap maxStreams : Nat) (bidi : Bool) : Option (List Byte) :=
  writeFrame cap (if bidi then QUIC_FRAME_STREAMS_BLOCKED_BIDI else QUIC_FRAME_STREAMS_BLOCKED_UNI) [maxStreams] []

def quicFrameWriteDatagram (cap : Nat) (data : List Byte) : Option (List Byte) :=
  writeFrame cap QUIC_FRAME_DATAGRAM_LEN [data.length] data

/-! ## Parsers -/

/-- What every parser does: look at the type, read the fields, and count the bytes that took. -/
def parseFrame {α : Type} (fields : Byte → Option (Reader Byte α)) (data : List Byte) : Option (α × Nat) :=
  match data with
  | [] => none
  | type :: rest =>
    (fields type).bind fun rd => (rd rest).map fun (a, rest) => (a, data.length - rest.length)

def typed {α : Type} (type : Byte) (rd : Reader Byte α) : Byte → Option (Reader Byte α) := fun t =>
  if t ≠ type then none else some rd

def typedBidi {α : Type} (bidi uni : Byte) (rd : Reader Byte α) : Byte → Option (Reader Byte (α × Bool)) := fun t =>
  if t = bidi then some (rd.map fun a => (a, true))
  else if t = uni then some (rd.map fun a => (a, false))
  else none

def readCounted : Reader Byte (List Byte) := Reader.andThen readVarint Reader.take

def quicFrameParseConnectionClose : List Byte → Option ((Nat × List Byte) × Nat) :=
  parseFrame fun type =>
    if type = QUIC_FRAME_CONNECTION_CLOSE_APP then some (Reader.pair readVarint readCounted)
    else if type ≠ QUIC_FRAME_CONNECTION_CLOSE then none
    else some (Reader.pair readVarint (Reader.andThen readVarint fun _ => readCounted))

def quicFrameParseStream : List Byte → Option ((Nat × Nat × Bool × List Byte) × Nat) :=
  parseFrame fun type =>
    if type &&& 0xf8 ≠ QUIC_FRAME_STREAM then none
    else
      some (Reader.pair readVarint (Reader.pair (if type &&& 0x04 ≠ 0 then readVarint else Reader.done 0)
        (Reader.map (fun data => (decide (type &&& 0x01 ≠ 0), data))
          (if type &&& 0x02 ≠ 0 then readCounted else Reader.all))))

def quicFrameParseMaxData : List Byte → Option (Nat × Nat) := parseFrame (typed QUIC_FRAME_MAX_DATA readVarint)

def quicFrameParseMaxStreamData : List Byte → Option ((Nat × Nat) × Nat) :=
  parseFrame (typed QUIC_FRAME_MAX_STREAM_DATA (Reader.pair readVarint readVarint))

def quicFrameParseMaxStreams : List Byte → Option ((Nat × Bool) × Nat) :=
  parseFrame (typedBidi QUIC_FRAME_MAX_STREAMS_BIDI QUIC_FRAME_MAX_STREAMS_UNI readVarint)

def quicFrameParseResetStream : List Byte → Option ((Nat × Nat × Nat) × Nat) :=
  parseFrame (typed QUIC_FRAME_RESET_STREAM (Reader.pair readVarint (Reader.pair readVarint readVarint)))

def quicFrameParseStopSending : List Byte → Option ((Nat × Nat) × Nat) :=
  parseFrame (typed QUIC_FRAME_STOP_SENDING (Reader.pair readVarint readVarint))

def quicFrameParseRetireConnId : List Byte → Option (Nat × Nat) :=
  parseFrame (typed QUIC_FRAME_RETIRE_CONNECTION_ID readVarint)

def quicFrameParseDataBlocked : List Byte → Option (Nat × Nat) := parseFrame (typed QUIC_FRAME_DATA_BLOCKED readVarint)

def quicFrameParseStreamDataBlocked : List Byte → Option ((Nat × Nat) × Nat) :=
  parseFrame (typed QUIC_FRAME_STREAM_DATA_BLOCKED (Reader.pair readVarint readVarint))

def quicFrameParseStreamsBlocked : List Byte → Option ((Nat × Bool) × Nat) :=
  parseFrame (typedBidi QUIC_FRAME_STREAMS_BLOCKED_BIDI QUIC_FRAME_STREAMS_BLOCKED_UNI readVarint)

def quicFrameParseDatagram : List Byte → Option (List Byte × Nat) :=
  parseFrame fun type =>
    if type = QUIC_FRAME_DATAGRAM then some Reader.all
    else if type = QUIC_FRAME_DATAGRAM_LEN then some readCounted
    else none

end Codec

/-! ## What is written is parsed back -/

namespace Codec

/-- A frame with the fields its writer takes and its parser returns. -/
inductive WireFrame where
  | crypto (f : CryptoFrame)
  | ack (f : QuicAckFrame)
  | connectionClose (errorCode : Nat) (reason : List Byte)
  | stream (streamId offset : Nat) (fin : Bool) (data : List Byte)
  | maxData (maxData : Nat)
  | maxStreamData (streamId maxData : Nat)
  | maxStreams (maxStreams : Nat) (bidi : Bool)
  | resetStream (streamId errorCode finalSize : Nat)
  | stopSending (streamId errorCode : Nat)
  | retireConnId (seqNum : Nat)
  | dataBlocked (maxData : Nat)
  | streamDataBlocked (streamId maxStreamData : Nat)
  | streamsBlocked (maxStreams : Nat) (bidi : Bool)
  | datagram (data : List Byte)
deriving DecidableEq

namespace WireFrame

def write (cap : Nat) : WireFrame → Option (List Byte)
  | crypto f => quicFrameWriteCrypto cap f.offset f.data
  | ack f => quicFrameWriteAck cap f
  | connectionClose ec reason => quicFrameWriteConnectionClose cap ec reason
  | stream sid offset fin data => quicFrameWriteStream cap sid offset fin data
  | maxData md => quicFrameWriteMaxData cap md
  | maxStreamData sid md => quicFrameWriteMaxStreamData cap sid md
  | maxStreams ms bidi => quicFrameWriteMaxStreams cap ms bidi
  | resetStream sid ec fs => quicFrameWriteResetStream cap sid ec fs
  | stopSending sid ec => quicFrameWriteStopSending cap sid ec
  | retireConnId seq => quicFrameWriteRetireConnId cap seq
  | dataBlocked md => quicFrameWriteDataBlocked cap md
  | streamDataBlocked sid msd => quicFrameWriteStreamDataBlocked cap sid msd
  | streamsBlocked ms bidi => quicFrameWriteStreamsBlocked cap ms bidi
  | datagram data => quicFrameWriteDatagram cap data

def parser : WireFrame → List Byte → Option (WireFrame × Nat)
  | crypto _, b => (quicFrameParseCrypto b).map (Prod.map crypto id)
  | ack _, b => (quicFrameParseAck b).map (Prod.map ack id)
  | connectionClose _ _, b => (quicFrameParseConnectionClose b).map (Prod.map (fun r => connectionClose r.1 r.2) id)
  | stream _ _ _ _, b => (quicFrameParseStream b).map (Prod.map (fun r => stream r.1 r.2.1 r.2.2.1 r.2.2.2) id)
  | maxData _, b => (quicFrameParseMaxData b).map (Prod.map maxData id)
  | maxStreamData _ _, b => (quicFrameParseMaxStreamData b).map (Prod.map (fun r => maxStreamData r.1 r.2) id)
  | maxStreams _ _, b => (quicFrameParseMaxStreams b).map (Prod.map (fun r => maxStreams r.1 r.2) id)
  | resetStream _ _ _, b => (quicFrameParseResetStream b).map (Prod.map (fun r => resetStream r.1 r.2.1 r.2.2) id)
  | stopSending _ _, b => (quicFrameParseStopSending b).map (Prod.map (fun r => stopSending r.1 r.2) id)
  | retireConnId _, b => (quicFrameParseRetireConnId b).map (Prod.map retireConnId id)
  | dataBlocked _, b => (quicFrameParseDataBlocked b).map (Prod.map dataBlocked id)
  | streamDataBlocked _ _, b =>
    (quicFrameParseStreamDataBlocked b).map (Prod.map (fun r => streamDataBlocked r.1 r.2) id)
  | streamsBlocked _ _, b => (quicFrameParseStreamsBlocked b).map (Prod.map (fun r => streamsBlocked r.1 r.2) id)
  | datagram _, b => (quicFrameParseDatagram b).map (Prod.map datagram id)

/-! ## The bytes of a frame -/

def type : WireFrame → Byte
  | crypto _ => QUIC_FRAME_CRYPTO
  | ack _ => QUIC_FRAME_ACK
  | connectionClose _ _ => QUIC_FRAME_CONNECTION_CLOSE
  | stream _ _ fin _ => streamType fin
  | maxData _ => QUIC_FRAME_MAX_DATA
  | maxStreamData _ _ => QUIC_FRAME_MAX_STREAM_DATA
  | maxStreams _ bidi => if bidi then QUIC_FRAME_MAX_STREAMS_BIDI else QUIC_FRAME_MAX_STREAMS_UNI
  | resetStream _ _ _ => QUIC_FRAME_RESET_STREAM
  | stopSending _ _ => QUIC_FRAME_STOP_SENDING
  | retireConnId _ => QUIC_FRAME_RETIRE_CONNECTION_ID
  | dataBlocked _ => QUIC_FRAME_DATA_BLOCKED
  | streamDataBlocked _ _ => QUIC_FRAME_STREAM_DATA_BLOCKED
  | streamsBlocked _ bidi => if bidi then QUIC_FRAME_STREAMS_BLOCKED_BIDI else QUIC_FRAME_STREAMS_BLOCKED_UNI
  | datagram _ => QUIC_FRAME_DATAGRAM_LEN

def vals : WireFrame → List Nat
  | crypto f => [f.offset, f.data.length]
  | ack f => [f.largestAcknowledged, f.ackDelay, f.ranges.length, f.firstAckRange] ++
                                  f.ranges.flatMap (fun r => [r.1, r.2])
  | connectionClose ec reason => [ec, 0, reason.length]
  | stream sid offset _ data => [sid, offset, data.length]
  | maxData md => [md]
  | maxStreamData sid md => [sid, md]
  | maxStreams ms _ => [ms]
  | resetStream sid ec fs => [sid, ec, fs]
  | stopSending sid ec => [sid, ec]
  | retireConnId seq => [seq]
  | dataBlocked md => [md]
  | streamDataBlocked sid msd => [sid, msd]
  | streamsBlocked ms _ => [ms]
  | datagram data => [data.length]

def payload : WireFrame → List Byte
  | crypto f => f.data
  | connectionClose _ reason => reason
  | stream _ _ _ data => data
  | datagram data => data
  | _ => []

def size (f : WireFrame) : Nat := 1 + (f.vals.map quicVarintLen).sum + f.payload.length

def bytes (f : WireFrame) : List Byte := f.type :: (f.vals.flatMap varintBytes ++ f.payload)

def Fits (f : WireFrame) : Prop :=
  (∀ val ∈ f.vals, val < 2 ^ 62) ∧
    match f with
    | ack a => a.ranges.length ≤ QUIC_ACK_MAX_RANGES
    | _ => True

theorem write_eq_writeFrame (cap : Nat) (f : WireFrame) : f.write cap = writeFrame cap f.type f.vals f.payload := by
  cases f <;> rfl

theorem bytes_length (f : WireFrame) : f.bytes.length = f.size := by
  unfold bytes size
  have hlen : (fun val => (varintBytes val).length) = quicVarintLen := funext varintBytes_length
  rw [List.length_cons, List.length_append, List.length_flatMap, hlen]
  omega

end WireFrame

/-! ## Writers -/

theorem encodeVarints_eq : ∀ (vals : List Nat) (cap : Nat), (vals.map quicVarintLen).sum ≤ cap →
    encodeVarints cap vals = some (vals.flatMap varintBytes)
  | [], _, _ => rfl
  | val :: vals, cap, h => by
    rw [List.map_cons, List.sum_cons] at h
    unfold encodeVarints quicVarintEncode
    rw [if_neg (by omega), Option.bind_some, varintBytes_length, encodeVarints_eq vals _ (by omega), Option.map_some,
      List.flatMap_cons]

theorem WireFrame.write_eq (cap : Nat) (f : WireFrame) : f.write cap = if cap < f.size then none else some f.bytes := by
  rw [WireFrame.write_eq_writeFrame]
  unfold writeFrame
  split
  · rename_i hlt
    exact (if_pos hlt).symm
  · rename_i hge
    rw [encodeVarints_eq _ _ (by omega), Option.map_some]
    exact (if_neg hge).symm

theorem quicVarintLen_pos (val : Nat) : 0 < quicVarintLen val := by
  unfold quicVarintLen
  split_ifs <;> omega

/-! ## Parsers -/

theorem reads_readVarint {val : Nat} (h : val < 2 ^ 62) : Reads readVarint val (varintBytes val) :=
  readVarint_varintBytes h

theorem reads_readCounted {data : List Byte} (h : data.length < 2 ^ 62) :
    Reads readCounted data (varintBytes data.length ++ data) := (reads_readVarint h).andThen (reads_take data)

theorem reads_parseAckRanges : ∀ {rs : List (Nat × Nat)}, (∀ r ∈ rs, r.1 < 2 ^ 62 ∧ r.2 < 2 ^ 62) →
    Reads (parseAckRanges rs.length) rs ((rs.flatMap (fun r => [r.1, r.2])).flatMap varintBytes)
  | [], _ => fun _ => rfl
  | r :: rs, h => by
    intro rest
    obtain ⟨hgap, har⟩ := h r List.mem_cons_self
    have ih := reads_parseAckRanges (fun r hr => h r (List.mem_cons_of_mem _ hr)) rest
    simp only [List.flatMap_cons, List.length_cons, List.cons_append, List.nil_append, List.append_assoc]
    unfold parseAckRanges
    rw [reads_readVarint hgap, Option.bind_some]
    dsimp only
    rw [reads_readVarint har, Option.bind_some]
    dsimp only
    rw [ih, Option.map_some]

theorem parseFrame_bytes {α : Type} {fields : Byte → Option (Reader Byte α)} {rd : Reader Byte α} {a : α} {type : Byte}
    {bytes : List Byte} (ht : fields type = some rd) (hr : Reads rd a bytes) (t : List Byte) :
    parseFrame fields (type :: bytes ++ t) = some (a, (type :: bytes).length) := by
  unfold parseFrame
  rw [List.cons_append]
  dsimp only
  rw [ht, Option.bind_some, hr, Option.map_some]
  dsimp only
  rw [List.length_cons, List.length_append, List.length_cons]
  congr 2
  omega

theorem reads_one {v : Nat} (hv : v < 2 ^ 62) : Reads readVarint v ([v].flatMap varintBytes ++ []) := by
  simpa using reads_readVarint hv

theorem reads_two {v w : Nat} (hv : v < 2 ^ 62) (hw : w < 2 ^ 62) :
    Reads (Reader.pair readVarint readVarint) (v, w) ([v, w].flatMap varintBytes ++ []) := by
  simpa using (reads_readVarint hv).pair (reads_readVarint hw)

theorem reads_three {u v w : Nat} (hu : u < 2 ^ 62) (hv : v < 2 ^ 62) (hw : w < 2 ^ 62) :
    Reads (Reader.pair readVarint (Reader.pair readVarint readVarint)) (u, v, w) ([u, v, w].flatMap varintBytes ++ []) := by
  simpa using (reads_readVarint hu).pair ((reads_readVarint hv).pair (reads_readVarint hw))

theorem typed_self {α : Type} (type : Byte) (rd : Reader Byte α) : typed type rd type = some rd :=
  if_neg (fun h => h rfl)

theorem typedBidi_self {α : Type} {bidi uni : Byte} (h : uni ≠ bidi) (rd : Reader Byte α) (dir : Bool) :
    typedBidi bidi uni rd (if dir then bidi else uni) = some (rd.map fun a => (a, dir)) := by
  unfold typedBidi
  cases dir with
  | true => exact if_pos rfl
  | false => exact (if_neg h).trans (if_pos rfl)

theorem quicFrameParseCrypto_append {f : CryptoFrame} (hoff : f.offset < 2 ^ 62) (hlen : f.data.length < 2 ^ 62) (t : List Byte) :
    quicFrameParseCrypto ((WireFrame.crypto f).bytes ++ t) = some (f, (WireFrame.crypto f).bytes.length) := by
  have hbytes : cryptoBytes f = (WireFrame.crypto f).bytes := by
    unfold cryptoBytes
    simp [WireFrame.bytes, WireFrame.type, WireFrame.vals, WireFrame.payload]
  rw [← hbytes]
  exact quicFrameParseCrypto_write hoff hlen (quicFrameWriteCrypto_eq (Nat.le_refl _)) t

theorem ackRanges_length_le : ∀ rs : List (Nat × Nat), rs.length ≤ ((rs.flatMap fun r => [r.1, r.2]).flatMap varintBytes).length
  | [] => Nat.le_refl _
  | r :: rs => by
    have ih := ackRanges_length_le rs
    have hgap := quicVarintLen_pos r.1
    simp only [List.flatMap_cons, List.cons_append, List.nil_append, List.length_append, List.length_cons, varintBytes_length]
    omega

theorem quicFrameParseAck_append {f : QuicAckFrame} (hf : (WireFrame.ack f).Fits) (t : List Byte) :
    quicFrameParseAck ((WireFrame.ack f).bytes ++ t) = some (f, (WireFrame.ack f).bytes.length) := by
  obtain ⟨hvals, hranges⟩ := hf
  change ∀ val ∈ f.largestAcknowledged :: f.ackDelay :: f.ranges.length :: f.firstAckRange ::
    f.ranges.flatMap (fun r => [r.1, r.2]), val < 2 ^ 62 at hvals
  simp only [List.forall_mem_cons] at hvals
  obtain ⟨hlargest, hdelay, hcount, hfirst, hrs⟩ := hvals
  have hreads := @reads_parseAckRanges f.ranges fun r hr =>
    ⟨hrs _ (List.mem_flatMap.2 ⟨r, hr, by simp⟩), hrs _ (List.mem_flatMap.2 ⟨r, hr, by simp⟩)⟩
  have hroom : f.ranges.length ≤ (varintBytes f.firstAckRange ++
      ((f.ranges.flatMap fun r => [r.1, r.2]).flatMap varintBytes ++ t)).length := by
    have := ackRanges_length_le f.ranges
    rw [List.length_append, List.length_append]
    omega
  have hbytes : (WireFrame.ack f).bytes ++ t = QUIC_FRAME_ACK :: (varintBytes f.largestAcknowledged ++
      (varintBytes f.ackDelay ++ (varintBytes f.ranges.length ++ (varintBytes f.firstAckRange ++
        ((f.ranges.flatMap fun r => [r.1, r.2]).flatMap varintBytes ++ t))))) := by
    simp [WireFrame.bytes, WireFrame.type, WireFrame.vals, WireFrame.payload]
  have hlen := congrArg List.length hbytes
  rw [List.length_append] at hlen
  rw [hbytes]
  unfold quicFrameParseAck
  dsimp only
  rw [if_neg (fun h => h.1 rfl), readVarint_varintBytes hlargest, Option.bind_some]
  dsimp only
  rw [readVarint_varintBytes hdelay, Option.bind_some]
  dsimp only
  rw [readVarint_varintBytes hcount, Option.bind_some]
  dsimp only
  rw [if_neg (Nat.not_lt.2 hroom), readVarint_varintBytes hfirst, Option.bind_some]
  dsimp only
  rw [hreads, Option.bind_some]
  dsimp only
  rw [if_neg (by decide), Option.map_some, List.take_of_length_le hranges, ← hlen, Nat.add_sub_cancel]

theorem streamType_bits (fin : Bool) : streamType fin &&& 0xf8 = QUIC_FRAME_STREAM ∧ streamType fin &&& 0x04 ≠ 0 ∧
    streamType fin &&& 0x02 ≠ 0 ∧ decide (streamType fin &&& 0x01 ≠ 0) = fin := by
  cases fin <;> decide

theorem quicFrameParseStream_append {sid offset : Nat} {fin : Bool} {data : List Byte} (hsid : sid < 2 ^ 62)
    (hoff : offset < 2 ^ 62) (hlen : data.length < 2 ^ 62) (t : List Byte) : quicFrameParseStream ((WireFrame.stream sid offset
    fin data).bytes ++ t) = some ((sid, offset, fin, data), (WireFrame.stream sid offset fin data).bytes.length) := by
  have hreads : Reads (Reader.pair readVarint (Reader.pair readVarint (Reader.map (fun data => (fin, data)) readCounted)))
      (sid, offset, fin, data) ([sid, offset, data.length].flatMap varintBytes ++ data) := by
    simpa using (reads_readVarint hsid).pair ((reads_readVarint hoff).pair ((reads_readCounted hlen).map _))
  refine parseFrame_bytes ?_ hreads t
  obtain ⟨hstream, hoffBit, hlenBit, hfinBit⟩ := streamType_bits fin
  show (if streamType fin &&& 0xf8 ≠ QUIC_FRAME_STREAM then none else _) = _
  rw [if_neg (not_not.2 hstream)]
  show some (Reader.pair readVarint (Reader.pair (if streamType fin &&& 0x04 ≠ 0 then _ else _)
    (Reader.map (fun data => (decide (streamType fin &&& 0x01 ≠ 0), data))
      (if streamType fin &&& 0x02 ≠ 0 then _ else _)))) = _
  rw [if_pos hoffBit, if_pos hlenBit, hfinBit]

theorem WireFrame.parser_bytes {f : WireFrame} (hf : f.Fits) (t : List Byte) :
    f.parser (f.bytes ++ t) = some (f, f.bytes.length) := by
  have hvals := hf.1
  cases f with
  | crypto f =>
    simp only [WireFrame.vals, List.forall_mem_cons, List.not_mem_nil, false_implies, implies_true, and_true] at hvals
    exact congrArg (Option.map (Prod.map crypto id)) (quicFrameParseCrypto_append hvals.1 hvals.2 t)
  | ack f => exact congrArg (Option.map (Prod.map ack id)) (quicFrameParseAck_append hf t)
  | connectionClose ec reason =>
    simp only [WireFrame.vals, List.forall_mem_cons, List.not_mem_nil, false_implies, implies_true, and_true] at hvals
    have hreads : Reads (Reader.pair readVarint (Reader.andThen readVarint fun _ => readCounted)) (ec, reason)
        ([ec, 0, reason.length].flatMap varintBytes ++ reason) := by
      simpa using (reads_readVarint hvals.1).pair
        ((reads_readVarint hvals.2.1).andThen (f := fun _ => readCounted) (reads_readCounted hvals.2.2))
    exact congrArg (Option.map _) (parseFrame_bytes rfl hreads t)
  | stream sid offset fin data =>
    simp only [WireFrame.vals, List.forall_mem_cons, List.not_mem_nil, false_implies, implies_true, and_true] at hvals
    exact congrArg (Option.map _) (quicFrameParseStream_append hvals.1 hvals.2.1 hvals.2.2 t)
  | maxData md =>
    simp only [WireFrame.vals, List.forall_mem_singleton] at hvals
    exact congrArg (Option.map _) (parseFrame_bytes (typed_self _ _) (reads_one hvals) t)
  | maxStreamData sid md =>
    simp only [WireFrame.vals, List.forall_mem_cons, List.not_mem_nil, false_implies, implies_true, and_true] at hvals
    exact congrArg (Option.map _) (parseFrame_bytes (typed_self _ _) (reads_two hvals.1 hvals.2) t)
  | maxStreams ms bidi =>
    simp only [WireFrame.vals, List.forall_mem_singleton] at hvals
    exact congrArg (Option.map _) (parseFrame_bytes (typedBidi_self (by decide) _ bidi) ((reads_one hvals).map _) t)
  | resetStream sid ec fs =>
    simp only [WireFrame.vals, List.forall_mem_cons, List.not_mem_nil, false_implies, implies_true, and_true] at hvals
    exact congrArg (Option.map _) (parseFrame_bytes (typed_self _ _) (reads_three hvals.1 hvals.2.1 hvals.2.2) t)
  | stopSending sid ec =>
    simp only [WireFrame.vals, List.forall_mem_cons, List.not_mem_nil, false_implies, implies_true, and_true] at hvals
    exact congrArg (Option.map _) (parseFrame_bytes (typed_self _ _) (reads_two hvals.1 hvals.2) t)
  | retireConnId seq =>
    simp only [WireFrame.vals, List.forall_mem_singleton] at hvals
    exact congrArg (Option.map _) (parseFrame_bytes (typed_self _ _) (reads_one hvals) t)
  | dataBlocked md =>
    simp only [WireFrame.vals, List.forall_mem_singleton] at hvals
    exact congrArg (Option.map _) (parseFrame_bytes (typed_self _ _) (reads_one hvals) t)
  | streamDataBlocked sid msd =>
    simp only [WireFrame.vals, List.forall_mem_cons, List.not_mem_nil, false_implies, implies_true, and_true] at hvals
    exact congrArg (Option.map _) (parseFrame_bytes (typed_self _ _) (reads_two hvals.1 hvals.2) t)
  | streamsBlocked ms bidi =>
    simp only [WireFrame.vals, List.forall_mem_singleton] at hvals
    exact congrArg (Option.map _) (parseFrame_bytes (typedBidi_self (by decide) _ bidi) ((reads_one hvals).map _) t)
  | datagram data =>
    simp only [WireFrame.vals, List.forall_mem_singleton] at hvals
    have hreads : Reads readCounted data ([data.length].flatMap varintBytes ++ data) := by
      simpa using reads_readCounted hvals
    exact congrArg (Option.map _) (parseFrame_bytes rfl hreads t)

/-! ## What the functions return -/

namespace WireFrame

def writeRet (cap : Nat) (f : WireFrame) : Int := (f.write cap).elim (-1) fun bytes => toInt32 bytes.length

def buffer (cap : Nat) (f : WireFrame) : List Byte := (f.write cap).getD []

/-- The frame the parser of the kind of `f` finds, and its `int`. -/
def parse (f : WireFrame) (data : List Byte) : Option (WireFrame × Int) := (f.parser data).map (Prod.map id toInt32)

/-- **The writer succeeds in every buffer with room, and wherever it succeeds with `n` bytes the parser takes these `n`
and finds the frame, whatever follows.** -/
structure RoundTrips (f : WireFrame) : Prop where
  written : ∀ cap, f.size ≤ cap → 0 ≤ f.writeRet cap
  parsed : ∀ (cap n : Nat), f.writeRet cap = n → ∀ t, f.parse ((f.buffer cap).take n ++ t) = some (f, (n : Int))

theorem writeRet_of_room {cap : Nat} {f : WireFrame} (h : f.size ≤ cap) : f.writeRet cap = toInt32 f.size := by
  unfold writeRet
  rw [write_eq, if_neg (Nat.not_lt.2 h), Option.elim_some, bytes_length]

theorem writeRet_of_noRoom {cap : Nat} {f : WireFrame} (h : cap < f.size) : f.writeRet cap = -1 := by
  unfold writeRet
  rw [write_eq, if_pos h]
  rfl

theorem buffer_of_room {cap : Nat} {f : WireFrame} (h : f.size ≤ cap) : f.buffer cap = f.bytes := by
  unfold buffer
  rw [write_eq, if_neg (Nat.not_lt.2 h), Option.getD_some]

end WireFrame

/-- **Every frame an `int` can count round-trips.** -/
theorem wireFrame_round_trips (f : WireFrame) (hf : f.Fits) (hsize : f.size ≤ INT_MAX) : f.RoundTrips where
  written cap hcap := by
    rw [WireFrame.writeRet_of_room hcap, toInt32_of_le hsize]
    exact Int.natCast_nonneg _
  parsed cap n hret t := by
    by_cases hcap : f.size ≤ cap
    · rw [WireFrame.writeRet_of_room hcap, toInt32_of_le hsize, Int.natCast_inj] at hret
      have hlen : f.bytes.length = n := (WireFrame.bytes_length f).trans hret
      unfold WireFrame.parse
      rw [WireFrame.buffer_of_room hcap, List.take_of_length_le (Nat.le_of_eq hlen), WireFrame.parser_bytes hf, hlen,
        Option.map_some, Prod.map_apply, toInt32_of_le (hret ▸ hsize), id]
    · rw [WireFrame.writeRet_of_noRoom (Nat.lt_of_not_le hcap)] at hret
      omega

theorem wireFrame_round_trips_stream : (WireFrame.stream 4 0 true [1, 2, 3]).RoundTrips :=
  wireFrame_round_trips _ ⟨by decide, trivial⟩ (by decide)

theorem WireFrame.datagram_size (data : List Byte) :
    (WireFrame.datagram data).size = 1 + quicVarintLen data.length + data.length := rfl

/-- **A frame too long for an `int` does not**: the `int` of a DATAGRAM frame with `2^31` bytes is negative. -/
theorem longDatagram_not_written : ¬ ∀ f : WireFrame, f.Fits → f.RoundTrips := by
  intro h
  have hlen : (List.replicate 2147483648 (0 : Byte)).length = 2147483648 := List.length_replicate
  generalize List.replicate 2147483648 (0 : Byte) = data at hlen
  have hfits : (WireFrame.datagram data).Fits := by
    refine ⟨?_, trivial⟩
    change ∀ val ∈ [data.length], val < 2 ^ 62
    rw [hlen, List.forall_mem_singleton]
    decide
  have hret := (h _ hfits).written _ (Nat.le_refl _)
  rw [WireFrame.writeRet_of_room (Nat.le_refl _), WireFrame.datagram_size, hlen] at hret
  revert hret
  decide

end Codec
end MoqLiveCast
