import MoqLiveCast.Moq.LiteWire
import MoqLiveCast.Quic.Varint
/-!
# MlWire — moq-lite on the wire, in C++ (`moqlivecast/moq/moq_lite_wire.hpp`)

A `std::vector<uint8_t>` and a `std::string` are their bytes; a writer answers its verdict and the vector after it, failed
or not.  Varints are those of QUIC (`quic_packet.c`).
-/
namespace MoqLiveCast

/-! ## `(i)` — a QUIC varint -/

def kMlVarintMax : BitVec 64 := (1 <<< 62) - 1

/-- `quic_varint_encode` would cut a value above the limit short. -/
def mlWriteVarint (out : List Byte) (val : BitVec 64) : Bool × List Byte :=
  if kMlVarintMax < val then (false, out)
  else
    match quicVarintEncode 8 val.toNat with
    | none => (false, out)
    | some tmp => (true, out ++ tmp)

def mlAppendVarint (out : List Byte) (val : BitVec 64) : List Byte := (mlWriteVarint out val).2

def mlReadVarint (p : List Byte) (off : Nat) : WireRead Bool (BitVec 64) :=
  if p.length ≤ off then ⟨false, off, none⟩
  else
    match quicVarintDecode (p.drop off) with
    | none => ⟨false, off, none⟩
    | some (v, n) => ⟨true, off + n, some (BitVec.ofNat 64 v)⟩

def mlSkipVarint (p : List Byte) (off : Nat) : Bool × Nat :=
  let r := mlReadVarint p off
  (r.status, r.off)

def mlVarintLen (val : BitVec 64) : Nat := quicVarintLen val.toNat

/-! ## Messages -/

def kMlMaxMessageSize : BitVec 64 := 64 * 1024 * 1024

inductive MlMsgStatus where
  | ok | needMore | tooLarge
deriving DecidableEq

def mlReadMessage (p : List Byte) (off : Nat) : WireRead MlMsgStatus Nat :=
  let r := mlReadVarint p off
  if r.status = false then ⟨.needMore, off, none⟩
  else
    let n := r.out.getD 0
    if kMlMaxMessageSize < n then ⟨.tooLarge, off, none⟩
    else if p.length - r.off < n.toNat then ⟨.needMore, off, none⟩
    else ⟨.ok, r.off, some n.toNat⟩

/-- `if (!...) return false;` before the next step on the same vector. -/
def okThen (r : Bool × List Byte) (f : List Byte → Bool × List Byte) : Bool × List Byte := if r.1 then f r.2 else r

def mlBuildMessage (out : List Byte) (typed : Bool) (type : BitVec 64) (body : List Byte) : Bool × List Byte :=
  okThen (okThen (if typed then mlWriteVarint out type else (true, out))
    (mlWriteVarint · (BitVec.ofNat 64 body.length))) fun out => (true, out ++ body)

/-! ## zigzag -/

def kMlZigzagMin : BitVec 64 := -(1 <<< 61)
def kMlZigzagMax : BitVec 64 := (1 <<< 61) - 1

def mlZigzagEncode (v : BitVec 64) : Bool × Option (BitVec 64) :=
  if v.slt kMlZigzagMin ∨ kMlZigzagMax.slt v then (false, none) else (true, some ((v <<< 1) ^^^ v.sshiftRight 63))

def mlZigzagDecode (v : BitVec 64) : BitVec 64 := (v >>> 1) ^^^ -(v &&& 1)

/-! ## `(s)` — a string with its length before it -/

def mlWriteString (out s : List Byte) : Bool × List Byte :=
  okThen (mlWriteVarint out (BitVec.ofNat 64 s.length)) fun out => (true, out ++ s)

/-- One `false` for a length that is not all there and for one that goes past the end. -/
def mlReadString (p : List Byte) (off : Nat) : WireRead Bool (List Byte) :=
  let r := mlReadVarint p off
  if r.status = false then ⟨false, r.off, none⟩
  else
    let n := (r.out.getD 0).toNat
    if p.length - r.off < n then ⟨false, r.off, none⟩
    else ⟨true, r.off + n, some ((p.drop r.off).take n)⟩

/-! ## What a publisher sends -/

/-- `if (!...) return false;` for each part of the body, then `MlBuildMessage`. -/
def okBuild (out : List Byte) (typed : Bool) (type : BitVec 64) (r : Bool × List Byte) : Bool × List Byte :=
  if r.1 then mlBuildMessage out typed type r.2 else (false, out)

def mlBuildTrackInfo (out : List Byte) (priority : Byte) (maxAgeMs timescale : BitVec 64) : Bool × List Byte :=
  okBuild out false 0 (okThen (mlWriteVarint [priority] maxAgeMs) (mlWriteVarint · timescale))

def mlBuildAnnounceOk (out : List Byte) (origin active : BitVec 64) : Bool × List Byte :=
  okBuild out false 0 (okThen (mlWriteVarint [] origin) (mlWriteVarint · active))

def mlAppendAnnounceStart (out sfx : List Byte) (warm cold : BitVec 64) : Bool × List Byte :=
  okBuild out true 0 (okThen (okThen (okThen (mlWriteString [] sfx) (mlWriteVarint · 0)) (mlWriteVarint · warm))
    (mlWriteVarint · cold))

def mlBuildSubscribeStart (out : List Byte) (group : BitVec 64) : Bool × List Byte :=
  okBuild out true 0 (mlWriteVarint [] group)

def mlBuildSubscribeEnd (out : List Byte) (group : BitVec 64) : Bool × List Byte :=
  okBuild out true 1 (mlWriteVarint [] group)

def mlBuildGroupHeader (out : List Byte) (subId seq frameStart : BitVec 64) : Bool × List Byte :=
  okBuild out false 0 (okThen (okThen (mlWriteVarint [] subId) (mlWriteVarint · seq)) (mlWriteVarint · frameStart))

def mlAppendFrame (out : List Byte) (tsDelta : BitVec 64) (payload : List Byte) : Bool × List Byte :=
  let z := mlZigzagEncode tsDelta
  if z.1 then
    okThen (okThen (mlWriteVarint out (z.2.getD 0)) (mlWriteVarint · (BitVec.ofNat 64 payload.length)))
      fun out => (true, out ++ payload)
  else (false, out)

end MoqLiveCast
