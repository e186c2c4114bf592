import MoqLiveCast.Lib.Word
import MoqLiveCast.Lib.Ring
import MoqLiveCast.Lib.Table
import MoqLiveCast.Lib.Mem
/-!
# Recovery — the records of loss recovery (`quic_recovery.c`): packets, chunks and what is in flight

A packet sent is recorded in a ring of 4096 records; its frames are held by a chunk, which the packets that carry the
same frames share, and which stays until one of them is acknowledged or the pool of 512 chunks needs its place.

Allocation is taken to succeed.  Log lines are left out, with what only they read; `uv_now` is the `now` of the call.
-/
namespace MoqLiveCast

/-! ## Data -/

def QUIC_RECOVERY_MAX_SENT_PACKETS : Nat := 4096
def QUIC_RECOVERY_MAX_CHUNKS : Nat := 512
def QUIC_RECOVERY_MAX_PTO : Nat := 20
def QUIC_RECOVERY_NO_PROGRESS_MS : Nat := 15000
def QUIC_INITIAL_PTO_MS : Nat := 200
def QUIC_MIN_PTO_MS : Nat := 10

def NO_CHUNK : Nat := 18446744073709551615

/-- The type of a packet; `short` is the `-1` of a short header. -/
inductive PktType where
  | initial | zeroRtt | handshake | retry | short
deriving DecidableEq

inductive TlsLevel where
  | none | early | handshake | application
deriving DecidableEq

def pktTypeToLevel : PktType → TlsLevel
  | .initial => .none
  | .handshake => .handshake
  | _ => .application

inductive ChunkState where
  | sending | lost | acked
deriving DecidableEq

structure QuicRecoveryChunk where
  chunkId : Nat
  state : ChunkState := .sending
  firstSentMs : Nat := 0
  bytes : Nat := 0
  frames : Option (List Byte) := none
  retransCount : Nat := 0
  pktType : PktType := .initial
  lastRetransMs : Nat := 0
deriving DecidableEq

structure QuicRecoverySentPacket where
  pn : Nat := 0
  chunkId : Nat := 0
  timeSentMs : Nat := 0
  bytesSent : Nat := 0
  ackEliciting : Bool := false
  acknowledged : Bool := false
  lost : Bool := false
  pktType : PktType := .initial
  frames : Option (List Byte) := none
deriving DecidableEq

/-- What recovery does that is seen outside, and what happens to the chunks. -/
inductive RecoveryEffect where
  | sent (pn chunkId : Nat) (ackEliciting : Bool) (pktType : PktType) (frames : List Byte)
  | acked (chunkId : Nat)
  | evicted (chunkId : Nat)
  | discarded (pktType : PktType)
  | ccPacketSent (pn bytes now : Nat)
  | ccPacketAcked (pn bytes rttUs now : Nat)
  | ccCongestionEvent (now : Nat)
  | ccPersistentCongestion (now : Nat)
  | sendImm (pktType : PktType) (frames : List Byte)
  | flush
  | keepalive
  | connectionDead
deriving DecidableEq

abbrev SentRing := Ring QuicRecoverySentPacket QUIC_RECOVERY_MAX_SENT_PACKETS

structure QuicRecoveryCtx where
  sentPackets : SentRing := ⟨fun _ => {}, 0, 0⟩
  chunks : List QuicRecoveryChunk := []
  nextChunkId : Nat := 0
  currentRetransChunkId : Nat := NO_CHUNK
  minRtt : Nat := 0
  smoothedRtt : Nat := 0
  latestRtt : Nat := 0
  rttvar : Nat := 0
  jitterMs : Nat := 0
  prevRttSample : Nat := 0
  packetsLost : Nat := 0
  packetsAcked : Nat := 0
  rttInitialized : Bool := false
  ptoCount : Nat := 0
  ptoBase : Nat := QUIC_INITIAL_PTO_MS
  lossEpochStartMs : Nat := 0
  persistentCongestionDetected : Bool := false
  lastProgressMs : Nat := 0
  bytesInFlight : Nat := 0
  /-- how often `inflight_sub` found less in flight than it was to take off -/
  inflightUnderflows : Nat := 0
  largestAckedPn : TlsLevel → Nat := fun _ => 0
  /-- the timeout the PTO timer runs with, when it is active -/
  ptoTimer : Option Nat := none
  lastKeepaliveMs : Nat := 0
  /-- how many packets took over a chunk id that a failed `send_imm_fn` had left behind -/
  leftoverTaken : Nat := 0
  trace : List RecoveryEffect := []

namespace QuicRecoveryCtx

def call (ctx : QuicRecoveryCtx) (e : RecoveryEffect) : QuicRecoveryCtx := { ctx with trace := ctx.trace ++ [e] }

def setPacket (ctx : QuicRecoveryCtx) (idx : Nat) (p : QuicRecoverySentPacket) : QuicRecoveryCtx :=
  { ctx with sentPackets := ctx.sentPackets.set idx p }

/-- Write through the pointer of a chunk; a chunk keeps its id, and ids are not used twice. -/
def updateChunk (ctx : QuicRecoveryCtx) (chunkId : Nat) (f : QuicRecoveryChunk → QuicRecoveryChunk) : QuicRecoveryCtx :=
  { ctx with chunks := ctx.chunks.map (fun c => if c.chunkId = chunkId then f c else c) }

end QuicRecoveryCtx

/-! ## In flight -/

/-- `inflight_sub`: what would go below 0 stops there, with a log line. -/
def inflightSub (ctx : QuicRecoveryCtx) (bytes : Nat) : QuicRecoveryCtx :=
  if ctx.bytesInFlight < bytes then
    { ctx with bytesInFlight := 0, inflightUnderflows := ctx.inflightUnderflows + 1 }
  else { ctx with bytesInFlight := ctx.bytesInFlight - bytes }

/-! ## RTT -/

def updateRtt (ctx : QuicRecoveryCtx) (rttSample : Nat) : QuicRecoveryCtx :=
  let ctx :=
    if ctx.rttInitialized then
      let absDiff := ((ctx.smoothedRtt : Int) - rttSample).natAbs
      let ad : Int := ((rttSample : Int) - ctx.prevRttSample).natAbs
      let j : Int := ctx.jitterMs + (ad - ctx.jitterMs).tdiv 16
      { ctx with
        latestRtt := rttSample
        rttvar := (3 * ctx.rttvar + absDiff) % wordSize / 4
        smoothedRtt := (7 * ctx.smoothedRtt + rttSample) % wordSize / 8
        minRtt := min ctx.minRtt rttSample
        jitterMs := j.toNat
        prevRttSample := rttSample }
    else
      { ctx with
        latestRtt := rttSample
        minRtt := rttSample
        smoothedRtt := rttSample
        rttvar := rttSample / 2
        jitterMs := 0
        prevRttSample := rttSample
        rttInitialized := true }
  { ctx with ptoBase := max ((ctx.smoothedRtt + 4 * ctx.rttvar) % wordSize) QUIC_MIN_PTO_MS }

/-! ## Chunks -/

def chunkFind (ctx : QuicRecoveryCtx) (chunkId : Nat) : Option QuicRecoveryChunk :=
  lookup QuicRecoveryChunk.chunkId chunkId ctx.chunks

def chunkPush (ctx : QuicRecoveryCtx) (now : Nat) : QuicRecoveryCtx :=
  { ctx with
    chunks := ctx.chunks ++ [{ chunkId := ctx.nextChunkId, firstSentMs := now, lastRetransMs := now }]
    nextChunkId := ctx.nextChunkId + 1 }

def chunkScore (c : QuicRecoveryChunk) : Nat := c.retransCount + if c.state = .lost then 1000000 else 0

/-- The first chunk with the highest score among the unacknowledged ones; `best` is the one found so far. -/
def chunkVictimFrom : Nat → Option (Nat × Nat) → List QuicRecoveryChunk → Option Nat
  | _, best, [] => best.map Prod.fst
  | i, best, c :: t =>
    if c.state = .acked then chunkVictimFrom (i + 1) best t
    else
      match best with
      | none => chunkVictimFrom (i + 1) (some (i, chunkScore c)) t
      | some (v, score) =>
        chunkVictimFrom (i + 1) (if score < chunkScore c then some (i, chunkScore c) else some (v, score)) t

def chunkVictim (chunks : List QuicRecoveryChunk) : Option Nat := chunkVictimFrom 0 none chunks

def chunkReclaim (ctx : QuicRecoveryCtx) : QuicRecoveryCtx :=
  { ctx with chunks := ctx.chunks.filter (fun c => c.state ≠ .acked) }

def chunkEvict (ctx : QuicRecoveryCtx) (victim : Nat) : QuicRecoveryCtx :=
  match ctx.chunks[victim]? with
  | none => ctx
  | some v => { ctx.call (.evicted v.chunkId) with chunks := ctx.chunks.eraseIdx victim }

/-- `chunk_alloc`: a full pool gives up its acknowledged chunks, and if there are none its most hopeless one.  The new
chunk is the last. -/
def chunkAlloc (ctx : QuicRecoveryCtx) (now : Nat) : Option Nat × QuicRecoveryCtx :=
  if ctx.chunks.length < QUIC_RECOVERY_MAX_CHUNKS then (some ctx.nextChunkId, chunkPush ctx now)
  else if (chunkReclaim ctx).chunks.length < QUIC_RECOVERY_MAX_CHUNKS then
    (some ctx.nextChunkId, chunkPush (chunkReclaim ctx) now)
  else
    match chunkVictim (chunkReclaim ctx).chunks with
    | none => (none, chunkReclaim ctx)
    | some victim => (some ctx.nextChunkId, chunkPush (chunkEvict (chunkReclaim ctx) victim) now)

/-! ## Acknowledged packets -/

def chunkAckPacket (chunkId : Nat) (ctx : QuicRecoveryCtx) (i : Nat) : QuicRecoveryCtx :=
  let idx := ctx.sentPackets.slot i
  let p := ctx.sentPackets.cells idx
  if p.chunkId = chunkId ∧ p.acknowledged = false then
    let ctx := if p.ackEliciting ∧ p.lost = false then inflightSub ctx p.bytesSent else ctx
    ctx.setPacket idx { p with acknowledged := true, frames := none }
  else ctx

def chunkMarkAcked (ctx : QuicRecoveryCtx) (chunkId : Nat) : QuicRecoveryCtx :=
  match chunkFind ctx chunkId with
  | none => ctx
  | some c =>
    if c.state = .acked then ctx
    else
      let ctx := ctx.updateChunk chunkId (fun c => { c with state := .acked, frames := none })
      (List.range ctx.sentPackets.count).foldl (chunkAckPacket chunkId) ctx

def ringCompact (r : SentRing) : SentRing := r.compact (fun p => !p.acknowledged)

def compactSentPackets (ctx : QuicRecoveryCtx) : QuicRecoveryCtx := { ctx with sentPackets := ringCompact ctx.sentPackets }

/-! ## The PTO timer -/

def armPtoTimer (ctx : QuicRecoveryCtx) : QuicRecoveryCtx :=
  if ctx.sentPackets.toList.any (fun p => !p.acknowledged && p.ackEliciting) then
    let ctx := { ctx with ptoCount := min ctx.ptoCount 3 }
    { ctx with ptoTimer := some (ctx.ptoBase * 2 ^ ctx.ptoCount % wordSize) }
  else { ctx with ptoTimer := none }

/-! ## `quic_recovery_on_packet_sent` -/

structure SentArgs where
  pn : Nat
  ackEliciting : Bool
  bytesSent : Nat
  frames : List Byte
  pktType : PktType
  now : Nat
deriving DecidableEq

def sentCompact (ctx : QuicRecoveryCtx) : QuicRecoveryCtx :=
  if QUIC_RECOVERY_MAX_SENT_PACKETS ≤ ctx.sentPackets.count then compactSentPackets ctx else ctx

/-- If the ring stays full, the oldest record, which will be overwritten, leaves what is in flight. -/
def sentMakeRoom (ctx : QuicRecoveryCtx) : QuicRecoveryCtx :=
  let ctx := sentCompact ctx
  if QUIC_RECOVERY_MAX_SENT_PACKETS ≤ ctx.sentPackets.count then
    let old := ctx.sentPackets.get 0
    if old.ackEliciting ∧ old.acknowledged = false ∧ old.lost = false then inflightSub ctx old.bytesSent else ctx
  else ctx

def chunkFill (ctx : QuicRecoveryCtx) (a : SentArgs) (chunkId : Nat) : QuicRecoveryCtx :=
  if a.frames = [] then ctx
  else
    ctx.updateChunk chunkId (fun c =>
      { c with
        state := .sending, firstSentMs := a.now, bytes := a.bytesSent, pktType := a.pktType,
        frames := some a.frames })

def chunkResent (c : QuicRecoveryChunk) : QuicRecoveryChunk :=
  if c.state = .sending then { c with state := .lost } else c

def retransChunk (ctx : QuicRecoveryCtx) : Option QuicRecoveryChunk :=
  if ctx.currentRetransChunkId ≠ NO_CHUNK then chunkFind ctx ctx.currentRetransChunkId else none

/-- The chunk of a packet: the one a retransmission is for, or a new one that holds the frames.  The answer is its id,
when there is one. -/
def sentChunk (ctx : QuicRecoveryCtx) (a : SentArgs) : Option Nat × QuicRecoveryCtx :=
  let ctx' := { ctx with currentRetransChunkId := NO_CHUNK }
  match retransChunk ctx with
  | some c => (some c.chunkId, ctx'.updateChunk c.chunkId chunkResent)
  | none => ((chunkAlloc ctx' a.now).1, (chunkAlloc ctx' a.now).1.elim (chunkAlloc ctx' a.now).2
                (chunkFill (chunkAlloc ctx' a.now).2 a))

def sentRecord (a : SentArgs) (chunk : Option Nat) : QuicRecoverySentPacket :=
  { pn := a.pn, chunkId := chunk.getD NO_CHUNK, timeSentMs := a.now, bytesSent := a.bytesSent,
    ackEliciting := a.ackEliciting, pktType := a.pktType
    frames := if a.frames = [] ∨ chunk.isNone then none else some a.frames }

def ringStore (r : SentRing) (p : QuicRecoverySentPacket) : SentRing :=
  if QUIC_RECOVERY_MAX_SENT_PACKETS ≤ r.count then r.overwrite p else r.push p

def sentStore (ctx : QuicRecoveryCtx) (p : QuicRecoverySentPacket) : QuicRecoveryCtx :=
  { ctx with sentPackets := ringStore ctx.sentPackets p }

def sentNotify (ctx : QuicRecoveryCtx) (a : SentArgs) (chunk : Option Nat) : QuicRecoveryCtx :=
  let ctx := ctx.call (.sent a.pn (chunk.getD NO_CHUNK) a.ackEliciting a.pktType a.frames)
  let ctx := if a.ackEliciting then { ctx with bytesInFlight := ctx.bytesInFlight + a.bytesSent } else ctx
  if a.pktType = .short then ctx.call (.ccPacketSent a.pn a.bytesSent a.now) else ctx

def sentArm (ctx : QuicRecoveryCtx) (a : SentArgs) : QuicRecoveryCtx :=
  if a.ackEliciting ∧ ctx.ptoTimer.isNone then armPtoTimer ctx else ctx

def quicRecoveryOnPacketSent (ctx : QuicRecoveryCtx) (a : SentArgs) : QuicRecoveryCtx :=
  let r := sentChunk (sentMakeRoom ctx) a
  sentArm (sentNotify (sentStore r.2 (sentRecord a r.1)) a r.1) a

end MoqLiveCast
