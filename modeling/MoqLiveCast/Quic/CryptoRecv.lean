import MoqLiveCast.Lib.Bitmap
import MoqLiveCast.Quic.CryptoFrame
import MoqLiveCast.Quic.Recovery
/-!
# CryptoRecv — CRYPTO reassembly (`QuicConnectionFeedRaw`, `crypto_recv_rcd_cb`, `crypto_release_rcd_cb`)

Each TLS level has a buffer that starts at `tls_consumed_` and a bitmap of its bytes that are no zero filling.  TLS
reads up to `tls_contig_`.  A step that would touch a bit outside the bitmap has no result.
-/
namespace MoqLiveCast

def TLS_BUF_SIZE : Nat := 65536
def TLS_BM_BYTES : Nat := (TLS_BUF_SIZE + 7) / 8

/-- The receive buffer of a level.  `consumed` and `contig` are CRYPTO offsets, `rlen` counts from `consumed`. -/
structure TlsRecv where
  rbuf : Mem := Mem.fresh
  fill : Bitmap := Bitmap.empty
  rlen : Nat := 0
  rcap : Nat := TLS_BUF_SIZE
  consumed : Nat := 0
  contig : Nat := 0

def TlsRecv.expectedOff (b : TlsRecv) : Nat := b.consumed + b.rlen

/-! ## The bitmap -/

def tlsFillSet (bm : Bitmap) (off len : Nat) : Option Bitmap :=
  (List.range' off len).foldlM (fun bm i => if i < 8 * TLS_BM_BYTES then some (bm.setBit i) else none) bm

def tlsFillTest (bm : Bitmap) (off : Nat) : Option Bool := if off < 8 * TLS_BM_BYTES then some (bm.bit off) else none

/-- The loop of `tls_contig_scan`; `left` is what `c` lacks of the end of the buffer. -/
def tlsContigLoop (b : TlsRecv) : Nat → Nat → Option Nat
  | 0, c => some c
  | left + 1, c =>
    (tlsFillTest b.fill (sub64 c b.consumed)).bind fun filled => if filled then tlsContigLoop b left (c + 1) else some c

def tlsContigScan (b : TlsRecv) : Option TlsRecv :=
  (tlsContigLoop b (b.consumed + b.rlen - b.contig) b.contig).map fun c => { b with contig := c }

/-! ## CRYPTO frames of long-header packets -/

/-- The copy of a frame that starts where the buffer ends.  Without room nothing is copied. -/
def cryptoAppend (b : TlsRecv) (f : CryptoFrame) : Option TlsRecv :=
  if b.rlen + f.data.length ≤ b.rcap then
    (tlsFillSet b.fill b.rlen f.data.length).map fun fill =>
      { b with rbuf := b.rbuf.write b.rlen (f.data.map some), fill, rlen := b.rlen + f.data.length }
  else some b

/-- `contig` moves over `len` bytes stored at `off`, if they are the next ones, and over the bits set behind them. -/
def cryptoAdvance (b : TlsRecv) (off len : Nat) : Option TlsRecv :=
  if off = b.contig then tlsContigScan { b with contig := b.contig + len } else some b

def cryptoInOrder (b : TlsRecv) (f : CryptoFrame) : Option TlsRecv :=
  (cryptoAppend b f).bind fun b => cryptoAdvance b f.offset f.data.length

/-- A frame before the expected offset: what it carries past `consumed` is stored again. -/
def cryptoRetrans (b : TlsRecv) (f : CryptoFrame) : Option TlsRecv :=
  if b.rcap < f.stop then some b
  else if f.stop ≤ b.consumed then some b
  else
    let absOff := max f.offset b.consumed
    let relOff := absOff - b.consumed
    let wrtLen := f.stop - absOff
    (tlsFillSet b.fill relOff wrtLen).bind fun fill =>
      cryptoAdvance { b with
        rbuf := b.rbuf.write relOff ((f.data.drop (absOff - f.offset)).map some)
        fill
        rlen := max b.rlen (relOff + wrtLen) } absOff wrtLen

def cryptoGrow (b : TlsRecv) (need : Nat) : TlsRecv := if b.rcap < need then { b with rcap := need * 2 } else b

/-- A frame past the expected offset: zeros up to it, whose bits stay clear. -/
def cryptoGap (b : TlsRecv) (f : CryptoFrame) : Option TlsRecv :=
  let gap := f.offset - b.expectedOff
  let need := b.rlen + gap + f.data.length
  let b := cryptoGrow b need
  if need ≤ b.rcap then
    let rbuf := b.rbuf.zero b.rlen gap
    let rlen := b.rlen + gap
    (tlsFillSet b.fill rlen f.data.length).map fun fill =>
      { b with rbuf := rbuf.write rlen (f.data.map some), fill, rlen := rlen + f.data.length }
  else some b

def cryptoInsert (b : TlsRecv) (f : CryptoFrame) : Option TlsRecv :=
  if f.offset = b.expectedOff then cryptoInOrder b f
  else if f.offset < b.expectedOff then cryptoRetrans b f
  else cryptoGap b f

/-- What TLS was given to read: the bytes at `tls_rbuf_` and the CRYPTO offset they are taken for. -/
structure HandedRcd where
  level : TlsLevel
  consumed : Nat
  bytes : List (Option Byte)

/-- The part of a connection that receives CRYPTO data.  `handed` collects what `crypto_recv_rcd_cb` returned. -/
structure QuicCryptoRecv where
  readLevel : TlsLevel := .none
  lastRecvLevel : TlsLevel := .none
  handshakeDone : Bool := false
  tls : TlsLevel → TlsRecv := fun _ => {}
  handed : List HandedRcd := []

def QuicCryptoRecv.setTls (conn : QuicCryptoRecv) (level : TlsLevel) (b : TlsRecv) : QuicCryptoRecv :=
  { conn with tls := Function.update conn.tls level b }

/-- The CRYPTO branch of a long-header packet, up to the call of `SSL_do_handshake`. -/
def longCrypto (conn : QuicCryptoRecv) (level : TlsLevel) (f : CryptoFrame) : Option QuicCryptoRecv :=
  (cryptoInsert (conn.tls level) f).bind fun b =>
    (if conn.handshakeDone then some b else tlsContigScan b).map fun b => conn.setTls level b

/-- The CRYPTO branch of a short-header packet, which takes frames at the expected offset only. -/
def shortCrypto (conn : QuicCryptoRecv) (f : CryptoFrame) : QuicCryptoRecv :=
  let b := conn.tls .application
  if f.offset = b.expectedOff ∧ b.rlen + f.data.length ≤ b.rcap then
    conn.setTls .application { b with
      rbuf := b.rbuf.write b.rlen (f.data.map some), rlen := b.rlen + f.data.length }
  else conn

def longLevel : PktType → Option TlsLevel
  | .initial => some .none
  | .handshake => some .handshake
  | _ => none

def feedFrame (conn : QuicCryptoRecv) (f : CryptoFrame) : PktType → Option QuicCryptoRecv
  | .short => some (shortCrypto conn f)
  | t =>
    match longLevel t with
    | some level => longCrypto conn level f
    | none => some conn

def feedCrypto (conn : QuicCryptoRecv) (pktType : PktType) (payload : List Byte) : Option QuicCryptoRecv :=
  match quicFrameParseCrypto payload with
  | none => some conn
  | some (f, _) => feedFrame conn f pktType

/-! ## The callbacks of TLS -/

/-- The bytes TLS may read: those up to `contig`. -/
def TlsRecv.avail (b : TlsRecv) : Nat :=
  if b.consumed < b.contig then min (b.contig - b.consumed) b.rlen else 0

def cryptoRecvRcd (conn : QuicCryptoRecv) : QuicCryptoRecv :=
  let b := conn.tls conn.readLevel
  { conn with
    lastRecvLevel := conn.readLevel
    handed := conn.handed ++ [⟨conn.readLevel, b.consumed, b.rbuf.read 0 b.avail⟩] }

/-- The bitmap of a buffer that lost its first `n` bytes. -/
def tlsFillShift (bm : Bitmap) (n : Nat) : Bitmap :=
  let bm := if 0 < n / 8 ∧ n / 8 < TLS_BM_BYTES then bm.dropBytes TLS_BM_BYTES (n / 8) else bm
  if 0 < n % 8 then bm.shiftBits TLS_BM_BYTES (n % 8) else bm

def TlsRecv.release (b : TlsRecv) (n : Nat) : TlsRecv :=
  let rem := b.rlen - n
  if 0 < rem then
    { b with rbuf := b.rbuf.move 0 n rem, fill := tlsFillShift b.fill n, rlen := rem, consumed := b.consumed + n }
  else { b with fill := Bitmap.empty, rlen := rem, consumed := b.consumed + n }

def cryptoReleaseRcd (conn : QuicCryptoRecv) (n : Nat) : QuicCryptoRecv :=
  let b := conn.tls conn.lastRecvLevel
  if 0 < n ∧ n ≤ b.rlen then conn.setTls conn.lastRecvLevel (b.release n) else conn

/-! ## Steps -/

/-- What happens to the receive side: a CRYPTO frame of a packet, and what TLS and the handshake do in between. -/
inductive CryptoCall where
  | frame (pktType : PktType) (payload : List Byte)
  | recvRcd
  | releaseRcd (n : Nat)
  /-- `yield_secret_cb` for reading -/
  | yieldSecret (level : TlsLevel)
  | handshakeDone

def cryptoStep (conn : QuicCryptoRecv) : CryptoCall → Option QuicCryptoRecv
  | .frame pktType payload => feedCrypto conn pktType payload
  | .recvRcd => some (cryptoRecvRcd conn)
  | .releaseRcd n => some (cryptoReleaseRcd conn n)
  | .yieldSecret level => some { conn with readLevel := level }
  | .handshakeDone => some { conn with handshakeDone := true }

end MoqLiveCast
