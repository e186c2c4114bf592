import MoqLiveCast.Quic.CryptoStep
/-!
# CryptoStream — TLS reads the CRYPTO stream

`StreamHeld` is the invariant of a level: a cell whose bit is set holds the stream's byte, and the bits of the buffer
below `contig` are set.
-/
namespace MoqLiveCast

open List

/-- The frame carries the bytes of `S` at its own offset. -/
def CryptoOf (S : Nat → Byte) (f : CryptoFrame) : Prop := f.data = slice S f.offset f.data.length

/-- Every frame is cut from the stream of its level, and TLS releases at most what it was handed. -/
def FromStream (S : TlsLevel → Nat → Byte) (conn : QuicCryptoRecv) : CryptoCall → Prop
  | .frame pktType payload => ∀ f n level, quicFrameParseCrypto payload = some (f, n) →
      longLevel pktType = some level → CryptoOf (S level) f
  | .releaseRcd n => 0 < n → ∃ h ∈ conn.handed, h.level = conn.lastRecvLevel ∧
      (conn.tls conn.lastRecvLevel).consumed + n ≤ h.consumed + h.bytes.length
  | _ => True

/-- Frames past the expected offset end inside the bitmap and come while `contig` is not past the buffer. -/
def GapsBehind (conn : QuicCryptoRecv) : CryptoCall → Prop
  | .frame pktType payload => ∀ f n level, quicFrameParseCrypto payload = some (f, n) →
      longLevel pktType = some level → GapInside (conn.tls level) f ∧
        ((conn.tls level).expectedOff < f.offset → (conn.tls level).contig ≤ (conn.tls level).expectedOff)
  | _ => True

/-! ## A level -/

structure StreamHeld (S : Nat → Byte) (b : TlsRecv) : Prop where
  fits : Fits b
  ahead : b.consumed ≤ b.contig
  cells : ∀ i < TLS_BUF_SIZE, b.fill.bit i = true → b.rbuf i = some (S (b.consumed + i))
  filled : ∀ i < b.rlen, b.consumed + i < b.contig → b.fill.bit i = true

theorem streamHeld_init (S : Nat → Byte) : StreamHeld S {} :=
  ⟨fits_init, Nat.le_refl 0, fun i _ h => (by rw [Bitmap.bit_empty] at h; cases h),
    fun _ h _ => absurd h (Nat.not_lt_zero _)⟩

variable {S : Nat → Byte} {f : CryptoFrame}

theorem CryptoOf.getElem? (h : CryptoOf S f) {i : Nat} (h1 : f.offset ≤ i)
    (h2 : i < f.stop) : f.data[i - f.offset]? = some (S i) := by
  unfold CryptoFrame.stop at h2
  rw [h, slice_getElem?, if_pos (by omega), Nat.add_sub_cancel' h1]

theorem StreamHeld.insert {b b' : TlsRecv} {c : Nat} (h : StreamHeld S b)
    (hf : CryptoOf S f) (hfits : Fits b') (hstored : Stored b f b') (hmoved : Moved b' b.contig c)
    (hgap : b.expectedOff < f.offset → b.contig ≤ b.expectedOff) : StreamHeld S { b' with contig := c } := by
  refine ⟨hfits.withContig hmoved.lt, ?_, fun i hi hbit => ?_, fun i hi hc => ?_⟩
  · show b'.consumed ≤ c
    rw [hstored.consumed]
    exact Nat.le_trans h.ahead hmoved.le
  · show b'.rbuf i = some (S (b'.consumed + i))
    rw [hstored.consumed]
    rcases hstored.cells i hi hbit with ⟨hold, hcell⟩ | ⟨h1, h2, hcell⟩
    · rw [hcell]
      exact h.cells i hi hold
    · rw [hcell]
      exact hf.getElem? h1 h2
  · show b'.fill.bit i = true
    have hc' : b'.consumed + i < c := hc
    rcases Nat.lt_or_ge (b.consumed + i) b.contig with hlt | hge
    · rcases Nat.lt_or_ge i b.rlen with hin | hout
      · exact hstored.bits i (h.filled i hin hlt)
      · refine hstored.grown ?_ i hout hi hlt
        rcases Nat.lt_or_ge b.expectedOff f.offset with hpast | hnot
        · exact Or.inr (hgap hpast)
        · exact Or.inl hnot
    · exact hmoved.bits i (by rw [hstored.consumed]; exact hge) hc' hi

variable {b : TlsRecv}

theorem StreamHeld.release (h : StreamHeld S b) {n : Nat} (hle : n ≤ b.rlen)
    (hn : b.consumed + n ≤ b.contig) : StreamHeld S (b.release n) := by
  have hfits := release_fits h.fits hle
  have hrlen := h.fits.rlen_le
  unfold TlsRecv.release at hfits ⊢
  dsimp only at hfits ⊢
  split at hfits
  · rename_i hrem
    rw [if_pos hrem]
    refine ⟨hfits, hn, fun i hi hbit => ?_, fun i hi hc => ?_⟩
    · dsimp only at hbit ⊢
      rw [bit_tlsFillShift _ (by omega) hi, Bool.and_eq_true, decide_eq_true_eq] at hbit
      have hlt := h.fits.bits_lt (i + n) hbit.1 hbit.2
      have hcell := h.cells (i + n) hbit.1 hbit.2
      rw [Mem.move_inside _ _ _ _ (Nat.zero_le i) (by omega), Nat.sub_zero, Nat.add_comm n i, hcell, Nat.add_assoc,
        Nat.add_comm n i]
    · dsimp only at hi hc ⊢
      rw [bit_tlsFillShift _ (by omega) (by omega), h.filled (i + n) (by omega) (by omega), Bool.and_true,
        decide_eq_true_eq]
      omega
  · rename_i hrem
    rw [if_neg hrem]
    refine ⟨hfits, hn, fun i _ hbit => ?_, fun i hi _ => ?_⟩
    · dsimp only at hbit
      rw [Bitmap.bit_empty] at hbit
      cases hbit
    · exact absurd (Nat.lt_of_le_of_lt (Nat.zero_le i) hi) hrem

theorem StreamHeld.read {S : Nat → Byte} {b : TlsRecv} (h : StreamHeld S b) :
    b.rbuf.read 0 b.avail = slice (fun i => some (S i)) b.consumed b.avail := by
  refine slice_eq_slice (fun i hi => ?_)
  have hrlen := h.fits.rlen_le
  unfold TlsRecv.avail at hi
  split at hi
  · rw [Nat.zero_add]
    exact h.cells i (by omega) (h.filled i (by omega) (by omega))
  · exact absurd hi (Nat.not_lt_zero i)

theorem TlsRecv.avail_le (h : b.consumed ≤ b.contig) : b.consumed + b.avail ≤ b.contig := by
  unfold TlsRecv.avail
  split <;> omega

/-! ## Runs -/

/-- Every level holds its stream and every buffer handed out was the stream's. -/
structure StreamsRead (S : TlsLevel → Nat → Byte) (conn : QuicCryptoRecv) : Prop where
  held : ∀ level, StreamHeld (S level) (conn.tls level)
  application : (conn.tls .application).contig = 0
  handed : ∀ h ∈ conn.handed, h.bytes = slice (fun i => some (S h.level i)) h.consumed h.bytes.length ∧
    h.consumed + h.bytes.length ≤ (conn.tls h.level).contig

theorem streamsRead_init (S : TlsLevel → Nat → Byte) : StreamsRead S {} :=
  ⟨fun level => streamHeld_init (S level), rfl, fun _ h => absurd h not_mem_nil⟩

section Run

variable {S : TlsLevel → Nat → Byte} {conn : QuicCryptoRecv}

theorem StreamsRead.setTls (h : StreamsRead S conn) {level : TlsLevel} {b : TlsRecv} (hb : StreamHeld (S level) b)
    (hle : (conn.tls level).contig ≤ b.contig) (happ : level = .application → b.contig = 0) :
    StreamsRead S (conn.setTls level b) := by
  have hmono : ∀ l, (conn.tls l).contig ≤ ((conn.setTls level b).tls l).contig := fun l => by
    by_cases hl : l = level
    · rw [hl, setTls_same]
      exact hle
    · rw [setTls_other _ _ hl]
  refine ⟨fun l => ?_, ?_, fun r hr => ⟨(h.handed r hr).1, Nat.le_trans (h.handed r hr).2 (hmono r.level)⟩⟩
  · by_cases hl : l = level
    · rw [hl, setTls_same]
      exact hb
    · rw [setTls_other _ _ hl]
      exact h.held l
  · by_cases hl : TlsLevel.application = level
    · rw [hl, setTls_same]
      exact happ hl.symm
    · rw [setTls_other _ _ hl]
      exact h.application

theorem longCrypto_streams (h : StreamsRead S conn) {level : TlsLevel} {f : CryptoFrame} (hlevel : level ≠ .application)
    (hstop : f.stop < 2 ^ 63) (hf : CryptoOf (S level) f) (hinside : GapInside (conn.tls level) f)
    (hgap : (conn.tls level).expectedOff < f.offset → (conn.tls level).contig ≤ (conn.tls level).expectedOff)
    {conn' : QuicCryptoRecv} (hstep : longCrypto conn level f = some conn') : StreamsRead S conn' := by
  have hheld := h.held level
  obtain ⟨b, c, hlong, hfits, hstored, hmoved⟩ := longCrypto_spec hheld.fits hstop hinside (fun _ => hheld.ahead)
  rw [← Option.some.inj (hlong.symm.trans hstep)]
  exact h.setTls (hheld.insert hf hfits hstored hmoved hgap) hmoved.le (fun he => absurd he hlevel)

theorem shortCrypto_streams (h : StreamsRead S conn) {f : CryptoFrame} (hstop : f.stop < 2 ^ 63) :
    StreamsRead S (shortCrypto conn f) := by
  have hheld := h.held .application
  have hfits := shortCrypto_fits hheld.fits hstop
  unfold shortCrypto at *
  dsimp only at *
  split
  · rename_i hcond
    rw [if_pos hcond, setTls_same] at hfits
    refine h.setTls ⟨hfits, hheld.ahead, fun i hi hbit => ?_, fun i _ hc => ?_⟩ (Nat.le_refl _) (fun _ => h.application)
    · dsimp only at hbit ⊢
      rw [Mem.write_outside _ _ _ (Or.inl (hheld.fits.bits_lt i hi hbit))]
      exact hheld.cells i hi hbit
    · rw [h.application] at hc
      exact absurd hc (Nat.not_lt_zero _)
  · exact h

theorem cryptoRecvRcd_streams (h : StreamsRead S conn) : StreamsRead S (cryptoRecvRcd conn) := by
  have hheld := h.held conn.readLevel
  refine ⟨h.held, h.application, fun r hr => ?_⟩
  unfold cryptoRecvRcd at hr
  rcases List.mem_append.1 hr with hr | hr
  · exact h.handed r hr
  · rw [List.mem_singleton.1 hr]
    have hread := hheld.read
    have hlen : ((conn.tls conn.readLevel).rbuf.read 0 (conn.tls conn.readLevel).avail).length =
        (conn.tls conn.readLevel).avail := slice_length _ _ _
    constructor
    · dsimp only
      rw [hlen]
      exact hread
    · dsimp only
      rw [hlen]
      exact TlsRecv.avail_le hheld.ahead

theorem cryptoReleaseRcd_streams (h : StreamsRead S conn) {n : Nat} (hn : FromStream S conn (.releaseRcd n)) :
    StreamsRead S (cryptoReleaseRcd conn n) := by
  unfold cryptoReleaseRcd
  dsimp only
  split
  · rename_i hcond
    obtain ⟨r, hr, hlevel, hle⟩ := hn hcond.1
    have hstop := (h.handed r hr).2
    rw [hlevel] at hstop
    have hcontig : ∀ b : TlsRecv, (b.release n).contig = b.contig := fun b => by
      unfold TlsRecv.release
      dsimp only
      split <;> rfl
    refine h.setTls ((h.held _).release hcond.2 (Nat.le_trans hle hstop)) (Nat.le_of_eq (hcontig _).symm) (fun he => ?_)
    rw [hcontig, he]
    exact h.application
  · exact h

theorem cryptoStep_streams {call : CryptoCall} {conn' : QuicCryptoRecv} (h : StreamsRead S conn)
    (hok : FromStream S conn call ∧ GapsBehind conn call) (hstep : cryptoStep conn call = some conn') : StreamsRead S conn' := by
  obtain ⟨hfrom, hgaps⟩ := hok
  cases call with
  | frame pktType payload =>
    have hfeed : feedCrypto conn pktType payload = some conn' := hstep
    cases hparse : quicFrameParseCrypto payload with
    | none =>
      unfold feedCrypto at hfeed
      rw [hparse] at hfeed
      rw [← Option.some.inj hfeed]
      exact h
    | some r =>
      have hstop := CryptoFrame.stop_lt hparse
      rw [feedCrypto_parsed hparse] at hfeed
      have hf := fun level => hfrom r.1 r.2 level hparse
      have hgap := fun level => hgaps r.1 r.2 level hparse
      cases pktType with
      | initial =>
        exact longCrypto_streams h (by decide) hstop (hf .none rfl) (hgap .none rfl).1 (hgap .none rfl).2 hfeed
      | handshake =>
        exact longCrypto_streams h (by decide) hstop (hf .handshake rfl) (hgap .handshake rfl).1
          (hgap .handshake rfl).2 hfeed
      | short =>
        rw [← Option.some.inj hfeed]
        exact shortCrypto_streams h hstop
      | zeroRtt =>
        rw [← Option.some.inj hfeed]
        exact h
      | retry =>
        rw [← Option.some.inj hfeed]
        exact h
  | recvRcd =>
    rw [← Option.some.inj hstep]
    exact cryptoRecvRcd_streams h
  | releaseRcd n =>
    rw [← Option.some.inj hstep]
    exact cryptoReleaseRcd_streams h hfrom
  | yieldSecret level =>
    rw [← Option.some.inj hstep]
    exact ⟨h.held, h.application, h.handed⟩
  | handshakeDone =>
    rw [← Option.some.inj hstep]
    exact ⟨h.held, h.application, h.handed⟩

end Run

/-- **Every buffer TLS is handed is the stream from `consumed` on**, in every run of fragments of the streams in which
gaps end inside the bitmap and come while `contig` is not past the buffer. -/
theorem handed_eq_stream (S : TlsLevel → Nat → Byte) (calls : List CryptoCall) (conn : QuicCryptoRecv)
    (hrun : calls.foldlM cryptoStep {} = some conn) (hfrom : StepsOkM cryptoStep (FromStream S) {} calls)
    (hgaps : StepsOkM cryptoStep GapsBehind {} calls) :
    ∀ h ∈ conn.handed, h.bytes = slice (fun i => some (S h.level i)) h.consumed h.bytes.length := by
  have hread := foldlM_inv cryptoStep (fun s e => FromStream S s e ∧ GapsBehind s e) (StreamsRead S)
    (fun _ _ _ h hok hstep => cryptoStep_streams h hok hstep) calls {} conn (streamsRead_init S)
    (stepsOkM_and cryptoStep hfrom hgaps) hrun
  exact fun h hh => (hread.handed h hh).1

def gapFilledStream (_ : TlsLevel) (i : Nat) : Byte := if i = 0 then 0xaa else 0xbb

variable {conn : QuicCryptoRecv}

theorem fromStream_frame {S : TlsLevel → Nat → Byte} {pktType : PktType} {payload : List Byte} {n : Nat} (hparse : quicFrameParseCrypto payload = some (f, n))
    (h : ∀ level, longLevel pktType = some level → CryptoOf (S level) f) : FromStream S conn (.frame pktType payload) := by
  intro f' n' level hparse' hlevel
  rw [hparse, Option.some.injEq, Prod.mk.injEq] at hparse'
  rw [← hparse'.1]
  exact h level hlevel

theorem gapsBehind_frame {pktType : PktType} {payload : List Byte} {n : Nat} (hparse : quicFrameParseCrypto payload = some (f, n))
    (h : ∀ level, longLevel pktType = some level → GapInside (conn.tls level) f ∧ ((conn.tls level).expectedOff < f.offset →
    (conn.tls level).contig ≤ (conn.tls level).expectedOff)) : GapsBehind conn (.frame pktType payload) := by
  intro f' n' level hparse' hlevel
  rw [hparse, Option.some.injEq, Prod.mk.injEq] at hparse'
  rw [← hparse'.1]
  exact h level hlevel

/-- A gap, the frame that fills it, and TLS reading both bytes. -/
theorem handed_eq_stream_gapFilled : ∃ conn, gapFilled.foldlM cryptoStep {} = some conn ∧
    ∀ h ∈ conn.handed, h.bytes = slice (fun i => some (gapFilledStream h.level i)) h.consumed h.bytes.length := by
  obtain ⟨conn, hrun⟩ : ∃ conn, gapFilled.foldlM cryptoStep {} = some conn := ⟨_, rfl⟩
  refine ⟨conn, hrun, handed_eq_stream gapFilledStream gapFilled conn hrun
    ⟨?_, fun s1 h1 => ⟨?_, fun s2 h2 => ⟨trivial, fun s3 h3 => ⟨?_, fun _ _ => trivial⟩⟩⟩⟩
    ⟨?_, fun s1 h1 => ⟨?_, fun s2 _ => ⟨trivial, fun s3 _ => ⟨trivial, fun _ _ => trivial⟩⟩⟩⟩⟩
  · exact fromStream_frame (f := ⟨1, [0xbb]⟩) (n := 4) (by decide) (fun level _ => rfl)
  · exact fromStream_frame (f := ⟨0, [0xaa]⟩) (n := 4) (by decide) (fun level _ => rfl)
  · obtain rfl := Option.some.inj h1
    obtain rfl := Option.some.inj h2
    obtain rfl := Option.some.inj h3
    exact fun _ => ⟨_, List.mem_singleton.2 rfl, rfl, by decide⟩
  · refine gapsBehind_frame (f := ⟨1, [0xbb]⟩) (n := 4) (by decide) (fun level hlevel => ?_)
    cases hlevel
    exact ⟨fun _ => by decide, fun _ => Nat.le_refl 0⟩
  · refine gapsBehind_frame (f := ⟨0, [0xaa]⟩) (n := 4) (by decide) (fun level hlevel => ?_)
    exact ⟨fun h => absurd h (Nat.not_lt_zero _), fun h => absurd h (Nat.not_lt_zero _)⟩

/-! ## A skipped copy -/

def onesFrame (off n : Nat) : CryptoFrame := ⟨off, replicate n 1⟩

theorem onesFrame_of (off n : Nat) : CryptoOf (fun _ => 1) (onesFrame off n) := by
  unfold CryptoOf onesFrame slice
  rw [map_const', length_range', length_replicate]

def onesCall (off n : Nat) : CryptoCall := .frame .initial (cryptoBytes (onesFrame off n))

theorem cryptoStep_ones {off n : Nat} (hoff : off < 2 ^ 62) (hn : n < 2 ^ 62) :
    cryptoStep conn (onesCall off n) = longCrypto conn .none (onesFrame off n) := by
  have hlen : (onesFrame off n).data.length < 2 ^ 62 := by
    unfold onesFrame
    rwa [length_replicate]
  exact feedCrypto_parsed (quicFrameParseCrypto_bytes hoff hlen) conn .initial

/-- What is left of a run of in-order frames: nothing was read, and `n` bytes are buffered. -/
structure Linear (n : Nat) (conn : QuicCryptoRecv) : Prop where
  readLevel : conn.readLevel = .none
  handshakeDone : conn.handshakeDone = false
  rlen : (conn.tls .none).rlen = n
  rcap : (conn.tls .none).rcap = TLS_BUF_SIZE
  consumed : (conn.tls .none).consumed = 0
  contig : (conn.tls .none).contig = n

theorem tlsContigScan_end (h : b.expectedOff ≤ b.contig) : tlsContigScan b = some b := by
  unfold tlsContigScan
  rw [Nat.sub_eq_zero_of_le (show b.consumed + b.rlen ≤ b.contig from h)]
  rfl

theorem cryptoAdvance_end {off len : Nat} (hoff : off = b.contig) (h : b.expectedOff ≤ off + len) :
    cryptoAdvance b off len = some { b with contig := off + len } := by
  unfold cryptoAdvance
  rw [if_pos hoff, ← hoff]
  exact tlsContigScan_end h

theorem feed_linear {n len : Nat} (h : Linear n conn) (hroom : n + len ≤ TLS_BUF_SIZE) :
    ∃ conn', cryptoStep conn (onesCall n len) = some conn' ∧ Linear (n + len) conn' := by
  obtain ⟨hread, hdone, hrlen, hrcap, hconsumed, hcontig⟩ := h
  have hexp : (conn.tls .none).expectedOff = n := by
    unfold TlsRecv.expectedOff
    rw [hrlen, hconsumed, Nat.zero_add]
  have hlen : (onesFrame n len).data.length = len := length_replicate
  have happend : ∃ b, cryptoAppend (conn.tls .none) (onesFrame n len) = some b ∧ b.rlen = n + len ∧
      b.rcap = TLS_BUF_SIZE ∧ b.consumed = 0 ∧ b.contig = n := by
    unfold cryptoAppend
    rw [hlen, hrlen, hrcap, if_pos hroom, tlsFillSet_eq _ _ hroom, Option.map_some]
    exact ⟨_, rfl, rfl, rfl, hconsumed, hcontig⟩
  obtain ⟨b, happend, hbrlen, hbrcap, hbconsumed, hbcontig⟩ := happend
  have hbexp : b.expectedOff = n + len := by
    unfold TlsRecv.expectedOff
    rw [hbrlen, hbconsumed, Nat.zero_add]
  have hinsert : cryptoInsert (conn.tls .none) (onesFrame n len) = some { b with contig := n + len } := by
    unfold cryptoInsert cryptoInOrder
    rw [if_pos (show (onesFrame n len).offset = _ from hexp.symm), happend, Option.bind_some, hlen]
    exact cryptoAdvance_end hbcontig.symm (Nat.le_of_eq hbexp)
  have hscan : tlsContigScan { b with contig := n + len } = some { b with contig := n + len } :=
    tlsContigScan_end (Nat.le_of_eq hbexp)
  unfold TLS_BUF_SIZE at hroom
  rw [cryptoStep_ones (by omega) (by omega)]
  unfold longCrypto
  rw [hinsert, Option.bind_some, hdone, if_neg (by decide), hscan]
  refine ⟨_, rfl, hread, hdone, ?_, ?_, ?_, ?_⟩ <;> rw [setTls_same]
  · exact hbrlen
  · exact hbrcap
  · exact hbconsumed

def linearCalls (k : Nat) : List CryptoCall := (range k).map (fun i => onesCall (1170 * i) 1170)

theorem linearCalls_run : ∀ (k : Nat), 1170 * k ≤ TLS_BUF_SIZE →
    ∃ conn, (linearCalls k).foldlM cryptoStep {} = some conn ∧ Linear (1170 * k) conn
  | 0, _ => ⟨{}, rfl, rfl, rfl, rfl, rfl, rfl, rfl⟩
  | k + 1, h => by
    obtain ⟨conn, hrun, hlinear⟩ := linearCalls_run k (by omega)
    obtain ⟨conn', hstep, hlinear'⟩ := feed_linear hlinear (show 1170 * k + 1170 ≤ TLS_BUF_SIZE by omega)
    refine ⟨conn', ?_, hlinear'⟩
    unfold linearCalls at hrun ⊢
    rw [range_succ, map_append, foldlM_append, hrun, Option.bind_eq_bind, Option.bind_some]
    exact (foldlM_cons_some cryptoStep).2 ⟨conn', hstep, rfl⟩

def skippedConn (conn : QuicCryptoRecv) : QuicCryptoRecv := conn.setTls .none { conn.tls .none with contig := 66690 }

theorem skippedConn_tls (conn : QuicCryptoRecv) :
    (skippedConn conn).tls .none = { conn.tls .none with contig := 66690 } := setTls_same ..

theorem feed_skipped (h : Linear 65520 conn) : cryptoStep conn (onesCall 65520 1170) = some (skippedConn conn) := by
  obtain ⟨-, hdone, hrlen, hrcap, hconsumed, hcontig⟩ := h
  have hexp : (conn.tls .none).expectedOff = 65520 := by
    unfold TlsRecv.expectedOff
    rw [hrlen, hconsumed]
  have hlen : (onesFrame 65520 1170).data.length = 1170 := length_replicate
  have hinsert : cryptoInsert (conn.tls .none) (onesFrame 65520 1170) = some { conn.tls .none with contig := 66690 } := by
    unfold cryptoInsert cryptoInOrder cryptoAppend
    rw [if_pos (show (onesFrame 65520 1170).offset = _ from hexp.symm), hlen, hrlen, hrcap, if_neg (by decide),
      Option.bind_some]
    exact cryptoAdvance_end hcontig.symm (by rw [hexp]; decide)
  have hscan : tlsContigScan { conn.tls .none with contig := 66690 } = some { conn.tls .none with contig := 66690 } :=
    tlsContigScan_end (show (conn.tls .none).expectedOff ≤ 66690 by rw [hexp]; decide)
  rw [cryptoStep_ones (by decide) (by decide)]
  unfold longCrypto
  rw [hinsert, Option.bind_some, hdone, if_neg (by decide), hscan]
  rfl

/-- Every byte read and released: `contig` is still 1170 past the empty buffer. -/
structure Drained (conn : QuicCryptoRecv) : Prop where
  readLevel : conn.readLevel = .none
  handshakeDone : conn.handshakeDone = false
  level : ∃ rbuf, conn.tls .none = ⟨rbuf, Bitmap.empty, 0, TLS_BUF_SIZE, 65520, 66690⟩

theorem drain_skipped (h : Linear 65520 conn) : Drained (cryptoReleaseRcd (cryptoRecvRcd (skippedConn conn)) 65520) := by
  obtain ⟨hread, hdone, hrlen, hrcap, hconsumed, -⟩ := h
  have hlast : (cryptoRecvRcd (skippedConn conn)).lastRecvLevel = .none := hread
  have htls : (cryptoRecvRcd (skippedConn conn)).tls .none = { conn.tls .none with contig := 66690 } :=
    skippedConn_tls conn
  have hrelease : ({ conn.tls .none with contig := 66690 } : TlsRecv).release 65520 =
      ⟨(conn.tls .none).rbuf, Bitmap.empty, 0, TLS_BUF_SIZE, 65520, 66690⟩ := by
    unfold TlsRecv.release
    dsimp only
    rw [hrlen, if_neg (by decide), hrcap, hconsumed]
  unfold cryptoReleaseRcd
  dsimp only
  rw [hlast, htls, hrelease, if_pos ⟨by decide, by rw [hrlen]⟩]
  exact ⟨hread, hdone, _, setTls_same ..⟩

theorem cryptoRecvRcd_handed (conn : QuicCryptoRecv) : ⟨conn.readLevel, (conn.tls conn.readLevel).consumed,
    (conn.tls conn.readLevel).rbuf.read 0 (conn.tls conn.readLevel).avail⟩ ∈ (cryptoRecvRcd conn).handed :=
  mem_append_right _ (List.mem_singleton.2 rfl)

theorem handed_skipped (h : Linear 65520 conn) (S : TlsLevel → Nat → Byte) :
    FromStream S (cryptoRecvRcd (skippedConn conn)) (.releaseRcd 65520) := by
  obtain ⟨hread, -, hrlen, -, hconsumed, -⟩ := h
  have hread' : (skippedConn conn).readLevel = .none := hread
  have htls := skippedConn_tls conn
  have havail : ((skippedConn conn).tls .none).avail = 65520 := by
    rw [htls]
    unfold TlsRecv.avail
    dsimp only
    rw [hconsumed, hrlen]
    rfl
  have hmem := cryptoRecvRcd_handed (skippedConn conn)
  rw [hread', havail, htls] at hmem
  refine fun _ => ⟨_, hmem, hread'.symm, ?_⟩
  have hlast : (cryptoRecvRcd (skippedConn conn)).lastRecvLevel = .none := hread
  have htls' : (cryptoRecvRcd (skippedConn conn)).tls .none = { conn.tls .none with contig := 66690 } := htls
  unfold Mem.read
  rw [hlast, htls', slice_length]

theorem feed_drained (h : Drained conn) : ∃ conn' rbuf fill, cryptoStep conn (onesCall 65530 10) = some conn' ∧
    conn'.readLevel = .none ∧ conn'.tls .none = ⟨rbuf, fill, 20, TLS_BUF_SIZE, 65520, 66690⟩ ∧ rbuf 0 = some 0 := by
  obtain ⟨hread, hdone, rbuf, hlevel⟩ := h
  have hlen : (onesFrame 65530 10).data.length = 10 := length_replicate
  have hoff : (onesFrame 65530 10).offset = 65530 := rfl
  have hexp : (conn.tls .none).expectedOff = 65520 := by rw [hlevel]; rfl
  have hrlen : (conn.tls .none).rlen = 0 := by rw [hlevel]
  obtain ⟨b, hinsert, hb, hzero⟩ : ∃ b, cryptoInsert (conn.tls .none) (onesFrame 65530 10) = some b ∧
      b = ⟨b.rbuf, b.fill, 20, TLS_BUF_SIZE, 65520, 66690⟩ ∧ b.rbuf 0 = some 0 := by
    unfold cryptoInsert
    rw [hexp, hoff, if_neg (by decide), if_neg (by decide),
      cryptoGap_eq (by rw [hlevel]) (by rw [hexp, hoff, hrlen, hlen]; decide)]
    refine ⟨_, rfl, ?_, ?_⟩
    · unfold putFrame
      rw [hexp, hoff, hlen, hlevel]
    · unfold putFrame
      rw [hexp, hoff, hrlen]
      dsimp only
      rw [Mem.write_outside _ _ _ (by decide)]
      rfl
  have hend : b.expectedOff ≤ b.contig := by
    rw [hb]
    show 65520 + 20 ≤ 66690
    decide
  have hscan : tlsContigScan b = some b := tlsContigScan_end hend
  rw [cryptoStep_ones (by decide) (by decide)]
  unfold longCrypto
  rw [hinsert, Option.bind_some, hdone, if_neg (by decide), hscan]
  exact ⟨_, b.rbuf, b.fill, rfl, hread, (setTls_same ..).trans hb, hzero⟩

def skippedTail : List CryptoCall := [onesCall 65520 1170, .recvRcd, .releaseRcd 65520, onesCall 65530 10, .recvRcd]

theorem fromStream_ones {off n : Nat} (hoff : off < 2 ^ 62) (hn : n < 2 ^ 62) :
    FromStream (fun _ _ => 1) conn (onesCall off n) := by
  have hlen : (onesFrame off n).data.length < 2 ^ 62 := by
    unfold onesFrame
    rwa [length_replicate]
  exact fromStream_frame (quicFrameParseCrypto_bytes hoff hlen) (fun _ _ => onesFrame_of off n)

/-- **TLS is handed zeros of a gap**: a copy skipped for want of room moves `contig`, and a later gap is below it. -/
theorem handed_zeros : ¬ ∀ (S : TlsLevel → Nat → Byte) (calls : List CryptoCall) (conn : QuicCryptoRecv),
    calls.foldlM cryptoStep {} = some conn → StepsOkM cryptoStep (FromStream S) {} calls →
    ∀ h ∈ conn.handed, h.bytes = slice (fun i => some (S h.level i)) h.consumed h.bytes.length := by
  intro hclaim
  obtain ⟨conn, hlinearRun, hlinear⟩ := linearCalls_run 56 (by decide)
  obtain ⟨conn', rbuf, fill, hgap, hread, hlevel, hzero⟩ := feed_drained (drain_skipped hlinear)
  have htail : skippedTail.foldlM cryptoStep conn = some (cryptoRecvRcd conn') :=
    (foldlM_cons_some cryptoStep).2 ⟨_, feed_skipped hlinear, (foldlM_cons_some cryptoStep).2 ⟨_, rfl,
      (foldlM_cons_some cryptoStep).2 ⟨_, rfl, (foldlM_cons_some cryptoStep).2 ⟨_, hgap, rfl⟩⟩⟩⟩
  have hrun : (linearCalls 56 ++ skippedTail).foldlM cryptoStep {} = some (cryptoRecvRcd conn') := by
    rw [foldlM_append, hlinearRun, Option.bind_eq_bind, Option.bind_some, htail]
  have hfrom : StepsOkM cryptoStep (FromStream fun _ _ => 1) {} (linearCalls 56 ++ skippedTail) := by
    refine stepsOkM_append cryptoStep _ (stepsOkM_of_forall cryptoStep _ _ _ (fun call hcall s => ?_)) (fun s hs => ?_)
    · obtain ⟨i, hi, rfl⟩ := List.mem_map.1 hcall
      have := List.mem_range.1 hi
      exact fromStream_ones (by omega) (by decide)
    · rw [← Option.some.inj (hlinearRun.symm.trans hs)]
      refine ⟨fromStream_ones (by decide) (by decide), fun s1 h1 => ⟨trivial, fun s2 h2 => ⟨?_, fun s3 _ =>
        ⟨fromStream_ones (by decide) (by decide), fun s4 _ => ⟨trivial, fun _ _ => trivial⟩⟩⟩⟩⟩
      rw [← Option.some.inj ((feed_skipped hlinear).symm.trans h1)] at h2
      rw [← Option.some.inj h2]
      exact handed_skipped hlinear _
  have hmem := cryptoRecvRcd_handed conn'
  have havail : (⟨rbuf, fill, 20, TLS_BUF_SIZE, 65520, 66690⟩ : TlsRecv).avail = 20 := by
    unfold TlsRecv.avail
    dsimp only
    rw [if_pos (by decide)]
    rfl
  rw [hread, hlevel, havail] at hmem
  have hbytes := hclaim _ _ _ hrun hfrom _ hmem
  dsimp only at hbytes
  have hfirst : rbuf 0 = some 1 := Option.some.inj (congrArg List.head? hbytes)
  rw [hzero] at hfirst
  cases hfirst

end MoqLiveCast
