import MoqLiveCast.Lib.Run
import MoqLiveCast.Quic.CryptoRecv
/-!
# CryptoStep — what a CRYPTO frame and a release do to a level

A frame stores some of its bytes and sets their bits (`Stored`), and moves `contig` over set bits (`Moved`); both as
long as the buffer is no longer than the bitmap (`Fits`).
-/
namespace MoqLiveCast

/-! ## The bitmap -/

theorem tlsFillSet_eq (bm : Bitmap) (off : Nat) : ∀ {len : Nat}, off + len ≤ TLS_BUF_SIZE →
    tlsFillSet bm off len = some (bm.setRange off len)
  | 0, _ => rfl
  | len + 1, h => by
    have hbit : off + 1 * len < 8 * TLS_BM_BYTES := by
      unfold TLS_BM_BYTES TLS_BUF_SIZE at *
      omega
    have ih := tlsFillSet_eq bm off (show off + len ≤ TLS_BUF_SIZE by omega)
    unfold tlsFillSet Bitmap.setRange at *
    rw [List.range'_concat, List.foldlM_append, ih, List.foldl_append, Option.bind_eq_bind, Option.bind_some,
      List.foldlM_cons, if_pos hbit]
    rfl

theorem tlsFillSet_none (bm : Bitmap) {off : Nat} : ∀ {len : Nat}, len ≠ 0 → TLS_BUF_SIZE < off + len →
    tlsFillSet bm off len = none
  | 0, h, _ => absurd rfl h
  | len + 1, _, h => by
    unfold tlsFillSet
    rw [List.range'_concat, List.foldlM_append, Option.bind_eq_bind]
    cases hrest : (List.range' off len).foldlM
        (fun bm i => if i < 8 * TLS_BM_BYTES then some (bm.setBit i) else none) bm with
    | none => rfl
    | some bm' =>
      rw [Option.bind_some, List.foldlM_cons, if_neg (by unfold TLS_BM_BYTES TLS_BUF_SIZE at *; omega)]
      rfl

theorem bit_tlsFillShift (bm : Bitmap) {n i : Nat} (hn : n < TLS_BUF_SIZE) (hi : i < TLS_BUF_SIZE) :
    (tlsFillShift bm n).bit i = (decide (i + n < TLS_BUF_SIZE) && bm.bit (i + n)) := by
  have hsize : 8 * TLS_BM_BYTES = TLS_BUF_SIZE := rfl
  have hbytes : ∀ j < TLS_BUF_SIZE, (if 0 < n / 8 ∧ n / 8 < TLS_BM_BYTES then bm.dropBytes TLS_BM_BYTES (n / 8) else bm).bit j =
        (decide (j + 8 * (n / 8) < TLS_BUF_SIZE) && bm.bit (j + 8 * (n / 8))) := by
    intro j hj
    by_cases h0 : 0 < n / 8
    · rw [if_pos ⟨h0, by omega⟩, Bitmap.bit_dropBytes TLS_BM_BYTES bm (by omega) (by omega), hsize]
    · have h8 : n / 8 = 0 := by omega
      rw [if_neg (fun h => h0 h.1), h8, Nat.mul_zero, Nat.add_zero]
      simp [hj]
  unfold tlsFillShift
  dsimp only
  by_cases hr : 0 < n % 8
  · rw [if_pos hr, Bitmap.bit_shiftBits (by decide) _ hr (Nat.mod_lt _ (by decide)) (by omega), hsize]
    by_cases hin : i + n % 8 < TLS_BUF_SIZE
    · have hsum : i + n % 8 + 8 * (n / 8) = i + n := by omega
      rw [hbytes _ hin, hsum]
      simp [hin]
    · have hout : ¬ i + n < TLS_BUF_SIZE := by omega
      simp [hin, hout]
  · have hsum : i + 8 * (n / 8) = i + n := by omega
    rw [if_neg hr, hbytes i hi, hsum]

/-! ## A buffer no longer than its bitmap -/

/-- The buffer was never grown, and no offset of the level is near `2^64`. -/
structure Fits (b : TlsRecv) : Prop where
  rcap : b.rcap = TLS_BUF_SIZE
  rlen_le : b.rlen ≤ TLS_BUF_SIZE
  expected_lt : b.expectedOff < 2 ^ 63
  contig_lt : b.contig < 2 ^ 63
  bits_lt : ∀ i < TLS_BUF_SIZE, b.fill.bit i = true → i < b.rlen

theorem fits_init : Fits {} :=
  ⟨rfl, by decide, by decide, by decide, fun i _ h => by rw [Bitmap.bit_empty] at h; cases h⟩

variable {b : TlsRecv}

theorem Fits.withContig (h : Fits b) {c : Nat} (hc : c < 2 ^ 63) : Fits { b with contig := c } :=
  ⟨h.rcap, h.rlen_le, h.expected_lt, hc, h.bits_lt⟩

/-- `contig` moves to `c`, over positions whose bits are set as far as the buffer has them. -/
structure Moved (b : TlsRecv) (contig c : Nat) : Prop where
  le : contig ≤ c
  lt : c < 2 ^ 63
  bits : ∀ i, contig ≤ b.consumed + i → b.consumed + i < c → i < b.rlen → b.fill.bit i = true

theorem Moved.refl (b : TlsRecv) {c : Nat} (h : c < 2 ^ 63) : Moved b c c :=
  ⟨Nat.le_refl c, h, fun _ h1 h2 _ => by omega⟩

theorem Moved.trans {c c' c'' : Nat} (h : Moved b c c') (h' : Moved b c' c'') : Moved b c c'' := by
  refine ⟨Nat.le_trans h.le h'.le, h'.lt, fun i h1 h2 h3 => ?_⟩
  rcases Nat.lt_or_ge (b.consumed + i) c' with hlt | hge
  · exact h.bits i h1 hlt h3
  · exact h'.bits i hge h2 h3

theorem tlsContigLoop_spec {b : TlsRecv} (hb : Fits b) : ∀ (left c : Nat), b.consumed ≤ c →
    c + left ≤ b.expectedOff → ∃ c', tlsContigLoop b left c = some c' ∧ c' ≤ c + left ∧ Moved b c c'
  | 0, c, hc, h => ⟨c, rfl, Nat.le_refl c, Moved.refl b (Nat.lt_of_le_of_lt h hb.expected_lt)⟩
  | left + 1, c, hc, h => by
    have hexp := hb.expected_lt
    have hrlen := hb.rlen_le
    have hindex : sub64 c b.consumed = c - b.consumed := sub64_of_le hc (by unfold wordSize; omega)
    have hin : c - b.consumed < 8 * TLS_BM_BYTES := by
      unfold TlsRecv.expectedOff at h
      show c - b.consumed < TLS_BUF_SIZE
      omega
    unfold tlsContigLoop tlsFillTest
    rw [hindex, if_pos hin, Option.bind_some]
    by_cases hbit : b.fill.bit (c - b.consumed) = true
    · obtain ⟨c', hloop, hle, hmoved⟩ := tlsContigLoop_spec hb left (c + 1) (by omega) (by omega)
      rw [if_pos hbit]
      refine ⟨c', hloop, by omega, ⟨by have := hmoved.le; omega, hmoved.lt, fun i h1 h2 h3 => ?_⟩⟩
      rcases Nat.eq_or_lt_of_le h1 with rfl | hlt
      · rwa [Nat.add_sub_cancel_left] at hbit
      · exact hmoved.bits i hlt h2 h3
    · rw [if_neg hbit]
      exact ⟨c, rfl, by omega, Moved.refl b (by omega)⟩

theorem tlsContigScan_spec (hb : Fits b) (hc : b.consumed ≤ b.contig) :
    ∃ c, tlsContigScan b = some { b with contig := c } ∧ Moved b b.contig c := by
  unfold tlsContigScan
  rcases Nat.le_total b.contig (b.consumed + b.rlen) with hle | hge
  · obtain ⟨c, hloop, -, hmoved⟩ := tlsContigLoop_spec hb (b.consumed + b.rlen - b.contig) b.contig hc
      (by unfold TlsRecv.expectedOff; omega)
    rw [hloop]
    exact ⟨c, rfl, hmoved⟩
  · rw [Nat.sub_eq_zero_of_le hge]
    exact ⟨b.contig, rfl, Moved.refl b hb.contig_lt⟩

theorem cryptoAdvance_spec (hb : Fits b) (off len : Nat) (hoff : b.consumed ≤ off) (hstop : off + len < 2 ^ 63)
    (hset : ∀ i, off ≤ b.consumed + i → b.consumed + i < off + len → i < b.rlen → b.fill.bit i = true) :
    ∃ c, cryptoAdvance b off len = some { b with contig := c } ∧ Moved b b.contig c := by
  unfold cryptoAdvance
  split
  · rename_i heq
    have hlt : b.contig + len < 2 ^ 63 := by omega
    obtain ⟨c, hscan, hmoved⟩ := tlsContigScan_spec (hb.withContig hlt) (show b.consumed ≤ b.contig + len by omega)
    have hover : Moved b b.contig (b.contig + len) :=
      ⟨Nat.le_add_right _ _, by omega, fun i h1 h2 h3 => hset i (by omega) (by omega) h3⟩
    exact ⟨c, hscan, hover.trans ⟨hmoved.le, hmoved.lt, hmoved.bits⟩⟩
  · exact ⟨b.contig, rfl, Moved.refl b hb.contig_lt⟩

/-! ## Storing a frame -/

/-- `b'` is `b` with some of the frame stored: a cell whose bit is set is as it was, and its bit was set, or it holds
the byte the frame has there. -/
structure Stored (b : TlsRecv) (f : CryptoFrame) (b' : TlsRecv) : Prop where
  consumed : b'.consumed = b.consumed
  contig : b'.contig = b.contig
  cells : ∀ i < TLS_BUF_SIZE, b'.fill.bit i = true → (b.fill.bit i = true ∧ b'.rbuf i = b.rbuf i) ∨
    (f.offset ≤ b.consumed + i ∧ b.consumed + i < f.stop ∧ b'.rbuf i = f.data[b.consumed + i - f.offset]?)
  bits : ∀ i, b.fill.bit i = true → b'.fill.bit i = true
  /-- what is new below `contig` is of the frame, unless zeros were put there -/
  grown : f.offset ≤ b.expectedOff ∨ b.contig ≤ b.expectedOff →
    ∀ i, b.rlen ≤ i → i < b'.rlen → b.consumed + i < b.contig → b'.fill.bit i = true

theorem Stored.refl (b : TlsRecv) (f : CryptoFrame) : Stored b f b :=
  ⟨rfl, rfl, fun _ _ h => Or.inl ⟨h, rfl⟩, fun _ h => h, fun _ _ h1 h2 _ => by omega⟩

section Put

variable {b : TlsRecv} {f : CryptoFrame} {rel rlen : Nat} {rbuf : Mem}

/-- The frame without its first `skip` bytes, at `rel`. -/
def putFrame (b : TlsRecv) (f : CryptoFrame) (rbuf : Mem) (rel skip rlen : Nat) : TlsRecv :=
  { b with
    rbuf := rbuf.write rel ((f.data.drop skip).map some)
    fill := b.fill.setRange rel (f.data.length - skip)
    rlen }

theorem putFrame_fits (skip : Nat) (hb : Fits b) (hrel : rel + (f.data.length - skip) ≤ rlen) (hle : b.rlen ≤ rlen)
    (hsize : rlen ≤ TLS_BUF_SIZE) (hlt : b.consumed + rlen < 2 ^ 63) : Fits (putFrame b f rbuf rel skip rlen) := by
  refine ⟨hb.rcap, hsize, hlt, hb.contig_lt, fun i hi hbit => ?_⟩
  unfold putFrame at hbit ⊢
  rw [Bitmap.bit_setRange, Bool.or_eq_true, decide_eq_true_eq] at hbit
  rcases hbit with hnew | hold
  · exact Nat.lt_of_lt_of_le hnew.2 hrel
  · exact Nat.lt_of_lt_of_le (hb.bits_lt i hi hold) hle

theorem putFrame_stored (skip : Nat) (hb : Fits b) (hrel : b.consumed + rel = f.offset + skip) (hskip : skip ≤ f.data.length)
    (hrbuf : ∀ i < b.rlen, rbuf i = b.rbuf i) (hgrown : f.offset ≤ b.expectedOff ∨ b.contig ≤ b.expectedOff → ∀ i, b.rlen ≤ i →
    i < rlen → b.consumed + i < b.contig → rel ≤ i ∧ i < rel + (f.data.length - skip)) : Stored b f (putFrame b f rbuf rel skip
    rlen) := by
  refine ⟨rfl, rfl, fun i hi hbit => ?_, fun i hbit => ?_, fun hcond i h1 h2 h3 => ?_⟩
  · unfold putFrame at hbit ⊢
    rw [Bitmap.bit_setRange, Bool.or_eq_true, decide_eq_true_eq] at hbit
    by_cases hin : rel ≤ i ∧ i < rel + (f.data.length - skip)
    · right
      have hlen : ((f.data.drop skip).map some).length = f.data.length - skip := by
        rw [List.length_map, List.length_drop]
      have hpos : skip + (i - rel) = b.consumed + i - f.offset := by omega
      have hlt : b.consumed + i - f.offset < f.data.length := by omega
      refine ⟨by omega, by unfold CryptoFrame.stop; omega, ?_⟩
      dsimp only
      rw [Mem.write_inside rbuf rel _ hin.1 (by rw [hlen]; exact hin.2), List.getElem?_map, List.getElem?_drop, hpos,
        List.getElem?_eq_getElem hlt]
      rfl
    · left
      have hold := hbit.resolve_left hin
      refine ⟨hold, ?_⟩
      dsimp only
      rw [Mem.write_outside rbuf rel _ (by rw [List.length_map, List.length_drop]; omega)]
      exact hrbuf i (hb.bits_lt i hi hold)
  · unfold putFrame
    rw [Bitmap.bit_setRange, hbit, Bool.or_true]
  · unfold putFrame
    rw [Bitmap.bit_setRange, decide_eq_true (hgrown hcond i h1 h2 h3), Bool.true_or]

end Put

variable {f : CryptoFrame}

theorem cryptoAppend_spec (hb : Fits b) (hstop : f.stop < 2 ^ 63) (hoff : f.offset = b.expectedOff) : ∃ b', cryptoAppend b f =
    some b' ∧ Fits b' ∧ Stored b f b' ∧ ∀ i, f.offset ≤ b'.consumed + i → b'.consumed + i < f.stop → i < b'.rlen →
    b'.fill.bit i = true := by
  have hrcap := hb.rcap
  unfold CryptoFrame.stop at *
  unfold TlsRecv.expectedOff at hoff
  unfold cryptoAppend
  split
  · rename_i hroom
    rw [hrcap] at hroom
    rw [tlsFillSet_eq _ _ hroom, Option.map_some]
    refine ⟨_, rfl, putFrame_fits 0 hb (Nat.le_refl _) (Nat.le_add_right _ _) hroom (by omega),
      putFrame_stored 0 hb hoff.symm (Nat.zero_le _) (fun _ _ => rfl) (fun _ i h1 h2 _ => ⟨h1, h2⟩),
      fun i h1 h2 _ => ?_⟩
    dsimp only at h1 h2 ⊢
    rw [Bitmap.bit_setRange, decide_eq_true (by omega), Bool.true_or]
  · exact ⟨b, rfl, hb, Stored.refl b f, fun i h1 _ h3 => by omega⟩

theorem cryptoInOrder_spec (hb : Fits b) (hstop : f.stop < 2 ^ 63) (hoff : f.offset = b.expectedOff) :
    ∃ b' c, cryptoInOrder b f = some { b' with contig := c } ∧ Fits b' ∧ Stored b f b' ∧ Moved b' b.contig c := by
  obtain ⟨b', happend, hb', hstored, hset⟩ := cryptoAppend_spec hb hstop hoff
  obtain ⟨c, hadvance, hmoved⟩ := cryptoAdvance_spec hb' f.offset f.data.length
    (by rw [hoff, hstored.consumed]; exact Nat.le_add_right _ _) hstop hset
  unfold cryptoInOrder
  rw [happend, Option.bind_some, hadvance]
  exact ⟨b', c, rfl, hb', hstored, by rw [← hstored.contig]; exact hmoved⟩

theorem cryptoRetrans_spec (hb : Fits b) (hstop : f.stop < 2 ^ 63) (hoff : f.offset < b.expectedOff) :
    ∃ b' c, cryptoRetrans b f = some { b' with contig := c } ∧ Fits b' ∧ Stored b f b' ∧ Moved b' b.contig c := by
  have hskip : ∃ b' c, some b = some { b' with contig := c } ∧ Fits b' ∧ Stored b f b' ∧ Moved b' b.contig c :=
    ⟨b, b.contig, rfl, hb, Stored.refl b f, Moved.refl b hb.contig_lt⟩
  have hrcap := hb.rcap
  have hexp := hb.expected_lt
  have hrlen := hb.rlen_le
  have hlen : f.stop = f.offset + f.data.length := rfl
  unfold TlsRecv.expectedOff at hoff hexp
  unfold cryptoRetrans
  split
  · exact hskip
  · split
    · exact hskip
    · rename_i hroom hnew
      rw [hrcap] at hroom
      dsimp only
      generalize habs : max f.offset b.consumed = absOff
      have hwrt : f.stop - absOff = f.data.length - (absOff - f.offset) := by omega
      have hsize : absOff - b.consumed + (f.data.length - (absOff - f.offset)) ≤ TLS_BUF_SIZE := by omega
      rw [hwrt, tlsFillSet_eq _ _ hsize, Option.bind_some]
      have hb' : Fits (putFrame b f b.rbuf (absOff - b.consumed) (absOff - f.offset)
          (max b.rlen (absOff - b.consumed + (f.data.length - (absOff - f.offset))))) :=
        putFrame_fits _ hb (Nat.le_max_right _ _) (Nat.le_max_left _ _) (by omega) (by omega)
      have hstored : Stored b f (putFrame b f b.rbuf (absOff - b.consumed) (absOff - f.offset)
          (max b.rlen (absOff - b.consumed + (f.data.length - (absOff - f.offset))))) :=
        putFrame_stored _ hb (by omega) (by omega) (fun _ _ => rfl) (fun _ i h1 h2 _ => by omega)
      obtain ⟨c, hadvance, hmoved⟩ := cryptoAdvance_spec hb' absOff
        (f.data.length - (absOff - f.offset)) (by rw [hstored.consumed]; omega) (by omega)
        (fun i h1 h2 _ => by
          rw [hstored.consumed] at h1 h2
          unfold putFrame
          rw [Bitmap.bit_setRange, decide_eq_true (by omega), Bool.true_or])
      exact ⟨_, c, hadvance, hb', hstored, hmoved⟩

theorem cryptoGrow_eq {need : Nat} (h : need ≤ b.rcap) : cryptoGrow b need = b := if_neg (Nat.not_lt.2 h)

theorem cryptoGrow_grown {need : Nat} (h : b.rcap < need) : cryptoGrow b need = { b with rcap := need * 2 } := if_pos h

theorem cryptoGap_eq (hrcap : b.rcap = TLS_BUF_SIZE) (hneed : b.rlen + (f.offset - b.expectedOff) + f.data.length ≤ TLS_BUF_SIZE)
    : cryptoGap b f = some (putFrame b f (b.rbuf.zero b.rlen (f.offset - b.expectedOff)) (b.rlen + (f.offset - b.expectedOff)) 0
    (b.rlen + (f.offset - b.expectedOff) + f.data.length)) := by
  unfold cryptoGap
  dsimp only
  rw [cryptoGrow_eq (by rw [hrcap]; exact hneed), if_pos (by rw [hrcap]; exact hneed), tlsFillSet_eq _ _ hneed]
  rfl

theorem cryptoGap_spec (hb : Fits b) (hstop : f.stop < 2 ^ 63)
    (hoff : b.expectedOff < f.offset) (hgap : f.stop ≤ b.consumed + TLS_BUF_SIZE) :
    ∃ b' c, cryptoGap b f = some { b' with contig := c } ∧ Fits b' ∧ Stored b f b' ∧ Moved b' b.contig c := by
  have hlen : f.stop = f.offset + f.data.length := rfl
  have hexp : b.expectedOff = b.consumed + b.rlen := rfl
  have hneed : b.rlen + (f.offset - b.expectedOff) + f.data.length ≤ TLS_BUF_SIZE := by omega
  rw [cryptoGap_eq hb.rcap hneed]
  refine ⟨_, b.contig, rfl, putFrame_fits 0 hb (Nat.le_refl _) (by omega) hneed (by omega),
    putFrame_stored 0 hb (by omega) (Nat.zero_le _) (fun i hi => ?_) (fun hcond i h1 h2 h3 => ?_),
    Moved.refl _ hb.contig_lt⟩
  · exact Mem.write_outside _ _ _ (Or.inl hi)
  · omega

theorem cryptoInsert_spec (hb : Fits b) (hstop : f.stop < 2 ^ 63)
    (hgap : b.expectedOff < f.offset → f.stop ≤ b.consumed + TLS_BUF_SIZE) :
    ∃ b' c, cryptoInsert b f = some { b' with contig := c } ∧ Fits b' ∧ Stored b f b' ∧ Moved b' b.contig c := by
  unfold cryptoInsert
  split
  · rename_i heq
    exact cryptoInOrder_spec hb hstop heq
  · split
    · rename_i hlt
      exact cryptoRetrans_spec hb hstop hlt
    · rename_i hne hge
      have hlt : b.expectedOff < f.offset := Nat.lt_of_le_of_ne (Nat.le_of_not_lt hge) (Ne.symm hne)
      exact cryptoGap_spec hb hstop hlt (hgap hlt)

/-! ## Levels -/

@[simp] theorem setTls_same (conn : QuicCryptoRecv) (level : TlsLevel) (b : TlsRecv) :
    (conn.setTls level b).tls level = b := Function.update_self ..

@[simp] theorem setTls_other (conn : QuicCryptoRecv) {level l : TlsLevel} (b : TlsRecv) (h : l ≠ level) :
    (conn.setTls level b).tls l = conn.tls l := Function.update_of_ne h ..

variable {n : Nat}

theorem feedCrypto_parsed {payload : List Byte} (h : quicFrameParseCrypto payload = some (f, n)) (conn : QuicCryptoRecv)
    (pktType : PktType) : feedCrypto conn pktType payload = feedFrame conn f pktType := by
  unfold feedCrypto
  rw [h]

/-- What a frame needs to stay inside the bitmap: past the expected offset it ends inside it. -/
def GapInside (b : TlsRecv) (f : CryptoFrame) : Prop :=
  b.expectedOff < f.offset → f.stop ≤ b.consumed + TLS_BUF_SIZE

variable {conn : QuicCryptoRecv} {level : TlsLevel}

theorem longCrypto_spec (hb : Fits (conn.tls level)) (hstop : f.stop < 2 ^ 63) (hgap : GapInside (conn.tls level) f)
    (hcontig : conn.handshakeDone = false → (conn.tls level).consumed ≤ (conn.tls level).contig) :
    ∃ b c, longCrypto conn level f = some (conn.setTls level { b with contig := c }) ∧ Fits b ∧
      Stored (conn.tls level) f b ∧ Moved b (conn.tls level).contig c := by
  obtain ⟨b, c, hinsert, hfits, hstored, hmoved⟩ := cryptoInsert_spec hb hstop hgap
  unfold longCrypto
  rw [hinsert, Option.bind_some]
  cases hdone : conn.handshakeDone with
  | true => exact ⟨b, c, rfl, hfits, hstored, hmoved⟩
  | false =>
    obtain ⟨c', hscan, hmoved'⟩ := tlsContigScan_spec (hfits.withContig hmoved.lt)
      (show b.consumed ≤ c by rw [hstored.consumed]; exact Nat.le_trans (hcontig hdone) hmoved.le)
    rw [if_neg (by decide), hscan]
    exact ⟨b, c', rfl, hfits, hstored, hmoved.trans ⟨hmoved'.le, hmoved'.lt, hmoved'.bits⟩⟩

theorem release_fits (hb : Fits b) (hle : n ≤ b.rlen) : Fits (b.release n) := by
  have hexp := hb.expected_lt
  have hrlen := hb.rlen_le
  unfold TlsRecv.expectedOff at hexp
  unfold TlsRecv.release
  dsimp only
  split
  · refine ⟨hb.rcap, Nat.le_trans (Nat.sub_le _ _) hrlen, show b.consumed + n + (b.rlen - n) < 2 ^ 63 by omega,
      hb.contig_lt, fun i hi hbit => ?_⟩
    dsimp only at hbit ⊢
    rw [bit_tlsFillShift _ (by omega) hi, Bool.and_eq_true, decide_eq_true_eq] at hbit
    have := hb.bits_lt (i + n) hbit.1 hbit.2
    omega
  · refine ⟨hb.rcap, Nat.le_trans (Nat.sub_le _ _) hrlen, show b.consumed + n + (b.rlen - n) < 2 ^ 63 by omega,
      hb.contig_lt, fun i _ hbit => ?_⟩
    dsimp only at hbit
    rw [Bitmap.bit_empty] at hbit
    cases hbit

theorem shortCrypto_fits (hb : Fits (conn.tls .application))
    (hstop : f.stop < 2 ^ 63) : Fits ((shortCrypto conn f).tls .application) := by
  unfold shortCrypto
  dsimp only
  split
  · rename_i h
    obtain ⟨hoff, hroom⟩ := h
    rw [hb.rcap] at hroom
    rw [setTls_same]
    refine ⟨hb.rcap, hroom, ?_, hb.contig_lt, fun i hi hbit => ?_⟩
    · unfold CryptoFrame.stop TlsRecv.expectedOff at *
      dsimp only
      omega
    · exact Nat.lt_of_lt_of_le (hb.bits_lt i hi hbit) (Nat.le_add_right _ _)
  · exact hb

/-! ## The bit indices of CRYPTO reassembly -/

/-- No buffer is longer than its bitmap, and no scan starts before its buffer. -/
structure InBounds (conn : QuicCryptoRecv) : Prop where
  fits : ∀ level, Fits (conn.tls level)
  ahead : conn.handshakeDone = false → ∀ level, (conn.tls level).consumed ≤ (conn.tls level).contig

theorem inBounds_init : InBounds {} := ⟨fun _ => fits_init, fun _ _ => Nat.le_refl _⟩

theorem InBounds.setTls (h : InBounds conn) (hb : Fits b)
    (hahead : conn.handshakeDone = false → b.consumed ≤ b.contig) : InBounds (conn.setTls level b) := by
  refine ⟨fun l => ?_, fun hdone l => ?_⟩
  · by_cases hl : l = level
    · rw [hl, setTls_same]
      exact hb
    · rw [setTls_other _ _ hl]
      exact h.fits l
  · by_cases hl : l = level
    · rw [hl, setTls_same]
      exact hahead hdone
    · rw [setTls_other _ _ hl]
      exact h.ahead hdone l

/-- What keeps a step inside the bitmap: a frame past the expected offset ends inside it, and during the handshake
nothing past `contig` is released. -/
def BitsInside (conn : QuicCryptoRecv) : CryptoCall → Prop
  | .frame pktType payload => ∀ f n level, quicFrameParseCrypto payload = some (f, n) →
      longLevel pktType = some level → GapInside (conn.tls level) f
  | .releaseRcd n => conn.handshakeDone = false → n ≤ (conn.tls conn.lastRecvLevel).rlen →
      (conn.tls conn.lastRecvLevel).consumed + n ≤ (conn.tls conn.lastRecvLevel).contig
  | _ => True

theorem CryptoFrame.stop_lt {payload : List Byte} (h : quicFrameParseCrypto payload = some (f, n)) : f.stop < 2 ^ 63 := by
  obtain ⟨hoff, hlen⟩ := quicFrameParseCrypto_lt h
  unfold CryptoFrame.stop
  omega

theorem longCrypto_inBounds (h : InBounds conn) (hstop : f.stop < 2 ^ 63) (hgap : GapInside (conn.tls level) f) :
    ∃ conn', longCrypto conn level f = some conn' ∧ InBounds conn' := by
  obtain ⟨b, c, hlong, hfits, hstored, hmoved⟩ :=
    longCrypto_spec (h.fits level) hstop hgap (fun hdone => h.ahead hdone level)
  refine ⟨_, hlong, h.setTls (hfits.withContig hmoved.lt) (fun hdone => ?_)⟩
  show b.consumed ≤ c
  rw [hstored.consumed]
  exact Nat.le_trans (h.ahead hdone level) hmoved.le

theorem shortCrypto_inBounds (h : InBounds conn) (hstop : f.stop < 2 ^ 63) : InBounds (shortCrypto conn f) := by
  have hfits := shortCrypto_fits (h.fits .application) hstop
  unfold shortCrypto at *
  dsimp only at *
  split
  · rename_i hcond
    rw [if_pos hcond, setTls_same] at hfits
    exact h.setTls hfits (fun hdone => h.ahead hdone .application)
  · exact h

theorem cryptoReleaseRcd_inBounds (h : InBounds conn)
    (hn : BitsInside conn (.releaseRcd n)) : InBounds (cryptoReleaseRcd conn n) := by
  unfold cryptoReleaseRcd
  dsimp only
  split
  · rename_i hcond
    refine h.setTls (release_fits (h.fits _) hcond.2) (fun hdone => ?_)
    have hle := hn hdone hcond.2
    unfold TlsRecv.release
    dsimp only
    split <;> exact hle
  · exact h

theorem cryptoStep_inBounds {call : CryptoCall} (h : InBounds conn)
    (hok : BitsInside conn call) : ∃ conn', cryptoStep conn call = some conn' ∧ InBounds conn' := by
  cases call with
  | frame pktType payload =>
    unfold cryptoStep feedCrypto
    dsimp only
    cases hparse : quicFrameParseCrypto payload with
    | none => exact ⟨conn, rfl, h⟩
    | some r =>
      have hstop := CryptoFrame.stop_lt hparse
      have hgap := fun level => hok r.1 r.2 level hparse
      cases pktType with
      | initial => exact longCrypto_inBounds h hstop (hgap .none rfl)
      | handshake => exact longCrypto_inBounds h hstop (hgap .handshake rfl)
      | short => exact ⟨_, rfl, shortCrypto_inBounds h hstop⟩
      | zeroRtt => exact ⟨conn, rfl, h⟩
      | retry => exact ⟨conn, rfl, h⟩
  | recvRcd => exact ⟨_, rfl, h.fits, h.ahead⟩
  | releaseRcd n => exact ⟨_, rfl, cryptoReleaseRcd_inBounds h hok⟩
  | yieldSecret level => exact ⟨_, rfl, h.fits, h.ahead⟩
  | handshakeDone => exact ⟨_, rfl, h.fits, fun hdone => by cases hdone⟩

/-- **Every bit index is inside the bitmap** in every run whose steps meet the condition: the run has a result. -/
theorem bit_indices_inside (calls : List CryptoCall) (hok : StepsOkM cryptoStep BitsInside {} calls) :
    ∃ conn, calls.foldlM cryptoStep {} = some conn := by
  obtain ⟨conn, hrun, -⟩ := foldlM_total cryptoStep BitsInside InBounds
    (fun _ _ h hok => cryptoStep_inBounds h hok) calls {} inBounds_init hok
  exact ⟨conn, hrun⟩

def gapFilled : List CryptoCall :=
  [.frame .initial [0x06, 0x01, 0x01, 0xbb], .frame .initial [0x06, 0x00, 0x01, 0xaa], .recvRcd, .releaseRcd 2]

theorem bitsInside_frame {pktType : PktType} {payload : List Byte} (hparse : quicFrameParseCrypto payload = some (f, n))
    (h : ∀ level, longLevel pktType = some level → GapInside (conn.tls level) f) : BitsInside conn (.frame pktType payload) := by
  intro f' n' level hparse' hlevel
  rw [hparse, Option.some.injEq, Prod.mk.injEq] at hparse'
  rw [← hparse'.1]
  exact h level hlevel

theorem bit_indices_inside_gapFilled : ∃ conn, gapFilled.foldlM cryptoStep {} = some conn := by
  refine bit_indices_inside gapFilled ⟨?_, fun s1 h1 => ⟨?_, fun s2 h2 => ⟨trivial, fun s3 h3 => ⟨?_, fun _ _ => trivial⟩⟩⟩⟩
  · refine bitsInside_frame (f := ⟨1, [0xbb]⟩) (n := 4) (by decide) (fun level hlevel => ?_)
    cases hlevel
    exact fun _ => by decide
  · refine bitsInside_frame (f := ⟨0, [0xaa]⟩) (n := 4) (by decide) (fun level hlevel => ?_)
    exact fun h => absurd h (Nat.not_lt_zero _)
  · obtain rfl := Option.some.inj h1
    obtain rfl := Option.some.inj h2
    obtain rfl := Option.some.inj h3
    exact fun _ _ => by decide

/-! ## Frames that leave the bitmap -/

theorem cryptoInsert_inside_iff (hb : Fits b) (hstop : f.stop < 2 ^ 63)
    (hdata : f.data ≠ []) : (∃ b', cryptoInsert b f = some b') ↔ GapInside b f := by
  refine ⟨fun ⟨b', h⟩ hoff => ?_, fun hgap => ?_⟩
  · by_contra hout
    have hlen : f.stop = f.offset + f.data.length := rfl
    have hne : f.data.length ≠ 0 := fun h0 => hdata (List.length_eq_zero_iff.1 h0)
    unfold TlsRecv.expectedOff at hoff
    have hneed : TLS_BUF_SIZE < b.rlen + (f.offset - (b.consumed + b.rlen)) + f.data.length := by omega
    unfold cryptoInsert TlsRecv.expectedOff at h
    rw [if_neg (by omega), if_neg (by omega)] at h
    have hgrow := cryptoGrow_grown (show b.rcap < _ by rw [hb.rcap]; exact hneed)
    unfold cryptoGap TlsRecv.expectedOff at h
    dsimp only at h
    rw [hgrow] at h
    dsimp only at h
    rw [if_pos (by omega), tlsFillSet_none _ hne hneed] at h
    cases h
  · obtain ⟨b', c, h, -⟩ := cryptoInsert_spec hb hstop hgap
    exact ⟨_, h⟩

def farAhead : List Byte := [0x06, 0x80, 0x01, 0x00, 0x00, 0x01, 0xaa]

/-- **A bit index leaves the bitmap**: the buffer is grown for a frame far ahead and bit 65536 is set. -/
theorem bit_index_outside : ¬ ∀ calls : List CryptoCall, ∃ conn, calls.foldlM cryptoStep {} = some conn := by
  intro h
  obtain ⟨conn, hrun⟩ := h [.frame .initial farAhead]
  obtain ⟨s, hs, -⟩ := (foldlM_cons_some cryptoStep).1 hrun
  have hfeed : feedCrypto {} .initial farAhead = some s := hs
  rw [feedCrypto_parsed (f := ⟨65536, [0xaa]⟩) (n := 7) (by decide)] at hfeed
  obtain ⟨b, hb, -⟩ := Option.bind_eq_some_iff.1 (show longCrypto {} .none ⟨65536, [0xaa]⟩ = some s from hfeed)
  have hgap := (cryptoInsert_inside_iff fits_init (by decide) (by decide)).1 ⟨b, hb⟩
  exact absurd (hgap (by decide)) (by decide)

end MoqLiveCast
