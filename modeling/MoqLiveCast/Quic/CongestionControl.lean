import MoqLiveCast.Lib.Double
import MoqLiveCast.Quic.PacketBuild
/-!
# CongestionControl — NewReno and CUBIC (`quic_cc_newreno.c`, `quic_cc_cubic.c`)

Recovery tells the controller of packets sent and acknowledged and of congestion; what it says is in the trace.  Both
controllers ignore packets sent.  A congestion event cuts the window whenever it is above its floor.
-/
namespace MoqLiveCast

/-! ## NewReno -/

structure QuicCcNewReno where
  cwnd : Nat
  ssthresh : Nat
  bytesAckedCa : Nat
deriving DecidableEq

def quicCcNewrenoCreate : QuicCcNewReno := ⟨256 * QUIC_MIN_PKT_SIZE, wordSize - 1, 0⟩

def nrAvoid (nr : QuicCcNewReno) : QuicCcNewReno :=
  if nr.cwnd ≤ nr.bytesAckedCa then
    nrAvoid { nr with
      bytesAckedCa := nr.bytesAckedCa - nr.cwnd
      cwnd := (nr.cwnd + QUIC_MIN_PKT_SIZE) % wordSize }
  else nr
termination_by (nr.bytesAckedCa, if nr.cwnd = 0 then 1 else 0)
decreasing_by
  rename_i h
  by_cases hzero : nr.cwnd = 0
  · have hgrown : (0 + QUIC_MIN_PKT_SIZE) % wordSize ≠ 0 := by decide
    simp only [hzero, Nat.sub_zero, if_neg hgrown, if_true]
    exact Prod.Lex.right _ Nat.zero_lt_one
  · exact Prod.Lex.left _ _ (by omega)

def nrOnPacketAcked (nr : QuicCcNewReno) (bytes : Nat) : QuicCcNewReno :=
  if nr.cwnd < nr.ssthresh then { nr with cwnd := (nr.cwnd + bytes) % wordSize }
  else nrAvoid { nr with bytesAckedCa := (nr.bytesAckedCa + bytes) % wordSize }

def nrOnCongestionEvent (nr : QuicCcNewReno) : QuicCcNewReno :=
  let ssthresh := max (nr.cwnd / 2) (2 * QUIC_MIN_PKT_SIZE)
  ⟨ssthresh, ssthresh, 0⟩

def nrOnPersistentCongestion (_ : QuicCcNewReno) : QuicCcNewReno := ⟨2 * QUIC_MIN_PKT_SIZE, 2 * QUIC_MIN_PKT_SIZE, 0⟩

/-! ## CUBIC -/

def CUBIC_C : ℚ := double (4 / 10)
def CUBIC_BETA : ℚ := double (7 / 10)
structure QuicCcCubic where
  cwnd : Nat
  ssthresh : Nat
  wMax : Nat
  epochStartMs : Nat
  bytesAcked : Nat
  inSlowStart : Bool
  minRttUs : Nat
deriving DecidableEq

/-- `(uint64_t)x` of a double that is not negative. -/
def truncate (x : ℚ) : Nat := ⌊x⌋.toNat

def cubicCbrtFrom : Nat → ℚ → ℚ → ℚ
  | 0, _, r => r
  | n + 1, x, r =>
    let r2 := double (r * r)
    let nr := double (double (double (2 * r) + double (x / r2)) / 3)
    let eps := double (1 / 1000000000)
    if double (r - eps) < nr ∧ nr < double (r + eps) then nr else cubicCbrtFrom n x nr

def cubicCbrt (x : ℚ) : ℚ := if x ≤ 0 then 0 else cubicCbrtFrom 60 x (if 1 < x then x else 1)

/-- The window CUBIC aims at, `t` seconds into the epoch. -/
def cubicTarget (c : QuicCcCubic) (t : ℚ) : ℚ :=
  let wMax := double c.wMax
  let k := cubicCbrt (double (double (wMax * double (1 - CUBIC_BETA)) / CUBIC_C))
  let diff := double (t - k)
  let wCubic := double (double (double (double (CUBIC_C * diff) * diff) * diff) + wMax)
  let rttS := double ((if c.minRttUs ≠ 0 then double c.minRttUs else 100000) / 1000000)
  let rttS := if rttS ≤ 0 then double (1 / 10) else rttS
  let slope := double (double (3 * double (1 - CUBIC_BETA)) / double (1 + CUBIC_BETA))
  let wEst := double (double (wMax * CUBIC_BETA) + double (double (slope * double (t / rttS)) * QUIC_MIN_PKT_SIZE))
  if wEst < wCubic then wCubic else wEst

def cubicSample (c : QuicCcCubic) (rttUs : Nat) : QuicCcCubic :=
  if 0 < rttUs ∧ rttUs < 10000000 ∧ (c.minRttUs = 0 ∨ rttUs < c.minRttUs) then { c with minRttUs := rttUs } else c

def cubicSlowStart (c : QuicCcCubic) (bytes now : Nat) : QuicCcCubic :=
  let c := { c with cwnd := (c.cwnd + bytes) % wordSize }
  if c.ssthresh ≤ c.cwnd then { c with inSlowStart := false, epochStartMs := now } else c

def cubicAvoid (c : QuicCcCubic) (bytes now : Nat) : QuicCcCubic :=
  let c := { c with bytesAcked := (c.bytesAcked + bytes) % wordSize }
  if c.bytesAcked < c.cwnd then c
  else
    let target := cubicTarget c (double (double (sub64 now c.epochStartMs) / 1000))
    if double c.cwnd < target then { c with bytesAcked := 0, cwnd := truncate target } else { c with bytesAcked := 0 }

def cubicOnPacketAcked (c : QuicCcCubic) (bytes rttUs now : Nat) : QuicCcCubic :=
  if bytes = 0 then c
  else
    let c := cubicSample c rttUs
    if c.inSlowStart then cubicSlowStart c bytes now else cubicAvoid c bytes now

/-- `(uint64_t)((double)cwnd * CUBIC_BETA)`. -/
def cubicShrink (cwnd : Nat) : Nat := truncate (double (double cwnd * CUBIC_BETA))

def cubicOnCongestionEvent (c : QuicCcCubic) (now : Nat) : QuicCcCubic :=
  let wMax :=
    if c.cwnd < c.wMax then truncate (double (double (double c.cwnd * double (1 + CUBIC_BETA)) / 2)) else c.cwnd
  let ssthresh := max (cubicShrink c.cwnd) (2 * QUIC_MIN_PKT_SIZE)
  { c with cwnd := ssthresh, ssthresh, wMax, bytesAcked := 0, inSlowStart := false, epochStartMs := now }

def cubicOnPersistentCongestion (c : QuicCcCubic) : QuicCcCubic :=
  { c with
    cwnd := 2 * QUIC_MIN_PKT_SIZE
    ssthresh := 2 * QUIC_MIN_PKT_SIZE
    wMax := 0
    bytesAcked := 0
    inSlowStart := true }

/-! ## The controller of a connection -/

inductive QuicCc where
  | newReno (nr : QuicCcNewReno)
  | cubic (c : QuicCcCubic)
deriving DecidableEq

namespace QuicCc

def getCwnd : QuicCc → Nat
  | newReno nr => nr.cwnd
  | cubic c => c.cwnd

def onPacketAcked (bytes rttUs now : Nat) : QuicCc → QuicCc
  | newReno nr => newReno (nrOnPacketAcked nr bytes)
  | cubic c => cubic (cubicOnPacketAcked c bytes rttUs now)

def onCongestionEvent (now : Nat) : QuicCc → QuicCc
  | newReno nr => newReno (nrOnCongestionEvent nr)
  | cubic c => cubic (cubicOnCongestionEvent c now)

def onPersistentCongestion : QuicCc → QuicCc
  | newReno nr => newReno (nrOnPersistentCongestion nr)
  | cubic c => cubic (cubicOnPersistentCongestion c)

def hear (cc : QuicCc) : RecoveryEffect → QuicCc
  | .ccPacketAcked _ bytes rttUs now => cc.onPacketAcked bytes rttUs now
  | .ccCongestionEvent now => cc.onCongestionEvent now
  | .ccPersistentCongestion _ => cc.onPersistentCongestion
  | _ => cc

def after (cc : QuicCc) (trace : List RecoveryEffect) : QuicCc := trace.foldl hear cc

end QuicCc

/-! ## What an event does to the window -/

theorem cubicShrink_lt {cwnd : Nat} (h : 0 < cwnd) : cubicShrink cwnd < cwnd := by
  have hpos : (0 : ℚ) < cwnd := by exact_mod_cast h
  have hbeta : CUBIC_BETA = 3152519739159347 / 4503599627370496 := by decide +kernel
  have hw := double_le hpos.le
  have hprod := double_le (mul_nonneg (double_nonneg hpos.le) (by rw [hbeta]; norm_num : (0 : ℚ) ≤ CUBIC_BETA))
  have hlt : double (double cwnd * CUBIC_BETA) < cwnd := by
    rw [hbeta] at hprod ⊢
    norm_num at hw hprod ⊢
    linarith
  unfold cubicShrink truncate
  have hfloor : ⌊double (double cwnd * CUBIC_BETA)⌋ < (cwnd : ℤ) := by
    rw [Int.floor_lt]
    exact_mod_cast hlt
  omega

theorem onCongestionEvent_lt_iff (cc : QuicCc) (now : Nat) :
    (cc.onCongestionEvent now).getCwnd < cc.getCwnd ↔ 2 * QUIC_MIN_PKT_SIZE < cc.getCwnd := by
  cases cc with
  | newReno nr =>
    show max (nr.cwnd / 2) (2 * QUIC_MIN_PKT_SIZE) < nr.cwnd ↔ 2 * QUIC_MIN_PKT_SIZE < nr.cwnd
    omega
  | cubic c =>
    show max (cubicShrink c.cwnd) (2 * QUIC_MIN_PKT_SIZE) < c.cwnd ↔ 2 * QUIC_MIN_PKT_SIZE < c.cwnd
    rw [max_lt_iff]
    exact ⟨And.right, fun h => ⟨cubicShrink_lt (Nat.lt_of_le_of_lt (Nat.zero_le _) h), h⟩⟩

end MoqLiveCast
