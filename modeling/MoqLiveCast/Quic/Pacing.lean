import MoqLiveCast.Lib.Double
import Mathlib.Tactic.Positivity
/-!
# Pacing — the token bucket of the sender (`pacing_send.c`)

Tokens are the rationals that the doubles of the source stand for, and adding to them or taking from them is exact.  The
burst of a rate is computed as the source does, in doubles.  Times are those of the calls, in nanoseconds; they may go back.
-/
namespace MoqLiveCast

def PACING_MAX_BURST_CAP : Nat := 64 * 1024
def PACING_MIN_BURST : Nat := 2 * 1200
def PACING_INIT_BURST : Nat := PACING_MIN_BURST
def PACING_BURST_WINDOW_US : Nat := 10000
def NS_PER_SEC : Nat := 1000000000

structure PacingSend where
  /-- bytes a second; 0 is no pacing -/
  rateBps : Nat
  tokens : ℚ
  /-- 0 is no anchor -/
  lastRefillNs : Nat
  maxBurst : Nat

/-! ## Functions -/

def pacingCalcBurst (rateBps : Nat) : Nat :=
  let burst := ⌊double (double (double rateBps * PACING_BURST_WINDOW_US) / 1000000)⌋.toNat
  let burst := if burst < PACING_MIN_BURST then PACING_MIN_BURST else burst
  if PACING_MAX_BURST_CAP < burst then PACING_MAX_BURST_CAP else burst

def pacingSendInit (rateBps maxBurstBytes : Nat) : PacingSend where
  rateBps
  tokens := 0
  lastRefillNs := 0
  maxBurst :=
    if maxBurstBytes ≠ 0 then maxBurstBytes else if rateBps ≠ 0 then pacingCalcBurst rateBps else PACING_INIT_BURST

def PacingSend.clamp (p : PacingSend) : PacingSend :=
  if (p.maxBurst : ℚ) < p.tokens then { p with tokens := p.maxBurst } else p

/-- A new rate drops the anchor, so that no time is counted at it that passed before. -/
def pacingSendSetRate (p : PacingSend) (rateBps : Nat) : PacingSend :=
  if p.rateBps = rateBps then p
  else
    let p := { p with rateBps, lastRefillNs := 0 }
    if rateBps = 0 then { p with tokens := 0, maxBurst := PACING_INIT_BURST }
    else PacingSend.clamp { p with maxBurst := pacingCalcBurst rateBps }

def paced (rateBps deltaNs : Nat) : ℚ := (rateBps : ℚ) * deltaNs / NS_PER_SEC

/-- The first time after a change is the anchor; a time that is not after the last one gives nothing. -/
def pacingSendRefill (p : PacingSend) (nowNs : Nat) : PacingSend :=
  if p.rateBps = 0 then p
  else if p.lastRefillNs = 0 then { p with lastRefillNs := nowNs }
  else if nowNs ≤ p.lastRefillNs then p
  else { PacingSend.clamp { p with tokens := p.tokens + paced p.rateBps (nowNs - p.lastRefillNs) } with
    lastRefillNs := nowNs }

def pacingSendAcquire (p : PacingSend) (bytes nowNs : Nat) : Bool × PacingSend :=
  if p.rateBps = 0 then (true, p)
  else
    let p := pacingSendRefill p nowNs
    if (bytes : ℚ) ≤ p.tokens then (true, { p with tokens := p.tokens - bytes }) else (false, p)

/-! ## Calls -/

inductive PacingOp where
  | setRate (rateBps : Nat)
  | acquire (bytes : Nat)
  | refill

structure PacingCall where
  atNs : Nat
  op : PacingOp

def pacingStep (p : PacingSend) (c : PacingCall) : PacingSend :=
  match c.op with
  | .setRate rateBps => pacingSendSetRate p rateBps
  | .acquire bytes => (pacingSendAcquire p bytes c.atNs).2
  | .refill => pacingSendRefill p c.atNs

def pacingRun (p : PacingSend) (calls : List PacingCall) : PacingSend := calls.foldl pacingStep p

def pacedBytes (p : PacingSend) (c : PacingCall) : Nat :=
  match c.op with
  | .acquire bytes => if p.rateBps ≠ 0 ∧ (pacingSendAcquire p bytes c.atNs).1 = true then bytes else 0
  | _ => 0

/-- **What the calls admit** while pacing is enabled. -/
def pacedTotal : PacingSend → List PacingCall → Nat
  | _, [] => 0
  | p, c :: calls => pacedBytes p c + pacedTotal (pacingStep p c) calls

/-- **The integral of the rate** from one time over the calls: the rate in force counts for the time the clock goes on; a
clock that goes back adds nothing. -/
def rateIntegral : PacingSend → Nat → List PacingCall → ℚ
  | _, _, [] => 0
  | p, fromNs, c :: calls => paced p.rateBps (c.atNs - fromNs) + rateIntegral (pacingStep p c) c.atNs calls

def largestBurst : PacingSend → List PacingCall → Nat
  | p, [] => p.maxBurst
  | p, c :: calls => max p.maxBurst (largestBurst (pacingStep p c) calls)

/-! ## The balance -/

/-- The balance of a pacer is between 0 and its burst, and 0 while pacing is disabled. -/
structure PacingOk (p : PacingSend) : Prop where
  nonneg : 0 ≤ p.tokens
  le : p.tokens ≤ p.maxBurst
  disabled : p.rateBps = 0 → p.tokens = 0

theorem paced_nonneg (rate delta : Nat) : 0 ≤ paced rate delta := by
  unfold paced
  positivity

theorem paced_add (rate a b : Nat) : paced rate (a + b) = paced rate a + paced rate b := by
  unfold paced
  push_cast
  ring

theorem paced_mono (rate : Nat) {a b : Nat} (h : a ≤ b) : paced rate a ≤ paced rate b := by
  obtain ⟨c, rfl⟩ := Nat.exists_eq_add_of_le h
  rw [paced_add]
  linarith [paced_nonneg rate c]

theorem clamp_tokens (p : PacingSend) : p.clamp.tokens = min p.tokens p.maxBurst := by
  unfold PacingSend.clamp
  split
  · rename_i h
    exact (min_eq_right h.le).symm
  · rename_i h
    exact (min_eq_left (not_lt.1 h)).symm

theorem clamp_rest (p : PacingSend) :
    p.clamp.rateBps = p.rateBps ∧ p.clamp.lastRefillNs = p.lastRefillNs ∧ p.clamp.maxBurst = p.maxBurst := by
  unfold PacingSend.clamp
  split <;> exact ⟨rfl, rfl, rfl⟩

variable {p : PacingSend}

theorem clamp_ok (h : 0 ≤ p.tokens) (hrate : p.rateBps ≠ 0) : PacingOk p.clamp := by
  obtain ⟨h₁, -, h₃⟩ := clamp_rest p
  refine ⟨?_, ?_, fun h₀ => absurd (h₁.symm.trans h₀) hrate⟩
  · rw [clamp_tokens]
    exact le_min h (Nat.cast_nonneg _)
  · rw [clamp_tokens, h₃]
    exact min_le_right _ _

theorem init_ok (rateBps maxBurstBytes : Nat) : PacingOk (pacingSendInit rateBps maxBurstBytes) :=
  ⟨le_refl _, Nat.cast_nonneg _, fun _ => rfl⟩

theorem setRate_ok (h : PacingOk p) (rateBps : Nat) : PacingOk (pacingSendSetRate p rateBps) := by
  unfold pacingSendSetRate
  split
  · exact h
  · dsimp only
    split
    · exact ⟨le_refl _, Nat.cast_nonneg _, fun _ => rfl⟩
    · rename_i hrate
      exact clamp_ok h.nonneg hrate

theorem refill_ok (h : PacingOk p) (nowNs : Nat) : PacingOk (pacingSendRefill p nowNs) := by
  unfold pacingSendRefill
  split
  · exact h
  · rename_i hrate
    split
    · exact ⟨h.nonneg, h.le, h.disabled⟩
    · split
      · exact h
      · have hok := clamp_ok (p := { p with tokens := p.tokens + paced p.rateBps (nowNs - p.lastRefillNs) })
          (add_nonneg h.nonneg (paced_nonneg _ _)) hrate
        exact ⟨hok.nonneg, hok.le, hok.disabled⟩

theorem refill_rate (p : PacingSend) (nowNs : Nat) : (pacingSendRefill p nowNs).rateBps = p.rateBps := by
  unfold pacingSendRefill
  split
  · rfl
  · split
    · rfl
    · split
      · rfl
      · exact (clamp_rest _).1

theorem acquire_ok (h : PacingOk p) (bytes nowNs : Nat) : PacingOk (pacingSendAcquire p bytes nowNs).2 := by
  unfold pacingSendAcquire
  split
  · exact h
  · rename_i hrate
    have hok := refill_ok h nowNs
    have hkeep := refill_rate p nowNs
    dsimp only
    split
    · rename_i hle
      refine ⟨sub_nonneg.2 hle, ?_, fun h₀ => absurd (hkeep.symm.trans h₀) hrate⟩
      show (pacingSendRefill p nowNs).tokens - bytes ≤ _
      have hb : (0 : ℚ) ≤ bytes := Nat.cast_nonneg _
      linarith [hok.le]
    · exact hok

theorem pacingStep_ok (h : PacingOk p) (c : PacingCall) : PacingOk (pacingStep p c) := by
  unfold pacingStep
  split
  · exact setRate_ok h _
  · exact acquire_ok h _ _
  · exact refill_ok h _

theorem pacingRun_ok : ∀ (calls : List PacingCall) {p : PacingSend}, PacingOk p → PacingOk (pacingRun p calls)
  | [], _, h => h
  | c :: calls, _, h => pacingRun_ok calls (pacingStep_ok h c)

/-! ## The credit -/

def PacingSend.accrued (p : PacingSend) (nowNs : Nat) : ℚ :=
  if p.lastRefillNs = 0 then 0 else paced p.rateBps (nowNs - p.lastRefillNs)

/-- **What a pacer could hand out at a time.** -/
def PacingSend.credit (p : PacingSend) (nowNs : Nat) : ℚ := min (p.tokens + p.accrued nowNs) p.maxBurst

theorem accrued_nonneg (p : PacingSend) (nowNs : Nat) : 0 ≤ p.accrued nowNs := by
  unfold PacingSend.accrued
  split
  · exact le_refl _
  · exact paced_nonneg _ _

theorem credit_le (p : PacingSend) (nowNs : Nat) : p.credit nowNs ≤ p.maxBurst := min_le_right _ _

theorem tokens_le_credit (h : PacingOk p) (nowNs : Nat) : p.tokens ≤ p.credit nowNs :=
  le_min (le_add_of_nonneg_right (accrued_nonneg p nowNs)) h.le

theorem credit_later (p : PacingSend) (fromNs nowNs : Nat) :
    p.credit nowNs ≤ p.credit fromNs + paced p.rateBps (nowNs - fromNs) := by
  have hgain : p.accrued nowNs ≤ p.accrued fromNs + paced p.rateBps (nowNs - fromNs) := by
    unfold PacingSend.accrued
    split
    · linarith [paced_nonneg p.rateBps (nowNs - fromNs)]
    · rw [← paced_add]
      exact paced_mono _ (by omega)
  have hpos := paced_nonneg p.rateBps (nowNs - fromNs)
  unfold PacingSend.credit
  rw [min_add]
  refine min_le_min ?_ ?_
  · linarith
  · linarith

theorem credit_unanchored (h : PacingOk p) (hlast : p.lastRefillNs = 0) (nowNs : Nat) : p.credit nowNs = p.tokens := by
  unfold PacingSend.credit PacingSend.accrued
  rw [if_pos hlast, add_zero, min_eq_left h.le]

theorem setRate_credit (h : PacingOk p) (rateBps nowNs : Nat) : (pacingSendSetRate p rateBps).credit nowNs ≤ p.credit nowNs := by
  have hok := setRate_ok h rateBps
  have hle := tokens_le_credit h nowNs
  unfold pacingSendSetRate at hok ⊢
  split
  · exact le_refl _
  · rename_i hrate
    rw [if_neg hrate] at hok
    dsimp only at hok ⊢
    split
    · rename_i hzero
      rw [if_pos hzero] at hok
      rw [credit_unanchored hok rfl]
      exact le_trans h.nonneg hle
    · rename_i hpos
      rw [if_neg hpos] at hok
      rw [credit_unanchored hok (clamp_rest _).2.1, clamp_tokens]
      exact le_trans (min_le_left _ _) hle

theorem refill_credit (h : PacingOk p) (hrate : p.rateBps ≠ 0) (nowNs : Nat) :
    (pacingSendRefill p nowNs).tokens = p.credit nowNs ∧ (pacingSendRefill p nowNs).credit nowNs = p.credit nowNs := by
  have hidle : ∀ q : PacingSend, PacingOk q → nowNs ≤ q.lastRefillNs ∨ q.lastRefillNs = 0 → q.credit nowNs = q.tokens := by
    intro q hq hlast
    unfold PacingSend.credit PacingSend.accrued
    split
    · rw [add_zero, min_eq_left hq.le]
    · rename_i hanchor
      have hnone : nowNs - q.lastRefillNs = 0 := by omega
      rw [hnone, min_eq_left]
      · simp [paced]
      · simp [paced, hq.le]
  have hok := refill_ok h nowNs
  unfold pacingSendRefill at hok ⊢
  rw [if_neg hrate] at hok ⊢
  split
  · rename_i hlast
    rw [hidle p h (Or.inr hlast)]
    refine ⟨rfl, hidle _ ⟨h.nonneg, h.le, h.disabled⟩ (Or.inl (le_refl _))⟩
  · rename_i hlast
    rw [if_neg hlast] at hok
    split
    · rename_i hback
      rw [hidle p h (Or.inl hback)]
      exact ⟨rfl, rfl⟩
    · rename_i hon
      rw [if_neg hon] at hok
      rw [hidle _ hok (Or.inl (le_refl _))]
      have htokens : p.credit nowNs =
          (PacingSend.clamp { p with tokens := p.tokens + paced p.rateBps (nowNs - p.lastRefillNs) }).tokens := by
        rw [clamp_tokens]
        unfold PacingSend.credit PacingSend.accrued
        rw [if_neg hlast]
      exact ⟨htokens.symm, htokens.symm⟩

theorem refill_accrued (p : PacingSend) (hrate : p.rateBps ≠ 0) (nowNs : Nat) : (pacingSendRefill p nowNs).accrued nowNs = 0 := by
  have hzero : ∀ rate : Nat, paced rate 0 = 0 := by simp [paced]
  unfold pacingSendRefill
  rw [if_neg hrate]
  split
  · unfold PacingSend.accrued
    split
    · rfl
    · rw [Nat.sub_self, hzero]
  · split
    · rename_i hback
      unfold PacingSend.accrued
      split
      · rfl
      · rw [Nat.sub_eq_zero_of_le hback, hzero]
    · unfold PacingSend.accrued
      split
      · rfl
      · rw [Nat.sub_self, hzero]

/-! ## Conformance -/

theorem acquire_credit (h : PacingOk p) (bytes nowNs : Nat) :
    (pacedBytes p ⟨nowNs, .acquire bytes⟩ : ℚ) + (pacingSendAcquire p bytes nowNs).2.credit nowNs ≤ p.credit nowNs := by
  unfold pacedBytes
  dsimp only
  by_cases hrate : p.rateBps = 0
  · have hkeep : (pacingSendAcquire p bytes nowNs).2 = p := by
      unfold pacingSendAcquire
      rw [if_pos hrate]
    rw [if_neg fun hc => hc.1 hrate, hkeep]
    simp
  · obtain ⟨htokens, hcredit⟩ := refill_credit h hrate nowNs
    have hok := acquire_ok h bytes nowNs
    unfold pacingSendAcquire at hok ⊢
    rw [if_neg hrate] at hok ⊢
    dsimp only at hok ⊢
    by_cases hle : (bytes : ℚ) ≤ (pacingSendRefill p nowNs).tokens
    · rw [if_pos hle] at hok ⊢
      rw [if_pos ⟨hrate, rfl⟩]
      have hspent : ({ pacingSendRefill p nowNs with tokens := (pacingSendRefill p nowNs).tokens - bytes } :
          PacingSend).credit nowNs ≤ (pacingSendRefill p nowNs).tokens - bytes + (pacingSendRefill p nowNs).accrued nowNs :=
        min_le_left _ _
      have hnone := refill_accrued p hrate nowNs
      dsimp only at hspent ⊢
      linarith
    · rw [if_neg hle] at hok ⊢
      rw [if_neg fun hc => absurd hc.2 (by simp)]
      rw [hcredit]
      simp

theorem pacingStep_credit (h : PacingOk p) (c : PacingCall) :
    (pacedBytes p c : ℚ) + (pacingStep p c).credit c.atNs ≤ p.credit c.atNs := by
  obtain ⟨atNs, op⟩ := c
  cases op with
  | setRate rateBps =>
    show ((0 : Nat) : ℚ) + (pacingSendSetRate p rateBps).credit atNs ≤ _
    rw [Nat.cast_zero, zero_add]
    exact setRate_credit h rateBps atNs
  | acquire bytes => exact acquire_credit h bytes atNs
  | refill =>
    show ((0 : Nat) : ℚ) + (pacingSendRefill p atNs).credit atNs ≤ _
    rw [Nat.cast_zero, zero_add]
    by_cases hrate : p.rateBps = 0
    · unfold pacingSendRefill
      rw [if_pos hrate]
    · exact (refill_credit h hrate atNs).2.le

theorem pacedTotal_le : ∀ (calls : List PacingCall) {p : PacingSend}, PacingOk p → ∀ fromNs : Nat,
    (pacedTotal p calls : ℚ) ≤ p.credit fromNs + rateIntegral p fromNs calls
  | [], p, h, fromNs => by
    show ((0 : Nat) : ℚ) ≤ p.credit fromNs + 0
    rw [Nat.cast_zero, add_zero]
    exact le_trans h.nonneg (tokens_le_credit h fromNs)
  | c :: calls, p, h, fromNs => by
    have hrest := pacedTotal_le calls (pacingStep_ok h c) c.atNs
    have hstep := pacingStep_credit h c
    have hlater := credit_later p fromNs c.atNs
    unfold pacedTotal rateIntegral
    push_cast
    linarith

theorem maxBurst_le_largest (p : PacingSend) (calls : List PacingCall) : p.maxBurst ≤ largestBurst p calls := by
  cases calls with
  | nil => exact Nat.le_refl _
  | cons c calls => exact Nat.le_max_left _ _

/-- A second at 100000 bytes a second, after the clock went back from 2 s to 1 s: the burst of 2400 bytes. -/
example : pacedTotal (pacingSendInit 100000 0)
    [⟨2000000000, .refill⟩, ⟨1000000000, .acquire 1⟩, ⟨3000000000, .acquire 2400⟩, ⟨3000000000, .acquire 1⟩] = 2400 := by
  decide +kernel

end MoqLiveCast
