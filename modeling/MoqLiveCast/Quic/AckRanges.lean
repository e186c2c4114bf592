import MoqLiveCast.Quic.RecoveryLoss
/-!
# AckRanges — which ACK frames `process_ack_ranges` gets through

A loop over `[r_start, r_end]` in `uint64_t` ends unless `r_end` is `2^64 - 1`, and it marks `r_end` when it runs at
all.
-/
namespace MoqLiveCast

/-- **Every range that runs after wrap-around ends at or below `largest`.**  `prev` is the start of the range above;
`top` and `top - ackRange` are the ends of a range, which runs unless a multiple of `2^64` lies between them. -/
def RangesBelow (largest : Nat) : Int → List (Nat × Nat) → Prop
  | _, [] => True
  | prev, (gap, ackRange) :: rs =>
    ((prev - gap - 2 - ackRange) / 2 ^ 64 < (prev - gap - 2) / 2 ^ 64 ∨ (prev - gap - 2) % 2 ^ 64 ≤ largest) ∧
      RangesBelow largest (prev - gap - 2 - ackRange) rs

/-- The packet numbers marked so far are at most `largest`. -/
def AckWork.MarkedBelow (w : AckWork) (largest : Nat) : Prop := ∀ pn ∈ w.marked, pn ≤ largest

/-! ## One packet number -/

theorem ackSample_marked (w : AckWork) (p : QuicRecoverySentPacket) (pn now : Nat) :
    (ackSample w p pn now).marked = w.marked := by
  unfold ackSample
  split <;> rfl

theorem markPnAcked_marked (w : AckWork) (pn : Nat) (level : TlsLevel) (now : Nat) :
    (markPnAcked w pn level now).marked = w.marked ++ [pn] := by
  unfold markPnAcked
  dsimp only
  split
  · rfl
  · exact ackSample_marked _ _ _ _

/-! ## One range -/

theorem ackRangeLoop_ends (level : TlsLevel) (now : Nat) (w : AckWork) (rStart : Nat) {rEnd : Nat} (hend : rEnd + 1 < wordSize) :
    ∃ fuel w', ackRangeLoop fuel level now w rStart rEnd = some w' ∧ ∀ pn, pn ∈ w'.marked ↔ pn ∈ w.marked ∨ rStart ≤ pn ∧
    pn ≤ rEnd := by
  let Inv : AckWork × Nat → Prop := fun s =>
    rStart ≤ s.2 ∧ (s.2 ≤ rEnd + 1 ∨ s.2 = rStart) ∧ ∀ pn, pn ∈ s.1.marked ↔ pn ∈ w.marked ∨ rStart ≤ pn ∧ pn < s.2
  have hbody : ∀ s : AckWork × Nat, Inv s → s.2 ≤ rEnd →
      Inv (markPnAcked s.1 s.2 level now, add64 s.2 1) ∧ add64 s.2 1 = s.2 + 1 := by
    intro s hs hle
    obtain ⟨h1, h2, h3⟩ := hs
    have hnext : add64 s.2 1 = s.2 + 1 := Nat.mod_eq_of_lt (by omega)
    refine ⟨⟨?_, ?_, fun pn => ?_⟩, hnext⟩
    · show rStart ≤ add64 s.2 1
      omega
    · left
      show add64 s.2 1 ≤ rEnd + 1
      omega
    · show pn ∈ (markPnAcked s.1 s.2 level now).marked ↔ pn ∈ w.marked ∨ rStart ≤ pn ∧ pn < add64 s.2 1
      rw [markPnAcked_marked, List.mem_append, h3, List.mem_singleton, hnext]
      constructor
      · rintro ((h | h) | rfl)
        · exact Or.inl h
        · exact Or.inr ⟨h.1, by omega⟩
        · exact Or.inr ⟨h1, by omega⟩
      · rintro (h | h)
        · exact Or.inl (Or.inl h)
        · rcases Nat.lt_or_eq_of_le (Nat.le_of_lt_succ h.2) with hlt | heq
          · exact Or.inl (Or.inr ⟨h.1, hlt⟩)
          · exact Or.inr heq
  have hinit : Inv (w, rStart) := ⟨Nat.le_refl _, Or.inr rfl, fun pn => by
    constructor
    · exact Or.inl
    · rintro (h | ⟨h1, h2⟩)
      · exact h
      · exact absurd h2 (Nat.not_lt.2 h1)⟩
  obtain ⟨t, ht⟩ := whileLoop_ends (fun s : AckWork × Nat => s.2 ≤ rEnd)
    (fun s => (markPnAcked s.1 s.2 level now, add64 s.2 1)) Inv (fun s => rEnd + 1 - s.2)
    (fun s hs hc => by
      obtain ⟨h1, h2⟩ := hbody s hs hc
      exact ⟨h1, by show rEnd + 1 - add64 s.2 1 < rEnd + 1 - s.2; omega⟩)
    (rEnd + 2) (w, rStart) hinit (by show rEnd + 1 - rStart < rEnd + 2; omega)
  refine ⟨rEnd + 2, t.1, by unfold ackRangeLoop; rw [ht]; rfl, fun pn => ?_⟩
  obtain ⟨⟨h1, h2, h3⟩, hstop⟩ := whileLoop_inv _ _ Inv (fun s hs hc => (hbody s hs hc).1) _ _ _ hinit ht
  have hlast : t.2 = rEnd + 1 ∨ rEnd < rStart ∧ t.2 = rStart := by omega
  rw [h3]
  constructor
  · rintro (h | h)
    · exact Or.inl h
    · exact Or.inr ⟨h.1, by omega⟩
  · rintro (h | h)
    · exact Or.inl h
    · exact Or.inr ⟨h.1, by omega⟩

theorem ackRangeLoop_endless (level : TlsLevel) (now : Nat) (w : AckWork) {rStart rEnd : Nat} (hstart : rStart < wordSize)
    (hend : ¬ rEnd + 1 < wordSize) (fuel : Nat) : ackRangeLoop fuel level now w rStart rEnd = none := by
  unfold ackRangeLoop
  rw [whileLoop_diverges _ _ (fun s => s.2 < wordSize)
    (fun s hs => ⟨by have : s.2 < wordSize := hs; omega, add64_lt _ _⟩) fuel (w, rStart) hstart]
  rfl

theorem ackRangeLoop_mono {fuel fuel' : Nat} {level : TlsLevel} {now : Nat} {w w' : AckWork} {rStart rEnd : Nat}
    (h : ackRangeLoop fuel level now w rStart rEnd = some w') (hle : fuel ≤ fuel') :
    ackRangeLoop fuel' level now w rStart rEnd = some w' := by
  unfold ackRangeLoop at h ⊢
  obtain ⟨t, ht, rfl⟩ := Option.map_eq_some_iff.1 h
  rw [whileLoop_mono _ _ _ _ _ ht _ hle]
  rfl

theorem ackRangeLoop_iff (level : TlsLevel) (now : Nat) (w : AckWork) {rStart rEnd largest : Nat} (hstart : rStart < wordSize)
    (hend : rEnd < wordSize) (hlargest : largest < 2 ^ 62) : (∃ fuel w', ackRangeLoop fuel level now w rStart rEnd = some w' ∧
    w'.MarkedBelow largest) ↔ w.MarkedBelow largest ∧ (rEnd < rStart ∨ rEnd ≤ largest) := by
  have hword : (2 : Nat) ^ 62 < wordSize := by decide
  by_cases hlast : rEnd + 1 < wordSize
  · obtain ⟨fuel, w', hw', hmem⟩ := ackRangeLoop_ends level now w rStart hlast
    constructor
    · rintro ⟨fuel₂, w₂, hw₂, hbelow⟩
      have heq : w₂ = w' := by
        have h1 := ackRangeLoop_mono hw' (Nat.le_max_left fuel fuel₂)
        have h2 := ackRangeLoop_mono hw₂ (Nat.le_max_right fuel fuel₂)
        exact Option.some.inj (h2.symm.trans h1)
      rw [heq] at hbelow
      refine ⟨fun pn hpn => hbelow pn ((hmem pn).2 (Or.inl hpn)), ?_⟩
      by_cases hrun : rEnd < rStart
      · exact Or.inl hrun
      · exact Or.inr (hbelow rEnd ((hmem rEnd).2 (Or.inr ⟨by omega, Nat.le_refl _⟩)))
    · rintro ⟨hbelow, hrange⟩
      refine ⟨fuel, w', hw', fun pn hpn => ?_⟩
      rcases (hmem pn).1 hpn with h | ⟨h1, h2⟩
      · exact hbelow pn h
      · omega
  · obtain rfl : rEnd = wordSize - 1 := by omega
    constructor
    · rintro ⟨fuel, w', hw', -⟩
      rw [ackRangeLoop_endless level now w hstart hlast] at hw'
      cases hw'
    · rintro ⟨-, hrange⟩
      omega

/-! ## All ranges -/

theorem ackRangesLoop_mono : ∀ (rs : List (Nat × Nat)) {fuel fuel' : Nat} {level : TlsLevel} {now : Nat} {w w' : AckWork}
    {prev : Nat}, ackRangesLoop fuel level now w prev rs = some w' → fuel ≤ fuel' →
      ackRangesLoop fuel' level now w prev rs = some w'
  | [], _, _, _, _, _, _, _, h, _ => h
  | (gap, ackRange) :: rs, fuel, fuel', level, now, w, w', prev, h, hle => by
    unfold ackRangesLoop at h ⊢
    dsimp only at h ⊢
    obtain ⟨w₁, h₁, h₂⟩ := Option.bind_eq_some_iff.1 h
    rw [ackRangeLoop_mono h₁ hle]
    exact ackRangesLoop_mono rs h₂ hle

theorem ackRange_cast {prevMin : Nat} (gap ackRange : Nat) {prev : Int} (hprev : (prevMin : Int) = prev % 2 ^ 64) :
    ((sub64 (sub64 prevMin gap) 2 : Nat) : Int) = (prev - gap - 2) % 2 ^ 64 ∧
    ((sub64 (sub64 (sub64 prevMin gap) 2) ackRange : Nat) : Int) = (prev - gap - 2 - ackRange) % 2 ^ 64 := by
  have hword : (wordSize : Int) = 2 ^ 64 := rfl
  have htop : ((sub64 (sub64 prevMin gap) 2 : Nat) : Int) = (prev - gap - 2) % 2 ^ 64 := by
    rw [sub64_cast, sub64_cast, hprev, hword]
    omega
  refine ⟨htop, ?_⟩
  rw [sub64_cast, htop, hword]
  omega

theorem ackRangesLoop_iff (level : TlsLevel) (now : Nat) {largest : Nat} (hlargest : largest < 2 ^ 62) :
    ∀ (rs : List (Nat × Nat)) (w : AckWork) {prevMin : Nat} {prev : Int}, (prevMin : Int) = prev % 2 ^ 64 →
      (∀ r ∈ rs, r.1 < 2 ^ 62 ∧ r.2 < 2 ^ 62) →
        ((∃ fuel w', ackRangesLoop fuel level now w prevMin rs = some w' ∧ w'.MarkedBelow largest) ↔
          w.MarkedBelow largest ∧ RangesBelow largest prev rs)
  | [], w, prevMin, prev, _, _ => by
    constructor
    · rintro ⟨fuel, w', hw', hbelow⟩
      cases hw'
      exact ⟨hbelow, trivial⟩
    · rintro ⟨hbelow, -⟩
      exact ⟨0, w, rfl, hbelow⟩
  | (gap, ackRange) :: rs, w, prevMin, prev, hprev, hlt => by
    obtain ⟨htop, hbottom⟩ := ackRange_cast gap ackRange hprev
    have har : ackRange < 2 ^ 62 := (hlt _ List.mem_cons_self).2
    have hrest : ∀ r ∈ rs, r.1 < 2 ^ 62 ∧ r.2 < 2 ^ 62 := fun r hr => hlt r (List.mem_cons_of_mem _ hr)
    generalize hrEnd : sub64 (sub64 prevMin gap) 2 = rEnd at htop hbottom
    generalize hrStart : sub64 rEnd ackRange = rStart at hbottom
    have hstart : rStart < wordSize := by rw [← hrStart]; exact sub64_lt _ _
    have hend : rEnd < wordSize := by rw [← hrEnd]; exact sub64_lt _ _
    have hone := fun w => ackRangeLoop_iff level now w hstart hend hlargest
    have hrange : rEnd < rStart ∨ rEnd ≤ largest ↔
        (prev - gap - 2 - ackRange) / 2 ^ 64 < (prev - gap - 2) / 2 ^ 64 ∨ (prev - gap - 2) % 2 ^ 64 ≤ largest := by
      omega
    have hunfold : ∀ fuel, ackRangesLoop fuel level now w prevMin ((gap, ackRange) :: rs) =
        (ackRangeLoop fuel level now w rStart rEnd).bind fun w => ackRangesLoop fuel level now w rStart rs := by
      intro fuel
      rw [← hrStart, ← hrEnd]
      rfl
    rw [RangesBelow, ← hrange]
    constructor
    · rintro ⟨fuel, w', hw', hbelow⟩
      rw [hunfold] at hw'
      obtain ⟨w₁, h₁, h₂⟩ := Option.bind_eq_some_iff.1 hw'
      obtain ⟨hbelow₁, hranges⟩ := (ackRangesLoop_iff level now hlargest rs w₁ hbottom hrest).1 ⟨fuel, w', h₂, hbelow⟩
      obtain ⟨hbelow₀, hhere⟩ := (hone w).1 ⟨fuel, w₁, h₁, hbelow₁⟩
      exact ⟨hbelow₀, hhere, hranges⟩
    · rintro ⟨hbelow₀, hhere, hranges⟩
      obtain ⟨fuel₁, w₁, h₁, hbelow₁⟩ := (hone w).2 ⟨hbelow₀, hhere⟩
      obtain ⟨fuel₂, w', h₂, hbelow⟩ := (ackRangesLoop_iff level now hlargest rs w₁ hbottom hrest).2 ⟨hbelow₁, hranges⟩
      refine ⟨max fuel₁ fuel₂, w', ?_, hbelow⟩
      rw [hunfold, ackRangeLoop_mono h₁ (Nat.le_max_left _ _)]
      exact ackRangesLoop_mono rs h₂ (Nat.le_max_right _ _)

/-! ## A frame -/

/-- `process_ack_ranges` ends, and has marked no packet number above the largest one of the frame. -/
def AckProcessed (ctx : QuicRecoveryCtx) (ack : QuicAckFrame) (now : Nat) (level : TlsLevel) : Prop :=
  ∃ fuel w, processAckRanges fuel ctx ack now level = some w ∧ w.MarkedBelow ack.largestAcknowledged

theorem ackProcessed_iff {ack : QuicAckFrame} (hok : AckFrameOk ack) (ctx : QuicRecoveryCtx) (now : Nat) (level : TlsLevel) :
    AckProcessed ctx ack now level ↔ RangesBelow ack.largestAcknowledged (ack.largestAcknowledged - ack.firstAckRange)
    ack.ranges := by
  obtain ⟨hlargest, hfirst, hranges, -⟩ := hok
  have hword : (wordSize : Int) = 2 ^ 64 := rfl
  have hprev : ((sub64 ack.largestAcknowledged ack.firstAckRange : Nat) : Int) =
      ((ack.largestAcknowledged : Int) - ack.firstAckRange) % 2 ^ 64 := by rw [sub64_cast, hword]
  have hlt : ack.largestAcknowledged < wordSize := Nat.lt_trans hlargest (by decide)
  unfold AckProcessed processAckRanges
  dsimp only
  generalize ({ ctx with largestAckedPn := _ } : QuicRecoveryCtx) = ctx'
  generalize sub64 ack.largestAcknowledged ack.firstAckRange = rangeStart at hprev ⊢
  have hstart : rangeStart < wordSize := by
    have : (rangeStart : Int) < wordSize := by rw [hprev, hword]; omega
    omega
  have hone := fun w => ackRangeLoop_iff level now w hstart hlt hlargest
  have hall := fun w => ackRangesLoop_iff level now hlargest ack.ranges w hprev hranges
  constructor
  · rintro ⟨fuel, w', hw', hbelow⟩
    obtain ⟨w₁, h₁, h₂⟩ := Option.bind_eq_some_iff.1 hw'
    exact ((hall w₁).1 ⟨fuel, w', h₂, hbelow⟩).2
  · intro h
    obtain ⟨fuel₁, w₁, h₁, hbelow₁⟩ := (hone { ctx := ctx' }).2
      ⟨fun pn hpn => absurd hpn List.not_mem_nil, Or.inr (Nat.le_refl _)⟩
    obtain ⟨fuel₂, w', h₂, hbelow⟩ := (hall w₁).2 ⟨hbelow₁, h⟩
    refine ⟨max fuel₁ fuel₂, w', ?_, hbelow⟩
    rw [ackRangeLoop_mono h₁ (Nat.le_max_left _ _)]
    exact ackRangesLoop_mono _ h₂ (Nat.le_max_right _ _)

/-- **A parsed ACK frame is processed to its end, with no packet number marked above its largest one, exactly when its
ranges stay below it**: every range that runs after wrap-around ends at or below the largest number. -/
theorem ack_processed_iff (data : List Byte) (ack : QuicAckFrame) (n : Nat) (hparse : quicFrameParseAck data = some (ack, n))
    (ctx : QuicRecoveryCtx) (now : Nat) (level : TlsLevel) : AckProcessed ctx ack now level ↔ RangesBelow ack.largestAcknowledged
    (ack.largestAcknowledged - ack.firstAckRange) ack.ranges :=
  ackProcessed_iff (quicFrameParseAck_ok hparse) ctx now level

theorem ack_processed_iff_twoRanges :
    AckProcessed {} ⟨5, 0, 1, [(0, 1)]⟩ 0 .application ↔ RangesBelow 5 ((5 : Nat) - (1 : Nat)) [(0, 1)] :=
  ack_processed_iff [0x02, 5, 0, 1, 1, 0, 1] ⟨5, 0, 1, [(0, 1)]⟩ 7 (by decide) {} 0 .application

/-- **A frame the parser takes that is never processed to its end**: its second range is at `-1`, which is
`2^64 - 1`. -/
theorem ack_never_processed : ¬ ∀ (data : List Byte) (ack : QuicAckFrame) (n : Nat), quicFrameParseAck data = some (ack, n) →
    ∀ (ctx : QuicRecoveryCtx) (now : Nat) (level : TlsLevel), AckProcessed ctx ack now level := by
  intro hall
  have hparse : quicFrameParseAck [0x02, 1, 0, 1, 0, 0, 0] = some (⟨1, 0, 0, [(0, 0)]⟩, 7) := by decide
  have h := (ackProcessed_iff (quicFrameParseAck_ok hparse) {} 0 .application).1 (hall _ _ _ hparse {} 0 .application)
  obtain ⟨h | h, -⟩ := h
  · exact absurd h (by decide)
  · exact absurd h (by decide)

/-! ## The walk over the numbers of a frame -/

/-- `mark_pn_acked` for one number after another. -/
def markWalk (level : TlsLevel) (now : Nat) (w : AckWork) (pns : List Nat) : AckWork :=
  pns.foldl (fun w pn => markPnAcked w pn level now) w

theorem markWalk_append (level : TlsLevel) (now : Nat) (w : AckWork) (pns pns' : List Nat) :
    markWalk level now w (pns ++ pns') = markWalk level now (markWalk level now w pns) pns' := List.foldl_append

def ackWalkRanges : Nat → List (Nat × Nat) → List Nat
  | _, [] => []
  | prevRangeMin, (gap, ackRange) :: rs =>
    let rEnd := sub64 (sub64 prevRangeMin gap) 2
    let rStart := sub64 rEnd ackRange
    List.range' rStart (rEnd + 1 - rStart) ++ ackWalkRanges rStart rs

def ackWalk (ack : QuicAckFrame) : List Nat :=
  let rangeStart := sub64 ack.largestAcknowledged ack.firstAckRange
  List.range' rangeStart (ack.largestAcknowledged + 1 - rangeStart) ++ ackWalkRanges rangeStart ack.ranges

def RangesEndFrom : Nat → List (Nat × Nat) → Prop
  | _, [] => True
  | prevRangeMin, (gap, ackRange) :: rs =>
    let rEnd := sub64 (sub64 prevRangeMin gap) 2
    rEnd + 1 < wordSize ∧ RangesEndFrom (sub64 rEnd ackRange) rs

def RangesEnd (ack : QuicAckFrame) : Prop :=
  ack.largestAcknowledged + 1 < wordSize ∧ RangesEndFrom (sub64 ack.largestAcknowledged ack.firstAckRange) ack.ranges

theorem ackRangeLoop_walk (level : TlsLevel) (now : Nat) {rEnd : Nat} (hend : rEnd + 1 < wordSize) (rStart : Nat) (w : AckWork) :
    ∃ fuel, ackRangeLoop fuel level now w rStart rEnd = some (markWalk level now w (List.range' rStart (rEnd + 1 - rStart))) := by
  generalize hn : rEnd + 1 - rStart = n
  refine ⟨n + 1, ?_⟩
  induction n generalizing rStart w with
  | zero =>
    have hstop : ¬ rStart ≤ rEnd := by omega
    unfold ackRangeLoop whileLoop
    rw [if_neg hstop]
    rfl
  | succ n ih =>
    have hrun : rStart ≤ rEnd := by omega
    have hnext : add64 rStart 1 = rStart + 1 := Nat.mod_eq_of_lt (by omega)
    rw [List.range'_succ]
    refine Eq.trans ?_ (ih (rStart + 1) (markPnAcked w rStart level now) (by omega))
    unfold ackRangeLoop
    rw [whileLoop, if_pos hrun, hnext]

theorem ackRangesLoop_walk (level : TlsLevel) (now : Nat) : ∀ (rs : List (Nat × Nat)) (w : AckWork) (prev : Nat),
    RangesEndFrom prev rs → ∃ fuel, ackRangesLoop fuel level now w prev rs = some (markWalk level now w (ackWalkRanges prev rs))
  | [], w, _, _ => ⟨0, rfl⟩
  | (gap, ackRange) :: rs, w, prev, hends => by
    obtain ⟨hend, hrest⟩ := hends
    unfold ackRangesLoop ackWalkRanges
    dsimp only
    rw [markWalk_append]
    obtain ⟨fuel₁, hone⟩ := ackRangeLoop_walk level now hend (sub64 (sub64 (sub64 prev gap) 2) ackRange) w
    generalize markWalk level now w (List.range' _ _) = w₁ at hone ⊢
    obtain ⟨fuel, hall⟩ := ackRangesLoop_walk level now rs w₁ _ hrest
    refine ⟨max fuel₁ fuel, ?_⟩
    rw [ackRangeLoop_mono hone (Nat.le_max_left _ _)]
    exact ackRangesLoop_mono rs hall (Nat.le_max_right _ _)

theorem ackRangesLoop_ends (level : TlsLevel) (now fuel : Nat) : ∀ (rs : List (Nat × Nat)) {w w' : AckWork} {prev : Nat},
    ackRangesLoop fuel level now w prev rs = some w' → RangesEndFrom prev rs
  | [], _, _, _, _ => trivial
  | (gap, ackRange) :: rs, w, w', prev, h => by
    unfold ackRangesLoop at h
    obtain ⟨w₁, h₁, h₂⟩ := Option.bind_eq_some_iff.1 h
    refine ⟨?_, ackRangesLoop_ends level now fuel rs h₂⟩
    by_contra hend
    rw [ackRangeLoop_endless level now w (sub64_lt _ _) hend] at h₁
    cases h₁

/-- The work `process_ack_ranges` starts with. -/
def ackStart (ctx : QuicRecoveryCtx) (ack : QuicAckFrame) (level : TlsLevel) : AckWork :=
  { ctx := { ctx with
      largestAckedPn := Function.update ctx.largestAckedPn level (max (ctx.largestAckedPn level) ack.largestAcknowledged) } }

theorem processAckRanges_walk (ctx : QuicRecoveryCtx) (ack : QuicAckFrame) (now : Nat) (level : TlsLevel) :
    (∀ fuel w, processAckRanges fuel ctx ack now level = some w → RangesEnd ack) ∧ (RangesEnd ack → ∃ fuel, processAckRanges fuel
    ctx ack now level = some (markWalk level now (ackStart ctx ack level) (ackWalk ack))) := by
  constructor
  · intro fuel w h
    obtain ⟨w₁, h₁, h₂⟩ := Option.bind_eq_some_iff.1 h
    refine ⟨?_, ackRangesLoop_ends level now fuel _ h₂⟩
    by_contra hend
    rw [ackRangeLoop_endless level now _ (sub64_lt _ _) hend] at h₁
    cases h₁
  · rintro ⟨hend, hrest⟩
    unfold processAckRanges ackWalk
    dsimp only
    rw [markWalk_append]
    obtain ⟨fuel₁, hone⟩ := ackRangeLoop_walk level now hend (sub64 ack.largestAcknowledged ack.firstAckRange)
      (ackStart ctx ack level)
    generalize markWalk level now (ackStart ctx ack level) (List.range' _ _) = w₁ at hone ⊢
    obtain ⟨fuel, hall⟩ := ackRangesLoop_walk level now ack.ranges w₁ _ hrest
    refine ⟨max fuel₁ fuel, ?_⟩
    rw [ackStart] at hone
    rw [ackRangeLoop_mono hone (Nat.le_max_left _ _)]
    exact ackRangesLoop_mono _ hall (Nat.le_max_right _ _)

theorem processAckRanges_det {fuel fuel' : Nat} {ctx : QuicRecoveryCtx} {ack : QuicAckFrame} {now : Nat} {level : TlsLevel}
    {w w' : AckWork} (h : processAckRanges fuel ctx ack now level = some w)
    (h' : processAckRanges fuel' ctx ack now level = some w') : w = w' := by
  have hmono : ∀ {f : Nat} {v : AckWork}, processAckRanges f ctx ack now level = some v →
      ∀ {g : Nat}, f ≤ g → processAckRanges g ctx ack now level = some v := by
    intro f v hv g hle
    obtain ⟨w₁, h₁, h₂⟩ := Option.bind_eq_some_iff.1 hv
    unfold processAckRanges
    dsimp only
    rw [ackRangeLoop_mono h₁ hle]
    exact ackRangesLoop_mono _ h₂ hle
  exact Option.some.inj ((hmono h (Nat.le_max_left fuel fuel')).symm.trans (hmono h' (Nat.le_max_right fuel fuel')))

theorem markWalk_marked (level : TlsLevel) (now : Nat) : ∀ (pns : List Nat) (w : AckWork),
    (markWalk level now w pns).marked = w.marked ++ pns
  | [], w => (List.append_nil _).symm
  | pn :: pns, w => by
    show (markWalk level now (markPnAcked w pn level now) pns).marked = _
    rw [markWalk_marked level now pns, markPnAcked_marked, List.append_assoc]
    rfl

end MoqLiveCast
