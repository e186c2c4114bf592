import Mathlib.Algebra.Ring.Int.Defs
import MoqLiveCast.Quic.Varint
/-!
# AckFrame — the ACK frame and its parser (`quic_frame_parse_ack`)

The arrays `gap` and `ack_range` and their count are one list of pairs.
-/
namespace MoqLiveCast

def QUIC_ACK_MAX_RANGES : Nat := 32
def QUIC_FRAME_ACK : Byte := 0x02
def QUIC_FRAME_ACK_ECN : Byte := 0x03

structure QuicAckFrame where
  largestAcknowledged : Nat
  ackDelay : Nat
  firstAckRange : Nat
  /-- `(gap[i], ack_range[i])` for `i < num_ranges` -/
  ranges : List (Nat × Nat)
deriving DecidableEq

/-- The `n` pairs of gap and range that follow. -/
def parseAckRanges : Nat → List Byte → Option (List (Nat × Nat) × List Byte)
  | 0, data => some ([], data)
  | n + 1, data =>
    (readVarint data).bind fun (gap, data) =>
      (readVarint data).bind fun (ar, data) =>
        (parseAckRanges n data).map fun (rs, data) => ((gap, ar) :: rs, data)

/-- Step over `n` values: the three ECN counts. -/
def skipVarints : Nat → List Byte → Option (List Byte)
  | 0, data => some data
  | n + 1, data => (readVarint data).bind fun (_, data) => skipVarints n data

/-- The frame and the bytes it takes.  All the pairs are parsed, the first `QUIC_ACK_MAX_RANGES` are kept. -/
def quicFrameParseAck (data : List Byte) : Option (QuicAckFrame × Nat) :=
  match data with
  | [] => none
  | type :: rest =>
    if type ≠ QUIC_FRAME_ACK ∧ type ≠ QUIC_FRAME_ACK_ECN then none
    else
      (readVarint rest).bind fun (largest, rest) =>
        (readVarint rest).bind fun (delay, rest) =>
          (readVarint rest).bind fun (rangeCount, rest) =>
            if rest.length < rangeCount then none
            else
              (readVarint rest).bind fun (first, rest) =>
                (parseAckRanges rangeCount rest).bind fun (ranges, rest) =>
                  (if type = QUIC_FRAME_ACK_ECN then skipVarints 3 rest else some rest).map fun rest =>
                    (⟨largest, delay, first, ranges.take QUIC_ACK_MAX_RANGES⟩, data.length - rest.length)

/-- What the parser says of a frame: every value is a varint, and there are at most 32 ranges. -/
structure AckFrameOk (ack : QuicAckFrame) : Prop where
  largest_lt : ack.largestAcknowledged < 2 ^ 62
  first_lt : ack.firstAckRange < 2 ^ 62
  ranges_lt : ∀ r ∈ ack.ranges, r.1 < 2 ^ 62 ∧ r.2 < 2 ^ 62
  ranges_length : ack.ranges.length ≤ QUIC_ACK_MAX_RANGES

theorem parseAckRanges_lt : ∀ (n : Nat) (data rest : List Byte) (rs : List (Nat × Nat)),
    parseAckRanges n data = some (rs, rest) → ∀ r ∈ rs, r.1 < 2 ^ 62 ∧ r.2 < 2 ^ 62
  | 0, _, _, _, h => by
    simp only [parseAckRanges, Option.some.injEq, Prod.mk.injEq] at h
    rw [← h.1]
    exact fun _ hr => absurd hr List.not_mem_nil
  | n + 1, data, rest, rs, h => by
    unfold parseAckRanges at h
    obtain ⟨⟨gap, data1⟩, hgap, h⟩ := Option.bind_eq_some_iff.1 h
    obtain ⟨⟨ar, data2⟩, har, h⟩ := Option.bind_eq_some_iff.1 h
    obtain ⟨⟨rs', data3⟩, hrs, h⟩ := Option.map_eq_some_iff.1 h
    simp only [Prod.mk.injEq] at h
    rw [← h.1]
    intro r hr
    rcases List.mem_cons.1 hr with rfl | hr
    · exact ⟨readVarint_lt hgap, readVarint_lt har⟩
    · exact parseAckRanges_lt n data2 data3 rs' hrs r hr

theorem quicFrameParseAck_ok {data : List Byte} {ack : QuicAckFrame} {n : Nat}
    (h : quicFrameParseAck data = some (ack, n)) : AckFrameOk ack := by
  unfold quicFrameParseAck at h
  split at h
  · cases h
  · split at h
    · cases h
    · obtain ⟨⟨largest, rest1⟩, hlargest, h⟩ := Option.bind_eq_some_iff.1 h
      obtain ⟨⟨delay, rest2⟩, -, h⟩ := Option.bind_eq_some_iff.1 h
      obtain ⟨⟨rangeCount, rest3⟩, -, h⟩ := Option.bind_eq_some_iff.1 h
      dsimp only at h
      split at h
      · cases h
      · obtain ⟨⟨first, rest4⟩, hfirst, h⟩ := Option.bind_eq_some_iff.1 h
        obtain ⟨⟨ranges, rest5⟩, hranges, h⟩ := Option.bind_eq_some_iff.1 h
        obtain ⟨rest6, -, h⟩ := Option.map_eq_some_iff.1 h
        simp only [Prod.mk.injEq] at h
        rw [← h.1]
        refine ⟨readVarint_lt hlargest, readVarint_lt hfirst, fun r hr => ?_, ?_⟩
        · exact parseAckRanges_lt _ _ _ _ hranges r (List.mem_of_mem_take hr)
        · exact List.length_take_le _ _

end MoqLiveCast
