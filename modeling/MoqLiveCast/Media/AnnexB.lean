import Mathlib.Data.List.Infix
import MoqLiveCast.Media.DataBuffer
import MoqLiveCast.Media.FlvInside
import MoqLiveCast.Media.NalParse
/-!
# AnnexB — units behind start codes, and units behind their lengths (`format/h264_h265_header.cpp`)

A stream of units is cut where its start codes are, which have three bytes or four. `AnnexB2Avcc` cuts behind each code
and ends a unit there too, with the code of the next one in it, so that only the last unit is its own
(`annexB_round_trip`).
-/
namespace MoqLiveCast

open List

open Reading

/-- The start codes from position `p` on: where each begins and where it ends. -/
def startCodes : Nat → List Byte → List (Nat × Nat)
  | p, 0#8 :: 0#8 :: 0#8 :: 1#8 :: rest => (p, p + 4) :: startCodes (p + 4) rest
  | p, 0#8 :: 0#8 :: 1#8 :: rest => (p, p + 3) :: startCodes (p + 3) rest
  | p, _ :: rest => startCodes (p + 1) rest
  | _, [] => []

def cutAt (data : List Byte) : List Nat → List (List Byte)
  | [] => []
  | [p] => [data.drop p]
  | p :: q :: rest => (data.drop p).take (q - p) :: cutAt data (q :: rest)

def packed (size : Nat) (parts : List (List Byte)) : Option DataBuffer := do
  let b ← DataBuffer.make size
  parts.foldlM DataBuffer.appendData b

/-- What it returns and the units; `none` as for `DataBuffer`. -/
def annexB2Nalus (data : List Byte) : Option (Bool × List DataBuffer) :=
  if data.length < 4 then some (false, [])
  else do
    let nalus ← (cutAt data ((startCodes 0 data).map Prod.fst)).mapM fun nalu => packed (nalu.length + 1024) [nalu]
    return (true, nalus)

def annexB2Avcc (data : List Byte) : Option (Bool × List DataBuffer) :=
  if data.length < 4 then some (false, [])
  else do
    let nalus ← (cutAt data ((startCodes 0 data).map Prod.snd)).mapM fun nalu =>
      packed (nalu.length + 1024) [beBytes 4 nalu.length, nalu]
    return (true, nalus)

/-! ## Streams -/

structure NalUnit where
  bytes : List Byte
  ne_nil : bytes ≠ []
  no_code : ¬[0, 0, 1] <:+: bytes
  no_zero : bytes.getLast ne_nil ≠ 0

def codeOf (long : Bool) : List Byte := if long then [0, 0, 0, 1] else [0, 0, 1]

def codedUnit (unit : Bool × NalUnit) : List Byte := codeOf unit.1 ++ unit.2.bytes

def lengthed (unit : List Byte) : List Byte := beBytes 4 unit.length ++ unit

def Contents (buffers : List DataBuffer) (contents : List (List Byte)) : Prop :=
  buffers.map DataBuffer.data = contents.map (fun c => c.map some)

/-- **The conversions are inverse** on a stream of units. -/
def Converts (units : List (Bool × NalUnit)) : Prop :=
  (∃ nalus, annexB2Nalus (units.flatMap codedUnit) = some (true, nalus) ∧ Contents nalus (units.map codedUnit)) ∧
    ∃ nalus, annexB2Avcc (units.flatMap codedUnit) = some (true, nalus) ∧ Contents nalus (units.map fun u => lengthed u.2.bytes) ∧
      ∀ (avcc : List Byte) (beyond : Nat → Byte), nalus.flatMap DataBuffer.data = avcc.map some →
        (avcc2Nalus (BitVec.ofNat 64 avcc.length)).run (blockOf avcc beyond) =
          some (true, units.map fun u => codeOf true ++ u.2.bytes)

/-! ## Where the codes are -/

theorem startCodes_long (p : Nat) (rest : List Byte) : startCodes p (codeOf true ++ rest) = (p, p + 4) :: startCodes (p + 4) rest := rfl

theorem startCodes_short (p : Nat) (rest : List Byte) : startCodes p (codeOf false ++ rest) = (p, p + 3) :: startCodes (p + 3) rest := rfl

theorem startCodes_code (p : Nat) (long : Bool) (rest : List Byte) :
    startCodes p (codeOf long ++ rest) = (p, p + (codeOf long).length) :: startCodes (p + (codeOf long).length) rest := by
  cases long with
  | true => exact startCodes_long p rest
  | false => exact startCodes_short p rest

theorem startCodes_other {x : Byte} {rest : List Byte} (p : Nat) (hlong : ¬[0, 0, 0, 1] <+: x :: rest) (hshort : ¬[0, 0, 1] <+: x :: rest) :
    startCodes p (x :: rest) = startCodes (p + 1) rest := by
  rw [startCodes]
  · rintro tail rfl rfl
    exact hlong ⟨tail, rfl⟩
  · rintro tail rfl rfl
    exact hshort ⟨tail, rfl⟩

theorem not_code {bytes : List Byte} (rest : List Byte) {code : List Byte} (hcode : [0, 0, 1] <:+: code)
    (hzeros : ∀ n < code.length, n ≠ 0 → (code.take n).getLast? = some 0) (hne : bytes ≠ []) (hno : ¬[0, 0, 1] <:+: bytes)
    (hzero : bytes.getLast? ≠ some 0) : ¬code <+: bytes ++ rest := by
  intro hprefix
  rcases prefix_or_prefix_of_prefix hprefix (prefix_append bytes rest) with hin | hin
  · exact hno (hcode.trans hin.isInfix)
  · have htake : bytes = code.take bytes.length := List.prefix_iff_eq_take.1 hin
    rcases Nat.lt_or_ge bytes.length code.length with hlt | hge
    · apply hzero
      rw [htake]
      exact hzeros bytes.length hlt (by simpa using hne)
    · rw [take_of_length_le hge] at htake
      exact hno (htake ▸ hcode)

theorem startCodes_unit (rest : List Byte) : ∀ (bytes : List Byte) (p : Nat), (¬[0, 0, 1] <:+: bytes) → bytes.getLast? ≠ some 0 →
    startCodes p (bytes ++ rest) = startCodes (p + bytes.length) rest
  | [], _, _, _ => rfl
  | x :: bytes, p, hno, hzero => by
    have htail : bytes.getLast? ≠ some 0 := by
      cases bytes with
      | nil => simp
      | cons y l => rwa [getLast?_cons_cons] at hzero
    have hrest := startCodes_unit rest bytes (p + 1) (fun h => hno (h.trans (suffix_cons x bytes).isInfix)) htail
    have hlen : p + (x :: bytes).length = p + 1 + bytes.length := by
      rw [length_cons]
      omega
    rw [cons_append, hlen, ← hrest]
    apply startCodes_other
    · exact not_code rest (by decide) (by decide) (cons_ne_nil x bytes) hno hzero
    · exact not_code rest (by decide) (by decide) (cons_ne_nil x bytes) hno hzero

def codesFrom : Nat → List (Bool × NalUnit) → List (Nat × Nat)
  | _, [] => []
  | p, unit :: units => (p, p + (codeOf unit.1).length) :: codesFrom (p + (codedUnit unit).length) units

theorem startCodes_eq : ∀ (units : List (Bool × NalUnit)) (p : Nat), startCodes p (units.flatMap codedUnit) = codesFrom p units
  | [], _ => rfl
  | unit :: units, p => by
    have hzero : unit.2.bytes.getLast? ≠ some 0 := by
      rw [getLast?_eq_some_getLast unit.2.ne_nil]
      exact fun h => unit.2.no_zero (Option.some.inj h)
    rw [flatMap_cons, codedUnit, append_assoc, startCodes_code, startCodes_unit _ _ _ unit.2.no_code hzero, startCodes_eq]
    have hlen : (codedUnit unit).length = (codeOf unit.1).length + unit.2.bytes.length := length_append
    rw [codesFrom, hlen, Nat.add_assoc]

/-! ## The cuts -/

def beginnings : Nat → List (List Byte) → List Nat
  | _, [] => []
  | p, part :: parts => p :: beginnings (p + part.length) parts

theorem cutAt_beginnings : ∀ (parts : List (List Byte)) (front : List Byte),
    cutAt (front ++ parts.flatten) (beginnings front.length parts) = parts
  | [], _ => rfl
  | [_], front => by
    unfold beginnings beginnings cutAt
    rw [drop_left, flatten_singleton]
  | part :: next :: parts, front => by
    have hrest := cutAt_beginnings (next :: parts) (front ++ part)
    have hfirst : ((front ++ (part :: next :: parts).flatten).drop front.length).take (front.length + part.length - front.length) = part := by
      rw [drop_left, Nat.add_sub_cancel_left, flatten_cons, take_left]
    rw [length_append, append_assoc, ← flatten_cons] at hrest
    exact congrArg₂ List.cons hfirst hrest

theorem beginnings_codes : ∀ (units : List (Bool × NalUnit)) (p : Nat),
    (codesFrom p units).map Prod.fst = beginnings p (units.map codedUnit)
  | [], _ => rfl
  | _ :: units, p => congrArg (List.cons p) (beginnings_codes units _)

def behindCodes : Bool × NalUnit → List (Bool × NalUnit) → List (List Byte)
  | unit, [] => [unit.2.bytes]
  | unit, next :: units => (unit.2.bytes ++ codeOf next.1) :: behindCodes next units

theorem behindCodes_flatten : ∀ (unit : Bool × NalUnit) (units : List (Bool × NalUnit)),
    codeOf unit.1 ++ (behindCodes unit units).flatten = (unit :: units).flatMap codedUnit
  | _, [] => by simp [behindCodes, codedUnit]
  | unit, next :: units => by
    have hrest := behindCodes_flatten next units
    rw [flatMap_cons, ← hrest]
    simp [behindCodes, codedUnit]

theorem ends_codes : ∀ (unit : Bool × NalUnit) (units : List (Bool × NalUnit)) (p : Nat),
    (codesFrom p (unit :: units)).map Prod.snd = beginnings (p + (codeOf unit.1).length) (behindCodes unit units)
  | _, [], _ => rfl
  | unit, next :: units, p => by
    have hrest := ends_codes next units (p + (codedUnit unit).length)
    have hnext : p + (codedUnit unit).length + (codeOf next.1).length =
        p + (codeOf unit.1).length + (unit.2.bytes ++ codeOf next.1).length := by
      unfold codedUnit
      rw [length_append, length_append]
      omega
    rw [hnext] at hrest
    exact congrArg (List.cons (p + (codeOf unit.1).length)) hrest

/-! ## The buffers -/

theorem appendData_kept {b b' : DataBuffer} {q input : List Byte} (h : Holds b q) (hcall : b.appendData input = some b') :
    Holds b' (q ++ input) := by
  by_cases hne : input = []
  · subst hne
    rw [append_nil]
    exact Option.some.inj (hcall.symm.trans (if_pos rfl)) ▸ h
  · by_cases hfit : AppendFits b input.length
    · obtain ⟨b'', hcall', hholds⟩ := (appendData_iff h hne).1 hfit
      exact Option.some.inj (hcall.symm.trans hcall') ▸ hholds
    · have hnone := (appendData_iff h hne).2 hfit
      rw [hcall] at hnone
      exact nomatch hnone

theorem appendData_room {b : DataBuffer} {q : List Byte} (h : Holds b q) (input : List Byte)
    (hroom : b.stop + input.length + PRE_RESERVE_HEADER_SIZE ≤ b.bufferSize) (hint : b.stop + input.length < 2 ^ 31) :
    ∃ b', b.appendData input = some b' ∧ b'.stop = b.stop + input.length ∧ b'.bufferSize = b.bufferSize := by
  by_cases hne : input = []
  · subst hne
    exact ⟨b, if_pos rfl, rfl, rfl⟩
  · have hsize := h.size_le
    have hnot : ¬b.room < b.stop + input.length := by
      unfold DataBuffer.room
      rw [if_neg (by omega)]
      omega
    unfold DataBuffer.appendData
    rw [if_neg hne, if_neg hnot, copyInto_eq (by rw [length_map]; omega)]
    simp only [Option.bind_eq_bind, Option.bind_some]
    rw [show asInt (b.stop + input.length) = some (b.stop + input.length) from if_pos hint]
    exact ⟨_, rfl, rfl, rfl⟩

theorem parts_kept : ∀ (parts : List (List Byte)) {b b' : DataBuffer} {q : List Byte}, Holds b q →
    parts.foldlM DataBuffer.appendData b = some b' → Holds b' (q ++ parts.flatten)
  | [], b, b', q, h, hcall => by
    rw [foldlM_nil] at hcall
    rw [flatten_nil, append_nil]
    exact Option.some.inj hcall ▸ h
  | part :: parts, b, b', q, h, hcall => by
    rw [foldlM_cons] at hcall
    obtain ⟨mid, hfirst, hrest⟩ := Option.bind_eq_some_iff.1 hcall
    rw [flatten_cons, ← append_assoc]
    exact parts_kept parts (appendData_kept h hfirst) hrest

theorem parts_room : ∀ (parts : List (List Byte)) {b : DataBuffer} {q : List Byte}, Holds b q →
    b.stop + parts.flatten.length + PRE_RESERVE_HEADER_SIZE ≤ b.bufferSize → b.stop + parts.flatten.length < 2 ^ 31 →
      ∃ b', parts.foldlM DataBuffer.appendData b = some b'
  | [], b, _, _, _, _ => ⟨b, rfl⟩
  | part :: parts, b, q, h, hroom, hint => by
    rw [flatten_cons, length_append, ← Nat.add_assoc] at hroom hint
    obtain ⟨mid, hfirst, hstop, hsize⟩ := appendData_room h part (by omega) (by omega)
    rw [foldlM_cons, hfirst, Option.bind_eq_bind, Option.bind_some]
    exact parts_room parts (appendData_kept h hfirst) (by omega) (by omega)

theorem packed_data {size : Nat} {parts : List (List Byte)} {b : DataBuffer} (hcall : packed size parts = some b) :
    b.data = parts.flatten.map some := by
  obtain ⟨fresh, hfresh, hparts⟩ := Option.bind_eq_some_iff.1 hcall
  have hsize : size + PRE_RESERVE_HEADER_SIZE < 2 ^ 64 := by
    by_contra hnot
    rw [DataBuffer.make, if_neg hnot] at hfresh
    exact nomatch hfresh
  obtain ⟨b', hmake, hholds⟩ := make_holds hsize
  obtain rfl : b' = fresh := Option.some.inj (hmake.symm.trans hfresh)
  exact (parts_kept parts hholds hparts).data

theorem packed_some (size : Nat) (parts : List (List Byte)) (hroom : parts.flatten.length + 400 ≤ size) (hint : size < 2 ^ 31) :
    ∃ b, packed size parts = some b := by
  have hhead : PRE_RESERVE_HEADER_SIZE = 200 := rfl
  have hsize : size + PRE_RESERVE_HEADER_SIZE < 2 ^ 64 := by omega
  obtain ⟨b, hmake, hholds⟩ := make_holds hsize
  have hb : b.stop = 200 ∧ b.bufferSize = size := by
    rw [DataBuffer.make, if_pos hsize] at hmake
    exact Option.some.inj hmake ▸ ⟨rfl, rfl⟩
  obtain ⟨b', hparts⟩ := parts_room parts hholds (by omega) (by omega)
  exact ⟨b', Option.bind_eq_some_iff.2 ⟨b, hmake, hparts⟩⟩

theorem mapM_contents {f : List Byte → Option DataBuffer} {g : List Byte → List Byte} (hdata : ∀ x b, f x = some b → b.data = (g x).map some) :
    ∀ {xs : List (List Byte)} {bs : List DataBuffer}, xs.mapM f = some bs → Contents bs (xs.map g)
  | [], bs, hcall => by
    rw [mapM_nil] at hcall
    exact Option.some.inj hcall ▸ rfl
  | x :: xs, bs, hcall => by
    rw [mapM_cons] at hcall
    obtain ⟨b, hb, hcall⟩ := Option.bind_eq_some_iff.1 hcall
    obtain ⟨rest, hrest, hbs⟩ := Option.bind_eq_some_iff.1 hcall
    obtain rfl : b :: rest = bs := Option.some.inj hbs
    exact congrArg₂ List.cons (hdata x b hb) (mapM_contents hdata hrest)

theorem appendNew_int {b b' : DataBuffer} {input : List Byte} (hcall : b.appendNew input = some b') : input.length < 2 ^ 31 := by
  unfold DataBuffer.appendNew at hcall
  obtain ⟨len, hlen, -⟩ := Option.bind_eq_some_iff.1 hcall
  unfold asInt at hlen
  split at hlen
  · omega
  · exact nomatch hlen

theorem appendDown_int {b b' : DataBuffer} {input : List Byte} (hcall : b.appendDown input = some b') : input.length < 2 ^ 31 := by
  unfold DataBuffer.appendDown at hcall
  split at hcall
  · exact nomatch hcall
  · obtain ⟨_, -, hcall⟩ := Option.bind_eq_some_iff.1 hcall
    obtain ⟨_, -, hcall⟩ := Option.bind_eq_some_iff.1 hcall
    obtain ⟨stop, hstop, -⟩ := Option.bind_eq_some_iff.1 hcall
    unfold asInt at hstop
    split at hstop
    · omega
    · exact nomatch hstop

theorem appendData_int {b b' : DataBuffer} {input : List Byte} (hcall : b.appendData input = some b') : input.length < 2 ^ 31 := by
  unfold DataBuffer.appendData at hcall
  by_cases hne : input = []
  · subst hne
    decide
  · rw [if_neg hne] at hcall
    split at hcall
    · split at hcall
      · exact appendNew_int hcall
      · exact appendDown_int hcall
    · obtain ⟨_, -, hcall⟩ := Option.bind_eq_some_iff.1 hcall
      obtain ⟨stop, hstop, -⟩ := Option.bind_eq_some_iff.1 hcall
      unfold asInt at hstop
      split at hstop
      · omega
      · exact nomatch hstop

theorem parts_int : ∀ (parts : List (List Byte)) {b b' : DataBuffer}, parts.foldlM DataBuffer.appendData b = some b' →
    ∀ part ∈ parts, part.length < 2 ^ 31
  | [], _, _, _ => fun _ hmem => nomatch hmem
  | part :: parts, b, b', hcall => by
    rw [foldlM_cons] at hcall
    obtain ⟨mid, hfirst, hrest⟩ := Option.bind_eq_some_iff.1 hcall
    rw [forall_mem_cons]
    exact ⟨appendData_int hfirst, parts_int parts hrest⟩

theorem packed_int {size : Nat} {parts : List (List Byte)} {b : DataBuffer} (hcall : packed size parts = some b) :
    ∀ part ∈ parts, part.length < 2 ^ 31 := by
  obtain ⟨fresh, -, hparts⟩ := Option.bind_eq_some_iff.1 hcall
  exact parts_int parts hparts

/-! ## The conversions -/

theorem codeOf_length (long : Bool) : 3 ≤ (codeOf long).length ∧ (codeOf long).length ≤ 4 := by
  cases long <;> decide

theorem stream_length (unit : Bool × NalUnit) (units : List (Bool × NalUnit)) : ¬((unit :: units).flatMap codedUnit).length < 4 := by
  have hcode := codeOf_length unit.1
  have hbytes := List.length_pos_iff.2 unit.2.ne_nil
  rw [flatMap_cons, codedUnit, length_append, length_append]
  omega

theorem annexB2Nalus_eq (unit : Bool × NalUnit) (units : List (Bool × NalUnit)) :
    annexB2Nalus ((unit :: units).flatMap codedUnit) =
      (((unit :: units).map codedUnit).mapM fun nalu => packed (nalu.length + 1024) [nalu]).map fun nalus => (true, nalus) := by
  have hcut := cutAt_beginnings ((unit :: units).map codedUnit) []
  unfold annexB2Nalus
  rw [if_neg (stream_length unit units), startCodes_eq, beginnings_codes]
  rw [nil_append, ← flatMap_def] at hcut
  rw [show (0 : Nat) = ([] : List Byte).length from rfl, hcut]
  exact (Option.map_eq_bind ..).symm

theorem annexB2Avcc_eq (unit : Bool × NalUnit) (units : List (Bool × NalUnit)) : annexB2Avcc ((unit :: units).flatMap codedUnit) =
      ((behindCodes unit units).mapM fun nalu => packed (nalu.length + 1024) [beBytes 4 nalu.length, nalu]).map
        fun nalus => (true, nalus) := by
  have hcut := cutAt_beginnings (behindCodes unit units) (codeOf unit.1)
  unfold annexB2Avcc
  rw [if_neg (stream_length unit units), startCodes_eq, ends_codes, Nat.zero_add]
  rw [behindCodes_flatten] at hcut
  rw [hcut]
  exact (Option.map_eq_bind ..).symm

theorem annexB2Avcc_some {unit : Bool × NalUnit} {units : List (Bool × NalUnit)} {nalus : List DataBuffer}
    (hcall : annexB2Avcc ((unit :: units).flatMap codedUnit) = some (true, nalus)) :
    (behindCodes unit units).mapM (fun nalu => packed (nalu.length + 1024) [beBytes 4 nalu.length, nalu]) = some nalus := by
  rw [annexB2Avcc_eq] at hcall
  obtain ⟨nalus', hpacked, heq⟩ := Option.map_eq_some_iff.1 hcall
  obtain rfl : nalus' = nalus := (Prod.mk.inj heq).2
  exact hpacked

theorem slice_block {body : List Byte} (beyond : Nat → Byte) {i n : Nat} (hin : i + n ≤ body.length) :
    slice (blockOf body beyond) i n = (body.drop i).take n := by
  apply ext_getElem?
  intro k
  rw [slice_getElem?, List.getElem?_take, List.getElem?_drop]
  by_cases hk : k < n
  · rw [if_pos hk, if_pos hk, blockOf, List.getElem?_eq_getElem (by omega), Option.getD_some]
  · rw [if_neg hk, if_neg hk]

theorem avcc2Nalus_lengthed {unit : List Byte} (hint : unit.length < 2 ^ 31) (beyond : Nat → Byte) : (avcc2Nalus (BitVec.ofNat 64
    (lengthed unit).length)).run (blockOf (lengthed unit) beyond) = some (if kMaxLen < unit.length then (false, []) else (true,
    [codeOf true ++ unit])) := by
  have hlen : (lengthed unit).length = 4 + unit.length := by
    rw [lengthed, length_append, beBytes_length]
  have hnat : (BitVec.ofNat 64 (lengthed unit).length).toNat = 4 + unit.length := by
    rw [BitVec.toNat_ofNat, Nat.mod_eq_of_lt (by omega), hlen]
  have hdata : (BitVec.ofNat 64 (lengthed unit).length).toInt = (4 + unit.length : Nat) := by
    rw [BitVec.toInt_eq_toNat_cond, hnat, if_pos (by omega)]
  have hfront : slice (blockOf (lengthed unit) beyond) 0 4 = beBytes 4 unit.length := by
    rw [slice_block beyond (by omega), drop_zero, lengthed, take_left' (beBytes_length 4 _)]
  have hbody : slice (blockOf (lengthed unit) beyond) 4 unit.length = unit := by
    rw [slice_block beyond (by omega), lengthed, drop_left' (beBytes_length 4 _), take_length]
  have hnumber : readNBytes (beBytes 4 unit.length) = unit.length := by
    rw [readNBytes_beBytes]
    omega
  unfold avcc2Nalus
  rw [hnat, hdata, if_neg (by omega), show 4 + unit.length = unit.length + 2 + 1 + 1 from by omega, avccLoop, if_neg (by omega), run_bind,
    run_readNumber, hfront, hnumber]
  by_cases hlarge : kMaxLen < unit.length
  · rw [if_pos hlarge, if_pos hlarge]
    rfl
  · rw [if_neg hlarge, if_neg hlarge, run_bind, run_cells, hbody, avccLoop, if_pos (by omega)]
    rfl

theorem converts_single {unit : Bool × NalUnit} (hlen : unit.2.bytes.length ≤ kMaxLen) : Converts [unit] := by
  have hmax : kMaxLen = 10000000 := rfl
  have hcode := codeOf_length unit.1
  have hcoded : (codedUnit unit).length = (codeOf unit.1).length + unit.2.bytes.length := length_append
  obtain ⟨b, hb⟩ := packed_some ((codedUnit unit).length + 1024) [codedUnit unit] (by rw [flatten_singleton]; omega) (by omega)
  have hparts : [beBytes 4 unit.2.bytes.length, unit.2.bytes].flatten = lengthed unit.2.bytes := by simp [lengthed]
  have hlengthed : (lengthed unit.2.bytes).length = 4 + unit.2.bytes.length := by
    rw [lengthed, length_append, beBytes_length]
  obtain ⟨c, hc⟩ := packed_some (unit.2.bytes.length + 1024) [beBytes 4 unit.2.bytes.length, unit.2.bytes]
    (by rw [hparts]; omega) (by omega)
  have hdata : c.data = (lengthed unit.2.bytes).map some := by rw [packed_data hc, hparts]
  refine ⟨⟨[b], ?_, ?_⟩, [c], ?_, ?_, fun avcc beyond havcc => ?_⟩
  · rw [annexB2Nalus_eq]
    simp [hb]
  · have hcontent := packed_data hb
    rw [flatten_singleton] at hcontent
    exact congrArg (fun d => [d]) hcontent
  · rw [annexB2Avcc_eq]
    simp [behindCodes, hc]
  · exact congrArg (fun d => [d]) hdata
  · rw [flatMap_singleton, hdata] at havcc
    obtain rfl := List.map_injective_iff.2 (fun _ _ h => Option.some.inj h) havcc
    rw [avcc2Nalus_lengthed (by omega), if_neg (Nat.not_lt.2 hlen)]
    rfl

/-- **Annex B and AVCC are converted there and back exactly for a unit on its own**, of 10,000,000 bytes at most.

A known deviation: each unit but the last takes the start code of the next one with it. -/
theorem annexB_round_trip (units : List (Bool × NalUnit)) :
    Converts units ↔ ∃ unit, units = [unit] ∧ unit.2.bytes.length ≤ kMaxLen := by
  constructor
  · rintro ⟨⟨nalus, hnalus, -⟩, bufs, hbufs, hcontents, havcc⟩
    match units with
    | [] => exact nomatch hnalus
    | unit :: next :: units =>
      have hcuts : Contents bufs ((behindCodes unit (next :: units)).map lengthed) :=
        mapM_contents (fun x b hb => by rw [packed_data hb]; simp [lengthed]) (annexB2Avcc_some hbufs)
      have hheads := congrArg List.head? (hcuts.symm.trans hcontents)
      have hlens := congrArg List.length (Option.some.inj hheads)
      have hcode := codeOf_length next.1
      simp only [length_map, lengthed, length_append, beBytes_length] at hlens
      omega
    | [unit] =>
      refine ⟨unit, rfl, ?_⟩
      have hint : unit.2.bytes.length < 2 ^ 31 := by
        have hbs := annexB2Avcc_some hbufs
        rw [behindCodes, mapM_cons] at hbs
        obtain ⟨b, hb, -⟩ := Option.bind_eq_some_iff.1 hbs
        exact packed_int hb unit.2.bytes (by simp)
      have hback := havcc (lengthed unit.2.bytes) (fun _ => 0) (by
        have hcontents' : bufs.map DataBuffer.data = [(lengthed unit.2.bytes).map some] := hcontents
        rw [flatMap_def, hcontents', flatten_singleton])
      rw [avcc2Nalus_lengthed hint] at hback
      by_contra hlarge
      rw [if_pos (by omega)] at hback
      exact nomatch hback
  · rintro ⟨unit, rfl, hlen⟩
    exact converts_single hlen

theorem next_code_taken : ¬∀ units : List (Bool × NalUnit), units ≠ [] → Converts units := by
  intro hall
  have hconverts := hall [(true, ⟨[0x67], by decide, by decide, by decide⟩), (false, ⟨[0x68], by decide, by decide, by decide⟩)] (by simp)
  obtain ⟨unit, hunit, -⟩ := (annexB_round_trip _).1 hconverts
  exact nomatch hunit

end MoqLiveCast
