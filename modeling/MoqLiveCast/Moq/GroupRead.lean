import MoqLiveCast.Moq.GroupWire
import MoqLiveCast.Moq.LiteTracks
import MoqLiveCast.Moq.LiteStreams
/-!
# GroupRead — a group's stream at the other end (`ParseGroupStream`, `OnMediaFrame`)

A stream that is the type, a header, and frames is taken piece by piece for what it is, however it arrives
(`group_awaited`): what `OnMediaFrame` gets are the first of its payloads, each with the sum of the differences up to it.
-/
namespace MoqLiveCast

open List

/-! ## Frames -/

/-- A frame of a group's stream: its difference in time, and its payload. -/
structure LineFrame where
  diff : BitVec 64
  payload : List Byte

namespace LineFrame

def zigzag (f : LineFrame) : BitVec 64 := (f.diff <<< 1) ^^^ f.diff.sshiftRight 63

def bytes (f : LineFrame) : List Byte := frameOnWire f.zigzag f.payload

/-- The writer takes it; a payload is a buffer, whose length is a `size_t`. -/
structure Fits (f : LineFrame) : Prop where
  diff : ¬(f.diff.slt kMlZigzagMin ∨ kMlZigzagMax.slt f.diff)
  length : ¬kMlVarintMax < BitVec.ofNat 64 f.payload.length
  size : f.payload.length < 2 ^ 64

end LineFrame

def lineBytes (fs : List LineFrame) : List Byte := (fs.map LineFrame.bytes).flatten

def told (acc : BitVec 64) : List LineFrame → List (BitVec 64 × List Byte)
  | [] => []
  | f :: fs => (acc + f.diff, f.payload) :: told (acc + f.diff) fs

def framesGot (out : List LiteAction) : List (BitVec 64 × List Byte) :=
  out.filterMap fun
    | .frame g payload => some (g.tsAcc, payload)
    | _ => none

theorem framesGot_append (out out' : List LiteAction) : framesGot (out ++ out') = framesGot out ++ framesGot out' :=
  filterMap_append

/-! ## Reading -/

theorem mlReadVarint_bytes {v : BitVec 64} (h : ¬kMlVarintMax < v) (pre rest : List Byte) : mlReadVarint (pre ++
    (varintBytes v.toNat ++ rest)) pre.length = ⟨true, pre.length + (varintBytes v.toNat).length, some v⟩ := by
  have hmax : kMlVarintMax.toNat = 2 ^ 62 - 1 := rfl
  have hfits : v.toNat < 2 ^ 62 := by
    rw [BitVec.lt_def, hmax] at h
    omega
  have hpos := length_pos_of_ne_nil (varintBytes_ne_nil v.toNat)
  rw [mlReadVarint, drop_left, quicVarintDecode_varintBytes hfits, if_neg]
  · simp
  · simp only [length_append]
    omega

theorem front_lineFrame {f : LineFrame} (hf : f.Fits) {b rest payload : List Byte} {z : BitVec 64} {size : Nat}
    (hb : b <+: f.bytes ++ rest) (h : frontTyped b = .whole z payload size) :
    z = f.zigzag ∧ payload = f.payload ∧ size = f.bytes.length := by
  obtain ⟨more, hmore⟩ := hb
  have hwhole := frontTyped_append more (b := b) (by simp [h])
  have hlen : (BitVec.ofNat 64 f.payload.length).toNat = f.payload.length := by
    rw [BitVec.toNat_ofNat]
    exact Nat.mod_eq_of_lt hf.size
  have hbytes : f.bytes ++ rest = varintBytes f.zigzag.toNat ++
      (varintBytes (BitVec.ofNat 64 f.payload.length).toNat ++ (f.payload ++ rest)) := by
    simp only [LineFrame.bytes, frameOnWire, append_assoc]
  have hzag : ¬kMlVarintMax < f.zigzag := zigzag_le hf.diff
  have hzig := mlReadVarint_bytes hzag [] (varintBytes (BitVec.ofNat 64 f.payload.length).toNat ++ (f.payload ++ rest))
  have hsize := mlReadVarint_bytes hf.length (varintBytes f.zigzag.toNat) (f.payload ++ rest)
  rw [nil_append, length_nil, Nat.zero_add] at hzig
  rw [hmore, h, hbytes, frontTyped_some hzig, frontAt_some hsize] at hwhole
  split at hwhole
  · cases hwhole
  · split at hwhole
    · cases hwhole
    · simp only [MlFront.whole.injEq] at hwhole
      obtain ⟨rfl, rfl, rfl⟩ := hwhole
      refine ⟨rfl, ?_, ?_⟩
      · rw [hlen, ← append_assoc, ← length_append, drop_left, take_left]
      · simp only [LineFrame.bytes, frameOnWire, length_append, hlen]

def IsMessage (header : List Byte) : Prop := ∃ body, frontMessage header = .whole () body header.length

theorem front_header {header b rest body : List Byte} {size : Nat} (hh : IsMessage header) (hb : b <+: header ++ rest)
    (h : frontMessage b = .whole () body size) : size = header.length := by
  obtain ⟨more, hmore⟩ := hb
  obtain ⟨body', hbody⟩ := hh
  have hwhole := frontMessage_append more (b := b) (by simp [h])
  have hwhole' := frontMessage_append rest (b := header) (by simp [hbody])
  rw [hmore, hwhole', hbody, h] at hwhole
  simp only [MlFront.whole.injEq] at hwhole
  exact hwhole.2.2.symm

/-! ## The stream -/

/-- **What is to come of a group's stream**, at each stage of the parser, and what `OnMediaFrame` got of `all` before. -/
inductive GroupExp (header : List Byte) (all : List LineFrame) : LiteStage → List Byte → List LiteAction → Prop
  | type : GroupExp header all (.untyped true) (varintBytes 0 ++ (header ++ lineBytes all)) []
  | header : GroupExp header all .groupHeader (header ++ lineBytes all) []
  | frames {g : LiteGroup} {fs : List LineFrame} {out : List LiteAction} (hfits : ∀ f ∈ fs, f.Fits)
      (h : framesGot out ++ told g.tsAcc fs = told 0 all) : GroupExp header all (.frames g) (lineBytes fs) out
  | rejected {fs : List LineFrame} {out : List LiteAction} (hfits : ∀ f ∈ fs, f.Fits)
      (h : framesGot out <+: told 0 all) : GroupExp header all .rejected (lineBytes fs) out

def Tells (all : List LineFrame) (out : List LiteAction) : Prop := framesGot out <+: told 0 all

variable {header : List Byte} {all : List LineFrame}

theorem Tells.more {out o : List LiteAction} (h : Tells all out) (ho : framesGot o = []) : Tells all (out ++ o) := by
  unfold Tells
  rw [framesGot_append, ho, append_nil]
  exact h

theorem GroupExp.tells {s : LiteStage} {rest : List Byte} {out : List LiteAction} (h : GroupExp header all s rest out) :
    Tells all out := by
  cases h with
  | type => exact nil_prefix
  | header => exact nil_prefix
  | frames hfits h => exact ⟨_, h⟩
  | rejected hfits h => exact h

theorem tsAcc_readGroupHeader {body : List Byte} {g : LiteGroup} (h : LiteSession.readGroupHeader body = some g) :
    g.tsAcc = 0 := by
  unfold LiteSession.readGroupHeader at h
  simp only [Option.bind_eq_bind, Option.bind_eq_some_iff] at h
  obtain ⟨_, -, _, -, _, -, h⟩ := h
  split at h
  · cases h
    rfl
  · cases h

section

variable (e : LiteSession)

theorem meets_type {b : List Byte} (hb : b <+: varintBytes 0 ++ (header ++ lineBytes all)) : Meets (GroupExp header all)
    (Tells all) (varintBytes 0 ++ (header ++ lineBytes all)) [] b.length (e.parseStreamType true b) := by
  have hzero : varintBytes 0 = [0] := rfl
  rw [hzero] at hb ⊢
  cases b with
  | nil => exact .type
  | cons x t =>
    obtain ⟨rfl, -⟩ := List.cons_prefix_cons.1 hb
    have hread : mlReadVarint (0 :: t) 0 = ⟨true, 1, some 0⟩ :=
      mlReadVarint_bytes (v := 0) (by decide) [] t
    have hturn : e.parseStreamType true (0 :: t) = .take .groupHeader 1 [] := by
      unfold LiteSession.parseStreamType
      rw [hread]
      rfl
    rw [hturn]
    exact ⟨Nat.le_add_left 1 _, .header⟩

theorem meets_header (hh : IsMessage header) (hfits : ∀ f ∈ all, f.Fits) {b : List Byte} (hb : b <+: header ++ lineBytes all) :
    Meets (GroupExp header all) (Tells all) (header ++ lineBytes all) [] b.length (e.parseGroupHeader b) := by
  unfold LiteSession.parseGroupHeader
  cases hfront : frontMessage b with
  | needMore => exact .header
  | tooLarge => exact nil_prefix
  | whole mark body size =>
    obtain ⟨-, hle⟩ := frontMessage_bounds hfront
    have hsize := front_header hh hb hfront
    dsimp only
    cases hread : LiteSession.readGroupHeader body with
    | none => exact nil_prefix
    | some g =>
      dsimp only
      split
      · exact nil_prefix
      · refine ⟨hle, ?_⟩
        rw [hsize, drop_left]
        refine .frames hfits ?_
        rw [tsAcc_readGroupHeader hread]
        rfl

theorem next_lineFrame {fs : List LineFrame} (hfits : ∀ f ∈ fs, f.Fits) {b payload : List Byte} {z : BitVec 64} {size : Nat}
    (hb : b <+: lineBytes fs) (h : frontTyped b = .whole z payload size) :
    ∃ f fs', fs = f :: fs' ∧ z = f.zigzag ∧ payload = f.payload ∧ (lineBytes fs).drop size = lineBytes fs' := by
  cases fs with
  | nil =>
    obtain rfl := List.prefix_nil.1 hb
    have := frontTyped_bounds h
    simp at this
    omega
  | cons f fs =>
    have hsplit : lineBytes (f :: fs) = f.bytes ++ lineBytes fs := by simp [lineBytes]
    rw [hsplit] at hb ⊢
    obtain ⟨hz, hp, hsize⟩ := front_lineFrame (hfits f mem_cons_self) hb h
    exact ⟨f, fs, rfl, hz, hp, by rw [hsize, drop_left]⟩

theorem meets_frames {g : LiteGroup} {fs : List LineFrame} {out : List LiteAction} (hfits : ∀ f ∈ fs, f.Fits)
    (h : framesGot out ++ told g.tsAcc fs = told 0 all) {b : List Byte} (hb : b <+: lineBytes fs) :
    Meets (GroupExp header all) (Tells all) (lineBytes fs) out b.length (e.parseFrame g b) := by
  have htells : Tells all out := ⟨_, h⟩
  unfold LiteSession.parseFrame
  cases hfront : frontTyped b with
  | needMore => exact .frames hfits h
  | tooLarge => exact htells.more rfl
  | whole zz payload size =>
    obtain ⟨-, hle⟩ := frontTyped_bounds hfront
    obtain ⟨f, fs', rfl, rfl, rfl, hdrop⟩ := next_lineFrame hfits hb hfront
    have hfits' : ∀ f' ∈ fs', f'.Fits := fun f' hf' => hfits f' (mem_cons_of_mem f hf')
    have hdiff : mlZigzagDecode f.zigzag = f.diff := zigzag_roundTrip f.diff
    rw [told] at h
    dsimp only
    rw [hdiff]
    split
    · refine ⟨hle, ?_⟩
      rw [hdrop]
      refine .rejected hfits' ?_
      rw [framesGot_append]
      exact ⟨told (g.tsAcc + f.diff) fs', by rw [← h]; simp [framesGot]⟩
    · refine ⟨hle, ?_⟩
      rw [hdrop]
      refine .frames hfits' ?_
      rw [framesGot_append, ← h]
      simp [framesGot]

theorem meets_rejected {fs : List LineFrame} {out : List LiteAction} (hfits : ∀ f ∈ fs, f.Fits) (h : framesGot out <+: told 0 all)
    {b : List Byte} (hb : b <+: lineBytes fs) :
    Meets (GroupExp header all) (Tells all) (lineBytes fs) out b.length (parseRejected b) := by
  have htells : Tells all out := h
  unfold parseRejected
  cases hfront : frontTyped b with
  | needMore => exact .rejected hfits h
  | tooLarge => exact htells.more rfl
  | whole zz payload size =>
    obtain ⟨-, hle⟩ := frontTyped_bounds hfront
    obtain ⟨f, fs', rfl, rfl, rfl, hdrop⟩ := next_lineFrame hfits hb hfront
    refine ⟨hle, ?_⟩
    rw [hdrop, append_nil]
    exact .rejected (fun f' hf' => hfits f' (mem_cons_of_mem f hf')) h

theorem group_follows (hh : IsMessage header) (hfits : ∀ f ∈ all, f.Fits) :
    Follows e.parse (GroupExp header all) (Tells all) where
  ok := GroupExp.tells
  meets h hb := by
    cases h with
    | type => exact meets_type e hb
    | header => exact meets_header e hh hfits hb
    | frames hfits' h => exact meets_frames e hfits' h hb
    | rejected hfits' h => exact meets_rejected hfits' h hb

theorem awaits_finish {r : LiteStream} {rest : List Byte} (fin : Bool) (h : Awaits (GroupExp header all) (Tells all) r rest) :
    Awaits (GroupExp header all) (Tells all) (finishCall fin r) rest := by
  have hended : ∀ {r' : LiteStream}, Tells all r'.out → r'.halted.isSome → Awaits (GroupExp header all) (Tells all) r' rest :=
    fun hout hs => ⟨hout, fun hn => by simp [hn] at hs⟩
  unfold finishCall
  split
  · exact h
  · split
    · split
      · exact hended (h.1.more rfl) rfl
      · exact h
    · split
      · exact hended (h.1.more rfl) rfl
      · exact h
    · exact hended h.1 rfl
    · exact h

theorem awaits_handle (hh : IsMessage header) (hfits : ∀ f ∈ all, f.Fits) {r : LiteStream} {chunk rest : List Byte} (fin : Bool)
    (h : Awaits (GroupExp header all) (Tells all) r (chunk ++ rest)) :
    Awaits (GroupExp header all) (Tells all) (e.handleStreamData r chunk fin) rest := by
  unfold LiteSession.handleStreamData
  split
  · rename_i hhalt
    refine ⟨h.1, fun hn => ?_⟩
    simp [hn] at hhalt
  · split
    · exact ⟨h.1.more rfl, fun hn => nomatch hn⟩
    · exact awaits_finish fin ((group_follows e hh hfits).feed h)

end

/-- A call of `HandleStreamData`: the session then, the bytes, and whether the FIN comes with them. -/
structure DataCall where
  session : LiteSession
  chunk : List Byte
  fin : Bool := false

def readGroup (calls : List DataCall) : LiteStream :=
  calls.foldl (fun r c => c.session.handleStreamData r c.chunk c.fin) (LiteOpener.peer true).stream

theorem group_awaited (hh : IsMessage header) (hfits : ∀ f ∈ all, f.Fits) : ∀ (calls : List DataCall),
    (calls.map DataCall.chunk).flatten <+: varintBytes 0 ++ (header ++ lineBytes all) → Tells all (readGroup calls).out := by
  have hrun : ∀ (calls : List DataCall) (r : LiteStream) (rest : List Byte),
      Awaits (GroupExp header all) (Tells all) r ((calls.map DataCall.chunk).flatten ++ rest) →
        Awaits (GroupExp header all) (Tells all)
          (calls.foldl (fun r c => c.session.handleStreamData r c.chunk c.fin) r) rest := by
    intro calls
    induction calls with
    | nil => exact fun r rest h => h
    | cons c calls ih =>
      intro r rest h
      rw [map_cons, flatten_cons, append_assoc] at h
      exact ih _ rest (awaits_handle c.session hh hfits c.fin h)
  rintro calls ⟨rest, hrest⟩
  have hstart : GroupExp header all (.untyped true) (varintBytes 0 ++ (header ++ lineBytes all)) [] := .type
  refine (hrun calls _ rest ⟨hstart.tells, fun _ => ?_⟩).1
  rw [hrest]
  exact hstart

end MoqLiveCast
