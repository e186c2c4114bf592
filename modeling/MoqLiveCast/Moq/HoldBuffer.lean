import MoqLiveCast.Moq.ServeGroups
/-!
# HoldBuffer — what a video track holds for the next subscription (`hold_push`, `moq_lite_track_frame`)

The buffer is given up where there is no memory or too much of it, and should then wait for a keyframe.  It does not: the
next frame is kept, whatever it is (`hold_decodable_iff`).
-/
namespace MoqLiveCast
namespace HoldBuffer

open ServeGroups (ServeFrame MOQ_HOLD_MAX_BYTES)

def maxAlloc : Nat := 2 ^ 63 - 1

structure Alloc where
  grows : Bool
  copies : Bool

/-- The hold of a video `MoqPubTrack`, and the frames that were taken so far. -/
structure HeldTrack where
  dead : Bool := false
  hold : List ServeFrame := []
  holdCap : Nat := 0
  holdBytes : BitVec 64 := 0
  given : List ServeFrame := []
deriving DecidableEq

namespace HeldTrack

def holdClear (t : HeldTrack) : HeldTrack := { t with hold := [], holdBytes := 0 }

/-- Whether it is pushed is answered beside it; the place for it is made first. -/
def holdPush (al : Alloc) (t : HeldTrack) (f : ServeFrame) : HeldTrack × Bool :=
  if t.hold.length = t.holdCap ∧ al.grows = false then (t, false)
  else
    let t := if t.hold.length = t.holdCap then { t with holdCap := if t.holdCap = 0 then 64 else t.holdCap * 2 } else t
    if al.copies = false ∨ maxAlloc < f.payload.length then (t, false)
    else ({ t with hold := t.hold ++ [f], holdBytes := t.holdBytes + BitVec.ofNat 64 f.payload.length }, true)

def keepHold (al : Alloc) (t : HeldTrack) (f : ServeFrame) : HeldTrack :=
  let r := (if f.key then t.holdClear else t).holdPush al f
  let t := if r.2 then r.1 else r.1.holdClear
  if MOQ_HOLD_MAX_BYTES < t.holdBytes.toNat then t.holdClear else t

def moqLiteTrackFrame (t : HeldTrack) (call : Alloc × ServeFrame) : HeldTrack :=
  if t.dead ∨ call.2.payload = [] then t
  else keepHold call.1 { t with given := t.given ++ [call.2] } call.2

def heldBytes (frames : List ServeFrame) : Nat := (frames.map fun f => f.payload.length).sum

/-- **The hold is empty, or what was published from the latest keyframe on**, and is counted. -/
structure Decodable (t : HeldTrack) : Prop where
  start : t.hold = [] ∨ ∃ pre k rest, t.given = pre ++ k :: rest ∧ t.hold = k :: rest ∧ k.key = true ∧ ∀ f ∈ rest, f.key = false
  bytes : t.holdBytes.toNat = heldBytes t.hold

def HasRoom (t : HeldTrack) (al : Alloc) (f : ServeFrame) : Prop :=
  (t.hold.length = t.holdCap → al.grows = true) ∧ al.copies = true ∧ f.payload.length ≤ MOQ_HOLD_MAX_BYTES

/-- **Nothing but a keyframe is put into an empty hold.** -/
def WaitsForKey (t : HeldTrack) (call : Alloc × ServeFrame) : Prop :=
  t.dead = false → call.2.payload ≠ [] → t.hold = [] → t.HasRoom call.1 call.2 → call.2.key = true

/-! ## The count -/

def Counted (t : HeldTrack) : Prop := t.holdBytes.toNat = heldBytes t.hold ∧ t.holdBytes.toNat ≤ MOQ_HOLD_MAX_BYTES

theorem heldBytes_append (frames : List ServeFrame) (f : ServeFrame) :
    heldBytes (frames ++ [f]) = heldBytes frames + f.payload.length := by
  unfold heldBytes
  rw [List.map_append, List.sum_append, List.map_singleton, List.sum_singleton]

theorem Counted.clear (t : HeldTrack) : t.holdClear.Counted := ⟨rfl, Nat.zero_le _⟩

theorem holdPush_cases (al : Alloc) {t : HeldTrack} (h : t.Counted) (f : ServeFrame) : (¬((t.hold.length = t.holdCap → al.grows =
    true) ∧ al.copies = true ∧ f.payload.length ≤ maxAlloc) ∧ (t.holdPush al f).2 = false ∧ (t.holdPush al f).1.dead = t.dead ∧
    (t.holdPush al f).1.given = t.given) ∨ (((t.hold.length = t.holdCap → al.grows = true) ∧ al.copies = true ∧
    f.payload.length ≤ maxAlloc) ∧ (t.holdPush al f).2 = true ∧ (t.holdPush al f).1.given = t.given ∧ (t.holdPush al f).1.dead =
    t.dead ∧ (t.holdPush al f).1.hold = t.hold ++ [f] ∧ (t.holdPush al f).1.holdBytes.toNat =
    heldBytes t.hold + f.payload.length) := by
  unfold holdPush
  by_cases hfull : t.hold.length = t.holdCap ∧ al.grows = false
  · rw [if_pos hfull]
    left
    refine ⟨fun hroom => ?_, rfl, rfl, rfl⟩
    have hgrows := hroom.1 hfull.1
    rw [hfull.2] at hgrows
    cases hgrows
  · rw [if_neg hfull]
    have hgrows : t.hold.length = t.holdCap → al.grows = true := fun hlen => by
      cases hg : al.grows with
      | false => exact absurd ⟨hlen, hg⟩ hfull
      | true => rfl
    generalize ht : (if t.hold.length = t.holdCap then
      { t with holdCap := if t.holdCap = 0 then 64 else t.holdCap * 2 } else t) = t₁
    have hsame : t₁.dead = t.dead ∧ t₁.given = t.given ∧ t₁.hold = t.hold ∧ t₁.holdBytes = t.holdBytes := by
      rw [← ht]
      split <;> exact ⟨rfl, rfl, rfl, rfl⟩
    obtain ⟨hdead, hgiven, hhold, hbytes⟩ := hsame
    by_cases hcopy : al.copies = false ∨ maxAlloc < f.payload.length
    · rw [if_pos hcopy]
      left
      refine ⟨fun hroom => ?_, rfl, hdead, hgiven⟩
      rcases hcopy with hcopy | hcopy
      · rw [hcopy] at hroom
        cases hroom.2.1
      · exact absurd hroom.2.2 (by omega)
    · rw [if_neg hcopy]
      right
      obtain ⟨hc, hle⟩ := not_or.1 hcopy
      refine ⟨⟨hgrows, by simpa using hc, by omega⟩, rfl, hgiven, hdead, by rw [hhold], ?_⟩
      have hmax : MOQ_HOLD_MAX_BYTES < 2 ^ 63 := by decide
      have hroom : maxAlloc < 2 ^ 63 := by decide
      have hcount := h.2
      rw [← h.1]
      show (t₁.holdBytes + BitVec.ofNat 64 f.payload.length).toNat = _
      rw [hbytes, BitVec.toNat_add, BitVec.toNat_ofNat, Nat.mod_eq_of_lt (by omega : f.payload.length < 2 ^ 64),
        Nat.mod_eq_of_lt (by omega)]

theorem keepHold_cases (al : Alloc) {t s : HeldTrack} (h : t.Counted) (f : ServeFrame) (hs : (if f.key then t.holdClear else t) =
    s) : (keepHold al t f).Counted ∧ (keepHold al t f).given = t.given ∧ ((keepHold al t f).hold = [] ∧ (s.hold = [] →
    ¬s.HasRoom al f) ∨ (keepHold al t f).hold = s.hold ++ [f] ∧ s.HasRoom al f) := by
  have hmax : MOQ_HOLD_MAX_BYTES ≤ maxAlloc := by decide
  have hcounted : s.Counted := by
    rw [← hs]
    split
    · exact .clear t
    · exact h
  have hgiven : s.given = t.given := by
    rw [← hs]
    split <;> rfl
  unfold keepHold
  rw [hs, ← hgiven]
  dsimp only
  rcases holdPush_cases al hcounted f with ⟨hno, hpush, -, hg⟩ | ⟨hroom, hpush, hg, -, hpushed, hbytes⟩
  · rw [hpush, if_neg Bool.false_ne_true, if_neg (Nat.not_lt.2 (Counted.clear _).2)]
    refine ⟨.clear _, hg, .inl ⟨rfl, fun _ hhas => hno ⟨hhas.1, hhas.2.1, hhas.2.2.trans hmax⟩⟩⟩
  · rw [hpush, if_pos rfl]
    by_cases hover : MOQ_HOLD_MAX_BYTES < (s.holdPush al f).1.holdBytes.toNat
    · rw [if_pos hover]
      refine ⟨.clear _, hg, .inl ⟨rfl, fun hnil hhas => ?_⟩⟩
      rw [hbytes, hnil] at hover
      have hzero : heldBytes [] = 0 := rfl
      have hle := hhas.2.2
      omega
    · rw [if_neg hover]
      have hsum : (s.holdPush al f).1.holdBytes.toNat = heldBytes (s.holdPush al f).1.hold := by
        rw [hbytes, hpushed, heldBytes_append]
      exact ⟨⟨hsum, by omega⟩, hg, .inr ⟨hpushed, hroom.1, hroom.2.1, by omega⟩⟩

/-! ## A track, call by call -/

theorem Counted.step {t : HeldTrack} (h : t.Counted) (call : Alloc × ServeFrame) : (t.moqLiteTrackFrame call).Counted := by
  unfold moqLiteTrackFrame
  split
  · exact h
  · exact (keepHold_cases call.1 (t := { t with given := t.given ++ [call.2] }) h call.2 rfl).1

theorem Decodable.step_iff {t : HeldTrack} (hcount : t.Counted) (h : t.Decodable) (call : Alloc × ServeFrame) :
    (t.moqLiteTrackFrame call).Decodable ↔ t.WaitsForKey call := by
  obtain ⟨al, f⟩ := call
  have hcount' := hcount.step (al, f)
  unfold moqLiteTrackFrame at hcount' ⊢
  unfold WaitsForKey
  dsimp only at hcount' ⊢
  by_cases hout : t.dead = true ∨ f.payload = []
  · rw [if_pos hout]
    refine iff_of_true h fun halive hne _ _ => ?_
    rcases hout with hdead | hnil
    · rw [hdead] at halive
      cases halive
    · exact absurd hnil hne
  · rw [if_neg hout] at hcount' ⊢
    obtain ⟨halive, hne⟩ := not_or.1 hout
    rw [Bool.not_eq_true] at halive
    have hcount₁ : ({ t with given := t.given ++ [f] } : HeldTrack).Counted := hcount
    obtain ⟨-, hgiven, hcases⟩ := keepHold_cases al hcount₁ f rfl
    generalize keepHold al { t with given := t.given ++ [f] } f = t' at hcount' hgiven hcases ⊢
    have hgiven' : t'.given = t.given ++ [f] := hgiven
    cases hkey : f.key with
    | true =>
      refine iff_of_true ⟨?_, hcount'.1⟩ fun _ _ _ _ => rfl
      rw [hkey, if_pos rfl] at hcases
      rcases hcases with ⟨hnil, -⟩ | ⟨hheld, -⟩
      · exact .inl hnil
      · exact .inr ⟨t.given, f, [], hgiven', hheld, hkey, fun _ hf' => absurd hf' List.not_mem_nil⟩
    | false =>
      rw [hkey, if_neg Bool.false_ne_true] at hcases
      constructor
      · intro hdec _ _ hnil hroom
        rcases hcases with ⟨-, hno⟩ | ⟨hheld, -⟩
        · exact absurd hroom (hno hnil)
        · have hone : t'.hold = [f] := by rw [hheld]; exact congrArg (· ++ [f]) hnil
          rcases hdec.start with hempty | ⟨pre, k, rest, -, hk, hkkey, -⟩
          · rw [hempty] at hone
            cases hone
          · rw [hone] at hk
            cases hk
            rw [hkey] at hkkey
            exact hkkey
      · intro hwait
        refine ⟨?_, hcount'.1⟩
        rcases hcases with ⟨hnil, -⟩ | ⟨hheld, hroom⟩
        · exact .inl hnil
        · rcases h.start with hnil | ⟨pre, k, rest, hpub, hk, hkkey, hrest⟩
          · exact absurd (hwait halive hne hnil hroom) Bool.false_ne_true
          · refine .inr ⟨pre, k, rest ++ [f], ?_, ?_, hkkey, fun f' hf' => ?_⟩
            · rw [hgiven', hpub, List.append_assoc, List.cons_append]
            · have hheld' : t'.hold = t.hold ++ [f] := hheld
              rw [hheld', hk, List.cons_append]
            · rcases List.mem_append.1 hf' with hf' | hf'
              · exact hrest f' hf'
              · rw [List.mem_singleton.1 hf', hkey]

/-- **The hold is decodable after every call exactly if it waits for a keyframe at every call.** -/
theorem hold_decodable_iff (calls : List (Alloc × ServeFrame)) : (∀ pre post, calls = pre ++ post → (pre.foldl moqLiteTrackFrame
    {}).Decodable) ↔ StepsOk moqLiteTrackFrame WaitsForKey {} calls :=
  forall_prefix_iff moqLiteTrackFrame WaitsForKey (fun _ => True) Counted Decodable (fun _ call h _ => h.step call)
    (fun _ call hcount _ h => h.step_iff hcount call) calls {} (fun _ _ => trivial) ⟨rfl, Nat.zero_le _⟩ ⟨.inl rfl, rfl⟩

/-- **There is no memory for a frame, and the next is held**: a subscription starts from the middle of a group of pictures. -/
theorem hold_starts_midway :
    let calls : List (Alloc × ServeFrame) := [(⟨true, true⟩, ⟨0, [1], true⟩), (⟨true, false⟩, ⟨40, [2], false⟩),
      (⟨true, true⟩, ⟨80, [3], false⟩)]
    (calls.foldl moqLiteTrackFrame {}).hold = [⟨80, [3], false⟩] ∧ ¬(calls.foldl moqLiteTrackFrame {}).Decodable := by
  refine ⟨by decide, fun h => ?_⟩
  rcases h.start with hnil | ⟨pre, k, rest, -, hk, hkey, -⟩
  · exact absurd hnil (by decide)
  · have hheld : [(⟨80, [3], false⟩ : ServeFrame)] = k :: rest := (by decide : _ = _).trans hk
    cases hheld
    cases hkey

end HeldTrack
end HoldBuffer
end MoqLiveCast
