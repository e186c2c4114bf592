import Mathlib.Data.List.GetD
import MoqLiveCast.Moq.LocRead
/-!
# PushWaits — which parts of an object can become one (`ParseObject`)

`ParseObject` answers a part of an object and a block of properties that is wrong alike: it has too little.  A block is
wrong when its properties do not end where it does, and then no byte behind it helps.  `objectLeast` follows the lengths a
buffer announces to the end of the shortest object it can become; there is none exactly if nothing that follows will do.
-/
namespace MoqLiveCast

open Scanner

/-! ## Objects -/

/-- **The properties of a block**, behind the type `prev`: each one ends before the next begins. -/
inductive IsProps : BitVec 64 → List Byte → Prop
  | nil (prev : BitVec 64) : IsProps prev []
  | number {prev dlt val : BitVec 64} {n m : Nat} {d v tail : List Byte} (hd : Vi64Form n dlt.toNat d)
      (heven : prev + dlt &&& 1 = 0) (hv : Vi64Form m val.toNat v) (htail : IsProps (prev + dlt) tail) :
      IsProps prev (d ++ (v ++ tail))
  | bytes {prev dlt vlen : BitVec 64} {n m : Nat} {d l v tail : List Byte} (hd : Vi64Form n dlt.toNat d)
      (hodd : prev + dlt &&& 1 ≠ 0) (hl : Vi64Form m vlen.toNat l) (hv : v.length = vlen.toNat)
      (htail : IsProps (prev + dlt) tail) : IsProps prev (d ++ (l ++ (v ++ tail)))

inductive IsBody : List Byte → Prop
  | status {n m : Nat} {status : BitVec 64} {l s : List Byte} (hl : Vi64Form n 0 l) (hs : Vi64Form m status.toNat s) :
      IsBody (l ++ s)
  | payload {n : Nat} {len : BitVec 64} {l p : List Byte} (hlen : len ≠ 0) (hl : Vi64Form n len.toNat l)
      (hp : p.length = len.toNat) : IsBody (l ++ p)

/-- **An object of a stream**, with properties or without. -/
inductive IsObject : Bool → List Byte → Prop
  | bare {n : Nat} {delta : BitVec 64} {d body : List Byte} (hd : Vi64Form n delta.toNat d) (hbody : IsBody body) :
      IsObject false (d ++ body)
  | props {n m : Nat} {delta : BitVec 64} {d l block body : List Byte} (hd : Vi64Form n delta.toNat d)
      (hl : Vi64Form m block.length l) (hblock : IsProps 0 block) (hbody : IsBody body) :
      IsObject true (d ++ (l ++ (block ++ body)))

/-! ## What a buffer announces -/

/-- The integer at the front of a buffer: whole, or a part of one that takes so many bytes and has at least this value. -/
inductive Vi64Front where
  | whole (n : Nat) (v : BitVec 64)
  | part (n least : Nat)

def vi64Front : List Byte → Vi64Front
  | [] => .part 1 0
  | x :: tail =>
    let lead := moqLead x 0 8
    if tail.length < lead then .part (lead + 1) (vi64Value x (tail ++ List.replicate (lead - tail.length) 0)).toNat
    else .whole (lead + 1) (vi64Value x (tail.take lead))

/-- The properties of a block of `left` bytes can end where it does; `bytes` are the bytes from here on that are there. -/
def propsFit : Nat → Nat → BitVec 64 → List Byte → Bool
  | 0, left, _, _ => left = 0
  | turns + 1, left, prev, bytes =>
    if left = 0 then true
    else
      match vi64Front bytes with
      | .part n _ => n + 1 ≤ left
      | .whole n dlt =>
        let type := prev + dlt
        let bytes := bytes.drop n
        if type &&& 1 = 0 then
          match vi64Front bytes with
          | .part m _ => n + m ≤ left ∧ (left ≠ n + m + 1 ∨ bytes = [])
          | .whole m _ => n + m ≤ left && propsFit turns (left - (n + m)) type (bytes.drop m)
        else
          match vi64Front bytes with
          | .part m least => n + m + least ≤ left
          | .whole m vlen =>
            n + m + vlen.toNat ≤ left && propsFit turns (left - (n + m + vlen.toNat)) type (bytes.drop (m + vlen.toNat))

/-- How long the rest of an object is at least that begins with these bytes. -/
def bodyLeast (bytes : List Byte) : Nat :=
  match vi64Front bytes with
  | .part n least => n + max least 1
  | .whole n len =>
    if len = 0 then
      match vi64Front (bytes.drop n) with
      | .part m _ => n + m
      | .whole m _ => n + m
    else n + len.toNat

/-- **How long an object is at least that begins with these bytes**, if there is one. -/
def objectLeast (hasProps : Bool) (bytes : List Byte) : Option Nat :=
  match vi64Front bytes with
  | .part n _ => some (n + if hasProps then 3 else 2)
  | .whole n _ =>
    let bytes := bytes.drop n
    if hasProps then
      match vi64Front bytes with
      | .part m least => some (n + (m + (least + 2)))
      | .whole m plen =>
        let bytes := bytes.drop m
        if propsFit plen.toNat plen.toNat 0 bytes then some (n + (m + (plen.toNat + bodyLeast (bytes.drop plen.toNat))))
        else none
    else some (n + bodyLeast bytes)

/-! ## The front of a buffer -/

theorem vi64Front_prefix {n v : Nat} {form bytes after : List Byte} (h : Vi64Form n v form) (hpre : bytes <+: form ++ after) :
    (∃ w rest, vi64Front bytes = .whole n w ∧ w.toNat = v ∧ bytes = form ++ rest ∧ rest <+: after) ∨ (∃ m least zs,
    vi64Front bytes = .part m least ∧ m ≤ n ∧ least ≤ v ∧ form = bytes ++ zs ∧ zs ≠ [] ∧ (bytes ≠ [] → m = n)) := by
  obtain ⟨x, tail, rfl, hlen, hlead, -⟩ := h.split
  have hpos := h.pos
  cases bytes with
  | nil => exact Or.inr ⟨1, 0, x :: tail, rfl, hpos, Nat.zero_le _, rfl, List.cons_ne_nil _ _, fun hne => absurd rfl hne⟩
  | cons y ys =>
    obtain ⟨zs, hzs⟩ := hpre
    rw [List.cons_append, List.cons_append, List.cons.injEq] at hzs
    obtain ⟨rfl, heq⟩ := hzs
    unfold vi64Front
    dsimp only
    rw [hlead]
    have hval : v = (vi64Value y tail).toNat := by
      have h₁ := h.value
      rw [vi64Value_toNat hlead, hlen, show 8 - (n - 1) = 9 - n from by omega] at h₁
      exact (Nat.add_left_cancel h₁).symm
    rcases List.append_eq_append_iff.1 heq with ⟨rest, htail, hafter⟩ | ⟨rest, hys, hafter⟩
    · -- the integer is not all there, or just so
      by_cases hrest : rest = []
      · subst hrest
        rw [List.append_nil] at htail
        subst htail
        rw [if_neg (Nat.lt_irrefl _), List.take_length]
        exact Or.inl ⟨_, [], by rw [show tail.length + 1 = n from by omega], hval.symm, (List.append_nil _).symm,
          List.nil_prefix⟩
      · have hz := List.length_pos_iff.2 hrest
        have hlt : ys.length < tail.length := by
          rw [htail, List.length_append]
          omega
        rw [if_pos hlt]
        refine Or.inr ⟨_, _, rest, rfl, by omega, ?_, by rw [htail]; rfl, hrest, fun _ => by omega⟩
        have hzero : beNat (List.replicate (tail.length - ys.length) (0 : Byte)) = 0 := beNat_zeros _
        have hlenz : (ys ++ List.replicate (tail.length - ys.length) (0 : Byte)).length = tail.length := by
          rw [List.length_append, List.length_replicate]
          omega
        rw [hval, vi64Value_split hlead, vi64Value_split (by rw [hlenz]; exact hlead), hlenz, beNat_append, hzero, htail,
          beNat_append, List.length_replicate, show (ys ++ rest).length - ys.length = rest.length from by simp]
        omega
    · rw [if_neg (by rw [hys, List.length_append]; omega)]
      refine Or.inl ⟨_, rest, by rw [show tail.length + 1 = n from by omega], ?_, by rw [hys]; rfl, ?_⟩
      · rw [hys, List.take_left, hval]
      · rw [hafter]
        exact List.prefix_append _ _

theorem vi64Front_part {n least : Nat} {bytes : List Byte} (h : vi64Front bytes = .part n least) :
    1 ≤ n ∧ n ≤ 9 ∧ bytes.length < n ∧ (∃ zs, Vi64Form n least (bytes ++ zs)) ∧ ∃ zs, Vi64Form n (least + 1) (bytes ++ zs) := by
  cases bytes with
  | nil =>
    unfold vi64Front at h
    cases h
    exact ⟨by decide, by decide, by decide, ⟨[0], by decide, by decide, by decide, rfl, by decide⟩,
      [1], by decide, by decide, by decide, rfl, by decide⟩
  | cons x tail =>
    have hle := moqLead_le x
    unfold vi64Front at h
    dsimp only at h
    split at h
    · rename_i hlt
      cases h
      have hform : ∀ zs : List Byte, zs.length = moqLead x 0 8 - tail.length →
          Vi64Form (moqLead x 0 8 + 1) (vi64Value x (tail ++ zs)).toNat (x :: tail ++ zs) := by
        intro zs hz
        have hlead : moqLead x 0 8 = (tail ++ zs).length := by
          rw [List.length_append]
          omega
        have hf := vi64Form_of_lead hlead
        rwa [← hlead] at hf
      refine ⟨by omega, by omega, by rw [List.length_cons]; omega, ⟨_, hform _ (by simp)⟩,
        List.replicate (moqLead x 0 8 - tail.length - 1) 0 ++ [1], ?_⟩
      have hone := hform (List.replicate (moqLead x 0 8 - tail.length - 1) 0 ++ [1]) (by simp; omega)
      have hnext : (vi64Value x (tail ++ (List.replicate (moqLead x 0 8 - tail.length - 1) 0 ++ [1]))).toNat =
          (vi64Value x (tail ++ List.replicate (moqLead x 0 8 - tail.length) 0)).toNat + 1 := by
        have hl₁ : (tail ++ (List.replicate (moqLead x 0 8 - tail.length - 1) (0 : Byte) ++ [1])).length = moqLead x 0 8 := by
          simp
          omega
        have hl₂ : (tail ++ List.replicate (moqLead x 0 8 - tail.length) (0 : Byte)).length = moqLead x 0 8 := by
          simp
          omega
        rw [vi64Value_split hl₁.symm, vi64Value_split hl₂.symm, hl₁, hl₂, beNat_append, beNat_append, beNat_zeros,
          beNat_append, beNat_zeros]
        have hb : beNat [1] = 1 := by decide
        simp only [List.length_append, List.length_replicate, List.length_singleton, hb]
        rw [show moqLead x 0 8 - tail.length - 1 + 1 = moqLead x 0 8 - tail.length from by omega]
        omega
      rwa [hnext] at hone
    · cases h

theorem vi64Front_least_ne_one {n least : Nat} {bytes : List Byte} (h : vi64Front bytes = .part n least) : least ≠ 1 := by
  cases bytes with
  | nil =>
    unfold vi64Front at h
    cases h
    exact Nat.zero_ne_one
  | cons x tail =>
    unfold vi64Front at h
    dsimp only at h
    split at h
    · rename_i hlt
      cases h
      have hlen : (tail ++ List.replicate (moqLead x 0 8 - tail.length) (0 : Byte)).length = moqLead x 0 8 := by
        rw [List.length_append, List.length_replicate]
        omega
      obtain ⟨k, hk⟩ : ∃ k, moqLead x 0 8 - tail.length = k + 1 := ⟨moqLead x 0 8 - tail.length - 1, by omega⟩
      obtain ⟨j, hj⟩ : ∃ j, moqLead x 0 8 = j + 1 := ⟨moqLead x 0 8 - 1, by omega⟩
      rw [vi64Value_split hlen.symm, beNat_append, beNat_zeros, List.length_replicate, hlen, hk, hj, Nat.pow_succ, Nat.pow_succ]
      intro hone
      have hmod := congrArg (· % 256) hone
      simp only [← Nat.mul_assoc, Nat.add_zero, Nat.add_mod, Nat.mul_mod_left] at hmod
      exact absurd hmod (by decide)
    · cases h

theorem vi64Front_whole {n : Nat} {v : BitVec 64} {bytes : List Byte} (h : vi64Front bytes = .whole n v) :
    ∃ form, Vi64Form n v.toNat form ∧ bytes = form ++ bytes.drop n := by
  cases bytes with
  | nil =>
    unfold vi64Front at h
    cases h
  | cons x tail =>
    unfold vi64Front at h
    dsimp only at h
    split at h
    · cases h
    · rename_i hge
      cases h
      have hlead : moqLead x 0 8 = (tail.take (moqLead x 0 8)).length := by
        rw [List.length_take]
        omega
      have hf := vi64Form_of_lead hlead
      rw [← hlead] at hf
      refine ⟨_, hf, ?_⟩
      rw [List.drop_succ_cons, List.cons_append, List.take_append_drop]

/-! ## Properties that fit -/

theorem Vi64Form.lt {n v : Nat} {bytes : List Byte} (h : Vi64Form n v bytes) : v < 2 ^ 64 := by
  have hpos := h.pos
  have hle := h.le
  by_cases h8 : n ≤ 8
  · exact Nat.lt_of_lt_of_le (h.fits h8) (Nat.pow_le_pow_right (by decide) (by omega))
  · obtain rfl : n = 9 := by omega
    have hlt := beNat_lt bytes
    rw [h.value, h.length] at hlt
    have hword : (256 - 2 ^ (9 - 9)) * 256 ^ (9 - 1) + 2 ^ 64 = 256 ^ 9 := by decide
    omega

theorem Vi64Form.exists_integer {n v : Nat} {bytes : List Byte} (h : Vi64Form n v bytes) :
    ∃ w : BitVec 64, w.toNat = v := ⟨BitVec.ofNat 64 v, by rw [BitVec.toNat_ofNat, Nat.mod_eq_of_lt h.lt]⟩

theorem form_zero : Vi64Form 1 (0 : BitVec 64).toNat [0] := ⟨by decide, by decide, by decide, rfl, by decide⟩

theorem form_zero_two : Vi64Form 2 (0 : BitVec 64).toNat [0x80, 0] := ⟨by decide, by decide, by decide, rfl, by decide⟩

theorem IsProps.zero {prev dlt : BitVec 64} {n m : Nat} {d v tail : List Byte} (hd : Vi64Form n dlt.toNat d)
    (hv : Vi64Form m (0 : BitVec 64).toNat v) (htail : IsProps (prev + dlt) tail) : IsProps prev (d ++ (v ++ tail)) := by
  by_cases heven : prev + dlt &&& 1 = 0
  · exact .number hd heven hv htail
  · exact .bytes (v := []) hd heven hv rfl htail

theorem IsProps.exists_length : ∀ (r : Nat), r ≠ 1 → ∀ prev, ∃ block, IsProps prev block ∧ block.length = r
  | 0, _, prev => ⟨[], .nil prev, rfl⟩
  | 1, h, _ => absurd rfl h
  | 2, _, prev => ⟨_, IsProps.zero form_zero form_zero (.nil _), rfl⟩
  | 3, _, prev => ⟨_, IsProps.zero form_zero form_zero_two (.nil _), rfl⟩
  | r + 4, _, prev => by
    obtain ⟨tail, htail, hlen⟩ := IsProps.exists_length (r + 2) (by omega) (prev + 0)
    exact ⟨_, IsProps.zero form_zero form_zero htail, by simp [hlen]⟩

theorem IsProps.length_ne_one {prev : BitVec 64} {block : List Byte} (h : IsProps prev block) : block.length ≠ 1 := by
  cases h with
  | nil => exact Nat.zero_ne_one
  | number hd heven hv htail =>
    have := hd.pos
    have := hv.pos
    rw [List.length_append, List.length_append, hd.length, hv.length]
    omega
  | bytes hd hodd hl hv htail =>
    have := hd.pos
    have := hl.pos
    rw [List.length_append, List.length_append, hd.length, hl.length]
    omega

theorem IsProps.exists_behind {prev dlt : BitVec 64} {n : Nat} {d : List Byte} (hd : Vi64Form n dlt.toNat d) {r : Nat}
    (hr : 1 ≤ r) : ∃ rest, IsProps prev (d ++ rest) ∧ rest.length = r := by
  by_cases h2 : r = 2
  · exact ⟨_, IsProps.zero hd form_zero_two (.nil _), by rw [h2]; rfl⟩
  · obtain ⟨tail, htail, hlen⟩ := IsProps.exists_length (r - 1) (by omega) (prev + dlt)
    refine ⟨_, IsProps.zero hd form_zero htail, ?_⟩
    rw [List.length_append, hlen]
    show 1 + (r - 1) = r
    omega

theorem take_prefix_of_le {α : Type} {a b : List α} {k : Nat} (h : a <+: b) : a.take k <+: b :=
  (List.take_prefix k a).trans h

theorem take_append_part {α : Type} {form rest tail : List α} {k : Nat} (hk : form.length ≤ k)
    (h : rest.take (k - form.length) <+: tail) : (form ++ rest).take k <+: form ++ tail := by
  rw [List.take_append, List.take_of_length_le hk]
  exact (List.prefix_append_right_inj form).2 h

theorem propsFit_block : ∀ (turns left : Nat) (prev : BitVec 64) (bytes : List Byte), propsFit turns left prev bytes = true →
    ∃ block, IsProps prev block ∧ block.length = left ∧ bytes.take left <+: block
  | 0, left, prev, bytes, h => by
    have hzero : left = 0 := by simpa [propsFit] using h
    subst hzero
    exact ⟨[], .nil prev, rfl, List.nil_prefix⟩
  | turns + 1, left, prev, bytes, h => by
    unfold propsFit at h
    split at h
    · rename_i hzero
      subst hzero
      exact ⟨[], .nil prev, rfl, List.nil_prefix⟩
    · split at h
      · -- the type is not all there
        rename_i n least hfront
        have hle : n + 1 ≤ left := by simpa using h
        obtain ⟨-, -, hlen, ⟨zs, hform⟩, -⟩ := vi64Front_part hfront
        obtain ⟨dlt, hdlt⟩ := hform.exists_integer
        rw [← hdlt] at hform
        obtain ⟨rest, hprops, hrest⟩ := @IsProps.exists_behind prev _ _ _ hform (left - n) (by omega)
        refine ⟨_, hprops, ?_, ?_⟩
        · rw [List.length_append, hform.length, hrest]
          omega
        · rw [List.append_assoc]
          exact take_prefix_of_le (List.prefix_append _ _)
      · rename_i n dlt hfront
        obtain ⟨d, hd, hbytes⟩ := vi64Front_whole hfront
        dsimp only at h
        generalize bytes.drop n = b₁ at h hbytes
        subst hbytes
        split at h
        · rename_i heven
          split at h
          · -- the number is not all there
            rename_i m least hfront'
            obtain ⟨hm, -, hlen, ⟨zs, hform⟩, -⟩ := vi64Front_part hfront'
            obtain ⟨hle, hroom⟩ : n + m ≤ left ∧ (left ≠ n + m + 1 ∨ b₁ = []) := by simpa using h
            by_cases hempty : b₁ = []
            · subst hempty
              obtain ⟨rest, hprops, hrest⟩ := @IsProps.exists_behind prev _ _ _ hd (left - n) (by omega)
              refine ⟨_, hprops, ?_, ?_⟩
              · rw [List.length_append, hd.length, hrest]
                omega
              · rw [List.append_nil]
                exact take_prefix_of_le (List.prefix_append _ _)
            · have hne : left - (n + m) ≠ 1 := by
                rcases hroom with hroom | hroom
                · omega
                · exact absurd hroom hempty
              obtain ⟨tail, htail, htlen⟩ := IsProps.exists_length _ hne (prev + dlt)
              obtain ⟨val, hval⟩ := hform.exists_integer
              rw [← hval] at hform
              refine ⟨_, .number hd heven hform htail, ?_, ?_⟩
              · rw [List.length_append, List.length_append, hd.length, hform.length, htlen]
                omega
              · refine take_append_part (by rw [hd.length]; omega) ?_
                rw [List.append_assoc]
                exact take_prefix_of_le (List.prefix_append _ _)
          · rename_i m val hfront'
            obtain ⟨v, hv, hb₁⟩ := vi64Front_whole hfront'
            obtain ⟨hle, hrest⟩ : n + m ≤ left ∧ propsFit turns (left - (n + m)) (prev + dlt) (b₁.drop m) = true := by
              simpa using h
            obtain ⟨tail, htail, htlen, hpre⟩ := propsFit_block turns _ _ _ hrest
            refine ⟨_, .number hd heven hv htail, ?_, ?_⟩
            · rw [List.length_append, List.length_append, hd.length, hv.length, htlen]
              omega
            · rw [hb₁]
              refine take_append_part (by rw [hd.length]; omega) (take_append_part ?_ ?_)
              · rw [hd.length, hv.length]
                omega
              · rw [hd.length, hv.length, Nat.sub_sub]
                exact hpre
        · rename_i hodd
          split at h
          · -- the number of bytes is not all there
            rename_i m least hfront'
            obtain ⟨hm, -, hlen, ⟨zs, hform⟩, zs', hform'⟩ := vi64Front_part hfront'
            have hle : n + m + least ≤ left := by simpa using h
            by_cases hone : left - (n + m + least) = 1
            · obtain ⟨vlen, hvlen⟩ := hform'.exists_integer
              rw [← hvlen] at hform'
              refine ⟨_, .bytes (v := List.replicate (least + 1) 0) hd hodd hform' (by rw [List.length_replicate, hvlen])
                (.nil _), ?_, ?_⟩
              · simp only [List.length_append, hd.length, hform'.length, List.length_replicate, List.length_nil]
                omega
              · refine take_append_part (by rw [hd.length]; omega) ?_
                rw [List.append_assoc]
                exact take_prefix_of_le (List.prefix_append _ _)
            · obtain ⟨tail, htail, htlen⟩ := IsProps.exists_length _ hone (prev + dlt)
              obtain ⟨vlen, hvlen⟩ := hform.exists_integer
              rw [← hvlen] at hform
              refine ⟨_, .bytes (v := List.replicate least 0) hd hodd hform (by rw [List.length_replicate, hvlen]) htail, ?_, ?_⟩
              · simp only [List.length_append, hd.length, hform.length, List.length_replicate, htlen]
                omega
              · refine take_append_part (by rw [hd.length]; omega) ?_
                rw [List.append_assoc]
                exact take_prefix_of_le (List.prefix_append _ _)
          · rename_i m vlen hfront'
            obtain ⟨l, hl, hb₁⟩ := vi64Front_whole hfront'
            obtain ⟨hle, hrest⟩ : n + m + vlen.toNat ≤ left ∧
                propsFit turns (left - (n + m + vlen.toNat)) (prev + dlt) (b₁.drop (m + vlen.toNat)) = true := by
              simpa using h
            obtain ⟨tail, htail, htlen, hpre⟩ := propsFit_block turns _ _ _ hrest
            rw [← List.drop_drop] at hpre
            generalize b₁.drop m = b₂ at hb₁ hpre
            subst hb₁
            have hv : (b₂.take vlen.toNat ++ List.replicate (vlen.toNat - b₂.length) 0).length = vlen.toNat := by
              rw [List.length_append, List.length_take, List.length_replicate]
              omega
            refine ⟨_, .bytes hd hodd hl hv htail, ?_, ?_⟩
            · rw [List.length_append, List.length_append, List.length_append, hd.length, hl.length, hv, htlen]
              omega
            · refine take_append_part (by rw [hd.length]; omega) (take_append_part ?_ ?_)
              · rw [hd.length, hl.length]
                omega
              · rw [hd.length, hl.length]
                by_cases hshort : b₂.length ≤ vlen.toNat
                · rw [List.take_of_length_le hshort, List.append_assoc]
                  exact take_prefix_of_le (List.prefix_append _ _)
                · have hpad : vlen.toNat - b₂.length = 0 := by omega
                  rw [hpad, List.replicate_zero, List.append_nil]
                  have hsplit : b₂ = b₂.take vlen.toNat ++ b₂.drop vlen.toNat := (List.take_append_drop _ _).symm
                  have htake : (b₂.take vlen.toNat).length = vlen.toNat := by
                    rw [List.length_take]
                    omega
                  conv_lhs => rw [hsplit]
                  refine take_append_part (by rw [htake]; omega) ?_
                  rw [htake, show left - n - m - vlen.toNat = left - (n + m + vlen.toNat) from by omega]
                  exact hpre

theorem drop_prefix_of_append {α : Type} {bytes v tail : List α} (h : bytes <+: v ++ tail) : bytes.drop v.length <+: tail := by
  obtain ⟨zs, hzs⟩ := h
  by_cases hlen : v.length ≤ bytes.length
  · refine ⟨zs, ?_⟩
    have hdrop := congrArg (List.drop v.length) hzs
    rwa [List.drop_append_of_le_length hlen, List.drop_left] at hdrop
  · rw [List.drop_of_length_le (by omega)]
    exact List.nil_prefix

theorem IsProps.fit {prev : BitVec 64} {block : List Byte} (h : IsProps prev block) : ∀ {turns : Nat} {bytes after : List Byte},
    block.length ≤ turns → bytes <+: block ++ after → propsFit turns block.length prev bytes = true := by
  induction h with
  | nil prev =>
    intro turns bytes after _ _
    cases turns with
    | zero => rfl
    | succ turns => rfl
  | @number prev dlt val n m d v tail hd heven hv htail ih =>
    intro turns bytes after hturns hpre
    have hdpos := hd.pos
    have hvpos := hv.pos
    have hlen : (d ++ (v ++ tail)).length = n + m + tail.length := by
      rw [List.length_append, List.length_append, hd.length, hv.length, Nat.add_assoc]
    rw [hlen] at hturns ⊢
    obtain ⟨turns, rfl⟩ : ∃ k, turns = k + 1 := ⟨turns - 1, by omega⟩
    unfold propsFit
    rw [if_neg (by omega)]
    rw [List.append_assoc] at hpre
    rcases vi64Front_prefix hd hpre with ⟨w, b₁, hfront, hw, rfl, hpre₁⟩ | ⟨k, least, zs, hfront, hk, -, -, -, -⟩
    · obtain rfl := BitVec.eq_of_toNat_eq hw
      rw [hfront]
      dsimp only
      have hdrop : (d ++ b₁).drop n = b₁ := by rw [← hd.length, List.drop_left]
      rw [if_pos heven, hdrop]
      rw [List.append_assoc] at hpre₁
      rcases vi64Front_prefix hv hpre₁ with ⟨w', b₂, hfront', hw', rfl, hpre₂⟩ | ⟨k, least, zs, hfront', hk, -, -, -, hne⟩
      · rw [hfront']
        dsimp only
        have hdrop' : (v ++ b₂).drop m = b₂ := by rw [← hv.length, List.drop_left]
        rw [hdrop', show n + m + tail.length - (n + m) = tail.length from by omega, ih (by omega) hpre₂]
        simp
      · rw [hfront']
        have htlen := htail.length_ne_one
        simp only [decide_eq_true_eq]
        refine ⟨by omega, ?_⟩
        by_cases hempty : b₁ = []
        · exact Or.inr hempty
        · have := hne hempty
          left
          omega
    · rw [hfront]
      simp only [decide_eq_true_eq]
      omega
  | @bytes prev dlt vlen n m d l v tail hd hodd hl hv htail ih =>
    intro turns bytes after hturns hpre
    have hdpos := hd.pos
    have hlpos := hl.pos
    have hlen : (d ++ (l ++ (v ++ tail))).length = n + m + vlen.toNat + tail.length := by
      rw [List.length_append, List.length_append, List.length_append, hd.length, hl.length, hv]
      omega
    rw [hlen] at hturns ⊢
    obtain ⟨turns, rfl⟩ : ∃ k, turns = k + 1 := ⟨turns - 1, by omega⟩
    unfold propsFit
    rw [if_neg (by omega)]
    rw [List.append_assoc] at hpre
    rcases vi64Front_prefix hd hpre with ⟨w, b₁, hfront, hw, rfl, hpre₁⟩ | ⟨k, least, zs, hfront, hk, -, -, -, -⟩
    · obtain rfl := BitVec.eq_of_toNat_eq hw
      rw [hfront]
      dsimp only
      have hdrop : (d ++ b₁).drop n = b₁ := by rw [← hd.length, List.drop_left]
      rw [if_neg hodd, hdrop]
      rw [List.append_assoc] at hpre₁
      rcases vi64Front_prefix hl hpre₁ with ⟨w', b₂, hfront', hw', rfl, hpre₂⟩ | ⟨k, least, zs, hfront', hk, hleast, -, -, -⟩
      · obtain rfl := BitVec.eq_of_toNat_eq hw'
        rw [hfront']
        dsimp only
        have hdrop' : (l ++ b₂).drop (m + w'.toNat) = b₂.drop w'.toNat := by
          rw [← List.drop_drop, ← hl.length, List.drop_left]
        have hpre₃ : b₂.drop w'.toNat <+: tail ++ after := by
          rw [List.append_assoc] at hpre₂
          have hd₃ := drop_prefix_of_append hpre₂
          rwa [hv] at hd₃
        rw [hdrop', show n + m + w'.toNat + tail.length - (n + m + w'.toNat) = tail.length from by omega,
          ih (by omega) hpre₃]
        simp
      · rw [hfront']
        simp only [decide_eq_true_eq]
        omega
    · rw [hfront]
      simp only [decide_eq_true_eq]
      omega

/-! ## Objects that can be had -/

theorem bodyLeast_body (bytes : List Byte) : ∃ body, IsBody body ∧ body.length = bodyLeast bytes ∧
    bytes.take (bodyLeast bytes) <+: body := by
  unfold bodyLeast
  cases hfront : vi64Front bytes with
  | part n least =>
    obtain ⟨hpos, -, hlen, ⟨zs, hform⟩, -⟩ := vi64Front_part hfront
    have hpre : ∀ rest k, bytes.take k <+: (bytes ++ zs) ++ rest := fun rest k => by
      rw [List.append_assoc]
      exact take_prefix_of_le (List.prefix_append _ _)
    by_cases hzero : least = 0
    · subst hzero
      refine ⟨_, .status hform form_zero, ?_, hpre _ _⟩
      rw [List.length_append, hform.length]
      rfl
    · obtain ⟨len, hl⟩ := hform.exists_integer
      rw [← hl] at hform
      have hne : len ≠ 0 := by
        rintro rfl
        exact hzero hl.symm
      refine ⟨_, .payload hne hform (p := List.replicate len.toNat 0) List.length_replicate, ?_, hpre _ _⟩
      rw [List.length_append, hform.length, List.length_replicate, hl]
      show n + least = n + max least 1
      omega
  | whole n len =>
    obtain ⟨l, hl, hbytes⟩ := vi64Front_whole hfront
    dsimp only
    generalize bytes.drop n = b₁ at hbytes
    subst hbytes
    by_cases hzero : len = 0
    · subst hzero
      rw [if_pos rfl]
      cases hfront' : vi64Front b₁ with
      | part m least =>
        obtain ⟨-, -, hlen, ⟨zs, hform⟩, -⟩ := vi64Front_part hfront'
        obtain ⟨status, hs⟩ := hform.exists_integer
        rw [← hs] at hform
        dsimp only
        refine ⟨_, .status hl hform, ?_, ?_⟩
        · rw [List.length_append, hl.length, hform.length]
        · refine take_append_part (by rw [hl.length]; omega) ?_
          exact take_prefix_of_le (List.prefix_append _ _)
      | whole m status =>
        obtain ⟨s, hs, hb₁⟩ := vi64Front_whole hfront'
        dsimp only
        refine ⟨_, .status hl hs, ?_, ?_⟩
        · rw [List.length_append, hl.length, hs.length]
        · refine take_append_part (by rw [hl.length]; omega) ?_
          rw [hl.length, Nat.add_sub_cancel_left, hb₁]
          have htake : (s ++ b₁.drop m).take m = s := by
            rw [← hs.length, List.take_left]
          exact htake.symm ▸ List.prefix_rfl
    · rw [if_neg hzero]
      refine ⟨_, .payload hzero hl (p := b₁.take len.toNat ++ List.replicate (len.toNat - b₁.length) 0) ?_, ?_, ?_⟩
      · rw [List.length_append, List.length_take, List.length_replicate]
        omega
      · rw [List.length_append, List.length_append, hl.length, List.length_take, List.length_replicate]
        omega
      · refine take_append_part (by rw [hl.length]; omega) ?_
        rw [hl.length, Nat.add_sub_cancel_left]
        exact List.prefix_append _ _

theorem IsBody.least_le {body bytes after : List Byte} (h : IsBody body) (hpre : bytes <+: body ++ after) :
    bodyLeast bytes ≤ body.length := by
  unfold bodyLeast
  cases h with
  | @status n m status l s hl hs =>
    have hspos := hs.pos
    rw [List.length_append, hl.length, hs.length]
    rw [List.append_assoc] at hpre
    rcases vi64Front_prefix hl hpre with ⟨w, b₁, hfront, hw, rfl, hpre₁⟩ | ⟨k, least, zs, hfront, hk, hleast, -, -, -⟩
    · obtain rfl : w = 0 := BitVec.eq_of_toNat_eq hw
      rw [hfront]
      dsimp only
      have hdrop : (l ++ b₁).drop n = b₁ := by rw [← hl.length, List.drop_left]
      rw [if_pos rfl, hdrop]
      rcases vi64Front_prefix hs hpre₁ with ⟨w', b₂, hfront', -, -, -⟩ | ⟨k, least, zs, hfront', hk, -, -, -, -⟩
      · rw [hfront']
      · rw [hfront']
        exact Nat.add_le_add_left hk n
    · rw [hfront]
      dsimp only
      omega
  | @payload n len l p hlen hl hp =>
    rw [List.length_append, hl.length, hp]
    rw [List.append_assoc] at hpre
    rcases vi64Front_prefix hl hpre with ⟨w, b₁, hfront, hw, rfl, -⟩ | ⟨k, least, zs, hfront, hk, hleast, -, -, -⟩
    · obtain rfl := BitVec.eq_of_toNat_eq hw
      rw [hfront]
      dsimp only
      rw [if_neg hlen]
    · have hpos : 0 < len.toNat := Nat.pos_of_ne_zero fun h0 => hlen (BitVec.eq_of_toNat_eq h0)
      rw [hfront]
      dsimp only
      omega

theorem objectLeast_object {hasProps : Bool} {bytes : List Byte} {k : Nat} (h : objectLeast hasProps bytes = some k) :
    ∃ object, IsObject hasProps object ∧ object.length = k ∧ bytes.take k <+: object := by
  unfold objectLeast at h
  have hbody : ∃ body, IsBody body ∧ body.length = 2 :=
    ⟨_, .status form_zero form_zero, rfl⟩
  cases hfront : vi64Front bytes with
  | part n least =>
    rw [hfront] at h
    obtain ⟨-, -, hlen, ⟨zs, hform⟩, -⟩ := vi64Front_part hfront
    obtain ⟨delta, hdelta⟩ := hform.exists_integer
    rw [← hdelta] at hform
    obtain ⟨body, hb, hblen⟩ := hbody
    have hpre : ∀ rest, bytes.take k <+: (bytes ++ zs) ++ rest := fun rest => by
      rw [List.append_assoc]
      exact take_prefix_of_le (List.prefix_append _ _)
    obtain rfl := Option.some.inj h
    cases hasProps with
    | false =>
      refine ⟨_, .bare hform hb, ?_, hpre _⟩
      rw [List.length_append, hform.length, hblen]
      rfl
    | true =>
      refine ⟨_, .props hform form_zero (.nil 0) hb, ?_, hpre _⟩
      rw [List.length_append, hform.length]
      simp [hblen]
  | whole n delta =>
    rw [hfront] at h
    dsimp only at h
    obtain ⟨d, hd, hbytes⟩ := vi64Front_whole hfront
    generalize bytes.drop n = b₁ at h hbytes
    subst hbytes
    cases hasProps with
    | false =>
      rw [if_neg (by decide)] at h
      obtain rfl := Option.some.inj h
      obtain ⟨body, hb, hblen, hpre⟩ := bodyLeast_body b₁
      refine ⟨_, .bare hd hb, ?_, ?_⟩
      · rw [List.length_append, hd.length, hblen]
      · refine take_append_part (by rw [hd.length]; omega) ?_
        rwa [hd.length, Nat.add_sub_cancel_left]
    | true =>
      rw [if_pos rfl] at h
      cases hfront' : vi64Front b₁ with
      | part m least =>
        rw [hfront'] at h
        obtain rfl := Option.some.inj h
        obtain ⟨-, -, hlen, ⟨zs, hform⟩, -⟩ := vi64Front_part hfront'
        obtain ⟨body, hb, hblen⟩ := hbody
        -- a length that is not all there is not 1
        have hne : least ≠ 1 := vi64Front_least_ne_one hfront'
        obtain ⟨block, hblock, hblen'⟩ := IsProps.exists_length least hne 0
        rw [← hblen'] at hform
        refine ⟨_, .props hd hform hblock hb, ?_, ?_⟩
        · have hlen' := hform.length
          simp only [List.length_append] at hlen' ⊢
          rw [hd.length, hblen', hblen]
          omega
        · refine take_append_part (by rw [hd.length]; omega) ?_
          rw [List.append_assoc]
          exact take_prefix_of_le (List.prefix_append _ _)
      | whole m plen =>
        rw [hfront'] at h
        dsimp only at h
        obtain ⟨l, hl, hb₁⟩ := vi64Front_whole hfront'
        generalize b₁.drop m = b₂ at h hb₁
        subst hb₁
        split at h
        · rename_i hfit
          obtain rfl := Option.some.inj h
          obtain ⟨block, hblock, hblen, hpre⟩ := propsFit_block _ _ _ _ hfit
          obtain ⟨body, hb, hblen', hpre'⟩ := bodyLeast_body (b₂.drop plen.toNat)
          rw [← hblen] at hl
          refine ⟨_, .props hd hl hblock hb, ?_, ?_⟩
          · rw [List.length_append, List.length_append, List.length_append, hd.length, hl.length, hblen, hblen']
          · refine take_append_part (by rw [hd.length]; omega) (take_append_part ?_ ?_)
            · rw [hd.length, hl.length]
              omega
            · rw [hd.length, hl.length, Nat.add_sub_cancel_left, Nat.add_sub_cancel_left, List.take_add]
              by_cases hshort : b₂.length ≤ plen.toNat
              · rw [List.drop_of_length_le hshort, List.take_nil, List.append_nil]
                exact hpre.trans (List.prefix_append _ _)
              · have hwhole : b₂.take plen.toNat = block := hpre.eq_of_length (by rw [List.length_take, hblen]; omega)
                rw [hwhole]
                exact (List.prefix_append_right_inj block).2 hpre'
        · cases h

theorem IsObject.least_le {hasProps : Bool} {object bytes after : List Byte} (h : IsObject hasProps object)
    (hpre : bytes <+: object ++ after) : ∃ k, objectLeast hasProps bytes = some k ∧ k ≤ object.length := by
  have htwo : ∀ body, IsBody body → 2 ≤ body.length := by
    rintro _ (@⟨n, m, status, l, s, hl, hs⟩ | @⟨n, len, l, p, hlen, hl, hp⟩)
    · have := hl.pos
      have := hs.pos
      rw [List.length_append, hl.length, hs.length]
      omega
    · have := hl.pos
      have hpos : 0 < len.toNat := Nat.pos_of_ne_zero fun h0 => hlen (BitVec.eq_of_toNat_eq h0)
      rw [List.length_append, hl.length, hp]
      omega
  unfold objectLeast
  cases h with
  | @bare n delta d body hd hbody =>
    have h2 := htwo body hbody
    rw [List.length_append, hd.length]
    rw [List.append_assoc] at hpre
    rcases vi64Front_prefix hd hpre with ⟨w, b₁, hfront, hw, rfl, hpre₁⟩ | ⟨k, least, zs, hfront, hk, -, -, -, -⟩
    · rw [hfront]
      dsimp only
      have hdrop : (d ++ b₁).drop n = b₁ := by rw [← hd.length, List.drop_left]
      rw [hdrop, if_neg (by decide)]
      exact ⟨_, rfl, Nat.add_le_add_left (hbody.least_le hpre₁) n⟩
    · rw [hfront]
      refine ⟨_, rfl, ?_⟩
      rw [if_neg (by decide)]
      omega
  | @props n m delta d l block body hd hl hblock hbody =>
    have h2 := htwo body hbody
    have hlpos := hl.pos
    rw [List.length_append, List.length_append, List.length_append, hd.length, hl.length]
    rw [List.append_assoc] at hpre
    rcases vi64Front_prefix hd hpre with ⟨w, b₁, hfront, hw, rfl, hpre₁⟩ | ⟨k, least, zs, hfront, hk, -, -, -, -⟩
    · rw [hfront]
      dsimp only
      have hdrop : (d ++ b₁).drop n = b₁ := by rw [← hd.length, List.drop_left]
      rw [hdrop, if_pos rfl]
      rw [List.append_assoc] at hpre₁
      rcases vi64Front_prefix hl hpre₁ with ⟨w', b₂, hfront', hw', rfl, hpre₂⟩ | ⟨k, least, zs, hfront', hk, hleast, -, -, -⟩
      · rw [hfront']
        dsimp only
        have hdrop' : (l ++ b₂).drop m = b₂ := by rw [← hl.length, List.drop_left]
        rw [List.append_assoc] at hpre₂
        have hfit := hblock.fit (Nat.le_refl _) hpre₂
        have hrest := drop_prefix_of_append hpre₂
        rw [hdrop', hw', if_pos hfit]
        refine ⟨_, rfl, ?_⟩
        have := hbody.least_le hrest
        omega
      · rw [hfront']
        exact ⟨_, rfl, by omega⟩
    · rw [hfront]
      refine ⟨_, rfl, ?_⟩
      rw [if_pos rfl]
      omega

/-! ## What `ParseObject` takes -/

/-- No length that was tested wraps around with the offset it was counted from. -/
def NoWrap (tests : List (Nat × Nat)) : Prop := ∀ t ∈ tests, t.1 + t.2 < wordSize

theorem NoWrap.snoc {tests : List (Nat × Nat)} (h : NoWrap tests) {off n : Nat} (hn : off + n < wordSize) :
    NoWrap (tests ++ [(off, n)]) := by
  intro t ht
  rcases List.mem_append.1 ht with ht | ht
  · exact h t ht
  · rw [List.mem_singleton.1 ht]
    exact hn

section Reads

variable {b : List Byte}

theorem off_le_of_drop {form rest : List Byte} {off : Nat} (hne : form ≠ []) (h : b.drop off = form ++ rest) : off ≤ b.length := by
  by_contra hlt
  rw [List.drop_of_length_le (by omega)] at h
  exact hne (List.append_eq_nil_iff.1 h.symm).1

theorem drop_of_drop_append {form rest : List Byte} {off : Nat} (h : b.drop off = form ++ rest) :
    b.drop (off + form.length) = rest := by
  rw [← List.drop_drop, h, List.drop_left]

theorem moqReadVi64_form {n off : Nat} {v : BitVec 64} {form rest : List Byte} (h : Vi64Form n v.toNat form)
    (hb : b.drop off = form ++ rest) (tests : List (Nat × Nat)) :
    (moqReadVi64 : PushScan (BitVec 64)) b ⟨off, tests⟩ = .ok v ⟨off + n, tests⟩ ∧ b.drop (off + n) = rest := by
  have hne : form ≠ [] := by
    rintro rfl
    have hlen := h.length
    have hpos := h.pos
    rw [List.length_nil] at hlen
    omega
  have hoff := off_le_of_drop hne hb
  have hlen : (b.take off).length = off := by
    rw [List.length_take]
    omega
  have hread := h.read (ε := PushStop) (b.take off) rest tests
  rw [← hb, List.take_append_drop, hlen] at hread
  refine ⟨?_, by rw [← h.length]; exact drop_of_drop_append hb⟩
  rw [moqReadVi64_nonMinimal, hread]

theorem moqReadVi64_isForm {c c' : Cursor} {v : BitVec 64} (h : (moqReadVi64 : PushScan (BitVec 64)) b c = .ok v c') :
    ∃ n form, Vi64Form n v.toNat form ∧ b.drop c.off = form ++ b.drop c'.off ∧ c'.off = c.off + n ∧ c'.off ≤ b.length ∧
    c'.tests = c.tests := by
  obtain ⟨hoff, hnext, hle, htests⟩ := moqReadVi64_eq_ok h
  have hdrop : b.drop c.off = b.getD c.off 0 :: b.drop (c.off + 1) := by
    rw [List.drop_eq_getElem_cons hoff, List.getD_eq_getElem b 0 hoff]
  unfold moqReadVi64 at h
  rw [if_neg (by omega)] at h
  dsimp only at h
  rw [if_neg (by omega)] at h
  generalize b.getD c.off 0 = x at h hnext hdrop
  have hlead : moqLead x 0 8 = ((b.drop (c.off + 1)).take (moqLead x 0 8)).length := by
    rw [List.length_take, List.length_drop]
    omega
  have hform := vi64Form_of_lead hlead
  rw [← hlead] at hform
  have hv : v = vi64Value x ((b.drop (c.off + 1)).take (moqLead x 0 8)) := by
    unfold vi64Value
    rw [← hlead]
    cases h
    rfl
  refine ⟨_, _, hv ▸ hform, ?_, hnext, hle, htests⟩
  have hsplit := List.take_append_drop (moqLead x 0 8) (b.drop (c.off + 1))
  rw [List.drop_drop] at hsplit
  rw [hdrop, hnext, List.cons_append, show c.off + (moqLead x 0 8 + 1) = c.off + 1 + moqLead x 0 8 from by omega, hsplit]

theorem readBytes_there {off : Nat} {len : BitVec 64} {p rest : List Byte} (hp : p.length = len.toNat) (hb : b.drop off = p ++
    rest) (hend : off + p.length < wordSize) (hle : off + p.length ≤ b.length) (tests : List (Nat × Nat)) :
    readBytes len b ⟨off, tests⟩ = .ok off ⟨off + p.length, tests ++ [(off, p.length)]⟩ ∧ b.drop (off + p.length) = rest := by
  have hlen : (b.take off).length = off := by
    rw [List.length_take]
    omega
  have htake := take_whole (ε := PushStop) (b.take off) p rest tests (by rw [List.length_append, hlen]; exact hend)
  rw [← hb, List.take_append_drop, List.length_append, hlen] at htake
  refine ⟨?_, drop_of_drop_append hb⟩
  unfold readBytes
  rw [← hp]
  exact htake

theorem readBytes_isThere {c c' : Cursor} {len : BitVec 64} {v : Nat} (h : readBytes len b c = .ok v c') : v = c.off ∧
    c'.off ≤ b.length ∧ c'.tests = c.tests ++ [(c.off, len.toNat)] ∧ (c.off + len.toNat < wordSize → c'.off = c.off + len.toNat ∧
    ∃ p, p.length = len.toNat ∧ b.drop c.off = p ++ b.drop c'.off) := by
  obtain ⟨hv, hoff, hle⟩ := take_eq_ok h
  have htests : c'.tests = c.tests ++ [(c.off, len.toNat)] := by
    unfold readBytes take at h
    rcases room_cases (ε := PushStop) (n := len.toNat) b c with ⟨-, hr⟩ | ⟨-, hr⟩
    · rw [bind_short hr] at h
      cases h
    · rw [bind_ok hr] at h
      cases h
      rfl
  refine ⟨hv, hle, htests, fun hend => ?_⟩
  have hnext : c'.off = c.off + len.toNat := by rw [hoff, add64, Nat.mod_eq_of_lt hend]
  refine ⟨hnext, (b.drop c.off).take len.toNat, ?_, ?_⟩
  · rw [List.length_take, List.length_drop]
    omega
  · rw [hnext, ← List.drop_drop, List.take_append_drop]

/-- The config is in the buffer, and no longer than a vector can be. -/
structure ConfigThere (b : List Byte) (o : LocProps) : Prop where
  there : o.cfg + o.cfgLen ≤ b.length
  le : o.cfgLen ≤ maxSize

theorem ConfigThere.number {o : LocProps} (h : ConfigThere b o) (type val : BitVec 64) : ConfigThere b (o.number type val) :=
  ⟨h.there, h.le⟩

theorem ConfigThere.bytes {o : LocProps} (h : ConfigThere b o) (type : BitVec 64) {v n : Nat} (mark : Byte)
    (hv : v + n ≤ b.length) (hn : n ≤ maxSize) : ConfigThere b (o.bytes type v n mark) := by
  unfold LocProps.bytes
  dsimp only
  by_cases hcfg : type = kLocVideoConfig ∨ type = kLocAudioConfig
  · exact ⟨by simpa [hcfg] using hv, by simpa [hcfg] using hn⟩
  · exact ⟨by simpa [hcfg] using h.there, by simpa [hcfg] using h.le⟩

theorem frameMark_there {type vlen : BitVec 64} {v : Nat} (h : v + vlen.toNat ≤ b.length) (c : Cursor) :
    ∃ mark, frameMark type vlen v b c = .ok mark c := by
  unfold frameMark
  split
  · rename_i hmark
    have hpos : 0 < vlen.toNat := Nat.pos_of_ne_zero fun h0 => hmark.2 (BitVec.eq_of_toNat_eq h0)
    unfold firstOf
    have hone : bytesOf v 1 b c = .ok ((b.drop v).take 1) c := span_ok (by omega) c
    exact ⟨_, bind_ok hone⟩
  · exact ⟨0, rfl⟩

theorem frameMark_cursor {type vlen : BitVec 64} {v : Nat} {mark : Byte} {c c' : Cursor}
    (h : frameMark type vlen v b c = .ok mark c') : c' = c := by
  unfold frameMark at h
  split at h
  · unfold firstOf at h
    obtain ⟨bytes, c₁, h₁, h₂⟩ := bind_eq_ok.1 h
    cases h₂
    exact (span_eq_ok h₁).2.1
  · cases h
    rfl

theorem IsProps.read {prev : BitVec 64} {block : List Byte} (h : IsProps prev block) : ∀ {off turns : Nat} {o : LocProps}
    {rest : List Byte} {tests : List (Nat × Nat)}, b.drop off = block ++ rest → off + block.length ≤ b.length →
    off + block.length ≤ maxSize → block.length < turns → ConfigThere b o → NoWrap tests → ∃ o' tests',
    parseProps (off + block.length) turns prev o b ⟨off, tests⟩ = .ok o' ⟨off + block.length, tests'⟩ ∧ ConfigThere b o' ∧
    NoWrap tests' := by
  have hword : maxSize < wordSize := by decide
  induction h with
  | nil prev =>
    intro off turns o rest tests _ _ _ hturns ho htests
    obtain ⟨turns, rfl⟩ : ∃ k, turns = k + 1 := ⟨turns - 1, by omega⟩
    exact ⟨o, tests, parseProps_done (Nat.le_refl _), ho, htests⟩
  | @number prev dlt val n m d v tail hd heven hv htail ih =>
    intro off turns o rest tests hb hlen hmax hturns ho htests
    have hdpos := hd.pos
    have hl : (d ++ (v ++ tail)).length = n + m + tail.length := by
      rw [List.length_append, List.length_append, hd.length, hv.length, Nat.add_assoc]
    rw [hl] at hlen hmax hturns ⊢
    obtain ⟨turns, rfl⟩ : ∃ k, turns = k + 1 := ⟨turns - 1, by omega⟩
    rw [List.append_assoc, List.append_assoc] at hb
    obtain ⟨h₁, hb₁⟩ := moqReadVi64_form hd hb tests
    obtain ⟨h₂, hb₂⟩ := moqReadVi64_form hv hb₁ tests
    obtain ⟨o', tests', hrest, ho', htests'⟩ := @ih _ turns _ _ _ hb₂ (by omega) (by omega) (by omega)
      (ho.number (prev + dlt) val) htests
    refine ⟨o', tests', ?_, ho', htests'⟩
    have hpend : off + n + m + tail.length = off + (n + m + tail.length) := by omega
    rw [hpend] at hrest
    rw [parseProps_even (by show off < _; omega) h₁ heven h₂, hrest]
  | @bytes prev dlt vlen n m d l v tail hd hodd hl hv htail ih =>
    intro off turns o rest tests hb hlen hmax hturns ho htests
    have hdpos := hd.pos
    have hlength : (d ++ (l ++ (v ++ tail))).length = n + m + v.length + tail.length := by
      rw [List.length_append, List.length_append, List.length_append, hd.length, hl.length]
      omega
    rw [hlength] at hlen hmax hturns ⊢
    obtain ⟨turns, rfl⟩ : ∃ k, turns = k + 1 := ⟨turns - 1, by omega⟩
    rw [List.append_assoc, List.append_assoc, List.append_assoc] at hb
    obtain ⟨h₁, hb₁⟩ := moqReadVi64_form hd hb tests
    obtain ⟨h₂, hb₂⟩ := moqReadVi64_form hl hb₁ tests
    obtain ⟨h₃, hb₃⟩ := readBytes_there hv hb₂ (by omega) (by omega) tests
    have hfits : off + n + m + vlen.toNat ≤ b.length := by omega
    obtain ⟨mark, h₄⟩ := @frameMark_there b (prev + dlt) vlen (off + n + m) hfits
      ⟨off + n + m + v.length, tests ++ [(off + n + m, v.length)]⟩
    have hnowrap : NoWrap (tests ++ [(off + n + m, v.length)]) := htests.snoc (by omega)
    obtain ⟨o', tests', hrest, ho', htests'⟩ := @ih _ turns _ _ _ hb₃ (by omega) (by omega) (by omega)
      (ho.bytes (prev + dlt) (v := off + n + m) (n := vlen.toNat) mark (by omega) (by omega)) hnowrap
    refine ⟨o', tests', ?_, ho', htests'⟩
    have hpend : off + n + m + v.length + tail.length = off + (n + m + v.length + tail.length) := by omega
    rw [hpend] at hrest
    rw [parseProps_odd (by show off < _; omega) h₁ hodd h₂ h₃ h₄, hrest]

theorem parseProps_tests {pend : Nat} : ∀ (turns : Nat) {prev : BitVec 64} {o o' : LocProps} {c c' : Cursor},
    parseProps pend turns prev o b c = .ok o' c' → ∀ t ∈ c.tests, t ∈ c'.tests
  | 0, _, _, _, _, _, h => by cases h
  | turns + 1, prev, o, o', c, c', h => by
    intro t ht
    rw [parseProps, bind_ok (pos_apply b c)] at h
    split at h
    · obtain ⟨dlt, c₁, h₁, h⟩ := bind_eq_ok.1 h
      obtain ⟨-, -, -, -, -, -, ht₁⟩ := moqReadVi64_isForm h₁
      split at h
      · obtain ⟨val, c₂, h₂, h⟩ := bind_eq_ok.1 h
        obtain ⟨-, -, -, -, -, -, ht₂⟩ := moqReadVi64_isForm h₂
        exact parseProps_tests turns h t (by rw [ht₂, ht₁]; exact ht)
      · obtain ⟨vlen, c₂, h₂, h⟩ := bind_eq_ok.1 h
        obtain ⟨-, -, -, -, -, -, ht₂⟩ := moqReadVi64_isForm h₂
        obtain ⟨v, c₃, h₃, h⟩ := bind_eq_ok.1 h
        obtain ⟨-, -, ht₃, -⟩ := readBytes_isThere h₃
        obtain ⟨mark, c₄, h₄, h⟩ := bind_eq_ok.1 h
        rw [frameMark_cursor h₄] at h
        exact parseProps_tests turns h t (by rw [ht₃, ht₂, ht₁]; exact List.mem_append_left _ ht)
    · cases h
      exact ht

theorem parseProps_isProps {pend : Nat} : ∀ (turns : Nat) {prev : BitVec 64} {o o' : LocProps} {c c' : Cursor},
    parseProps pend turns prev o b c = .ok o' c' → NoWrap c'.tests → c.off ≤ b.length →
      ∃ block, IsProps prev block ∧ b.drop c.off = block ++ b.drop c'.off ∧ c'.off = c.off + block.length ∧ pend ≤ c'.off ∧
        c'.off ≤ b.length
  | 0, _, _, _, _, _, h, _, _ => by cases h
  | turns + 1, prev, o, o', c, c', h, hwrap, hoff => by
    rw [parseProps, bind_ok (pos_apply b c)] at h
    split at h
    · obtain ⟨dlt, c₁, h₁, h⟩ := bind_eq_ok.1 h
      obtain ⟨n, d, hd, hb₁, ho₁, -, -⟩ := moqReadVi64_isForm h₁
      split at h
      · rename_i heven
        obtain ⟨val, c₂, h₂, h⟩ := bind_eq_ok.1 h
        obtain ⟨m, v, hv, hb₂, ho₂, hle₂, -⟩ := moqReadVi64_isForm h₂
        obtain ⟨tail, htail, hb₃, ho₃, hpend, hle⟩ := parseProps_isProps turns h hwrap hle₂
        refine ⟨_, .number hd heven hv htail, ?_, ?_, hpend, hle⟩
        · rw [hb₁, hb₂, hb₃, List.append_assoc, List.append_assoc]
        · rw [List.length_append, List.length_append, hd.length, hv.length]
          omega
      · rename_i hodd
        obtain ⟨vlen, c₂, h₂, h⟩ := bind_eq_ok.1 h
        obtain ⟨m, l, hl, hb₂, ho₂, -, -⟩ := moqReadVi64_isForm h₂
        obtain ⟨v, c₃, h₃, h⟩ := bind_eq_ok.1 h
        obtain ⟨-, hle₃, ht₃, hthere⟩ := readBytes_isThere h₃
        obtain ⟨mark, c₄, h₄, h⟩ := bind_eq_ok.1 h
        rw [frameMark_cursor h₄] at h
        have hlast := parseProps_tests turns h (c₂.off, vlen.toNat)
          (by rw [ht₃]; exact List.mem_append_right _ (List.mem_singleton.2 rfl))
        obtain ⟨ho₃, p, hp, hb₃⟩ := hthere (hwrap _ hlast)
        obtain ⟨tail, htail, hb₄, ho₄, hpend, hle⟩ := parseProps_isProps turns h hwrap hle₃
        refine ⟨_, .bytes hd hodd hl hp htail, ?_, ?_, hpend, hle⟩
        · rw [hb₁, hb₂, hb₃, hb₄, List.append_assoc, List.append_assoc, List.append_assoc]
        · rw [List.length_append, List.length_append, List.length_append, hd.length, hl.length, hp]
          omega
    · rename_i hdone
      cases h
      exact ⟨[], .nil prev, rfl, rfl, by omega, hoff⟩

theorem parsePropBlock_there {off m : Nat} {l block rest : List Byte} (hl : Vi64Form m block.length l) (hblock : IsProps 0 block)
    (hb : b.drop off = l ++ (block ++ rest)) (hlen : off + m + block.length ≤ b.length) (hmax : b.length ≤ maxSize)
    {tests : List (Nat × Nat)} (htests : NoWrap tests) : ∃ o tests', parsePropBlock b ⟨off, tests⟩ =
    .ok o ⟨off + m + block.length, tests'⟩ ∧ ConfigThere b o ∧ NoWrap tests' ∧ b.drop (off + m + block.length) = rest := by
  have hword : maxSize < wordSize := by decide
  obtain ⟨plen, hplen⟩ := hl.exists_integer
  rw [← hplen] at hl
  obtain ⟨h₁, hb₁⟩ := moqReadVi64_form hl hb tests
  have hfront : (b.take (off + m)).length = off + m := by
    rw [List.length_take]
    omega
  have h₂ := blockEnd_whole (ε := PushStop) (b.take (off + m)) block rest tests (by rw [List.length_append, hfront]; omega)
  rw [← hb₁, List.take_append_drop, List.length_append, hfront] at h₂
  have hturns : block.length < propTurns (off + m + block.length) := by
    have hw : (off + m + block.length) * 1 ≤ (off + m + block.length) * wordSize := Nat.mul_le_mul_left _ (by decide)
    unfold propTurns
    omega
  have hnowrap : NoWrap (tests ++ [(off + m, block.length)]) := htests.snoc (by omega)
  have hstart : ConfigThere b {} := ⟨Nat.zero_le _, Nat.zero_le _⟩
  obtain ⟨o, tests', h₃, ho, htests'⟩ := hblock.read hb₁ hlen (by omega) hturns hstart hnowrap
  refine ⟨o, tests', ?_, ho, htests', ?_⟩
  · rw [parsePropBlock, bind_ok h₁, hplen, bind_ok h₂, bind_ok h₃, bind_ok (pos_apply _ _), if_neg (Nat.lt_irrefl _)]
    rfl
  · exact drop_of_drop_append hb₁

theorem parsePropBlock_isProps {c c' : Cursor} {o : LocProps} (h : parsePropBlock b c = .ok o c') (hwrap : NoWrap c'.tests) :
    ∃ m l block, Vi64Form m block.length l ∧ IsProps 0 block ∧ b.drop c.off = l ++ (block ++ b.drop c'.off) ∧
    c'.off ≤ b.length := by
  obtain ⟨plen, c₁, h₁, h⟩ := bind_eq_ok.1 h
  obtain ⟨m, l, hl, hb₁, -, hle₁, -⟩ := moqReadVi64_isForm h₁
  obtain ⟨pend, c₂, h₂, h⟩ := bind_eq_ok.1 h
  have hend : pend = add64 c₁.off plen.toNat ∧ c₂ = ⟨c₁.off, c₁.tests ++ [(c₁.off, plen.toNat)]⟩ := by
    unfold blockEnd at h₂
    rcases room_cases (ε := PushStop) (n := plen.toNat) b c₁ with ⟨-, hr⟩ | ⟨-, hr⟩
    · rw [bind_short hr] at h₂
      cases h₂
    · rw [bind_ok hr] at h₂
      cases h₂
      exact ⟨rfl, rfl⟩
  obtain ⟨hpend, rfl⟩ := hend
  obtain ⟨o', c₃, h₃, h⟩ := bind_eq_ok.1 h
  rw [bind_ok (pos_apply b c₃)] at h
  split at h
  · cases h
  · rename_i hover
    cases h
    have hlast := parseProps_tests _ h₃ (c₁.off, plen.toNat) (List.mem_append_right _ (List.mem_singleton.2 rfl))
    have hnowrap : c₁.off + plen.toNat < wordSize := hwrap _ hlast
    rw [add64, Nat.mod_eq_of_lt hnowrap] at hpend
    obtain ⟨block, hblock, hb₃, hoff₃, hdone, hle₃⟩ := parseProps_isProps _ h₃ hwrap hle₁
    have hoff₃' : c₃.off = c₁.off + block.length := hoff₃
    have hblen : block.length = plen.toNat := by omega
    have hc₃ : c₃.off = pend := by omega
    refine ⟨m, l, block, hblen ▸ hl, hblock, ?_, hc₃ ▸ hle₃⟩
    have hb₃' : b.drop c₁.off = block ++ b.drop c₃.off := hb₃
    rw [hb₁, hb₃', hc₃]

end Reads

theorem copyBytes_there {b : List Byte} {v n : Nat} (h : v + n ≤ b.length) (hn : n ≤ maxSize) (c : Cursor) :
    ∃ x, copyBytes v n b c = .ok x c := by
  unfold copyBytes
  rw [if_neg (by omega)]
  exact ⟨_, span_ok h c⟩

theorem ConfigThere.copied {b : List Byte} {o : LocProps} (h : ConfigThere b o) (c : Cursor) :
    ∃ x, copyConfig o b c = .ok x c := by
  unfold copyConfig
  split
  · exact ⟨[], rfl⟩
  · exact copyBytes_there h.there h.le c

def parseBody (delta : BitVec 64) (o : LocProps) : PushScan (BitVec 64 × Option LocObject) := do
  let payloadLen ← moqReadVi64
  if payloadLen = 0 then
    let _ ← moqReadVi64
    return (delta, none)
  else
    let payload ← readBytes payloadLen
    let cfg ← copyConfig o
    let pay ← copyBytes payload payloadLen.toNat
    return (delta, some ⟨o.tsMs, o.ctsMs, o.key, cfg, pay⟩)

theorem parseObject_body (hasProps : Bool) :
    parseObject hasProps = (moqReadVi64 >>= fun delta => readProps hasProps >>= fun o => parseBody delta o) := rfl

section Body

variable {b : List Byte} {delta : BitVec 64} {o : LocProps}

theorem IsBody.read {body rest : List Byte} (h : IsBody body) {off : Nat} (hb : b.drop off = body ++ rest)
    (hlen : off + body.length ≤ b.length) (hmax : b.length ≤ maxSize) (ho : ConfigThere b o) {tests : List (Nat × Nat)}
    (htests : NoWrap tests) : ∃ r c, parseBody delta o b ⟨off, tests⟩ = .ok r c ∧ NoWrap c.tests := by
  have hword : maxSize < wordSize := by decide
  cases h with
  | @status n m status l s hl hs =>
    rw [List.append_assoc] at hb
    obtain ⟨h₁, hb₁⟩ := @moqReadVi64_form b n off 0 l (s ++ rest) hl hb tests
    obtain ⟨h₂, -⟩ := moqReadVi64_form hs hb₁ tests
    refine ⟨(delta, none), ⟨off + n + m, tests⟩, ?_, htests⟩
    rw [parseBody, bind_ok h₁, if_pos rfl, bind_ok h₂]
    rfl
  | @payload n len l p hne hl hp =>
    rw [List.append_assoc] at hb
    rw [List.length_append, hl.length] at hlen
    obtain ⟨h₁, hb₁⟩ := moqReadVi64_form hl hb tests
    obtain ⟨h₂, -⟩ := readBytes_there hp hb₁ (by omega) (by omega) tests
    have hnowrap : NoWrap (tests ++ [(off + n, p.length)]) := htests.snoc (by omega)
    obtain ⟨cfg, h₃⟩ := ho.copied ⟨off + n + p.length, tests ++ [(off + n, p.length)]⟩
    obtain ⟨pay, h₄⟩ := @copyBytes_there b (off + n) len.toNat (by omega) (by omega)
      ⟨off + n + p.length, tests ++ [(off + n, p.length)]⟩
    refine ⟨(delta, some ⟨o.tsMs, o.ctsMs, o.key, cfg, pay⟩), ⟨off + n + p.length, tests ++ [(off + n, p.length)]⟩, ?_, hnowrap⟩
    rw [parseBody, bind_ok h₁, if_neg hne, bind_ok h₂, bind_ok h₃, bind_ok h₄]
    rfl

theorem parseBody_isBody {c c' : Cursor} {r : BitVec 64 × Option LocObject} (h : parseBody delta o b c = .ok r c')
    (hwrap : NoWrap c'.tests) : ∃ body rest, IsBody body ∧ b.drop c.off = body ++ rest ∧ NoWrap c.tests := by
  obtain ⟨len, c₁, h₁, h⟩ := bind_eq_ok.1 h
  obtain ⟨n, l, hl, hb₁, -, -, ht₁⟩ := moqReadVi64_isForm h₁
  split at h
  · rename_i hzero
    obtain ⟨status, c₂, h₂, h⟩ := bind_eq_ok.1 h
    obtain ⟨m, s, hs, hb₂, -, -, hts⟩ := moqReadVi64_isForm h₂
    cases h
    rw [hts, ht₁] at hwrap
    rw [hzero] at hl
    exact ⟨l ++ s, _, .status hl hs, by rw [hb₁, hb₂, List.append_assoc], hwrap⟩
  · rename_i hne
    obtain ⟨v, c₂, h₂, h⟩ := bind_eq_ok.1 h
    obtain ⟨-, -, ht₂, hthere⟩ := readBytes_isThere h₂
    obtain ⟨cfg, c₃, h₃, h⟩ := bind_eq_ok.1 h
    obtain ⟨pay, c₄, h₄, hend⟩ := bind_eq_ok.1 h
    obtain rfl := copyConfig_eq_ok h₃
    obtain ⟨-, rfl, -⟩ := copyBytes_eq_ok h₄
    cases hend
    have hlast : (c₁.off, len.toNat) ∈ c'.tests := by
      rw [ht₂]
      exact List.mem_append_right _ (List.mem_singleton.2 rfl)
    obtain ⟨-, p, hp, hb₂⟩ := hthere (hwrap _ hlast)
    rw [ht₂, ht₁] at hwrap
    exact ⟨l ++ p, _, .payload hne hl hp, by rw [hb₁, hb₂, List.append_assoc], fun t ht =>
      hwrap t (List.mem_append_left _ ht)⟩

end Body

theorem IsObject.read {hasProps : Bool} {object rest : List Byte} (h : IsObject hasProps object) (hmax : (object ++
    rest).length ≤ maxSize) : ∃ r c, parseObject hasProps (object ++ rest) ⟨0, []⟩ = .ok r c ∧ NoWrap c.tests := by
  have hnone : NoWrap [] := fun _ ht => absurd ht List.not_mem_nil
  rw [parseObject_body]
  cases h with
  | @bare n delta d body hd hbody =>
    have hb : (d ++ body ++ rest).drop 0 = d ++ (body ++ rest) := by rw [List.drop_zero, List.append_assoc]
    obtain ⟨h₁, hb₁⟩ := moqReadVi64_form hd hb []
    have hstart : ConfigThere (d ++ body ++ rest) {} := ⟨Nat.zero_le _, Nat.zero_le _⟩
    have hlen : 0 + n + body.length ≤ (d ++ body ++ rest).length := by
      rw [List.length_append, List.length_append, hd.length]
      omega
    obtain ⟨r, c, h₂, hc⟩ := @IsBody.read _ delta _ _ _ hbody _ hb₁ hlen hmax hstart _ hnone
    exact ⟨r, c, by rw [bind_ok h₁]; exact h₂, hc⟩
  | @props n m delta d l block body hd hl hblock hbody =>
    generalize hB : d ++ (l ++ (block ++ body)) ++ rest = B at hmax ⊢
    have hb : B.drop 0 = d ++ (l ++ (block ++ (body ++ rest))) := by
      rw [List.drop_zero, ← hB]
      simp only [List.append_assoc]
    have hlength : n + m + block.length + body.length ≤ B.length := by
      rw [← hB]
      simp only [List.length_append, hd.length, hl.length]
      omega
    obtain ⟨h₁, hb₁⟩ := moqReadVi64_form hd hb []
    obtain ⟨o, tests, h₂, ho, htests, hb₂⟩ := parsePropBlock_there hl hblock hb₁ (by omega) hmax hnone
    obtain ⟨r, c, h₃, hc⟩ := @IsBody.read _ delta _ _ _ hbody _ hb₂ (by omega) hmax ho _ htests
    refine ⟨r, c, ?_, hc⟩
    rw [bind_ok h₁, readProps, if_pos rfl, bind_ok h₂, h₃]

theorem parseObject_isObject {hasProps : Bool} {b : List Byte} {r : BitVec 64 × Option LocObject} {c : Cursor}
    (h : parseObject hasProps b ⟨0, []⟩ = .ok r c) (hwrap : NoWrap c.tests) :
    ∃ object rest, IsObject hasProps object ∧ b = object ++ rest := by
  rw [parseObject_body] at h
  obtain ⟨delta, c₁, h₁, h⟩ := bind_eq_ok.1 h
  obtain ⟨n, d, hd, hb₁, -, -, -⟩ := moqReadVi64_isForm h₁
  rw [List.drop_zero] at hb₁
  obtain ⟨o, c₂, h₂, h⟩ := bind_eq_ok.1 h
  obtain ⟨body, rest, hbody, hb₃, hwrap₂⟩ := parseBody_isBody h hwrap
  cases hasProps with
  | false =>
    cases h₂
    exact ⟨d ++ body, rest, .bare hd hbody, by rw [hb₁, hb₃, List.append_assoc]⟩
  | true =>
    rw [readProps, if_pos rfl] at h₂
    obtain ⟨m, l, block, hl, hblock, hb₂, -⟩ := parsePropBlock_isProps h₂ hwrap₂
    refine ⟨d ++ (l ++ (block ++ body)), rest, .props hd hl hblock hbody, ?_⟩
    rw [hb₁, hb₂, hb₃]
    simp only [List.append_assoc]

/-! ## What a part waits for -/

/-- **Something makes an object of the buffer**: bytes behind it that `ParseObject` then takes, without a length that wraps
around, in a buffer a vector can hold. -/
def Completes (hasProps : Bool) (bytes : List Byte) : Prop :=
  ∃ ext r c, (bytes ++ ext).length ≤ maxSize ∧ parseObject hasProps (bytes ++ ext) ⟨0, []⟩ = .ok r c ∧ NoWrap c.tests

/-- **Something makes an object of the buffer exactly if the lengths it announces come to an end.** -/
theorem object_completes_iff (hasProps : Bool) (bytes : List Byte) :
    Completes hasProps bytes ↔ ∃ k, objectLeast hasProps bytes = some k ∧ max k bytes.length ≤ maxSize := by
  constructor
  · rintro ⟨ext, r, c, hmax, hread, hwrap⟩
    obtain ⟨object, rest, hobject, hb⟩ := parseObject_isObject hread hwrap
    have hlen : (bytes ++ ext).length = object.length + rest.length := by rw [hb, List.length_append]
    rw [List.length_append] at hlen hmax
    obtain ⟨k, hk, hle⟩ := @IsObject.least_le _ object bytes rest hobject (hb ▸ List.prefix_append bytes ext)
    exact ⟨k, hk, by omega⟩
  · rintro ⟨k, hk, hmax⟩
    obtain ⟨object, hobject, hlen, hpre⟩ := objectLeast_object hk
    rcases Nat.le_total k bytes.length with hle | hle
    · have hfront : bytes.take k = object := hpre.eq_of_length (by rw [List.length_take, hlen]; omega)
      have hb : object ++ bytes.drop k = bytes := by rw [← hfront, List.take_append_drop]
      obtain ⟨r, c, hread, hwrap⟩ := @IsObject.read _ object (bytes.drop k) hobject (by rw [hb]; omega)
      rw [hb] at hread
      exact ⟨[], r, c, by rw [List.append_nil]; omega, by rw [List.append_nil]; exact hread, hwrap⟩
    · rw [List.take_of_length_le hle] at hpre
      obtain ⟨ext, rfl⟩ := hpre
      obtain ⟨r, c, hread, hwrap⟩ := @IsObject.read _ (bytes ++ ext) [] hobject (by rw [List.append_nil]; omega)
      rw [List.append_nil] at hread
      exact ⟨ext, r, c, by omega, hread, hwrap⟩

/-- **A block of one byte**: the integer that stands in it has its value behind the block, whatever that is. -/
theorem object_stalls_one_byte : (∃ c, parseObject true [0x00, 0x01, 0x00] ⟨0, []⟩ = .short c) ∧
    ∀ ext r c, parseObject true ([0x00, 0x01, 0x00] ++ ext) ⟨0, []⟩ ≠ .ok r c := by
  refine ⟨⟨⟨3, [(2, 1)]⟩, rfl⟩, fun ext r c h => ?_⟩
  generalize hB : ([0x00, 0x01, 0x00] : List Byte) ++ ext = B at h
  have hb : B.drop 0 = [0x00] ++ ([0x01] ++ ([0x00] ++ ext)) := by
    rw [← hB]
    rfl
  obtain ⟨h₁, hb₁⟩ := moqReadVi64_form form_zero hb []
  have hone : Vi64Form 1 (1 : BitVec 64).toNat [0x01] := ⟨by decide, by decide, by decide, rfl, by decide⟩
  obtain ⟨h₂, hb₂⟩ := moqReadVi64_form hone hb₁ []
  have h₃ : (blockEnd 1 : PushScan Nat) B ⟨2, []⟩ = .ok 3 ⟨2, [(2, 1)]⟩ := by
    rw [← hB]
    exact blockEnd_whole [0x00, 0x01] [0x00] ext [] (by decide)
  obtain ⟨h₄, -⟩ := moqReadVi64_form form_zero hb₂ [(2, 1)]
  rw [parseObject_body, bind_ok h₁, readProps, if_pos rfl] at h
  obtain ⟨o, c₁, hblock, -⟩ := bind_eq_ok.1 h
  rw [parsePropBlock, bind_ok h₂] at hblock
  obtain ⟨o', c₂, hprops, hafter⟩ := bind_eq_ok.1 (bind_ok h₃ ▸ hblock)
  -- the type is there, and its value is looked for from the end of the block on
  have hturns : propTurns 3 = 3 * wordSize - 1 + 1 + 1 := by decide
  rw [hturns, parseProps, bind_ok (pos_apply _ _), if_pos (by decide), bind_ok h₄, if_pos (by decide)] at hprops
  obtain ⟨val, c₃, hval, hprops⟩ := bind_eq_ok.1 hprops
  obtain ⟨-, hoff, -, -⟩ := moqReadVi64_eq_ok hval
  have hpast : 3 < c₃.off := by
    rw [hoff]
    exact Nat.lt_add_of_pos_right (Nat.succ_pos _)
  rw [parseProps_done hpast.le] at hprops
  cases hprops
  rw [bind_ok (pos_apply _ _), if_pos hpast] at hafter
  cases hafter

end MoqLiveCast
