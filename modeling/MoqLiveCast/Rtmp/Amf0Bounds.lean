import MoqLiveCast.Rtmp.Amf0
/-!
# Amf0Bounds — which messages are decoded within their bytes

A message is decoded within its bytes, and no further than its first error, exactly if it is made of whole values
(`AmfValue`): each length counts bytes that are there, and what is no value comes where nothing else is decoded.
-/
namespace MoqLiveCast

/-! ## The values -/

mutual

/-- **A value begins the bytes**: whether it is one, whether it or one in it is none, and what is behind it. -/
inductive AmfValue : List Byte → Bool → Bool → List Byte → Prop
  | number {v rest : List Byte} (hv : v.length = 8) : AmfValue (0 :: (v ++ rest)) true false rest
  | bool {v : Byte} {rest : List Byte} : AmfValue (1 :: v :: rest) true false rest
  | string {len s rest : List Byte} (hlen : len.length = 2) (hs : s.length = readNBytes len) :
      AmfValue (2 :: (len ++ (s ++ rest))) true false rest
  | object {data rest : List Byte} {ok failed : Bool} (h : AmfMembers false data ok failed rest) : AmfValue (3 :: data) ok failed rest
  | null {rest : List Byte} : AmfValue (5 :: rest) true false rest
  | undefined {rest : List Byte} : AmfValue (6 :: rest) true false rest
  | mixedArray {len data rest : List Byte} {ok failed : Bool} (hlen : len.length = 4) (h : AmfMembers false data ok failed rest) :
      AmfValue (8 :: (len ++ data)) ok failed rest
  | array {len data rest : List Byte} {failed : Bool} (hlen : len.length = 4) (h : AmfItems (readNBytes len) false data failed rest) :
      AmfValue (10 :: (len ++ data)) true failed rest
  | date {v rest : List Byte} (hv : v.length = 8) : AmfValue (11 :: (v ++ rest)) true false (rest.drop 2)
  | longString {len s rest : List Byte} (hlen : len.length = 4) (hs : s.length = readNBytes len) :
      AmfValue (12 :: (len ++ (s ++ rest))) true false rest
  | unsupported {rest : List Byte} : AmfValue (13 :: rest) true false rest
  | other {t : Byte} {rest : List Byte} (ht : t = 4 ∨ t = 9) : AmfValue (t :: rest) false true rest
  | beyond {t : Byte} {rest : List Byte} (ht : 13 < t.toNat) : AmfValue (t :: rest) false true (t :: rest)

/-- The members of an object, one in a value before them being none or not. -/
inductive AmfMembers : Bool → List Byte → Bool → Bool → List Byte → Prop
  | stop {failed : Bool} {data : List Byte} (h : leftLen data ≤ 0) : AmfMembers failed data true failed data
  | finish {failed : Bool} {len rest : List Byte} (hlen : len.length = 2) (hzero : readNBytes len = 0)
      (h : 0 < leftLen (len ++ 9 :: rest)) : AmfMembers failed (len ++ 9 :: rest) true failed (9 :: rest)
  | beyond {failed : Bool} {len key rest : List Byte} {t : Byte} (hlen : len.length = 2) (hkey : key.length = readNBytes len)
      (hpos : readNBytes len ≠ 0) (ht : 13 < t.toNat) (h : 0 < leftLen (len ++ (key ++ t :: rest))) :
      AmfMembers failed (len ++ (key ++ t :: rest)) false true (t :: rest)
  | bad {len key data rest : List Byte} {t : Byte} {failed : Bool} (hlen : len.length = 2) (hkey : key.length = readNBytes len)
      (hpos : readNBytes len ≠ 0) (ht : ¬13 < t.toNat) (h : 0 < leftLen (len ++ (key ++ t :: data)))
      (hvalue : AmfValue (t :: data) false failed rest) : AmfMembers false (len ++ (key ++ t :: data)) false true rest
  | more {len key data rest rest' : List Byte} {t : Byte} {ok failed failed' : Bool} (hlen : len.length = 2)
      (hkey : key.length = readNBytes len) (hpos : readNBytes len ≠ 0) (ht : ¬13 < t.toNat)
      (h : 0 < leftLen (len ++ (key ++ t :: data))) (hvalue : AmfValue (t :: data) true failed rest)
      (hmore : AmfMembers failed rest ok failed' rest') : AmfMembers false (len ++ (key ++ t :: data)) ok failed' rest'

inductive AmfItems : Nat → Bool → List Byte → Bool → List Byte → Prop
  | nil {failed : Bool} {data : List Byte} : AmfItems 0 failed data failed data
  | bad {n : Nat} {data rest : List Byte} {failed : Bool} (hvalue : AmfValue data false failed rest) :
      AmfItems (n + 1) false data true rest
  | more {n : Nat} {data rest rest' : List Byte} {failed failed' : Bool} (hvalue : AmfValue data true failed rest)
      (hmore : AmfItems n failed rest failed' rest') : AmfItems (n + 1) false data failed' rest'

end

/-- **The values of a command**: none is decoded behind what is no value. -/
inductive AmfCommand : Bool → List Byte → Prop
  | stop {failed : Bool} {data : List Byte} (h : leftLen data ≤ 0) : AmfCommand failed data
  | next {data rest : List Byte} {ok failed : Bool} (h : 0 < leftLen data) (hvalue : AmfValue data ok failed rest)
      (hmore : AmfCommand failed rest) : AmfCommand false data

/-- **The values of a script tag**, the first of which is a string: an error ends them, and so does a last byte. -/
inductive AmfScript : Bool → List Byte → Prop
  | bad {first failed : Bool} {data rest : List Byte} (hvalue : AmfValue data false failed rest) : AmfScript first data
  | unnamed {failed : Bool} {data rest : List Byte} (hvalue : AmfValue data true failed rest) (hfirst : data.head? ≠ some 2) :
      AmfScript true data
  | last {first failed : Bool} {data rest : List Byte} (hvalue : AmfValue data true failed rest) (h : leftLen rest ≤ 1) :
      AmfScript first data
  | next {first : Bool} {data rest : List Byte} (hvalue : AmfValue data true false rest) (h : 1 < leftLen rest)
      (hmore : AmfScript false rest) : AmfScript first data

/-! ## What is decoded is a value -/

theorem AmfLog.begin_late {log : AmfLog} (h : log.begin.late = false) : log.failed = false ∧ log.late = false := by
  unfold begin at h
  simpa [and_comm] using h

theorem AmfLog.begin_fresh : AmfLog.begin {} = {} := rfl

theorem takeBytes_eq {n : Nat} {data b rest : List Byte} (h : takeBytes n data = some (b, rest)) :
    data = b ++ rest ∧ b.length = n := by
  unfold takeBytes at h
  split at h
  · cases h
  · rename_i hlen
    cases h
    refine ⟨(List.take_append_drop _ _).symm, ?_⟩
    rw [List.length_take]
    omega

section

variable {decode : AmfItem → List Byte → AmfLog → AmfRead AmfItem}

theorem decodeAmfObject_sound (hdecode : ∀ {data rest : List Byte} {log log' : AmfLog} {ok : Bool} {item : AmfItem},
      decode {} data log = .done ok item rest log' → log'.late = false →
        log.failed = false ∧ log.late = false ∧ AmfValue data ok log'.failed rest ∧ (ok = false → log'.failed = true)) :
    ∀ (fuel : Nat) (obj : List (List Byte × AmfItem)) (data : List Byte) (log : AmfLog) {ok : Bool}
      {obj' : List (List Byte × AmfItem)} {rest : List Byte} {log' : AmfLog},
      decodeAmfObject decode fuel obj data log = .done ok obj' rest log' → log'.late = false →
        log.late = false ∧ AmfMembers log.failed data ok (if ok then log'.failed else true) rest
  | 0, obj, data, log, ok, obj', rest, log', h, hlate => by
    unfold decodeAmfObject at h
    split at h
    · cases h
    · rename_i hstop
      cases h
      exact ⟨hlate, .stop (Int.not_lt.1 hstop)⟩
  | fuel + 1, obj, data, log, ok, obj', rest, log', h, hlate => by
    unfold decodeAmfObject at h
    split at h
    · rename_i hgo
      split at h
      · cases h
      · rename_i len data₁ htake
        obtain ⟨rfl, hlen⟩ := takeBytes_eq htake
        split at h
        · rename_i hzero
          split at h
          · cases h
          · split at h
            · rename_i x data₂ hx
              cases h
              rw [hx] at hgo ⊢
              exact ⟨hlate, .finish hlen hzero hgo⟩
            · cases h
        · rename_i hpos
          split at h
          · cases h
          · rename_i key data₂ htake
            obtain ⟨rfl, hkey⟩ := takeBytes_eq htake
            split at h
            · cases h
            · rename_i x data₃
              split at h
              · rename_i hbeyond
                cases h
                exact ⟨hlate, .beyond hlen hkey hpos hbeyond hgo⟩
              · rename_i hwithin
                split at h
                · cases h
                · rename_i hread
                  cases h
                  obtain ⟨hfailed, hlog, hvalue, -⟩ := hdecode hread hlate
                  rw [hfailed]
                  exact ⟨hlog, .bad hlen hkey hpos hwithin hgo hvalue⟩
                · rename_i item data₄ log₁ hread
                  obtain ⟨hlog₁, hmore⟩ := decodeAmfObject_sound hdecode fuel _ _ _ h hlate
                  obtain ⟨hfailed, hlog, hvalue, -⟩ := hdecode hread hlog₁
                  rw [hfailed]
                  exact ⟨hlog, .more hlen hkey hpos hwithin hgo hvalue hmore⟩
    · rename_i hstop
      cases h
      exact ⟨hlate, .stop (Int.not_lt.1 hstop)⟩

theorem decodeAmfItems_sound (hdecode : ∀ {data rest : List Byte} {log log' : AmfLog} {ok : Bool} {item : AmfItem},
      decode {} data log = .done ok item rest log' → log'.late = false →
        log.failed = false ∧ log.late = false ∧ AmfValue data ok log'.failed rest ∧ (ok = false → log'.failed = true)) :
    ∀ (n : Nat) (items : List AmfItem) (data : List Byte) (log : AmfLog) {ok : Bool} {items' : List AmfItem} {rest : List Byte}
      {log' : AmfLog}, decodeAmfItems decode n items data log = .done ok items' rest log' → log'.late = false →
        log.late = false ∧ AmfItems n log.failed data log'.failed rest
  | 0, items, data, log, ok, items', rest, log', h, hlate => by
    unfold decodeAmfItems at h
    cases h
    exact ⟨hlate, .nil⟩
  | n + 1, items, data, log, ok, items', rest, log', h, hlate => by
    unfold decodeAmfItems at h
    split at h
    · cases h
    · rename_i hread
      cases h
      obtain ⟨hfailed, hlog, hvalue, hbad⟩ := hdecode hread hlate
      rw [hfailed, hbad rfl]
      exact ⟨hlog, .bad hvalue⟩
    · rename_i item data₁ log₁ hread
      obtain ⟨hlog₁, hmore⟩ := decodeAmfItems_sound hdecode n _ _ _ h hlate
      obtain ⟨hfailed, hlog, hvalue, -⟩ := hdecode hread hlog₁
      rw [hfailed]
      exact ⟨hlog, .more hvalue hmore⟩

end

theorem amfDecode_sound : ∀ (depth : Nat) (item : AmfItem) {data rest : List Byte} {log log' : AmfLog} {ok : Bool} {item' : AmfItem},
    amfDecode depth item data log = .done ok item' rest log' → log'.late = false →
      log.failed = false ∧ log.late = false ∧ AmfValue data ok log'.failed rest ∧ (ok = false → log'.failed = true)
  | 0, _, _, _, _, _, _, _, h, _ => by
    unfold amfDecode at h
    cases h
  | depth + 1, item, data, rest, log, log', ok, item', h, hlate => by
    have hdecode := @amfDecode_sound depth {}
    unfold amfDecode at h
    dsimp only at h
    have hscalar : ∀ {data rest : List Byte}, log.begin.late = false → AmfValue data true false rest →
        log.failed = false ∧ log.late = false ∧ AmfValue data true log.begin.failed rest ∧
          (true = false → log.begin.failed = true) := by
      intro data rest hlate hvalue
      obtain ⟨hfailed, hlog⟩ := AmfLog.begin_late hlate
      have hsame : log.begin.failed = false := hfailed
      rw [hsame]
      exact ⟨hfailed, hlog, hvalue, fun hx => by cases hx⟩
    have hfail : ∀ {data rest : List Byte}, log.begin.fail.late = false → AmfValue data false true rest →
        log.failed = false ∧ log.late = false ∧ AmfValue data false log.begin.fail.failed rest ∧
          (false = false → log.begin.fail.failed = true) := by
      intro data rest hlate hvalue
      obtain ⟨hfailed, hlog⟩ := @AmfLog.begin_late log hlate
      exact ⟨hfailed, hlog, hvalue, fun _ => rfl⟩
    split at h
    · cases h
    · rename_i t data
      split at h
      · rename_i ht
        obtain rfl : t = 0 := BitVec.eq_of_toNat_eq ht
        split at h
        · cases h
        · rename_i htake
          obtain ⟨rfl, hv⟩ := takeBytes_eq htake
          cases h
          exact hscalar hlate (.number hv)
      · rename_i ht
        obtain rfl : t = 1 := BitVec.eq_of_toNat_eq ht
        split at h
        · cases h
        · cases h
          exact hscalar hlate .bool
      · rename_i ht
        obtain rfl : t = 2 := BitVec.eq_of_toNat_eq ht
        split at h
        · cases h
        · rename_i len data' htake
          obtain ⟨rfl, hlen⟩ := takeBytes_eq htake
          split at h
          · cases h
          · rename_i htake'
            obtain ⟨rfl, hs⟩ := takeBytes_eq htake'
            cases h
            exact hscalar hlate (.string hlen hs)
      · rename_i ht
        obtain rfl : t = 3 := BitVec.eq_of_toNat_eq ht
        split at h
        · cases h
        · rename_i ok₁ obj rest₁ log₁ hread
          cases h
          have hlate₁ : log₁.late = false := by
            cases ok <;> exact hlate
          obtain ⟨hlog, hmembers⟩ := decodeAmfObject_sound hdecode _ _ _ _ hread hlate₁
          obtain ⟨hfailed, hlog⟩ := AmfLog.begin_late hlog
          have hsame : log.begin.failed = false := hfailed
          rw [hsame] at hmembers
          refine ⟨hfailed, hlog, ?_, fun hx => by rw [hx]; rfl⟩
          cases ok <;> exact .object hmembers
      · rename_i ht
        obtain rfl : t = 5 := BitVec.eq_of_toNat_eq ht
        cases h
        exact hscalar hlate .null
      · rename_i ht
        obtain rfl : t = 6 := BitVec.eq_of_toNat_eq ht
        cases h
        exact hscalar hlate .undefined
      · cases h
      · rename_i ht
        obtain rfl : t = 8 := BitVec.eq_of_toNat_eq ht
        split at h
        · cases h
        · rename_i htake
          obtain ⟨rfl, hlen⟩ := takeBytes_eq htake
          split at h
          · cases h
          · rename_i ok₁ obj rest₁ log₁ hread
            cases h
            have hlate₁ : log₁.late = false := by
              cases ok <;> exact hlate
            obtain ⟨hlog, hmembers⟩ := decodeAmfObject_sound hdecode _ _ _ _ hread hlate₁
            obtain ⟨hfailed, hlog⟩ := AmfLog.begin_late hlog
            have hsame : log.begin.failed = false := hfailed
            rw [hsame] at hmembers
            refine ⟨hfailed, hlog, ?_, fun hx => by rw [hx]; rfl⟩
            cases ok <;> exact .mixedArray hlen hmembers
      · rename_i ht
        obtain rfl : t = 10 := BitVec.eq_of_toNat_eq ht
        split at h
        · cases h
        · rename_i htake
          obtain ⟨rfl, hlen⟩ := takeBytes_eq htake
          split at h
          · cases h
          · rename_i hread
            cases h
            obtain ⟨hlog, hitems⟩ := decodeAmfItems_sound hdecode _ _ _ _ hread hlate
            obtain ⟨hfailed, hlog⟩ := AmfLog.begin_late hlog
            have hsame : log.begin.failed = false := hfailed
            rw [hsame] at hitems
            exact ⟨hfailed, hlog, .array hlen hitems, fun hx => by cases hx⟩
      · rename_i ht
        obtain rfl : t = 11 := BitVec.eq_of_toNat_eq ht
        split at h
        · cases h
        · rename_i htake
          obtain ⟨rfl, hv⟩ := takeBytes_eq htake
          cases h
          exact hscalar hlate (.date hv)
      · rename_i ht
        obtain rfl : t = 12 := BitVec.eq_of_toNat_eq ht
        split at h
        · cases h
        · rename_i htake
          obtain ⟨rfl, hlen⟩ := takeBytes_eq htake
          split at h
          · cases h
          · rename_i htake'
            obtain ⟨rfl, hs⟩ := takeBytes_eq htake'
            cases h
            exact hscalar hlate (.longString hlen hs)
      · rename_i ht
        obtain rfl : t = 13 := BitVec.eq_of_toNat_eq ht
        cases h
        exact hscalar hlate .unsupported
      · rename_i h0 h1 h2 h3 h5 h6 h7 h8 h10 h11 h12 h13
        split at h
        · rename_i hbeyond
          cases h
          exact hfail hlate (.beyond hbeyond)
        · rename_i hwithin
          cases h
          have ht : t.toNat = 4 ∨ t.toNat = 9 := by
            have hlt : t.toNat ≤ 13 := Nat.le_of_not_lt hwithin
            have hne : t.toNat ≠ 0 ∧ t.toNat ≠ 1 ∧ t.toNat ≠ 2 ∧ t.toNat ≠ 3 ∧ t.toNat ≠ 5 ∧ t.toNat ≠ 6 ∧ t.toNat ≠ 7 ∧ t.toNat ≠ 8 ∧
                t.toNat ≠ 10 ∧ t.toNat ≠ 11 ∧ t.toNat ≠ 12 ∧ t.toNat ≠ 13 :=
              ⟨h0, h1, h2, h3, h5, h6, h7, h8, h10, h11, h12, h13⟩
            omega
          refine hfail hlate (.other ?_)
          rcases ht with ht | ht
          · exact .inl (BitVec.eq_of_toNat_eq ht)
          · exact .inr (BitVec.eq_of_toNat_eq ht)

/-! ## A value is decoded -/

mutual

theorem AmfValue.length_le : ∀ {data : List Byte} {ok failed : Bool} {rest : List Byte}, AmfValue data ok failed rest →
    rest.length ≤ data.length ∧ (ok = false → failed = true)
  | _, _, _, _, .number _ => ⟨by simp; omega, fun h => by cases h⟩
  | _, _, _, _, .bool => ⟨by simp; omega, fun h => by cases h⟩
  | _, _, _, _, .string _ _ => ⟨by simp; omega, fun h => by cases h⟩
  | _, _, _, _, .object h => by
    have hle := h.length_le
    exact ⟨by simp; omega, hle.2⟩
  | _, _, _, _, .null => ⟨by simp, fun h => by cases h⟩
  | _, _, _, _, .undefined => ⟨by simp, fun h => by cases h⟩
  | _, _, _, _, .mixedArray _ h => by
    have hle := h.length_le
    exact ⟨by simp; omega, hle.2⟩
  | _, _, _, _, .array _ h => by
    have hle := h.length_le
    exact ⟨by simp; omega, fun h => by cases h⟩
  | _, _, _, _, .date _ => ⟨by simp; omega, fun h => by cases h⟩
  | _, _, _, _, .longString _ _ => ⟨by simp; omega, fun h => by cases h⟩
  | _, _, _, _, .unsupported => ⟨by simp, fun h => by cases h⟩
  | _, _, _, _, .other _ => ⟨by simp, fun _ => rfl⟩
  | _, _, _, _, .beyond _ => ⟨by simp, fun _ => rfl⟩

theorem AmfMembers.length_le : ∀ {failed₀ : Bool} {data : List Byte} {ok failed : Bool} {rest : List Byte},
    AmfMembers failed₀ data ok failed rest → rest.length ≤ data.length ∧ (ok = false → failed = true)
  | _, _, _, _, _, .stop _ => ⟨Nat.le_refl _, fun h => by cases h⟩
  | _, _, _, _, _, .finish _ _ _ => ⟨by simp, fun h => by cases h⟩
  | _, _, _, _, _, .beyond _ _ _ _ _ => ⟨by simp; omega, fun _ => rfl⟩
  | _, _, _, _, _, .bad _ _ _ _ _ hvalue => by
    have hle := hvalue.length_le
    exact ⟨by simp at hle ⊢; omega, fun _ => rfl⟩
  | _, _, _, _, _, .more _ _ _ _ _ hvalue hmore => by
    have hle := hvalue.length_le
    have hle' := hmore.length_le
    exact ⟨by simp at hle ⊢; omega, hle'.2⟩

theorem AmfItems.length_le : ∀ {n : Nat} {failed₀ : Bool} {data : List Byte} {failed : Bool} {rest : List Byte},
    AmfItems n failed₀ data failed rest → rest.length ≤ data.length
  | _, _, _, _, _, .nil => Nat.le_refl _
  | _, _, _, _, _, .bad hvalue => hvalue.length_le.1
  | _, _, _, _, _, .more hvalue hmore => by
    have hle := hvalue.length_le
    have hle' := hmore.length_le
    omega

end

mutual

theorem AmfValue.complete : ∀ {data : List Byte} {ok failed : Bool} {rest : List Byte}, AmfValue data ok failed rest →
    ∀ (depth : Nat) (item : AmfItem), data.length < depth → ∃ item', amfDecode depth item data {} = .done ok item' rest ⟨failed, false⟩
  | _, _, _, _, _, 0, _, hdepth => absurd hdepth (Nat.not_lt_zero _)
  | _, _, _, _, .number hv, depth + 1, item, _ => by
    unfold amfDecode
    dsimp only
    rw [takeBytes_append hv]
    exact ⟨_, rfl⟩
  | _, _, _, _, .bool, depth + 1, item, _ => ⟨_, rfl⟩
  | _, _, _, _, .string hlen hs, depth + 1, item, _ => by
    unfold amfDecode
    dsimp only
    rw [takeBytes_append hlen]
    dsimp only
    rw [takeBytes_append hs]
    exact ⟨_, rfl⟩
  | _, _, _, _, .object h, depth + 1, item, hdepth => by
    rw [List.length_cons] at hdepth
    obtain ⟨obj', log', hread, hlog⟩ := h.complete depth _ item.amfObj (by omega) (Nat.le_refl _)
    unfold amfDecode
    dsimp only
    rw [AmfLog.begin_fresh, hread]
    dsimp only
    rw [hlog]
    exact ⟨_, rfl⟩
  | _, _, _, _, .null, depth + 1, item, _ => ⟨_, rfl⟩
  | _, _, _, _, .undefined, depth + 1, item, _ => ⟨_, rfl⟩
  | _, _, _, _, .mixedArray hlen h, depth + 1, item, hdepth => by
    rw [List.length_cons, List.length_append] at hdepth
    obtain ⟨obj', log', hread, hlog⟩ := h.complete depth _ item.amfObj (by omega) (Nat.le_refl _)
    unfold amfDecode
    dsimp only
    rw [takeBytes_append hlen]
    dsimp only
    rw [AmfLog.begin_fresh, hread]
    dsimp only
    rw [hlog]
    exact ⟨_, rfl⟩
  | _, _, _, _, .array hlen h, depth + 1, item, hdepth => by
    rw [List.length_cons, List.length_append] at hdepth
    obtain ⟨ok', items', hread⟩ := h.complete depth item.amfArray (by omega)
    unfold amfDecode
    dsimp only
    rw [takeBytes_append hlen]
    dsimp only
    rw [AmfLog.begin_fresh, hread]
    exact ⟨_, rfl⟩
  | _, _, _, _, .date hv, depth + 1, item, _ => by
    unfold amfDecode
    dsimp only
    rw [takeBytes_append hv]
    exact ⟨_, rfl⟩
  | _, _, _, _, .longString hlen hs, depth + 1, item, _ => by
    unfold amfDecode
    dsimp only
    rw [takeBytes_append hlen]
    dsimp only
    rw [takeBytes_append hs]
    exact ⟨_, rfl⟩
  | _, _, _, _, .unsupported, depth + 1, item, _ => ⟨_, rfl⟩
  | _, _, _, _, .other ht, depth + 1, item, _ => by
    rcases ht with rfl | rfl <;> exact ⟨_, rfl⟩
  | _, _, _, _, .beyond ht, depth + 1, item, _ => by
    unfold amfDecode
    dsimp only
    split
    all_goals first | (rename_i heq; omega) | skip
    rw [if_pos ht]
    exact ⟨_, rfl⟩

theorem AmfMembers.complete : ∀ {failed₀ : Bool} {data : List Byte} {ok failed : Bool} {rest : List Byte},
    AmfMembers failed₀ data ok failed rest →
    ∀ (depth fuel : Nat) (obj : List (List Byte × AmfItem)), data.length < depth → data.length ≤ fuel →
      ∃ obj' log', decodeAmfObject (amfDecode depth) fuel obj data ⟨failed₀, false⟩ = .done ok obj' rest log' ∧
        (if ok then log' else log'.fail) = ⟨failed, false⟩
  | _, _, _, _, _, .stop h, depth, fuel, obj, _, _ => by
    cases fuel with
    | zero =>
      rw [decodeAmfObject, if_neg (by omega)]
      exact ⟨_, _, rfl, rfl⟩
    | succ fuel =>
      rw [decodeAmfObject, if_neg (by omega)]
      exact ⟨_, _, rfl, rfl⟩
  | _, _, _, _, _, .finish hlen hzero h, depth, 0, obj, _, hfuel => by
    simp at hfuel
  | _, _, _, _, _, .finish hlen hzero h, depth, fuel + 1, obj, _, _ => by
    rw [decodeAmfObject, if_pos h, takeBytes_append hlen]
    dsimp only
    rw [if_pos hzero]
    exact ⟨_, _, rfl, rfl⟩
  | _, _, _, _, _, .beyond hlen hkey hpos ht h, depth, 0, obj, _, hfuel => by
    simp at hfuel
  | _, _, _, _, _, .beyond hlen hkey hpos ht h, depth, fuel + 1, obj, _, _ => by
    rw [decodeAmfObject, if_pos h, takeBytes_append hlen]
    dsimp only
    rw [if_neg hpos, takeBytes_append hkey]
    dsimp only
    rw [if_pos ht]
    exact ⟨_, _, rfl, rfl⟩
  | _, _, _, _, _, .bad hlen hkey hpos ht h hvalue, depth, 0, obj, _, hfuel => by
    simp at hfuel
  | _, _, _, _, _, .bad hlen hkey hpos ht h hvalue, depth, fuel + 1, obj, hdepth, _ => by
    simp only [List.length_append, List.length_cons] at hdepth
    obtain ⟨item', hread⟩ := hvalue.complete depth {} (by rw [List.length_cons]; omega)
    rw [decodeAmfObject, if_pos h, takeBytes_append hlen]
    dsimp only
    rw [if_neg hpos, takeBytes_append hkey]
    dsimp only
    rw [if_neg ht, hread]
    exact ⟨_, _, rfl, rfl⟩
  | _, _, _, _, _, .more hlen hkey hpos ht h hvalue hmore, depth, 0, obj, _, hfuel => by
    simp at hfuel
  | _, _, _, _, _, .more hlen hkey hpos ht h hvalue hmore, depth, fuel + 1, obj, hdepth, hfuel => by
    have hle := hvalue.length_le.1
    simp only [List.length_append, List.length_cons] at hdepth hfuel hle
    obtain ⟨item', hread⟩ := hvalue.complete depth {} (by rw [List.length_cons]; omega)
    rw [decodeAmfObject, if_pos h, takeBytes_append hlen]
    dsimp only
    rw [if_neg hpos, takeBytes_append hkey]
    dsimp only
    rw [if_neg ht, hread]
    exact hmore.complete depth fuel _ (by omega) (by omega)

theorem AmfItems.complete : ∀ {n : Nat} {failed₀ : Bool} {data : List Byte} {failed : Bool} {rest : List Byte},
    AmfItems n failed₀ data failed rest → ∀ (depth : Nat) (items : List AmfItem), data.length < depth →
      ∃ ok items', decodeAmfItems (amfDecode depth) n items data ⟨failed₀, false⟩ = .done ok items' rest ⟨failed, false⟩
  | _, _, _, _, _, .nil, depth, items, _ => ⟨_, _, rfl⟩
  | _, _, _, _, _, .bad hvalue, depth, items, hdepth => by
    obtain ⟨item', hread⟩ := hvalue.complete depth {} hdepth
    rw [decodeAmfItems, hread, hvalue.length_le.2 rfl]
    exact ⟨_, _, rfl⟩
  | _, _, _, _, _, .more hvalue hmore, depth, items, hdepth => by
    have hle := hvalue.length_le.1
    obtain ⟨item', hread⟩ := hvalue.complete depth {} hdepth
    rw [decodeAmfItems, hread]
    exact hmore.complete depth _ (by omega)

end

/-! ## The loops -/

theorem decodeCommand_sound : ∀ (fuel : Nat) (vec : List AmfItem) (data : List Byte) (log : AmfLog) {ok : Bool} {vec' : List AmfItem}
    {rest : List Byte} {log' : AmfLog}, decodeCommand fuel vec data log = some (.done ok vec' rest log') → log'.late = false →
      log.late = false ∧ AmfCommand log.failed data
  | fuel, vec, data, log, ok, vec', rest, log', h, hlate => by
    unfold decodeCommand at h
    split at h
    · rename_i hgo
      cases fuel with
      | zero => cases h
      | succ fuel =>
        dsimp only at h
        split at h
        · cases h
        · rename_i hread
          obtain ⟨hlog₁, hmore⟩ := decodeCommand_sound fuel _ _ _ h hlate
          obtain ⟨hfailed, hlog, hvalue, -⟩ := amfDecode_sound _ _ hread hlog₁
          rw [hfailed]
          exact ⟨hlog, .next hgo hvalue hmore⟩
    · rename_i hstop
      cases h
      exact ⟨hlate, .stop (Int.not_lt.1 hstop)⟩

theorem AmfCommand.complete {failed : Bool} {data : List Byte} (h : AmfCommand failed data) : ∀ vec : List AmfItem,
    ∃ fuel vec' rest log', decodeCommand fuel vec data ⟨failed, false⟩ = some (.done true vec' rest log') ∧ log'.late = false := by
  induction h with
  | @stop failed data h =>
    intro vec
    refine ⟨0, vec, data, ⟨failed, false⟩, ?_, rfl⟩
    rw [decodeCommand, if_neg (by omega)]
  | next h hvalue _ ih =>
    intro vec
    obtain ⟨item, hread⟩ := hvalue.complete _ {} (Nat.lt_succ_self _)
    obtain ⟨fuel, vec', rest, log', hmore, hlate⟩ := ih (vec ++ [item])
    refine ⟨fuel + 1, vec', rest, log', ?_, hlate⟩
    rw [decodeCommand, if_pos h]
    unfold decodeItem
    rw [hread]
    exact hmore

theorem amfDecode_string {depth : Nat} {item item' : AmfItem} {data rest : List Byte} {log log' : AmfLog}
    (h : amfDecode depth item data log = .done true item' rest log') : item'.amfType = .string ↔ data.head? = some 2 := by
  cases depth with
  | zero =>
    unfold amfDecode at h
    cases h
  | succ depth =>
    unfold amfDecode at h
    dsimp only at h
    have hother : ∀ {t : Byte} {data : List Byte} {item' : AmfItem} {n : Nat}, t.toNat = n → n ≠ 2 → item'.amfType ≠ .string →
        (item'.amfType = .string ↔ (t :: data).head? = some 2) := by
      rintro t data item' _ rfl hne htype
      refine ⟨fun h => absurd h htype, fun h => absurd ?_ hne⟩
      rw [List.head?_cons] at h
      rw [Option.some.inj h]
      rfl
    split at h
    · cases h
    · split at h <;> rename_i ht
      · split at h <;> cases h
        exact hother ht (by decide) (by simp)
      · split at h <;> cases h
        exact hother ht (by decide) (by simp)
      · split at h
        · cases h
        · split at h <;> cases h
          refine ⟨fun _ => ?_, fun _ => rfl⟩
          rw [List.head?_cons, BitVec.eq_of_toNat_eq (y := 2) ht]
      · split at h <;> cases h
        exact hother ht (by decide) (by simp)
      · cases h
        exact hother ht (by decide) (by simp)
      · cases h
        exact hother ht (by decide) (by simp)
      · cases h
      · split at h
        · cases h
        · split at h <;> cases h
          exact hother ht (by decide) (by simp)
      · split at h
        · cases h
        · split at h <;> cases h
          exact hother ht (by decide) (by simp)
      · split at h <;> cases h
        exact hother ht (by decide) (by simp)
      · split at h
        · cases h
        · split at h <;> cases h
          exact hother ht (by decide) (by simp)
      · cases h
        exact hother ht (by decide) (by simp)
      · split at h <;> cases h

theorem decodeMetaData_sound : ∀ (fuel index : Nat) (item : AmfItem) (pkt : FlvMetadata) (data : List Byte) (log : AmfLog) {ok : Bool}
    {pkt' : FlvMetadata} {rest : List Byte} {log' : AmfLog},
    decodeMetaData fuel index item pkt data log = some (.done ok pkt' rest log') → log'.late = false →
      log.failed = false ∧ log.late = false ∧ AmfScript (index = 0) data
  | 0, _, _, _, _, _, _, _, _, _, h, _ => by
    rw [decodeMetaData] at h
    cases h
  | fuel + 1, index, item, pkt, data, log, ok, pkt', rest, log', h, hlate => by
    rw [decodeMetaData] at h
    split at h
    · cases h
    · rename_i hread
      cases h
      obtain ⟨hfailed, hlog, hvalue, -⟩ := amfDecode_sound _ _ hread hlate
      exact ⟨hfailed, hlog, .bad hvalue⟩
    · rename_i item₁ data₁ log₁ hread
      split at h
      · rename_i hfirst
        cases h
        obtain ⟨hfailed, hlog, hvalue, -⟩ := amfDecode_sound _ _ hread hlate
        have hhead : data.head? ≠ some 2 := fun hx => hfirst.2 ((amfDecode_string hread).2 hx)
        rw [decide_eq_true hfirst.1]
        exact ⟨hfailed, hlog, .unnamed hvalue hhead⟩
      · split at h
        · rename_i hgo
          obtain ⟨hfailed₁, hlog₁, hmore⟩ := decodeMetaData_sound fuel (index + 1) _ _ _ _ h hlate
          obtain ⟨hfailed, hlog, hvalue, -⟩ := amfDecode_sound _ _ hread hlog₁
          rw [hfailed₁] at hvalue
          exact ⟨hfailed, hlog, .next hvalue hgo hmore⟩
        · rename_i hstop
          cases h
          obtain ⟨hfailed, hlog, hvalue, -⟩ := amfDecode_sound _ _ hread hlate
          exact ⟨hfailed, hlog, .last hvalue (Int.not_lt.1 hstop)⟩

theorem AmfScript.complete {first : Bool} {data : List Byte} (h : AmfScript first data) : ∀ (index : Nat) (item : AmfItem)
    (pkt : FlvMetadata), first = decide (index = 0) → ∃ fuel ok pkt' rest log', decodeMetaData fuel index item pkt data {} =
    some (.done ok pkt' rest log') ∧ log'.late = false := by
  induction h with
  | @bad first failed data rest hvalue =>
    intro index item pkt _
    obtain ⟨item', hread⟩ := hvalue.complete _ item (Nat.lt_succ_self _)
    refine ⟨1, true, pkt, rest, ⟨failed, false⟩, ?_, rfl⟩
    rw [decodeMetaData]
    unfold decodeItem
    rw [hread]
  | @unnamed failed data rest hvalue hfirst =>
    intro index item pkt hindex
    obtain ⟨item', hread⟩ := hvalue.complete _ item (Nat.lt_succ_self _)
    have htype : item'.amfType ≠ .string := fun hx => hfirst ((amfDecode_string hread).1 hx)
    have hzero : index = 0 := by simpa using hindex.symm
    refine ⟨1, false, pkt, rest, ⟨failed, false⟩, ?_, rfl⟩
    rw [decodeMetaData]
    unfold decodeItem
    rw [hread]
    dsimp only
    rw [if_pos ⟨hzero, htype⟩]
  | @last first failed data rest hvalue hstop =>
    intro index item pkt _
    obtain ⟨item', hread⟩ := hvalue.complete _ item (Nat.lt_succ_self _)
    by_cases hnamed : index = 0 ∧ item'.amfType ≠ .string
    · refine ⟨1, false, pkt, rest, ⟨failed, false⟩, ?_, rfl⟩
      rw [decodeMetaData]
      unfold decodeItem
      rw [hread]
      dsimp only
      rw [if_pos hnamed]
    · refine ⟨1, true, addedTo index item' pkt, rest, ⟨failed, false⟩, ?_, rfl⟩
      rw [decodeMetaData]
      unfold decodeItem
      rw [hread]
      dsimp only
      rw [if_neg hnamed, if_neg (by omega)]
  | @next first data rest hvalue hgo _ ih =>
    intro index item pkt _
    obtain ⟨item', hread⟩ := hvalue.complete _ item (Nat.lt_succ_self _)
    by_cases hnamed : index = 0 ∧ item'.amfType ≠ .string
    · refine ⟨1, false, pkt, rest, ⟨false, false⟩, ?_, rfl⟩
      rw [decodeMetaData]
      unfold decodeItem
      rw [hread]
      dsimp only
      rw [if_pos hnamed]
    · obtain ⟨fuel, ok, pkt', rest', log', hmore, hlate⟩ := ih (index + 1) item' (addedTo index item' pkt) (by simp)
      refine ⟨fuel + 1, ok, pkt', rest', log', ?_, hlate⟩
      rw [decodeMetaData]
      unfold decodeItem
      rw [hread]
      dsimp only
      rw [if_neg hnamed, if_pos hgo]
      exact hmore

/-! ## The messages -/

/-- **Decoded within its bytes**: the loop comes to an end, no byte outside is read and no `assert` fires, and no value is begun
after an error. -/
def AmfBounded {α : Type} (run : Nat → Option (AmfRead α)) : Prop :=
  ∃ fuel ok a rest log, run fuel = some (.done ok a rest log) ∧ log.late = false

/-- **A command is decoded within its bytes exactly if it is made of values, and so is a script tag.**

A known deviation: no length is compared with what is left, the loop of commands goes on after an error, forever if it is a type
there is none of, and an object's end is left for the next value. -/
theorem amf_bounded (data : List Byte) : (AmfBounded (fun fuel => decodeCommand fuel [] data {}) ↔ AmfCommand false data) ∧
      (AmfBounded (fun fuel => decodeMetaData fuel 0 {} {} data {}) ↔ AmfScript true data) := by
  constructor
  · constructor
    · rintro ⟨fuel, ok, vec, rest, log, h, hlate⟩
      exact (decodeCommand_sound fuel _ _ _ h hlate).2
    · intro h
      obtain ⟨fuel, vec, rest, log, hdone, hlate⟩ := h.complete []
      exact ⟨fuel, true, vec, rest, log, hdone, hlate⟩
  · constructor
    · rintro ⟨fuel, ok, pkt, rest, log, h, hlate⟩
      exact (decodeMetaData_sound fuel 0 _ _ _ _ h hlate).2.2
    · intro h
      obtain ⟨fuel, ok, pkt, rest, log, hdone, hlate⟩ := h.complete 0 {} {} rfl
      exact ⟨fuel, ok, pkt, rest, log, hdone, hlate⟩

theorem decodeCommand_beyond : ∀ (fuel : Nat) (vec : List AmfItem) (log : AmfLog), decodeCommand fuel vec [14] log = none
  | 0, _, _ => rfl
  | fuel + 1, vec, log => by
    have hread : decodeItem {} [14] log = .done false {} [14] log.begin.fail := rfl
    rw [decodeCommand, if_pos (by decide)]
    rw [hread]
    exact decodeCommand_beyond fuel _ _

theorem command_endless : ¬∀ data : List Byte, AmfBounded (fun fuel => decodeCommand fuel [] data {}) ∧
    AmfBounded (fun fuel => decodeMetaData fuel 0 {} {} data {}) := by
  intro h
  obtain ⟨fuel, ok, vec, rest, log, hdone, -⟩ := (h [14]).1
  exact absurd ((decodeCommand_beyond fuel [] {}).symm.trans hdone) (by simp)

end MoqLiveCast
