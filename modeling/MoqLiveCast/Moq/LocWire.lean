import MoqLiveCast.Moq.PushParse
import Mathlib.Data.List.Sort
/-!
# LocWire — LOC objects as the server writes them (`moq_push.cpp`)

An object is its delta, a block of properties and its payload.  A property is written as the difference of its type to
the one before; an even type has a number behind it, an odd one a length and bytes.
-/
namespace MoqLiveCast

open List

open Scanner

def sizeOf64 (xs : List Byte) : BitVec 64 := BitVec.ofNat 64 xs.length

def appendKvp (acc : List Byte × BitVec 64) (type : BitVec 64) (raw : List Byte) (num : BitVec 64) : List Byte × BitVec 64 :=
  let o := moqAppendVi64 acc.1 (type - acc.2)
  if type &&& 1 = 0 then (moqAppendVi64 o num, type) else (moqAppendVi64 o (sizeOf64 raw) ++ raw, type)

structure LocItem where
  type : BitVec 64
  isOdd : Bool
  num : BitVec 64
  raw : List Byte

def appendItem (acc : List Byte × BitVec 64) (it : LocItem) : List Byte × BitVec 64 :=
  if it.isOdd then appendKvp acc it.type it.raw 0 else appendKvp acc it.type [] it.num

def itemsOf (odd : List (BitVec 64 × List Byte)) (even : List (BitVec 64 × BitVec 64)) : List LocItem :=
  even.map (fun e => ⟨e.1, false, e.2, []⟩) ++ odd.map fun e => ⟨e.1, true, 0, e.2⟩

/-- `std::sort` by type; no two types are the same. -/
def sortItems (items : List LocItem) : List LocItem := items.insertionSort fun a b => a.type ≤ b.type

def encodeProperties (odd : List (BitVec 64 × List Byte)) (even : List (BitVec 64 × BitVec 64)) : List Byte :=
  let body := ((sortItems (itemsOf odd even)).foldl appendItem ([], 0)).1
  moqAppendVi64 [] (sizeOf64 body) ++ body

def encodeSubgroup (trackAlias group : BitVec 64) : List Byte :=
  moqAppendVi64 (moqAppendVi64 (moqAppendVi64 [] 0x31) trackAlias) group

/-- The composition time is left out when it is zero, which is what a reader takes it for. -/
def evenProps (tsMs ctsMs : BitVec 64) : List (BitVec 64 × BitVec 64) :=
  [(kLocTimescale, 1000), (kLocTimestamp, if tsMs.slt 0 then 0 else tsMs)] ++
    if ctsMs ≠ 0 then [(kLocCompositionTime, ctsMs)] else []

def oddProps (key : Bool) (cfg : List Byte) (videoCfg : Bool) : List (BitVec 64 × List Byte) :=
  (if key then [(kLocFrameMark, [0x01])] else []) ++
    if cfg ≠ [] then [(if videoCfg then kLocVideoConfig else kLocAudioConfig, cfg)] else []

def encodeLocObject (delta tsMs : BitVec 64) (payload : List Byte) (key : Bool) (cfg : List Byte) (videoCfg : Bool)
    (ctsMs : BitVec 64) : List Byte :=
  let out := moqAppendVi64 [] delta ++ encodeProperties (oddProps key cfg videoCfg) (evenProps tsMs ctsMs)
  if payload ≠ [] then moqAppendVi64 out (sizeOf64 payload) ++ payload else moqAppendVi64 out 1 ++ [0]

/-! ## Properties, one after the other -/

def kvpBytes (prev : BitVec 64) (it : LocItem) : List Byte := (appendItem ([], prev) it).1

def propBytes : BitVec 64 → List LocItem → List Byte
  | _, [] => []
  | prev, it :: its => kvpBytes prev it ++ propBytes it.type its

def LocItem.Valid (it : LocItem) : Prop := it.isOdd = true ↔ it.type &&& 1 ≠ 0

theorem kvpBytes_odd {it : LocItem} (h : it.Valid) (ho : it.isOdd = true) (prev : BitVec 64) :
    kvpBytes prev it = vi64Bytes (it.type - prev) ++ (vi64Bytes (sizeOf64 it.raw) ++ it.raw) := by
  simp only [kvpBytes, appendItem, ho, if_true, appendKvp, moqAppendVi64, if_neg (h.1 ho), nil_append, append_assoc]

theorem kvpBytes_even {it : LocItem} (h : it.Valid) (ho : it.isOdd = false) (prev : BitVec 64) :
    kvpBytes prev it = vi64Bytes (it.type - prev) ++ vi64Bytes it.num := by
  have heven : it.type &&& 1 = 0 := by
    by_contra hne
    rw [h.2 hne] at ho
    cases ho
  simp only [kvpBytes, appendItem, ho, Bool.false_eq_true, if_false, appendKvp, moqAppendVi64, if_pos heven, nil_append]

theorem appendItem_eq (acc : List Byte × BitVec 64) (it : LocItem) :
    appendItem acc it = (acc.1 ++ kvpBytes acc.2 it, it.type) := by
  unfold kvpBytes appendItem appendKvp moqAppendVi64
  split <;> split <;> simp

theorem foldl_appendItem : ∀ (items : List LocItem) (acc : List Byte × BitVec 64),
    (items.foldl appendItem acc).1 = acc.1 ++ propBytes acc.2 items
  | [], acc => by simp [propBytes]
  | it :: its, acc => by
    rw [foldl_cons, foldl_appendItem its, appendItem_eq]
    simp [propBytes]

theorem kvpBytes_length_pos {it : LocItem} (h : it.Valid) (prev : BitVec 64) : 0 < (kvpBytes prev it).length := by
  have := (vi64Len_spec (it.type - prev) 8 1 rfl (Nat.le_refl _)).1
  cases ho : it.isOdd with
  | true =>
    rw [kvpBytes_odd h ho, length_append, vi64Bytes_length]
    omega
  | false =>
    rw [kvpBytes_even h ho, length_append, vi64Bytes_length]
    omega

theorem length_le_propBytes : ∀ (items : List LocItem) (prev : BitVec 64), (∀ it ∈ items, it.Valid) →
    items.length ≤ (propBytes prev items).length
  | [], _, _ => Nat.le_refl _
  | it :: its, prev, h => by
    have hpos := kvpBytes_length_pos (h it mem_cons_self) prev
    have ih := length_le_propBytes its it.type fun it' hit => h it' (mem_cons_of_mem _ hit)
    rw [propBytes, length_append, length_cons]
    omega

theorem raw_length_le : ∀ (items : List LocItem) (prev : BitVec 64), (∀ it ∈ items, it.Valid) →
    ∀ it ∈ items, it.isOdd = true → it.raw.length ≤ (propBytes prev items).length
  | it :: its, prev, h, it', hit, ho => by
    rw [propBytes, length_append]
    rcases List.mem_cons.1 hit with rfl | hit
    · rw [kvpBytes_odd (h it' mem_cons_self) ho, length_append, length_append]
      omega
    · have ih := raw_length_le its it.type (fun i hi => h i (mem_cons_of_mem _ hi)) it' hit ho
      omega

/-! ## What a reader makes of them -/

structure PropView where
  tsMs : BitVec 64 := 0
  ctsMs : BitVec 64 := 0
  key : Bool := false
  cfg : List Byte := []
deriving DecidableEq

def PropView.absorb (v : PropView) (it : LocItem) : PropView :=
  if it.isOdd then
    { v with
      key := v.key || (it.type = kLocFrameMark ∧ it.raw.headD 0 &&& 1 ≠ 0)
      cfg := if it.type = kLocVideoConfig ∨ it.type = kLocAudioConfig then it.raw else v.cfg }
  else
    { v with
      tsMs := if it.type = kLocTimestamp then it.num else v.tsMs
      ctsMs := if it.type = kLocCompositionTime then it.num else v.ctsMs }

/-- In the buffer `b`, the parser's properties are those of `v`. -/
structure Views (b : List Byte) (o : LocProps) (v : PropView) : Prop where
  ts : o.tsMs = v.tsMs
  cts : o.ctsMs = v.ctsMs
  key : o.key = v.key
  fits : o.cfg + o.cfgLen ≤ b.length
  cfg : (b.drop o.cfg).take o.cfgLen = v.cfg

theorem views_start (b : List Byte) : Views b {} {} := ⟨rfl, rfl, rfl, Nat.zero_le _, rfl⟩

theorem Views.number {b : List Byte} {o : LocProps} {v : PropView} (h : Views b o v) {it : LocItem}
    (ho : it.isOdd = false) : Views b (o.number it.type it.num) (v.absorb it) := by
  unfold LocProps.number PropView.absorb
  rw [ho]
  exact ⟨by simp only [h.ts]; rfl, by simp only [h.cts]; rfl, h.key, h.fits, h.cfg⟩

theorem Views.bytes {b : List Byte} {o : LocProps} {v : PropView} {it : LocItem} {off : Nat} (h : Views b o v)
    (ho : it.isOdd = true) (hfits : off + it.raw.length ≤ b.length) (hraw : (b.drop off).take it.raw.length = it.raw) :
    Views b (o.bytes it.type off it.raw.length (if it.type = kLocFrameMark ∧ it.raw ≠ [] then it.raw.headD 0 else 0))
    (v.absorb it) := by
  unfold LocProps.bytes PropView.absorb
  rw [ho]
  refine ⟨h.ts, h.cts, ?_, ?_, ?_⟩
  · simp only [h.key, if_true]
    by_cases hnil : it.raw = []
    · simp [hnil]
    · by_cases hmark : it.type = kLocFrameMark
      · simp [hmark, hnil]
      · simp [hmark]
  · by_cases hc : it.type = kLocVideoConfig ∨ it.type = kLocAudioConfig
    · simpa [hc] using hfits
    · simpa [hc] using h.fits
  · by_cases hc : it.type = kLocVideoConfig ∨ it.type = kLocAudioConfig
    · simpa [hc] using hraw
    · simpa [hc] using h.cfg

theorem sizeOf64_toNat {xs : List Byte} (h : xs.length < wordSize) : (sizeOf64 xs).toNat = xs.length :=
  BitVec.toNat_ofNat xs.length 64 ▸ Nat.mod_eq_of_lt h

end MoqLiveCast
