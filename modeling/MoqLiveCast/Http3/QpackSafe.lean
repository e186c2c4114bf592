import Mathlib.Data.List.Induction
import MoqLiveCast.Http3.QpackLines
/-!
# QpackSafe — what decoding writes, and what is still there when it returns

A Huffman-coded string is written to its buffer whatever its length, a name gets a NUL at what the decoder returned, −1 when it
failed, and the ninth literal name of a block takes the buffer of the first.
-/
namespace MoqLiveCast

open List

/-- The lines of a block that are looked at, `n` at most: the whole ones, and the first that is not. -/
def fieldLines : Nat → List Byte → List FieldLine
  | 0, _ => []
  | n + 1, data =>
    if data = [] then []
    else fieldLine data :: (fieldLine data).size.elim [] fun k => fieldLines n (data.drop k)

def blockLines (data : List Byte) (n : Nat) : List FieldLine :=
  (fieldsStart data).elim [] fun pos => fieldLines n (data.drop pos)

def wholeLines (ls : List FieldLine) : Nat := ls.countP (·.size.isSome)

/-- What is read at an index after some writes, `o` before them. -/
def readOver (o : Option Byte) (ws : List QpackWrite) (buf : QpackBuf) (k : Nat) : Option Byte :=
  ws.foldl (fun o w => if w.buf = buf ∧ w.index = (k : Int) then some w.byte else o) o

/-- **The buffer has these bytes** at its start, written by the call. -/
def HeldBy (ws : List QpackWrite) (buf : QpackBuf) (own : List Byte) : Prop :=
  ∀ k < own.length, readOver none ws buf k = own[k]?

def WritesInside (ws : List QpackWrite) : Prop := ∀ w ∈ ws, 0 ≤ w.index ∧ w.index < w.buf.size

/-- **A call that is safe**: each write is inside its buffer, each name and each value lies in the block, in the static table, or in
a buffer that still holds it, and as many fields are returned as the well-formed front of the block has. -/
structure QpackDecoded.Safe (data : List Byte) (n : Nat) (r : QpackDecoded) : Prop where
  inside : WritesInside r.statics.writes
  names : ∀ f ∈ r.fields, f.name.Lies data.length (HeldBy r.statics.writes) f.nameLen
  values : ∀ f ∈ r.fields, f.value.Lies data.length (HeldBy r.statics.writes) f.valueLen
  count : r.fields.length = wholeLines (blockLines data n)
  ret : r.ret = (fieldsStart data).elim (-1) fun _ => (r.fields.length : Int)

def NameFits (src : List Byte) : Prop := (huffmanDecodeStr src).2 = true ∧ (huffmanDecodeStr src).1.length ≤ 255

def ValueFits (src : List Byte) : Prop := (huffmanDecodeStr src).1.length ≤ 4096

instance (src : List Byte) : Decidable (NameFits src) := inferInstanceAs (Decidable (_ ∧ _))

instance (src : List Byte) : Decidable (ValueFits src) := inferInstanceAs (Decidable (_ ≤ _))

/-- **The condition**: Huffman-coded names decode to 255 bytes at most, and do decode; values to 4096 at most; and of two
Huffman-coded names eight literal names apart, the later one, with its NUL, begins as the earlier one does. -/
structure LinesSound (ls : List FieldLine) : Prop where
  names : ∀ l ∈ ls, ∀ src, l.huffName = some src → NameFits src
  refs : ∀ l ∈ ls, ∀ src, l.huffRef = some src → ValueFits src
  lits : ∀ l ∈ ls, ∀ src, l.huffLit = some src → ValueFits src
  kept : ∀ pre a mid b post, ls = pre ++ a :: mid ++ b :: post → mid.countP (·.named) = 7 → ∀ x y, a.huffName = some x →
    b.huffName = some y →
    ((huffmanDecodeStr y).1 ++ [0]).take (huffmanDecodeStr x).1.length <+: (huffmanDecodeStr x).1

/-! ## What is written -/

variable (o : Option Byte)

theorem readOver_append (ws ws' : List QpackWrite) (buf : QpackBuf) (k : Nat) :
    readOver o (ws ++ ws') buf k = readOver (readOver o ws buf k) ws' buf k := foldl_append

theorem readOver_other {ws : List QpackWrite} {buf : QpackBuf} (h : ∀ w ∈ ws, w.buf ≠ buf) (k : Nat) :
    ∀ o, readOver o ws buf k = o := by
  induction ws with
  | nil => exact fun o => rfl
  | cons w ws ih =>
    intro o
    unfold readOver at ih ⊢
    rw [foldl_cons, if_neg fun hw => h w mem_cons_self hw.1]
    exact ih (fun w' hw' => h w' (mem_cons_of_mem _ hw')) o

variable {w : QpackWrite}

theorem writesFrom_buf {buf : QpackBuf} {bytes : List Byte} (h : w ∈ writesFrom buf bytes) : w.buf = buf := by
  obtain ⟨x, -, rfl⟩ := List.mem_map.1 h
  rfl

variable (buf : QpackBuf)

theorem writesFrom_append (bytes : List Byte) (b : Byte) :
    writesFrom buf (bytes ++ [b]) = writesFrom buf bytes ++ [⟨buf, bytes.length, b⟩] := by
  simp [writesFrom, zipIdx_append]

theorem readOver_writesFrom (buf : QpackBuf) (bytes : List Byte) (k : Nat) :
    readOver o (writesFrom buf bytes) buf k = if k < bytes.length then bytes[k]? else o := by
  induction bytes using reverseRecOn with
  | nil => simp [writesFrom, readOver]
  | append_singleton bytes b ih =>
    rw [writesFrom_append, readOver_append, ih]
    unfold readOver
    rw [foldl_cons, foldl_nil, length_append, length_singleton]
    dsimp only
    by_cases hk : k = bytes.length
    · subst hk
      rw [if_pos ⟨rfl, rfl⟩, if_pos (by omega), List.getElem?_append_right (Nat.le_refl _)]
      simp
    · rw [if_neg (by omega)]
      by_cases hlt : k < bytes.length
      · rw [if_pos hlt, if_pos (by omega), List.getElem?_append_left hlt]
      · rw [if_neg hlt, if_neg (by omega)]

theorem writesInside_append {ws ws' : List QpackWrite} : WritesInside (ws ++ ws') ↔ WritesInside ws ∧ WritesInside ws' :=
  forall_mem_append

theorem writesInside_writesFrom (bytes : List Byte) : WritesInside (writesFrom buf bytes) ↔ bytes.length ≤ buf.size := by
  induction bytes using reverseRecOn with
  | nil => simp [WritesInside, writesFrom]
  | append_singleton bytes b ih =>
    rw [writesFrom_append, writesInside_append, ih, length_append, length_singleton]
    simp only [WritesInside, mem_singleton, forall_eq]
    omega

theorem huffStr_writes (cap : Nat) (src : List Byte) : (huffStr buf cap src).2 = writesFrom buf (huffmanDecodeStr src).1 ++
      if 0 < (huffStr buf cap src).1 ∧ (huffStr buf cap src).1 < cap then [⟨buf, (huffStr buf cap src).1, 0⟩] else [] := rfl

variable {src : List Byte}

theorem huffStr_buf {buf : QpackBuf} {cap : Nat} (h : w ∈ (huffStr buf cap src).2) : w.buf = buf := by
  rw [huffStr_writes] at h
  rcases List.mem_append.1 h with h | h
  · exact writesFrom_buf h
  · split at h
    · rw [List.mem_singleton.1 h]
    · cases h

theorem huffStr_ret (cap : Nat) (hlen : (huffmanDecodeStr src).1.length ≤ 4096) :
    (huffStr buf cap src).1 = if (huffmanDecodeStr src).2 then ((huffmanDecodeStr src).1.length : Int) else -1 := by
  unfold huffStr
  dsimp only
  rw [toInt32_of_le (by unfold INT_MAX; omega)]

theorem writesInside_one (i : Int) (b : Byte) : WritesInside [⟨buf, i, b⟩] ↔ 0 ≤ i ∧ i < buf.size := by
  simp [WritesInside]

theorem valueWrites_inside (src : List Byte) (hsize : buf.size = 4096) : WritesInside (valueWrites buf src) ↔ ValueFits src := by
  unfold valueWrites
  rw [huffStr_writes, writesInside_append, writesInside_writesFrom, hsize]
  refine ⟨fun h => h.1, fun h => ⟨h, ?_⟩⟩
  split
  · rw [writesInside_one, hsize]
    omega
  · exact fun w hw => nomatch hw

theorem nameWrites_inside (src : List Byte) (hsize : buf.size = 256) : WritesInside (nameWrites buf src) ↔ NameFits src := by
  unfold nameWrites
  rw [huffStr_writes, writesInside_append, writesInside_append, writesInside_writesFrom, writesInside_one, hsize]
  constructor
  · rintro ⟨⟨hlen, -⟩, hlow, hhigh⟩
    rw [huffStr_ret _ _ (by omega)] at hlow hhigh
    cases hacc : (huffmanDecodeStr src).2 with
    | true =>
      rw [hacc, if_pos rfl] at hhigh
      exact ⟨hacc, by omega⟩
    | false =>
      rw [hacc] at hlow
      simp at hlow
  · rintro ⟨hacc, hlen⟩
    have hret := huffStr_ret buf 255 (by omega : (huffmanDecodeStr src).1.length ≤ 4096)
    rw [hacc, if_pos rfl] at hret
    rw [hret]
    refine ⟨⟨by omega, ?_⟩, by omega, by omega⟩
    split
    · rw [writesInside_one, hsize]
      omega
    · exact fun w hw => nomatch hw

theorem readOver_one (buf : QpackBuf) (i k : Nat) (b : Byte) : readOver o [⟨buf, i, b⟩] buf k = if k = i then some b else o := by
  unfold readOver
  simp only [foldl_cons, foldl_nil, true_and, Int.natCast_inj, eq_comm]

theorem readOver_value {buf : QpackBuf} (hfits : ValueFits src) {k : Nat} (hk : k < (huffmanDecodeStr src).1.length)
    (o : Option Byte) : readOver o (valueWrites buf src) buf k = (huffmanDecodeStr src).1[k]? := by
  unfold valueWrites
  rw [huffStr_writes, readOver_append, readOver_writesFrom, if_pos hk, huffStr_ret _ _ hfits]
  cases (huffmanDecodeStr src).2 with
  | true =>
    simp only [if_true]
    split
    · rw [readOver_one, if_neg (by omega)]
    · rfl
  | false => simp [readOver]

theorem readOver_name {buf : QpackBuf} (hfits : NameFits src) (o : Option Byte) (k : Nat) :
    readOver o (nameWrites buf src) buf k =
      if k ≤ (huffmanDecodeStr src).1.length then ((huffmanDecodeStr src).1 ++ [0])[k]? else o := by
  obtain ⟨hacc, hlen⟩ := hfits
  have hret := huffStr_ret buf 255 (by omega : (huffmanDecodeStr src).1.length ≤ 4096)
  rw [hacc, if_pos rfl] at hret
  unfold nameWrites
  rw [readOver_append, huffStr_writes, hret, readOver_one]
  by_cases hk : k = (huffmanDecodeStr src).1.length
  · subst hk
    rw [if_pos rfl, if_pos (Nat.le_refl _), List.getElem?_append_right (Nat.le_refl _)]
    simp
  have hskip : ∀ o' : Option Byte, readOver o' (if 0 < ((huffmanDecodeStr src).1.length : Int) ∧
      ((huffmanDecodeStr src).1.length : Int) < (255 : Nat) then [⟨buf, (huffmanDecodeStr src).1.length, 0⟩] else []) buf k = o' := by
    intro o'
    split
    · rw [readOver_one, if_neg hk]
    · rfl
  rw [if_neg hk, readOver_append, hskip, readOver_writesFrom]
  by_cases hlt : k < (huffmanDecodeStr src).1.length
  · rw [if_pos hlt, if_pos (by omega), List.getElem?_append_left hlt]
  · rw [if_neg hlt, if_neg (by omega)]

/-! ## A block -/

/-- The writes of some lines, from the buffers `st` on. -/
def linesWritten (st : QpackStatics) : List FieldLine → List QpackWrite
  | [] => []
  | l :: ls => st.written l ++ linesWritten (st.behind l) ls

theorem foldl_writes : ∀ (ls : List FieldLine) (st : QpackStatics),
    (ls.foldl QpackStatics.behind st).writes = st.writes ++ linesWritten st ls
  | [], st => by simp [linesWritten]
  | l :: ls, st => by
    rw [foldl_cons, foldl_writes ls, linesWritten, ← append_assoc]
    rfl

theorem linesWritten_append : ∀ (ls ls' : List FieldLine) (st : QpackStatics),
    linesWritten st (ls ++ ls') = linesWritten st ls ++ linesWritten (ls.foldl QpackStatics.behind st) ls'
  | [], _, _ => rfl
  | l :: ls, ls', st => by
    rw [cons_append, linesWritten, linesWritten_append ls, linesWritten, foldl_cons, append_assoc]

theorem foldl_slot (slot : QpackStatics → Nat) (p : FieldLine → Bool) (n : Nat)
    (hstep : ∀ st l, slot (st.behind l) = if p l then (slot st + 1) % n else slot st) :
    ∀ (ls : List FieldLine) (st : QpackStatics), slot st < n → slot (ls.foldl QpackStatics.behind st) = (slot st + ls.countP p) % n
  | [], st, h => by simp [Nat.mod_eq_of_lt h]
  | l :: ls, st, h => by
    have hlt : slot (st.behind l) < n := by
      rw [hstep]
      split
      · exact Nat.mod_lt _ (by omega)
      · exact h
    rw [foldl_cons, foldl_slot slot p n hstep ls _ hlt, hstep, countP_cons]
    split
    · rw [Nat.mod_add_mod]
      congr 1
      omega
    · rfl

theorem written_buf {st : QpackStatics} {l : FieldLine} (h : w ∈ st.written l) : (w.buf = .nameRing st.ns ∧ l.huffName.isSome) ∨
    (w.buf = .refValue st.refSlot ∧ l.huffRef.isSome) ∨ (w.buf = .litValue st.litSlot ∧ l.huffLit.isSome) := by
  unfold QpackStatics.written at h
  rw [append_assoc] at h
  rcases List.mem_append.1 h with h | h
  · cases hn : l.huffName with
    | none => rw [hn] at h; cases h
    | some src =>
      rw [hn] at h
      rcases List.mem_append.1 h with h | h
      · exact .inl ⟨huffStr_buf h, rfl⟩
      · rw [List.mem_singleton.1 h]
        exact .inl ⟨rfl, rfl⟩
  rcases List.mem_append.1 h with h | h
  · cases hr : l.huffRef with
    | none => rw [hr] at h; cases h
    | some src =>
      rw [hr] at h
      exact .inr (.inl ⟨huffStr_buf h, rfl⟩)
  · cases hl : l.huffLit with
    | none => rw [hl] at h; cases h
    | some src =>
      rw [hl] at h
      exact .inr (.inr ⟨huffStr_buf h, rfl⟩)

theorem linesWritten_mem : ∀ {ls : List FieldLine} {st : QpackStatics} {w : QpackWrite}, w ∈ linesWritten st ls →
    ∃ pre l post, ls = pre ++ l :: post ∧ w ∈ (pre.foldl QpackStatics.behind st).written l
  | [], _, _, h => nomatch h
  | l :: ls, st, w, h => by
    rcases List.mem_append.1 h with h | h
    · exact ⟨[], l, ls, rfl, h⟩
    · obtain ⟨pre, l', post, rfl, hw⟩ := linesWritten_mem h
      exact ⟨l :: pre, l', post, rfl, hw⟩

theorem written_inside (st : QpackStatics) (l : FieldLine) : WritesInside (st.written l) ↔ (∀ src, l.huffName = some src →
    NameFits src) ∧ (∀ src, l.huffRef = some src → ValueFits src) ∧ ∀ src, l.huffLit = some src → ValueFits src := by
  have hnil : WritesInside [] := fun w hw => nomatch hw
  have helim : ∀ (o : Option (List Byte)) (writes : List Byte → List QpackWrite) (fits : List Byte → Prop),
      (∀ src, WritesInside (writes src) ↔ fits src) → (WritesInside (o.elim [] writes) ↔ ∀ src, o = some src → fits src) := by
    intro o writes fits hiff
    cases o with
    | none => exact ⟨nofun, fun _ => hnil⟩
    | some src => simpa using hiff src
  unfold QpackStatics.written
  rw [writesInside_append, writesInside_append, helim _ _ _ fun src => nameWrites_inside _ src rfl,
    helim _ _ _ fun src => valueWrites_inside (.refValue st.refSlot) src rfl,
    helim _ _ _ fun src => valueWrites_inside (.litValue st.litSlot) src rfl, and_assoc]

theorem linesWritten_inside : ∀ (ls : List FieldLine) (st : QpackStatics), WritesInside (linesWritten st ls) ↔
    (∀ l ∈ ls, ∀ src, l.huffName = some src → NameFits src) ∧ (∀ l ∈ ls, ∀ src, l.huffRef = some src → ValueFits src) ∧
      ∀ l ∈ ls, ∀ src, l.huffLit = some src → ValueFits src
  | [], _ => by simp [linesWritten, WritesInside]
  | l :: ls, st => by
    rw [linesWritten, writesInside_append, written_inside, linesWritten_inside ls]
    simp only [mem_cons, forall_eq_or_imp]
    exact ⟨fun ⟨⟨h1, h2, h3⟩, h4, h5, h6⟩ => ⟨⟨h1, h4⟩, ⟨h2, h5⟩, h3, h6⟩,
      fun ⟨⟨h1, h4⟩, ⟨h2, h5⟩, h3, h6⟩ => ⟨⟨h1, h2, h3⟩, h4, h5, h6⟩⟩

/-! ## The fields of a block -/

theorem parseFields_spec {data : List Byte} (hlen : data.length < 2 ^ 31) : ∀ (n pos : Nat) (st : QpackStatics),
    pos ≤ data.length →
    (parseFields data n pos st).2 = (fieldLines n (data.drop pos)).foldl QpackStatics.behind st ∧
    (parseFields data n pos st).1.length = wholeLines (fieldLines n (data.drop pos)) ∧
    (∀ f ∈ (parseFields data n pos st).1, ∃ pre l post, fieldLines n (data.drop pos) = pre ++ l :: post ∧
      FieldAt data.length (pre.foldl QpackStatics.behind st) l f) ∧
    ∀ pre l post, fieldLines n (data.drop pos) = pre ++ l :: post → l.size.isSome →
      ∃ f ∈ (parseFields data n pos st).1, FieldAt data.length (pre.foldl QpackStatics.behind st) l f
  | 0, _, st, _ => ⟨rfl, rfl, (fun f hf => nomatch hf), fun pre l post h => by simp [fieldLines] at h⟩
  | n + 1, pos, st, hpos => by
    unfold parseFields fieldLines
    by_cases hend : data.length ≤ pos
    · rw [if_pos hend, if_pos (drop_of_length_le hend)]
      exact ⟨rfl, rfl, (fun f hf => nomatch hf), fun pre l post h => by simp at h⟩
    have hne : data.drop pos ≠ [] := fun h => hend (List.drop_eq_nil_iff.1 h)
    rw [if_neg hend, if_neg hne]
    have hspec := parseOne_spec (data.drop pos) pos st (by rw [length_drop]; omega)
    have hwhole : pos + (data.drop pos).length = data.length := by
      rw [length_drop]
      omega
    cases hsize : (fieldLine (data.drop pos)).size with
    | none =>
      have hnone := hspec.none hsize
      have hbehind := hspec.behind
      generalize parseOne (data.drop pos) pos st = r at hnone hbehind ⊢
      obtain ⟨r, st'⟩ := r
      subst hnone
      refine ⟨hbehind, by simp [wholeLines, hsize], (fun f hf => nomatch hf), fun pre l post h hl => ?_⟩
      have hone : l = fieldLine (data.drop pos) := by
        rw [Option.elim_none] at h
        cases pre with
        | nil =>
          simp only [nil_append, List.cons.injEq] at h
          exact h.1.symm
        | cons x pre => simp at h
      rw [hone, hsize] at hl
      cases hl
    | some k =>
      obtain ⟨f, hsome, hf⟩ := hspec.some k hsize
      obtain ⟨hk, hle⟩ := fieldLine_size hsize
      rw [hwhole] at hf
      have hbehind := hspec.behind
      generalize parseOne (data.drop pos) pos st = r at hsome hbehind ⊢
      obtain ⟨r, st'⟩ := r
      subst hsome hbehind
      rw [length_drop] at hle
      obtain ⟨hst, hcount, hof, hall⟩ := parseFields_spec hlen n (pos + k) (st.behind (fieldLine (data.drop pos))) (by omega)
      dsimp only
      rw [if_pos (by omega), Int.toNat_natCast, Option.elim_some, drop_drop]
      refine ⟨hst, ?_, fun g hg => ?_, fun pre l post h hl => ?_⟩
      · unfold wholeLines at hcount ⊢
        rw [countP_cons, if_pos (by simp [hsize]), length_cons, hcount]
      · rcases List.mem_cons.1 hg with rfl | hg
        · exact ⟨[], _, _, rfl, hf⟩
        · obtain ⟨pre, l, post, hsplit, hat⟩ := hof g hg
          exact ⟨_ :: pre, l, post, by rw [hsplit]; rfl, hat⟩
      · cases pre with
        | nil =>
          simp only [nil_append, List.cons.injEq] at h
          obtain ⟨rfl, rfl⟩ := h
          exact ⟨f, mem_cons_self, hf⟩
        | cons x pre =>
          simp only [cons_append, List.cons.injEq] at h
          obtain ⟨rfl, h⟩ := h
          obtain ⟨g, hg, hat⟩ := hall pre l post h hl
          exact ⟨g, mem_cons_of_mem _ hg, hat⟩

/-! ## What is still there -/

theorem later_slot (slot : QpackStatics → Nat) (p : FieldLine → Bool) (n : Nat) (mk : Nat → QpackBuf)
    (hstep : ∀ st l, slot (st.behind l) = if p l then (slot st + 1) % n else slot st) {ls : List FieldLine}
    (hbuf : ∀ l ∈ ls, ∀ {st : QpackStatics} {w : QpackWrite} {k : Nat}, w ∈ st.written l → w.buf = mk k →
      k = slot st ∧ p l = true) {st : QpackStatics} {l : FieldLine} (hp : p l = true) (hslot : slot st < n)
    (hw : w ∈ linesWritten (st.behind l) ls) (hmk : w.buf = mk (slot st)) :
    ∃ mid b post, ls = mid ++ b :: post ∧ p b = true ∧ (mid.countP p + 1) % n = 0 := by
  obtain ⟨mid, b, post, hls, hwb⟩ := linesWritten_mem hw
  obtain ⟨hk, hb⟩ := hbuf b (by rw [hls]; simp) hwb hmk
  have hnext : slot (st.behind l) = (slot st + 1) % n := by rw [hstep, if_pos hp]
  rw [foldl_slot slot p n hstep mid _ (by rw [hnext]; exact Nat.mod_lt _ (by omega)), hnext, Nat.mod_add_mod] at hk
  refine ⟨mid, b, post, hls, hb, ?_⟩
  have hdiv := Nat.div_add_mod (slot st + 1 + mid.countP p) n
  rw [← hk] at hdiv
  have hmul : mid.countP p + 1 = n * ((slot st + 1 + mid.countP p) / n) := by omega
  rw [hmul, Nat.mul_mod_right]

theorem behind_ns (st : QpackStatics) (l : FieldLine) : (st.behind l).ns = if l.named then (st.ns + 1) % 8 else st.ns := rfl

def NamesNamed (ls : List FieldLine) : Prop := ∀ l ∈ ls, l.huffName.isSome → l.named = true

theorem fieldLine_named (data : List Byte) (h : (fieldLine data).huffName.isSome) : (fieldLine data).named = true := by
  unfold fieldLine at h ⊢
  dsimp only at h ⊢
  split at h
  · cases h
  rename_i hne
  rw [if_neg hne]
  split at h
  · cases h
  rename_i h7
  rw [if_neg h7]
  split at h
  · split at h <;> cases h
  rename_i h6
  rw [if_neg h6]
  split at h
  · rename_i h5
    rw [if_pos h5]
    split at h
    · cases h
    · split <;> rfl
  · cases h

theorem fieldLines_named : ∀ (n : Nat) (data : List Byte), NamesNamed (fieldLines n data)
  | 0, _, l, hl, _ => nomatch hl
  | n + 1, data, l, hl, h => by
    unfold fieldLines at hl
    split at hl
    · cases hl
    rcases List.mem_cons.1 hl with rfl | hl
    · exact fieldLine_named data h
    · cases hsize : (fieldLine data).size with
      | none => rw [hsize] at hl; cases hl
      | some k =>
        rw [hsize] at hl
        exact fieldLines_named n (data.drop k) l hl h

theorem fieldLines_length : ∀ (n : Nat) (data : List Byte), (fieldLines n data).length ≤ n
  | 0, _ => Nat.le_refl _
  | n + 1, data => by
    unfold fieldLines
    split
    · exact Nat.zero_le _
    · cases hsize : (fieldLine data).size with
      | none => simp
      | some k => simpa using fieldLines_length n (data.drop k)

theorem fieldLines_whole : ∀ (n : Nat) (data : List Byte) (pre post : List FieldLine) (l : FieldLine),
    fieldLines n data = pre ++ l :: post → post ≠ [] → l.size.isSome
  | 0, _, pre, post, l, h, _ => by simp [fieldLines] at h
  | n + 1, data, pre, post, l, h, hne => by
    unfold fieldLines at h
    split at h
    · simp at h
    cases hsize : (fieldLine data).size with
    | none =>
      rw [hsize, Option.elim_none] at h
      cases pre with
      | nil =>
        simp only [nil_append, List.cons.injEq] at h
        exact absurd h.2.symm hne
      | cons x pre => simp at h
    | some k =>
      rw [hsize, Option.elim_some] at h
      cases pre with
      | nil =>
        simp only [nil_append, List.cons.injEq] at h
        rw [← h.1, hsize]
        rfl
      | cons x pre =>
        simp only [cons_append, List.cons.injEq] at h
        exact fieldLines_whole n (data.drop k) pre post l h.2 hne

section Held

variable {st : QpackStatics} {pre post : List FieldLine} {l : FieldLine}

theorem linesWritten_around (st : QpackStatics) (pre post : List FieldLine) (l : FieldLine) : linesWritten st (pre ++ l :: post) =
    linesWritten st pre ++ ((pre.foldl QpackStatics.behind st).written l ++ linesWritten ((pre.foldl QpackStatics.behind
    st).behind l) post) := by
  rw [linesWritten_append]
  rfl

theorem elim_buf {buf : QpackBuf} {writes : QpackBuf → List Byte → List QpackWrite} {src : Option (List Byte)}
    (h : ∀ src w, w ∈ writes buf src → w.buf = buf) : ∀ w ∈ src.elim [] (writes buf), w.buf = buf := by
  cases src with
  | none => exact fun w hw => nomatch hw
  | some src => exact h src

theorem valueWrites_buf (buf : QpackBuf) (src : List Byte) (w : QpackWrite) (h : w ∈ valueWrites buf src) : w.buf = buf :=
  huffStr_buf h

variable {src : List Byte}

theorem written_name (hname : l.huffName = some src) (hfits : NameFits src) (o : Option Byte) (k : Nat) :
    readOver o (st.written l) (.nameRing st.ns) k =
      if k ≤ (huffmanDecodeStr src).1.length then ((huffmanDecodeStr src).1 ++ [0])[k]? else o := by
  unfold QpackStatics.written
  rw [readOver_append, readOver_append, hname, Option.elim_some, readOver_name hfits,
    readOver_other fun w hw => by rw [elim_buf (valueWrites_buf _) w hw]; nofun,
    readOver_other fun w hw => by rw [elim_buf (valueWrites_buf _) w hw]; nofun]

theorem written_ref (href : l.huffRef = some src) (hfits : ValueFits src) (o : Option Byte) {k : Nat} (hk :
    k < (huffmanDecodeStr src).1.length) : readOver o (st.written l) (.refValue st.refSlot) k = (huffmanDecodeStr src).1[k]? := by
  unfold QpackStatics.written
  rw [readOver_append, readOver_append, href, Option.elim_some,
    readOver_other fun w hw => by rw [elim_buf (valueWrites_buf _) w hw]; nofun, readOver_value hfits hk]

theorem written_lit (hlit : l.huffLit = some src) (hfits : ValueFits src) (o : Option Byte) {k : Nat} (hk :
    k < (huffmanDecodeStr src).1.length) : readOver o (st.written l) (.litValue st.litSlot) k = (huffmanDecodeStr src).1[k]? := by
  unfold QpackStatics.written
  rw [readOver_append, hlit, Option.elim_some, readOver_value hfits hk]

theorem ref_held (hslot : st.refSlot < 16) (hlen : (pre ++ l :: post).length ≤ 16)
    (href : l.huffRef = some src) (hfits : ValueFits src) :
    HeldBy (linesWritten st (pre ++ l :: post)) (.refValue (pre.foldl QpackStatics.behind st).refSlot) (huffmanDecodeStr src).1 := by
  intro k hk
  have hrange := foldl_slot QpackStatics.refSlot (fun l => l.huffRef.isSome) 16 (fun _ _ => rfl) pre st hslot
  rw [linesWritten_around, readOver_append, readOver_append]
  generalize pre.foldl QpackStatics.behind st = s at hrange ⊢
  rw [readOver_other fun w hw heq => ?_, written_ref href hfits _ hk]
  obtain ⟨mid, b, post', rfl, -, hround⟩ := later_slot QpackStatics.refSlot (fun l => l.huffRef.isSome) 16
    .refValue (fun _ _ => rfl) (fun l _ {s w k} hw hk => by
      rcases written_buf hw with ⟨h, -⟩ | ⟨h, hsome⟩ | ⟨h, -⟩ <;> rw [h] at hk <;> cases hk
      exact ⟨rfl, hsome⟩) (by simp [href]) (by omega) hw heq
  have hle := mid.countP_le_length (p := fun l => l.huffRef.isSome)
  simp only [length_append, length_cons] at hlen
  omega

theorem lit_held (hslot : st.litSlot < 16) (hlen : (pre ++ l :: post).length ≤ 16)
    (hlit : l.huffLit = some src) (hfits : ValueFits src) :
    HeldBy (linesWritten st (pre ++ l :: post)) (.litValue (pre.foldl QpackStatics.behind st).litSlot) (huffmanDecodeStr src).1 := by
  intro k hk
  have hrange := foldl_slot QpackStatics.litSlot (fun l => l.huffLit.isSome) 16 (fun _ _ => rfl) pre st hslot
  rw [linesWritten_around, readOver_append, readOver_append]
  generalize pre.foldl QpackStatics.behind st = s at hrange ⊢
  rw [readOver_other fun w hw heq => ?_, written_lit hlit hfits _ hk]
  obtain ⟨mid, b, post', rfl, -, hround⟩ := later_slot QpackStatics.litSlot (fun l => l.huffLit.isSome) 16
    .litValue (fun _ _ => rfl) (fun l _ {s w k} hw hk => by
      rcases written_buf hw with ⟨h, -⟩ | ⟨h, -⟩ | ⟨h, hsome⟩ <;> rw [h] at hk <;> cases hk
      exact ⟨rfl, hsome⟩) (by simp [hlit]) (by omega) hw heq
  have hle := mid.countP_le_length (p := fun l => l.huffLit.isSome)
  simp only [length_append, length_cons] at hlen
  omega

theorem name_later (st : QpackStatics) {ls : List FieldLine} (hnames : NamesNamed ls) (hl : l.named = true) (hslot : st.ns < 8) {w : QpackWrite}
    (hw : w ∈ linesWritten (st.behind l) ls) (heq : w.buf = .nameRing st.ns) :
    ∃ mid b post, ls = mid ++ b :: post ∧ (mid.countP (·.named) + 1) % 8 = 0 := by
  obtain ⟨mid, b, post, hls, -, hround⟩ := later_slot QpackStatics.ns (·.named) 8 .nameRing
    behind_ns (fun b hb {s w k} hw hk => by
      rcases written_buf hw with ⟨h, hsome⟩ | ⟨h, -⟩ | ⟨h, -⟩ <;> rw [h] at hk <;> cases hk
      exact ⟨rfl, hnames b hb hsome⟩) hl hslot hw heq
  exact ⟨mid, b, post, hls, hround⟩

/-- What a later Huffman-coded name, with its NUL, writes over `own`. -/
def Spares (own : List Byte) (ls : List FieldLine) : Prop :=
  ∀ mid b post, ls = mid ++ b :: post → mid.countP (·.named) = 7 → ∀ y, b.huffName = some y →
    ((huffmanDecodeStr y).1 ++ [0]).take own.length <+: own

theorem spared_held {own : List Byte} {k : Nat} (hk : k < own.length) (hl : l.named = true) (_hslot : st.ns < 8) : ∀ ls :
    List FieldLine, ls.length < 16 → NamesNamed ls → (∀ b ∈ ls, ∀ y, b.huffName = some y → NameFits y) → Spares own ls →
    readOver own[k]? (linesWritten (st.behind l) ls) (.nameRing st.ns) k = own[k]? := by
  intro ls
  induction ls using reverseRecOn with
  | nil => exact fun _ _ _ _ => rfl
  | append_singleton ls b ih =>
    intro hlen hnames hfits hspares
    rw [length_append, length_singleton] at hlen
    have hbefore := ih (by omega) (fun b' hb' => hnames b' (mem_append_left _ hb'))
      (fun b' hb' => hfits b' (mem_append_left _ hb')) fun mid b' post hls =>
        hspares mid b' (post ++ [b]) (by rw [hls]; simp)
    have hmem : b ∈ ls ++ [b] := by simp
    rw [linesWritten_append, readOver_append, hbefore]
    have hone : ∀ s : QpackStatics, linesWritten s [b] = s.written b := fun s => append_nil _
    have hnext : (st.behind l).ns = (st.ns + 1) % 8 := by rw [behind_ns, if_pos hl]
    have hcount := foldl_slot QpackStatics.ns (·.named) 8 behind_ns ls (st.behind l) (by rw [hnext]; exact Nat.mod_lt _ (by decide))
    have hle := ls.countP_le_length (p := (·.named))
    rw [hone]
    generalize ls.foldl QpackStatics.behind (st.behind l) = t at hcount ⊢
    by_cases hhit : t.ns = st.ns ∧ b.huffName.isSome
    · obtain ⟨hns, hsome⟩ := hhit
      obtain ⟨y, hy⟩ := Option.isSome_iff_exists.1 hsome
      have hseven : ls.countP (·.named) = 7 := by omega
      have hover := hspares ls b [] rfl hseven y hy
      rw [← hns, written_name hy (hfits b hmem y hy)]
      split
      · rename_i hky
        have hkt : k < (((huffmanDecodeStr y).1 ++ [0]).take own.length).length := by simp; omega
        rw [(prefix_iff_getElem?.1 hover) k hkt, getElem_take, List.getElem?_eq_getElem]
      · rfl
    · apply readOver_other
      intro w hw heq
      rcases written_buf hw with ⟨h, hsome⟩ | ⟨h, -⟩ | ⟨h, -⟩
      · exact hhit ⟨QpackBuf.nameRing.inj (h.symm.trans heq), hsome⟩
      · cases h.symm.trans heq
      · cases h.symm.trans heq

theorem name_held_iff (hslot : st.ns < 8) (hlen : (pre ++ l :: post).length ≤ 16) (hnames : NamesNamed (pre ++ l :: post))
    (hfits : ∀ b ∈ pre ++ l :: post, ∀ y, b.huffName = some y → NameFits y) {x : List Byte} (hx : l.huffName = some x) :
    HeldBy (linesWritten st (pre ++ l :: post)) (.nameRing (pre.foldl QpackStatics.behind st).ns) (huffmanDecodeStr x).1 ↔
    Spares (huffmanDecodeStr x).1 post := by
  have hmem : l ∈ pre ++ l :: post := by simp
  have hl := hnames l hmem (by simp [hx])
  have hpost : ∀ b ∈ post, b ∈ pre ++ l :: post := fun b hb => mem_append_right _ (mem_cons_of_mem _ hb)
  have hrange := foldl_slot QpackStatics.ns (·.named) 8 behind_ns pre st hslot
  simp only [length_append, length_cons] at hlen
  rw [linesWritten_around]
  generalize pre.foldl QpackStatics.behind st = s at hrange ⊢
  have hs : s.ns < 8 := by rw [hrange]; exact Nat.mod_lt _ (by decide)
  have hown : ∀ k < (huffmanDecodeStr x).1.length, ∀ o, readOver o (s.written l) (.nameRing s.ns) k = (huffmanDecodeStr x).1[k]? := by
    intro k hk o
    rw [written_name hx (hfits l hmem x hx), if_pos (by omega), List.getElem?_append_left hk]
  constructor
  · intro hheld mid b rest hsplit hseven y hy
    subst hsplit
    have hnext : (s.behind l).ns = (s.ns + 1) % 8 := by rw [behind_ns, if_pos hl]
    have hcount := foldl_slot QpackStatics.ns (·.named) 8 behind_ns mid (s.behind l) (by rw [hnext]; exact Nat.mod_lt _ (by decide))
    have hbl : b.named = true := hnames b (hpost b (by simp)) (by simp [hy])
    have hmidlen := mid.countP_le_length (p := (·.named))
    rw [prefix_iff_getElem?]
    intro k hk
    rw [length_take, length_append, length_singleton] at hk
    have hk1 : k < (huffmanDecodeStr x).1.length := by omega
    have hread := hheld k hk1
    rw [readOver_append, readOver_append, linesWritten_around, readOver_append, readOver_append] at hread
    generalize mid.foldl QpackStatics.behind (s.behind l) = t at hcount hread
    have hns : t.ns = s.ns := by omega
    rw [← hns, written_name hy (hfits b (hpost b (by simp)) y hy), if_pos (by omega),
      readOver_other fun w hw heq => ?_] at hread
    · rw [← hread, getElem_take, List.getElem?_eq_getElem]
    · obtain ⟨mid', b', rest', rfl, hround⟩ := name_later t (l := b)
        (fun c hc => hnames c (hpost c (by simp [hc]))) hbl (by omega) hw heq
      have hle := mid'.countP_le_length (p := (·.named))
      simp only [length_append, length_cons] at hlen
      omega
  · intro hspares k hk
    rw [readOver_append, readOver_append, hown k hk]
    exact spared_held hk hl hs post (by omega) (fun b hb => hnames b (hpost b hb)) (fun b hb => hfits b (hpost b hb)) hspares

end Held

/-! ## The whole call -/

theorem sizeOf32_natCast {n : Nat} (h : n < 2 ^ 64) : sizeOf32 (n : Int) = n := by
  unfold sizeOf32
  omega

theorem huffValue_lies {buf : QpackBuf} (hfits : ValueFits src) {n : Nat} {held : QpackBuf → List Byte → Prop}
    (hheld : held buf (huffmanDecodeStr src).1) : (huffValue buf src).1.Lies n held (huffValue buf src).2 := by
  unfold huffValue
  rw [huffStr_ret buf 4095 hfits]
  unfold ValueFits at hfits
  cases (huffmanDecodeStr src).2 with
  | false => rfl
  | true =>
    simp only [if_true]
    split
    · exact ⟨sizeOf32_natCast (by omega), hheld⟩
    · rfl

theorem fieldsStart_le {data : List Byte} {pos : Nat} (h : fieldsStart data = some pos) : pos ≤ data.length := by
  unfold fieldsStart at h
  split at h
  · cases h
  obtain ⟨⟨d, r⟩, hvd, hrest⟩ := Option.bind_eq_some_iff.1 h
  obtain ⟨⟨d', r'⟩, hvd', rfl⟩ := Option.map_eq_some_iff.1 hrest
  have := (vd_length hvd).2
  have := (vd_length hvd').2
  rw [length_drop] at this
  dsimp only at *
  omega

/-- **Decoding a block is safe exactly when** its Huffman-coded names decode to at most 255 bytes each, its Huffman-coded values to
at most 4096, and no name is written over by the eighth literal name behind it. -/
theorem qpack_safe_iff (data : List Byte) (n ns refSlot litSlot : Nat) (hlen : data.length < 2 ^ 31) (hn : n ≤ QPACK_MAX_FIELDS)
    (hns : ns < 8) (href : refSlot < 16) (hlit : litSlot < 16) :
    (qpackDecode data n { ns, refSlot, litSlot }).Safe data n ↔ LinesSound (blockLines data n) := by
  cases hstart : fieldsStart data with
  | none =>
    have hnone : blockLines data n = [] := by
      unfold blockLines
      rw [hstart, Option.elim_none]
    have hdec : qpackDecode data n { ns, refSlot, litSlot } = ⟨-1, [], { ns, refSlot, litSlot }⟩ := by
      unfold qpackDecode
      rw [hstart]
    rw [hdec, hnone]
    refine ⟨fun _ => ⟨nofun, nofun, nofun, fun pre a mid b post h => by simp at h⟩, fun _ => ?_⟩
    exact ⟨nofun, nofun, nofun, by rw [hnone]; rfl, by rw [hstart]; rfl⟩
  | some pos =>
    have hpos := fieldsStart_le hstart
    have hlines : blockLines data n = fieldLines n (data.drop pos) := by
      unfold blockLines
      rw [hstart, Option.elim_some]
    obtain ⟨hst, hcount, hof, hall⟩ := parseFields_spec hlen n pos { ns, refSlot, litSlot } hpos
    have hdec : qpackDecode data n { ns, refSlot, litSlot } = ⟨(parseFields data n pos { ns, refSlot, litSlot }).1.length,
        (parseFields data n pos { ns, refSlot, litSlot }).1, (parseFields data n pos { ns, refSlot, litSlot }).2⟩ := by
      unfold qpackDecode
      rw [hstart]
    rw [hdec, hlines]
    have hnamed := fieldLines_named n (data.drop pos)
    have hwhole := fieldLines_whole n (data.drop pos)
    have hmany : (fieldLines n (data.drop pos)).length ≤ 16 := Nat.le_trans (fieldLines_length n _) hn
    have hwrites : (parseFields data n pos { ns, refSlot, litSlot }).2.writes =
        linesWritten { ns, refSlot, litSlot } (fieldLines n (data.drop pos)) := by
      rw [hst, foldl_writes]
      rfl
    generalize parseFields data n pos { ns, refSlot, litSlot } = r at *
    generalize fieldLines n (data.drop pos) = ls at *
    constructor
    · intro h
      have hinside := h.inside
      dsimp only at hinside
      rw [hwrites, linesWritten_inside] at hinside
      obtain ⟨hnames, hrefs, hlits⟩ := hinside
      refine ⟨hnames, hrefs, hlits, fun pre a mid b post hsplit hseven x y hx hy => ?_⟩
      rw [append_assoc, cons_append] at hsplit
      obtain ⟨f, hf, hat⟩ := hall pre a (mid ++ b :: post) hsplit (hwhole pre _ a hsplit (by simp))
      have hlies := h.names f hf
      rw [(hat.name x hx).1] at hlies
      have hheld := hlies.2
      dsimp only at hheld
      rw [hwrites, hsplit] at hheld
      rw [hsplit] at hmany hnamed hnames
      exact (name_held_iff hns hmany hnamed hnames hx).1 hheld mid b post rfl hseven y hy
    · intro h
      refine ⟨?_, fun f hf => ?_, fun f hf => ?_, by rw [hlines]; exact hcount, by rw [hstart]; rfl⟩
      · dsimp only
        rw [hwrites, linesWritten_inside]
        exact ⟨h.names, h.refs, h.lits⟩
      · obtain ⟨pre, l, post, hsplit, hat⟩ := hof f hf
        cases hx : l.huffName with
        | none => exact hat.plainName hx _
        | some x =>
          have hfits : NameFits x := h.names l (by rw [hsplit]; simp) x hx
          obtain ⟨hname, hsize⟩ := hat.name x hx
          rw [hname, hsize, huffStr_ret _ _ (Nat.le_trans hfits.2 (by decide)), hfits.1, if_pos rfl]
          refine ⟨sizeOf32_natCast (Nat.lt_of_le_of_lt hfits.2 (by decide)), ?_⟩
          dsimp only
          rw [hwrites]
          have hkept := h.kept pre l
          have hnames := h.names
          rw [hsplit] at hmany hnamed hnames ⊢
          refine (name_held_iff hns hmany hnamed hnames hx).2 fun mid b rest hrest hseven y hy => ?_
          exact hkept mid b rest (by rw [hsplit, hrest]; simp) hseven x y hx hy
      · obtain ⟨pre, l, post, hsplit, hat⟩ := hof f hf
        have hmem : l ∈ ls := by rw [hsplit]; simp
        cases hr : l.huffRef with
        | some src =>
          have hfits : ValueFits src := h.refs l hmem src hr
          obtain ⟨hv, hvl⟩ := Prod.mk.injEq .. ▸ hat.ref src hr
          rw [hv, hvl]
          refine huffValue_lies hfits ?_
          dsimp only
          rw [hwrites, hsplit]
          exact ref_held href (hsplit ▸ hmany) hr hfits
        | none =>
          cases hl : l.huffLit with
          | some src =>
            have hfits : ValueFits src := h.lits l hmem src hl
            obtain ⟨hv, hvl⟩ := Prod.mk.injEq .. ▸ hat.lit src hl
            rw [hv, hvl]
            refine huffValue_lies hfits ?_
            dsimp only
            rw [hwrites, hsplit]
            exact lit_held hlit (hsplit ▸ hmany) hl hfits
          | none => exact hat.plainValue hr hl _

def badNameSample : List Byte := [0, 0, 0x29, 0, 0]

/-- **A name that does not decode is ended before its buffer**, at index −1. -/
theorem qpack_writes_outside : ¬ ∀ (data : List Byte) (n : Nat), data.length < 2 ^ 31 → n ≤ QPACK_MAX_FIELDS →
    (qpackDecode data n {}).Safe data n := by
  intro hall
  have hsafe := (hall badNameSample 16 (by decide) (by decide)).inside
  have hwrite : (⟨.nameRing 0, -1, 0⟩ : QpackWrite) ∈ (qpackDecode badNameSample 16 {}).statics.writes := by decide +kernel
  have hlow := (hsafe _ hwrite).1
  revert hlow
  decide

/-- A field `a` of the value `a`, both Huffman-coded. -/
def huffmanFieldSample : List Byte := [0, 0, 0x29, 0x1f, 0x81, 0x1f]

theorem qpack_safe_sample : (qpackDecode huffmanFieldSample 16 { ns := 7 }).Safe huffmanFieldSample 16 ∧
    (qpackDecode huffmanFieldSample 16 { ns := 7 }).fields.map (QpackHeaderField.pair huffmanFieldSample) =
      [(h3Text "a", h3Text "a")] := by
  refine ⟨(qpack_safe_iff huffmanFieldSample 16 7 0 0 (by decide) (by decide) (by decide) (by decide) (by decide)).2 ?_,
    by decide +kernel⟩
  have hlines : blockLines huffmanFieldSample 16 =
      [{ named := true, huffName := some [0x1f], huffLit := some [0x1f], size := some 4 }] := by decide +kernel
  rw [hlines]
  refine ⟨?_, ?_, ?_, fun pre a mid b post hsplit => ?_⟩
  · decide +kernel
  · decide +kernel
  · decide +kernel
  · have hlen := congrArg List.length hsplit
    simp at hlen
    omega

end MoqLiveCast
