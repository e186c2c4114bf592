import MoqLiveCast.Rtmp.ChunkStream
/-!
# ChunkCuts — what a read that lacks bytes leaves

More bytes behind change no chunk that was read, and a chunk that lacked bytes is read from where it was left as it would have
been read from its beginning, once its basic header is there.
-/
namespace MoqLiveCast

open List

namespace ChunkStream

variable {fmt csid : Nat} {s s' : ChunkStream} {b b' : List Byte}

theorem readMsgFormat_append {len : Nat} {set : ChunkStream → List Byte → BitVec 32 → ChunkStream} (hlen : 3 ≤ len)
    (x : List Byte) (h : readMsgFormat len fmt csid set s b = (s', some b')) :
    readMsgFormat len fmt csid set s (b ++ x) = (s', some (b' ++ x)) := by
  unfold readMsgFormat at h ⊢
  split at h
  · cases h
  · rename_i hb
    have hle : len ≤ b.length := Nat.le_of_not_lt hb
    have htake : ∀ n, n ≤ len → (b ++ x).take n = b.take n := fun n hn => take_append_of_le_length (Nat.le_trans hn hle)
    have hdrop : (b ++ x).drop len = b.drop len ++ x := drop_append_of_le_length hle
    have hlong : ¬(b ++ x).length < len := by
      rw [length_append]
      omega
    rw [if_neg hlong]
    dsimp only at h ⊢
    rw [htake 3 hlen, htake len (Nat.le_refl len), hdrop]
    split at h
    · rename_i hts
      rw [if_pos hts]
      cases h
      rfl
    · rename_i hts
      rw [if_neg hts]
      split at h
      · cases h
      · rename_i hb4
        have hle4 : len + 4 ≤ b.length := Nat.le_of_not_lt hb4
        have hlong4 : ¬(b ++ x).length < len + 4 := by
          rw [length_append]
          omega
        have hext : 4 ≤ (b.drop len).length := by
          rw [length_drop]
          omega
        rw [if_neg hlong4, take_append_of_le_length hext, drop_append_of_le_length hle4]
        cases h
        rfl

theorem readMsgFormat_again {len : Nat} {set : ChunkStream → List Byte → BitVec 32 → ChunkStream} (hlen : 3 ≤ len) (x : List Byte)
    (h : readMsgFormat len fmt csid set s b = (s', none)) :
    readMsgFormat len fmt csid set s' (b ++ x) = readMsgFormat len fmt csid set s (b ++ x) ∧ s'.inPayload = s.inPayload := by
  unfold readMsgFormat at h
  split at h
  · cases h
    exact ⟨rfl, rfl⟩
  · rename_i hb
    dsimp only at h
    split at h
    · cases h
    · rename_i hts
      split at h
      · cases h
        have hlong : ¬(b ++ x).length < len := by
          rw [length_append]
          omega
        have hle : len ≤ b.length := Nat.le_of_not_lt hb
        have htake : (b ++ x).take 3 = b.take 3 := take_append_of_le_length (Nat.le_trans hlen hle)
        unfold readMsgFormat
        rw [if_neg hlong, if_neg hlong]
        dsimp only
        rw [htake, if_neg hts, if_neg hts]
        exact ⟨rfl, rfl⟩
      · cases h

variable (x : List Byte)

theorem readExtTs_append {r : BitVec 32 × List Byte} (h : readExtTs b = some r) : readExtTs (b ++ x) = some (r.1, r.2 ++ x) := by
  unfold readExtTs at h ⊢
  split at h
  · cases h
  · rename_i hb
    have hle : 4 ≤ b.length := Nat.le_of_not_lt hb
    have hlong : ¬(b ++ x).length < 4 := by
      rw [length_append]
      omega
    rw [if_neg hlong, take_append_of_le_length hle, drop_append_of_le_length hle]
    cases h
    rfl

theorem repeatTimestamp_append {r : BitVec 32 × List Byte} (h : s.repeatTimestamp b = some r) :
    s.repeatTimestamp (b ++ x) = some (r.1, r.2 ++ x) := by
  unfold repeatTimestamp at h ⊢
  split at h
  · split_ifs at h ⊢
    · exact readExtTs_append x h
    · cases h
      rfl
  · split_ifs at h ⊢
    · obtain ⟨r', hr', rfl⟩ := Option.map_eq_some_iff.1 h
      rw [readExtTs_append x hr']
      rfl
    · cases h
      rfl
  · split_ifs at h ⊢
    · obtain ⟨r', hr', rfl⟩ := Option.map_eq_some_iff.1 h
      rw [readExtTs_append x hr']
      rfl
    · cases h
      rfl
  · cases h
    rfl

theorem skipTimestamp_append (h : s.skipTimestamp b = some b') : s.skipTimestamp (b ++ x) = some (b' ++ x) := by
  unfold skipTimestamp at h ⊢
  split at h
  · rename_i hext
    obtain ⟨r, hr, rfl⟩ := Option.map_eq_some_iff.1 h
    rw [if_pos hext, readExtTs_append x hr]
    dsimp only [Option.map_some]
    split <;> rfl
  · rename_i hext
    rw [if_neg hext]
    cases h
    rfl

theorem readMsgFormat3_append (h : readMsgFormat3 fmt csid s b = (s', some b')) :
    readMsgFormat3 fmt csid s (b ++ x) = (s', some (b' ++ x)) := by
  unfold readMsgFormat3 at h ⊢
  split at h
  · rename_i hremain
    rw [if_pos hremain]
    split at h
    · cases h
    · rename_i hr
      rw [repeatTimestamp_append x hr]
      cases h
      rfl
  · rename_i hremain
    rw [if_neg hremain]
    split at h
    · cases h
    · rename_i hr
      rw [skipTimestamp_append x hr]
      cases h
      rfl

theorem readMsgFormat3_again (h : readMsgFormat3 fmt csid s b = (s', none)) : s' = s := by
  unfold readMsgFormat3 at h
  split at h
  · split at h <;> cases h
    rfl
  · split at h <;> cases h
    rfl

theorem readMessageHeader_kept (h : s.inPayload = true) : readMessageHeader fmt csid s b = (s, some b) := if_pos h

theorem readMessageHeader_append (h : readMessageHeader fmt csid s b = (s', some b')) :
    readMessageHeader fmt csid s (b ++ x) = (s', some (b' ++ x)) ∧ s'.inPayload = true := by
  unfold readMessageHeader at h ⊢
  split at h
  · rename_i hin
    cases h
    rw [if_pos hin]
    exact ⟨rfl, hin⟩
  · rename_i hin
    rw [if_neg hin]
    dsimp only at h ⊢
    have hgo : ∀ {f : ChunkStream → List Byte → ChunkStream × Option (List Byte)},
        (∀ {s s' b b'}, f s b = (s', some b') → f s (b ++ x) = (s', some (b' ++ x))) →
        (if (f s b).2.isSome = true then ({ (f s b).1 with inPayload := true }, (f s b).2) else f s b) = (s', some b') →
        (if (f s (b ++ x)).2.isSome = true then ({ (f s (b ++ x)).1 with inPayload := true }, (f s (b ++ x)).2)
          else f s (b ++ x)) = (s', some (b' ++ x)) ∧ s'.inPayload = true := by
      intro f hf h
      split at h
      · rename_i hsome
        obtain ⟨b₁, hb₁⟩ := Option.isSome_iff_exists.1 hsome
        have happ := hf (show f s b = ((f s b).1, some b₁) from Prod.ext rfl hb₁)
        rw [hb₁] at h
        cases h
        rw [happ]
        exact ⟨rfl, rfl⟩
      · rename_i hnone
        rw [h] at hnone
        exact absurd rfl hnone
    split at h
    · exact hgo (readMsgFormat_append (by omega) x) h
    · exact hgo (readMsgFormat_append (by omega) x) h
    · exact hgo (readMsgFormat_append (by omega) x) h
    · exact hgo (readMsgFormat3_append x) h

theorem readMessageHeader_again (h : readMessageHeader fmt csid s b = (s', none)) :
    readMessageHeader fmt csid s' (b ++ x) = readMessageHeader fmt csid s (b ++ x) := by
  unfold readMessageHeader at h
  split at h
  · cases h
  · rename_i hin
    dsimp only at h
    have hgo : ∀ {f : ChunkStream → List Byte → ChunkStream × Option (List Byte)},
        (if (f s b).2.isSome = true then ({ (f s b).1 with inPayload := true }, (f s b).2) else f s b) = (s', none) →
        f s b = (s', none) := by
      intro f h
      split at h
      · rename_i hsome
        cases h' : (f s b).2 with
        | none => simp [h'] at hsome
        | some b₁ => simp [h'] at h
      · exact h
    unfold readMessageHeader
    split at h
    · obtain ⟨heq, hphase⟩ := readMsgFormat_again (by omega) x (hgo h)
      rw [hphase]
      unfold readMsgFormat0
      simp only [heq, if_neg hin]
    · obtain ⟨heq, hphase⟩ := readMsgFormat_again (by omega) x (hgo h)
      rw [hphase]
      unfold readMsgFormat1
      simp only [heq, if_neg hin]
    · obtain ⟨heq, hphase⟩ := readMsgFormat_again (by omega) x (hgo h)
      rw [hphase]
      unfold readMsgFormat2
      simp only [heq, if_neg hin]
    · rw [readMsgFormat3_again (hgo h)]

theorem readMessagePayload_append {chunkSize : Nat} (h : readMessagePayload chunkSize s b = (s', some b')) :
    readMessagePayload chunkSize s (b ++ x) = (s', some (b' ++ x)) := by
  unfold readMessagePayload at h ⊢
  dsimp only at h ⊢
  split at h
  · cases h
  · rename_i hb
    have hle : min s.remain chunkSize ≤ b.length := Nat.le_of_not_lt hb
    have hlong : ¬(b ++ x).length < min s.remain chunkSize := by
      rw [length_append]
      omega
    rw [if_neg hlong, take_append_of_le_length hle, drop_append_of_le_length hle]
    cases h
    rfl

theorem readMessagePayload_again {chunkSize : Nat} (h : readMessagePayload chunkSize s b = (s', none)) : s' = s := by
  unfold readMessagePayload at h
  dsimp only at h
  split at h <;> cases h
  rfl

end ChunkStream

namespace RtmpReader

variable {chunkSize : Nat} {r r' : RtmpReader}

variable (x : List Byte)

theorem readChunk_append (h : r.readChunk chunkSize = (r', true)) : (r.push x).readChunk chunkSize = (r'.push x, true) := by
  unfold readChunk at h ⊢
  have hstream : (r.push x).stream = r.stream := rfl
  have hbuf : (r.push x).buf = r.buf ++ x := rfl
  dsimp only at h ⊢
  rw [hstream, hbuf]
  have hfmt : (r.push x).fmt = r.fmt ∧ (r.push x).csid = r.csid := ⟨rfl, rfl⟩
  rw [hfmt.1, hfmt.2]
  split at h
  · cases h
  · rename_i b hb
    obtain ⟨hheader, -⟩ := ChunkStream.readMessageHeader_append x (Prod.ext rfl hb)
    rw [hheader]
    dsimp only
    split at h
    · cases h
    · rename_i b' hb'
      rw [ChunkStream.readMessagePayload_append x (Prod.ext rfl hb')]
      cases h
      rfl

@[simp] theorem setStream_stream (r : RtmpReader) (s : ChunkStream) : (r.setStream s).stream = s := by
  simp [stream, setStream]

@[simp] theorem setStream_setStream (r : RtmpReader) (s s' : ChunkStream) : (r.setStream s).setStream s' = r.setStream s' := by
  simp [setStream]

theorem readChunk_setStream {s : ChunkStream} {b : List Byte}
    (hread : s.readMessageHeader r.fmt r.csid b = r.stream.readMessageHeader r.fmt r.csid r.buf)
    (hnone : (r.stream.readMessageHeader r.fmt r.csid r.buf).2 = none → b = r.buf) :
    ({ r with buf := b }.setStream s).readChunk chunkSize = r.readChunk chunkSize := by
  have hover : ∀ (b : List Byte) (ready : Bool) (s' : ChunkStream),
      { { r with buf := b }.setStream s with buf := b, fmtReady := ready }.setStream s' =
        { r with buf := b, fmtReady := ready }.setStream s' :=
    fun b ready s' => setStream_setStream { r with buf := b, fmtReady := ready } s s'
  have hheader : ({ r with buf := b }.setStream s).stream.readMessageHeader ({ r with buf := b }.setStream s).fmt
      ({ r with buf := b }.setStream s).csid ({ r with buf := b }.setStream s).buf =
        r.stream.readMessageHeader r.fmt r.csid r.buf := by
    rw [setStream_stream]
    exact hread
  unfold readChunk
  rw [hheader]
  dsimp only
  split
  · rename_i hn
    rw [hnone hn]
    exact Prod.ext (hover r.buf r.fmtReady _) rfl
  · rename_i b' _
    split
    · exact Prod.ext (hover b' r.fmtReady _) rfl
    · rename_i b'' _
      exact Prod.ext (hover b'' false _) rfl

theorem readChunk_again (h : r.readChunk chunkSize = (r', false)) :
    r'.fmtReady = r.fmtReady ∧ (r'.push x).readChunk chunkSize = (r.push x).readChunk chunkSize := by
  unfold readChunk at h
  dsimp only at h
  split at h
  · rename_i hb
    obtain rfl := (Prod.mk.inj h).1
    refine ⟨rfl, ?_⟩
    have hagain := ChunkStream.readMessageHeader_again x (Prod.ext rfl hb)
    exact @readChunk_setStream chunkSize (r.push x) _ _ hagain fun _ => rfl
  · rename_i b hb
    split at h
    · rename_i hp
      obtain rfl := (Prod.mk.inj h).1
      refine ⟨rfl, ?_⟩
      obtain ⟨hheader, hphase⟩ := ChunkStream.readMessageHeader_append x (Prod.ext rfl hb)
      have hkept : (r.stream.readMessageHeader r.fmt r.csid r.buf).1.readMessageHeader r.fmt r.csid (b ++ x) =
          r.stream.readMessageHeader r.fmt r.csid (r.buf ++ x) := by
        rw [hheader, ChunkStream.readMessageHeader_kept hphase]
      have hsame : ((r.stream.readMessageHeader r.fmt r.csid r.buf).1.readMessagePayload chunkSize b).1 =
          (r.stream.readMessageHeader r.fmt r.csid r.buf).1 := ChunkStream.readMessagePayload_again (Prod.ext rfl hp)
      rw [hsame]
      refine @readChunk_setStream chunkSize (r.push x) _ _ hkept fun hn => ?_
      have hsome := congrArg Prod.snd hheader
      exact absurd (hn.symm.trans hsome) (by simp)
    · cases h

/-! ## The basic header -/

/-- **The basic header is there, whole**, or nothing is. -/
def BasicWhole (r : RtmpReader) : Prop := r.fmtReady = true ∨ r.buf = [] ∨ r.readFmtCsid.2 = true

theorem readFmtCsid_append (h : r.readFmtCsid = (r', true)) :
    (r.push x).readFmtCsid = (r'.push x, true) ∧ r'.fmtReady = r.fmtReady := by
  unfold readFmtCsid at h ⊢
  have hbuf : (r.push x).buf = r.buf ++ x := rfl
  rw [hbuf]
  cases hb : r.buf with
  | nil => simp [hb] at h
  | cons y b =>
    simp only [hb, cons_append] at h ⊢
    split_ifs at h ⊢
    · cases b with
      | nil => simp at h
      | cons z b =>
        simp only [Prod.mk.injEq, and_true] at h
        subst h
        exact ⟨rfl, rfl⟩
    · cases b with
      | nil => simp at h
      | cons z b =>
        cases b with
        | nil => simp at h
        | cons u b =>
          simp only [Prod.mk.injEq, and_true] at h
          subst h
          exact ⟨rfl, rfl⟩
    · simp only [Prod.mk.injEq, and_true] at h
      subst h
      exact ⟨rfl, rfl⟩

theorem readChunkStream_append (h : r.readChunkStream chunkSize = (r', true)) :
    (r.push x).readChunkStream chunkSize = (r'.push x, true) := by
  unfold readChunkStream at h ⊢
  split at h
  · rename_i hready
    have hready : (r.push x).fmtReady = true := hready
    rw [if_pos hready]
    exact readChunk_append x h
  · rename_i hready
    have hready : ¬(r.push x).fmtReady = true := hready
    rw [if_neg hready]
    dsimp only at h ⊢
    split at h
    · rename_i hb
      have hread : r.readFmtCsid = (r.readFmtCsid.1, true) := Prod.ext rfl hb
      obtain ⟨hbasic, -⟩ := readFmtCsid_append x hread
      rw [hbasic]
      exact readChunk_append x h
    · rename_i hb
      rw [h] at hb
      exact absurd rfl hb

theorem readChunkStream_again (hwhole : r.BasicWhole) (h : r.readChunkStream chunkSize = (r', false)) :
    (r'.push x).readChunkStream chunkSize = (r.push x).readChunkStream chunkSize := by
  unfold readChunkStream at h
  split at h
  · rename_i hready
    obtain ⟨hready', hagain⟩ := readChunk_again x h
    have h1 : (r'.push x).fmtReady = true := hready'.trans hready
    have h2 : (r.push x).fmtReady = true := hready
    unfold readChunkStream
    rw [if_pos h1, if_pos h2]
    exact hagain
  · rename_i hready
    dsimp only at h
    split at h
    · rename_i hb
      obtain ⟨hready', hagain⟩ := readChunk_again x h
      have hread : r.readFmtCsid = (r.readFmtCsid.1, true) := Prod.ext rfl hb
      obtain ⟨hbasic, -⟩ := readFmtCsid_append x hread
      have h1 : (r'.push x).fmtReady = true := hready'
      have h2 : ¬(r.push x).fmtReady = true := hready
      unfold readChunkStream
      rw [if_pos h1, if_neg h2]
      dsimp only
      rw [hbasic]
      exact hagain
    · rename_i hb
      have hnil : r.buf = [] := by
        rcases hwhole with hw | hw | hw
        · exact absurd hw hready
        · exact hw
        · exact absurd hw hb
      have hsame : r.readFmtCsid = (r, false) := by
        unfold readFmtCsid
        rw [hnil]
      rw [hsame] at h
      cases h
      rfl

/-! ## What is left of the buffer -/

def weight (r : RtmpReader) : Nat := 2 * r.buf.length + r.fmtReady.toNat

variable {b b' : List Byte} {s s' : ChunkStream}

theorem readMsgFormat_le {len fmt csid : Nat} {set : ChunkStream → List Byte → BitVec 32 → ChunkStream} (h : ChunkStream.readMsgFormat len fmt csid set s b = (s', some b')) : b'.length ≤ b.length := by
  unfold ChunkStream.readMsgFormat at h
  dsimp only at h
  split_ifs at h <;> cases h <;> simp

theorem readExtTs_le {b : List Byte} {x : BitVec 32 × List Byte} (h : ChunkStream.readExtTs b = some x) :
    x.2.length ≤ b.length := by
  unfold ChunkStream.readExtTs at h
  split at h <;> cases h
  simp

theorem readMsgFormat3_le {fmt csid : Nat} (h : s.readMsgFormat3 fmt csid b = (s', some b')) : b'.length ≤ b.length := by
  have hrepeat : ∀ {x}, s.repeatTimestamp b = some x → x.2.length ≤ b.length := by
    intro x hx
    unfold ChunkStream.repeatTimestamp at hx
    split at hx
    · split at hx
      · exact readExtTs_le hx
      · cases hx
        exact Nat.le_refl _
    · split at hx
      · obtain ⟨y, hy, rfl⟩ := Option.map_eq_some_iff.1 hx
        have hle := readExtTs_le hy
        exact hle
      · cases hx
        exact Nat.le_refl _
    · split at hx
      · obtain ⟨y, hy, rfl⟩ := Option.map_eq_some_iff.1 hx
        have hle := readExtTs_le hy
        exact hle
      · cases hx
        exact Nat.le_refl _
    · cases hx
      exact Nat.le_refl _
  have hskip : ∀ {x}, s.skipTimestamp b = some x → x.length ≤ b.length := by
    intro x hx
    unfold ChunkStream.skipTimestamp at hx
    split at hx
    · obtain ⟨y, hy, rfl⟩ := Option.map_eq_some_iff.1 hx
      split
      · exact readExtTs_le hy
      · exact Nat.le_refl _
    · cases hx
      exact Nat.le_refl _
  unfold ChunkStream.readMsgFormat3 at h
  split at h
  · split at h
    · cases h
    · rename_i ts b₁ hr
      cases h
      exact hrepeat hr
  · split at h
    · cases h
    · rename_i b₁ hr
      cases h
      exact hskip hr

theorem readMessageHeader_le {fmt csid : Nat} (h : s.readMessageHeader fmt csid b = (s', some b')) : b'.length ≤ b.length := by
  unfold ChunkStream.readMessageHeader at h
  split at h
  · cases h
    exact Nat.le_refl _
  · dsimp only at h
    have hgo : ∀ {f : ChunkStream → List Byte → ChunkStream × Option (List Byte)},
        (∀ {s s' b b'}, f s b = (s', some b') → b'.length ≤ b.length) →
        (if (f s b).2.isSome = true then ({ (f s b).1 with inPayload := true }, (f s b).2) else f s b) = (s', some b') →
        b'.length ≤ b.length := by
      intro f hf h
      split at h
      · exact hf (show f s b = ((f s b).1, some b') from Prod.ext rfl (Prod.mk.inj h).2)
      · exact hf h
    split at h
    · exact hgo readMsgFormat_le h
    · exact hgo readMsgFormat_le h
    · exact hgo readMsgFormat_le h
    · exact hgo readMsgFormat3_le h

theorem readChunk_le (h : r.readChunk chunkSize = (r', true)) : r'.fmtReady = false ∧ r'.buf.length ≤ r.buf.length := by
  unfold readChunk at h
  dsimp only at h
  split at h
  · cases h
  · rename_i b hb
    split at h
    · cases h
    · rename_i b' hb'
      obtain rfl := (Prod.mk.inj h).1
      have hheader := readMessageHeader_le (Prod.ext rfl hb)
      unfold ChunkStream.readMessagePayload at hb'
      dsimp only at hb'
      split at hb' <;> cases hb'
      refine ⟨rfl, ?_⟩
      have hdrop : (b.drop (min (r.stream.readMessageHeader r.fmt r.csid r.buf).1.remain chunkSize)).length ≤ b.length := by
        simp
      exact Nat.le_trans hdrop hheader

theorem readChunkStream_lt (h : r.readChunkStream chunkSize = (r', true)) : r'.weight < r.weight := by
  unfold readChunkStream at h
  unfold weight
  split at h
  · rename_i hready
    obtain ⟨hready', hle⟩ := readChunk_le h
    rw [hready', hready]
    simp
    omega
  · rename_i hready
    dsimp only at h
    split at h
    · rename_i hb
      obtain ⟨hready', hle⟩ := readChunk_le h
      have hbasic : r.readFmtCsid.1.buf.length < r.buf.length := by
        unfold readFmtCsid at hb ⊢
        cases hbuf : r.buf with
        | nil => simp [hbuf] at hb
        | cons x b =>
          simp only [hbuf] at hb ⊢
          split_ifs at hb ⊢
          · cases b with
            | nil => simp at hb
            | cons y b => show b.length < b.length + 1 + 1; omega
          · cases b with
            | nil => simp at hb
            | cons y b =>
              cases b with
              | nil => simp at hb
              | cons z b => show b.length < b.length + 1 + 1 + 1; omega
          · simp
      rw [hready']
      have hle : r'.buf.length ≤ r.readFmtCsid.1.buf.length := hle
      simp
      omega
    · rename_i hb
      rw [h] at hb
      exact absurd rfl hb

end RtmpReader

/-! ## The loop -/

namespace RtmpInput

open RtmpReader

variable {σ : Type} (h : RtmpHandler σ)

/-- **No read ends inside a basic header.** -/
def CutOk : Nat → RtmpInput σ → Prop
  | 0, _ => True
  | k + 1, w =>
    w.closed = true ∨
      match w.reader.readChunkStream (h.size w.state) with
      | (_, false) => w.reader.BasicWhole
      | (r, true) => CutOk k (w.chunkRead h r)

def push (w : RtmpInput σ) (x : List Byte) : RtmpInput σ := { w with reader := w.reader.push x }

variable {h} {w : RtmpInput σ}

theorem chunkRead_weight (w : RtmpInput σ) (r : RtmpReader) : (w.chunkRead h r).reader.weight ≤ r.weight := by
  unfold chunkRead
  split
  · dsimp only
    split
    · exact Nat.zero_le _
    · exact Nat.le_refl _
  · exact Nat.le_refl _

theorem chunkRead_push (hopen : w.closed = false) (r : RtmpReader) (x : List Byte) : (w.chunkRead h r).closed = true ∧
    w.chunkRead h (r.push x) = w.chunkRead h r ∨ (w.chunkRead h r).closed = false ∧ w.chunkRead h (r.push x) =
    (w.chunkRead h r).push x := by
  unfold chunkRead
  have hstream : (r.push x).stream = r.stream := rfl
  rw [hstream]
  split
  · dsimp only
    split
    · exact .inl ⟨rfl, rfl⟩
    · exact .inr ⟨hopen, rfl⟩
  · exact .inr ⟨hopen, rfl⟩

theorem receiveLoop_enough : ∀ (k : Nat) (w : RtmpInput σ), w.reader.weight < k →
    receiveLoop h k w = receiveLoop h (w.reader.weight + 1) w
  | 0, _, hk => absurd hk (Nat.not_lt_zero _)
  | k + 1, w, hk => by
    rw [receiveLoop, receiveLoop]
    split
    · rfl
    · split
      · rfl
      · rename_i r hread
        have hlt := readChunkStream_lt hread
        have hle := chunkRead_weight (h := h) w r
        rw [receiveLoop_enough k _ (by omega), ← receiveLoop_enough w.reader.weight _ (by omega)]

theorem receiveLoop_closed (k : Nat) (hclosed : w.closed = true) : receiveLoop h k w = w := by
  cases k with
  | zero => rfl
  | succ k => rw [receiveLoop, if_pos hclosed]

theorem receive_eq (w : RtmpInput σ) : receiveChunkStream h w = receiveLoop h (w.reader.weight + 1) w := by
  refine receiveLoop_enough _ w ?_
  have hbit : w.reader.fmtReady.toNat ≤ 1 := Bool.toNat_le _
  unfold weight
  omega

theorem receiveLoop_push (x : List Byte) : ∀ (k : Nat) (w : RtmpInput σ), w.reader.weight < k → w.closed = false → CutOk h k w →
    receiveChunkStream h (w.push x) = onRead h (receiveLoop h k w) x
  | 0, _, hk, _, _ => absurd hk (Nat.not_lt_zero _)
  | k + 1, w, hk, hopen, hcut => by
    have hgo : ¬w.closed = true := by simp [hopen]
    have hgo' : ¬(w.push x).closed = true := hgo
    have hcut := hcut.resolve_left hgo
    rw [receive_eq, receiveLoop, if_neg hgo', receiveLoop, if_neg hgo]
    cases hread : w.reader.readChunkStream (h.size w.state) with
    | mk r ok =>
      cases ok with
      | false =>
        rw [hread] at hcut
        have hagain := readChunkStream_again x hcut hread
        have hread' : (w.push x).reader.readChunkStream (h.size (w.push x).state) =
            (r.push x).readChunkStream (h.size w.state) := hagain.symm
        rw [hread']
        unfold onRead
        dsimp only
        rw [if_neg hgo, receive_eq, receiveLoop, if_neg hgo]
        dsimp only
        cases hnext : (r.push x).readChunkStream (h.size w.state) with
        | mk r' ok =>
          cases ok with
          | false => rfl
          | true =>
            have hlt := readChunkStream_lt hnext
            have hlt' := readChunkStream_lt (hread'.trans hnext)
            have hle := chunkRead_weight (h := h) w r'
            have hsame : (w.push x).chunkRead h r' = w.chunkRead h r' := rfl
            dsimp only
            rw [hsame, receiveLoop_enough _ _ (by omega)]
            exact (receiveLoop_enough _ (w.chunkRead h r') (by omega)).symm
      | true =>
        rw [hread] at hcut
        have happ := readChunkStream_append x hread
        have hread' : (w.push x).reader.readChunkStream (h.size (w.push x).state) = (r.push x, true) := happ
        rw [hread']
        dsimp only
        have hlt := readChunkStream_lt hread
        have hlt' := readChunkStream_lt hread'
        have hle := chunkRead_weight (h := h) w r
        have hsame : (w.push x).chunkRead h (r.push x) = w.chunkRead h (r.push x) := rfl
        rw [hsame]
        rcases chunkRead_push (h := h) hopen r x with ⟨hclosed, heq⟩ | ⟨hstays, heq⟩
        · rw [heq, receiveLoop_closed _ hclosed, receiveLoop_closed _ hclosed]
          unfold onRead
          rw [if_pos hclosed]
        · have hle' := chunkRead_weight (h := h) w (r.push x)
          rw [heq] at hle' ⊢
          rw [receiveLoop_enough _ _ (by omega), ← receive_eq]
          exact receiveLoop_push x k _ (by omega) hstays hcut

theorem onRead_onRead (p x : List Byte) (hcut : w.closed = false → CutOk h ((w.push p).reader.weight + 1) (w.push p)) :
    onRead h (onRead h w p) x = onRead h w (p ++ x) := by
  cases hc : w.closed with
  | true => simp [onRead, hc]
  | false =>
    have hgo : ¬w.closed = true := by simp [hc]
    have hpush := receiveLoop_push x _ (w.push p) (Nat.lt_succ_self _) hc (hcut hc)
    rw [← receive_eq] at hpush
    have hwhole : (w.push p).push x = w.push (p ++ x) := by
      unfold push RtmpReader.push
      simp
    rw [hwhole] at hpush
    have hfirst : onRead h w p = receiveChunkStream h (w.push p) := if_neg hgo
    have hboth : onRead h w (p ++ x) = receiveChunkStream h (w.push (p ++ x)) := if_neg hgo
    rw [hfirst, hboth, hpush]

end RtmpInput
end MoqLiveCast
