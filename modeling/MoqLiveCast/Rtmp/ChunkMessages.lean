import Mathlib.Data.List.Induction
import MoqLiveCast.Rtmp.ChunkRead
/-!
# ChunkMessages — the messages of a compliant peer are handled

A chunk leaves the reader where the peer is (`Tracks.chunk`), until a message is refused; bytes that end inside a chunk
are kept, and they end inside no basic header (`Tracks.cutOk`).
-/
namespace MoqLiveCast
namespace ChunkPeer

open List

open ChunkStream

variable {σ : Type} {rules : ChunkRules} {h : RtmpHandler σ} {t : ChunkPeer σ} {w : RtmpInput σ} {e : ChunkEvent} {x : List Byte}

/-- **The reader refused a message**: what it was given is what the peer had sent. -/
structure Refused (t : ChunkPeer σ) (w : RtmpInput σ) : Prop where
  closed : w.closed = true
  reader : t.reader = none
  handled : w.handled <+: t.sent.map asRead

def streamFor (r : RtmpReader) (fmt csid : Nat) : ChunkStream := (r.csMap (readCsid csid % 256)).getD { fmt, csid := readCsid csid }

theorem tailOf_start (t : ChunkPeer σ) (fmt : Nat) (wide : Bool) (m : RtmpMessage) :
    t.tailOf rules (.start fmt wide m) = messageHeader rules.ids fmt (t.begun fmt m).delta m ++ m.payload.take t.size := rfl

theorem step_start (t : ChunkPeer σ) (fmt : Nat) (wide : Bool) (m : RtmpMessage) :
    t.step rules h (.start fmt wide m) = t.chunkSent rules h (t.begun fmt m) := rfl

theorem tailOf_more {csid : Nat} {s : SentStream} (hs : OrdMap.find t.streams csid = some s) (wide : Bool) :
    t.tailOf rules (.more csid wide) = extField s.delta ++ s.rest.take t.size := by
  simp only [tailOf, hs]

theorem step_more {csid : Nat} {s : SentStream} (hs : OrdMap.find t.streams csid = some s) (wide : Bool) :
    t.step rules h (.more csid wide) = t.chunkSent rules h { s with lastFmt := 3 } := by
  simp only [step, hs]

theorem readChunkStream_sent {r : RtmpReader} {fmt csid size : Nat} {wide : Bool} {c : ChunkStream} {s : SentStream}
    {header : List Byte} (hidle : r.fmtReady = false) (hfmt : fmt ≤ 3) (hlo : 2 ≤ csid) (hhi : csid < 65600)
    (hbuf : r.buf = basicHeader fmt csid wide ++ (header ++ (s.rest.take size ++ x))) (hbegun : s.rest = [] → s.message.payload = [])
    (hread : (streamFor r fmt csid).readMessageHeader fmt (readCsid csid) (header ++ (s.rest.take size ++ x)) =
      (c, some (s.rest.take size ++ x))) (hheld : ChunkStream.Held s c) :
    ∃ c', r.readChunkStream size =
        (⟨x, false, fmt, readCsid csid, Function.update r.csMap (readCsid csid % 256) (some c')⟩, true) ∧
      c'.inPayload = false ∧
      if s.rest.drop size = [] then c'.chunkReady = true ∧ c'.message = asRead s.message ∧
          ChunkStream.Held { s with rest := s.rest.drop size } c'.reset
      else ChunkStream.Held { s with rest := s.rest.drop size } c' := by
  obtain ⟨c', hpayload, hphase, hnext⟩ := readMessagePayload_sent (z := x) hheld hbegun size
  refine ⟨c', ?_, hphase, hnext⟩
  have hstream : ({ r with buf := header ++ (s.rest.take size ++ x), fmtReady := true, fmt, csid := readCsid csid } :
      RtmpReader).stream = streamFor r fmt csid := rfl
  unfold RtmpReader.readChunkStream
  rw [if_neg (by simp [hidle]), RtmpReader.readFmtCsid_basic hfmt hlo hhi hbuf]
  dsimp only
  rw [if_pos rfl]
  unfold RtmpReader.readChunk
  rw [hstream]
  dsimp only
  rw [hread]
  dsimp only
  rw [hpayload]
  rfl

theorem Tracks.chunkSent {buf : List Byte} {s : SentStream} {c : ChunkStream} {r : RtmpReader} (hw : Tracks t w buf)
    (hcsid : r.csid = readCsid s.message.csid) (hidle : r.fmtReady = false)
    (hmap : r.csMap = Function.update w.reader.csMap (readCsid s.message.csid % 256) (some c)) (hphase : c.inPayload = false)
    (hnext : if s.rest.drop t.size = [] then c.chunkReady = true ∧ c.message = asRead s.message ∧
          ChunkStream.Held { s with rest := s.rest.drop t.size } c.reset
      else ChunkStream.Held { s with rest := s.rest.drop t.size } c)
    (hapart : ∀ csid s', OrdMap.find t.streams csid = some s' → csid ≠ s.message.csid →
      readCsid csid % 256 ≠ readCsid s.message.csid % 256) :
    Tracks (t.chunkSent rules h s) (w.chunkRead h r) r.buf ∨ Refused (t.chunkSent rules h s) (w.chunkRead h r) := by
  have hstream : r.stream = c := by
    unfold RtmpReader.stream
    rw [hcsid, hmap, Function.update_self]
    rfl
  unfold ChunkPeer.chunkSent RtmpInput.chunkRead
  rw [hstream]
  dsimp only
  split at hnext
  · rename_i hdone
    obtain ⟨hready, hmessage, hheld⟩ := hnext
    have hreset : (r.setStream c.reset).csMap =
        Function.update w.reader.csMap (readCsid s.message.csid % 256) (some c.reset) := by
      unfold RtmpReader.setStream
      dsimp only
      rw [hcsid, hmap, Function.update_idem]
    have hput := hw.put (s := { s with rest := s.rest.drop t.size }) (r.setStream c.reset) hidle hreset hheld rfl hapart
    rw [if_pos hready, if_pos hdone, hmessage]
    unfold complete
    cases hgiven : h.handle w.state (asRead s.message) with
    | none =>
      refine .inr ⟨rfl, ?_, ?_⟩
      · dsimp only
        rw [hw.reader]
        exact hgiven
      · dsimp only
        rw [hw.handled, map_append]
        exact prefix_refl _
    | some p =>
      refine .inl ⟨hput.opened, ?_, ?_, hput.idle, hput.buf, hput.named, hput.held, hput.new, hput.apart⟩
      · dsimp only
        rw [hw.reader]
        exact hgiven
      · dsimp only
        rw [hw.handled, map_append]
        rfl
  · rename_i hmore
    have hready : ¬c.chunkReady = true := by simp [hnext.ready]
    rw [if_neg hmore, if_neg hready]
    exact .inl (hw.put (s := { s with rest := s.rest.drop t.size }) r hidle hmap hnext hphase hapart)

theorem Tracks.chunk (hw : Tracks t w (headOf e ++ t.tailOf rules e ++ x)) (hcompliant : Compliant t e) (hok :
    ReadOk rules h t e) : ∃ r, w.reader.readChunkStream (h.size w.state) = (r, true) ∧ r.buf = x ∧ (Tracks (t.step rules h e)
    (w.chunkRead h r) x ∨ Refused (t.step rules h e) (w.chunkRead h r)) := by
  obtain ⟨hsize, hevent⟩ := hok w.state hw.reader
  cases e with
  | start fmt wide m =>
    obtain ⟨hkeys, -, -⟩ := hevent
    have hcompliant' := hcompliant
    obtain ⟨-, hfmt, hlo, hhi, -, -, -⟩ := hcompliant'
    obtain ⟨hrest, hmessage⟩ := begun_rest t fmt m
    have hapart : ∀ csid s', OrdMap.find t.streams csid = some s' → csid ≠ m.csid →
        readCsid csid % 256 ≠ readCsid m.csid % 256 := fun csid s' hs' hne => hkeys _ (OrdMap.mem_of_find hs') hne
    have hnew : OrdMap.find t.streams m.csid = none → streamFor w.reader fmt m.csid = { fmt, csid := readCsid m.csid } := by
      intro hf
      have hnone := hw.new m.csid fun csid' s' hs' => hapart csid' s' hs' fun heq => by
        rw [heq, hf] at hs'
        cases hs'
      unfold streamFor
      rw [hnone]
      rfl
    have hold : ∀ s, OrdMap.find t.streams m.csid = some s →
        ChunkStream.Held s (streamFor w.reader fmt m.csid) ∧ (streamFor w.reader fmt m.csid).inPayload = false := by
      intro s hs
      obtain ⟨c, hc, hheld, hphase⟩ := hw.held m.csid s hs
      unfold streamFor
      rw [hc]
      exact ⟨hheld, hphase⟩
    have hphase : (streamFor w.reader fmt m.csid).inPayload = false := by
      cases hf : OrdMap.find t.streams m.csid with
      | none =>
        rw [hnew hf]
      | some s => exact (hold s hf).2
    obtain ⟨c, hread, -, hheld⟩ := readMessageHeader_start (z := (t.begun fmt m).rest.take t.size ++ x) hcompliant hw.reader hok hphase
      (fun s hs => (hold s hs).1) hnew
    have hbuf : w.reader.buf = basicHeader fmt m.csid wide ++
        (messageHeader rules.ids fmt (t.begun fmt m).delta m ++ ((t.begun fmt m).rest.take t.size ++ x)) := by
      rw [hw.buf, hrest]
      simp [headOf, tailOf]
    obtain ⟨c', hchunk, hphase', hnext⟩ := readChunkStream_sent hw.idle hfmt hlo hhi hbuf
      (fun hnil => by rw [hmessage, ← hrest, hnil]) hread hheld
    rw [hsize]
    refine ⟨_, hchunk, rfl, hw.chunkSent (s := t.begun fmt m) ?_ rfl ?_ hphase' hnext ?_⟩
    · rw [hmessage]
    · rw [hmessage]
    · rw [hmessage]
      exact hapart
  | more csid wide =>
    obtain ⟨-, hlo, hhi, s, hs, hrest⟩ := hcompliant
    have hs : OrdMap.find t.streams csid = some s := hs
    obtain ⟨hflag, htime⟩ := hevent s hs
    obtain rfl := hw.named csid s hs
    obtain ⟨c, hc, hheld, hphase⟩ := hw.held _ s hs
    have hold : streamFor w.reader 3 s.message.csid = c := by
      unfold streamFor
      rw [hc]
      rfl
    obtain ⟨c', hread, -, hheld'⟩ := readMessageHeader_more (z := s.rest.take t.size ++ x) hheld hphase hrest hflag htime
    have hbuf : w.reader.buf = basicHeader 3 s.message.csid wide ++ (extField s.delta ++ (s.rest.take t.size ++ x)) := by
      rw [hw.buf, tailOf_more hs]
      simp [headOf]
    obtain ⟨c'', hchunk, hphase', hnext⟩ := readChunkStream_sent (s := { s with lastFmt := 3 }) hw.idle (Nat.le_refl 3) hlo hhi hbuf
      (fun hnil => absurd hnil hrest) (by rw [hold]; exact hread) hheld'
    rw [hsize, step_more hs]
    exact ⟨_, hchunk, rfl, hw.chunkSent (s := { s with lastFmt := 3 }) rfl rfl rfl hphase' hnext
      fun csid' s' hs' hne hkey => hne (hw.apart _ _ _ _ hs' hs hkey)⟩

/-! ## A run -/

theorem Refused.complete (hw : Refused t w) (m : RtmpMessage) : Refused (t.complete rules h m) w := by
  refine ⟨hw.closed, ?_, ?_⟩
  · unfold ChunkPeer.complete
    simp [hw.reader]
  · unfold ChunkPeer.complete
    rw [map_append]
    exact hw.handled.trans (prefix_append _ _)

theorem Refused.streams (hw : Refused t w) (streams : List (Nat × SentStream)) : Refused { t with streams } w :=
  ⟨hw.closed, hw.reader, hw.handled⟩

theorem Refused.sent (hw : Refused t w) (s : SentStream) : Refused (t.chunkSent rules h s) w := by
  unfold ChunkPeer.chunkSent
  dsimp only
  split
  · exact (hw.streams _).complete _
  · exact hw.streams _

theorem Refused.step (hw : Refused t w) (e : ChunkEvent) : Refused (t.step rules h e) w := by
  unfold ChunkPeer.step
  split
  · exact hw.sent _
  · split
    · exact hw
    · exact hw.sent _

theorem Refused.steps (events : List ChunkEvent) : ∀ {t : ChunkPeer σ}, Refused t w →
    Refused (events.foldl (ChunkPeer.step rules h) t) w := by
  induction events with
  | nil => exact fun hw => hw
  | cons e es ih => exact fun hw => ih (hw.step e)

theorem readChunkStream_nil {r : RtmpReader} {size : Nat} (hidle : r.fmtReady = false) (hbuf : r.buf = []) :
    r.readChunkStream size = (r, false) := by
  unfold RtmpReader.readChunkStream RtmpReader.readFmtCsid
  rw [hbuf]
  simp [hidle]

theorem Tracks.receive : ∀ (events : List ChunkEvent) (t : ChunkPeer σ) (w : RtmpInput σ) (k : Nat),
    Tracks t w (encode rules h t events) → StepsOk (step rules h) Compliant t events → StepsOk (step rules h) (ReadOk rules h) t events →
    w.reader.weight < k →
    Tracks (events.foldl (step rules h) t) (w.receiveLoop h k) [] ∨ Refused (events.foldl (step rules h) t) (w.receiveLoop h k)
  | _, _, _, 0, _, _, _, hk => absurd hk (Nat.not_lt_zero _)
  | [], t, w, k + 1, hw, _, _, _ => by
    rw [RtmpInput.receiveLoop, if_neg (by simp [hw.opened]), readChunkStream_nil hw.idle hw.buf]
    exact .inl hw
  | e :: es, t, w, k + 1, hw, hcompliant, hok, hk => by
    rw [encode] at hw
    obtain ⟨r, hread, hbuf, hnext⟩ := hw.chunk hcompliant.1 hok.1
    have hlt := RtmpReader.readChunkStream_lt hread
    have hle := RtmpInput.chunkRead_weight (h := h) w r
    rw [RtmpInput.receiveLoop, if_neg (by simp [hw.opened]), hread]
    rcases hnext with hnext | hrefused
    · exact Tracks.receive es _ _ k hnext hcompliant.2 hok.2 (by omega)
    · dsimp only
      rw [RtmpInput.receiveLoop_closed _ hrefused.closed]
      exact .inr (hrefused.steps es)

/-! ## The cuts -/

theorem Tracks.push {buf : List Byte} (hw : Tracks t w buf) (x : List Byte) : Tracks t (w.push x) (buf ++ x) := by
  refine ⟨hw.opened, hw.reader, hw.handled, hw.idle, ?_, hw.named, hw.held, hw.new, hw.apart⟩
  unfold RtmpInput.push RtmpReader.push
  rw [hw.buf]

theorem Tracks.part {p z : List Byte} (hw : Tracks t w p) (hcompliant : Compliant t e) (hok : ReadOk rules h t e)
    (hpart : headOf e ++ t.tailOf rules e = p ++ z) (hz : z ≠ []) : (w.reader.readChunkStream (h.size w.state)).2 = false := by
  have hall := hw.push z
  rw [← hpart, ← append_nil (headOf e ++ t.tailOf rules e)] at hall
  obtain ⟨r, hread, hbuf, -⟩ := hall.chunk hcompliant hok
  cases hp : w.reader.readChunkStream (h.size w.state) with
  | mk r' ok =>
    cases ok with
    | false => rfl
    | true =>
      have happ : (w.push z).reader.readChunkStream (h.size (w.push z).state) = (r'.push z, true) :=
        RtmpReader.readChunkStream_append z hp
      have hsame := (Prod.mk.inj (hread.symm.trans happ)).1
      rw [hsame] at hbuf
      exact absurd (List.append_eq_nil_iff.1 hbuf).2 hz

theorem basic_whole {p z : List Byte} (hw : Tracks t w p) (hcompliant : Compliant t e) (hp : p = headOf e ++ z) :
    w.reader.BasicWhole := by
  refine .inr (.inr ?_)
  cases e with
  | start fmt wide m =>
    obtain ⟨-, hfmt, hlo, hhi, -⟩ := hcompliant
    rw [RtmpReader.readFmtCsid_basic hfmt hlo hhi (hw.buf.trans hp)]
  | more csid wide =>
    obtain ⟨-, hlo, hhi, -⟩ := hcompliant
    rw [RtmpReader.readFmtCsid_basic (Nat.le_refl 3) hlo hhi (hw.buf.trans hp)]

theorem Tracks.cutOk : ∀ (events : List ChunkEvent) (t : ChunkPeer σ) (w : RtmpInput σ) (k : Nat) (p z : List Byte),
    Tracks t w p → encode rules h t events = p ++ z → endsInside rules h t events p.length = false → StepsOk (step rules h) Compliant t events →
    StepsOk (step rules h) (ReadOk rules h) t events → w.CutOk h k
  | _, _, _, 0, _, _, _, _, _, _, _ => trivial
  | [], t, w, k + 1, p, z, hw, hbytes, _, _, _ => by
    obtain rfl := (List.append_eq_nil_iff.1 hbytes.symm).1
    rw [RtmpInput.CutOk, readChunkStream_nil hw.idle hw.buf]
    exact .inr (.inr (.inl hw.buf))
  | e :: es, t, w, k + 1, p, z, hw, hbytes, hcut, hcompliant, hok => by
    rw [encode] at hbytes
    rw [endsInside] at hcut
    rw [RtmpInput.CutOk]
    refine .inr ?_
    split at hcut
    · rename_i hshort
      -- the chunk is not whole, its basic header is, or nothing is there
      obtain ⟨z', hz', -⟩ := (List.append_eq_append_iff.1 hbytes).resolve_left fun ⟨a, ha, _⟩ => by
        rw [ha, @List.length_append _ (headOf e ++ t.tailOf rules e)] at hshort
        omega
      have hne : z' ≠ [] := by
        rintro rfl
        rw [hz', append_nil] at hshort
        exact Nat.lt_irrefl _ hshort
      have hread := hw.part hcompliant.1 hok.1 hz' hne
      have hwhole : w.reader.BasicWhole := by
        by_cases hnil : p = []
        · exact .inr (.inl (hw.buf.trans hnil))
        · have hlen : 0 < p.length := List.length_pos_iff.2 hnil
          have hle : (headOf e).length ≤ p.length := by
            simp only [decide_eq_true hlen, Bool.true_and, decide_eq_false_iff_not] at hcut
            omega
          refine basic_whole (z := p.drop (headOf e).length) hw hcompliant.1 ?_
          have hhead : p.take (headOf e).length = headOf e := by
            have htake := congrArg (List.take (headOf e).length) hz'
            rw [take_left, take_append_of_le_length hle] at htake
            exact htake.symm
          calc p = p.take (headOf e).length ++ p.drop (headOf e).length := (take_append_drop _ _).symm
            _ = headOf e ++ p.drop (headOf e).length := by rw [hhead]
      cases hr : w.reader.readChunkStream (h.size w.state) with
      | mk r ok =>
        rw [hr] at hread
        obtain rfl : ok = false := hread
        exact hwhole
    · rename_i hlong
      obtain ⟨p', hp'⟩ : ∃ p', p = headOf e ++ t.tailOf rules e ++ p' := by
        rcases List.append_eq_append_iff.1 hbytes with ⟨a, ha, -⟩ | ⟨a, ha, -⟩
        · exact ⟨a, ha⟩
        · rw [ha, @List.length_append _ p] at hlong
          have hnil : a = [] := List.length_eq_zero_iff.1 (by omega)
          refine ⟨[], ?_⟩
          rw [ha, hnil]
          simp
      subst hp'
      obtain ⟨r, hread, -, hnext⟩ := hw.chunk hcompliant.1 hok.1
      rw [hread]
      dsimp only
      rcases hnext with hnext | hrefused
      · refine Tracks.cutOk es _ _ k p' z hnext ?_ ?_ hcompliant.2 hok.2
        · rw [append_assoc (headOf e ++ t.tailOf rules e)] at hbytes
          exact append_cancel_left hbytes
        · rw [length_append, Nat.add_sub_cancel_left] at hcut
          exact hcut
      · cases k with
        | zero => trivial
        | succ k => exact .inl hrefused.closed

theorem onRead_pieces (w : RtmpInput σ) (hnil : w.onRead h [] = w) (pieces : List (List Byte)) (hcut : ∀ k < pieces.length, ∀ n,
    (w.push (pieces.take k).flatten).CutOk h n) : pieces.foldl (RtmpInput.onRead h) w = w.onRead h pieces.flatten := by
  induction pieces using reverseRecOn with
  | nil => exact hnil.symm
  | append_singleton pieces x ih =>
    have hfirst : pieces.foldl (RtmpInput.onRead h) w = w.onRead h pieces.flatten := by
      refine ih fun k hk n => ?_
      have hlast := hcut k (by simp; omega) n
      rw [take_append_of_le_length (by omega)] at hlast
      exact hlast
    have hlast := hcut pieces.length (by simp)
    rw [take_left] at hlast
    rw [foldl_append, hfirst, flatten_append]
    simp only [foldl_cons, foldl_nil, flatten_cons, flatten_nil, append_nil]
    exact RtmpInput.onRead_onRead _ x fun _ => hlast _

def fresh (p : σ) (size : Nat) : ChunkPeer σ := { size, reader := some p }

theorem tracks_fresh (p : σ) (size : Nat) : Tracks (fresh p size) { reader := {}, state := p } [] := by
  have hnone : ∀ csid s, OrdMap.find (fresh p size).streams csid ≠ some s := fun _ _ hs => by cases hs
  exact ⟨rfl, rfl, rfl, rfl, rfl, fun _ _ hs => absurd hs (hnone _ _), fun _ _ hs => absurd hs (hnone _ _), fun _ _ => rfl,
    fun _ _ _ _ hs => absurd hs (hnone _ _)⟩

theorem handled_sent (rules : ChunkRules) (h : RtmpHandler σ) (p : σ) (size : Nat) (events : List ChunkEvent) (pieces : List (List Byte))
    (hcompliant : StepsOk (step rules h) Compliant (fresh p size) events) (hok : StepsOk (step rules h) (ReadOk rules h) (fresh p size) events)
    (hcuts : CutsOk rules h (fresh p size) events pieces) (hbytes : pieces.flatten = encode rules h (fresh p size) events) :
    Tracks (events.foldl (step rules h) (fresh p size)) (pieces.foldl (RtmpInput.onRead h) { reader := {}, state := p }) [] ∨
      Refused (events.foldl (step rules h) (fresh p size)) (pieces.foldl (RtmpInput.onRead h) { reader := {}, state := p }) := by
  have hfresh := tracks_fresh p size
  have hread : ({ reader := {}, state := p } : RtmpInput σ).onRead h pieces.flatten =
      RtmpInput.receiveChunkStream h (({ reader := {}, state := p } : RtmpInput σ).push pieces.flatten) := rfl
  rw [onRead_pieces _ rfl pieces, hread, RtmpInput.receive_eq]
  · refine Tracks.receive events _ _ _ ?_ hcompliant hok (Nat.lt_succ_self _)
    rw [← hbytes]
    exact hfresh.push pieces.flatten
  · intro k hk n
    refine Tracks.cutOk events _ _ n (pieces.take k).flatten (pieces.drop k).flatten (hfresh.push _) ?_ (hcuts k (by omega))
      hcompliant hok
    rw [← hbytes, ← flatten_append, take_append_drop]

end ChunkPeer
end MoqLiveCast
