import Mathlib.Data.List.Induction
import Mathlib.Data.List.Nodup
import MoqLiveCast.Lib.Run
import MoqLiveCast.Media.StreamSteps
/-!
# PlayerView — what a player gets of a stream

A player whose init flag is not set is given the cache, when it comes or with the packet after, and each packet from
there on (`player_sees_once`).
-/
namespace MoqLiveCast

open List

open StreamKey

def never : Nat → MediaPacket → Bool := fun _ _ => false

inductive PlayOp where
  | addPlayer (w : Nat)
  | removePlayer (w : Nat)
  | packet (p : MediaPacket)

structure PlayedKey where
  key : StreamKey
  sent : List MediaPacket := []

/-! ## The cache, by what was sent -/

def fromLast {α : Type} (q : α → Bool) : List α → List α
  | [] => []
  | a :: as => if as.any q then fromLast q as else a :: as

def opensGop (p : MediaPacket) : Bool := p.avType = .video && p.isKeyFrame

def mediaOf (sent : List MediaPacket) : List MediaPacket := sent.filter fun p => !p.isSeqHdr

def gopOf (sent : List MediaPacket) : List MediaPacket := fromLast opensGop (mediaOf sent)

def hdrOf (t : MediaType) (sent : List MediaPacket) : Option MediaPacket :=
  (sent.filter fun p => p.isSeqHdr && p.avType = t).getLast?

def cachedOf (sent : List MediaPacket) : List MediaPacket :=
  (((hdrOf .video sent).toList ++ (hdrOf .audio sent).toList).filter fun p => p.body ≠ []) ++ gopOf sent

def keeps (p : MediaPacket) : Bool := !p.isSeqHdr || p.avType = .audio || p.avType = .video

def shown (p : MediaPacket) : Bool := !p.isSeqHdr || ((p.avType = .audio || p.avType = .video) && p.body ≠ [])

/-- **What a player sees** that comes after `sent` and stays for `later`: the headers, the group of pictures, and all that is
later.  If there was nothing in the cache, the first packet comes out of it. -/
def seen (sent later : List MediaPacket) : List MediaPacket :=
  if sent.any keeps then cachedOf sent ++ later
  else
    match later with
    | [] => []
    | p :: ps => (if shown p then [p] else []) ++ ps

namespace PlayedKey

section

variable (writerId : Nat → Name)

def step (o : PlayedKey) : PlayOp → PlayedKey
  | .addPlayer w => { o with key := o.key.addPlayer writerId never w }
  | .removePlayer w => { o with key := o.key.removePlayer writerId w }
  | .packet p => ⟨o.key.writerMediaPacket writerId never p, o.sent ++ [(o.key.published.normalizeDts p).2]⟩

def run (o : PlayedKey) (ops : List PlayOp) : PlayedKey := ops.foldl (step writerId) o

end

def receivedBy (s : StreamKey) (w : Nat) : List MediaPacket := (s.received.filter fun r => r.1 = w).map (·.2)

def Plays (s : StreamKey) (w : Nat) : Prop := ∃ st, s.stream = some st ∧ w ∈ st.writers

/-- The call does not make the writer leave: it is not removed, and no other one is added under its id. -/
def Stays (writerId : Nat → Name) (w : Nat) : PlayOp → Prop
  | .addPlayer w' => writerId w' = writerId w → w' = w
  | .removePlayer w' => w' ≠ w
  | .packet _ => True

end PlayedKey

/-! ## The cache -/

theorem fromLast_of_none {α : Type} {q : α → Bool} : ∀ {l : List α}, l.any q = false → fromLast q l = l
  | [], _ => rfl
  | a :: as, h => by
    simp only [any_cons, Bool.or_eq_false_iff] at h
    rw [fromLast, h.2]
    rfl

theorem fromLast_append {α : Type} (q : α → Bool) (a : α) : ∀ l : List α,
    fromLast q (l ++ [a]) = if q a then [a] else fromLast q l ++ [a]
  | [] => by simp [fromLast]
  | b :: l => by
    rw [cons_append, fromLast, fromLast, any_append, any_cons, any_nil, Bool.or_false,
      fromLast_append q a l]
    by_cases ha : q a = true
    · simp [ha]
    · by_cases hl : l.any q = true <;> simp [ha, hl]

theorem fromLast_suffix {α : Type} (q : α → Bool) : ∀ l : List α, fromLast q l <:+ l
  | [] => suffix_rfl
  | a :: l => by
    rw [fromLast]
    split
    · exact (fromLast_suffix q l).trans (suffix_cons a l)
    · exact suffix_rfl

def cacheOf (sent : List MediaPacket) : GopCache := sent.foldl GopCache.input {}

theorem cacheOf_append (sent : List MediaPacket) (p : MediaPacket) : cacheOf (sent ++ [p]) = (cacheOf sent).input p := by
  unfold cacheOf
  rw [foldl_append, foldl_cons, foldl_nil]

theorem hdrOf_append (t : MediaType) (sent : List MediaPacket) (p : MediaPacket) :
    hdrOf t (sent ++ [p]) = if p.isSeqHdr = true ∧ p.avType = t then some p else hdrOf t sent := by
  unfold hdrOf
  rw [filter_append]
  by_cases h : p.isSeqHdr = true ∧ p.avType = t
  · simp [h.1, h.2]
  · rw [if_neg h]
    have hfilter : [p].filter (fun p => p.isSeqHdr && decide (p.avType = t)) = [] := by
      rw [filter_eq_nil_iff]
      simpa using h
    rw [hfilter, append_nil]

theorem gopOf_append (sent : List MediaPacket) (p : MediaPacket) : gopOf (sent ++ [p]) =
    if p.isSeqHdr = true then gopOf sent else if opensGop p then [p] else gopOf sent ++ [p] := by
  unfold gopOf mediaOf
  rw [filter_append]
  by_cases h : p.isSeqHdr = true
  · simp [h]
  · have hfilter : [p].filter (fun p => !p.isSeqHdr) = [p] := by simp [h]
    rw [hfilter, fromLast_append, if_neg h]

theorem cacheOf_eq (sent : List MediaPacket) :
    cacheOf sent = { audioHdr := hdrOf .audio sent, videoHdr := hdrOf .video sent, packets := gopOf sent } := by
  induction sent using reverseRecOn with
  | nil => rfl
  | append_singleton sent p ih =>
    rw [cacheOf_append, ih, hdrOf_append, hdrOf_append, gopOf_append]
    unfold GopCache.input opensGop
    cases hhdr : p.isSeqHdr <;> cases htype : p.avType <;> simp
    · cases p.isKeyFrame <;> simp

theorem replay_cacheOf (sent : List MediaPacket) : (cacheOf sent).replay = cachedOf sent := by
  rw [cacheOf_eq]
  rfl

theorem hasMedia_cacheOf (sent : List MediaPacket) : (cacheOf sent).hasMedia = sent.any keeps := by
  induction sent using reverseRecOn with
  | nil => rfl
  | append_singleton sent p ih =>
    rw [cacheOf_append, any_append, ← ih]
    unfold GopCache.input GopCache.hasMedia keeps
    cases hhdr : p.isSeqHdr <;> cases htype : p.avType <;> simp [hhdr, htype]

theorem cachedOf_first {sent : List MediaPacket} (h : sent.any keeps = false) (p : MediaPacket) :
    cachedOf (sent ++ [p]) = if shown p then [p] else [] := by
  have hempty : cacheOf sent = {} := by
    rw [← hasMedia_cacheOf] at h
    cases hc : cacheOf sent with
    | mk a v ps =>
      rw [hc] at h
      simp only [GopCache.hasMedia, Bool.or_eq_false_iff, Option.isSome_eq_false_iff, Option.isNone_iff_eq_none,
        ne_eq, decide_not, Bool.not_eq_false', decide_eq_true_eq] at h
      rw [h.1.1, h.1.2, h.2]
  rw [← replay_cacheOf, cacheOf_append, hempty]
  unfold GopCache.input GopCache.replay shown
  cases hhdr : p.isSeqHdr <;> cases htype : p.avType <;> simp [filter_cons]

namespace PlayedKey

/-! ## One writer's share -/

theorem writeAll_never (w : Nat) : ∀ ps : List MediaPacket, writeAll (never w) ps = (ps, true)
  | [] => rfl
  | p :: ps => by
    rw [writeAll, writeAll_never w ps]
    rfl

theorem replayTo_never (s : StreamKey) (cache : GopCache) (w : Nat) : s.replayTo never cache w =
    ({ s with inited := w :: s.inited, received := s.received ++ cache.replay.map (w, ·) }, true) := by
  unfold replayTo
  rw [writeAll_never]

theorem receivedBy_append {s s' : StreamKey} {w' : Nat} {ps : List MediaPacket}
    (h : s'.received = s.received ++ ps.map (w', ·)) (w : Nat) :
    receivedBy s' w = receivedBy s w ++ if w' = w then ps else [] := by
  unfold receivedBy
  rw [h, filter_append, map_append]
  congr 1
  split
  · rename_i hw
    rw [List.filter_eq_self.2 (by simp [hw]), map_map]
    exact map_id ps
  · rename_i hw
    rw [List.filter_eq_nil_iff.2 (by simp [hw])]
    rfl

theorem receivedBy_of_eq {s s' : StreamKey} (h : s'.received = s.received) (w : Nat) : receivedBy s' w = receivedBy s w := by
  unfold receivedBy
  rw [h]

theorem fanOut_never (cache : GopCache) (p : MediaPacket) (r : StreamKey × List Nat) (w' : Nat) :
    (fanOut never cache p r w').2 = r.2 ∧ (∀ w, w ∈ (fanOut never cache p r w').1.inited ↔ w = w' ∨ w ∈ r.1.inited) ∧
      ∀ w, receivedBy (fanOut never cache p r w').1 w =
        receivedBy r.1 w ++ if w' = w then (if w ∈ r.1.inited then [p] else cache.replay) else [] := by
  unfold fanOut
  by_cases hin : w' ∈ r.1.inited
  · rw [if_neg (not_not.2 hin)]
    refine ⟨rfl, fun w => ?_, fun w => ?_⟩
    · constructor
      · exact .inr
      · rintro (rfl | h)
        · exact hin
        · exact h
    · refine (@receivedBy_append _ _ _ [p] rfl w).trans ?_
      split
      · rename_i h
        rw [if_pos (h ▸ hin)]
      · rfl
  · rw [if_pos hin, replayTo_never]
    refine ⟨rfl, fun w => mem_cons, fun w => ?_⟩
    refine (receivedBy_append rfl w).trans ?_
    split
    · rename_i h
      rw [if_neg (h ▸ hin)]
    · rfl

theorem fanOuts_never (cache : GopCache) (p : MediaPacket) : ∀ (ws : List Nat) (r : StreamKey × List Nat), ws.Nodup →
    (ws.foldl (fanOut never cache p) r).2 = r.2 ∧
      (∀ w, w ∈ (ws.foldl (fanOut never cache p) r).1.inited ↔ w ∈ ws ∨ w ∈ r.1.inited) ∧
      ∀ w, receivedBy (ws.foldl (fanOut never cache p) r).1 w =
        receivedBy r.1 w ++ if w ∈ ws then (if w ∈ r.1.inited then [p] else cache.replay) else []
  | [], r, _ => ⟨rfl, fun w => by simp, fun w => by simp⟩
  | w' :: ws, r, hnodup => by
    obtain ⟨hnot, hnodup⟩ := List.nodup_cons.1 hnodup
    obtain ⟨hfail, hinit, hrec⟩ := fanOut_never cache p r w'
    obtain ⟨hfails, hinits, hrecs⟩ := fanOuts_never cache p ws (fanOut never cache p r w') hnodup
    refine ⟨hfails.trans hfail, fun w => ?_, fun w => ?_⟩
    · rw [foldl_cons, hinits, hinit, mem_cons]
      tauto
    · rw [foldl_cons, hrecs, hrec, append_assoc]
      congr 1
      by_cases hw : w' = w
      · subst hw
        simp [hnot]
      · have hw' : w ≠ w' := fun h => hw h.symm
        simp [hw, hw', hinit, mem_cons]

/-- The cache is of what was sent, each player is there once, and one who sends keeps the entry. -/
structure PlayedWell (writerId : Nat → Name) (o : PlayedKey) : Prop where
  cache : ∀ st, o.key.stream = some st → st.cache = cacheOf o.sent
  ids : ∀ st, o.key.stream = some st → (st.writers.map writerId).Nodup
  sender : ∀ st, o.key.stream = some st → o.sent ≠ [] → st.publisherExist = true
  gone : o.key.stream = none → o.sent = []

variable {writerId : Nat → Name} {o : PlayedKey}

theorem PlayedWell.published (h : PlayedWell writerId o) : o.key.published.cache = cacheOf o.sent ∧
    (o.key.published.writers.map writerId).Nodup ∧ ∀ w, w ∈ o.key.published.writers ↔ Plays o.key w := by
  unfold StreamKey.published Plays
  cases hst : o.key.stream with
  | none =>
    rw [h.gone hst]
    exact ⟨rfl, nodup_nil, fun w => by simp⟩
  | some st => exact ⟨h.cache st hst, h.ids st hst, fun w => by simp⟩

theorem fed_cache (st : MediaStream) (p : MediaPacket) : (fed st p).1.cache = st.cache.input (st.normalizeDts p).2 := by
  have hshift : (st.shifted p).cache = st.cache := by
    unfold MediaStream.shifted
    dsimp only
    split
    · rfl
    · split <;> rfl
  have hnorm : (st.normalizeDts p).1.cache = st.cache := by
    unfold MediaStream.normalizeDts
    dsimp only
    split
    · exact hshift
    · unfold MediaStream.setLastIn
      dsimp only
      split <;> exact hshift
  unfold fed
  dsimp only
  rw [hnorm]

def output (o : PlayedKey) (p : MediaPacket) : MediaPacket := (o.key.published.normalizeDts p).2

theorem addPublisher_received (s : StreamKey) : s.addPublisher.received = s.received ∧ s.addPublisher.inited = s.inited := by
  unfold addPublisher notify
  split
  · split <;> exact ⟨rfl, rfl⟩
  · exact ⟨rfl, rfl⟩

theorem PlayedWell.packet (h : PlayedWell writerId o) (p : MediaPacket) :
    PlayedWell writerId (o.step writerId (.packet p)) ∧ (∀ w, Plays (o.step writerId (.packet p)).key w ↔ Plays o.key w) ∧
      (∀ w, Plays o.key w → w ∈ (o.step writerId (.packet p)).key.inited ∧ receivedBy (o.step writerId (.packet p)).key w =
        receivedBy o.key w ++ if w ∈ o.key.inited then [o.output p] else cachedOf (o.sent ++ [o.output p])) ∧
      ∀ w, ¬Plays o.key w → receivedBy (o.step writerId (.packet p)).key w = receivedBy o.key w := by
  obtain ⟨hcache, hids, hplays⟩ := h.published
  have hfed := fed_keeps o.key.published p
  have hafter : (fed o.key.published p).1.cache = cacheOf (o.sent ++ [o.output p]) := by
    rw [fed_cache, hcache, cacheOf_append]
    rfl
  obtain ⟨hfails, hinits, hrecs⟩ := fanOuts_never (fed o.key.published p).1.cache (fed o.key.published p).2
    (fed o.key.published p).1.writers (o.key.addPublisher.entered (fed o.key.published p).1, [])
    (by rw [hfed.2.2.1]; exact List.Nodup.of_map writerId hids)
  have hstream := (fanOuts_players never (fed o.key.published p).1.cache (fed o.key.published p).2
    (fed o.key.published p).1.writers (o.key.addPublisher.entered (fed o.key.published p).1, [])).2
  have hkey : (o.step writerId (.packet p)).key = (o.key.fannedOut never p).1 := by
    change o.key.writerMediaPacket writerId never p = _
    rw [writerMediaPacket_eq]
    have hnil : (o.key.fannedOut never p).2 = [] := hfails
    rw [hnil]
    rfl
  have hentry : (o.step writerId (.packet p)).key.stream = some (fed o.key.published p).1 := by
    rw [hkey]
    exact hstream
  have hmem : ∀ w, w ∈ (fed o.key.published p).1.writers ↔ Plays o.key w := by
    intro w
    rw [hfed.2.2.1]
    exact hplays w
  obtain ⟨hreceived, hinited⟩ := addPublisher_received o.key
  refine ⟨⟨fun st hst => ?_, fun st hst => ?_, fun st hst _ => ?_, fun hnone => ?_⟩, fun w => ?_, fun w hw => ⟨?_, ?_⟩,
    fun w hw => ?_⟩
  · rw [hentry] at hst
    rw [← Option.some.inj hst]
    exact hafter
  · rw [hentry] at hst
    rw [← Option.some.inj hst, hfed.2.2.1]
    exact hids
  · rw [hentry] at hst
    rw [← Option.some.inj hst]
    exact hfed.1.trans o.key.published_exist
  · rw [hentry] at hnone
    cases hnone
  · rw [← hmem w]
    unfold Plays
    rw [hentry]
    simp
  · rw [hkey]
    exact (hinits w).2 (.inl ((hmem w).2 hw))
  · rw [hkey]
    refine (hrecs w).trans ?_
    rw [if_pos ((hmem w).2 hw), hafter, replay_cacheOf]
    simp only [entered, hinited, receivedBy, hreceived]
    rfl
  · rw [hkey]
    refine (hrecs w).trans ?_
    rw [if_neg fun hm => hw ((hmem w).1 hm), append_nil]
    exact receivedBy_of_eq hreceived w

theorem PlayedWell.put (h : PlayedWell writerId o) {k : StreamKey}
    (hk : (k.stream = none ∧ o.sent = []) ∨ ∃ st ws, k.stream = some { st with writers := ws } ∧ (ws.map writerId).Nodup ∧
      (o.key.stream = some st ∨ (o.key.stream = none ∧ st = {}))) : PlayedWell writerId { o with key := k } := by
  rcases hk with ⟨hnone, hsent⟩ | ⟨st, ws, heq, hnodup, hst⟩
  · refine ⟨fun st' hst' => ?_, fun st' hst' => ?_, fun st' hst' => ?_, fun _ => hsent⟩
    all_goals
      dsimp only at hst'
      rw [hnone] at hst'
      cases hst'
  · refine ⟨fun st' hst' => ?_, fun st' hst' => ?_, fun st' hst' hne => ?_, fun hnone => ?_⟩
    · dsimp only at hst'
      rw [heq] at hst'
      rw [← Option.some.inj hst']
      rcases hst with hst | ⟨hnone, rfl⟩
      · exact h.cache st hst
      · rw [h.gone hnone]
        rfl
    · dsimp only at hst'
      rw [heq] at hst'
      rw [← Option.some.inj hst']
      exact hnodup
    · dsimp only at hst'
      rw [heq] at hst'
      rw [← Option.some.inj hst']
      rcases hst with hst | ⟨hnone, rfl⟩
      · exact h.sender st hst hne
      · exact absurd (h.gone hnone) hne
    · dsimp only at hnone
      rw [heq] at hnone
      cases hnone

theorem mem_putWriter {ws : List Nat} {w w' : Nat} :
    w' ∈ putWriter writerId ws w ↔ w' = w ∨ (w' ∈ ws ∧ writerId w' ≠ writerId w) := by
  unfold putWriter
  simp [or_comm]

theorem putWriter_nodup {ws : List Nat} (h : (ws.map writerId).Nodup) (w : Nat) :
    ((putWriter writerId ws w).map writerId).Nodup := by
  unfold putWriter
  rw [map_append, map_singleton]
  refine List.nodup_append.2 ⟨(List.filter_sublist.map writerId).nodup h, nodup_singleton _, fun i hi j hj heq => ?_⟩
  obtain ⟨w', hw', rfl⟩ := List.mem_map.1 hi
  rw [List.mem_singleton.1 hj] at heq
  simp [heq] at hw'

theorem PlayedWell.addPlayer (h : PlayedWell writerId o) (w' : Nat) :
    PlayedWell writerId (o.step writerId (.addPlayer w')) ∧
      (∀ w, Plays (o.step writerId (.addPlayer w')).key w ↔ w = w' ∨ (Plays o.key w ∧ writerId w ≠ writerId w')) ∧
      (∀ w, w ∈ (o.step writerId (.addPlayer w')).key.inited ↔ w ∈ o.key.inited ∨ (w = w' ∧ o.sent.any keeps = true)) ∧
      ∀ w, receivedBy (o.step writerId (.addPlayer w')).key w = receivedBy o.key w ++
        if w = w' ∧ w ∉ o.key.inited ∧ o.sent.any keeps = true then cachedOf o.sent else [] := by
  have hkey : (o.step writerId (.addPlayer w')).key = o.key.addPlayer writerId never w' := rfl
  cases hst : o.key.stream with
  | none =>
    have hsent := h.gone hst
    have hadd : (o.step writerId (.addPlayer w')).key = o.key.entered { writers := [w'] } := by
      rw [hkey]
      unfold StreamKey.addPlayer
      simp only [hst]
    refine ⟨h.put (.inr ⟨{}, [w'], ?_, nodup_singleton _, .inr ⟨hst, rfl⟩⟩), fun w => ?_, fun w => ?_, fun w => ?_⟩
    · exact congrArg StreamKey.stream hadd
    · unfold Plays
      rw [hadd]
      simp [hst]
    · rw [hadd]
      simp [entered, hsent]
    · rw [hadd]
      simp [entered, hsent, receivedBy]
  | some st =>
    have hmedia : st.cache.hasMedia = o.sent.any keeps := by
      rw [h.cache st hst, hasMedia_cacheOf]
    have hput : ∀ k : StreamKey, k.stream = some { st with writers := putWriter writerId st.writers w' } →
        PlayedWell writerId { o with key := k } ∧
          ∀ w, Plays k w ↔ w = w' ∨ (Plays o.key w ∧ writerId w ≠ writerId w') := by
      intro k hk
      refine ⟨h.put (.inr ⟨st, _, hk, putWriter_nodup (h.ids st hst) w', .inl hst⟩), fun w => ?_⟩
      unfold Plays
      rw [hk, hst]
      simp [mem_putWriter]
    by_cases hreplay : st.cache.hasMedia = true ∧ w' ∉ o.key.inited
    · have hadd : (o.step writerId (.addPlayer w')).key =
          { o.key.entered { st with writers := putWriter writerId st.writers w' } with
            inited := w' :: o.key.inited, received := o.key.received ++ st.cache.replay.map (w', ·) } := by
        rw [hkey]
        unfold StreamKey.addPlayer
        simp only [hst, entered_inited, hreplay.1, hreplay.2, not_false_eq_true, and_self, if_true, replayTo_never]
        rfl
      obtain ⟨hwell, hplays⟩ := hput _ (congrArg StreamKey.stream hadd)
      refine ⟨hwell, hplays, fun w => ?_, fun w => ?_⟩
      · rw [hadd, ← hmedia, hreplay.1]
        simp [or_comm]
      · rw [hadd]
        refine (receivedBy_append (s := o.key) rfl w).trans ?_
        rw [← hmedia, hreplay.1, h.cache st hst, replay_cacheOf]
        by_cases hw : w' = w
        · subst hw
          simp [hreplay.2]
        · have hw' : w ≠ w' := fun heq => hw heq.symm
          simp [hw, hw']
    · have hadd : (o.step writerId (.addPlayer w')).key = o.key.entered { st with writers := putWriter writerId st.writers w' } := by
        rw [hkey]
        unfold StreamKey.addPlayer
        simp only [hst, entered_inited, hreplay, if_false]
      obtain ⟨hwell, hplays⟩ := hput _ (congrArg StreamKey.stream hadd)
      rw [hmedia] at hreplay
      refine ⟨hwell, hplays, fun w => ?_, fun w => ?_⟩
      · rw [hadd]
        refine ⟨.inl, fun hw => hw.elim id fun hw => ?_⟩
        rw [hw.1]
        exact by_contra fun hnot => hreplay ⟨hw.2, hnot⟩
      · rw [hadd, if_neg, append_nil]
        · rfl
        · rintro ⟨rfl, hnot, hany⟩
          exact hreplay ⟨hany, hnot⟩

theorem PlayedWell.removePlayer (h : PlayedWell writerId o) (w' : Nat) : PlayedWell writerId (o.step writerId (.removePlayer w'))
    ∧ (∀ w, Plays (o.step writerId (.removePlayer w')).key w ↔ Plays o.key w ∧ w ≠ w') ∧ (o.step writerId (.removePlayer
    w')).key.inited = o.key.inited ∧ (o.step writerId (.removePlayer w')).key.received = o.key.received := by
  have hkey : (o.step writerId (.removePlayer w')).key = o.key.removePlayer writerId w' := rfl
  cases hst : o.key.stream with
  | none =>
    have hrem : (o.step writerId (.removePlayer w')).key = o.key := by
      rw [hkey]
      unfold StreamKey.removePlayer
      simp only [hst]
    refine ⟨h.put (.inl ⟨(congrArg StreamKey.stream hrem).trans hst, h.gone hst⟩), fun w => ?_, by rw [hrem], by rw [hrem]⟩
    unfold Plays
    rw [hrem, hst]
    simp
  | some st =>
    have hreap : ∀ ws, (ws.map writerId).Nodup → (∀ w, w ∈ ws ↔ w ∈ st.writers ∧ w ≠ w') →
        (o.step writerId (.removePlayer w')).key = o.key.reap { st with writers := ws } →
        PlayedWell writerId (o.step writerId (.removePlayer w')) ∧
          (∀ w, Plays (o.step writerId (.removePlayer w')).key w ↔ Plays o.key w ∧ w ≠ w') ∧
          (o.step writerId (.removePlayer w')).key.inited = o.key.inited ∧
          (o.step writerId (.removePlayer w')).key.received = o.key.received := by
      intro ws hnodup hws heq
      rw [heq]
      unfold reap
      split
      · rename_i hr
        have hsent : o.sent = [] := by
          by_contra hne
          have hexist := h.sender st hst hne
          rw [hr.2] at hexist
          cases hexist
        refine ⟨h.put (.inl ⟨(congrArg StreamKey.stream heq).trans ?_, hsent⟩), fun w => ?_, rfl, rfl⟩
        · unfold reap
          rw [if_pos hr]
        · have hnil : ws = [] := hr.1
          have hnone := hws w
          rw [hnil] at hnone
          unfold Plays
          simpa [hst] using hnone
      · rename_i hr
        refine ⟨h.put (.inr ⟨st, ws, (congrArg StreamKey.stream heq).trans ?_, hnodup, .inl hst⟩), fun w => ?_, rfl, rfl⟩
        · unfold reap
          rw [if_neg hr]
          rfl
        · unfold Plays
          simp [hst, hws]
    have hnodup := h.ids st hst
    have hinj : ∀ w ∈ st.writers, ∀ w'' ∈ st.writers, writerId w = writerId w'' → w = w'' :=
      inj_on_of_nodup_map hnodup
    cases hfind : st.writers.find? fun w => writerId w = writerId w' with
    | none =>
      rw [List.find?_eq_none] at hfind
      refine hreap st.writers hnodup (fun w => ⟨fun hw => ⟨hw, ?_⟩, And.left⟩) ?_
      · rintro rfl
        simpa using hfind w hw
      · rw [hkey]
        unfold StreamKey.removePlayer
        simp only [hst, List.find?_eq_none.2 hfind]
    | some w'' =>
      have hmem := List.mem_of_find?_eq_some hfind
      have hid : writerId w'' = writerId w' := by simpa using List.find?_some hfind
      by_cases hw'' : w'' = w'
      · refine hreap (st.writers.erase w') ((List.erase_sublist.map writerId).nodup hnodup) (fun w => ?_) ?_
        · rw [(List.Nodup.of_map writerId hnodup).mem_erase_iff, and_comm]
        · rw [hkey]
          unfold StreamKey.removePlayer
          simp only [hst, hfind]
          rw [if_pos hw'']
      · have hrem : (o.step writerId (.removePlayer w')).key = o.key := by
          rw [hkey]
          unfold StreamKey.removePlayer
          simp only [hst, hfind]
          rw [if_neg hw'']
        refine ⟨h.put (.inr ⟨st, st.writers, (congrArg StreamKey.stream hrem).trans hst, hnodup, .inl hst⟩), fun w => ?_,
          by rw [hrem], by rw [hrem]⟩
        unfold Plays
        rw [hrem, hst]
        simp only [Option.some.injEq, exists_eq_left']
        refine ⟨fun hw => ⟨hw, ?_⟩, And.left⟩
        rintro rfl
        exact hw'' (hinj w'' hmem w hw hid)

/-! ## A player's stay -/

/-- **What the player has got** since it came, after `sent`. -/
structure Views (writerId : Nat → Name) (w : Nat) (before sent later : List MediaPacket) (o : PlayedKey) : Prop where
  well : PlayedWell writerId o
  plays : Plays o.key w
  all : o.sent = sent ++ later
  got : receivedBy o.key w = before ++ seen sent later
  inited : w ∈ o.key.inited ↔ sent.any keeps = true ∨ later ≠ []

theorem seen_append {sent later : List MediaPacket} (h : sent.any keeps = true ∨ later ≠ []) (p : MediaPacket) :
    seen sent (later ++ [p]) = seen sent later ++ [p] := by
  unfold seen
  split
  · rw [append_assoc]
  · rename_i hany
    cases later with
    | nil => exact absurd rfl (h.resolve_left hany)
    | cons q ps => simp

theorem Views.step {w : Nat} {before sent later : List MediaPacket} (h : Views writerId w before sent later o) (op : PlayOp)
    (hstays : Stays writerId w op) : ∃ later', Views writerId w before sent later' (o.step writerId op) := by
  cases op with
  | addPlayer w' =>
    obtain ⟨hwell, hplays, hinit, hrec⟩ := h.well.addPlayer w'
    have hkept : o.sent.any keeps = true → w ∈ o.key.inited := by
      intro hany
      rw [h.inited]
      by_cases hlater : later = []
      · rw [h.all, hlater, append_nil] at hany
        exact .inl hany
      · exact .inr hlater
    refine ⟨later, hwell, (hplays w).2 ?_, h.all, ?_, ?_⟩
    · by_cases hw : w = w'
      · exact .inl hw
      · exact .inr ⟨h.plays, fun hid => hw (hstays hid.symm).symm⟩
    · rw [hrec, if_neg fun hr => hr.2.1 (hkept hr.2.2), append_nil]
      exact h.got
    · rw [hinit, ← h.inited]
      exact ⟨fun hi => hi.elim id fun hi => hkept hi.2, .inl⟩
  | removePlayer w' =>
    obtain ⟨hwell, hplays, hinit, hrec⟩ := h.well.removePlayer w'
    have hplays' := (hplays w).2 ⟨h.plays, fun heq => hstays heq.symm⟩
    exact ⟨later, hwell, hplays', h.all, (receivedBy_of_eq hrec w).trans h.got, by rw [hinit]; exact h.inited⟩
  | packet p =>
    obtain ⟨hwell, hplays, hshare, -⟩ := h.well.packet p
    obtain ⟨hinit, hrec⟩ := hshare w h.plays
    refine ⟨later ++ [o.output p], hwell, (hplays w).2 h.plays, ?_, ?_, iff_of_true hinit (.inr (by simp))⟩
    · change o.sent ++ [o.output p] = _
      rw [h.all, append_assoc]
    · rw [hrec, h.got, append_assoc]
      congr 1
      split
      · rename_i hin
        exact (seen_append (h.inited.1 hin) _).symm
      · -- nothing was in the cache when the player came, and this is the first packet since
        rename_i hin
        obtain ⟨hany, hlater⟩ := not_or.1 (mt h.inited.2 hin)
        have hlater := not_not.1 hlater
        have hany : sent.any keeps = false := by simpa using hany
        rw [h.all, hlater, append_nil, cachedOf_first hany]
        simp [seen, hany]

theorem PlayedWell.comes (h : PlayedWell writerId o) {w : Nat} (hw : w ∉ o.key.inited) :
    Views writerId w (receivedBy o.key w) o.sent [] (o.step writerId (.addPlayer w)) := by
  obtain ⟨hwell, hplays, hinit, hrec⟩ := h.addPlayer w
  refine ⟨hwell, (hplays w).2 (.inl rfl), (append_nil _).symm, ?_, ?_⟩
  · rw [hrec]
    by_cases hany : o.sent.any keeps = true
    · simp [hw, hany, seen]
    · simp [hany, seen]
  · rw [hinit]
    simp [hw]

theorem PlayedWell.step (h : PlayedWell writerId o) (op : PlayOp) : PlayedWell writerId (o.step writerId op) := by
  cases op with
  | addPlayer w => exact (h.addPlayer w).1
  | removePlayer w => exact (h.removePlayer w).1
  | packet p => exact (h.packet p).1

theorem PlayedWell.run (h : PlayedWell writerId o) (ops : List PlayOp) : PlayedWell writerId (o.run writerId ops) :=
  foldl_inv _ (fun _ _ => True) (PlayedWell writerId) (fun _ op hw _ => hw.step op) ops o h
    (stepsOk_of_forall _ _ ops o fun _ _ _ => trivial)

theorem step_absent (h : PlayedWell writerId o) {w : Nat} (hw : ¬Plays o.key w) {op : PlayOp} (hop : op ≠ .addPlayer w) :
    ¬Plays (o.step writerId op).key w ∧ receivedBy (o.step writerId op).key w = receivedBy o.key w := by
  cases op with
  | addPlayer w' =>
    obtain ⟨-, hplays, -, hrec⟩ := h.addPlayer w'
    have hne : w ≠ w' := by
      rintro rfl
      exact hop rfl
    refine ⟨fun hp => ?_, ?_⟩
    · rcases (hplays w).1 hp with heq | ⟨hp, -⟩
      · exact hne heq
      · exact hw hp
    · rw [hrec, if_neg fun hr => hne hr.1, append_nil]
  | removePlayer w' =>
    obtain ⟨-, hplays, -, hrec⟩ := h.removePlayer w'
    exact ⟨fun hp => hw ((hplays w).1 hp).1, receivedBy_of_eq hrec w⟩
  | packet p =>
    obtain ⟨-, hplays, -, hrec⟩ := h.packet p
    exact ⟨fun hp => hw ((hplays w).1 hp), hrec w hw⟩

end PlayedKey

open PlayedKey

def unused (key : Name) (inited : List Nat) : PlayedKey := { key := { key := key, inited := inited } }

theorem unused_well (writerId : Nat → Name) (key : Name) (inited : List Nat) : PlayedWell writerId (unused key inited) := by
  refine ⟨fun st hst => ?_, fun st hst => ?_, fun st hst => ?_, fun _ => rfl⟩ <;> cases hst

/-- **A player sees the stream once**: one that comes with its flag not set gets the cache and then every packet, without a
seam, as long as it stays, and one that is not there gets nothing. -/
theorem player_sees_once (writerId : Nat → Name) (key : Name) (inited : List Nat) (pre stay : List PlayOp) (w : Nat)
    (hflag : w ∉ ((unused key inited).run writerId pre).key.inited) (hstay : ∀ op ∈ stay, Stays writerId w op) :
    (∃ later, ((unused key inited).run writerId (pre ++ .addPlayer w :: stay)).sent = ((unused key inited).run writerId pre).sent
    ++ later ∧ receivedBy ((unused key inited).run writerId (pre ++ .addPlayer w :: stay)).key w = receivedBy
    ((unused key inited).run writerId pre).key w ++ seen ((unused key inited).run writerId pre).sent later ∧
    gopOf ((unused key inited).run writerId pre).sent ++ mediaOf later <:+ mediaOf ((unused key inited).run writerId (pre ++
    .addPlayer w :: stay)).sent) ∧ ∀ before away : List PlayOp, ¬Plays ((unused key inited).run writerId before).key w →
    (∀ op ∈ away, op ≠ .addPlayer w) → receivedBy ((unused key inited).run writerId (before ++ away)).key w =
    receivedBy ((unused key inited).run writerId before).key w := by
  have hwell := fun ops => (unused_well writerId key inited).run ops
  have happend : ∀ ops ops', (unused key inited).run writerId (ops ++ ops') =
      ((unused key inited).run writerId ops).run writerId ops' := fun ops ops' => foldl_append
  constructor
  · have hcomes := (hwell pre).comes hflag
    have hviews := foldl_inv (PlayedKey.step writerId) (fun _ op => Stays writerId w op)
      (fun o => ∃ later, Views writerId w (receivedBy ((unused key inited).run writerId pre).key w)
        ((unused key inited).run writerId pre).sent later o)
      (fun o op ⟨_, hv⟩ hs => hv.step op hs) stay _ ⟨[], hcomes⟩ (stepsOk_of_forall _ _ stay _ fun op hop _ => hstay op hop)
    obtain ⟨later, hviews⟩ := hviews
    rw [happend]
    refine ⟨later, hviews.all, hviews.got, ?_⟩
    have hmedia : mediaOf (((unused key inited).run writerId pre).run writerId (.addPlayer w :: stay)).sent =
        mediaOf ((unused key inited).run writerId pre).sent ++ mediaOf later := by
      refine (congrArg mediaOf hviews.all).trans ?_
      unfold mediaOf
      rw [filter_append]
    rw [hmedia]
    obtain ⟨dropped, heq⟩ := fromLast_suffix opensGop (mediaOf ((unused key inited).run writerId pre).sent)
    refine ⟨dropped, ?_⟩
    rw [← append_assoc]
    exact congrArg (· ++ mediaOf later) heq
  · intro before away habsent haway
    rw [happend]
    have habsent' := foldl_inv (PlayedKey.step writerId) (fun _ op => op ≠ .addPlayer w)
      (fun o => PlayedWell writerId o ∧ ¬Plays o.key w ∧
        receivedBy o.key w = receivedBy ((unused key inited).run writerId before).key w)
      (fun o op ⟨hw, hp, hr⟩ hop => ⟨hw.step op, (step_absent hw hp hop).1, (step_absent hw hp hop).2.trans hr⟩)
      away _ ⟨hwell before, habsent, rfl⟩ (stepsOk_of_forall _ _ away _ fun op hop _ => haway op hop)
    exact habsent'.2.2

def videoAt (isKeyFrame : Bool) (dts : Int) : MediaPacket := ⟨.video, false, isKeyFrame, dts, dts, []⟩

theorem player_sees_once_sample : receivedBy ((unused ['k'] []).run (fun _ => []) [.packet (videoAt true 40),
    .packet (videoAt false 80), .addPlayer 0, .packet (videoAt false 120)]).key 0 =
      [videoAt true 40, videoAt false 80, videoAt false 120] := by
  obtain ⟨⟨later, hsent, hgot, -⟩, -⟩ := player_sees_once (fun _ => []) ['k'] []
    [.packet (videoAt true 40), .packet (videoAt false 80)] [.packet (videoAt false 120)] 0 (by decide) (by simp [Stays])
  have hlater : later = [videoAt false 120] := append_cancel_left (hsent.symm.trans (by decide))
  rw [hlater] at hgot
  exact hgot.trans (by decide)

/-- The packets given are the headers and the group of pictures there were, and then all that came. -/
def SeesOnce (o : PlayedKey) (w : Nat) : Prop :=
  ∃ k ≤ o.sent.length, receivedBy o.key w = cachedOf (o.sent.take k) ++ o.sent.drop k

/-- **A player that comes back misses what was between**: its flag is still set. -/
theorem returning_player_misses : ¬SeesOnce ((unused ['k'] []).run (fun _ => []) [.addPlayer 0, .packet (videoAt true 40),
    .removePlayer 0, .packet (videoAt false 80), .addPlayer 0, .packet (videoAt false 120)]) 0 := by
  rintro ⟨k, hk, h⟩
  have hall : ∀ k < 4, ¬receivedBy ((unused ['k'] []).run (fun _ => []) [.addPlayer 0, .packet (videoAt true 40),
      .removePlayer 0, .packet (videoAt false 80), .addPlayer 0, .packet (videoAt false 120)]).key 0 =
      cachedOf ([videoAt true 40, videoAt false 80, videoAt false 120].take k) ++
        [videoAt true 40, videoAt false 80, videoAt false 120].drop k := by decide
  exact hall k (Nat.lt_succ_of_le hk) h

/-! ## Where a late player starts -/

section LateJoin

variable {W : Type} (write : W → MediaPacket → W × Int)

def writeHdr (hdr : Option MediaPacket) (r : W × Int) : W × Int :=
  match hdr with
  | some p => if p.body ≠ [] then write r.1 p else r
  | none => r

def writeThrough : List MediaPacket → W × Int → W × Int
  | [], r => r
  | p :: ps, r =>
    let r := write r.1 p
    if r.2 < 0 then r else writeThrough ps r

/-- `WriterGop`, for a writer and what `WritePacket` makes of it and answers. -/
def GopCache.writerGop (c : GopCache) (w : W) : W × Int :=
  let r := writeHdr write c.videoHdr (w, 0)
  if r.2 < 0 then r
  else
    let r := writeHdr write c.audioHdr r
    if r.2 < 0 then r else writeThrough write c.packets r

end LateJoin

/-- **`WriterGop` writes these packets**, as far as the writer takes them, whatever the writer. -/
def GopCache.Writes (c : GopCache) (ps : List MediaPacket) : Prop :=
  ∀ (W : Type) (write : W → MediaPacket → W × Int) (w : W), c.writerGop write w = writeThrough write ps (w, 0)

def headersOf (sent : List MediaPacket) : List MediaPacket :=
  ((hdrOf .video sent).toList ++ (hdrOf .audio sent).toList).filter fun p => p.body ≠ []

def isVideoFrame (p : MediaPacket) : Bool := p.avType = .video && !p.isSeqHdr

def isVideoKey (p : MediaPacket) : Bool := isVideoFrame p && p.isKeyFrame

/-- **Who comes late starts from the latest key frame**: behind the headers he is given what is media from it on, and the first
frame of video he is given is a key frame. -/
def StartsAtKey (sent : List MediaPacket) : Prop :=
  ∃ media, (cacheOf sent).Writes (headersOf sent ++ media) ∧
    (∀ pre k post, sent = pre ++ k :: post → isVideoKey k = true → post.any isVideoKey = false → media = mediaOf (k :: post)) ∧
    ∀ v, media.find? isVideoFrame = some v → v.isKeyFrame = true

theorem writeThrough_append {W : Type} (write : W → MediaPacket → W × Int) : ∀ (ps qs : List MediaPacket) (r : W × Int),
    ¬r.2 < 0 → writeThrough write (ps ++ qs) r =
      if (writeThrough write ps r).2 < 0 then writeThrough write ps r else writeThrough write qs (writeThrough write ps r)
  | [], qs, r, hr => by rw [nil_append, writeThrough, if_neg hr]
  | p :: ps, qs, r, hr => by
    rw [cons_append, writeThrough, writeThrough]
    by_cases hp : (write r.1 p).2 < 0
    · rw [if_pos hp, if_pos hp, if_pos hp]
    · rw [if_neg hp, if_neg hp]
      exact writeThrough_append write ps qs _ hp

theorem writeHdr_eq {W : Type} (write : W → MediaPacket → W × Int) (hdr : Option MediaPacket) (r : W × Int) :
    writeHdr write hdr r = writeThrough write (hdr.toList.filter fun p => p.body ≠ []) r := by
  cases hdr with
  | none => rfl
  | some p =>
    unfold writeHdr
    by_cases hp : p.body = []
    · simp [hp, writeThrough]
    · simp [hp, writeThrough]

theorem writerGop_replay (c : GopCache) : c.Writes c.replay := by
  intro W write w
  have hzero : ¬(w, (0 : Int)).2 < 0 := Int.lt_irrefl 0
  unfold GopCache.writerGop GopCache.replay
  rw [filter_append, append_assoc, writeHdr_eq, writeThrough_append write _ _ _ hzero]
  dsimp only
  generalize hr : writeThrough write (c.videoHdr.toList.filter fun p => p.body ≠ []) (w, 0) = r
  by_cases hfirst : r.2 < 0
  · rw [if_pos hfirst, if_pos hfirst]
  · rw [if_neg hfirst, if_neg hfirst, writeHdr_eq, writeThrough_append write _ _ _ hfirst]

def keepsAll (given : List MediaPacket) (p : MediaPacket) : List MediaPacket × Int := (given ++ [p], 0)

theorem writeThrough_keepsAll : ∀ (ps given : List MediaPacket), writeThrough keepsAll ps (given, 0) = (given ++ ps, 0)
  | [], given => by rw [append_nil, writeThrough]
  | p :: ps, given => by
    have htaken : ¬(keepsAll given p).2 < 0 := Int.lt_irrefl 0
    have hrest := writeThrough_keepsAll ps (given ++ [p])
    rw [append_assoc] at hrest
    rw [writeThrough, if_neg htaken]
    exact hrest

theorem GopCache.Writes.unique {c : GopCache} {ps qs : List MediaPacket} (hp : c.Writes ps) (hq : c.Writes qs) : ps = qs := by
  have h := (hp _ keepsAll []).symm.trans (hq _ keepsAll [])
  rw [writeThrough_keepsAll, writeThrough_keepsAll] at h
  exact congrArg Prod.fst h

theorem fromLast_split {α : Type} {q : α → Bool} {k : α} {post : List α} (hk : q k = true) (hpost : post.any q = false) :
    ∀ pre : List α, fromLast q (pre ++ k :: post) = k :: post
  | [] => by rw [nil_append, fromLast, hpost]; rfl
  | a :: pre => by
    have hany : (pre ++ k :: post).any q = true := by rw [any_append, any_cons, hk, Bool.true_or, Bool.or_true]
    rw [cons_append, fromLast, hany, if_pos rfl]
    exact fromLast_split hk hpost pre

theorem exists_last {α : Type} {q : α → Bool} : ∀ {l : List α}, l.any q = true →
    ∃ pre k post, l = pre ++ k :: post ∧ q k = true ∧ post.any q = false
  | a :: l, h => by
    by_cases hl : l.any q = true
    · obtain ⟨pre, k, post, rfl, hk, hpost⟩ := exists_last hl
      exact ⟨a :: pre, k, post, rfl, hk, hpost⟩
    · rw [any_cons, Bool.or_eq_true, or_iff_left hl] at h
      exact ⟨[], a, l, rfl, h, Bool.eq_false_iff.2 hl⟩

theorem any_mediaOf_opensGop (sent : List MediaPacket) : (mediaOf sent).any opensGop = sent.any isVideoKey := by
  unfold mediaOf
  rw [any_filter]
  congr 1
  funext p
  unfold isVideoKey isVideoFrame opensGop
  cases p.isSeqHdr <;> cases p.isKeyFrame <;> simp

theorem gopOf_split {pre post : List MediaPacket} {k : MediaPacket} (hk : isVideoKey k = true) (hpost : post.any isVideoKey = false) :
    gopOf (pre ++ k :: post) = mediaOf (k :: post) := by
  have hframe : k.isSeqHdr = false ∧ opensGop k = true := by
    unfold isVideoKey isVideoFrame at hk
    unfold opensGop
    cases hseq : k.isSeqHdr <;> simp_all
  have hmedia : ∀ l, mediaOf (l ++ k :: post) = mediaOf l ++ k :: mediaOf post := fun l => by
    unfold mediaOf
    rw [filter_append, filter_cons_of_pos (by rw [hframe.1]; rfl)]
  rw [gopOf, hmedia, fromLast_split hframe.2 (by rw [any_mediaOf_opensGop, hpost])]
  exact (hmedia []).symm

/-- **Who comes late starts from the latest key frame exactly if there was one, or no frame of video yet**: frames that came
before the first key frame are kept, and written. -/
theorem late_join_iff (sent : List MediaPacket) :
    StartsAtKey sent ↔ sent.any isVideoKey = true ∨ sent.any isVideoFrame = false := by
  have hwrites : (cacheOf sent).Writes (headersOf sent ++ gopOf sent) := by
    have h := writerGop_replay (cacheOf sent)
    rw [replay_cacheOf] at h
    exact h
  constructor
  · rintro ⟨media, hmedia, -, hfirst⟩
    obtain rfl := append_cancel_left (hmedia.unique hwrites)
    by_cases hkey : sent.any isVideoKey = true
    · exact .inl hkey
    · right
      rw [Bool.not_eq_true] at hkey
      have hgop : gopOf sent = mediaOf sent := fromLast_of_none (by rw [any_mediaOf_opensGop, hkey])
      rw [hgop] at hfirst
      by_contra hany
      obtain ⟨p, hp, hvideo⟩ := List.any_eq_true.1 (Bool.not_eq_false _ ▸ hany)
      have hin : p ∈ mediaOf sent := List.mem_filter.2 ⟨hp, (Bool.and_eq_true_iff.1 hvideo).2⟩
      cases hfind : (mediaOf sent).find? isVideoFrame with
      | none => exact absurd hvideo (by simpa using List.find?_eq_none.1 hfind p hin)
      | some v =>
        have hv := List.find?_some hfind
        have hvin := (List.mem_filter.1 (List.mem_of_find?_eq_some hfind)).1
        have hvkey : isVideoKey v = true := Bool.and_eq_true_iff.2 ⟨hv, hfirst v hfind⟩
        rw [List.any_eq_true.2 ⟨v, hvin, hvkey⟩] at hkey
        cases hkey
  · rintro (hkey | hnone)
    · obtain ⟨pre, k, post, rfl, hk, hpost⟩ := exists_last hkey
      have hkv := Bool.and_eq_true_iff.1 hk
      refine ⟨mediaOf (k :: post), ?_, ?_, ?_⟩
      · rw [← gopOf_split hk hpost]
        exact hwrites
      · intro pre' k' post' heq hk' hpost'
        rw [← gopOf_split hk hpost, heq, gopOf_split hk' hpost']
      · intro v hv
        have hmedia : mediaOf (k :: post) = k :: mediaOf post := filter_cons_of_pos (Bool.and_eq_true_iff.1 hkv.1).2
        rw [hmedia, List.find?_cons_of_pos hkv.1] at hv
        cases hv
        exact hkv.2
    · refine ⟨gopOf sent, hwrites, ?_, ?_⟩
      · rintro pre k post rfl hk -
        have hframe := (Bool.and_eq_true_iff.1 hk).1
        rw [any_append, any_cons, hframe, Bool.true_or, Bool.or_true] at hnone
        cases hnone
      · intro v hv
        have hin : v ∈ sent := mem_of_mem_filter ((fromLast_suffix opensGop _).subset (List.mem_of_find?_eq_some hv))
        rw [List.any_eq_true.2 ⟨v, hin, List.find?_some hv⟩] at hnone
        cases hnone

/-- **A frame that depends on others comes first, and a player comes then**: it is written what it cannot decode. -/
theorem late_join_before_key : ¬StartsAtKey [⟨.video, false, false, 40, 40, [0x27, 1]⟩] := by
  rintro ⟨media, hmedia, -, hfirst⟩
  have hwrites := writerGop_replay (cacheOf [⟨.video, false, false, 40, 40, [0x27, 1]⟩])
  obtain rfl := append_cancel_left (hmedia.unique hwrites)
  exact absurd (hfirst ⟨.video, false, false, 40, 40, [0x27, 1]⟩ rfl) (by decide)

end MoqLiveCast
