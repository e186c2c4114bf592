import MoqLiveCast.Lib.Run
/-!
# SessionTables — the handle tables of the C client (`moqlite/moq_lite_client.c`)

A handle is a slot of a table, and a slot is not used again; a pointer to an object of a table is written as its slot here.
`moq_lite_session_free` looks its session up among those that are alive and goes on with one that is not, so it does nothing at all.

Allocation is taken to succeed, and a table to have fewer than 2^32 slots.
-/
namespace MoqLiveCast
namespace SessionTables

/-! ## A table -/

abbrev Slots (α : Type) := List (Option α)

namespace Slots

variable {α : Type}

def entry (t : Slots α) (h : Nat) : Option α := t[h]?.join

def alloc (t : Slots α) (obj : Nat → α) : Slots α × Nat :=
  let t := if t.isEmpty then [none] else t
  (t ++ [some (obj t.length)], t.length)

def alter (t : Slots α) (h : Nat) (f : α → α) : Slots α := t.modify h (Option.map f)

def clear (t : Slots α) (mine : α → Bool) : Slots α := t.map fun o => o.filter fun x => !mine x

theorem entry_alloc (t : Slots α) (obj : Nat → α) (i : Nat) :
    (t.alloc obj).1.entry i = if i = (t.alloc obj).2 then some (obj i) else t.entry i := by
  unfold alloc entry
  cases t with
  | nil => rcases i with _ | _ | i <;> simp
  | cons o t =>
    simp only [List.isEmpty_cons, Bool.false_eq_true, if_false]
    rcases Nat.lt_trichotomy i (o :: t).length with hlt | heq | hgt
    · rw [if_neg (Nat.ne_of_lt hlt), List.getElem?_append_left hlt]
    · rw [if_pos heq, heq, List.getElem?_concat_length]
      rfl
    · rw [if_neg (Nat.ne_of_gt hgt), List.getElem?_eq_none (by rw [List.length_append]; exact hgt),
        List.getElem?_eq_none (Nat.le_of_lt hgt)]

theorem entry_alter (t : Slots α) (h : Nat) (f : α → α) (i : Nat) :
    (t.alter h f).entry i = if i = h then (t.entry i).map f else t.entry i := by
  unfold alter entry
  rw [List.getElem?_modify]
  by_cases hi : i = h
  · subst hi
    rw [if_pos rfl]
    cases t[i]? with
    | none => rfl
    | some o => simp
  · rw [if_neg hi]
    cases t[i]? with
    | none => rfl
    | some o => simp [Ne.symm hi]

theorem entry_alloc_slot (t : Slots α) (obj : Nat → α) : t.entry (t.alloc obj).2 = none := by
  unfold alloc entry
  cases t with
  | nil => rfl
  | cons o t => simp

theorem alloc_slot_pos (t : Slots α) (obj : Nat → α) : (t.alloc obj).2 ≠ 0 := by
  unfold alloc
  cases t <;> simp

def All (P : Nat → α → Prop) (t : Slots α) : Prop := ∀ i x, t.entry i = some x → P i x

theorem All.alloc {P : Nat → α → Prop} {t : Slots α} (h : All P t) {obj : Nat → α} (hobj : P (t.alloc obj).2 (obj (t.alloc obj).2)) :
    All P (t.alloc obj).1 := by
  intro i x hx
  rw [entry_alloc] at hx
  split at hx
  · rename_i hi
    cases hx
    rw [hi]
    exact hobj
  · exact h i x hx

theorem All.alter {P : Nat → α → Prop} {t : Slots α} (h : All P t) {k : Nat} {f : α → α} (hf : ∀ x, t.entry k = some x → P k x → P k (f x)) :
    All P (t.alter k f) := by
  intro i x hx
  rw [entry_alter] at hx
  split at hx
  · rename_i hi
    subst hi
    obtain ⟨y, hy, rfl⟩ := Option.map_eq_some_iff.1 hx
    exact hf y hy (h i y hy)
  · exact h i x hx

end Slots

/-! ## The objects -/

/-- A `MoqSession`; `reported` is when `on_close` was called.  Its `bcs` are its broadcasts, by their slots. -/
structure MoqSession where
  slot : Nat
  used : Bool := true
  dead : Bool := false
  closing : Bool := false
  connected : Bool := false
  bcs : List Nat := []
  reported : Bool := false
deriving DecidableEq

structure MoqSub where
  slot : Nat
  used : Bool := true
  dead : Bool := false
  sess : Nat
deriving DecidableEq

structure MoqBc where
  slot : Nat
  used : Bool := true
  dead : Bool := false
  synthetic : Bool
  sess : Nat
deriving DecidableEq

structure MoqPub where
  slot : Nat
  used : Bool := true
  dead : Bool := false
  sess : Nat
  trackCnt : Nat := 0
deriving DecidableEq

structure MoqPubTrack where
  slot : Nat
  used : Bool := true
  dead : Bool := false
  pub : Nat
deriving DecidableEq

def MOQ_MAX_PUB_TRACKS : Nat := 4

structure MoqCtx where
  sessions : Slots MoqSession := []
  subs : Slots MoqSub := []
  bcs : Slots MoqBc := []
  pubs : Slots MoqPub := []
  tracks : Slots MoqPubTrack := []
deriving DecidableEq

namespace MoqCtx

/-! ## The lookups -/

def sessionGet (g : MoqCtx) (h : Nat) : Option MoqSession := (g.sessions.entry h).filter fun s => s.used && !s.dead && s.slot = h

def subGet (g : MoqCtx) (h : Nat) : Option MoqSub := (g.subs.entry h).filter fun s => s.used && s.slot = h

def bcGet (g : MoqCtx) (h : Nat) : Option MoqBc := (g.bcs.entry h).filter fun b => b.used && !b.dead && b.slot = h

def pubGet (g : MoqCtx) (h : Nat) : Option MoqPub :=
  if h = 0 then none else (g.pubs.entry h).filter fun p => p.used && !p.dead && p.slot = h

def trackGet (g : MoqCtx) (h : Nat) : Option MoqPubTrack :=
  if h = 0 then none else (g.tracks.entry h).filter fun t => t.used && !t.dead && t.slot = h

/-! ## What is done to them -/

def sessionNew (g : MoqCtx) : MoqCtx := { g with sessions := (g.sessions.alloc fun slot => { slot := slot }).1 }

def onSessionConnected (g : MoqCtx) (s : Nat) (ok : Bool) : MoqCtx :=
  { g with sessions := g.sessions.alter s fun s => if s.dead then s else { s with connected := ok } }

def newBc (g : MoqCtx) (s : Nat) (synthetic : Bool) : MoqCtx × Nat :=
  let r := g.bcs.alloc fun slot => { slot := slot, synthetic := synthetic, sess := s }
  ({ g with bcs := r.1, sessions := g.sessions.alter s fun s => { s with bcs := s.bcs ++ [r.2] } }, r.2)

def parseAnnounce (g : MoqCtx) (s : Nat) : MoqCtx :=
  match g.sessions.entry s with
  | none => g
  | some sess => if sess.dead then g else (g.newBc s false).1

def announceEnd (g : MoqCtx) (bc : Nat) : MoqCtx :=
  { g with bcs := g.bcs.alter bc fun b => if b.dead ∨ b.synthetic then b else { b with dead := true } }

def subCreate (g : MoqCtx) (s : Nat) : MoqCtx := { g with subs := (g.subs.alloc fun slot => { slot := slot, sess := s }).1 }

def moqLiteSubscribe (g : MoqCtx) (bh : Nat) : MoqCtx :=
  match g.bcGet bh with
  | none => g
  | some bc =>
    match g.sessions.entry bc.sess with
    | none => g
    | some s => if s.dead then g else g.subCreate bc.sess

def moqLiteBroadcastPath (g : MoqCtx) (h : Nat) : MoqCtx :=
  match g.sessionGet h with
  | none => g
  | some s => if s.connected = false then g else (g.newBc h true).1

def moqLiteSubscribePath (g : MoqCtx) (h : Nat) : MoqCtx :=
  match g.sessionGet h with
  | none => g
  | some s => if s.connected = false then g else (g.newBc h true).1.subCreate h

def moqLiteUnsubscribe (g : MoqCtx) (h : Nat) : MoqCtx :=
  match g.subGet h with
  | none => g
  | some _ => { g with subs := g.subs.alter h fun sub => { sub with dead := true } }

def onSessionStreamReset (g : MoqCtx) (sub : Nat) : MoqCtx :=
  { g with subs := g.subs.alter sub fun x => if x.used then { x with dead := true } else x }

def moqLitePublish (g : MoqCtx) (h : Nat) : MoqCtx :=
  match g.sessionGet h with
  | none => g
  | some s =>
    if s.connected = false then g else { g with pubs := (g.pubs.alloc fun slot => { slot := slot, sess := h }).1 }

def moqLitePublishTrack (g : MoqCtx) (bh : Nat) : MoqCtx :=
  match g.pubGet bh with
  | none => g
  | some pub =>
    if MOQ_MAX_PUB_TRACKS ≤ pub.trackCnt then g
    else
      { g with
        tracks := (g.tracks.alloc fun slot => { slot := slot, pub := bh }).1
        pubs := g.pubs.alter bh fun p => { p with trackCnt := p.trackCnt + 1 } }

def moqLiteTrackEnd (g : MoqCtx) (th : Nat) : MoqCtx :=
  match g.trackGet th with
  | none => g
  | some _ => { g with tracks := g.tracks.alter th fun t => { t with dead := true } }

def killBcs (bcs : Slots MoqBc) (slots : List Nat) : Slots MoqBc :=
  slots.foldl (fun t i => t.alter i fun b => { b with dead := true }) bcs

def moqLiteSessionClose (g : MoqCtx) (h : Nat) : MoqCtx :=
  match g.sessionGet h with
  | none => g
  | some s =>
    { g with
      sessions := g.sessions.alter h fun s => { s with closing := true, dead := true }
      bcs := killBcs g.bcs s.bcs }

def onSessionClose (g : MoqCtx) (s : Nat) : MoqCtx :=
  match g.sessions.entry s with
  | none => g
  | some sess =>
    { g with
      sessions := g.sessions.alter s fun s => { s with dead := true, reported := true }
      bcs := killBcs g.bcs sess.bcs }

def trackSess (g : MoqCtx) (t : MoqPubTrack) : Option Nat := (g.pubs.entry t.pub).map MoqPub.sess

/-- What `moq_lite_session_free` does with the tables, behind its tests: the tracks go before their broadcasts. -/
def freeTables (g : MoqCtx) (s : Nat) : MoqCtx :=
  let g := { g with subs := g.subs.clear fun x => x.sess = s }
  let g := { g with bcs := g.bcs.clear fun x => x.sess = s }
  let g := { g with tracks := g.tracks.clear fun t => g.trackSess t = some s }
  let g := { g with pubs := g.pubs.clear fun x => x.sess = s }
  { g with sessions := g.sessions.set s none }

def moqLiteSessionFree (g : MoqCtx) (h : Nat) : MoqCtx :=
  match g.sessionGet h with
  | none => g
  | some s => if s.dead = false then g else g.freeTables h

/-! ## Runs -/

inductive Op where
  | sessionNew
  | connected (s : Nat) (ok : Bool)
  | announceStart (s : Nat)
  | announceEnd (bc : Nat)
  | broadcastPath (h : Nat)
  | subscribe (bh : Nat)
  | subscribePath (h : Nat)
  | unsubscribe (h : Nat)
  | streamReset (sub : Nat)
  | publish (h : Nat)
  | publishTrack (bh : Nat)
  | trackEnd (th : Nat)
  | close (h : Nat)
  | onClose (s : Nat)
  | free (h : Nat)

def step (g : MoqCtx) : Op → MoqCtx
  | .sessionNew => g.sessionNew
  | .connected s ok => g.onSessionConnected s ok
  | .announceStart s => g.parseAnnounce s
  | .announceEnd bc => g.announceEnd bc
  | .broadcastPath h => g.moqLiteBroadcastPath h
  | .subscribe bh => g.moqLiteSubscribe bh
  | .subscribePath h => g.moqLiteSubscribePath h
  | .unsubscribe h => g.moqLiteUnsubscribe h
  | .streamReset sub => g.onSessionStreamReset sub
  | .publish h => g.moqLitePublish h
  | .publishTrack bh => g.moqLitePublishTrack bh
  | .trackEnd th => g.moqLiteTrackEnd th
  | .close h => g.moqLiteSessionClose h
  | .onClose s => g.onSessionClose s
  | .free h => g.moqLiteSessionFree h

def run (ops : List Op) : MoqCtx := ops.foldl step {}

/-! ## Forgetting a session -/

/-- It holds of each of the five tables, with its lookup and what is the session's in it. -/
def OnAll (P : ∀ α : Type, (MoqCtx → Slots α) → (MoqCtx → Nat → Option α) → (α → Prop) → Prop) (g : MoqCtx) (s : Nat) : Prop :=
  P _ sessions sessionGet (fun x => x.slot = s) ∧ P _ subs subGet (fun x => x.sess = s) ∧ P _ bcs bcGet (fun x => x.sess = s) ∧
    P _ pubs pubGet (fun x => x.sess = s) ∧ P _ tracks trackGet (fun t => g.trackSess t = some s)

def Removed (g g' : MoqCtx) (s : Nat) : Prop :=
  OnAll (fun _ table _ mine => ∀ i x, (table g).entry i = some x → mine x → (table g').entry i = none) g s

def HandlesNull (g g' : MoqCtx) (s : Nat) : Prop :=
  OnAll (fun _ table get mine => ∀ i x, (table g).entry i = some x → mine x → get g' i = none) g s

def OthersKept (g g' : MoqCtx) (s : Nat) : Prop :=
  OnAll (fun _ table get mine => ∀ i x, (table g).entry i = some x → ¬mine x → get g' i = get g i) g s

/-- **The session is forgotten, and nothing else.** -/
structure Forgets (g g' : MoqCtx) (s : Nat) : Prop where
  removed : Removed g g' s
  null : HandlesNull g g' s
  others : OthersKept g g' s

/-- What holds of the tables: an object knows its slot, and the broadcasts of a session that is dead are dead. -/
structure Well (g : MoqCtx) : Prop where
  sessions : g.sessions.All fun i s => s.slot = i ∧ s.used = true ∧ (s.reported = true → s.dead = true)
  subs : g.subs.All fun i x => x.slot = i ∧ x.used = true
  bcs : g.bcs.All fun i b => (b.slot = i ∧ b.used = true) ∧
    ∃ s, g.sessions.entry b.sess = some s ∧ i ∈ s.bcs ∧ (s.dead = true → b.dead = true)
  pubs : g.pubs.All fun i p => p.slot = i ∧ p.used = true ∧ i ≠ 0
  tracks : g.tracks.All fun i t => t.slot = i ∧ t.used = true ∧ i ≠ 0

/-! ## Freeing a session -/

theorem sessionGet_eq_some {g : MoqCtx} {h : Nat} {s : MoqSession} (hget : g.sessionGet h = some s) :
    g.sessions.entry h = some s ∧ s.dead = false := by
  obtain ⟨hentry, halive⟩ := Option.filter_eq_some_iff.1 hget
  rw [Bool.and_eq_true, Bool.and_eq_true] at halive
  exact ⟨hentry, by simpa using halive.1.2⟩

theorem sessionFree_eq (g : MoqCtx) (h : Nat) : g.moqLiteSessionFree h = g := by
  unfold moqLiteSessionFree
  cases hget : g.sessionGet h with
  | none => rfl
  | some s => exact if_pos (sessionGet_eq_some hget).2

/-! ## The tables, over a run -/

theorem entry_killBcs : ∀ (slots : List Nat) (bcs : Slots MoqBc) (i : Nat), (killBcs bcs slots).entry i =
    if i ∈ slots then (bcs.entry i).map fun b => { b with dead := true } else bcs.entry i
  | [], _, _ => by rw [if_neg List.not_mem_nil]; rfl
  | k :: slots, bcs, i => by
    have hrest := entry_killBcs slots (bcs.alter k fun b => { b with dead := true }) i
    rw [Slots.entry_alter] at hrest
    refine hrest.trans ?_
    by_cases hk : i = k
    · rw [if_pos hk, if_pos (List.mem_cons.2 (.inl hk))]
      cases bcs.entry i <;> simp
    · rw [if_neg hk]
      simp only [List.mem_cons, hk, false_or]

namespace Well

variable {g : MoqCtx}

theorem withSessions (h : g.Well) {ss : Slots MoqSession}
    (hss : ss.All fun i s => s.slot = i ∧ s.used = true ∧ (s.reported = true → s.dead = true))
    (hkeep : ∀ k s, g.sessions.entry k = some s →
      ∃ s', ss.entry k = some s' ∧ s.bcs ⊆ s'.bcs ∧ (s'.dead = true → s.dead = true)) :
    Well { g with sessions := ss } := by
  refine { sessions := hss, subs := h.subs, pubs := h.pubs, tracks := h.tracks, bcs := fun i b hb => ?_ }
  obtain ⟨hslot, s, hs, hin, hdead⟩ := h.bcs i b hb
  obtain ⟨s', hs', hsub, hd⟩ := hkeep _ s hs
  exact ⟨hslot, s', hs', hsub hin, hdead ∘ hd⟩

theorem sessionNew (h : g.Well) : g.sessionNew.Well := by
  refine h.withSessions (h.sessions.alloc ⟨rfl, rfl, fun hr => absurd hr Bool.false_ne_true⟩) fun k s hs => ⟨s, ?_, fun _ hx => hx, id⟩
  rw [Slots.entry_alloc, if_neg, hs]
  rintro rfl
  rw [Slots.entry_alloc_slot] at hs
  cases hs

theorem alterSession (h : g.Well) (k : Nat) (f : MoqSession → MoqSession) (hf : ∀ s, (f s).slot = s.slot ∧ (f s).used = s.used ∧
    (f s).dead = s.dead ∧ (f s).reported = s.reported ∧ s.bcs ⊆ (f s).bcs) :
    Well { g with sessions := g.sessions.alter k f } := by
  refine h.withSessions (h.sessions.alter fun x _ hx => ?_) fun i s hs => ?_
  · obtain ⟨h₁, h₂, h₃, h₄, -⟩ := hf x
    rw [h₁, h₂, h₃, h₄]
    exact hx
  · rw [Slots.entry_alter, hs]
    split
    · exact ⟨f s, rfl, (hf s).2.2.2.2, fun hd => by rwa [(hf s).2.2.1] at hd⟩
    · exact ⟨s, rfl, fun _ hx => hx, id⟩

theorem onSessionConnected (h : g.Well) (k : Nat) (ok : Bool) : (g.onSessionConnected k ok).Well := by
  refine h.alterSession k _ fun s => ?_
  split <;> exact ⟨rfl, rfl, rfl, rfl, fun _ hx => hx⟩

theorem newBc (h : g.Well) {k : Nat} {s : MoqSession} (hs : g.sessions.entry k = some s) (halive : s.dead = false) (synthetic : Bool) :
    (g.newBc k synthetic).1.Well := by
  have hsess := h.alterSession k (fun s => { s with bcs := s.bcs ++ [(g.newBc k synthetic).2] })
    fun s => ⟨rfl, rfl, rfl, rfl, List.subset_append_left _ _⟩
  refine { hsess with bcs := @Slots.All.alloc _ _ _ hsess.bcs (fun slot => ⟨slot, true, false, synthetic, k⟩) ⟨⟨rfl, rfl⟩, ?_⟩ }
  refine ⟨{ s with bcs := s.bcs ++ [(g.newBc k synthetic).2] }, ?_, ?_, fun hd => ?_⟩
  · show (g.sessions.alter k _).entry k = _
    rw [Slots.entry_alter, if_pos rfl, hs]
    rfl
  · exact List.mem_append_right _ (List.mem_singleton.2 rfl)
  · rw [← hd, halive]

theorem kill (h : g.Well) {k : Nat} {s : MoqSession} (hs : g.sessions.entry k = some s) (f : MoqSession → MoqSession)
    (hf : ∀ s, (f s).slot = s.slot ∧ (f s).used = s.used ∧ (f s).dead = true ∧ (f s).bcs = s.bcs) :
    Well { g with sessions := g.sessions.alter k f, bcs := killBcs g.bcs s.bcs } := by
  refine { sessions := h.sessions.alter fun x _ hx => ?_, subs := h.subs, pubs := h.pubs, tracks := h.tracks, bcs := ?_ }
  · obtain ⟨h₁, h₂, h₃, -⟩ := hf x
    rw [h₁, h₂]
    exact ⟨hx.1, hx.2.1, fun _ => h₃⟩
  · intro i b hb
    rw [entry_killBcs] at hb
    obtain ⟨b₀, hb₀, hslot, hused, hsess, hdead⟩ : ∃ b₀, g.bcs.entry i = some b₀ ∧ b.slot = b₀.slot ∧ b.used = b₀.used ∧
        b.sess = b₀.sess ∧ (b₀.dead = true ∨ i ∈ s.bcs → b.dead = true) := by
      split at hb
      · obtain ⟨b₀, hb₀, rfl⟩ := Option.map_eq_some_iff.1 hb
        exact ⟨b₀, hb₀, rfl, rfl, rfl, fun _ => rfl⟩
      · rename_i hout
        exact ⟨b, hb, rfl, rfl, rfl, fun hor => hor.resolve_right hout⟩
    obtain ⟨⟨hslot₀, hused₀⟩, s₀, hs₀, hin, hd⟩ := h.bcs i b₀ hb₀
    refine ⟨⟨hslot.trans hslot₀, hused.trans hused₀⟩, ?_⟩
    show ∃ s', (g.sessions.alter k f).entry b.sess = some s' ∧ _
    rw [Slots.entry_alter, hsess, hs₀]
    split
    · rename_i hk
      rw [hk, hs] at hs₀
      cases hs₀
      exact ⟨f s, rfl, by rw [(hf s).2.2.2]; exact hin, fun _ => hdead (.inr hin)⟩
    · exact ⟨s₀, rfl, hin, fun hd₀ => hdead (.inl (hd hd₀))⟩

theorem withSubs (h : g.Well) {t : Slots MoqSub} (ht : t.All fun i x => x.slot = i ∧ x.used = true) : Well { g with subs := t } :=
  { h with subs := ht }

theorem subCreate (h : g.Well) (k : Nat) : (g.subCreate k).Well := h.withSubs (h.subs.alloc ⟨rfl, rfl⟩)

theorem step (h : g.Well) (op : Op) : (g.step op).Well := by
  cases op with
  | sessionNew => exact h.sessionNew
  | connected k ok => exact h.onSessionConnected k ok
  | announceStart k =>
    show (g.parseAnnounce k).Well
    unfold parseAnnounce
    split
    · exact h
    · rename_i s hs
      split
      · exact h
      · rename_i halive
        exact h.newBc hs (by simpa using halive) false
  | announceEnd bc =>
    refine { h with bcs := h.bcs.alter fun b _ hb => ?_ }
    split
    · exact hb
    · obtain ⟨hslot, s, hs, hin, -⟩ := hb
      exact ⟨hslot, s, hs, hin, fun _ => rfl⟩
  | broadcastPath k =>
    show (g.moqLiteBroadcastPath k).Well
    unfold moqLiteBroadcastPath
    split
    · exact h
    · rename_i s hget
      obtain ⟨hs, halive⟩ := sessionGet_eq_some hget
      split
      · exact h
      · exact h.newBc hs halive true
  | subscribe bh =>
    show (g.moqLiteSubscribe bh).Well
    unfold moqLiteSubscribe
    split
    · exact h
    · split
      · exact h
      · split
        · exact h
        · exact h.subCreate _
  | subscribePath k =>
    show (g.moqLiteSubscribePath k).Well
    unfold moqLiteSubscribePath
    split
    · exact h
    · rename_i s hget
      obtain ⟨hs, halive⟩ := sessionGet_eq_some hget
      split
      · exact h
      · exact (h.newBc hs halive true).subCreate k
  | unsubscribe k =>
    show (g.moqLiteUnsubscribe k).Well
    unfold moqLiteUnsubscribe
    split
    · exact h
    · exact h.withSubs (h.subs.alter fun _ _ hx => hx)
  | streamReset k =>
    refine h.withSubs (h.subs.alter fun x _ hx => ?_)
    split <;> exact hx
  | publish k =>
    show (g.moqLitePublish k).Well
    unfold moqLitePublish
    split
    · exact h
    · split
      · exact h
      · have hpubs := @Slots.All.alloc _ _ _ h.pubs (fun slot => ⟨slot, true, false, k, 0⟩)
          ⟨rfl, rfl, Slots.alloc_slot_pos _ _⟩
        exact { h with pubs := hpubs }
  | publishTrack bh =>
    show (g.moqLitePublishTrack bh).Well
    unfold moqLitePublishTrack
    split
    · exact h
    · split
      · exact h
      · have htracks := @Slots.All.alloc _ _ _ h.tracks (fun slot => ⟨slot, true, false, bh⟩)
          ⟨rfl, rfl, Slots.alloc_slot_pos _ _⟩
        exact { h with tracks := htracks, pubs := h.pubs.alter fun _ _ hx => hx }
  | trackEnd th =>
    show (g.moqLiteTrackEnd th).Well
    unfold moqLiteTrackEnd
    split
    · exact h
    · exact { h with tracks := h.tracks.alter fun _ _ hx => hx }
  | close k =>
    show (g.moqLiteSessionClose k).Well
    unfold moqLiteSessionClose
    split
    · exact h
    · rename_i s hget
      exact h.kill (sessionGet_eq_some hget).1 _ fun _ => ⟨rfl, rfl, rfl, rfl⟩
  | onClose k =>
    show (g.onSessionClose k).Well
    unfold onSessionClose
    split
    · exact h
    · rename_i s hs
      exact h.kill hs _ fun _ => ⟨rfl, rfl, rfl, rfl⟩
  | free k =>
    show (g.moqLiteSessionFree k).Well
    rw [sessionFree_eq]
    exact h

end Well

theorem entry_nil {α : Type} (i : Nat) : Slots.entry ([] : Slots α) i = none := rfl

theorem run_well (ops : List Op) : (run ops).Well := by
  have hnil : ∀ {α : Type} (P : Nat → α → Prop), Slots.All P [] := fun P i x hx => by
    rw [entry_nil] at hx
    cases hx
  have hstart : ({} : MoqCtx).Well := ⟨hnil _, hnil _, hnil _, hnil _, hnil _⟩
  exact foldl_inv step (fun _ _ => True) Well (fun _ op h _ => h.step op) ops ({} : MoqCtx) hstart
    (stepsOk_of_forall _ _ ops _ fun _ _ _ => trivial)

/-! ## What is found -/

section Found

variable {g : MoqCtx}

theorem Well.sessionGet_eq (h : g.Well) {i : Nat} {s : MoqSession} (hs : g.sessions.entry i = some s) :
    g.sessionGet i = none ↔ s.dead = true := by
  obtain ⟨hslot, hused, -⟩ := h.sessions i s hs
  unfold sessionGet
  rw [hs, Option.filter_some, hused, hslot]
  cases s.dead <;> simp

theorem Well.subGet_eq (h : g.Well) {i : Nat} {x : MoqSub} (hx : g.subs.entry i = some x) : g.subGet i = some x := by
  obtain ⟨hslot, hused⟩ := h.subs i x hx
  unfold subGet
  rw [hx, Option.filter_some, hused, hslot]
  simp

theorem Well.bcGet_eq (h : g.Well) {i : Nat} {b : MoqBc} (hb : g.bcs.entry i = some b) : g.bcGet i = none ↔ b.dead = true := by
  obtain ⟨⟨hslot, hused⟩, -⟩ := h.bcs i b hb
  unfold bcGet
  rw [hb, Option.filter_some, hused, hslot]
  cases b.dead <;> simp

theorem Well.pubGet_eq (h : g.Well) {i : Nat} {p : MoqPub} (hp : g.pubs.entry i = some p) : g.pubGet i = none ↔ p.dead = true := by
  obtain ⟨hslot, hused, hpos⟩ := h.pubs i p hp
  unfold pubGet
  rw [hp, if_neg hpos, Option.filter_some, hused, hslot]
  cases p.dead <;> simp

theorem Well.trackGet_eq (h : g.Well) {i : Nat} {t : MoqPubTrack} (ht : g.tracks.entry i = some t) :
    g.trackGet i = none ↔ t.dead = true := by
  obtain ⟨hslot, hused, hpos⟩ := h.tracks i t ht
  unfold trackGet
  rw [ht, if_neg hpos, Option.filter_some, hused, hslot]
  cases t.dead <;> simp

theorem Well.handlesNull_iff (h : g.Well) {k : Nat} {s : MoqSession} (hs : g.sessions.entry k = some s) (hdead : s.dead = true) :
    HandlesNull g g k ↔ (∀ i x, g.subs.entry i = some x → x.sess ≠ k) ∧ (∀ i x, g.pubs.entry i = some x → x.sess = k → x.dead =
    true) ∧ ∀ i x, g.tracks.entry i = some x → g.trackSess x = some k → x.dead = true := by
  constructor
  · rintro ⟨-, hsubs, -, hpubs, htracks⟩
    refine ⟨fun i x hx hk => ?_, fun i x hx hk => (h.pubGet_eq hx).1 (hpubs i x hx hk),
      fun i x hx hk => (h.trackGet_eq hx).1 (htracks i x hx hk)⟩
    have hnone := hsubs i x hx hk
    rw [h.subGet_eq hx] at hnone
    cases hnone
  · rintro ⟨hsubs, hpubs, htracks⟩
    refine ⟨fun i x hx hk => ?_, fun i x hx hk => absurd hk (hsubs i x hx), fun i x hx hk => ?_,
      fun i x hx hk => (h.pubGet_eq hx).2 (hpubs i x hx hk), fun i x hx hk => (h.trackGet_eq hx).2 (htracks i x hx hk)⟩
    · obtain rfl : i = k := (h.sessions i x hx).1.symm.trans hk
      rw [hs] at hx
      cases hx
      exact (h.sessionGet_eq hs).2 hdead
    · obtain ⟨-, s', hs', -, hd⟩ := h.bcs i x hx
      rw [hk, hs] at hs'
      cases hs'
      exact (h.bcGet_eq hx).2 (hd hdead)

end Found

/-- **Freeing a session that was closed forgets nothing**: everything stays in its table, so also what other sessions have.  Its
handles are not found all the same if it has no subscription, and no broadcast and no track of its own that is alive. -/
theorem session_free_forgets_nothing (ops : List Op) (h : Nat) (s : MoqSession) (hs : (run ops).sessions.entry h = some s)
    (hclosed : s.reported = true) :
    let g := run ops
    let g' := g.moqLiteSessionFree h
    ¬Forgets g g' h ∧ OthersKept g g' h ∧ (HandlesNull g g' h ↔ (∀ i x, g.subs.entry i = some x → x.sess ≠ h) ∧
        (∀ i x, g.pubs.entry i = some x → x.sess = h → x.dead = true) ∧
        ∀ i x, g.tracks.entry i = some x → g.trackSess x = some h → x.dead = true) := by
  have hwell := run_well ops
  obtain ⟨hslot, -, hdead⟩ := hwell.sessions h s hs
  intro g g'
  rw [show g' = g from sessionFree_eq g h]
  refine ⟨fun hforgets => ?_, ?_, hwell.handlesNull_iff hs (hdead hclosed)⟩
  · have hgone : g.sessions.entry h = none := hforgets.removed.1 h s hs hslot
    rw [show g.sessions.entry h = some s from hs] at hgone
    cases hgone
  · exact ⟨fun _ _ _ _ => rfl, fun _ _ _ _ => rfl, fun _ _ _ _ => rfl, fun _ _ _ _ => rfl, fun _ _ _ _ => rfl⟩

def publishedThenClosed : List Op := [.sessionNew, .connected 1 true, .publish 1, .close 1, .onClose 1]

theorem session_free_published_closed : ¬Forgets (run publishedThenClosed) ((run publishedThenClosed).moqLiteSessionFree 1) 1 :=
  (session_free_forgets_nothing publishedThenClosed 1 ⟨1, true, true, true, true, [], true⟩ (by decide) (by decide)).1

/-- **The session was closed and reported it, and is freed: its broadcast is found.** -/
theorem session_free_keeps_broadcast : ((run publishedThenClosed).sessions.entry 1).map MoqSession.reported = some true ∧
    ((run publishedThenClosed).moqLiteSessionFree 1).pubGet 1 = some ⟨1, true, false, 1, 0⟩ ∧ ¬Forgets (run publishedThenClosed)
    ((run publishedThenClosed).moqLiteSessionFree 1) 1 := by
  refine ⟨by decide, by decide, fun h => ?_⟩
  have hgone := h.null.2.2.2.1 1 ⟨1, true, false, 1, 0⟩ (by decide) rfl
  exact absurd hgone (by decide)

end MoqCtx
end SessionTables
end MoqLiveCast
