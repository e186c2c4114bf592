import MoqLiveCast.Lib.Run
import MoqLiveCast.Media.StreamSteps
/-!
# CatalogOwner — whose catalog is served

A take-over and a release clear the cache and keep the catalog, so a player that keeps the entry keeps the catalog of a
publisher that is gone (`stale_catalog`).
-/
namespace MoqLiveCast

open StreamKey

/-- The key, how many times it got a publisher, who stored the catalog in which of these reigns, and what was served last. -/
structure CatalogKey where
  key : StreamKey
  reign : Nat := 0
  storedBy : Option (Name × Nat) := none
  served : Option (List Byte × Nat) := none

namespace CatalogKey

/-- The claim makes a new publisher of the entry: it had none, or another one who is displaced. -/
def newReign (s : StreamKey) (owner : Name) (now : Int) : Bool :=
  match s.stream with
  | none => true
  | some st => st.publisherId = [] || (st.publisherId ≠ owner && ¬refused st now)

def stores (s : StreamKey) (owner : Name) (json : List Byte) : Bool :=
  s.stream.any fun st => st.catalogJson ≠ json && (s.setCatalogJson owner json).2

def step (writerId : Nat → Name) (c : CatalogKey) (op : StreamOp) : CatalogKey where
  key := c.key.step writerId op
  reign :=
    match op with
    | .claim owner now => if newReign c.key owner now then c.reign + 1 else c.reign
    | _ => c.reign
  storedBy :=
    match op with
    | .setCatalog owner json => if stores c.key owner json then some (owner, c.reign) else c.storedBy
    | _ => c.storedBy
  served := (c.key.step writerId op).getCatalogJson <|> c.served

/-- **The catalog served is of the publisher there is**, stored since its claim. -/
def CatalogOwned (c : CatalogKey) : Prop :=
  ∀ st, c.key.stream = some st → st.catalogJson ≠ [] → st.publisherId ≠ [] ∧ c.storedBy = some (st.publisherId, c.reign)

/-- **The number goes up exactly when the string changes**, from the one served last to the one served now. -/
def RevMoves (c c' : CatalogKey) : Prop :=
  ∀ json rev json' rev', c.served = some (json, rev) → c'.key.getCatalogJson = some (json', rev') →
    (rev < rev' ↔ json ≠ json') ∧ (json = json' → rev = rev')

def NoCatalog (s : StreamKey) : Prop := ∀ st, s.stream = some st → st.catalogJson = []

/-- **The condition on a call**: no catalog is there when the publisher changes, or leaves and players stay, and none is
stored without a publisher. -/
def CatalogOk (c : CatalogKey) : StreamOp → Prop
  | .claim owner now => newReign c.key owner now = true → NoCatalog c.key
  | .removePublisher => ∀ st, c.key.stream = some st → st.writers ≠ [] → st.catalogJson = []
  | .release owner => c.key.isPublisherOwner owner = true →
    ∀ st, c.key.stream = some st → st.writers ≠ [] → st.catalogJson = []
  | .setCatalog _ json => ∀ st, c.key.stream = some st → json ≠ [] → st.publisherId ≠ []
  | _ => True

/-- **The condition on a call, for the number**: the first catalog of an entry is the first of the key, or the one served last
if that was an entry's first too. -/
def RevOk (c : CatalogKey) : StreamOp → Prop
  | .setCatalog owner json => ∀ st, c.key.stream = some st → json ≠ [] → st.publisherId = [] ∨ st.publisherId = owner →
    st.catalogJson = [] → ∀ last rev, c.served = some (last, rev) → last = json ∧ rev = 1
  | _ => True

theorem CatalogOwned.same {c c' : CatalogKey} (h : CatalogOwned c) (hr : c'.reign = c.reign) (hb : c'.storedBy = c.storedBy)
    (hk : ∀ st', c'.key.stream = some st' → st'.catalogJson = [] ∨ ∃ st, c.key.stream = some st ∧ st'.catalogJson =
    st.catalogJson ∧ st'.publisherId = st.publisherId) : CatalogOwned c' := by
  intro st' hst' hne
  rcases hk st' hst' with hnil | ⟨st, hst, hcat, hid⟩
  · exact absurd hnil hne
  · rw [hid, hb, hr]
    exact h st hst (hcat ▸ hne)

theorem players_catalog {s s' : StreamKey} (hp : PlayersOnly s s') {st' : MediaStream} (hst' : s'.stream = some st') :
    ∃ st, s.stream = some st ∧ st'.catalogJson = st.catalogJson ∧ st'.publisherId = st.publisherId ∧
    st'.catalogRev = st.catalogRev := by
  rcases hp.stream with ⟨hnone, -⟩ | ⟨st, ws, hst, heq⟩
  · rw [hnone] at hst'
    cases hst'
  · rw [heq] at hst'
    exact ⟨st, hst, by rw [← Option.some.inj hst'], by rw [← Option.some.inj hst'], by rw [← Option.some.inj hst']⟩

theorem published_catalog (s : StreamKey) : s.published.catalogJson = [] ∨ ∃ st, s.stream = some st ∧ s.published.catalogJson =
    st.catalogJson ∧ s.published.publisherId = st.publisherId ∧ s.published.catalogRev = st.catalogRev := by
  unfold published
  cases h : s.stream with
  | none => exact .inl rfl
  | some st => exact .inr ⟨st, rfl, rfl, rfl, rfl⟩

theorem removed_iff (c : CatalogKey) : CatalogOwned { c with key := c.key.removePublisher } ↔
    ∀ st, c.key.stream = some st → st.writers ≠ [] → st.catalogJson = [] := by
  unfold CatalogOwned removePublisher
  cases hst : c.key.stream with
  | none =>
    refine iff_of_true (fun st hst' => ?_) (fun st hst' => nomatch hst')
    dsimp only at hst'
    rw [hst] at hst'
    cases hst'
  | some st =>
    simp only [notify_stream, Option.some.injEq, forall_eq']
    split
    · rename_i hws
      exact iff_of_true (fun _ h' => nomatch h') fun hne => absurd hws hne
    · rename_i hws
      simp [entered, hws]

theorem claimed_iff (writerId : Nat → Name) (c : CatalogKey) (h : CatalogOwned c) (owner : Name) (now : Int) :
    CatalogOwned (c.step writerId (.claim owner now)) ↔ (newReign c.key owner now = true → NoCatalog c.key) := by
  have hkeep : ∀ {c' : CatalogKey} {st st' : MediaStream}, c'.key.stream = some st' →
      st'.catalogJson = st.catalogJson → st.catalogJson = [] → CatalogOwned c' := by
    intro c' st st' hst' hcat hnil st'' hst'' hne
    rw [hst'] at hst''
    rw [← Option.some.inj hst'', hcat] at hne
    exact absurd hnil hne
  unfold step newReign StreamKey.step claimPublisher NoCatalog
  cases hst : c.key.stream with
  | none =>
    refine iff_of_true (fun st hst' hne => ?_) (fun _ st hst' => nomatch hst')
    dsimp only at hst'
    rw [notify_stream] at hst'
    rw [← Option.some.inj hst'] at hne
    exact absurd rfl hne
  | some st =>
    dsimp only
    split
    · rename_i hid
      by_cases hnil : st.publisherId = []
      · have hcat : st.catalogJson = [] := by
          by_contra hne
          exact (h st hst hne).1 hnil
        refine iff_of_true (hkeep rfl rfl hcat) fun _ st' hst' => ?_
        rw [← Option.some.inj hst']
        exact hcat
      · have howner : st.publisherId = owner := hid.resolve_left hnil
        refine iff_of_true (h.same ?_ rfl fun st' hst' => .inr ⟨st, hst, ?_⟩) fun hn => ?_
        · simp [← howner, hnil]
        · rw [← Option.some.inj hst']
          exact ⟨rfl, howner.symm⟩
        · simp [← howner, hnil] at hn
    · rename_i hid
      obtain ⟨hnil, hother⟩ := not_or.1 hid
      split
      · rename_i hrefused
        refine iff_of_true (h.same (by simp [hnil, hrefused]) rfl fun st' hst' => .inr ⟨st, hst, ?_⟩) fun hn => ?_
        · rw [← Option.some.inj hst']
          unfold countTakeover
          split <;> exact ⟨rfl, rfl⟩
        · simp [hnil, hrefused] at hn
      · rename_i hrefused
        have hcount : (countTakeover st now).catalogJson = st.catalogJson := by
          unfold countTakeover
          split <;> rfl
        constructor
        · intro hafter _ st' hst'
          rw [← Option.some.inj hst']
          by_contra hne
          have hnew := (hafter _ rfl (by dsimp only; rw [hcount]; exact hne)).2
          have hold := (h st hst hne).2
          dsimp only at hnew
          rw [hold] at hnew
          simp [hother] at hnew
        · intro hno
          exact hkeep rfl hcount (hno (by simp [hother, hrefused]) st rfl)

theorem stored_iff (writerId : Nat → Name) (c : CatalogKey) (h : CatalogOwned c) (owner : Name) (json : List Byte) :
    CatalogOwned (c.step writerId (.setCatalog owner json)) ↔ ∀ st, c.key.stream = some st → json ≠ [] → st.publisherId ≠ [] := by
  unfold step stores StreamKey.step setCatalogJson
  cases hst : c.key.stream with
  | none => exact iff_of_true (h.same rfl rfl fun st' hst' => .inr ⟨st', hst', rfl, rfl⟩) (fun st hst' => nomatch hst')
  | some st =>
    have hsame : ∀ {last}, CatalogOwned ⟨c.key, c.reign, c.storedBy, last⟩ := h
    dsimp only
    by_cases hjson : json = []
    · simp only [hjson, if_true]
      exact iff_of_true (by simpa using hsame) (by simp)
    · simp only [hjson, if_false]
      by_cases hother : st.publisherId ≠ [] ∧ st.publisherId ≠ owner
      · rw [if_pos hother]
        refine iff_of_true (by simpa using hsame) fun st' hst' _ => ?_
        rw [← Option.some.inj hst']
        exact hother.1
      · rw [if_neg hother]
        by_cases heq : st.catalogJson = json
        · rw [if_pos heq]
          refine iff_of_true (by simpa [heq] using hsame) fun st' hst' _ => ?_
          rw [← Option.some.inj hst']
          exact (h st hst (by rw [heq]; exact hjson)).1
        · rw [if_neg heq]
          constructor
          · intro hafter st' hst' _
            rw [← Option.some.inj hst']
            exact (hafter _ rfl hjson).1
          · intro hid st' hst' hne
            have hid := hid st rfl hjson
            have howner : st.publisherId = owner := by
              by_contra hne'
              exact hother ⟨hid, hne'⟩
            rw [← Option.some.inj hst']
            exact ⟨hid, by simp [heq, howner]⟩

theorem step_owned_iff (writerId : Nat → Name) (c : CatalogKey) (op : StreamOp) (h : CatalogOwned c) :
    CatalogOwned (c.step writerId op) ↔ CatalogOk c op := by
  cases op with
  | addPlayer w fails =>
    refine iff_of_true (h.same rfl rfl fun st' hst' => ?_) trivial
    have hst' : (c.key.addPlayer writerId fails w).stream = some st' := hst'
    rcases addPlayer_spec writerId fails c.key w with ⟨-, heq⟩ | ⟨-, hp⟩
    · rw [heq] at hst'
      rw [← Option.some.inj hst']
      exact .inl rfl
    · obtain ⟨st, hst, hcat, hid, -⟩ := players_catalog hp hst'
      exact .inr ⟨st, hst, hcat, hid⟩
  | removePlayer w =>
    refine iff_of_true (h.same rfl rfl fun st' hst' => ?_) trivial
    obtain ⟨st, hst, hcat, hid, -⟩ := players_catalog (removePlayer_players writerId c.key w) hst'
    exact .inr ⟨st, hst, hcat, hid⟩
  | addPublisher =>
    refine iff_of_true (h.same rfl rfl fun st' hst' => ?_) trivial
    have hst' : c.key.addPublisher.stream = some st' := hst'
    rw [addPublisher_stream] at hst'
    rw [← Option.some.inj hst']
    exact (published_catalog c.key).imp_right fun ⟨st, hst, hcat, hid, _⟩ => ⟨st, hst, hcat, hid⟩
  | packet p fails =>
    refine iff_of_true (h.same rfl rfl fun st' hst' => ?_) trivial
    obtain ⟨ws, hst, -⟩ := writerMediaPacket_spec writerId fails c.key p
    have hst' : (c.key.writerMediaPacket writerId fails p).stream = some st' := hst'
    have hfed := fed_keeps c.key.published p
    rw [hst] at hst'
    rw [← Option.some.inj hst']
    dsimp only
    rw [hfed.2.2.2.1, hfed.2.1]
    exact (published_catalog c.key).imp_right fun ⟨st, hst, hcat, hid, _⟩ => ⟨st, hst, hcat, hid⟩
  | removePublisher => exact removed_iff c
  | claim owner now => exact claimed_iff writerId c h owner now
  | release owner =>
    change CatalogOwned { c with key := (c.key.releasePublisher owner).1 } ↔
      (c.key.isPublisherOwner owner = true → ∀ st, c.key.stream = some st → st.writers ≠ [] → st.catalogJson = [])
    rw [releasePublisher_eq]
    split
    · rename_i hown
      exact (removed_iff c).trans ⟨fun hr _ => hr, fun hr => hr hown⟩
    · rename_i hown
      exact iff_of_true h fun ht => absurd ht hown
  | setCatalog owner json => exact stored_iff writerId c h owner json

/-! ## The number -/

/-- What was served last is what is there, and a catalog that is not there has no number. -/
structure ServedLast (c : CatalogKey) : Prop where
  absent : ∀ st, c.key.stream = some st → st.catalogJson = [] → st.catalogRev = 0
  last : ∀ st, c.key.stream = some st → st.catalogJson ≠ [] → c.served = some (st.catalogJson, st.catalogRev)
  counted : ∀ json rev, c.served = some (json, rev) → 0 < rev

theorem getCatalogJson_of {s : StreamKey} {st : MediaStream} (h : s.stream = some st) (hne : st.catalogJson ≠ []) :
    s.getCatalogJson = some (st.catalogJson, st.catalogRev) := by
  unfold getCatalogJson
  simp only [h, if_neg hne]

theorem getCatalogJson_eq_some {s : StreamKey} {json : List Byte} {rev : Nat} (h : s.getCatalogJson = some (json, rev)) :
    ∃ st, s.stream = some st ∧ st.catalogJson = json ∧ st.catalogRev = rev ∧ json ≠ [] := by
  unfold getCatalogJson at h
  split at h
  · cases h
  · rename_i st hst
    split at h
    · cases h
    · rename_i hne
      cases h
      exact ⟨st, hst, rfl, rfl, hne⟩

theorem step_catalog (writerId : Nat → Name) (s : StreamKey) (op : StreamOp) (hop : ∀ owner json, op ≠ .setCatalog owner json)
    {st' : MediaStream} (hst' : (s.step writerId op).stream = some st') : (st'.catalogJson = [] ∧ st'.catalogRev = 0) ∨
    ∃ st, s.stream = some st ∧ st'.catalogJson = st.catalogJson ∧ st'.catalogRev = st.catalogRev := by
  obtain ⟨st, hst, hrests⟩ := step_entry writerId s op hst'
  obtain ⟨hcat, hrev⟩ := hrests.catalog hop
  rcases hst with hst | ⟨-, rfl⟩
  · exact .inr ⟨st, hst, hcat, hrev⟩
  · exact .inl ⟨hcat, hrev⟩

theorem ServedLast.kept {c c' : CatalogKey} (h : ServedLast c) (hserved : c'.served = (c'.key.getCatalogJson <|> c.served))
    (hk : ∀ st', c'.key.stream = some st' → (st'.catalogJson = [] ∧ st'.catalogRev = 0) ∨ ∃ st, c.key.stream = some st ∧
      st'.catalogJson = st.catalogJson ∧ st'.catalogRev = st.catalogRev) : ServedLast c' ∧ RevMoves c c' := by
  have hmoves : RevMoves c c' := by
    intro json rev json' rev' hlast hget
    obtain ⟨st', hst', rfl, rfl, hne⟩ := getCatalogJson_eq_some hget
    rcases hk st' hst' with ⟨hnil, -⟩ | ⟨st, hst, hcat, hrev⟩
    · exact absurd hnil hne
    · rw [h.last st hst (hcat ▸ hne), Option.some.injEq, Prod.mk.injEq] at hlast
      simp [hcat, hrev, ← hlast.1, ← hlast.2]
  refine ⟨⟨fun st' hst' hnil => ?_, fun st' hst' hne => ?_, fun json rev hlast => ?_⟩, hmoves⟩
  · rcases hk st' hst' with ⟨-, hrev⟩ | ⟨st, hst, hcat, hrev⟩
    · exact hrev
    · rw [hrev]
      exact h.absent st hst (hcat ▸ hnil)
  · rw [hserved, getCatalogJson_of hst' hne]
    rfl
  · rw [hserved] at hlast
    cases hget : c'.key.getCatalogJson with
    | none =>
      rw [hget] at hlast
      exact h.counted json rev hlast
    | some r =>
      rw [hget] at hlast
      cases hlast
      obtain ⟨st', hst', rfl, rfl, hne⟩ := getCatalogJson_eq_some hget
      rcases hk st' hst' with ⟨hnil, -⟩ | ⟨st, hst, hcat, hrev⟩
      · exact absurd hnil hne
      · exact h.counted _ _ (hrev ▸ h.last st hst (hcat ▸ hne))

theorem stored_rev (writerId : Nat → Name) {c : CatalogKey} (h : ServedLast c) {st : MediaStream} (hst : c.key.stream = some st)
    {owner : Name} {json : List Byte} (hjson : json ≠ []) (hown : st.publisherId = [] ∨ st.publisherId = owner)
    (hne : st.catalogJson ≠ json) : ServedLast (c.step writerId (.setCatalog owner json)) ∧ (RevMoves c (c.step writerId
    (.setCatalog owner json)) ↔ RevOk c (.setCatalog owner json)) := by
  have hstored : (c.step writerId (.setCatalog owner json)).key =
      c.key.entered { st with catalogJson := json, catalogRev := st.catalogRev + 1 } := by
    unfold CatalogKey.step StreamKey.step setCatalogJson
    simp only [hst]
    rw [if_neg hjson, if_neg (by tauto), if_neg hne]
  have hget : (c.step writerId (.setCatalog owner json)).key.getCatalogJson = some (json, st.catalogRev + 1) := by
    rw [hstored]
    have hst' : (c.key.entered { st with catalogJson := json, catalogRev := st.catalogRev + 1 }).stream =
        some { st with catalogJson := json, catalogRev := st.catalogRev + 1 } := rfl
    exact getCatalogJson_of hst' hjson
  have hserved : (c.step writerId (.setCatalog owner json)).served = some (json, st.catalogRev + 1) := by
    change ((c.step writerId (.setCatalog owner json)).key.getCatalogJson <|> c.served) = _
    rw [hget]
    rfl
  have hthere : ∀ st', (c.step writerId (.setCatalog owner json)).key.stream = some st' →
      st'.catalogJson = json ∧ st'.catalogRev = st.catalogRev + 1 := by
    intro st' hst'
    rw [hstored] at hst'
    rw [← Option.some.inj hst']
    exact ⟨rfl, rfl⟩
  refine ⟨⟨fun st' hst' hnil => ?_, fun st' hst' _ => ?_, fun last rev hlast => ?_⟩, ?_⟩
  · exact absurd ((hthere st' hst').1.symm.trans hnil) hjson
  · rw [hserved, (hthere st' hst').1, (hthere st' hst').2]
  · rw [hserved] at hlast
    cases hlast
    omega
  by_cases hnil : st.catalogJson = []
  · -- the first of the entry, with the number 1
    rw [h.absent st hst hnil] at hget
    constructor
    · intro hmoves _ _ _ _ _ last rev hlast
      have hmove := hmoves last rev json 1 hlast hget
      have hcount := h.counted last rev hlast
      have heq : last = json := by
        by_contra hother
        have := hmove.1.2 hother
        omega
      exact ⟨heq, hmove.2 heq⟩
    · intro hok last rev json' rev' hlast hget'
      have hfirst := hok st hst hjson hown hnil last rev hlast
      rw [hget, Option.some.injEq, Prod.mk.injEq] at hget'
      simp [← hget'.1, ← hget'.2, hfirst.1, hfirst.2]
  · refine iff_of_true (fun last rev json' rev' hlast hget' => ?_) fun st' hst' _ _ hnil' => ?_
    · rw [h.last st hst hnil, Option.some.injEq, Prod.mk.injEq] at hlast
      rw [hget, Option.some.injEq, Prod.mk.injEq] at hget'
      simp [← hget'.1, ← hget'.2, ← hlast.1, ← hlast.2, hne]
    · rw [hst] at hst'
      rw [← Option.some.inj hst'] at hnil'
      exact absurd hnil' hnil

theorem step_rev (writerId : Nat → Name) (c : CatalogKey) (op : StreamOp) (h : ServedLast c) :
    ServedLast (c.step writerId op) ∧ (RevMoves c (c.step writerId op) ↔ RevOk c op) := by
  by_cases hop : ∀ owner json, op ≠ .setCatalog owner json
  · have hserved : (c.step writerId op).served = ((c.step writerId op).key.getCatalogJson <|> c.served) := rfl
    have hkept := h.kept hserved fun st' hst' => step_catalog writerId c.key op hop hst'
    refine ⟨hkept.1, iff_of_true hkept.2 ?_⟩
    cases op with
    | setCatalog owner json => exact absurd rfl (hop owner json)
    | _ => trivial
  · push Not at hop
    obtain ⟨owner, json, rfl⟩ := hop
    have hsame : (c.key.setCatalogJson owner json).1 = c.key →
        ServedLast (c.step writerId (.setCatalog owner json)) ∧ RevMoves c (c.step writerId (.setCatalog owner json)) := by
      intro heq
      refine h.kept rfl fun st' hst' => .inr ⟨st', ?_, rfl, rfl⟩
      have hst' : (c.key.setCatalogJson owner json).1.stream = some st' := hst'
      rw [heq] at hst'
      exact hst'
    cases hst : c.key.stream with
    | none =>
      have hkept := hsame (by simp [setCatalogJson, hst])
      exact ⟨hkept.1, iff_of_true hkept.2 fun st hst' => by simp [hst] at hst'⟩
    | some st =>
      by_cases hcut : json = [] ∨ (st.publisherId ≠ [] ∧ st.publisherId ≠ owner) ∨ st.catalogJson = json
      · have hkept := hsame (by unfold setCatalogJson; simp only [hst]; split_ifs <;> tauto)
        refine ⟨hkept.1, iff_of_true hkept.2 fun st' hst' hjson hown hnil => ?_⟩
        rw [hst] at hst'
        rw [← Option.some.inj hst'] at hown hnil
        rcases hcut with hcut | hcut | hcut
        · exact absurd hcut hjson
        · tauto
        · exact absurd (hcut.symm.trans hnil) hjson
      · push Not at hcut
        obtain ⟨hjson, hown, hne⟩ := hcut
        exact stored_rev writerId h hst hjson (by tauto) hne

end CatalogKey

open CatalogKey

/-- **The catalog served is the publisher's own, and its number moves with it**, exactly in the runs each of whose calls meets
the conditions. -/
theorem catalog_owned_iff (writerId : Nat → Name) (key : Name) (ops : List StreamOp) : StepsOk (CatalogKey.step writerId)
        (fun c op => CatalogOwned (c.step writerId op) ∧ RevMoves c (c.step writerId op)) { key := { key := key } } ops ↔
      StepsOk (CatalogKey.step writerId) (fun c op => CatalogOk c op ∧ RevOk c op) { key := { key := key } } ops := by
  refine stepsOk_congr _ (fun c => CatalogOwned c ∧ ServedLast c) (fun c op h => ?_) (fun c op h hok => ?_) ops _ ?_
  · exact and_congr (step_owned_iff writerId c op h.1) (step_rev writerId c op h.2).2
  · exact ⟨hok.1, (step_rev writerId c op h.2).1⟩
  · refine ⟨fun st hst => ?_, fun st hst => ?_, fun st hst => ?_, fun json rev hlast => ?_⟩
    · cases hst
    · cases hst
    · cases hst
    · cases hlast

/-- **A take-over leaves the catalog of the displaced publisher to be served.** -/
theorem stale_catalog : ¬StepsOk (CatalogKey.step fun _ => [])
      (fun c op => CatalogOwned (c.step (fun _ => []) op) ∧ RevMoves c (c.step (fun _ => []) op)) { key := { key := ['k'] } }
      [.claim ['a'] 1, .setCatalog ['a'] [0x7b#8, 0x7d#8], .claim ['b'] 2] := by
  rintro ⟨-, -, ⟨howned, -⟩, -⟩
  exact absurd (howned _ rfl (by decide)).2 (by decide)

end MoqLiveCast
