import MoqLiveCast.Media.StreamManager
/-!
# ServeTrack — the name a stream is announced under, and the stream a name is served from

A key below the routed path is announced without it; a name is looked up as it is, and then below the path.  A name that is
also a key is served from that key, whoever announced it (`direct_key_first`).
-/
namespace MoqLiveCast

abbrev MediaStreams := List (Name × MediaStream)

def listPublisherKeys (ms : MediaStreams) : List Name := (ms.filter fun e => e.2.publisherExist).map (·.1)

def catalogOf (ms : MediaStreams) (key : Name) : Option (List Byte) :=
  match ms.find? fun e => e.1 = key with
  | none => none
  | some e => if e.2.catalogJson = [] then none else some e.2.catalogJson

def announceWireOf (routed key : Name) : Name :=
  if routed ≠ [] ∧ (routed ++ ['/']).length < key.length ∧ key.take (routed ++ ['/']).length = routed ++ ['/'] then
    key.drop (routed ++ ['/']).length
  else key

def kFallbackApp : Name := "moqlite".toList

def kCatalogTrack : Name := "catalog.json".toList

/-- The section of the catalog that names the track, or the catalog itself. -/
inductive ServeKind where
  | catalog | video | audio
deriving DecidableEq

def serveApp (routed : Name) : Name := if routed = [] then kFallbackApp else routed

def serveKey (routed : Name) (ms : MediaStreams) (broadcast : Name) : Option (Name × List Byte) :=
  (if '/' ∈ broadcast then (catalogOf ms broadcast).map (broadcast, ·) else none) <|>
    (catalogOf ms (serveApp routed ++ '/' :: broadcast)).map (serveApp routed ++ '/' :: broadcast, ·)

def resolveServeTrack (kindOf : List Byte → Name → Option ServeKind) (routed : Name) (ms : MediaStreams)
    (broadcast track : Name) : Option (Name × ServeKind) :=
  if broadcast = [] ∨ track = [] then none
  else
    match serveKey routed ms broadcast with
    | none => none
    | some (key, json) => if track = kCatalogTrack then some (key, .catalog) else (kindOf json track).map (key, ·)

/-- The keys `AnnounceGrid` announces: of a publisher, with a name and a catalog. -/
def announcedKeys (routed : Name) (ms : MediaStreams) : List Name :=
  (listPublisherKeys ms).filter fun key => announceWireOf routed key ≠ [] && (catalogOf ms key).isSome

/-- **The name the key is announced under is served from the key**: its catalog, and any track of it. -/
structure Served (kindOf : List Byte → Name → Option ServeKind) (routed : Name) (ms : MediaStreams) (key : Name) : Prop where
  catalog : resolveServeTrack kindOf routed ms (announceWireOf routed key) kCatalogTrack = some (key, .catalog)
  track : ∀ track key' kind, resolveServeTrack kindOf routed ms (announceWireOf routed key) track = some (key', kind) → key' = key

/-- **The condition on a key**: it has a slash if it is announced as it is, and without the routed path it is no key with a
slash and a catalog. -/
def NameOk (routed : Name) (ms : MediaStreams) (key : Name) : Prop :=
  if announceWireOf routed key = key then '/' ∈ key
  else '/' ∈ announceWireOf routed key → catalogOf ms (announceWireOf routed key) = none

theorem announceWireOf_cases (routed key : Name) : announceWireOf routed key = key ∨
    (announceWireOf routed key ≠ key ∧ serveApp routed ++ '/' :: announceWireOf routed key = key) := by
  unfold announceWireOf
  split
  · rename_i h
    obtain ⟨hne, hlt, htake⟩ := h
    refine .inr ⟨fun heq => ?_, ?_⟩
    · have hlen := congrArg List.length heq
      simp only [List.length_drop, List.length_append, List.length_singleton] at hlen hlt
      omega
    · unfold serveApp
      rw [if_neg hne]
      have happ := List.take_append_drop (routed ++ ['/']).length key
      rw [htake, List.append_assoc] at happ
      exact happ
  · exact .inl rfl

theorem served_iff (kindOf : List Byte → Name → Option ServeKind) {routed : Name} {ms : MediaStreams} {key : Name}
    (hname : announceWireOf routed key ≠ []) : Served kindOf routed ms key ↔ ∃ json, serveKey routed ms (announceWireOf routed
    key) = some (key, json) := by
  have hresolve : ∀ track, track ≠ [] → resolveServeTrack kindOf routed ms (announceWireOf routed key) track =
      match serveKey routed ms (announceWireOf routed key) with
      | none => none
      | some (key, json) => if track = kCatalogTrack then some (key, .catalog) else (kindOf json track).map (key, ·) := by
    intro track htrack
    unfold resolveServeTrack
    rw [if_neg (not_or.2 ⟨hname, htrack⟩)]
  constructor
  · intro h
    have hcat := h.catalog
    rw [hresolve _ (by decide)] at hcat
    split at hcat
    · cases hcat
    · rename_i key' json hkey
      rw [if_pos rfl, Option.some.injEq, Prod.mk.injEq] at hcat
      exact ⟨json, by rw [hkey, hcat.1]⟩
  · rintro ⟨json, hkey⟩
    refine ⟨?_, fun track key' kind htrack => ?_⟩
    · rw [hresolve _ (by decide), hkey]
      exact if_pos rfl
    · have hne : track ≠ [] := by
        rintro rfl
        simp [resolveServeTrack] at htrack
      rw [hresolve track hne, hkey] at htrack
      dsimp only at htrack
      split at htrack
      · cases htrack
        rfl
      · obtain ⟨kind', -, heq⟩ := Option.map_eq_some_iff.1 htrack
        cases heq
        rfl

theorem serveKey_iff {routed : Name} {ms : MediaStreams} {key : Name} (hcat : catalogOf ms key ≠ none) :
    (∃ json, serveKey routed ms (announceWireOf routed key) = some (key, json)) ↔ NameOk routed ms key := by
  obtain ⟨json, hjson⟩ := Option.ne_none_iff_exists'.1 hcat
  have hlonger : ∀ app : Name, app ++ '/' :: key ≠ key := by
    intro app heq
    have hlen := congrArg List.length heq
    simp only [List.length_append, List.length_cons] at hlen
    omega
  unfold NameOk serveKey
  rcases announceWireOf_cases routed key with hsame | ⟨hcut, hback⟩
  · rw [hsame, if_pos rfl]
    by_cases hslash : '/' ∈ key
    · simp [hslash, hjson]
    · refine iff_of_false ?_ hslash
      rintro ⟨json', heq⟩
      rw [if_neg hslash] at heq
      obtain ⟨json'', -, heq⟩ := Option.map_eq_some_iff.1 heq
      exact hlonger _ (congrArg Prod.fst heq)
  · rw [if_neg hcut, hback, hjson]
    by_cases hslash : '/' ∈ announceWireOf routed key
    · cases hdirect : catalogOf ms (announceWireOf routed key) with
      | none => simp [hslash]
      | some json' => simp [hslash, hcut]
    · simp [hslash]

/-- **What is announced is what is served**: for a key exactly when it meets the condition, and no two keys have one name where
all do. -/
theorem announced_served (kindOf : List Byte → Name → Option ServeKind) (routed : Name) (ms : MediaStreams) :
    (∀ key ∈ announcedKeys routed ms, Served kindOf routed ms key ↔ NameOk routed ms key) ∧ ((∀ key ∈ announcedKeys routed ms,
    NameOk routed ms key) → ∀ key ∈ announcedKeys routed ms, ∀ key' ∈ announcedKeys routed ms, announceWireOf routed key =
    announceWireOf routed key' → key = key') := by
  have hiff : ∀ key ∈ announcedKeys routed ms, Served kindOf routed ms key ↔ NameOk routed ms key := by
    intro key hkey
    have hannounced := (List.mem_filter.1 hkey).2
    rw [Bool.and_eq_true, decide_eq_true_eq, Option.isSome_iff_ne_none] at hannounced
    exact (served_iff kindOf hannounced.1).trans (serveKey_iff hannounced.2)
  refine ⟨hiff, fun hall key hkey key' hkey' heq => ?_⟩
  have h := ((hiff key hkey).2 (hall key hkey)).catalog
  have h' := ((hiff key' hkey').2 (hall key' hkey')).catalog
  rw [heq, h', Option.some.injEq, Prod.mk.injEq] at h
  exact h.1.symm

/-- Two keys that have a catalog and a publisher: the second is the first below the path. -/
def directAndRouted : MediaStreams :=
  [("live/s".toList, { publisherExist := true, catalogJson := [1#8] }),
    ("anon/live/s".toList, { publisherExist := true, catalogJson := [2#8] })]

/-- **The direct key is first**: two keys have one name, and it is served from the one that is that name. -/
theorem direct_key_first :
    ¬∀ key ∈ announcedKeys "anon".toList directAndRouted, Served (fun _ _ => none) "anon".toList directAndRouted key := by
  intro h
  exact absurd (h "anon/live/s".toList (by decide)).catalog (by decide)

end MoqLiveCast
