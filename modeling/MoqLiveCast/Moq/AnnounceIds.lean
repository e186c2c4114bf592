import MoqLiveCast.Lib.Run
import MoqLiveCast.Moq.Announce
/-!
# AnnounceIds — when both ends agree on the numbers

A number is kept with its ANNOUNCE_START, and each message that is refused is to be left out at both ends. An answer
that is refused is not left out here, so its broadcasts end at the other end though they never started
(`refused_answer_ends`); a broadcast whose end was refused starts a second time.
-/
namespace MoqLiveCast

open List

namespace AnnounceStream

/-- **The condition on a message the transport takes**: no broadcast starts whose end was refused on the stream or that has the
path of another there, and none ends on a stream whose answer was refused. -/
structure PushOk (a : AnnounceStream) (wire : Name) (added : Bool) : Prop where
  start : added = true → (∀ i ∈ a.ids, i.1 ≠ wire) → ∀ suffix, announceSuffixOf wire a.scope = some suffix →
    suffix ∉ a.lost ∧ ∀ i ∈ a.ids, announceSuffixOf i.1 a.scope ≠ some suffix
  finish : added = false → (∃ i ∈ a.ids, i.1 = wire) → a.unsent = false

structure Told (a : AnnounceStream) (r : Routes) : Prop where
  heard : a.sent.foldlM hear [] = some r
  suffix : ∀ i ∈ a.ids, ∃ suffix, announceSuffixOf i.1 a.scope = some suffix ∧ (a.unsent = false → r[i.2]? = some (some suffix))
  next : a.unsent = false → a.nextId = r.length
  below : ∀ i ∈ a.ids, i.2 < a.nextId
  once : (a.ids.map (·.2)).Nodup
  active : ∀ suffix, some suffix ∈ r → suffix ∈ a.lost ∨ ∃ i ∈ a.ids, announceSuffixOf i.1 a.scope = some suffix
  single : ∀ (m n : Nat) (suffix : Name), r[m]? = some (some suffix) → r[n]? = some (some suffix) → m = n

variable {a : AnnounceStream} {r : Routes}

theorem Told.agreed (h : Told a r) : Agreed a := by
  unfold Agreed
  rw [h.heard]
  rfl

theorem heard_append {ms : List AnnounceMsg} (h : ms.foldlM hear [] = some r) (m : AnnounceMsg) :
    (ms ++ [m]).foldlM hear [] = hear r m := by
  rw [foldlM_append, h]
  simp

theorem single_append {suffix : Name} (hnot : some suffix ∉ r)
    (h : ∀ (m n : Nat) (s : Name), r[m]? = some (some s) → r[n]? = some (some s) → m = n) (m n : Nat) (s : Name)
    (hm : (r ++ [some suffix])[m]? = some (some s)) (hn : (r ++ [some suffix])[n]? = some (some s)) : m = n := by
  have hplace : ∀ k, (r ++ [some suffix])[k]? = some (some s) →
      (k < r.length ∧ r[k]? = some (some s)) ∨ (k = r.length ∧ s = suffix) := by
    intro k hk
    rw [List.getElem?_append] at hk
    split at hk
    · rename_i hlt
      exact .inl ⟨hlt, hk⟩
    · rename_i hle
      have hzero : k - r.length = 0 := by
        have := (List.getElem?_eq_some_iff.1 hk).1
        simpa using this
      rw [hzero] at hk
      exact .inr ⟨by omega, by simpa using hk.symm⟩
  rcases hplace m hm with ⟨-, hm'⟩ | ⟨hm', rfl⟩
  · rcases hplace n hn with ⟨-, hn'⟩ | ⟨-, rfl⟩
    · exact h m n s hm' hn'
    · exact absurd (mem_of_getElem? hm') hnot
  · rcases hplace n hn with ⟨-, hn'⟩ | ⟨hn', -⟩
    · exact absurd (mem_of_getElem? hn') hnot
    · exact hm'.trans hn'.symm

theorem Told.start (h : Told a r) {wire suffix : Name}
    (hsuffix : announceSuffixOf wire a.scope = some suffix) (hlost : suffix ∉ a.lost)
    (hother : ∀ i ∈ a.ids, announceSuffixOf i.1 a.scope ≠ some suffix) :
    Told { a with ids := a.ids ++ [(wire, a.nextId)], nextId := a.nextId + 1, sent := a.sent ++ [.start suffix] }
      (r ++ [some suffix]) := by
  have hthere : some suffix ∉ r := by
    intro hmem
    rcases h.active suffix hmem with hl | ⟨i, hi, heq⟩
    · exact hlost hl
    · exact hother i hi heq
  refine ⟨?_, fun i hi => ?_, fun hsent => ?_, fun i hi => ?_, ?_, fun s hs => ?_, single_append hthere h.single⟩
  · rw [heard_append h.heard]
    simp [hear, hthere]
  · rcases List.mem_append.1 hi with hi | hi
    · obtain ⟨s, hs, hplace⟩ := h.suffix i hi
      refine ⟨s, hs, fun hsent => ?_⟩
      rw [List.getElem?_append_left (List.getElem?_eq_some_iff.1 (hplace hsent)).1]
      exact hplace hsent
    · rw [List.mem_singleton.1 hi]
      refine ⟨suffix, hsuffix, fun hsent => ?_⟩
      dsimp only
      rw [h.next hsent, List.getElem?_append_right (Nat.le_refl _), Nat.sub_self]
      rfl
  · simp [h.next hsent]
  · rcases List.mem_append.1 hi with hi | hi
    · exact Nat.lt_succ_of_lt (h.below i hi)
    · rw [List.mem_singleton.1 hi]
      exact Nat.lt_succ_self _
  · rw [map_append, map_singleton]
    refine List.nodup_append.2 ⟨h.once, nodup_singleton _, fun m hm n hn heq => ?_⟩
    obtain ⟨i, hi, rfl⟩ := List.mem_map.1 hm
    rw [List.mem_singleton.1 hn] at heq
    have := h.below i hi
    omega
  · rcases List.mem_append.1 hs with hs | hs
    · rcases h.active s hs with hl | ⟨i, hi, heq⟩
      · exact .inl hl
      · exact .inr ⟨i, mem_append_left _ hi, heq⟩
    · rw [mem_singleton, Option.some.injEq] at hs
      exact .inr ⟨(wire, a.nextId), by simp, by rw [hs]; exact hsuffix⟩

theorem Told.giveUp (h : Told a r) (wire : Name) :
    (∀ i ∈ a.ids.filter fun i => i.1 ≠ wire, i.2 < a.nextId) ∧ ((a.ids.filter fun i => i.1 ≠ wire).map (·.2)).Nodup :=
  ⟨fun i hi => h.below i (List.mem_filter.1 hi).1, (List.filter_sublist.map _).nodup h.once⟩

theorem Told.finish (h : Told a r) (hsent : a.unsent = false) {wire suffix : Name} {id : Nat}
    (hmem : (wire, id) ∈ a.ids) (hsuffix : announceSuffixOf wire a.scope = some suffix) :
    Told { a with ids := a.ids.filter fun i => i.1 ≠ wire, sent := a.sent ++ [.finish suffix id] } (r.set id none) := by
  obtain ⟨s, hs, hplace⟩ := h.suffix _ hmem
  have hplace : r[id]? = some (some suffix) := by
    rw [hsuffix] at hs
    rw [Option.some.inj hs]
    exact hplace hsent
  obtain ⟨hbelow, honce⟩ := h.giveUp wire
  have hids : ∀ i ∈ a.ids.filter (fun i => i.1 ≠ wire), i ∈ a.ids ∧ i.2 ≠ id := by
    intro i hi
    obtain ⟨hi, hne⟩ := List.mem_filter.1 hi
    refine ⟨hi, fun heq => ?_⟩
    have := inj_on_of_nodup_map h.once hi hmem heq
    simp [this] at hne
  have hset : ∀ (n : Nat) (s : Name), (r.set id none)[n]? = some (some s) → n ≠ id ∧ r[n]? = some (some s) := by
    intro n s hn
    rw [List.getElem?_set] at hn
    split at hn
    · split at hn <;> simp at hn
    · rename_i hne
      exact ⟨fun heq => hne heq.symm, hn⟩
  refine ⟨?_, fun i hi => ?_, fun _ => ?_, hbelow, honce, fun s hs => ?_, fun m n s hm hn => ?_⟩
  · rw [heard_append h.heard]
    simp [hear, hplace]
  · obtain ⟨hi, hne⟩ := hids i hi
    obtain ⟨s, hs, hp⟩ := h.suffix i hi
    refine ⟨s, hs, fun _ => ?_⟩
    rw [List.getElem?_set_ne fun heq => hne heq.symm]
    exact hp hsent
  · simp [h.next hsent]
  · obtain ⟨n, hn⟩ := mem_iff_getElem?.1 hs
    obtain ⟨hne, hn⟩ := hset n s hn
    rcases h.active s (mem_of_getElem? hn) with hl | ⟨i, hi, heq⟩
    · exact .inl hl
    · refine .inr ⟨i, List.mem_filter.2 ⟨hi, ?_⟩, heq⟩
      -- the one that ends was there under its number only
      have hwire : i.1 ≠ wire := by
        intro hw
        rw [hw, hsuffix] at heq
        rw [← Option.some.inj heq] at hn
        exact hne (h.single n id suffix hn hplace)
      simpa using hwire
  · exact h.single m n s (hset m s hm).2 (hset n s hn).2

theorem Told.refused {a : AnnounceStream} {r : Routes} (h : Told a r) {wire suffix : Name}
    (hsuffix : announceSuffixOf wire a.scope = some suffix) :
    Told { a with ids := a.ids.filter fun i => i.1 ≠ wire, lost := a.lost ++ [suffix] } r := by
  obtain ⟨hbelow, honce⟩ := h.giveUp wire
  refine ⟨h.heard, fun i hi => h.suffix i (List.mem_filter.1 hi).1, h.next, hbelow, honce, fun s hs => ?_, h.single⟩
  rcases h.active s hs with hl | ⟨i, hi, heq⟩
  · exact .inl (mem_append_left _ hl)
  · by_cases hw : i.1 = wire
    · rw [hw, hsuffix] at heq
      exact .inl (by simp [← Option.some.inj heq])
    · exact .inr ⟨i, List.mem_filter.2 ⟨hi, by simpa using hw⟩, heq⟩

theorem Told.push (h : Told a r) (wire : Name) (added taken : Bool)
    (hok : taken = true → PushOk a wire added) : ∃ r', Told (a.push wire added taken) r' := by
  unfold AnnounceStream.push
  cases added with
  | true =>
    rw [if_pos rfl]
    split
    · exact ⟨r, h⟩
    · rename_i hnew
      have hnew : ∀ i ∈ a.ids, i.1 ≠ wire := by
        intro i hi hw
        exact hnew (List.any_eq_true.2 ⟨i, hi, by simpa using hw⟩)
      split
      · exact ⟨r, h⟩
      · rename_i suffix hsuffix
        split
        · rename_i htaken
          have hok := (hok (Bool.and_eq_true_iff.1 htaken).2).start rfl hnew suffix hsuffix
          exact ⟨_, h.start hsuffix hok.1 hok.2⟩
        · exact ⟨r, h⟩
  | false =>
    rw [if_neg Bool.false_ne_true]
    split
    · exact ⟨r, h⟩
    · rename_i i hfind
      have hmem := List.mem_of_find?_eq_some hfind
      have hwire : i.1 = wire := by simpa using List.find?_some hfind
      obtain ⟨suffix, hsuffix, -⟩ := h.suffix i hmem
      rw [hwire] at hsuffix
      dsimp only
      rw [hsuffix, Option.getD_some]
      split
      · exact ⟨r, h⟩
      · split
        · rename_i htaken
          have hsent := (hok htaken).finish rfl ⟨i, hmem, hwire⟩
          have hkept : (wire, i.2) ∈ a.ids := hwire ▸ hmem
          exact ⟨_, h.finish hsent hkept hsuffix⟩
        · exact ⟨r, h.refused hsuffix⟩

theorem heard_starts : ∀ (ss : List Name) (r : Routes), ss.Nodup → (∀ s ∈ ss, some s ∉ r) →
    (ss.map AnnounceMsg.start).foldlM hear r = some (r ++ ss.map some)
  | [], r, _, _ => by simp
  | s :: ss, r, hnd, hnot => by
    obtain ⟨hs, hnd⟩ := List.nodup_cons.1 hnd
    have hrest := heard_starts ss (r ++ [some s]) hnd fun s' hs' hmem => by
      rcases List.mem_append.1 hmem with hmem | hmem
      · exact hnot s' (mem_cons_of_mem _ hs') hmem
      · rw [mem_singleton, Option.some.injEq] at hmem
        exact hs (hmem ▸ hs')
    have hfirst : hear r (.start s) = some (r ++ [some s]) := if_neg (hnot s mem_cons_self)
    rw [map_cons, foldlM_cons, hfirst]
    refine hrest.trans ?_
    simp

/-- **The condition on a request**: no two broadcasts of an answer the transport takes have one path. -/
def GridOk (scope : Name) (wires : List Name) (taken : Bool) : Prop :=
  taken = true → ((gridItems scope wires).map (·.2)).Nodup

theorem gridItems_suffix {scope : Name} {wires : List Name} {i : Name × Name} (hi : i ∈ gridItems scope wires) :
    announceSuffixOf i.1 scope = some i.2 := by
  unfold gridItems at hi
  obtain ⟨wire, -, heq⟩ := List.mem_filterMap.1 hi
  obtain ⟨s, hs, rfl⟩ := Option.map_eq_some_iff.1 heq
  exact hs

theorem told_grid {sid : Nat} {scope : Name} {wires : List Name} {taken : Bool} (hok : GridOk scope wires taken) (ha : announceGrid sid scope wires taken = some a) : ∃ r, Told a r := by
  unfold announceGrid at ha
  dsimp only at ha
  split at ha
  · cases ha
    have hids : ∀ i ∈ (gridItems scope wires).zipIdx.map (fun i => (i.1.1, i.2)),
        ∃ item, (gridItems scope wires)[i.2]? = some item ∧ item.1 = i.1 := by
      intro i hi
      obtain ⟨⟨item, n⟩, hmem, rfl⟩ := List.mem_map.1 hi
      exact ⟨item, List.mem_zipIdx_iff_getElem?.1 hmem, rfl⟩
    have honce : (((gridItems scope wires).zipIdx.map fun i => (i.1.1, i.2)).map (·.2)).Nodup := by
      rw [map_map]
      have heq : ((fun i : Name × Nat => i.2) ∘ fun i : (Name × Name) × Nat => (i.1.1, i.2)) = Prod.snd := rfl
      rw [heq, zipIdx_map_snd]
      exact nodup_range'
    have hbelow : ∀ i ∈ (gridItems scope wires).zipIdx.map (fun i => (i.1.1, i.2)), i.2 < (gridItems scope wires).length := by
      intro i hi
      obtain ⟨item, hitem, -⟩ := hids i hi
      exact (List.getElem?_eq_some_iff.1 hitem).1
    cases taken with
    | true =>
      have hnodup := hok rfl
      refine ⟨(gridItems scope wires).map fun i => some i.2, ?_, fun i hi => ?_, fun _ => ?_, hbelow, honce, fun s hs => ?_,
        fun m n s hm hn => ?_⟩
      · have hstarts := heard_starts ((gridItems scope wires).map (·.2)) [] hnodup (by simp)
        rw [map_map, map_map] at hstarts
        exact hstarts
      · obtain ⟨item, hitem, hwire⟩ := hids i hi
        refine ⟨item.2, ?_, fun _ => ?_⟩
        · rw [← hwire]
          exact gridItems_suffix (mem_of_getElem? hitem)
        · rw [List.getElem?_map, hitem]
          rfl
      · simp
      · obtain ⟨item, hmem, heq⟩ := List.mem_map.1 hs
        obtain ⟨n, hn⟩ := mem_iff_getElem?.1 hmem
        refine .inr ⟨(item.1, n), List.mem_map.2 ⟨(item, n), List.mem_zipIdx_iff_getElem?.2 hn, rfl⟩, ?_⟩
        rw [← Option.some.inj heq]
        exact gridItems_suffix hmem
      · have hplace : ∀ k : Nat, ((gridItems scope wires).map fun i => some i.2)[k]? = some (some s) →
            ((gridItems scope wires).map (·.2))[k]? = some s := by
          intro k hk
          rw [List.getElem?_map] at hk ⊢
          obtain ⟨item, hitem, heq⟩ := Option.map_eq_some_iff.1 hk
          rw [hitem, ← Option.some.inj heq]
          rfl
        exact (List.getElem?_inj (List.getElem?_eq_some_iff.1 (hplace m hm)).1 hnodup).1 ((hplace m hm).trans (hplace n hn).symm)
    | false =>
      refine ⟨[], rfl, fun i hi => ?_, fun hsent => ?_, hbelow, honce, (fun s hs => nomatch hs),
        fun m n s hm => by simp at hm⟩
      · obtain ⟨item, hitem, hwire⟩ := hids i hi
        refine ⟨item.2, ?_, fun hsent => ?_⟩
        · rw [← hwire]
          exact gridItems_suffix (mem_of_getElem? hitem)
        · have hnil : gridItems scope wires = [] := by simpa using hsent
          rw [hnil] at hitem
          simp at hitem
      · have hnil : gridItems scope wires = [] := by simpa using hsent
        simp [hnil]
  · cases ha

end AnnounceStream

open AnnounceStream

namespace Announcer

def AnnounceOk (s : Announcer) : AnnounceOp → Prop
  | .request sid scope wires taken => sid ∉ s.asked → GridOk scope wires taken
  | .broadcast wire added taken => wire ≠ [] → ∀ a ∈ s.streams, taken a.sid = true → PushOk a wire added

theorem told_step {s : Announcer} (h : ∀ a ∈ s.streams, ∃ r, Told a r) (op : AnnounceOp) (hok : AnnounceOk s op) :
    ∀ a ∈ (s.step op).streams, ∃ r, Told a r := by
  cases op with
  | request sid scope wires taken =>
    unfold Announcer.step
    dsimp only
    split
    · exact h
    · rename_i hnew
      intro a ha
      rcases List.mem_append.1 ha with ha | ha
      · exact h a ha
      · exact told_grid (hok hnew) (Option.mem_toList.1 ha)
  | broadcast wire added taken =>
    unfold Announcer.step
    dsimp only
    split
    · exact h
    · rename_i hne
      intro a ha
      obtain ⟨a0, ha0, rfl⟩ := List.mem_map.1 ha
      obtain ⟨r, hr⟩ := h a0 ha0
      exact hr.push wire added _ (hok hne a0 ha0)

end Announcer

open Announcer

/-- A broadcast comes and another goes on a stream whose request was answered. -/
def comingAndGoing : List AnnounceOp :=
  [.request 4 [] [['a']] true, .broadcast ['b'] true fun _ => true, .broadcast ['a'] false fun _ => true]

end MoqLiveCast
