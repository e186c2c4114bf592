import MoqLiveCast.Moq.LiteCuts
/-!
# SetupGrammar — what a SETUP of the peer has to be (`ParseSetupStream`, `OnSetupParam`)

A SETUP is a list of parameters, as many as it says, each with its length before it, and none twice. A session that gets
one is routed, and is closed else (`readSetup_iff`).
-/
namespace MoqLiveCast

open List

/-! ## The grammar -/

/-- All of `w` is the varint `n`, in any of its lengths. -/
def IsVarint (w : List Byte) (n : Nat) : Prop := quicVarintDecode w = some (n, w.length)

instance (w : List Byte) (n : Nat) : Decidable (IsVarint w n) := inferInstanceAs (Decidable (_ = _))

/-- Parameters, each with its id, the length of its value, and the value. -/
inductive IsParams : List Byte → List (BitVec 64 × List Byte) → Prop
  | nil : IsParams [] []
  | cons {wi wl val bs : List Byte} {id : BitVec 64} {ps : List (BitVec 64 × List Byte)} (hid : IsVarint wi id.toNat)
      (hlen : IsVarint wl val.length) (rest : IsParams bs ps) : IsParams (wi ++ (wl ++ (val ++ bs))) ((id, val) :: ps)

/-- The message behind its length: how many parameters there are, and they, and nothing more; no id is there twice. -/
def IsSetup (body : List Byte) (ps : List (BitVec 64 × List Byte)) : Prop :=
  ∃ wc bs, body = wc ++ bs ∧ IsVarint wc ps.length ∧ IsParams bs ps ∧ (ps.map (·.1)).Nodup

def SetupAt (b : List Byte) (ps : List (BitVec 64 × List Byte)) : Prop :=
  ∃ wl body rest, b = wl ++ (body ++ rest) ∧ IsVarint wl body.length ∧ IsSetup body ps

/-- The value of a parameter that is known: a path is a string and no more, the others begin with a varint. -/
def ValueOk (p : BitVec 64 × List Byte) : Prop :=
  (p.1 = kParamPath → ∃ wl s, p.2 = wl ++ s ∧ IsVarint wl s.length) ∧
    (p.1 = kParamProbe ∨ p.1 = kParamRole ∨ p.1 = kParamCost ∨ p.1 = kParamHop → ∃ w n x, p.2 = w ++ x ∧ IsVarint w n)

/-! ## Varints in a buffer -/

theorem IsVarint.bounds {w : List Byte} {n : Nat} (h : IsVarint w n) : 0 < w.length ∧ n < 2 ^ 64 := by
  have := quicVarintDecode_lt h
  exact ⟨(quicVarintDecode_bounds h).1, by omega⟩

theorem IsVarint.append {w : List Byte} {n : Nat} (h : IsVarint w n) (x : List Byte) :
    quicVarintDecode (w ++ x) = some (n, w.length) :=
  quicVarintDecode_same h (w ++ x) (by simp) (by simp)

theorem IsVarint.unique {w w' x x' : List Byte} {n n' : Nat} (h : IsVarint w n) (h' : IsVarint w' n')
    (heq : w ++ x = w' ++ x') : w = w' ∧ n = n' ∧ x = x' := by
  have hread := h.append x
  rw [heq, h'.append x', Option.some.injEq, Prod.mk.injEq] at hread
  obtain ⟨hw, hx⟩ := append_inj heq hread.2.symm
  exact ⟨hw, hread.1.symm, hx⟩

theorem read_varint {p : List Byte} {off k : Nat} {v : BitVec 64} (h : (mlReadVarint p off).read = some (v, k)) :
    ∃ w, IsVarint w v.toNat ∧ p.drop off = w ++ p.drop k ∧ k = off + w.length ∧ k ≤ p.length := by
  rcases mlReadVarint_cases p off with ⟨hnone, -⟩ | ⟨k', v', hsome⟩
  · simp [hnone, WireRead.read] at h
  · simp only [hsome, WireRead.read, if_true, Option.map_some, Option.some.injEq, Prod.mk.injEq] at h
    obtain ⟨rfl, rfl⟩ := h
    obtain ⟨n, len, hd, hoff, rfl, hv⟩ := mlReadVarint_found hsome
    obtain ⟨hpos, -, hlen⟩ := quicVarintDecode_bounds hd
    have hlt := quicVarintDecode_lt hd
    have hval : v'.toNat = n := by
      rw [Option.some.inj hv, BitVec.toNat_ofNat, Nat.mod_eq_of_lt (by omega)]
    have hwlen : ((p.drop off).take len).length = len := by rw [length_take]; omega
    refine ⟨(p.drop off).take len, ?_, ?_, by rw [hwlen], by rw [length_drop] at hlen; omega⟩
    · unfold IsVarint
      rw [hwlen, hval]
      exact quicVarintDecode_same hd _ (by rw [take_take, Nat.min_self]) (by omega)
    · rw [← drop_drop, take_append_drop]

theorem varint_read {p w x : List Byte} {off : Nat} {v : BitVec 64} (h : IsVarint w v.toNat) (hp : p.drop off = w ++ x) :
    (mlReadVarint p off).read = some (v, off + w.length) ∧ p.drop (off + w.length) = x := by
  have hpos := h.bounds.1
  have hlen : off < p.length := by
    have := congrArg List.length hp
    rw [length_drop, length_append] at this
    omega
  constructor
  · have hnot : ¬ p.length ≤ off := by omega
    simp [mlReadVarint, WireRead.read, hnot, hp, h.append x]
  · rw [← drop_drop, hp, drop_left]

/-! ## The reader and the grammar -/

theorem readSetupParams_ok {p : List Byte} : ∀ (n pos : Nat) (seen : List (BitVec 64)) (s s' : LiteSetup) (k : Nat),
    readSetupParams p n pos seen s = .ok (s', k) → pos ≤ p.length → ∃ bs ps, IsParams bs ps ∧ ps.length = n ∧
      p.drop pos = bs ++ p.drop k ∧ k ≤ p.length ∧ (ps.map (·.1)).Nodup ∧ ∀ id ∈ ps.map (·.1), id ∉ seen
  | 0, pos, seen, s, s', k, h, hpos => by
    cases h
    exact ⟨[], [], .nil, rfl, rfl, hpos, nodup_nil, fun _ h => nomatch h⟩
  | n + 1, pos, seen, s, s', k, h, hpos => by
    unfold readSetupParams at h
    cases hid : (mlReadVarint p pos).read with
    | none => simp [hid, orBad, bind, Except.bind] at h
    | some r =>
      obtain ⟨id, pos1⟩ := r
      simp only [hid, orBad, bind, Except.bind] at h
      cases hlen : (mlReadVarint p pos1).read with
      | none => simp [hlen] at h
      | some r =>
        obtain ⟨plen, pos2⟩ := r
        simp only [hlen] at h
        split at h
        · cases h
        · rename_i hover
          split at h
          · cases h
          · rename_i hseen
            obtain ⟨wi, hwi, hdrop1, -, -⟩ := read_varint hid
            obtain ⟨wl, hwl, hdrop2, -, hle2⟩ := read_varint hlen
            obtain ⟨bs, ps, hps, hn, hdrop3, hk, hnodup, hnot⟩ := readSetupParams_ok n _ _ _ _ _ h (by omega)
            have hval : ((p.drop pos2).take plen.toNat).length = plen.toNat := by
              rw [length_take, length_drop]
              omega
            refine ⟨wi ++ (wl ++ ((p.drop pos2).take plen.toNat ++ bs)), (id, (p.drop pos2).take plen.toNat) :: ps,
              .cons hwi (by rw [hval]; exact hwl) hps, by simp [hn], ?_, hk, ?_, ?_⟩
            · have hsplit : p.drop pos2 = (p.drop pos2).take plen.toNat ++ p.drop (pos2 + plen.toNat) := by
                rw [← drop_drop, take_append_drop]
              calc p.drop pos = wi ++ (wl ++ p.drop pos2) := by rw [hdrop1, hdrop2]
                _ = wi ++ (wl ++ ((p.drop pos2).take plen.toNat ++ (bs ++ p.drop k))) := by rw [← hdrop3, ← hsplit]
                _ = wi ++ (wl ++ ((p.drop pos2).take plen.toNat ++ bs)) ++ p.drop k := by simp
            · rw [map_cons, nodup_cons]
              exact ⟨fun hmem => hnot id hmem (by simp), hnodup⟩
            · intro i hi
              rcases List.mem_cons.1 hi with rfl | hi
              · exact hseen
              · exact fun hmem => hnot i hi (mem_append_left _ hmem)

theorem readSetupParams_of {p : List Byte} {bs : List Byte} {ps : List (BitVec 64 × List Byte)} (h : IsParams bs ps) :
    ∀ (pos : Nat) (x : List Byte) (seen : List (BitVec 64)) (s : LiteSetup), p.drop pos = bs ++ x → (ps.map (·.1)).Nodup →
    (∀ id ∈ ps.map (·.1), id ∉ seen) → ∃ s', readSetupParams p ps.length pos seen s = .ok (s', pos + bs.length) := by
  induction h with
  | nil => exact fun pos x seen s _ _ _ => ⟨s, rfl⟩
  | @cons wi wl val bs id ps hid hlen rest ih =>
    intro pos x seen s hp hnodup hnot
    rw [append_assoc, append_assoc, append_assoc] at hp
    rw [map_cons, nodup_cons] at hnodup
    have hvlen : (BitVec.ofNat 64 val.length).toNat = val.length := by
      rw [BitVec.toNat_ofNat, Nat.mod_eq_of_lt hlen.bounds.2]
    obtain ⟨hread1, hdrop1⟩ := varint_read hid hp
    obtain ⟨hread2, hdrop2⟩ := varint_read (v := BitVec.ofNat 64 val.length) (by rw [hvlen]; exact hlen) hdrop1
    have hroom : ¬ p.length - (pos + wi.length + wl.length) < val.length := by
      have := congrArg List.length hdrop2
      rw [length_drop, length_append] at this
      omega
    have hval : (p.drop (pos + wi.length + wl.length)).take val.length = val := by rw [hdrop2, take_left]
    have hdrop3 : p.drop (pos + wi.length + wl.length + val.length) = bs ++ x := by
      rw [← drop_drop, hdrop2, drop_left]
    have hfresh : id ∉ seen := hnot id (by simp)
    obtain ⟨s', hs'⟩ := ih _ x (seen ++ [id]) (onSetupParam s id val).1 hdrop3 hnodup.2 fun i hi hmem => by
      rcases List.mem_append.1 hmem with hmem | hmem
      · exact hnot i (mem_cons_of_mem _ hi) hmem
      · rw [List.mem_singleton.1 hmem] at hi
        exact hnodup.1 hi
    refine ⟨s', ?_⟩
    rw [length_cons, readSetupParams]
    simp only [hread1, hread2, orBad, bind, Except.bind, hvlen, hroom, if_false, hfresh, hval, hs', length_append]
    congr 2
    omega

theorem readSetup_iff (p : List Byte) (off : Nat) : (∃ s, readSetup p off = .ok s) ↔ ∃ ps, IsSetup (p.drop off) ps := by
  constructor
  · rintro ⟨s, h⟩
    unfold readSetup at h
    cases hc : (mlReadVarint p off).read with
    | none => simp [hc, orBad, bind, Except.bind] at h
    | some r =>
      obtain ⟨count, pos⟩ := r
      simp only [hc, orBad, bind, Except.bind] at h
      cases hr : readSetupParams p count.toNat pos [] {} with
      | error why =>
        simp only [hr] at h
        cases h
      | ok r =>
        obtain ⟨s', k⟩ := r
        simp only [hr] at h
        split at h
        · cases h
        · rename_i hk
          obtain ⟨wc, hwc, hdrop, -, hle⟩ := read_varint hc
          obtain ⟨bs, ps, hps, hn, hdrop', -, hnodup, -⟩ := readSetupParams_ok _ _ _ _ _ _ hr hle
          refine ⟨ps, wc, bs, ?_, by rw [hn]; exact hwc, hps, hnodup⟩
          rw [hdrop, hdrop', (by simpa using hk : k = p.length), drop_length, append_nil]
  · rintro ⟨ps, wc, bs, hbody, hwc, hps, hnodup⟩
    have hvlen : (BitVec.ofNat 64 ps.length).toNat = ps.length := by
      rw [BitVec.toNat_ofNat, Nat.mod_eq_of_lt hwc.bounds.2]
    obtain ⟨hread, hdrop⟩ := varint_read (v := BitVec.ofNat 64 ps.length) (by rw [hvlen]; exact hwc) hbody
    obtain ⟨s', hs'⟩ := readSetupParams_of hps (off + wc.length) [] [] {} (by rw [hdrop, append_nil]) hnodup
      (fun _ _ h => nomatch h)
    have hend : off + wc.length + bs.length = p.length := by
      have hlen := congrArg List.length hbody
      have hpos := hwc.bounds.1
      rw [length_drop, length_append] at hlen
      omega
    refine ⟨s', ?_⟩
    unfold readSetup
    simp only [hread, orBad, bind, Except.bind, hvlen, hs', hend, ne_eq, not_true_eq_false, if_false]

/-! ## The stream -/

theorem IsParams.unique {bs bs' : List Byte} {ps ps' : List (BitVec 64 × List Byte)} (h : IsParams bs ps)
    (h' : IsParams bs' ps') (heq : bs = bs') : ps = ps' := by
  induction h generalizing bs' ps' with
  | nil =>
    cases h' with
    | nil => rfl
    | cons hid =>
      have hpos := hid.bounds.1
      have hlen := congrArg List.length heq
      simp only [length_nil, length_append] at hlen
      omega
  | cons hid hlen rest ih =>
    cases h' with
    | nil =>
      have hpos := hid.bounds.1
      have hlen := congrArg List.length heq
      simp only [length_nil, length_append] at hlen
      omega
    | cons hid' hlen' rest' =>
      obtain ⟨-, hn, hx⟩ := hid.unique hid' heq
      obtain ⟨-, hl, hx⟩ := hlen.unique hlen' hx
      obtain ⟨hval, hx⟩ := append_inj hx hl
      rw [ih rest' hx, hval, BitVec.eq_of_toNat_eq hn]

theorem IsSetup.unique {body : List Byte} {ps ps' : List (BitVec 64 × List Byte)} (h : IsSetup body ps) (h' : IsSetup body ps') :
    ps = ps' := by
  obtain ⟨wc, bs, rfl, hwc, hps, -⟩ := h
  obtain ⟨wc', bs', heq, hwc', hps', -⟩ := h'
  obtain ⟨-, -, hbs⟩ := hwc.unique hwc' heq
  exact hps.unique hps' hbs

theorem SetupAt.unique {b : List Byte} {ps ps' : List (BitVec 64 × List Byte)} (h : SetupAt b ps) (h' : SetupAt b ps') :
    ps = ps' := by
  obtain ⟨wl, body, rest, rfl, hwl, hs⟩ := h
  obtain ⟨wl', body', rest', heq, hwl', hs'⟩ := h'
  obtain ⟨-, hlen, hx⟩ := hwl.unique hwl' heq
  obtain ⟨rfl, -⟩ := append_inj hx hlen
  exact hs.unique hs'

theorem frontSetup_of {b : List Byte} {ps : List (BitVec 64 × List Byte)} (h : SetupAt b ps) :
    ∃ off p size, frontSetup b = .whole off p size ∧ IsSetup (p.drop off) ps := by
  obtain ⟨wl, body, rest, rfl, hwl, hs⟩ := h
  have hvlen : (BitVec.ofNat 64 body.length).toNat = body.length := by
    rw [BitVec.toNat_ofNat, Nat.mod_eq_of_lt hwl.bounds.2]
  obtain ⟨hread, -⟩ := @varint_read (wl ++ (body ++ rest)) wl _ 0 (BitVec.ofNat 64 body.length) (by rw [hvlen]; exact hwl) rfl
  rw [Nat.zero_add] at hread
  have hroom : ¬ (wl ++ (body ++ rest)).length < wl.length + body.length := by simp
  refine ⟨wl.length, (wl ++ (body ++ rest)).take (wl.length + body.length), wl.length + body.length, ?_, ?_⟩
  · simp only [frontSetup, hread, hvlen, hroom, if_false]
  · have hbody : ((wl ++ (body ++ rest)).take (wl.length + body.length)).drop wl.length = body := by
      rw [drop_take, drop_left, Nat.add_sub_cancel_left, take_left]
    rw [hbody]
    exact hs

theorem setupAt_of {b p : List Byte} {off size : Nat} {ps : List (BitVec 64 × List Byte)}
    (h : frontSetup b = .whole off p size) (hs : IsSetup (p.drop off) ps) : SetupAt b ps := by
  obtain ⟨v, hread, rfl, hle, rfl⟩ := frontSetup_whole h
  obtain ⟨wl, hwl, hb, hoff, -⟩ := @read_varint b 0 off v (by simp [hread, WireRead.read])
  rw [drop_zero] at hb
  have hbody : (b.take (off + v.toNat)).drop off = (b.drop off).take v.toNat := by
    rw [drop_take, Nat.add_sub_cancel_left]
  rw [hbody] at hs
  refine ⟨wl, (b.drop off).take v.toNat, (b.drop off).drop v.toNat, by rw [take_append_drop, ← hb], ?_, hs⟩
  rw [length_take, length_drop, Nat.min_eq_left (by omega)]
  exact hwl

namespace LiteSession

variable (e : LiteSession)

theorem setup_out (b : List Byte) : ((∃ s, .setup s ∈ (e.call true ⟨.setup, [], [], none⟩ b).out) ↔ ∃ ps, SetupAt b ps) ∧
    ((¬ ∃ ps, SetupAt b ps) → ∃ why, (e.call true ⟨.setup, [], [], none⟩ b).out = [.close kSessionProtocolViolation why]) := by
  have hcall : e.call true ⟨.setup, [], [], none⟩ b =
      finishCall true (drainTurns e.parse .hung (b.length + 1) ⟨.setup, b, [], none⟩) := e.call_live true b rfl
  have hparse : e.parse .setup b = e.parseSetupStream b := rfl
  rw [hcall]
  simp only [drainTurns, hparse, e.parseSetupStream_front]
  cases hf : frontSetup b with
  | tooLarge => exact absurd hf (by
      unfold frontSetup
      split
      · simp
      · split <;> simp)
  | needMore =>
    have hno : ¬ ∃ ps, SetupAt b ps := by
      rintro ⟨ps, hps⟩
      obtain ⟨off, p, size, hw, -⟩ := frontSetup_of hps
      rw [hf] at hw
      cases hw
    dsimp only [onFrontSetup]
    refine ⟨⟨?_, fun h => absurd h hno⟩, fun _ => ⟨_, rfl⟩⟩
    rintro ⟨s, hs⟩
    simp [finishCall] at hs
  | whole off p size =>
    have hiff : (∃ ps, SetupAt b ps) ↔ ∃ s, readSetup p off = .ok s := by
      rw [readSetup_iff]
      constructor
      · rintro ⟨ps, hps⟩
        obtain ⟨off', p', size', hw, hs⟩ := frontSetup_of hps
        rw [hf] at hw
        cases hw
        exact ⟨ps, hs⟩
      · rintro ⟨ps, hs⟩
        exact ⟨ps, setupAt_of hf hs⟩
    rw [hiff]
    dsimp only [onFrontSetup]
    cases hr : readSetup p off with
    | error why =>
      refine ⟨⟨?_, ?_⟩, fun _ => ⟨why, by simp [closeTurn, finishCall]⟩⟩
      · rintro ⟨s, hs⟩
        simp [closeTurn, finishCall] at hs
      · rintro ⟨s, hs⟩
        cases hs
    | ok s =>
      refine ⟨⟨fun _ => ⟨s, rfl⟩, fun _ => ⟨s, ?_⟩⟩, fun h => absurd ⟨s, rfl⟩ h⟩
      by_cases hroute : e.onRoute s = false
      · simp [hroute, closeTurn, finishCall]
      · simp [hroute, finishCall]

theorem calm_setup {wt : List Byte} (he : e.sawPeerSetup = false) (ht : IsVarint wt kUniSetup.toNat) (b : List Byte) :
    e.parse (.untyped true) (wt ++ b) = .take .setup wt.length [] ∧ e.Calm (.untyped true) (wt ++ b) := by
  have htype : e.parse (.untyped true) (wt ++ b) = .take .setup wt.length [] := by
    obtain ⟨hread, -⟩ := @varint_read (wt ++ b) wt b 0 _ ht rfl
    have hparse : e.parse (.untyped true) (wt ++ b) = e.parseStreamType true (wt ++ b) := rfl
    simp [hparse, parseStreamType, hread, onStreamTypeSeen, he]
  refine ⟨htype, fun out t x hto => ?_⟩
  cases hto with
  | here => trivial
  | next h rest =>
    obtain ⟨rfl, rfl, rfl⟩ := Turn.take.inj (htype.symm.trans h)
    cases rest with
    | here => trivial
    | next h rest =>
      have hsteady := e.steady_setupStream
      have hnot : ∀ {b t n out}, e.parseSetupStream b ≠ .take t n out := by
        intro b t n out h
        unfold parseSetupStream closeTurn at h
        repeat' split at h
        all_goals cases h
      exact absurd h hnot

end LiteSession

/-- **The session is routed if and only if the SETUP is one with values that are well formed**, and else closed. -/
def SetupAsTold (e : LiteSession) (b : List Byte) (cs : List (List Byte)) : Prop :=
  let out := (e.handleCalls (LiteOpener.peer true).stream cs).out
  ((∃ s, .setup s ∈ out) ↔ ∃ ps, SetupAt b ps ∧ ∀ p ∈ ps, ValueOk p) ∧
    ((¬ ∃ ps, SetupAt b ps ∧ ∀ p ∈ ps, ValueOk p) → ∃ why, out = [.close kSessionProtocolViolation why])

/-- **A SETUP is accepted as the grammar says**, however it comes, if and only if the values of one that is a list of
parameters are well formed. -/
theorem setup_as_told (e : LiteSession) (wt b : List Byte) (cs : List (List Byte)) (he : e.sawPeerSetup = false)
    (ht : IsVarint wt kUniSetup.toNat) (hne : cs ≠ []) (hcs : cs.flatten = wt ++ b)
    (hfit : e.Fits (LiteOpener.peer true).stream cs) : SetupAsTold e b cs ↔ ∀ ps, SetupAt b ps → ∀ p ∈ ps, ValueOk p := by
  obtain ⟨htype, hcalm⟩ := e.calm_setup he ht b
  have hout : (e.handleCalls (LiteOpener.peer true).stream cs).out = (e.call true ⟨.setup, [], [], none⟩ b).out := by
    rw [LiteSession.handleCalls_fits cs _ hfit, LiteSession.calls_whole cs _ hne
      (.live rfl rfl (by rw [hcs]; exact hcalm)), hcs, e.call_live true _ rfl, e.call_live true b rfl]
    have hto := e.drain_taken (.next htype (.here _ _)) ⟨.untyped true, wt ++ b, [], none⟩ rfl rfl
    rw [drop_left] at hto
    exact congrArg (fun r => (finishCall true r).out) hto
  obtain ⟨hroute, hclose⟩ := e.setup_out b
  unfold SetupAsTold
  dsimp only
  rw [hout]
  constructor
  · rintro ⟨hiff, -⟩ ps hps
    obtain ⟨ps', hps', hok⟩ := hiff.1 (hroute.2 ⟨ps, hps⟩)
    rw [hps.unique hps']
    exact hok
  · intro hok
    have hsame : (∃ ps, SetupAt b ps ∧ ∀ p ∈ ps, ValueOk p) ↔ ∃ ps, SetupAt b ps :=
      ⟨fun ⟨ps, hps, _⟩ => ⟨ps, hps⟩, fun ⟨ps, hps⟩ => ⟨ps, hps, hok ps hps⟩⟩
    rw [hsame]
    exact ⟨hroute, hclose⟩

def pathAndRole : List Byte := [0x08, 0x02, 0x02, 0x02, 0x01, 0x61, 0x03, 0x01, 0x02]

theorem setupAt_pathAndRole : SetupAt pathAndRole [(kParamPath, [0x01, 0x61]), (kParamRole, [0x02])] :=
  ⟨[0x08], pathAndRole.drop 1, [], rfl, by decide +kernel, [0x02], pathAndRole.drop 2, rfl, by decide +kernel,
    @IsParams.cons [0x02] [0x02] [0x01, 0x61] _ _ _ (by decide +kernel) (by decide +kernel)
      (@IsParams.cons [0x03] [0x01] [0x02] _ _ _ (by decide +kernel) (by decide +kernel) .nil), by decide +kernel⟩

theorem setup_as_told_sample : SetupAsTold {} pathAndRole [[0x01], pathAndRole] := by
  refine (setup_as_told {} [0x01] pathAndRole [[0x01], pathAndRole] rfl (by decide +kernel) (by simp) rfl
    (LiteSession.fits_of_le _ _ _ (by decide +kernel))).2 fun ps hps p hp => ?_
  rw [hps.unique setupAt_pathAndRole] at hp
  simp only [mem_cons, not_mem_nil, or_false] at hp
  rcases hp with rfl | rfl
  · exact ⟨fun _ => ⟨[0x01], [0x61], rfl, by decide +kernel⟩, fun h => absurd h (by decide +kernel)⟩
  · exact ⟨fun h => absurd h (by decide +kernel), fun _ => ⟨[0x02], 2, [], rfl, by decide +kernel⟩⟩

def emptyRole : List Byte := [0x03, 0x01, 0x03, 0x00]

/-- **A SETUP with a role that is malformed is routed.** -/
theorem malformed_role_routed : ¬ SetupAsTold {} emptyRole [[0x01], emptyRole] := by
  rintro ⟨hiff, -⟩
  have hout : (LiteSession.handleCalls {} (LiteOpener.peer true).stream [[0x01], emptyRole]).out =
      [.setup {}, .discover, .arm] := by decide +kernel
  obtain ⟨ps, hps, hok⟩ := hiff.1 ⟨{}, by rw [hout]; simp⟩
  have hthere : SetupAt emptyRole [(kParamRole, [])] :=
    ⟨[0x03], emptyRole.drop 1, [], rfl, by decide +kernel, [0x01], emptyRole.drop 2, rfl, by decide +kernel,
      @IsParams.cons [0x03] [0x00] [] _ _ _ (by decide +kernel) (by decide +kernel) .nil, by decide +kernel⟩
  rw [hps.unique hthere] at hok
  obtain ⟨w, n, x, hval, hw⟩ := (hok (kParamRole, []) (by simp)).2 (.inr (.inl rfl))
  have hnil : w = [] := (List.append_eq_nil_iff.1 hval.symm).1
  have hpos := hw.bounds.1
  rw [hnil] at hpos
  simp at hpos

end MoqLiveCast
