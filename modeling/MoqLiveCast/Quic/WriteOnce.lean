import MoqLiveCast.Quic.WriteCallback
import MoqLiveCast.Quic.StreamSendData
import Mathlib.Algebra.BigOperators.Group.List.Basic
/-!
# WriteOnce — every write is called back once

A ledger by `user_data`: the callbacks made and the requests in the lists, on one side; the writes that were answered 0
or -1, on the other.
-/
namespace MoqLiveCast

open List

/-! ## The ledger -/

def AppCall.writes (u : Nat) : AppCall → Bool
  | .write _ _ _ cb _ _ => cb = some u
  | _ => false

def Effect.isDone (u : Nat) : Effect → Bool
  | .writeDone _ _ _ userData => userData = u
  | _ => false

def calledBack (u : Nat) (tr : List Effect) : Nat := tr.countP (Effect.isDone u)

/-- The requests of a list that wait to call `u`. -/
def reqsFor (u : Nat) (reqs : List QuicStreamWriteReq) : Nat := reqs.countP (fun r => r.userData = u)

def pendingFor (u : Nat) (streams : List QuicStream) : Nat := (streams.map (fun s => reqsFor u s.writeReqs)).sum

/-- The writes with the callback `u` that returned `ret`. -/
def writesAnswered (u : Nat) (ret : Int) (l : List (AppCall × Int)) : Nat :=
  l.countP (fun a => a.1.writes u ∧ a.2 = ret)

/-- A write returns 0 when it was taken and -1 when it was turned down; either calls back, now or later. -/
def owes (u : Nat) (c : AppCall) (ret : Int) : Nat := if c.writes u ∧ (ret = 0 ∨ ret = -1) then 1 else 0

def owed (u : Nat) (l : List (AppCall × Int)) : Nat := writesAnswered u 0 l + writesAnswered u (-1) l

theorem owed_snoc (u : Nat) (l : List (AppCall × Int)) (c : AppCall) (ret : Int) :
    owed u (l ++ [(c, ret)]) = owed u l + owes u c ret := by
  unfold owed writesAnswered owes
  rw [countP_append, countP_append, countP_singleton, countP_singleton]
  by_cases hc : c.writes u = true
  · by_cases h0 : ret = 0
    · subst h0
      simp [hc]
      omega
    · by_cases h1 : ret = -1
      · subst h1
        simp [hc]
        omega
      · simp [hc, h0, h1]
  · simp [hc]

@[simp] theorem calledBack_append (u : Nat) (tr tr' : List Effect) :
    calledBack u (tr ++ tr') = calledBack u tr + calledBack u tr' := countP_append

theorem calledBack_eq_zero {u : Nat} {l : List Effect} (h : ∀ e ∈ l, e.isDone u = false) : calledBack u l = 0 :=
  List.countP_eq_zero.2 fun e he => by simp [h e he]

theorem reqsFor_cons (u : Nat) (r : QuicStreamWriteReq) (rs : List QuicStreamWriteReq) :
    reqsFor u (r :: rs) = reqsFor u rs + if r.userData = u then 1 else 0 := by
  unfold reqsFor
  rw [countP_cons]
  simp

theorem reqsFor_reqInsert (u : Nat) (req : QuicStreamWriteReq) : ∀ reqs : List QuicStreamWriteReq,
    reqsFor u (reqInsert req reqs) = reqsFor u reqs + if req.userData = u then 1 else 0
  | [] => by simp [reqInsert, reqsFor]
  | r :: rs => by
    unfold reqInsert
    split
    · rw [reqsFor_cons, reqsFor_cons, reqsFor_reqInsert u req rs]
      omega
    · rw [reqsFor_cons]

/-! ## The codes -/

/-- A code a callback may get: done, past its deadline, closed or turned down, or the code the stream was reset with. -/
def CodeAllowed (tr : List Effect) (sid : Nat) (code : Int) : Prop :=
  code = 0 ∨ code = -2 ∨ code = -1 ∨
    ∃ errorCode finalSize accepted, Effect.queueFrame (.resetStream sid errorCode finalSize) accepted ∈ tr ∧
      code = resetRetCode errorCode

def CodesAllowed (tr : List Effect) : Prop :=
  ∀ sid code length u, Effect.writeDone sid code length u ∈ tr → CodeAllowed tr sid code

theorem CodeAllowed.mono {tr tr' : List Effect} {sid : Nat} {code : Int} (h : CodeAllowed tr sid code)
    (hsub : ∀ e ∈ tr, e ∈ tr') : CodeAllowed tr' sid code := by
  obtain h | h | h | ⟨e, f, a, hm, h⟩ := h
  · exact .inl h
  · exact .inr (.inl h)
  · exact .inr (.inr (.inl h))
  · exact .inr (.inr (.inr ⟨e, f, a, hsub _ hm, h⟩))

theorem CodesAllowed.append {tr l : List Effect} (h : CodesAllowed tr) (hl : ∀ sid code length u, Effect.writeDone sid code length
    u ∈ l → CodeAllowed (tr ++ l) sid code) : CodesAllowed (tr ++ l) := by
  intro sid code length u hm
  rcases List.mem_append.1 hm with hm | hm
  · exact (h sid code length u hm).mono fun e he => mem_append_left _ he
  · exact hl sid code length u hm

/-! ## What a step settles -/

def AppRun.Distinct (w : AppRun) : Prop := (w.ctx.streams.map QuicStream.streamId).Nodup

/-- The two sides of the ledger move together, but for `d`. -/
structure Settles (d : Nat → Nat) (w w' : AppRun) : Prop where
  ids : w'.ctx.streams.map QuicStream.streamId = w.ctx.streams.map QuicStream.streamId
  freed : w'.freed = w.freed
  grows : Adds (fun _ => True) w.ctx.trace w'.ctx.trace
  balance : w.Distinct → ∀ u, calledBack u w'.ctx.trace + pendingFor u w'.ctx.streams + owed u w.answered =
    calledBack u w.ctx.trace + pendingFor u w.ctx.streams + owed u w'.answered + d u
  codes : CodesAllowed w.ctx.trace → CodesAllowed w'.ctx.trace

abbrev Balanced : AppRun → AppRun → Prop := Settles (fun _ => 0)

namespace Settles

variable {d : Nat → Nat} {w w' w'' : AppRun}

theorem refl (w : AppRun) : Balanced w w := ⟨rfl, rfl, Adds.refl _ _, fun _ _ => rfl, id⟩

theorem distinct (h : Settles d w w') (hd : w.Distinct) : w'.Distinct := by
  unfold AppRun.Distinct
  rw [h.ids]
  exact hd

theorem trans (h : Settles d w w') (h' : Balanced w' w'') : Settles d w w'' where
  ids := h'.ids.trans h.ids
  freed := h'.freed.trans h.freed
  grows := h.grows.trans h'.grows
  balance hd u := by
    have h1 := h.balance hd u
    have h2 := h'.balance (h.distinct hd) u
    omega
  codes hc := h'.codes (h.codes hc)

theorem allowed (h : Settles d w w') {sid : Nat} {code : Int} (hc : CodeAllowed w.ctx.trace sid code) :
    CodeAllowed w'.ctx.trace sid code := by
  obtain ⟨l, hl, -⟩ := h.grows
  rw [hl]
  exact hc.mono fun e he => mem_append_left _ he

theorem answer {c : AppCall} {ret : Int} (h : Settles (fun u => owes u c ret) w w') : Balanced w (w'.answer c ret) where
  ids := h.ids
  freed := h.freed
  grows := h.grows
  balance hd u := by
    have h1 := h.balance hd u
    have h2 := owed_snoc u w'.answered c ret
    simp only [AppRun.answer] at h1 h2 ⊢
    omega
  codes := h.codes

theorem stream {s s' : QuicStream} {ctx : QuicStreamCtx} {l : List Effect} (hs : streamFind w.ctx s.streamId = some s)
    (hid : s'.streamId = s.streamId) (hstreams : ctx.streams = w.ctx.streams) (htr : ctx.trace = w.ctx.trace ++ l)
    (hcodes : ∀ sid code length u, Effect.writeDone sid code length u ∈ l → CodeAllowed (w.ctx.trace ++ l) sid code)
    (hd : ∀ u, calledBack u l + reqsFor u s'.writeReqs = reqsFor u s.writeReqs + d u) :
    Settles d w { w with ctx := setStream ctx s' } where
  ids := by
    show (store QuicStream.streamId s' ctx.streams).map QuicStream.streamId = _
    rw [store_keys, hstreams]
  freed := rfl
  grows := ⟨l, htr, fun _ _ => trivial⟩
  balance hnd u := by
    have hsum := sum_store QuicStream.streamId (fun s => reqsFor u s.writeReqs) hnd
      (show lookup QuicStream.streamId s'.streamId w.ctx.streams = some s by rw [hid]; exact hs)
    have hcall : calledBack u ctx.trace = calledBack u w.ctx.trace + calledBack u l := by rw [htr, calledBack_append]
    have hdu := hd u
    show calledBack u ctx.trace + pendingFor u (store QuicStream.streamId s' ctx.streams) + owed u w.answered =
      calledBack u w.ctx.trace + pendingFor u w.ctx.streams + owed u w.answered + d u
    rw [hstreams, hcall]
    unfold pendingFor
    omega
  codes hc := by
    show CodesAllowed ctx.trace
    rw [htr]
    exact hc.append hcodes

theorem call {e : Effect} (w : AppRun) (he : ∀ u, e.isDone u = true → d u = 1) (he' : ∀ u, e.isDone u = false → d u = 0)
    (hcodes : ∀ sid code length u, e = .writeDone sid code length u → CodeAllowed (w.ctx.trace ++ [e]) sid code) :
    Settles d w (w.call e) where
  ids := rfl
  freed := rfl
  grows := (Adds.refl _ _).call trivial
  balance _ u := by
    show calledBack u (w.ctx.trace ++ [e]) + pendingFor u w.ctx.streams + owed u w.answered =
      calledBack u w.ctx.trace + pendingFor u w.ctx.streams + owed u w.answered + d u
    have hone : calledBack u [e] = d u := by
      unfold calledBack
      rw [countP_singleton]
      cases hu : e.isDone u with
      | true => simp [he u hu]
      | false => simp [he' u hu]
    rw [calledBack_append, hone]
    omega
  codes hc := hc.append fun sid code length u hm => hcodes sid code length u (List.mem_singleton.1 hm).symm

end Settles

/-! ## Sending -/

/-- `maybe_notify_writable` and `consume_send_buf` leave the requests alone and complete none. -/
structure ReqsKept (s : QuicStream) (ctx : QuicStreamCtx) (r : QuicStream × QuicStreamCtx) : Prop where
  id : r.1.streamId = s.streamId
  reqs : r.1.writeReqs = s.writeReqs
  streams : r.2.streams = ctx.streams
  adds : Adds (fun e => ∀ u, e.isDone u = false) ctx.trace r.2.trace

theorem ReqsKept.of_eq {s s' : QuicStream} {ctx ctx' : QuicStreamCtx} {r : QuicStream × QuicStreamCtx}
    (h : ReqsKept s' ctx' r) (hid : s'.streamId = s.streamId) (hreqs : s'.writeReqs = s.writeReqs)
    (hstreams : ctx'.streams = ctx.streams) (hadds : Adds (fun e => ∀ u, e.isDone u = false) ctx.trace ctx'.trace) :
    ReqsKept s ctx r :=
  ⟨h.id.trans hid, h.reqs.trans hreqs, h.streams.trans hstreams, hadds.trans h.adds⟩

variable (s : QuicStream)

theorem maybeNotifyWritable_reqs (ctx : QuicStreamCtx) : ReqsKept s ctx (maybeNotifyWritable s ctx) := by
  unfold maybeNotifyWritable
  split
  · exact ⟨rfl, rfl, rfl, Adds.refl _ _⟩
  · refine ⟨rfl, rfl, ?_, ?_⟩
    · split <;> rfl
    · dsimp only
      split
      · exact (Adds.refl _ _).call fun _ => rfl
      · exact Adds.refl _ _

theorem consumeBlocked_reqs (q : QueueFn) (limit : Frame) (s : QuicStream) (ctx : QuicStreamCtx) :
    ReqsKept s ctx (consumeBlocked q limit s ctx) := by
  unfold consumeBlocked
  dsimp only
  split
  · exact (maybeNotifyWritable_reqs _ _).of_eq rfl rfl rfl (Adds.refl _ _)
  · refine (maybeNotifyWritable_reqs _ _).of_eq rfl rfl rfl ?_
    have hqueue : Adds (fun e => ∀ u, e.isDone u = false) ctx.trace (ctx.queueFn q limit).trace :=
      (Adds.refl _ _).call fun _ => rfl
    exact hqueue.call fun _ => rfl

theorem consumeLoop_reqs (q : QueueFn) : ∀ (n : Nat) (s : QuicStream) (ctx : QuicStreamCtx),
    ReqsKept s ctx (consumeLoop q n s ctx) := by
  have hdone : ∀ s ctx, ReqsKept s ctx (consumeDone s ctx) := fun s ctx =>
    (maybeNotifyWritable_reqs _ ctx).of_eq rfl rfl rfl (Adds.refl _ _)
  intro n
  induction n with
  | zero => exact hdone
  | succ n ih =>
    intro s ctx
    unfold consumeLoop
    split
    · exact hdone s ctx
    · split
      · exact consumeBlocked_reqs q _ s ctx
      · split
        · exact consumeBlocked_reqs q _ s ctx
        · split
          · exact ⟨rfl, rfl, rfl, Adds.refl _ _⟩
          · rename_i frame _
            have hqueue : Adds (fun e => ∀ u, e.isDone u = false) ctx.trace (ctx.queueFn q frame).trace :=
              (Adds.refl _ _).call fun _ => rfl
            dsimp only
            split
            · exact (ih _ _).of_eq rfl rfl rfl hqueue
            · exact (maybeNotifyWritable_reqs _ _).of_eq rfl rfl rfl hqueue

theorem length_reqInsert (req : QuicStreamWriteReq) : ∀ reqs : List QuicStreamWriteReq,
    (reqInsert req reqs).length = reqs.length + 1
  | [] => rfl
  | r :: rs => by
    unfold reqInsert
    split
    · rw [length_cons, length_reqInsert req rs, length_cons]
    · rfl

theorem writeAppend_writeReqs (data : List Byte) (fin : Bool) (cb : Option Nat) (timeoutMs now : Nat) :
    (writeAppend s data fin cb timeoutMs now).writeReqs = (writeRequest s data.length cb timeoutMs now).writeReqs := by
  have happend : ∀ s : QuicStream, (sendBufAppend s data).writeReqs = s.writeReqs := by
    intro s
    unfold sendBufAppend sendBufEnsure
    dsimp only
    repeat' split
    all_goals rfl
  unfold writeAppend
  rw [writeFlags_eq]
  exact happend _

theorem writeAppend_length (data : List Byte) (fin : Bool) (cb : Option Nat) (timeoutMs now : Nat) :
    (writeAppend s data fin cb timeoutMs now).writeReqs.length ≤ s.writeReqs.length + 1 := by
  rw [writeAppend_writeReqs]
  cases cb with
  | none => exact Nat.le_succ _
  | some userData => exact (length_reqInsert _ _).le

theorem writeAppend_reqs (data : List Byte) (fin : Bool) (cb : Option Nat) (timeoutMs now u : Nat) :
    reqsFor u (writeAppend s data fin cb timeoutMs now).writeReqs = reqsFor u s.writeReqs + if cb = some u then 1 else 0 := by
  rw [writeAppend_writeReqs]
  cases cb with
  | none => simp [writeRequest]
  | some userData => simp [writeRequest, reqsFor_reqInsert]

/-! ## Reading the stream again -/

theorem AppRun.find_some {w : AppRun} {sid : Nat} {found : Option QuicStream} (h : w.find sid = some found) :
    streamFind w.ctx sid = found := by
  unfold AppRun.find at h
  split at h
  · exact Option.some.inj h
  · cases h

theorem through_settles {w w' : AppRun} {sid : Nat} {f : QuicStream → Option AppRun} (hf : ∀ {s}, streamFind w.ctx s.streamId =
    some s → s.streamId = sid → f s = some w' → Balanced w w') (h : w.through sid f = some w') : Balanced w w' := by
  unfold AppRun.through at h
  split at h
  · rw [← Option.some.inj h]
    exact Settles.refl w
  · rename_i s hs
    have hid := streamFind_id hs
    exact hf (hid.symm ▸ hs) hid h

theorem AppRun.flushing_balanced (w : AppRun) (b : Bool) : Balanced w { w with ctx := { w.ctx with flushing := b } } :=
  ⟨rfl, rfl, Adds.refl _ _, fun _ _ => rfl, id⟩

theorem reqDrain_succ {back : AppRun → Option AppRun} {due : QuicStreamWriteReq → Bool} {code : Int}
    {length : QuicStreamWriteReq → Nat} {sid n : Nat} {w w' : AppRun}
    (h : reqDrain back due code length sid (n + 1) w = some w') :
    (w' = w ∧ ∀ s r rs, streamFind w.ctx sid = some s → s.writeReqs = r :: rs → due r = false) ∨
    ∃ s r rs w1, streamFind w.ctx s.streamId = some s ∧ s.streamId = sid ∧ s.writeReqs = r :: rs ∧
      back ((w.set { s with writeReqs := rs }).call (.writeDone sid code (length r) r.userData)) = some w1 ∧
      reqDrain back due code length sid n w1 = some w' := by
  unfold reqDrain AppRun.through at h
  cases hs : streamFind w.ctx sid with
  | none =>
    rw [hs] at h
    exact .inl ⟨(Option.some.inj h).symm, fun s r rs hs' => by cases hs'⟩
  | some s =>
    have hid := streamFind_id hs
    simp only [hs] at h
    cases hreqs : s.writeReqs with
    | nil =>
      simp only [hreqs] at h
      refine .inl ⟨(Option.some.inj h).symm, fun s' r rs hs' hreqs' => ?_⟩
      rw [← Option.some.inj hs', hreqs] at hreqs'
      cases hreqs'
    | cons r rs =>
      simp only [hreqs] at h
      split at h
      · obtain ⟨w1, h1, h⟩ := Option.bind_eq_some_iff.1 h
        exact .inr ⟨s, r, rs, w1, hid.symm ▸ hs, hid, hreqs, h1, h⟩
      · rename_i hdue
        refine .inl ⟨(Option.some.inj h).symm, fun s' r' rs' hs' hreqs' => ?_⟩
        rw [← Option.some.inj hs', hreqs] at hreqs'
        rw [← (List.cons.inj hreqs').1]
        exact Bool.eq_false_iff.2 hdue

/-! ## What each call settles -/

section Callback

variable {q : QueueFn} {back : AppRun → Option AppRun} (hback : ∀ {w w'}, back w = some w' → Balanced w w')
include hback

variable {w w' : AppRun}

theorem thenWritable_settles {d : Nat → Nat} {s₀ s : QuicStream} {r : QuicStream × QuicStreamCtx} (hs :
    streamFind w.ctx s₀.streamId = some s₀) (hid : s.streamId = s₀.streamId) (hd : ∀ u, reqsFor u s.writeReqs =
    reqsFor u s₀.writeReqs + d u) (hr : ReqsKept s w.ctx r) (h : thenWritable back w s r = some w') : Settles d w w' := by
  obtain ⟨l, hl, hdone⟩ := hr.adds
  have hsend : Settles d w { w with ctx := setStream r.2 r.1 } := by
    refine Settles.stream hs (hr.id.trans hid) hr.streams hl ?_ ?_
    · intro sid code length u hm
      exact absurd (hdone _ hm u) (by simp [Effect.isDone])
    · intro u
      rw [calledBack_eq_zero fun e he => hdone e he u, hr.reqs]
      have := hd u
      omega
  unfold thenWritable at h
  dsimp only at h
  split at h
  · exact hsend.trans (hback h)
  · rw [← Option.some.inj h]
    exact hsend

theorem maybeNotifyWritableCb_balanced {s : QuicStream} (hs : streamFind w.ctx s.streamId = some s)
    (h : maybeNotifyWritableCb back w s = some w') : Balanced w w' :=
  thenWritable_settles hback hs rfl (fun _ => rfl) (maybeNotifyWritable_reqs s w.ctx) h

theorem consumeSendBufCb_settles {d : Nat → Nat} {s₀ s : QuicStream}
    (hs : streamFind w.ctx s₀.streamId = some s₀) (hid : s.streamId = s₀.streamId)
    (hd : ∀ u, reqsFor u s.writeReqs = reqsFor u s₀.writeReqs + d u) (h : consumeSendBufCb q back w s = some w') :
    Settles d w w' := thenWritable_settles hback hs hid hd (consumeLoop_reqs q s.sendBufLen s w.ctx) h

theorem writeFailCb_settles {sid : Nat} {cb : Option Nat} {ret : Int} (h : writeFailCb back w sid cb = some (ret, w')) :
    ret = -1 ∧ Settles (fun u => if cb = some u then 1 else 0) w w' := by
  cases cb with
  | none =>
    obtain ⟨rfl, rfl⟩ := Prod.mk.inj (Option.some.inj h)
    exact ⟨rfl, by simpa using Settles.refl w⟩
  | some userData =>
    obtain ⟨w1, hw, he⟩ := Option.map_eq_some_iff.1 h
    obtain ⟨rfl, rfl⟩ := Prod.mk.inj he
    have hcall : Settles (fun u => if some userData = some u then 1 else 0) w
        (w.call (.writeDone sid (-1) 0 userData)) := by
      refine Settles.call w (fun u hu => ?_) (fun u hu => ?_) (fun sid' code length u he => ?_)
      · simpa [Effect.isDone] using hu
      · simpa [Effect.isDone] using hu
      · cases he
        exact .inr (.inr (.inl rfl))
    exact ⟨rfl, hcall.trans (hback hw)⟩

theorem quicStreamWriteCb_settles {sid : Nat} {data : List Byte} {fin : Bool} {cb : Option Nat}
    {timeoutMs now : Nat} {ret : Int} (h : quicStreamWriteCb q back w sid data fin cb timeoutMs now = some (ret, w')) :
    Settles (fun u => owes u (.write sid data fin cb timeoutMs now) ret) w w' := by
  have howes : ∀ u, owes u (.write sid data fin cb timeoutMs now) ret =
      if cb = some u ∧ (ret = 0 ∨ ret = -1) then 1 else 0 := fun u => by simp [owes, AppCall.writes]
  simp only [howes]
  have hfail : writeFailCb back w sid cb = some (ret, w') →
      Settles (fun u => if cb = some u ∧ (ret = 0 ∨ ret = -1) then 1 else 0) w w' := by
    intro hf
    obtain ⟨rfl, hw⟩ := writeFailCb_settles hback hf
    simpa using hw
  unfold quicStreamWriteCb at h
  obtain ⟨found, hfind, h⟩ := Option.bind_eq_some_iff.1 h
  have hfind := AppRun.find_some hfind
  cases found with
  | none => exact hfail h
  | some s =>
    have hs : streamFind w.ctx s.streamId = some s := (streamFind_id hfind).symm ▸ hfind
    dsimp only at h
    split at h
    · exact hfail h
    · split at h
      · obtain ⟨rfl, rfl⟩ := Prod.mk.inj (Option.some.inj h)
        have hset : Balanced w (w.set { s with wantWritable := true }) := by
          refine Settles.stream (l := []) hs rfl rfl (append_nil _).symm ?_ (fun u => ?_)
          · intro sid code length u hm
            cases hm
          · simp [calledBack]
        simpa using hset
      · obtain ⟨w1, h1, h⟩ := Option.bind_eq_some_iff.1 h
        obtain ⟨w2, h2, h⟩ := Option.bind_eq_some_iff.1 h
        obtain ⟨rfl, rfl⟩ := Prod.mk.inj (Option.some.inj h)
        have hsend : Settles (fun u => if cb = some u then 1 else 0) w w1 :=
          consumeSendBufCb_settles hback hs (writeAppend_appends s data fin cb timeoutMs now).id
            (writeAppend_reqs s data fin cb timeoutMs now) h1
        have hnotify := through_settles (fun hs _ hf => maybeNotifyWritableCb_balanced hback hs hf) h2
        simpa using hsend.trans hnotify

theorem reqDrain_balanced {due : QuicStreamWriteReq → Bool} {code : Int} {length : QuicStreamWriteReq → Nat} {sid : Nat} :
    ∀ {n : Nat} {w w' : AppRun}, CodeAllowed w.ctx.trace sid code → reqDrain back due code length sid n w = some w' →
      Balanced w w'
  | 0, _, _, _, h => by cases h
  | n + 1, w, w', hcode, h => by
    obtain ⟨rfl, -⟩ | ⟨s, r, rs, w1, hs, hid, hreqs, h1, h⟩ := reqDrain_succ h
    · exact Settles.refl _
    · have htake : Balanced w ((w.set { s with writeReqs := rs }).call (.writeDone sid code (length r) r.userData)) := by
        change Settles _ w { w with
          ctx := setStream (w.ctx.call (.writeDone sid code (length r) r.userData)) { s with writeReqs := rs } }
        refine Settles.stream hs rfl rfl rfl ?_ ?_
        · intro sid' code' length' u hm
          cases List.mem_singleton.1 hm
          exact hcode.mono fun e he => mem_append_left _ he
        · intro u
          rw [hreqs, reqsFor_cons]
          unfold calledBack
          rw [countP_singleton]
          simp [Effect.isDone]
          omega
      have hone := htake.trans (hback h1)
      exact hone.trans (reqDrain_balanced (hone.allowed hcode) h)

theorem quicStreamResetCb_balanced {n : Nat} {sid errorCode : Nat} {ret : Int}
    (h : quicStreamResetCb q back n w sid errorCode = some (ret, w')) : Balanced w w' := by
  unfold quicStreamResetCb at h
  obtain ⟨found, hfind, h⟩ := Option.bind_eq_some_iff.1 h
  have hfind := AppRun.find_some hfind
  cases found with
  | none =>
    obtain ⟨-, rfl⟩ := Prod.mk.inj (Option.some.inj h)
    exact Settles.refl w
  | some s =>
    obtain ⟨w1, h1, h⟩ := Option.bind_eq_some_iff.1 h
    obtain ⟨-, rfl⟩ := Prod.mk.inj (Option.some.inj h)
    have hs : streamFind w.ctx s.streamId = some s := (streamFind_id hfind).symm ▸ hfind
    generalize hctx : (w.ctx.queueFn q (.resetStream sid errorCode s.sendOffset)).flushFn = ctx at h1
    have htr : ctx.trace = w.ctx.trace ++ [.queueFrame (.resetStream sid errorCode s.sendOffset)
        (q w.ctx.trace (.resetStream sid errorCode s.sendOffset)), .flush] := by
      rw [← hctx]
      exact append_assoc _ _ _
    have hframe : Balanced w { w with ctx := setStream ctx { s with sendState := .resetSent } } := by
      refine Settles.stream hs rfl ?_ htr ?_ ?_
      · rw [← hctx]
        rfl
      · intro sid' code length u hm
        simp at hm
      · intro u
        simp [calledBack, Effect.isDone]
    refine hframe.trans (reqDrain_balanced hback ?_ h1)
    refine .inr (.inr (.inr ⟨errorCode, s.sendOffset, q w.ctx.trace (.resetStream sid errorCode s.sendOffset), ?_, rfl⟩))
    show _ ∈ ctx.trace
    rw [htr]
    exact mem_append_right _ mem_cons_self

theorem quicStreamOnStopSendingCb_balanced {n : Nat} {sid : Nat}
    (h : quicStreamOnStopSendingCb q back n w sid = some w') : Balanced w w' := by
  unfold quicStreamOnStopSendingCb at h
  obtain ⟨found, -, h⟩ := Option.bind_eq_some_iff.1 h
  cases found with
  | none =>
    rw [← Option.some.inj h]
    exact Settles.refl w
  | some s =>
    dsimp only at h
    split at h
    · obtain ⟨⟨ret, w1⟩, h1, rfl⟩ := Option.map_eq_some_iff.1 h
      exact quicStreamResetCb_balanced hback h1
    · rw [← Option.some.inj h]
      exact Settles.refl w

theorem flushTurnCb_balanced {n now : Nat} {i : Nat} (h : flushTurnCb q back n now w i = some w') : Balanced w w' := by
  unfold flushTurnCb at h
  split at h
  · rw [← Option.some.inj h]
    exact Settles.refl w
  · obtain ⟨w1, h1, h⟩ := Option.bind_eq_some_iff.1 h
    obtain ⟨w2, h2, h⟩ := Option.bind_eq_some_iff.1 h
    obtain ⟨w3, h3, h4⟩ := Option.bind_eq_some_iff.1 h
    have hexpired := reqDrain_balanced hback (.inr (.inl rfl)) h1
    have hsent : Balanced w1 w2 := by
      refine through_settles (fun {s} hs _ hf => ?_) h2
      split at hf
      · exact consumeSendBufCb_settles hback hs rfl (fun _ => rfl) hf
      · exact maybeNotifyWritableCb_balanced hback hs hf
    have hfired : Balanced w2 w3 := through_settles (fun _ _ hf => reqDrain_balanced hback (.inl rfl) hf) h3
    have hnotify : Balanced w3 w' := through_settles (fun hs _ hf => maybeNotifyWritableCb_balanced hback hs hf) h4
    exact ((hexpired.trans hsent).trans hfired).trans hnotify

theorem quicStreamFlushPendingCb_balanced {n now : Nat}
    (h : quicStreamFlushPendingCb q back n w now = some w') : Balanced w w' := by
  unfold quicStreamFlushPendingCb at h
  split at h
  · rw [← Option.some.inj h]
    exact Settles.refl w
  · split at h
    · cases h
    · obtain ⟨w1, h1, h⟩ := Option.bind_eq_some_iff.1 h
      have hturns : Balanced w w1 := by
        refine foldlM_inv (flushTurnCb q back n now) (fun _ _ => True) (Balanced w) ?_ _ _ w1 ?_
          (stepsOkM_of_forall _ _ _ _ fun _ _ _ => trivial) h1
        · intro w2 i w3 h2 _ hstep
          exact h2.trans (flushTurnCb_balanced hback hstep)
        · exact AppRun.flushing_balanced w true
      rw [← Option.some.inj h]
      exact hturns.trans (AppRun.flushing_balanced w1 false)

theorem appStep_balanced {n : Nat} {c : AppCall} (h : appStep q back n w c = some w') : Balanced w w' := by
  unfold appStep at h
  obtain ⟨⟨ret, w1⟩, h1, rfl⟩ := Option.map_eq_some_iff.1 h
  have hother : (∀ u, c.writes u = false) → Balanced w w1 → Balanced w (w1.answer c ret) := by
    intro hc hw
    refine Settles.answer ?_
    simpa [owes, hc] using hw
  cases c with
  | write sid data fin cb timeoutMs now => exact (quicStreamWriteCb_settles hback h1).answer
  | flushPending now =>
    obtain ⟨w2, h2, he⟩ := Option.map_eq_some_iff.1 h1
    obtain ⟨-, rfl⟩ := Prod.mk.inj he
    exact hother (fun _ => rfl) (quicStreamFlushPendingCb_balanced hback h2)
  | reset sid errorCode => exact hother (fun _ => rfl) (quicStreamResetCb_balanced hback h1)
  | onStopSending sid =>
    obtain ⟨w2, h2, he⟩ := Option.map_eq_some_iff.1 h1
    obtain ⟨-, rfl⟩ := Prod.mk.inj he
    exact hother (fun _ => rfl) (quicStreamOnStopSendingCb_balanced hback h2)

end Callback

theorem callback_balanced (q : QueueFn) (script : Script) : ∀ {n : Nat} {w w' : AppRun},
    callback q script n w = some w' → Balanced w w'
  | 0, _, _, h => by cases h
  | n + 1, w, w', h => by
    unfold callback at h
    split at h
    · rw [← Option.some.inj h]
      exact Settles.refl w
    · obtain ⟨w1, h1, h⟩ := Option.bind_eq_some_iff.1 h
      have hasked : Balanced w { w with called := w.called + 1 } := ⟨rfl, rfl, Adds.refl _ _, fun _ _ => rfl, id⟩
      have hstep := appStep_balanced (callback_balanced q script) h1
      exact (hasked.trans hstep).trans (callback_balanced q script h)

/-! ## `quic_stream_cleanup` -/

def ReqsDrained (w : AppRun) (sid : Nat) : Prop := ∀ s, streamFind w.ctx sid = some s → s.writeReqs = []

theorem AppRun.find_freed {w : AppRun} (hfreed : w.freed ≠ 0) (sid : Nat) : w.find sid = none := if_neg hfreed

theorem callApp_freed {q : QueueFn} {back : AppRun → Option AppRun} {n : Nat} {w w' : AppRun} {c : AppCall} {ret : Int}
    (hfreed : w.freed ≠ 0) (h : callApp q back n w c = some (ret, w')) : w' = w := by
  cases c with
  | write sid data fin cb timeoutMs now =>
    simp [callApp, quicStreamWriteCb, AppRun.find_freed hfreed] at h
  | flushPending now =>
    obtain ⟨w1, h1, he⟩ := Option.map_eq_some_iff.1 h
    unfold quicStreamFlushPendingCb at h1
    rw [if_pos hfreed] at h1
    split at h1
    · rw [← (Prod.mk.inj he).2, ← Option.some.inj h1]
    · cases h1
  | reset sid errorCode => simp [callApp, quicStreamResetCb, AppRun.find_freed hfreed] at h
  | onStopSending sid => simp [callApp, quicStreamOnStopSendingCb, AppRun.find_freed hfreed] at h

theorem callback_freed (q : QueueFn) (script : Script) : ∀ {n : Nat} {w w' : AppRun}, w.freed ≠ 0 →
    callback q script n w = some w' → w'.ctx = w.ctx ∧ w'.freed = w.freed
  | 0, _, _, _, h => by cases h
  | n + 1, w, w', hfreed, h => by
    unfold callback at h
    split at h
    · rw [← Option.some.inj h]
      exact ⟨rfl, rfl⟩
    · obtain ⟨w1, h1, h2⟩ := Option.bind_eq_some_iff.1 h
      obtain ⟨⟨ret, w2⟩, h3, rfl⟩ := Option.map_eq_some_iff.1 h1
      have hsame := callApp_freed (w := { w with called := w.called + 1 }) hfreed h3
      subst hsame
      have hrest := callback_freed (w := { w with called := w.called + 1 }.answer _ ret) q script hfreed h2
      exact hrest

section Cleanup

variable {back : AppRun → Option AppRun} {n : Nat}

theorem reqFailAllCb_drained {sid : Nat} {code : Int} : ∀ {n : Nat} {w w' : AppRun},
    reqFailAllCb back n w sid code = some w' → ReqsDrained w' sid
  | 0, _, _, h => by cases h
  | n + 1, w, w', h => by
    obtain ⟨rfl, hend⟩ | ⟨s, r, rs, w1, -, -, -, -, h⟩ := reqDrain_succ h
    · intro s hs
      cases hreqs : s.writeReqs with
      | nil => rfl
      | cons r rs => cases hend s r rs hs hreqs
    · exact reqFailAllCb_drained h

theorem reqFailAllCb_others (hfreed : ∀ {w w'}, w.freed ≠ 0 → back w = some w' → w'.ctx = w.ctx ∧ w'.freed = w.freed)
    {sid sid' : Nat} {code : Int} (hne : sid' ≠ sid) : ∀ {n : Nat} {w w' : AppRun}, w.freed ≠ 0 →
    reqFailAllCb back n w sid code = some w' → streamFind w'.ctx sid' = streamFind w.ctx sid'
  | 0, _, _, _, h => by cases h
  | n + 1, w, w', hw, h => by
    obtain ⟨rfl, -⟩ | ⟨s, r, rs, w1, -, hid, -, h1, h⟩ := reqDrain_succ h
    · rfl
    · obtain ⟨hctx, hf⟩ := hfreed (w := (w.set { s with writeReqs := rs }).call _) hw h1
      refine (reqFailAllCb_others hfreed hne (hf.symm ▸ hw) h).trans ?_
      rw [hctx]
      exact streamFind_setStream_ne (s := { s with writeReqs := rs }) (hid ▸ hne)

theorem Settles.setFreed {d : Nat → Nat} {w w' : AppRun} (h : Settles d w w') (k : Nat) :
    Settles d { w with freed := k } { w' with freed := k } := ⟨h.ids, rfl, h.grows, h.balance, h.codes⟩

theorem cleanupTurns_drained (hback : ∀ {w w'}, back w = some w' → Balanced w w')
    (hfreed : ∀ {w w'}, w.freed ≠ 0 → back w = some w' → w'.ctx = w.ctx ∧ w'.freed = w.freed) :
    ∀ (k : Nat) {i : Nat} {w w' : AppRun}, w.Distinct → w.freed = i → i + k = w.ctx.streams.length →
      (∀ j s, j < i → w.ctx.streams[j]? = some s → ReqsDrained w s.streamId) →
      (range' i k).foldlM (cleanupTurn back n) w = some w' →
      Balanced { w with freed := 0 } { w' with freed := 0 } ∧ ∀ s ∈ w'.ctx.streams, ReqsDrained w' s.streamId
  | 0, i, w, w', _, _, hlen, hdone, h => by
    rw [← Option.some.inj h]
    refine ⟨Settles.refl _, fun s hs => ?_⟩
    obtain ⟨j, hj⟩ := mem_iff_getElem?.1 hs
    have hjlt := (List.getElem?_eq_some_iff.1 hj).1
    exact hdone j s (by omega) hj
  | k + 1, i, w, w', hd, hi, hlen, hdone, h => by
    rw [range'_succ] at h
    obtain ⟨w1, h1, h⟩ := (foldlM_cons_some _).1 h
    unfold cleanupTurn at h1
    cases hs : w.ctx.streams[i]? with
    | none =>
      have := List.getElem?_eq_none_iff.1 hs
      omega
    | some s =>
      rw [hs] at h1
      obtain ⟨w2, h2, rfl⟩ := Option.map_eq_some_iff.1 h1
      have hstep : Balanced w w2 := reqDrain_balanced hback (.inr (.inr (.inl rfl))) h2
      have hdrained : ReqsDrained w2 s.streamId := reqFailAllCb_drained h2
      have hids := congrArg List.length hstep.ids
      rw [length_map, length_map] at hids
      have hat : ∀ (j : Nat) (t : QuicStream), w2.ctx.streams[j]? = some t →
          ∃ t' : QuicStream, w.ctx.streams[j]? = some t' ∧ t'.streamId = t.streamId := by
        intro j t ht
        have hmap := congrArg (fun l => l[j]?) hstep.ids
        simp only [List.getElem?_map, ht, Option.map_some] at hmap
        obtain ⟨t', ht', he⟩ := Option.map_eq_some_iff.1 hmap.symm
        exact ⟨t', ht', he⟩
      have hrest := cleanupTurns_drained hback hfreed k (i := i + 1) (w := { w2 with freed := i + 1 })
        (hstep.distinct hd) rfl (by show i + 1 + k = w2.ctx.streams.length; omega) ?_ h
      · exact ⟨(hstep.setFreed 0).trans hrest.1, hrest.2⟩
      · intro j t hj ht
        obtain ⟨t', ht', hid⟩ := hat j t ht
        rw [← hid]
        by_cases hji : j = i
        · subst hji
          rw [Option.some.inj (ht'.symm.trans hs)]
          exact hdrained
        · have hne : t'.streamId ≠ s.streamId := by
            intro he
            refine hji ((List.getElem?_inj ?_ hd).1 ?_)
            · rw [length_map]
              omega
            · rw [List.getElem?_map, List.getElem?_map, ht', hs, Option.map_some, Option.map_some, he]
          intro u hu
          refine hdone j t' (by omega) ht' u ?_
          rw [← reqFailAllCb_others hfreed hne (by omega) h2]
          exact hu

end Cleanup

/-! ## A run -/

structure AtRest (ctx : QuicStreamCtx) : Prop where
  distinct : (ctx.streams.map QuicStream.streamId).Nodup
  idle : ∀ s ∈ ctx.streams, s.writeReqs = []
  quiet : ∀ e ∈ ctx.trace, ∀ u, e.isDone u = false

/-- Each write that was taken or turned down was called back once: a callback that only one write was given, which
returned 0, was called once. -/
structure CalledOnce (w : AppRun) : Prop where
  count : ∀ u, calledBack u w.ctx.trace = writesAnswered u 0 w.answered + writesAnswered u (-1) w.answered
  once : ∀ u, w.answered.countP (fun a => a.1.writes u) = 1 → writesAnswered u 0 w.answered = 1 →
    calledBack u w.ctx.trace = 1
  codes : CodesAllowed w.ctx.trace

theorem pendingFor_eq_zero {u : Nat} {l : List QuicStream} (h : ∀ s ∈ l, s.writeReqs = []) : pendingFor u l = 0 := by
  unfold pendingFor
  rw [map_congr_left (g := fun _ => 0) fun s hs => by rw [h s hs]; rfl]
  simp

theorem writesAnswered_cons (u : Nat) (ret : Int) (a : AppCall × Int) (l : List (AppCall × Int)) :
    writesAnswered u ret (a :: l) = writesAnswered u ret l + if a.1.writes u ∧ a.2 = ret then 1 else 0 := by
  unfold writesAnswered
  rw [countP_cons]
  simp

theorem writesAnswered_disjoint (u : Nat) : ∀ l : List (AppCall × Int),
    writesAnswered u 0 l + writesAnswered u (-1) l ≤ l.countP (fun a => a.1.writes u)
  | [] => Nat.le_refl _
  | a :: l => by
    have ih := writesAnswered_disjoint u l
    rw [writesAnswered_cons, writesAnswered_cons, countP_cons]
    by_cases hu : a.1.writes u = true
    · by_cases h0 : a.2 = 0
      · simp only [hu, h0]
        simp
        omega
      · simp only [hu, h0]
        simp
        split <;> omega
    · simp only [hu]
      simp
      omega

theorem appRun_calledOnce (q : QueueFn) (script : Script) (n : Nat) (calls : List AppCall) {ctx : QuicStreamCtx}
    (h : AtRest ctx) {w : AppRun} (hrun : appRun q script n calls ctx = some w) : CalledOnce w := by
  obtain ⟨w1, h1, hclean⟩ := Option.bind_eq_some_iff.1 hrun
  obtain ⟨w2, h2, hw⟩ := Option.bind_eq_some_iff.1 hclean
  have hcalls : Balanced { ctx } w1 := by
    refine foldlM_inv _ (fun _ _ => True) (Balanced { ctx }) ?_ calls _ w1 (Settles.refl _)
      (stepsOkM_of_forall _ _ _ _ fun _ _ _ => trivial) h1
    intro w3 c w4 h3 _ hstep
    exact h3.trans (appStep_balanced (callback_balanced q script) hstep)
  have hstart : ({ ctx } : AppRun).Distinct := h.distinct
  have hfreed : w1.freed = 0 := hcalls.freed
  rw [range_eq_range'] at h2
  obtain ⟨hturns, hdrained⟩ := cleanupTurns_drained (callback_balanced q script) (callback_freed q script) _
    (hcalls.distinct hstart) hfreed (Nat.zero_add _) (fun j s hj _ => absurd hj (Nat.not_lt_zero j)) h2
  have hall : Balanced { ctx } { w2 with freed := 0 } := by
    refine hcalls.trans ?_
    rw [← hfreed] at hturns ⊢
    exact hturns
  have hend : w.ctx.trace = w2.ctx.trace ∧ w.answered = w2.answered := by
    rw [← Option.some.inj hw]
    exact ⟨rfl, rfl⟩
  have hnone : ∀ s ∈ w2.ctx.streams, s.writeReqs = [] := fun s hs =>
    hdrained s hs s (lookup_of_mem QuicStream.streamId (hall.distinct hstart) hs)
  have hcount : ∀ u, calledBack u w.ctx.trace = writesAnswered u 0 w.answered + writesAnswered u (-1) w.answered := by
    intro u
    have hbal := hall.balance hstart u
    have hquiet : calledBack u ctx.trace = 0 := calledBack_eq_zero fun e he => h.quiet e he u
    have hidle : pendingFor u ctx.streams = 0 := pendingFor_eq_zero h.idle
    have hleft : pendingFor u w2.ctx.streams = 0 := pendingFor_eq_zero hnone
    have hno : owed u ([] : List (AppCall × Int)) = 0 := rfl
    rw [hend.1, hend.2]
    simp only [hquiet, hidle, hleft, hno] at hbal
    unfold owed at hbal
    omega
  refine ⟨hcount, fun u hone hzero => ?_, ?_⟩
  · have hle := writesAnswered_disjoint u w.answered
    rw [hcount u]
    omega
  · rw [hend.1]
    refine hall.codes ?_
    intro sid code length u hm
    exact absurd (h.quiet _ hm u) (by simp [Effect.isDone])

end MoqLiveCast
