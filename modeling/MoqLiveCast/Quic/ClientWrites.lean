import MoqLiveCast.Quic.ClientApi
import MoqLiveCast.Quic.WriteLedger
/-!
# ClientWrites — what becomes of the writes of a client

A write passes two gates: the task queue, which drops it when it is full, and the high water mark of the stream's send
buffer, where `quic_stream_write` turns it away with 1 ("kept by the queue above", which has already let go of it).  Neither
says so to the caller, and the next write that is small enough passes: `hole_in_stream`.
-/
namespace MoqLiveCast
namespace QcClient

/-- A client's run, with the writes it was asked for, the callbacks it was given with them, and the writes that were taken. -/
structure WriteRun where
  client : QcClient
  written : List (Nat × List Byte) := []
  given : List Nat := []
  accepted : List (Nat × List Byte) := []

def WriteRun.ask (r : WriteRun) : QcTask → WriteRun
  | .streamWrite sid data _ cb _ => { r with written := r.written ++ [(sid, data)], given := r.given ++ cb.toList }
  | _ => r

def WriteRun.note (r : WriteRun) : Done → WriteRun
  | .wrote sid data ret => if ret = 0 then { r with accepted := r.accepted ++ [(sid, data)] } else r
  | _ => r

def writeStep (q : QueueFn) (r : WriteRun) (e : Event) : WriteRun :=
  let (client, done) := r.client.step q e
  let r := match e with
    | .push t => r.ask t
    | _ => r
  { r.note done with client }

def bytesOn (sid : Nat) (l : List (Nat × List Byte)) : List Byte :=
  l.flatMap fun w => if w.1 = sid then w.2 else []

def queuedOn (sid : Nat) (ts : List QcTask) : List Byte :=
  ts.flatMap fun t => match t with
    | .streamWrite id data _ _ _ => if id = sid then data else []
    | _ => []

def QcTask.givenCb (u : Nat) : QcTask → Bool
  | .streamWrite _ _ _ cb _ => cb = some u
  | _ => false

def QcTask.isWrite : QcTask → Bool
  | .streamWrite .. => true
  | _ => false

/-- The writes in the queue with the callback `u`. -/
def queuedFor (u : Nat) (ts : List QcTask) : Nat := ts.countP (QcTask.givenCb u)

/-- **What a stream has taken is the first part of what was written to it, and every write callback was called once or
waits to be**: its write is in the queue, or on the stream's list. -/
structure WritesWhole (sid : Nat) (r : WriteRun) : Prop where
  bytes : bytesOn sid r.accepted <+: bytesOn sid r.written
  callbacks : ∀ u, calledBack u r.client.ctx.trace + pendingFor u r.client.ctx.streams + queuedFor u r.client.tasks =
    r.given.count u

/-- **No write is pushed on a full queue, and none meets the high water mark**; nor is the stream's id opened again once the
stream has ended. -/
def NoWriteLost (sid : Nat) (r : WriteRun) : Event → Prop
  | .push (.streamWrite ..) => r.client.tasks.length < QC_TASK_QUEUE_MAX
  | .turn _ =>
    match r.client.tasks with
    | .streamWrite id data _ _ _ :: _ => ∀ s ∈ streamFind r.client.ctx id, SendEnded s ∨ ¬ Congested s data.length
    | .openStream uni :: _ => OpensAnother sid r.client.ctx (if uni then .openUni else .openBidi)
    | _ => True
  | _ => True

instance (sid : Nat) (r : WriteRun) (e : Event) : Decidable (NoWriteLost sid r e) := by
  unfold NoWriteLost
  split
  · infer_instance
  · split <;> infer_instance
  · infer_instance

structure WriteStart (sid : Nat) where
  client : QcClient
  rest : AtRest client.ctx
  listens : client.ctx.onStreamData = true
  known : (streamFind client.ctx sid).isSome
  idle : client.tasks = []

def WriteStart.run {sid : Nat} (st : WriteStart sid) : WriteRun := { client := st.client }

/-- What carries the property: what is missing between the data taken and the data queued was turned down, because the
stream had ended. -/
structure WriteInv (sid : Nat) (r : WriteRun) : Prop where
  ready : RecvReady r.client.ctx
  known : (streamFind r.client.ctx sid).isSome
  bytes : ∃ refused, bytesOn sid r.written = bytesOn sid r.accepted ++ refused ++ queuedOn sid r.client.tasks ∧
    (refused ≠ [] → EndedAt sid r.client.ctx)
  callbacks : ∀ u, calledBack u r.client.ctx.trace + pendingFor u r.client.ctx.streams + queuedFor u r.client.tasks =
    r.given.count u

section Writes

variable {q : QueueFn} {sid : Nat} {r : WriteRun}

theorem bytesOn_snoc (sid : Nat) (l : List (Nat × List Byte)) (id : Nat) (data : List Byte) :
    bytesOn sid (l ++ [(id, data)]) = bytesOn sid l ++ if id = sid then data else [] := by
  simp [bytesOn]

theorem queuedFor_cons (u : Nat) (t : QcTask) (ts : List QcTask) :
    queuedFor u (t :: ts) = queuedFor u ts + if QcTask.givenCb u t then 1 else 0 := by
  unfold queuedFor
  rw [List.countP_cons]

theorem queuedFor_snoc (u : Nat) (ts : List QcTask) (t : QcTask) :
    queuedFor u (ts ++ [t]) = queuedFor u ts + if QcTask.givenCb u t then 1 else 0 := by
  unfold queuedFor
  rw [List.countP_append, List.countP_singleton]

theorem WriteInv.whole (h : WriteInv sid r) : WritesWhole sid r := by
  obtain ⟨refused, hbytes, -⟩ := h.bytes
  refine ⟨⟨refused ++ queuedOn sid r.client.tasks, ?_⟩, h.callbacks⟩
  rw [hbytes, List.append_assoc]

theorem WriteInv.quiet (h : WriteInv sid r) {c : QcClient} (hk : WritesKept sid noCallback r.client.ctx c.ctx)
    (hready : RecvReady c.ctx) (hbytes : queuedOn sid c.tasks = queuedOn sid r.client.tasks)
    (hcbs : ∀ u, queuedFor u c.tasks = queuedFor u r.client.tasks) : WriteInv sid { r with client := c } := by
  obtain ⟨refused, hwritten, hend⟩ := h.bytes
  refine ⟨hready, hk.known h.known, ⟨refused, ?_, fun hne => hk.ended (hend hne)⟩, fun u => ?_⟩
  · show _ = bytesOn sid r.accepted ++ refused ++ queuedOn sid c.tasks
    rw [hbytes]
    exact hwritten
  · have hled : _ = _ + 0 := hk.ledger h.ready.nodup u
    have hcb := h.callbacks u
    show calledBack u c.ctx.trace + pendingFor u c.ctx.streams + queuedFor u c.tasks = r.given.count u
    rw [hcbs u]
    omega

theorem WriteInv.layer (h : WriteInv sid r) {c : QcClient} (call : StreamCall) (hctx : c.ctx = streamStep q r.client.ctx call)
    (howes : call.owes q r.client.ctx = noCallback) (hopens : OpensAnother sid r.client.ctx call)
    (hbytes : queuedOn sid c.tasks = queuedOn sid r.client.tasks)
    (hcbs : ∀ u, queuedFor u c.tasks = queuedFor u r.client.tasks) : WriteInv sid { r with client := c } := by
  have hk := streamStep_ledger q sid r.client.ctx h.ready.nodup call hopens
  rw [howes, ← hctx] at hk
  refine h.quiet hk ?_ hbytes hcbs
  rw [hctx]
  exact streamStep_ready call h.ready

theorem quicStreamWrite_ret (q : QueueFn) (ctx : QuicStreamCtx) (id : Nat) (data : List Byte) (fin : Bool) (cb : Option Nat)
    (timeoutMs now : Nat) :
    let ret := (quicStreamWrite q ctx id data fin cb timeoutMs now).1
    (∃ s, streamFind ctx id = some s ∧ ¬ SendEnded s ∧
      (Congested s data.length ∧ ret = 1 ∨ ¬ Congested s data.length ∧ ret = 0)) ∨
    (∀ s, streamFind ctx id = some s → SendEnded s) ∧ ret = -1 := by
  unfold quicStreamWrite
  cases hs : streamFind ctx id with
  | none => exact .inr ⟨nofun, rfl⟩
  | some s =>
    by_cases hend : SendEnded s
    · refine .inr ⟨fun t ht => ?_, ?_⟩
      · rw [← Option.some.inj ht]
        exact hend
      · simp [hend]
    · refine .inl ⟨s, rfl, hend, ?_⟩
      by_cases hcong : Congested s data.length <;> simp [hend, hcong]

theorem LayerCall.owes_none (c : LayerCall) (q : QueueFn) (ctx : QuicStreamCtx) : c.call.owes q ctx = noCallback := by
  obtain ⟨call, own⟩ := c
  cases call with
  | send call =>
    cases call with
    | write => cases own
    | _ => rfl
  | _ => rfl

theorem LayerCall.opensAnother (c : LayerCall) (sid : Nat) (ctx : QuicStreamCtx) : OpensAnother sid ctx c.call := by
  obtain ⟨call, own⟩ := c
  cases call with
  | openBidi => cases own
  | openUni => cases own
  | _ => trivial

theorem WriteInv.write (h : WriteInv sid r) {id : Nat} {data : List Byte} {fin : Bool} {cb : Option Nat}
    {timeout now : Nat} {ts : List QcTask} (htasks : r.client.tasks = .streamWrite id data fin cb timeout :: ts)
    (hok : ∀ s ∈ streamFind r.client.ctx id, SendEnded s ∨ ¬ Congested s data.length) :
    let w := quicStreamWrite q r.client.ctx id data fin cb timeout now
    WriteInv sid { r.note (.wrote id data w.1) with client := { r.client with tasks := ts, ctx := w.2 } } := by
  have hk := quicStreamWrite_ledger q sid r.client.ctx id data fin cb timeout now
  have hready : RecvReady (quicStreamWrite q r.client.ctx id data fin cb timeout now).2 :=
    streamStep_ready (.send (.write id data fin cb timeout now)) h.ready
  have hret := quicStreamWrite_ret q r.client.ctx id data fin cb timeout now
  obtain ⟨refused, hwritten, hend⟩ := h.bytes
  have hqueued : queuedOn sid r.client.tasks = (if id = sid then data else []) ++ queuedOn sid ts := by
    rw [htasks]
    rfl
  rw [hqueued] at hwritten
  dsimp only at hret ⊢
  generalize quicStreamWrite q r.client.ctx id data fin cb timeout now = w at hk hready hret ⊢
  have hanswer : w.1 = 0 ∧ (id = sid → ¬ EndedAt sid r.client.ctx) ∨ w.1 = -1 ∧ (id = sid → EndedAt sid r.client.ctx) := by
    rcases hret with ⟨s, hs, htaking, ⟨hcong, -⟩ | ⟨-, hret⟩⟩ | ⟨hended, hret⟩
    · exact ((hok s hs).elim htaking fun hnot => hnot hcong).elim
    · refine .inl ⟨hret, ?_⟩
      rintro rfl ⟨t, ht, hend⟩
      have ht : streamFind r.client.ctx id = some t := ht
      rw [hs] at ht
      exact htaking (Option.some.inj ht ▸ hend)
    · refine .inr ⟨hret, ?_⟩
      rintro rfl
      obtain ⟨s, hs⟩ := Option.isSome_iff_exists.1 h.known
      exact ⟨s, hs, hended s hs⟩
  have hcalled : ∀ u, calledBack u w.2.trace + pendingFor u w.2.streams + queuedFor u ts = r.given.count u := by
    intro u
    have hled := hk.ledger h.ready.nodup u
    have hcb := h.callbacks u
    rw [htasks, queuedFor_cons] at hcb
    have howes : writeOwes cb w.1 u = if QcTask.givenCb u (.streamWrite id data fin cb timeout) then 1 else 0 := by
      rcases hanswer with ⟨h0, -⟩ | ⟨h0, -⟩ <;> simp [writeOwes, QcTask.givenCb, h0]
    omega
  rcases hanswer with ⟨h0, htaking⟩ | ⟨h1, hended⟩
  · have hnote : r.note (.wrote id data w.1) = { r with accepted := r.accepted ++ [(id, data)] } := if_pos h0
    rw [hnote]
    refine ⟨hready, hk.known h.known, ⟨refused, ?_, fun hne => hk.ended (hend hne)⟩, hcalled⟩
    show bytesOn sid r.written = bytesOn sid (r.accepted ++ [(id, data)]) ++ refused ++ queuedOn sid ts
    rw [bytesOn_snoc, hwritten]
    by_cases hid : id = sid
    · have hnone : refused = [] := by
        by_contra hne
        exact htaking hid (hend hne)
      simp [hnone, hid]
    · simp [hid]
  · have hnote : r.note (.wrote id data w.1) = r := if_neg (by rw [h1]; decide)
    rw [hnote]
    refine ⟨hready, hk.known h.known, ⟨refused ++ if id = sid then data else [], ?_, fun hne => ?_⟩, hcalled⟩
    · show bytesOn sid r.written = bytesOn sid r.accepted ++ (refused ++ _) ++ queuedOn sid ts
      rw [hwritten]
      simp only [List.append_assoc]
    · by_cases hid : id = sid
      · exact hk.ended (hended hid)
      · rw [if_neg hid, List.append_nil] at hne
        exact hk.ended (hend hne)

theorem queued_other {t : QcTask} (ht : QcTask.isWrite t = false) (sid : Nat) (ts : List QcTask) :
    queuedOn sid (t :: ts) = queuedOn sid ts ∧ ∀ u, queuedFor u (t :: ts) = queuedFor u ts := by
  have hcb : ∀ u, QcTask.givenCb u t = false := fun u => by
    cases t <;> first | rfl | cases ht
  refine ⟨?_, fun u => ?_⟩
  · cases t <;> first | rfl | cases ht
  · rw [queuedFor_cons, hcb u]
    rfl

variable (sid) in
theorem taskPush_queued (c : QcClient) {t : QcTask} (ht : QcTask.isWrite t = false) :
    queuedOn sid (c.taskPush t).tasks = queuedOn sid c.tasks ∧ ∀ u, queuedFor u (c.taskPush t).tasks = queuedFor u c.tasks := by
  obtain ⟨hbytes, hcbs⟩ := queued_other ht sid []
  unfold taskPush
  split
  · exact ⟨rfl, fun _ => rfl⟩
  · refine ⟨?_, fun u => ?_⟩
    · show (c.tasks ++ [t]).flatMap _ = _
      rw [List.flatMap_append]
      exact (congrArg _ hbytes).trans (List.append_nil _)
    · have hone := hcbs u
      rw [queuedFor_cons] at hone
      rw [queuedFor_snoc]
      omega

theorem taskPush_ctx (c : QcClient) (t : QcTask) : (c.taskPush t).ctx = c.ctx := by
  unfold taskPush
  split <;> rfl

theorem note_doOpenStream (r : WriteRun) (c : QcClient) (uni : Bool) : r.note (doOpenStream q c uni).2 = r := by
  have hopen : ∀ id, r.note (if id = NO_STREAM then .openFailed uni else .opened uni id) = r := fun id => by
    split <;> rfl
  exact hopen _

theorem writeStep_inv (h : WriteInv sid r) (e : Event) (hok : NoWriteLost sid r e) : WriteInv sid (writeStep q r e) := by
  have hsame : ∀ {c : QcClient}, c.ctx = r.client.ctx → queuedOn sid c.tasks = queuedOn sid r.client.tasks →
      (∀ u, queuedFor u c.tasks = queuedFor u r.client.tasks) → WriteInv sid { r with client := c } := by
    intro c hctx
    refine h.quiet ?_ ?_
    · rw [hctx]
      exact WritesKept.refl sid _
    · rw [hctx]
      exact h.ready
  cases e with
  | push t =>
    have hpush : QcTask.isWrite t = false → WriteInv sid { r with client := r.client.taskPush t } := fun ht =>
      hsame (taskPush_ctx _ _) (taskPush_queued sid r.client ht).1 (taskPush_queued sid r.client ht).2
    cases t with
    | streamWrite id data fin cb timeout =>
      have hroom : ¬ r.client.Drops (.streamWrite id data fin cb timeout) := fun hd => Nat.not_lt.2 hd.2 hok
      have hpush : r.client.taskPush (.streamWrite id data fin cb timeout) =
          { r.client with tasks := r.client.tasks ++ [.streamWrite id data fin cb timeout] } := if_neg hroom
      obtain ⟨refused, hwritten, hend⟩ := h.bytes
      show WriteInv sid { r.ask _ with client := r.client.taskPush _ }
      rw [hpush]
      refine ⟨h.ready, h.known, ⟨refused, ?_, hend⟩, fun u => ?_⟩
      · show bytesOn sid (r.written ++ [(id, data)]) = bytesOn sid r.accepted ++ refused ++
          (r.client.tasks ++ [QcTask.streamWrite id data fin cb timeout]).flatMap _
        rw [bytesOn_snoc, hwritten, List.flatMap_append]
        simp [queuedOn]
      · have hcb := h.callbacks u
        show calledBack u r.client.ctx.trace + pendingFor u r.client.ctx.streams + queuedFor u (r.client.tasks ++ [_]) =
          (r.given ++ cb.toList).count u
        rw [queuedFor_snoc, List.count_append]
        have hone : cb.toList.count u = if QcTask.givenCb u (.streamWrite id data fin cb timeout) then 1 else 0 := by
          cases cb with
          | none => rfl
          | some v => simp [QcTask.givenCb, List.count_singleton]
        omega
    | connect => exact hpush rfl
    | close => exact hpush rfl
    | openStream uni => exact hpush rfl
    | streamClose id => exact hpush rfl
    | streamReset id errorCode => exact hpush rfl
  | turn now =>
    show WriteInv sid { r.note (r.client.asyncTurn q now).2 with client := (r.client.asyncTurn q now).1 }
    unfold NoWriteLost at hok
    unfold asyncTurn
    cases htasks : r.client.tasks with
    | nil => exact h
    | cons t ts =>
      rw [htasks] at hok
      have hpop : QcTask.isWrite t = false → queuedOn sid ts = queuedOn sid r.client.tasks ∧
          ∀ u, queuedFor u ts = queuedFor u r.client.tasks := fun ht => by
        rw [htasks]
        exact ⟨((queued_other ht sid ts).1).symm, fun u => ((queued_other ht sid ts).2 u).symm⟩
      cases t with
      | streamWrite id data fin cb timeout => exact h.write htasks hok
      | openStream uni =>
        obtain ⟨hb, hu⟩ := hpop rfl
        show WriteInv sid { r.note (runTask q now { r.client with tasks := ts } (.openStream uni)).2 with
          client := (runTask q now { r.client with tasks := ts } (.openStream uni)).1 }
        unfold runTask
        dsimp only
        split
        · rw [note_doOpenStream]
          refine h.layer (q := q) (if uni then .openUni else .openBidi) ?_ ?_ hok ?_ ?_
          · cases uni <;> rfl
          · cases uni <;> rfl
          · exact hb
          · exact hu
        · exact hsame rfl hb hu
      | streamClose id =>
        obtain ⟨hb, hu⟩ := hpop rfl
        show WriteInv sid { r with client := if _ then _ else _ }
        split
        · exact h.layer (q := q) (.send (.closeSend id)) rfl rfl trivial hb hu
        · exact hsame rfl hb hu
      | streamReset id errorCode =>
        obtain ⟨hb, hu⟩ := hpop rfl
        show WriteInv sid { r with client := if _ then _ else _ }
        split
        · exact h.layer (q := q) (.send (.reset id (taskErrorCode errorCode))) rfl rfl trivial hb hu
        · exact hsame rfl hb hu
      | connect =>
        obtain ⟨hb, hu⟩ := hpop rfl
        show WriteInv sid { r with client := if _ then _ else _ }
        split
        · exact hsame rfl hb hu
        · exact hsame rfl hb hu
      | close => exact hsame rfl (hpop rfl).1 (hpop rfl).2
  | onConnected => exact hsame rfl rfl fun _ => rfl
  | connectFailed => exact hsame rfl rfl fun _ => rfl
  | layer c => exact h.layer _ rfl (c.owes_none q r.client.ctx) (c.opensAnother sid r.client.ctx) rfl fun _ => rfl

end Writes

/-- **In every run whose steps lose no write**, each stream has taken the first part of what was written to it, and every
write callback was called once or waits to be. -/
theorem writes_whole (q : QueueFn) (sid : Nat) (st : WriteStart sid) (events : List Event)
    (hok : StepsOk (writeStep q) (NoWriteLost sid) st.run events) (pre post : List Event) (hpre : events = pre ++ post) :
    WritesWhole sid (pre.foldl (writeStep q) st.run) := by
  have hstart : WriteInv sid st.run := by
    refine ⟨⟨st.rest.distinct, st.listens⟩, st.known, ⟨[], ?_, fun h => absurd rfl h⟩, fun u => ?_⟩
    · show [] = [] ++ [] ++ queuedOn sid st.client.tasks
      rw [st.idle]
      rfl
    · have hquiet : calledBack u st.client.ctx.trace = 0 := calledBack_eq_zero fun e he => st.rest.quiet e he u
      have hnone : pendingFor u st.client.ctx.streams = 0 := pendingFor_eq_zero st.rest.idle
      show calledBack u st.client.ctx.trace + pendingFor u st.client.ctx.streams + queuedFor u st.client.tasks = 0
      rw [hquiet, hnone, st.idle]
      rfl
  rw [hpre, stepsOk_append] at hok
  exact (foldl_inv (writeStep q) (NoWriteLost sid) (WriteInv sid) (fun r e h he => writeStep_inv h e he) pre st.run hstart
    hok.1).whole

def nearMark : WriteStart 4 where
  client :=
    { state := .connected
      ctx := { streams := [{ streamId := 4, sendState := .send, sendBufLen := 524287, sendBufCap := 1048576 }] } }
  rest := ⟨by decide, by decide, nofun⟩
  listens := rfl
  known := rfl
  idle := rfl

def bigThenSmall : List Event :=
  [.push (.streamWrite 4 [1, 2] false (some 7) 30000), .push (.streamWrite 4 [3] false none 30000), .turn 0, .turn 0]

/-- **The stream takes the second write and not the first**, whose callback is never called. -/
theorem hole_in_stream :
    let r := bigThenSmall.foldl (writeStep fun _ _ => true) nearMark.run
    bytesOn 4 r.written = [1, 2, 3] ∧ bytesOn 4 r.accepted = [3] ∧ r.client.tasks = [] ∧
      calledBack 7 r.client.ctx.trace + pendingFor 7 r.client.ctx.streams = 0 ∧ ¬ WritesWhole 4 r := by
  have hbytes : bytesOn 4 (bigThenSmall.foldl (writeStep fun _ _ => true) nearMark.run).written = [1, 2, 3] := by
    decide +kernel
  have haccepted : bytesOn 4 (bigThenSmall.foldl (writeStep fun _ _ => true) nearMark.run).accepted = [3] := by
    decide +kernel
  refine ⟨hbytes, haccepted, by decide +kernel, by decide +kernel, fun h => ?_⟩
  have hpfx := h.bytes
  rw [hbytes, haccepted] at hpfx
  exact absurd hpfx (by decide)

/-- Written one after the other, with the queue and the buffer far from full. -/
theorem writes_whole_sample : WritesWhole 4 (([.push (.streamWrite 4 [1] false (some 7) 30000), .turn 0] : List Event).foldl
      (writeStep fun _ _ => true) nearMark.run) :=
  writes_whole (fun _ _ => true) 4 nearMark
    [.push (.streamWrite 4 [1] false (some 7) 30000), .turn 0, .push (.streamWrite 4 [3] false none 30000)]
    (by decide +kernel) _ [.push (.streamWrite 4 [3] false none 30000)] rfl

end QcClient
end MoqLiveCast
