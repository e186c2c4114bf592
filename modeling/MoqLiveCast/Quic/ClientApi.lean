import MoqLiveCast.Quic.StreamCalls
/-!
# ClientApi — the client's task queue (`quic_client_api.c`)

Any thread pushes tasks; the loop thread takes them, one in a turn of `async_cb`, and calls the stream layer.  A queue that
is full drops what is pushed, but for a close.

The host and the port of a connect task, the DNS lookup and the ALPN list are left out: what is kept of connecting is
`state`.  Freeing the client is the end of it.
-/
namespace MoqLiveCast

inductive QcState where
  | idle | connecting | connected | closing
deriving DecidableEq

/-- A stream is named by its id; a write callback by its `user`. -/
inductive QcTask where
  | connect
  | close
  | openStream (uni : Bool)
  | streamWrite (sid : Nat) (data : List Byte) (fin : Bool) (cb : Option Nat) (timeoutMs : Nat)
  | streamClose (sid : Nat)
  | streamReset (sid errorCode : Nat)
deriving DecidableEq

def QC_TASK_QUEUE_MAX : Nat := 1024
structure QcClient where
  state : QcState := .idle
  closing : Bool := false
  tasks : List QcTask := []
  ctx : QuicStreamCtx

namespace QcClient

def Drops (c : QcClient) (t : QcTask) : Prop := t ≠ .close ∧ QC_TASK_QUEUE_MAX ≤ c.tasks.length

instance (c : QcClient) (t : QcTask) : Decidable (c.Drops t) := inferInstanceAs (Decidable (_ ∧ _))

def taskPush (c : QcClient) (t : QcTask) : QcClient := if c.Drops t then c else { c with tasks := c.tasks ++ [t] }

/-- `quic_client_open_stream` and `quic_client_open_uni_stream`. -/
def quicClientOpen (c : QcClient) (uni : Bool) : QcClient := c.taskPush (.openStream uni)

/-- What a task has done: it opened a stream, or not; or it gave a write to the stream layer, which answered. -/
inductive Done where
  | nothing
  | opened (uni : Bool) (sid : Nat)
  | openFailed (uni : Bool)
  | wrote (sid : Nat) (data : List Byte) (ret : Int)
deriving DecidableEq

/-- `(uint64_t)(int)error_code`: a task has an `int` for it. -/
def taskErrorCode (errorCode : Nat) : Nat := ((BitVec.ofNat 32 errorCode).signExtend 64).toNat

section Loop

variable (q : QueueFn)

def doOpenStream (c : QcClient) (uni : Bool) : QcClient × Done :=
  let (sid, ctx) := if uni then quicStreamOpenUni q c.ctx else quicStreamOpen q c.ctx
  ({ c with ctx }, if sid = NO_STREAM then .openFailed uni else .opened uni sid)

/-- `do_stream_write`; the answer is not looked at. -/
def doStreamWrite (c : QcClient) (sid : Nat) (data : List Byte) (fin : Bool) (cb : Option Nat) (timeoutMs now : Nat) :
    QcClient × Done :=
  let (ret, ctx) := quicStreamWrite q c.ctx sid data fin cb timeoutMs now
  ({ c with ctx }, .wrote sid data ret)

def runTask (now : Nat) (c : QcClient) : QcTask → QcClient × Done
  | .connect => (if c.state = .idle then { c with state := .connecting } else c, .nothing)
  | .openStream uni =>
    if c.state = .connected ∧ c.closing = false then c.doOpenStream q uni else (c, .openFailed uni)
  | .streamWrite sid data fin cb timeout => c.doStreamWrite q sid data fin cb timeout now
  | .streamClose sid =>
    (if sid ≠ 0 then { c with ctx := quicStreamCloseSend q c.ctx sid } else c, .nothing)
  | .streamReset sid errorCode =>
    (if sid ≠ 0 then { c with ctx := (quicStreamReset q c.ctx sid (taskErrorCode errorCode)).2 } else c, .nothing)
  | .close => ({ c with closing := true, state := .closing }, .nothing)

def asyncTurn (now : Nat) (c : QcClient) : QcClient × Done :=
  match c.tasks with
  | [] => (c, .nothing)
  | t :: ts => runTask q now { c with tasks := ts } t

theorem runTask_tasks (now : Nat) (c : QcClient) (t : QcTask) : (runTask q now c t).1.tasks = c.tasks := by
  cases t with
  | openStream uni => cases uni <;> simp only [runTask, doOpenStream] <;> split <;> rfl
  | connect => simp only [runTask]; split <;> rfl
  | streamClose sid => simp only [runTask]; split <;> rfl
  | streamReset sid errorCode => simp only [runTask]; split <;> rfl
  | _ => rfl

theorem asyncTurn_tasks (now : Nat) (c : QcClient) : (asyncTurn q now c).1.tasks = c.tasks.tail := by
  unfold asyncTurn
  split
  · next h => rw [h]; rfl
  · next h => rw [h, runTask_tasks]; rfl

end Loop

/-- A call of the stream layer that no task makes: for a frame of the peer, by TLS, or by a timer. -/
structure LayerCall where
  call : StreamCall
  own : match call with
    | .send (.write ..) | .send (.send ..) | .openBidi | .openUni => False
    | _ => True

/-- A task is pushed, or taken; or the connection does something of its own. -/
inductive Event where
  | push (t : QcTask)
  | turn (now : Nat)
  | onConnected
  | connectFailed
  | layer (c : LayerCall)

variable (q : QueueFn)

def step (c : QcClient) : Event → QcClient × Done
  | .push t => (c.taskPush t, .nothing)
  | .turn now => c.asyncTurn q now
  | .onConnected => ({ c with state := .connected }, .nothing)
  | .connectFailed => ({ c with state := .idle }, .nothing)
  | .layer call => ({ c with ctx := streamStep q c.ctx call.call }, .nothing)

end QcClient
end MoqLiveCast
