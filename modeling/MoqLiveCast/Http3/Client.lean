import MoqLiveCast.Http3.QpackWrite
import MoqLiveCast.Http3.WtWrites
import MoqLiveCast.Lib.Table
/-!
# Client — a WebTransport client (`webtransport_client_api.c`)

A chunk is classified on its own: what the chunks before it brought is not kept. What arrived and what the client did
with it is a log.

What opening a stream gives is told with each input that may open one, `none` where QUIC has no stream to give.
-/
namespace MoqLiveCast

inductive WtState where
  | idle | connecting | settings | connectingWt | connected | closing
deriving DecidableEq

/-- `:path` and `:authority`, cut to what the client has room for. -/
structure WtTarget where
  path : List Byte := []
  authority : List Byte := []
  path_le : path.length ≤ 191 := by decide
  authority_le : authority.length ≤ 95 := by decide
deriving DecidableEq

def WtTarget.of (host path : List Byte) (port : BitVec 32) : WtTarget :=
  ⟨path.take 191, (host ++ 0x3a :: decimal port).take 95, List.length_take_le _ _, List.length_take_le _ _⟩

/-- What happens at a client, in order: data arrives, a CONNECT is sent, and its callbacks are called. -/
inductive WtEvent where
  | arrived (sid : Nat) (data : List Byte)
  | connect (sid : Nat) (block : List Byte)
  | onConnect
  | onStreamOpen (sid : Nat)
  | onStreamData (sid : Nat) (data : List Byte)
  | onClose
deriving DecidableEq

structure WtClient where
  state : WtState := .idle
  closing : Bool := false
  connectSent : Bool := false
  target : WtTarget := {}
  streams : List WtStream := []
  log : List WtEvent := []
deriving DecidableEq

inductive WtTask where
  | connect (host path : List Byte) (port : BitVec 32)
  | close
  | openStream (isUni : Bool)
  | streamWrite (sid : Nat)
deriving DecidableEq

inductive WtInput where
  | turn (t : WtTask) (sid : Option Nat)
  | quicConnected
  | quicStream (sid : Nat) (data : List Byte) (connectSid : Option Nat)
  | quicClose
deriving DecidableEq

namespace WtClient

def note (c : WtClient) (e : WtEvent) : WtClient := { c with log := c.log ++ [e] }

def findStream (c : WtClient) (sid : Nat) : Option WtStream := lookup WtStream.streamId sid c.streams

def Early (c : WtClient) : Prop := c.state = .idle ∨ c.state = .connecting ∨ c.state = .settings

instance (c : WtClient) : Decidable c.Early := inferInstanceAs (Decidable (_ ∨ _))

/-! ## Tasks -/

def doOpenStream (c : WtClient) (isUni : Bool) : Option Nat → WtClient
  | none => c
  | some sid => { c with streams := ⟨sid, false, false, isUni⟩ :: c.streams }.note (.onStreamOpen sid)

/-- What `async_cb` does with a task; of a write it is told here that the stream's header counts as sent. -/
def runTask (c : WtClient) (t : WtTask) (sid : Option Nat) : WtClient :=
  match t with
  | .connect host path port =>
    if c.state = .idle then { c with state := .connecting, target := WtTarget.of host path port } else c
  | .close => { c with closing := true, state := .closing }
  | .openStream isUni => if c.state = .connected ∧ c.closing = false then c.doOpenStream isUni sid else c
  | .streamWrite sid =>
    match c.findStream sid with
    | none => c
    | some s => if sid % 4 = 3 then c else { c with streams := store WtStream.streamId { s with headerSent := true } c.streams }

/-! ## QUIC calls back -/

def sendWtConnect (c : WtClient) : Option Nat → WtClient
  | none => c
  | some sid => (sendWtConnectInternal c.target.path c.target.authority).elim c fun hdr => c.note (.connect sid hdr)

/-- The type of a uni stream of HTTP/3 itself, at the front of a chunk, and its length. -/
def builtinType (data : List Byte) : Option (Nat × Nat) := (quicVarintDecode data).filter fun r => r.1 ≤ H3_STREAM_TYPE_QPACK_DEC

def onBuiltin (c : WtClient) (stype : Nat) (sdata : List Byte) (connectSid : Option Nat) : WtClient :=
  if stype = H3_STREAM_TYPE_CONTROL ∧ sdata ≠ [] ∧ c.Early ∧ (h3FrameParseSettings sdata).isSome ∧ c.connectSent = false then
    { c with connectSent := true, state := .connectingWt }.sendWtConnect connectSid
  else c

def withStream (c : WtClient) (sid : Nat) : WtClient :=
  if c.findStream sid = none then
    { c with streams := ⟨sid, false, false, sid % 4 = 2 ∨ sid % 4 = 3⟩ :: c.streams }
  else c

def deliver (c : WtClient) (sid : Nat) (payload : List Byte) : WtClient :=
  if payload = [] then c else c.note (.onStreamData sid payload)

/-- The data path: the header is stripped once, if the chunk begins with all of it. -/
def onWtData (c : WtClient) (sid : Nat) (data : List Byte) : WtClient :=
  let c := c.withStream sid
  match c.findStream sid with
  | none => c
  | some s =>
    match if s.headerStripped = false ∧ 2 ≤ data.length then wtHeaderLen data else none with
    | some n =>
      { c with streams := store WtStream.streamId { s with headerStripped := true } c.streams }.deliver sid (data.drop n)
    | none => c.deliver sid data

def onQuicStream (c : WtClient) (sid : Nat) (data : List Byte) (connectSid : Option Nat) : WtClient :=
  let c := c.note (.arrived sid data)
  match if sid % 4 = 3 ∧ c.findStream sid = none then builtinType data else none with
  | some (stype, n) => c.onBuiltin stype (data.drop n) connectSid
  | none =>
    if c.state = .connectingWt then { c with state := .connected }.note .onConnect else c.onWtData sid data

def step (c : WtClient) : WtInput → WtClient
  | .turn t sid => c.runTask t sid
  | .quicConnected => { c with state := .settings }
  | .quicStream sid data connectSid => c.onQuicStream sid data connectSid
  | .quicClose => c.note .onClose

def run (is : List WtInput) : WtClient := is.foldl step {}

/-! ## What the data path does -/

theorem withStream_spec (c : WtClient) (sid : Nat) : ∃ s : WtStream, s.streamId = sid ∧
    (c.withStream sid).findStream sid = some s ∧
    (∀ r, c.findStream sid = some r → s = r) ∧ (c.findStream sid = none → s.headerStripped = false) ∧
    (∀ k, k ≠ sid → (c.withStream sid).findStream k = c.findStream k) ∧
    ∃ streams, c.withStream sid = { c with streams := streams } := by
  unfold withStream
  cases hfind : c.findStream sid with
  | some r =>
    rw [if_neg (Option.some_ne_none r)]
    exact ⟨r, lookup_key _ hfind, hfind, fun r' h => Option.some.inj h, fun h => (nomatch h), fun _ _ => rfl, c.streams, rfl⟩
  | none =>
    rw [if_pos rfl]
    refine ⟨⟨sid, false, false, sid % 4 = 2 ∨ sid % 4 = 3⟩, rfl, ?_, fun _ h => (nomatch h), fun _ => rfl, fun k hk => ?_, _, rfl⟩
    · simp [findStream, lookup]
    · simp [findStream, lookup, Ne.symm hk]

theorem deliver_eq (c : WtClient) (sid : Nat) (payload : List Byte) : c.deliver sid payload =
    { c with log := c.log ++ if payload = [] then [] else [.onStreamData sid payload] } := by
  unfold deliver
  split
  · rw [List.append_nil]
  · rfl

theorem onWtData_spec (c : WtClient) (sid : Nat) (data : List Byte) : ∃ s : WtStream,
    (∀ r, c.findStream sid = some r → s = r) ∧ (c.findStream sid = none → s.headerStripped = false) ∧
    let header := if s.headerStripped = false ∧ 2 ≤ data.length then wtHeaderLen data else none
    let payload := header.elim data data.drop
    (c.onWtData sid data).findStream sid = some { s with headerStripped := s.headerStripped || header.isSome } ∧
    (∀ k, k ≠ sid → (c.onWtData sid data).findStream k = c.findStream k) ∧
    ∃ streams, c.onWtData sid data =
      { c with streams := streams, log := c.log ++ if payload = [] then [] else [.onStreamData sid payload] } := by
  obtain ⟨s, rfl, hfound, hold, hnew, hothers, streams, hwith⟩ := withStream_spec c sid
  refine ⟨s, hold, hnew, ?_⟩
  unfold onWtData
  dsimp only
  rw [hfound]
  dsimp only
  split
  · rename_i n hheader
    rw [hheader]
    have hstripped : (s.headerStripped || true) = true := Bool.or_true _
    rw [deliver_eq, Option.isSome_some, hstripped]
    refine ⟨?_, fun k hk => ?_, store WtStream.streamId { s with headerStripped := true } (c.withStream s.streamId).streams, ?_⟩
    · exact lookup_store_self WtStream.streamId (r := { s with headerStripped := true }) hfound
    · exact (lookup_store_ne WtStream.streamId (r := { s with headerStripped := true }) hk _).trans (hothers k hk)
    · rw [hwith]
      rfl
  · rename_i hheader
    rw [hheader, deliver_eq, Option.isSome_none, Bool.or_false]
    refine ⟨hfound, hothers, streams, ?_⟩
    rw [hwith]
    rfl

end WtClient

/-! ## Reading the log -/

section

variable (sid : Nat) (log : List WtEvent)

def arrivedOn : List Byte := log.flatMap fun
  | .arrived s data => if s = sid then data else []
  | _ => []

def deliveredOn : List Byte := log.flatMap fun
  | .onStreamData s data => if s = sid then data else []
  | _ => []

def connectsOf : List Nat := log.filterMap fun
  | .connect s _ => some s
  | _ => none

end

/-- The first frame of a stream: its type, its payload, and what is behind it. -/
def h3FirstFrame (data : List Byte) : Option (Nat × List Byte × List Byte) :=
  (quicVarintDecode data).bind fun (ty, k) => (quicVarintDecode (data.drop k)).bind fun (len, m) =>
    if data.length < k + m + len then none
    else some (ty, (data.drop (k + m)).take len, data.drop (k + m + len))

def h3FramesOf : Nat → List Byte → List (Nat × List Byte)
  | 0, _ => []
  | n + 1, data => (h3FirstFrame data).elim [] fun (ty, payload, rest) => (ty, payload) :: h3FramesOf n rest

end MoqLiveCast
