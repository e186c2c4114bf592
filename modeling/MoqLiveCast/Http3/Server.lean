import MoqLiveCast.Http3.Frames
import MoqLiveCast.Http3.Qpack
import MoqLiveCast.Lib.Table
/-!
# Server — HTTP/3 connections, requests and WebTransport sessions (`http3_server.c`, `webtransport.c` and their APIs)

The tables compare the addresses of connections. A chunk is classified on its own, but for the uni streams of
WebTransport, which are remembered.

What the server does is a log; the settings that it sends and the answers to requests are left out.
-/
namespace MoqLiveCast

def MAX_H3_CONNS : Nat := 64
def MAX_WT_UNI : Nat := 128
def WT_MAX_SESSIONS : Nat := 16

structure QuicPeer where
  addr : Nat
  serial : Nat
deriving DecidableEq

structure H3Conn where
  conn : QuicPeer
  wtUni : List Nat := []
deriving DecidableEq

structure WtPeerStream where
  streamId : Nat
  isUni : Bool
  headerStripped : Bool := false
deriving DecidableEq

/-- `webtransport_session` with the `wt_session` that is its `user_data`. -/
structure WtSession where
  sessionId : Nat
  conn : QuicPeer
  connectStreamId : Nat
  streams : List WtPeerStream := []
deriving DecidableEq

/-- What happens at a server, in order: connections come, chunks and closes arrive, and its callbacks are called. -/
inductive H3Event where
  | connected (c : QuicPeer)
  | handedOff (c : QuicPeer)
  | arrived (c : QuicPeer) (sid : Nat) (data : List Byte)
  | closing (c : QuicPeer)
  | onReq (c : QuicPeer) (sid : Nat) (headers body : List Byte)
  | onWtSession (id : Nat) (c : QuicPeer) (sid : Nat)
  | wtChunk (id : Nat) (c : QuicPeer) (sid : Nat) (data : List Byte)
  | onStreamData (id sid : Nat) (data : List Byte)
  | onSessionClose (id : Nat)
deriving DecidableEq

structure H3Server where
  conns : List H3Conn := []
  registry : List (QuicPeer × Nat) := []
  sessions : List WtSession := []
  qpack : QpackStatics := {}
  log : List H3Event := []
deriving DecidableEq

inductive H3Input where
  | connection (c : QuicPeer)
  | otherAlpn (c : QuicPeer)
  | streamData (c : QuicPeer) (sid : Nat) (data : List Byte) (fin : Bool)
  | close (c : QuicPeer)
deriving DecidableEq

/-! ## Header blocks -/

/-- The text of a name or a value, as it is when the block was decoded: what was written last to a buffer. -/
def QpackPtr.text (writes : List QpackWrite) (data : List Byte) (len : Nat) : QpackPtr → List Byte
  | .decoded buf _ =>
    (List.range len).map fun i => ((writes.reverse.find? fun w => w.buf = buf ∧ w.index = (i : Int)).map QpackWrite.byte).getD 0
  | p => p.bytes data len

def cText (bytes : List Byte) : List Byte := bytes.takeWhile fun b => b ≠ 0

def http3KvVal (kvs : List (List Byte × List Byte)) (key : List Byte) : Option (List Byte) :=
  (kvs.find? fun kv => cText kv.1 = key).map fun kv => cText kv.2

def parseHeadersQpack (data : List Byte) (st : QpackStatics) : List (List Byte × List Byte) × QpackStatics :=
  let r := qpackDecode data QPACK_MAX_FIELDS st
  ((r.fields.filter fun f => f.name ≠ .null).map fun f =>
    (f.name.text r.statics.writes data f.nameLen, f.value.text r.statics.writes data f.valueLen), r.statics)

def isWtConnect (kvs : List (List Byte × List Byte)) : Bool :=
  (http3KvVal kvs (h3Text ":protocol")).any (h3Text "webtransport").isPrefixOf

namespace H3Server

def note (s : H3Server) (e : H3Event) : H3Server := { s with log := s.log ++ [e] }

/-! ## The tables -/

def findConn (s : H3Server) (c : QuicPeer) : Option H3Conn := lookup (fun hc => hc.conn.addr) c.addr s.conns

def addConn (s : H3Server) (c : QuicPeer) : H3Server :=
  if MAX_H3_CONNS ≤ s.conns.length then s else { s with conns := s.conns ++ [⟨c, []⟩] }

def removeConn (s : H3Server) (c : QuicPeer) : H3Server :=
  match s.conns.findIdx? fun hc => hc.conn.addr = c.addr with
  | none => s
  | some i => { s with conns := swapRemove s.conns i }

def setConn (s : H3Server) (hc : H3Conn) : H3Server := { s with conns := store (fun hc => hc.conn.addr) hc s.conns }

def isWtUni (s : H3Server) (c : QuicPeer) (sid : Nat) : Bool := (s.findConn c).any fun hc => hc.wtUni.contains sid

def rememberWtUni (s : H3Server) (c : QuicPeer) (sid : Nat) : H3Server :=
  match s.findConn c with
  | none => s
  | some hc =>
    if sid ∈ hc.wtUni then s
    else if hc.wtUni.length < MAX_WT_UNI then s.setConn { hc with wtUni := hc.wtUni ++ [sid] }
    else s.setConn { hc with wtUni := hc.wtUni.drop 1 ++ [sid] }

def forgetWtUni (s : H3Server) (c : QuicPeer) (sid : Nat) : H3Server :=
  match s.findConn c with
  | none => s
  | some hc =>
    match hc.wtUni.findIdx? fun k => k = sid with
    | none => s
    | some i => s.setConn { hc with wtUni := swapRemove hc.wtUni i }

def registryFind (s : H3Server) (c : QuicPeer) : Option Nat :=
  (lookup (fun r : QuicPeer × Nat => r.1.addr) c.addr s.registry).map Prod.snd

def registryAdd (s : H3Server) (c : QuicPeer) (id : Nat) : H3Server :=
  if s.registry.length < WT_MAX_SESSIONS then { s with registry := s.registry ++ [(c, id)] } else s

def registryRemove (s : H3Server) (c : QuicPeer) : H3Server :=
  match s.registry.findIdx? fun r => r.1.addr = c.addr with
  | none => s
  | some i => { s with registry := swapRemove s.registry i }

def findSession (s : H3Server) (id : Nat) : Option WtSession := lookup WtSession.sessionId id s.sessions

/-! ## Sessions -/

/-- `webtransport_session_create`, and `on_wt_session`. -/
def acceptSession (s : H3Server) (c : QuicPeer) (sid : Nat) : H3Server :=
  let id := s.sessions.length + 1
  let s := { s with sessions := s.sessions ++ [(⟨id, c, sid, []⟩ : WtSession)] }
  (s.registryAdd c id).note (.onWtSession id c sid)

def WtSession.withStream (w : WtSession) (sid : Nat) (isUni : Bool) : WtSession × WtPeerStream :=
  match lookup WtPeerStream.streamId sid w.streams with
  | some st => (w, st)
  | none => ({ w with streams := ⟨sid, isUni, false⟩ :: w.streams }, ⟨sid, isUni, false⟩)

def deliver (s : H3Server) (id sid : Nat) (payload : List Byte) : H3Server :=
  if payload = [] then s else s.note (.onStreamData id sid payload)

def onInternalWtStream (s : H3Server) (id sid : Nat) (isUni : Bool) (data : List Byte) : H3Server :=
  match s.findSession id with
  | none => s
  | some w =>
    let (w, st) := WtSession.withStream w sid isUni
    match if st.headerStripped = false ∧ 0 < data.length then wtHeaderLen data else none with
    | some n =>
      let w := { w with streams := store WtPeerStream.streamId { st with headerStripped := true } w.streams }
      { s with sessions := store WtSession.sessionId w s.sessions }.deliver id sid (data.drop n)
    | none => { s with sessions := store WtSession.sessionId w s.sessions }.deliver id sid data

def wtStreamData (s : H3Server) (id : Nat) (c : QuicPeer) (sid : Nat) (isUni : Bool) (data : List Byte) : H3Server :=
  (s.note (.wtChunk id c sid data)).onInternalWtStream id sid isUni data

/-! ## QUIC calls back -/

def onServerRequest (s : H3Server) (c : QuicPeer) (sid : Nat) (headers body : List Byte) : H3Server :=
  let s := s.note (.onReq c sid headers body)
  let (kvs, qpack) := parseHeadersQpack headers s.qpack
  let s := { s with qpack := qpack }
  if isWtConnect kvs then s.acceptSession c sid else s

/-- What a chunk of a request stream is taken for: headers and a body, if it begins with a whole HEADERS frame. -/
def requestOf (data : List Byte) : Option (List Byte × List Byte) :=
  (h3FrameParseHeaders data).map fun (headers, n) =>
    (headers, (h3FrameParseData (data.drop n)).elim (data.drop n) Prod.fst)

def beginsWt (data : List Byte) : Bool := (quicVarintDecode data).any fun r => r.1 = H3_STREAM_TYPE_WEBTRANSPORT

/-- A chunk of a uni stream of a connection with a session; one that is not of WebTransport is only logged. -/
def onUniData (s : H3Server) (id : Nat) (c : QuicPeer) (sid : Nat) (data : List Byte) (fin : Bool) : H3Server :=
  let known := s.isWtUni c sid
  if known ∨ beginsWt data then
    let s := if known then s else s.rememberWtUni c sid
    let s := s.wtStreamData id c sid true data
    if fin then s.forgetWtUni c sid else s
  else s

def onStreamData (s : H3Server) (c : QuicPeer) (sid : Nat) (data : List Byte) (fin : Bool) : H3Server :=
  let s := s.note (.arrived c sid data)
  match s.registryFind c with
  | some id =>
    if 0 < sid ∧ sid % 4 = 0 then s.wtStreamData id c sid false data
    else if sid % 4 = 2 then s.onUniData id c sid data fin
    else (requestOf data).elim s fun r => s.onServerRequest c sid r.1 r.2
  | none =>
    if sid % 4 = 2 then s
    else (requestOf data).elim s fun r => s.onServerRequest c sid r.1 r.2

def onClose (s : H3Server) (c : QuicPeer) : H3Server :=
  let s := s.note (.closing c)
  let s := (s.registryFind c).elim s fun id => s.note (.onSessionClose id)
  (s.registryRemove c).removeConn c

def step (s : H3Server) : H3Input → H3Server
  | .connection c => (s.note (.connected c)).addConn c
  | .otherAlpn c => (s.note (.handedOff c)).removeConn c
  | .streamData c sid data fin => s.onStreamData c sid data fin
  | .close c => s.onClose c

end H3Server
end MoqLiveCast
