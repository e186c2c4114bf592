import Mathlib.Data.List.Find
import MoqLiveCast.Lib.Table
import MoqLiveCast.Quic.ConnectionId
/-!
# Listener — the connections of a listener and their datagrams (`quic_listener.c`)

A connection's id is the one the client chose for its first Initial packet, of any length up to 20.  A long header says
how long its id is; of a short header, the first connection in the table whose id its bytes start with gets the datagram.
Whether a new client gets past Retry and `QuicConnectionAccept`, and which connections are closed while a datagram is
handled, are inputs.
-/
namespace MoqLiveCast

open List

def QUIC_PKT_INITIAL : Byte := 0

structure ListenerConn where
  ptr : Nat
  srcCid : List Byte
deriving DecidableEq

inductive ListenerEffect where
  | feedRaw (ptr : Nat) (data : List Byte)
  | statelessReset
deriving DecidableEq

structure QuicListener where
  conns : List ListenerConn := []
  /-- the address of the next connection -/
  nextPtr : Nat := 0
  trace : List ListenerEffect := []
deriving DecidableEq

/-! ## The table -/

def findConn (l : QuicListener) (dcid : List Byte) : Option ListenerConn := lookup ListenerConn.srcCid dcid l.conns

def addConn (l : QuicListener) (c : ListenerConn) : QuicListener :=
  { l with conns := l.conns ++ [c], nextPtr := l.nextPtr + 1 }

def removeConn (l : QuicListener) (ptr : Nat) : QuicListener :=
  match l.conns.findIdx? (fun c => decide (c.ptr = ptr)) with
  | none => l
  | some i => { l with conns := swapRemove l.conns i }

/-! ## `on_udp_recv` -/

def feedRaw (l : QuicListener) (c : ListenerConn) (data : List Byte) : QuicListener :=
  { l with trace := l.trace ++ [.feedRaw c.ptr data] }

/-- The id of a long header, empty if it is too long for an id, and the bytes after it. -/
def longHeaderDcid (data : List Byte) : Option (List Byte × List Byte) :=
  if data.length < 6 then none
  else
    let dcidLen := (data.getD 5 0).toNat
    if data.length < 6 + dcidLen then none
    else some (if dcidLen ≤ QUIC_CID_MAX_LEN then (data.drop 6).take dcidLen else [], data.drop (6 + dcidLen))

def longHeaderScid : List Byte → Bool
  | [] => false
  | scidLen :: rest => decide (scidLen.toNat ≤ rest.length)

def recvLong (l : QuicListener) (data : List Byte) (accepts : Bool) : QuicListener :=
  match longHeaderDcid data with
  | none => l
  | some (dcid, rest) =>
    match findConn l dcid with
    | some c => feedRaw l c data
    | none =>
      if (data.headD 0 >>> 4) &&& 0x03 = QUIC_PKT_INITIAL ∧ longHeaderScid rest = true ∧ accepts = true then
        feedRaw (addConn l ⟨l.nextPtr, dcid⟩) ⟨l.nextPtr, dcid⟩ data
      else l

/-- The bytes after the first are at least as many as the id has, and start with it. -/
def shortMatches (data : List Byte) (c : ListenerConn) : Bool :=
  decide (1 + c.srcCid.length ≤ data.length) && decide ((data.drop 1).take c.srcCid.length = c.srcCid)

def recvShort (l : QuicListener) (data : List Byte) : QuicListener :=
  match l.conns.find? (shortMatches data) with
  | some c => feedRaw l c data
  | none => if 21 ≤ data.length then { l with trace := l.trace ++ [.statelessReset] } else l

def onUdpRecv (l : QuicListener) (data : List Byte) (accepts : Bool) : QuicListener :=
  match data with
  | [] => l
  | first :: _ => if first &&& 0x80 ≠ 0 then recvLong l data accepts else recvShort l data

/-! ## Runs -/

inductive ListenerEvent where
  | recv (data : List Byte) (accepts : Bool) (closed : List Nat)
  | close (ptr : Nat)

def listenerStep (l : QuicListener) : ListenerEvent → QuicListener
  | .recv data accepts closed => closed.foldl removeConn (onUdpRecv l data accepts)
  | .close ptr => removeConn l ptr

/-- **The connections of a listener differ** in their addresses and in their ids. -/
structure ConnsDiffer (l : QuicListener) : Prop where
  ptrs : (l.conns.map ListenerConn.ptr).Nodup
  ptr_lt : ∀ c ∈ l.conns, c.ptr < l.nextPtr
  ids : (l.conns.map ListenerConn.srcCid).Nodup

section Steps

variable {l : QuicListener}

theorem removeConn_differ (h : ConnsDiffer l) (ptr : Nat) : ConnsDiffer (removeConn l ptr) := by
  unfold removeConn
  split
  · exact h
  · rename_i i hi
    have hlt : i < l.conns.length := (findIdx?_eq_some_iff_getElem.1 hi).1
    have hperm := swapRemove_perm hlt
    have hsub := eraseIdx_sublist l.conns i
    refine ⟨?_, fun c hc => h.ptr_lt c ?_, ?_⟩
    · exact (hperm.map _).nodup_iff.2 (h.ptrs.sublist (hsub.map _))
    · exact hsub.subset (hperm.mem_iff.1 hc)
    · exact (hperm.map _).nodup_iff.2 (h.ids.sublist (hsub.map _))

theorem feedRaw_differ (h : ConnsDiffer l) (c : ListenerConn) (data : List Byte) : ConnsDiffer (feedRaw l c data) :=
  ⟨h.ptrs, h.ptr_lt, h.ids⟩

theorem addConn_differ (h : ConnsDiffer l) {dcid : List Byte} (hnew : findConn l dcid = none) :
    ConnsDiffer (addConn l ⟨l.nextPtr, dcid⟩) := by
  have hid := (lookup_eq_none_iff _).1 hnew
  unfold addConn
  refine ⟨?_, fun c hc => ?_, ?_⟩
  · rw [map_append]
    refine List.nodup_append.2 ⟨h.ptrs, by simp, fun p hp q hq => ?_⟩
    obtain ⟨c, hc, rfl⟩ := List.mem_map.1 hp
    rw [List.mem_singleton.1 hq]
    exact Nat.ne_of_lt (h.ptr_lt c hc)
  · rcases List.mem_append.1 hc with hc | hc
    · exact Nat.lt_succ_of_lt (h.ptr_lt c hc)
    · rw [List.mem_singleton.1 hc]
      exact Nat.lt_succ_self _
  · rw [map_append]
    refine List.nodup_append.2 ⟨h.ids, by simp, fun p hp q hq => ?_⟩
    obtain ⟨c, hc, rfl⟩ := List.mem_map.1 hp
    rw [List.mem_singleton.1 hq]
    exact hid c hc

theorem onUdpRecv_differ (h : ConnsDiffer l) (data : List Byte) (accepts : Bool) : ConnsDiffer (onUdpRecv l data accepts) := by
  unfold onUdpRecv
  split
  · exact h
  · split
    · unfold recvLong
      split
      · exact h
      · split
        · exact feedRaw_differ h _ _
        · rename_i hnew
          split
          · exact feedRaw_differ (addConn_differ h hnew) _ _
          · exact h
    · unfold recvShort
      split
      · exact feedRaw_differ h _ _
      · split
        · exact ⟨h.ptrs, h.ptr_lt, h.ids⟩
        · exact h

theorem foldl_removeConn_differ : ∀ (closed : List Nat) {l : QuicListener}, ConnsDiffer l →
    ConnsDiffer (closed.foldl removeConn l)
  | [], _, h => h
  | ptr :: closed, _, h => foldl_removeConn_differ closed (removeConn_differ h ptr)

theorem listenerStep_differ (h : ConnsDiffer l) (e : ListenerEvent) : ConnsDiffer (listenerStep l e) := by
  cases e with
  | recv data accepts closed => exact foldl_removeConn_differ closed (onUdpRecv_differ h data accepts)
  | close ptr => exact removeConn_differ h ptr

end Steps

theorem conns_differ (es : List ListenerEvent) : ConnsDiffer (es.foldl listenerStep {}) :=
  foldl_inv listenerStep (fun _ _ => True) ConnsDiffer (fun _ e h _ => listenerStep_differ h e) es {}
    ⟨nodup_nil, fun _ h => absurd h not_mem_nil, nodup_nil⟩ (stepsOk_of_forall _ _ _ _ (fun _ _ _ => trivial))

/-! ## Short headers -/

theorem shortMatches_iff (first : Byte) (rest : List Byte) (c : ListenerConn) :
    shortMatches (first :: rest) c = true ↔ c.srcCid <+: rest := by
  unfold shortMatches
  rw [Bool.and_eq_true, decide_eq_true_eq, decide_eq_true_eq, drop_one, tail_cons, length_cons, prefix_iff_eq_take]
  constructor
  · exact fun h => h.2.symm
  · intro h
    refine ⟨?_, h.symm⟩
    have hlen := congrArg List.length h
    rw [length_take] at hlen
    omega

theorem onUdpRecv_short {l : QuicListener} {first : Byte} (rest : List Byte) (hshort : first &&& 0x80 = 0) (accepts : Bool) :
    onUdpRecv l (first :: rest) accepts = recvShort l (first :: rest) := if_neg (fun h => h hshort)

/-- **A short header's datagram goes to its connection and to no other if and only if no connection before it in the
table has an id the datagram starts with as well**, in every state of the listener. -/
theorem short_routed_iff (es : List ListenerEvent) {pre post : List ListenerConn} {c : ListenerConn}
    (hconns : (es.foldl listenerStep {}).conns = pre ++ c :: post) {first : Byte} {rest : List Byte} (hshort : first &&& 0x80 = 0)
    (hstart : c.srcCid <+: rest) (accepts : Bool) : (onUdpRecv (es.foldl listenerStep {}) (first :: rest) accepts).trace =
    (es.foldl listenerStep {}).trace ++ [.feedRaw c.ptr (first :: rest)] ↔ ∀ d ∈ pre, ¬ d.srcCid <+: rest := by
  have hdiffer := conns_differ es
  generalize es.foldl listenerStep {} = l at hconns hdiffer ⊢
  have hptrs := hdiffer.ptrs
  rw [hconns, map_append, nodup_append] at hptrs
  rw [onUdpRecv_short rest hshort, recvShort, hconns]
  constructor
  · intro hfed d hd hprefix
    obtain ⟨d', hfind⟩ := Option.isSome_iff_exists.1 (List.find?_isSome.2 ⟨d, hd, (shortMatches_iff first rest d).2 hprefix⟩)
    rw [List.find?_append, hfind] at hfed
    have hlast := append_cancel_left hfed
    have hptr : d'.ptr = c.ptr := by
      simp only [List.cons.injEq, ListenerEffect.feedRaw.injEq] at hlast
      exact hlast.1.1
    exact hptrs.2.2 d'.ptr (mem_map_of_mem (List.mem_of_find?_eq_some hfind)) c.ptr mem_cons_self hptr
  · intro hnone
    have hfind : pre.find? (shortMatches (first :: rest)) = none :=
      List.find?_eq_none.2 (fun d hd hmatch => hnone d hd ((shortMatches_iff first rest d).1 hmatch))
    rw [List.find?_append, hfind, Option.none_or, List.find?_cons_of_pos ((shortMatches_iff first rest c).2 hstart)]
    rfl

def initialWith (dcid : List Byte) : ListenerEvent :=
  .recv ([0xc0, 0, 0, 0, 1, BitVec.ofNat 8 dcid.length] ++ dcid ++ [0]) true []

theorem short_routed_second : (onUdpRecv ([initialWith [10], initialWith [11]].foldl listenerStep {}) [0x40, 11, 0] true).trace =
    ([initialWith [10], initialWith [11]].foldl listenerStep {}).trace ++ [.feedRaw 1 [0x40, 11, 0]] :=
  (@short_routed_iff [initialWith [10], initialWith [11]] [⟨0, [10]⟩] [] ⟨1, [11]⟩ (by decide +kernel) 0x40 [11, 0]
    (by decide) (by decide) true).2 (by decide)

/-- **Ids of one length shadow none**: in every state of the listener, a datagram that starts with the id of a connection goes to it, if
the others have ids as long as its own. -/
theorem short_routed_of_length (es : List ListenerEvent) {c : ListenerConn} (hc : c ∈ (es.foldl listenerStep {}).conns)
    (hlength : ∀ d ∈ (es.foldl listenerStep {}).conns, d.srcCid.length = c.srcCid.length) {first : Byte} {rest : List Byte}
    (hshort : first &&& 0x80 = 0) (hstart : c.srcCid <+: rest) (accepts : Bool) : (onUdpRecv (es.foldl listenerStep {})
    (first :: rest) accepts).trace = (es.foldl listenerStep {}).trace ++ [.feedRaw c.ptr (first :: rest)] := by
  have hids := (conns_differ es).ids
  generalize es.foldl listenerStep {} = l at hc hlength hids ⊢
  have hmatch : ∀ d ∈ l.conns, shortMatches (first :: rest) d = decide (d.srcCid = c.srcCid) := fun d hd => by
    rw [Bool.eq_iff_iff, shortMatches_iff, decide_eq_true_eq]
    refine ⟨fun hd' => ?_, fun he => he ▸ hstart⟩
    rw [prefix_iff_eq_take.1 hd', prefix_iff_eq_take.1 hstart, hlength d hd]
  have hfind : l.conns.find? (shortMatches (first :: rest)) = some c := by
    rw [List.find?_congr hmatch]
    exact lookup_of_mem ListenerConn.srcCid hids hc
  rw [onUdpRecv_short rest hshort, recvShort, hfind]
  rfl

theorem short_routed_of_length_second : (onUdpRecv ([initialWith [10], initialWith [11]].foldl listenerStep {}) [0x40, 11,
    0] true).trace = ([initialWith [10], initialWith [11]].foldl listenerStep {}).trace ++ [.feedRaw 1 [0x40, 11, 0]] :=
  @short_routed_of_length [initialWith [10], initialWith [11]] ⟨1, [11]⟩ (by decide +kernel) (by decide +kernel) 0x40 [11, 0]
    (by decide) (by decide) true

/-- **A client shadows the others**: one that chose the empty id gets the datagrams of every client after it. -/
theorem short_shadowed : ¬ ∀ (es : List ListenerEvent) (c : ListenerConn) (first : Byte) (rest : List Byte)
    (accepts : Bool), c ∈ (es.foldl listenerStep {}).conns → first &&& 0x80 = 0 → c.srcCid <+: rest →
    (onUdpRecv (es.foldl listenerStep {}) (first :: rest) accepts).trace = (es.foldl listenerStep {}).trace ++
    [.feedRaw c.ptr (first :: rest)] := by
  intro hclaim
  have hfed := hclaim [initialWith [], initialWith [1, 2, 3, 4, 5, 6, 7, 8]] ⟨1, [1, 2, 3, 4, 5, 6, 7, 8]⟩ 0x40
    [1, 2, 3, 4, 5, 6, 7, 8, 0] true (by decide +kernel) (by decide) (by decide)
  revert hfed
  decide +kernel

end MoqLiveCast
