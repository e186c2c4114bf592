import MoqLiveCast.Quic.Amplification
/-!
# AmplificationRun — the bytes a client is sent before validation, over whole runs

Every event hands over the packet of `leaves`, if there is one, and counts it if `send_quic_packet` sends it.
-/
namespace MoqLiveCast

/-! ## One step -/

structure Sends (c c' : SendConn) (out : Option SentDatagram) : Prop where
  udpShared : c'.udpShared = c.udpShared
  peerIp : c'.peerIp = c.peerIp
  validated : c'.peerAddressValidated = c.peerAddressValidated
  received : c'.received = c.received
  bytesRecvAddrVal : c'.bytesRecvAddrVal = c.bytesRecvAddrVal
  sent : c'.sent = c.sent ++ out.toList
  bytesSentAddrVal : c.udpShared = true → c.peerAddressValidated = false →
    c'.bytesSentAddrVal = c.bytesSentAddrVal + (out.toList.map bytesCounted).sum
  out : ∀ d ∈ out, d.peerIp = c.peerIp

theorem sendQuicPacket_sends (c : SendConn) (pktType : PktType) (payloadLen : Nat) :
    Sends c (sendQuicPacket c pktType payloadLen) (leavesBySend c pktType payloadLen) := by
  unfold sendQuicPacket leavesBySend SendConn.takePn
  dsimp only
  by_cases hk : c.writeKeys (pktTypeToLevel pktType) = false
  · rw [if_pos hk, if_pos hk]
    constructor <;> simp
  · rw [if_neg hk, if_neg hk]
    cases packetLen pktType c.dstCidLen c.srcCidLen (c.nextPn (pktTypeToLevel pktType)) payloadLen with
    | none => constructor <;> simp
    | some len =>
      unfold takeBudget SendConn.hand
      dsimp only
      split
      · rename_i h
        split
        · constructor <;> simp_all [Option.filter]
        · constructor <;> simp_all [Option.filter, bytesCounted]
      · constructor <;> simp_all [Option.filter, bytesCounted]

theorem buildAndSendAck_sends (c : SendConn) (level : TlsLevel) : Sends c (buildAndSendAck c level) (leavesByAck c level) := by
  unfold buildAndSendAck leavesByAck
  dsimp only
  by_cases hd : c.draining = true ∨ c.needAck level = false
  · rw [if_pos hd, if_pos (.inl hd)]
    constructor <;> simp
  · by_cases hk : c.writeKeys level = false ∧ c.writeKeys .none = false
    · rw [if_neg hd, if_pos hk, if_pos (.inr hk)]
      constructor <;> simp
    · rw [if_neg hd, if_neg hk, if_neg (not_or.2 ⟨hd, hk⟩)]
      unfold SendConn.takePn
      dsimp only
      cases packetLen (levelPktType level) c.dstCidLen c.srcCidLen (c.nextPn level)
          (ackFrameLen (c.ackLargestPn level) (c.ackFirstRange level)) with
      | none => constructor <;> simp
      | some len => constructor <;> simp [SendConn.hand, bytesCounted]

theorem quicConnectionClose_sends (c : SendConn) (errorCode reasonLen : Nat) :
    Sends c (quicConnectionClose c errorCode reasonLen) (leavesByClose c errorCode reasonLen) := by
  unfold quicConnectionClose leavesByClose
  dsimp only
  by_cases hc : c.closing = true
  · rw [if_pos hc, if_pos (.inl hc)]
    constructor <;> simp
  · by_cases hf : 512 < closeFrameLen errorCode reasonLen
    · rw [if_neg hc, if_pos hf, if_pos (.inr (.inl hf))]
      constructor <;> simp
    · by_cases hk : c.writeKeys (closeLevel c) = false
      · rw [if_neg hc, if_neg hf, if_pos hk, if_pos (.inr (.inr hk))]
        constructor <;> simp
      · rw [if_neg hc, if_neg hf, if_neg hk, if_neg (not_or.2 ⟨hc, not_or.2 ⟨hf, hk⟩⟩)]
        unfold SendConn.takePn
        dsimp only
        cases packetLen (levelPktType (closeLevel c)) c.dstCidLen c.srcCidLen (c.nextPn (closeLevel c))
            (closeFrameLen errorCode reasonLen) with
        | none => constructor <;> simp
        | some len => constructor <;> simp [SendConn.hand, bytesCounted]

theorem recordRxPn_sends (c : SendConn) (level : TlsLevel) (pn : Nat) (ackEliciting : Bool) :
    Sends c (recordRxPn c level pn ackEliciting) (leavesByRecord c level pn ackEliciting) := by
  unfold recordRxPn leavesByRecord
  dsimp only
  by_cases he : ackEliciting = false
  · rw [if_pos he, if_neg fun hg => by simp [leavesGap, he] at hg]
    constructor <;> simp
  · by_cases hn : c.needAck level = false
    · rw [if_neg he, if_pos hn, if_neg fun hg => by simp [leavesGap, hn] at hg]
      constructor <;> simp
    · by_cases h1 : pn = c.ackLargestPn level + 1
      · rw [if_neg he, if_neg hn, if_pos h1, if_neg fun hg => by have := hg.2.2; omega]
        constructor <;> simp
      · by_cases hlt : c.ackLargestPn level < pn
        · rw [if_neg he, if_neg hn, if_neg h1, if_pos hlt, if_pos ⟨Bool.of_not_eq_false he, Bool.of_not_eq_false hn, by omega⟩]
          have h := buildAndSendAck_sends
            { c with largestRxPn := Function.update c.largestRxPn level (max (c.largestRxPn level) pn) } level
          exact ⟨h.udpShared, h.peerIp, h.validated, h.received, h.bytesRecvAddrVal, h.sent, h.bytesSentAddrVal, h.out⟩
        · rw [if_neg he, if_neg hn, if_neg h1, if_neg hlt, if_neg fun hg => by have := hg.2.2; omega]
          constructor <;> simp

/-! ## One address -/

/-- All datagrams of a connection came from one address, and its packets went there. -/
structure OneAddress (ip : Nat) (c : SendConn) : Prop where
  udpShared : c.udpShared = true
  peerIp : c.peerIp = ip
  sent : ∀ d ∈ c.sent, d.peerIp = ip
  received : ∀ r ∈ c.received, r.1 = ip
  bytesRecvAddrVal : c.bytesRecvAddrVal = (c.received.map Prod.snd).sum
  bytesSentAddrVal : c.peerAddressValidated = false → c.bytesSentAddrVal = (c.sent.map bytesCounted).sum

def WithinBudget (c : SendConn) : Prop :=
  c.peerAddressValidated = false → c.bytesSentAddrVal + (c.sent.map bytesUncounted).sum ≤ 3 * c.bytesRecvAddrVal

theorem sum_bytesTo {ip : Nat} : ∀ {sent : List SentDatagram}, (∀ d ∈ sent, d.peerIp = ip) →
    (sent.map (bytesTo ip)).sum = (sent.map bytesCounted).sum + (sent.map bytesUncounted).sum
  | [], _ => rfl
  | d :: sent, h => by
    have ih := sum_bytesTo fun d' hd' => h d' (List.mem_cons_of_mem _ hd')
    have hd : bytesTo ip d = bytesCounted d + bytesUncounted d := by
      unfold bytesTo bytesCounted bytesUncounted
      by_cases hp : d.path = .packet <;> simp [h d List.mem_cons_self, hp]
    simp only [List.map_cons, List.sum_cons]
    omega

variable {c : SendConn} {ip : Nat}

theorem bounded_iff_within (h : OneAddress ip c) : Bounded c ↔ WithinBudget c := by
  have hfrom : (c.received.map (bytesFrom ip)).sum = c.bytesRecvAddrVal := by
    rw [h.bytesRecvAddrVal]
    refine congrArg List.sum (List.map_congr_left fun r hr => ?_)
    unfold bytesFrom
    rw [if_pos (h.received r hr)]
  constructor
  · intro hb hv
    have := hb hv ip
    rw [sum_bytesTo h.sent, hfrom, ← h.bytesSentAddrVal hv] at this
    exact this
  · intro hw hv ip'
    by_cases hip : ip' = ip
    · rw [hip, sum_bytesTo h.sent, hfrom, ← h.bytesSentAddrVal hv]
      exact hw hv
    · have hzero : (c.sent.map (bytesTo ip')).sum = 0 := by
        rw [List.sum_eq_zero_iff_forall_eq_nat]
        intro n hn
        obtain ⟨d, hd, rfl⟩ := List.mem_map.1 hn
        unfold bytesTo
        rw [if_neg]
        rintro ⟨hd', -⟩
        exact hip (hd'.symm.trans (h.sent d hd))
      rw [hzero]
      exact Nat.zero_le _

theorem Sends.oneAddress {c c' : SendConn} {out : Option SentDatagram} (hs : Sends c c' out)
    (h : OneAddress ip c) : OneAddress ip c' where
  udpShared := hs.udpShared.trans h.udpShared
  peerIp := hs.peerIp.trans h.peerIp
  sent := by
    intro d hd
    rw [hs.sent] at hd
    rcases List.mem_append.1 hd with hd | hd
    · exact h.sent d hd
    · exact (hs.out d (Option.mem_toList.1 hd)).trans h.peerIp
  received := by
    rw [hs.received]
    exact h.received
  bytesRecvAddrVal := by
    rw [hs.bytesRecvAddrVal, hs.received]
    exact h.bytesRecvAddrVal
  bytesSentAddrVal := by
    intro hv
    rw [hs.validated] at hv
    rw [hs.bytesSentAddrVal h.udpShared hv, hs.sent, List.map_append, List.sum_append, h.bytesSentAddrVal hv]

theorem takeBudget_isSome_iff (hu : c.udpShared = true) (hv : c.peerAddressValidated = false) (pktType : PktType) (len : Nat) :
    (takeBudget c pktType len).isSome ↔ pktType ≠ .handshake → c.bytesSentAddrVal + len ≤ 3 * c.bytesRecvAddrVal := by
  unfold takeBudget
  by_cases hp : pktType = .handshake
  · simp [hp]
  · rw [if_pos ⟨hu, hv, hp⟩]
    split
    · simp only [Option.isSome_none, Bool.false_eq_true, false_iff]
      intro h
      have := h hp
      omega
    · simp only [Option.isSome_some, true_iff]
      intro _
      omega

theorem Sends.within_iff {c c' : SendConn} {out : Option SentDatagram} (hs : Sends c c' out)
    (h : OneAddress ip c) (hw : WithinBudget c) : WithinBudget c' ↔ ∀ d ∈ out, (takeBudget c.countAll d.pktType d.len).isSome := by
  by_cases hv : c.peerAddressValidated = false
  · have hw := hw hv
    unfold WithinBudget
    rw [hs.validated, hs.bytesSentAddrVal h.udpShared hv, hs.sent, hs.bytesRecvAddrVal]
    cases out with
    | none => simpa [hv] using hw
    | some d =>
      have hlen : bytesCounted d + bytesUncounted d = if d.pktType ≠ .handshake then d.len else 0 := by
        unfold bytesCounted bytesUncounted
        by_cases hp : d.path = .packet <;> simp [hp]
      simp only [hv, forall_const, Option.toList_some, List.map_append, List.map_cons, List.map_nil, List.sum_append,
        List.sum_cons, List.sum_nil, Option.mem_def, Option.some.injEq, forall_eq']
      rw [takeBudget_isSome_iff (c := c.countAll) h.udpShared hv]
      unfold SendConn.countAll
      by_cases hp : d.pktType = .handshake
      · rw [if_neg (not_not.2 hp)] at hlen
        simp only [hp, ne_eq, not_true_eq_false, false_implies, iff_true]
        omega
      · rw [if_pos hp] at hlen
        simp only [hp, ne_eq, not_false_eq_true, forall_const]
        omega
  · constructor
    · intro _ d _
      unfold takeBudget
      rw [if_neg fun hc => hv hc.2.1]
      rfl
    · intro _ hv'
      exact absurd (hs.validated ▸ hv') hv

/-! ## Runs -/

def FromAddress (ip : Nat) (e : SendEvent) : Prop := ∀ fromIp len, e = .datagram fromIp len → fromIp = ip

theorem leavesByAck_pktType {level : TlsLevel} {d : SentDatagram} (hd : d ∈ leavesByAck c level) :
    d.pktType = levelPktType level := by
  unfold leavesByAck at hd
  split at hd
  · cases hd
  · obtain ⟨len, -, rfl⟩ := Option.map_eq_some_iff.1 hd
    rfl

theorem leavesByRecord_pktType {level : TlsLevel} {pn : Nat} {ackEliciting : Bool} {d : SentDatagram}
    (hd : d ∈ leavesByRecord c level pn ackEliciting) : d.pktType = levelPktType level := by
  unfold leavesByRecord at hd
  split at hd
  · exact leavesByAck_pktType hd
  · cases hd

theorem recvDatagram_step (len : Nat) (h : OneAddress ip c) :
    OneAddress ip (recvDatagram c ip len) ∧ (WithinBudget c → WithinBudget (recvDatagram c ip len)) := by
  unfold recvDatagram
  refine ⟨⟨h.udpShared, rfl, h.sent, ?_, ?_, h.bytesSentAddrVal⟩, ?_⟩
  · intro r hr
    rcases List.mem_append.1 hr with hr | hr
    · exact h.received r hr
    · rw [List.mem_singleton.1 hr]
  · simp [h.bytesRecvAddrVal]
  · intro hw hv
    have := hw hv
    dsimp only
    omega

theorem validate_step (h : OneAddress ip c) : OneAddress ip { c with peerAddressValidated := true } :=
  ⟨h.udpShared, h.peerIp, h.sent, h.received, h.bytesRecvAddrVal, fun hv => by cases hv⟩

theorem within_of_validated (h : c.peerAddressValidated = true) : WithinBudget c := by
  intro hv
  rw [h] at hv
  cases hv

theorem sendConnStep_spec {e : SendEvent} (h : OneAddress ip c) (he : FromAddress ip e) :
    OneAddress ip (sendConnStep c e) ∧ (WithinBudget c → (WithinBudget (sendConnStep c e) ↔ FitsBudget c e)) := by
  have quiet : ∀ {c'}, Sends c c' (leaves c e) → OneAddress ip c' ∧ (WithinBudget c → (WithinBudget c' ↔ FitsBudget c e)) :=
    fun hs => ⟨hs.oneAddress h, hs.within_iff h⟩
  cases e with
  | datagram fromIp len =>
    obtain rfl := he fromIp len rfl
    obtain ⟨h', hw'⟩ := recvDatagram_step len h
    refine ⟨h', fun hw => iff_of_true (hw' hw) ?_⟩
    intro d hd
    cases hd
  | packet pktType pn ackEliciting =>
    by_cases hp : pktType = .handshake
    · subst hp
      have hs := recordRxPn_sends { c with peerAddressValidated := true } .handshake pn ackEliciting
      refine ⟨hs.oneAddress (validate_step h), fun _ => iff_of_true (within_of_validated hs.validated) ?_⟩
      intro d hd
      unfold takeBudget
      rw [if_neg fun hc => hc.2.2 (leavesByRecord_pktType hd)]
      rfl
    · refine quiet ?_
      have hs := recordRxPn_sends c (pktTypeToLevel pktType) pn ackEliciting
      unfold sendConnStep recvPacket
      dsimp only
      rw [if_neg hp]
      exact hs
  | ack level => exact quiet (buildAndSendAck_sends c level)
  | send pktType payloadLen => exact quiet (sendQuicPacket_sends c pktType payloadLen)
  | close errorCode reasonLen => exact quiet (quicConnectionClose_sends c errorCode reasonLen)
  | keys level => exact quiet (by constructor <;> simp [sendConnStep, leaves])
  | drain => exact quiet (by constructor <;> simp [sendConnStep, leaves])

theorem acceptConn_oneAddress (clientIp srcCidLen dstCidLen : Nat) :
    OneAddress clientIp (acceptConn clientIp srcCidLen dstCidLen) ∧ WithinBudget (acceptConn clientIp srcCidLen dstCidLen) := by
  unfold acceptConn
  refine ⟨⟨rfl, rfl, ?_, ?_, rfl, fun _ => rfl⟩, fun _ => ?_⟩ <;> simp

theorem oneAddress_run (clientIp srcCidLen dstCidLen : Nat) (es : List SendEvent) (he : ∀ e ∈ es, FromAddress clientIp e) :
    OneAddress clientIp (es.foldl sendConnStep (acceptConn clientIp srcCidLen dstCidLen)) :=
  foldl_inv sendConnStep (fun _ e => FromAddress clientIp e) (OneAddress clientIp)
    (fun _ _ h hf => (sendConnStep_spec h hf).1) es _ (acceptConn_oneAddress clientIp srcCidLen dstCidLen).1
    (stepsOk_of_forall sendConnStep _ es _ fun e hm _ => he e hm)

end MoqLiveCast
