import MoqLiveCast.Quic.KeyStateKept
import MoqLiveCast.Quic.PacketFeed
/-!
# PacketReplay — a packet takes effect at most once

A connection keeps the largest packet number and one range to acknowledge; neither decides whether the frames of a
packet are handled.
-/
namespace MoqLiveCast

open List

open Codec

/-! ## The frames of a packet -/

def OpenedPacket.frames (o : OpenedPacket) : List AppliedFrame :=
  (frameLoop o.form o.payload 0).map fun pos => ⟨o.level, o.pn, pos⟩

theorem le_of_mem_frameLoop {form : HeaderForm} {payload : List Byte} (pos : Nat) :
    ∀ q ∈ frameLoop form payload pos, pos ≤ q := by
  by_cases hpos : pos < payload.length
  · obtain ⟨n, hn, -, heq⟩ | ⟨n, -, heq⟩ | ⟨-, heq⟩ | ⟨-, heq⟩ := @frameLoop_cases form payload _ hpos <;> intro q hq <;>
      rw [heq] at hq
    · rcases List.mem_cons.1 hq with rfl | hq
      · exact Nat.le_refl _
      · have := le_of_mem_frameLoop (pos + n) q hq
        omega
    · rw [List.mem_singleton.1 hq]
    · have := le_of_mem_frameLoop (pos + 1) q hq
      omega
    · cases hq
  · rw [frameLoop_end hpos]
    exact fun _ hq => absurd hq not_mem_nil
termination_by payload.length - pos

theorem frameLoop_nodup {form : HeaderForm} {payload : List Byte} (pos : Nat) : (frameLoop form payload pos).Nodup := by
  by_cases hpos : pos < payload.length
  · obtain ⟨n, hn, -, heq⟩ | ⟨n, -, heq⟩ | ⟨-, heq⟩ | ⟨-, heq⟩ := @frameLoop_cases form payload _ hpos <;> rw [heq]
    · refine List.nodup_cons.2 ⟨fun hmem => ?_, frameLoop_nodup (pos + n)⟩
      have := le_of_mem_frameLoop (pos + n) pos hmem
      omega
    · exact nodup_singleton pos
    · exact frameLoop_nodup (pos + 1)
    · exact nodup_nil
  · rw [frameLoop_end hpos]
    exact nodup_nil
termination_by payload.length - pos

theorem frames_nodup (o : OpenedPacket) : o.frames.Nodup :=
  (frameLoop_nodup 0).map fun _ _ h => (AppliedFrame.mk.inj h).2.2

theorem of_mem_frames {o : OpenedPacket} {f : AppliedFrame} (hf : f ∈ o.frames) : f.level = o.level ∧ f.pn = o.pn := by
  obtain ⟨pos, -, rfl⟩ := List.mem_map.1 hf
  exact ⟨rfl, rfl⟩

/-! ## What a step logs -/

/-- The logs after `c`: the handlers of `fs` ran, and no DATAGRAM frame was delivered but those of `fs`, each once. -/
structure Logs (fs : List AppliedFrame) (c c' : FeedConn) : Prop where
  applied : c'.applied = c.applied ++ fs
  delivered : ∃ new, c'.delivered = c.delivered ++ new ∧ (new.map Prod.fst).Sublist fs

theorem Logs.none {c c' : FeedConn} (happ : c'.applied = c.applied) (hdel : c'.delivered = c.delivered) : Logs [] c c' where
  applied := by rw [happ, append_nil]
  delivered := ⟨[], by rw [hdel, append_nil], List.Sublist.refl _⟩

theorem Logs.refl (c : FeedConn) : Logs [] c c := Logs.none rfl rfl

theorem Logs.trans {fs gs : List AppliedFrame} {c₁ c₂ c₃ : FeedConn} (h : Logs fs c₁ c₂) (h' : Logs gs c₂ c₃) :
    Logs (fs ++ gs) c₁ c₃ where
  applied := by rw [h'.applied, h.applied, append_assoc]
  delivered := by
    obtain ⟨new, hnew, hsub⟩ := h.delivered
    obtain ⟨new', hnew', hsub'⟩ := h'.delivered
    refine ⟨new ++ new', by rw [hnew', hnew, append_assoc], ?_⟩
    rw [map_append]
    exact hsub.append hsub'

section

variable (env : FeedEnv)

theorem logs_handleFrame (c : FeedConn) (f : AppliedFrame) (data : List Byte) : (handleFrame c f data).applied = c.applied ∧
    ∃ new, (handleFrame c f data).delivered = c.delivered ++ new ∧ (new.map Prod.fst).Sublist [f] := by
  have hnone : ∃ new, c.delivered = c.delivered ++ new ∧ (new.map Prod.fst).Sublist [f] :=
    ⟨[], (append_nil _).symm, nil_sublist _⟩
  unfold handleFrame
  dsimp only
  split
  · cases quicFrameParseDatagram data with
    | none => exact ⟨rfl, hnone⟩
    | some d =>
      dsimp only
      split
      · exact ⟨rfl, [(f, d.1)], rfl, List.Sublist.refl _⟩
      · exact ⟨rfl, hnone⟩
  · split
    · exact ⟨rfl, hnone⟩
    · split
      · cases adopted ⟨data, true⟩ with
        | none => exact ⟨rfl, hnone⟩
        | some ncid =>
          dsimp only
          split <;> exact ⟨rfl, hnone⟩
      · exact ⟨rfl, hnone⟩

theorem logs_applyFrame (o : OpenedPacket) (c : FeedConn) (pos : Nat) :
    Logs [⟨o.level, o.pn, pos⟩] c (applyFrame env o c pos) := by
  obtain ⟨happ, hdel⟩ := logs_handleFrame { c with applied := c.applied ++ [⟨o.level, o.pn, pos⟩] }
    ⟨o.level, o.pn, pos⟩ (o.payload.drop pos)
  exact ⟨happ, hdel⟩

theorem logs_foldl_applyFrame (o : OpenedPacket) : ∀ (ps : List Nat) (c : FeedConn),
    Logs (ps.map fun pos => ⟨o.level, o.pn, pos⟩) c (ps.foldl (applyFrame env o) c)
  | [], c => Logs.refl c
  | pos :: ps, c => (logs_applyFrame env o c pos).trans (logs_foldl_applyFrame o ps (applyFrame env o c pos))

theorem logs_readPacket (c : FeedConn) (data : List Byte) : Logs [] c (readPacket env.crypto c data).1 := by
  unfold readPacket
  split
  · unfold readLong FeedConn.bufferHs
    dsimp only
    repeat' split
    all_goals exact Logs.none rfl rfl
  · exact Logs.none rfl rfl

theorem logs_recordRxPn (c : FeedConn) (level : TlsLevel) (pn : Nat) (ackEliciting : Bool) :
    Logs [] c (c.recordRxPn level pn ackEliciting) := by
  unfold FeedConn.recordRxPn
  dsimp only
  repeat' split
  all_goals exact Logs.none rfl rfl

theorem logs_afterPacket (o : OpenedPacket) (data : List Byte) (c : FeedConn) : Logs [] c (afterPacket env o data c) := by
  unfold afterPacket FeedConn.buildAndSendAck FeedConn.queueAck
  repeat' split
  all_goals exact Logs.none rfl rfl

theorem logs_enter {c c' : FeedConn} (happ : c'.applied = c.applied) (hdel : c'.delivered = c.delivered)
    (data : List Byte) : Logs [] c (c'.enter data) := by
  unfold FeedConn.enter
  split <;> exact Logs.none happ hdel

theorem logs_replay (c : FeedConn) : Logs [] c c.replay := by
  unfold FeedConn.replay
  split
  · exact Logs.none rfl rfl
  · split
    · apply logs_enter <;> rfl
    · split
      · apply logs_enter <;> rfl
      · exact Logs.none rfl rfl

/-- The frames a step handles are those of the packet at the head of the data. -/
def headFrames (c : FeedConn) : FeedEvent → List AppliedFrame
  | .datagram _ => []
  | .turn => (c.head env).elim [] OpenedPacket.frames

theorem logs_feedStep (c : FeedConn) (e : FeedEvent) : Logs (headFrames env c e) c (feedStep env c e) := by
  cases e with
  | datagram data =>
    unfold feedStep
    dsimp only
    split
    · exact Logs.refl c
    · exact logs_enter rfl rfl data
  | turn =>
    unfold feedStep feedTurn headFrames FeedConn.head
    cases hbuf : c.buf with
    | none => exact Logs.refl c
    | some data =>
      simp only [Option.bind_some]
      by_cases hgoes : c.goesOn data = true
      · rw [if_pos hgoes, if_neg (by simp [hgoes])]
        have hread := logs_readPacket env c data
        generalize readPacket env.crypto c data = r at hread
        obtain ⟨c', opened⟩ := r
        cases opened with
        | none => exact Logs.none (by simpa using hread.applied) (by
            obtain ⟨new, hnew, hsub⟩ := hread.delivered
            rw [sublist_nil, map_eq_nil_iff] at hsub
            rw [hsub, append_nil] at hnew
            exact hnew)
        | some o =>
          have hrec := logs_recordRxPn c' o.level o.pn (payloadAckEliciting o.payload)
          have hrun := logs_foldl_applyFrame env o (frameLoop o.form o.payload 0)
            (c'.recordRxPn o.level o.pn (payloadAckEliciting o.payload))
          have hall := (hread.trans hrec).trans (hrun.trans (logs_afterPacket env o data _))
          rw [nil_append, nil_append, append_nil] at hall
          exact hall
      · rw [if_neg hgoes, if_pos (by simpa using hgoes)]
        exact logs_replay c

/-! ## Runs -/

/-- **No frame of a packet is handled twice, and no DATAGRAM frame delivered twice.** -/
structure AppliedOnce (c : FeedConn) : Prop where
  applied : c.applied.Nodup
  delivered : (c.delivered.map Prod.fst).Nodup

/-- The packet at the head of the data has a number that is new in its space. -/
def NumberIsNew (c : FeedConn) : FeedEvent → Prop
  | .datagram _ => True
  | .turn => ∀ o, c.head env = some o → ∀ f ∈ c.applied, ¬ (f.level = o.level ∧ f.pn = o.pn)

instance NumberIsNew.decidable (c : FeedConn) : ∀ e, Decidable (NumberIsNew env c e)
  | .datagram _ => .isTrue trivial
  | .turn =>
    match hhead : c.head env with
    | none => .isTrue fun _ h => by simp [hhead] at h
    | some o => decidable_of_iff (∀ f ∈ c.applied, ¬ (f.level = o.level ∧ f.pn = o.pn)) (by simp [NumberIsNew, hhead])

/-- What is delivered was applied, and nothing was applied twice. -/
structure Once (c : FeedConn) : Prop where
  applied : c.applied.Nodup
  delivered : (c.delivered.map Prod.fst).Sublist c.applied

theorem headFrames_new {c : FeedConn} {e : FeedEvent} (hnew : NumberIsNew env c e) :
    (headFrames env c e).Nodup ∧ ∀ f ∈ c.applied, f ∉ headFrames env c e := by
  cases e with
  | datagram data => exact ⟨nodup_nil, fun _ _ => not_mem_nil⟩
  | turn =>
    unfold headFrames
    cases hhead : c.head env with
    | none => exact ⟨nodup_nil, fun _ _ => not_mem_nil⟩
    | some o => exact ⟨frames_nodup o, fun f hf hmem => hnew o hhead f hf (of_mem_frames hmem)⟩

theorem once_feedStep {c : FeedConn} {e : FeedEvent} (h : Once c) (hnew : NumberIsNew env c e) : Once (feedStep env c e) := by
  have hlogs := logs_feedStep env c e
  obtain ⟨hnodup, hapart⟩ := headFrames_new env hnew
  constructor
  · rw [hlogs.applied, nodup_append]
    exact ⟨h.applied, hnodup, fun f hf g hg hfg => hapart f hf (hfg ▸ hg)⟩
  · obtain ⟨new, hdel, hsub⟩ := hlogs.delivered
    rw [hdel, hlogs.applied, map_append]
    exact h.delivered.append hsub

end

/-! ## A datagram that comes twice -/

def nonceTag : Crypto where
  hpMask _ _ _ := replicate 16 0
  aeadOpen _ _ nonce _ ct :=
    if ct.drop (ct.length - 16) = nonce ++ replicate 4 0 then some (ct.take (ct.length - 16)) else none
  hkdfExpandLabel _ _ _ len := some (replicate len 0)

def replayEnv : FeedEnv := ⟨nonceTag, fun host _ => host⟩

def replayHost : FeedHost where
  readKeys := fun _ => someKeys
  writeKeys := fun _ => someKeys
  srcCid := [1, 2, 3, 4, 5, 6, 7, 8]

def oneDatagram (pn : Byte) : List Byte :=
  [0x40, 1, 2, 3, 4, 5, 6, 7, 8, pn] ++ [0x31, 1, 7] ++ (replicate 11 0 ++ [pn] ++ replicate 4 0)

def feedTwice (pn pn' : Byte) : List FeedEvent :=
  [.datagram (oneDatagram pn), .turn, .turn, .datagram (oneDatagram pn'), .turn, .turn]

end MoqLiveCast
