import MoqLiveCast.Lib.Run
import MoqLiveCast.Wt2ws.Session
/-!
# Relay — what a session hands on

Inbound, the frames of the stream go to the backend, those that came before it was connected first. Outbound, what the
stream took and what is queued are the messages of the backend.
-/
namespace MoqLiveCast
namespace Wt2ws

open List

def streamBytes (ins : List Input) : List Byte := ins.flatMap fun
  | .wtData data => data
  | _ => []

def backendMessages (ins : List Input) : List Frame := ins.flatMap fun
  | .backendMessage f _ => [f]
  | _ => []

def Input.Relays : Input → Prop
  | .attach answer => ∀ i, answer i = 0 ∨ answer i = 1
  | .wtWritable answer => ∀ i, answer i = 0 ∨ answer i = 1
  | .backendMessage _ answer => ∀ i, answer i = 0 ∨ answer i = 1
  | .wtData _ => True
  | .backendConnected => True
  | .wtClosed => False
  | .backendClosed => False

def payloadTotal (fs : List Frame) : Nat := (fs.map (·.payload.length)).sum

def outTotal (q : List OutMsg) : Nat := (q.map (·.data.length)).sum

/-- **A session that relays**: it is not closed; what the backend has, or will have when it is connected, are `ms`; what the stream
has, with what is queued for it, are the encodings of `sent`, and `outBytes` is the length of the queue. -/
structure Relayed (ms sent : List Frame) (s : Session) : Prop where
  alive : s.closed = false
  inbound : s.backend ++ s.inq = ms
  drained : s.connected = true → s.inq = []
  outbound : s.accepted ++ s.outq.flatMap (fun m => m.data.drop m.off) = encodeAll sent
  counted : s.outBytes = outTotal s.outq

/-- **The condition**: what is buffered and what comes is no longer than one frame may be, and a message for the stream finds room
in the queue. -/
def Session.Fits (s : Session) : Input → Prop
  | .wtData data => data = [] ∨ s.codec.buffered + data.length ≤ s.cfg.maxFrame + kFrameHeaderLen
  | .backendMessage f _ => s.outBytes + f.payload.length + kFrameHeaderLen ≤ s.cfg.maxQueue
  | _ => True

instance (s : Session) : ∀ e : Input, Decidable (s.Fits e)
  | .wtData _ => inferInstanceAs (Decidable (_ ∨ _))
  | .backendMessage _ _ => inferInstanceAs (Decidable (_ ≤ _))
  | .attach _ => .isTrue trivial
  | .wtWritable _ => .isTrue trivial
  | .backendConnected => .isTrue trivial
  | .wtClosed => .isTrue trivial
  | .backendClosed => .isTrue trivial

def Frame.Ok (cfg : Wt2wsConfig) (f : Frame) : Prop :=
  (f.type = kFrameText ∨ f.type = kFrameBinary) ∧ f.payload.length ≤ cfg.maxFrame

/-- What comes whole before the backend is connected finds room in the queue. -/
def QueuedWithin (cfg : Wt2wsConfig) (ms : List Frame) (ins : List Input) : Prop :=
  ∀ pre post, ins = pre ++ post → Input.backendConnected ∉ pre →
    ∀ done rest, ms = done ++ rest → encodeAll done <+: streamBytes pre → payloadTotal done ≤ cfg.maxQueue

/-! ## Lists of frames -/

@[simp] theorem encodeAll_nil : encodeAll [] = [] := rfl

@[simp] theorem encodeAll_cons (f : Frame) (fs : List Frame) : encodeAll (f :: fs) = f.encode ++ encodeAll fs := rfl

@[simp] theorem encodeAll_append (fs gs : List Frame) : encodeAll (fs ++ gs) = encodeAll fs ++ encodeAll gs := flatMap_append

@[simp] theorem streamBytes_append (l l' : List Input) : streamBytes (l ++ l') = streamBytes l ++ streamBytes l' :=
  flatMap_append

@[simp] theorem backendMessages_append (l l' : List Input) :
    backendMessages (l ++ l') = backendMessages l ++ backendMessages l' := flatMap_append

@[simp] theorem payloadTotal_append (fs gs : List Frame) : payloadTotal (fs ++ gs) = payloadTotal fs + payloadTotal gs := by
  simp [payloadTotal]

@[simp] theorem payloadTotal_cons (f : Frame) (fs : List Frame) : payloadTotal (f :: fs) = f.payload.length + payloadTotal fs := by
  simp [payloadTotal]

theorem length_le_encodeAll : ∀ fs : List Frame, fs.length ≤ (encodeAll fs).length
  | [] => Nat.le_refl _
  | f :: fs => by
    have := length_le_encodeAll fs
    have := f.encode_length
    simp only [encodeAll_cons, length_append, length_cons, kFrameHeaderLen] at *
    omega

def Partial (t : List Byte) (fs : List Frame) : Prop :=
  (fs = [] ∧ t = []) ∨ ∃ f rest more, fs = f :: rest ∧ f.encode = t ++ more ∧ more ≠ []

theorem split_whole : ∀ (fs : List Frame) {p : List Byte}, p <+: encodeAll fs →
    ∃ done rest t, fs = done ++ rest ∧ p = encodeAll done ++ t ∧ Partial t rest
  | [], p, hp => ⟨[], [], [], rfl, by simpa using List.prefix_nil.1 hp, .inl ⟨rfl, rfl⟩⟩
  | f :: fs, p, hp => by
    obtain ⟨q, hq⟩ := hp
    rw [encodeAll_cons] at hq
    rcases List.append_eq_append_iff.1 hq with ⟨more, henc, hrest⟩ | ⟨p', hp', hrest⟩
    · by_cases hmore : more = []
      · subst hmore
        rw [append_nil] at henc
        obtain ⟨done, rest, t, hfs, ht, hpart⟩ := split_whole fs (List.nil_prefix (l := encodeAll fs))
        refine ⟨f :: done, rest, t, by rw [hfs]; rfl, ?_, hpart⟩
        rw [encodeAll_cons, append_assoc, ← ht, append_nil, henc]
      · exact ⟨[], f :: fs, p, rfl, rfl, .inr ⟨f, fs, more, rfl, henc, hmore⟩⟩
    · obtain ⟨done, rest, t, hfs, ht, hpart⟩ := split_whole fs ⟨q, hrest.symm⟩
      refine ⟨f :: done, rest, t, by rw [hfs]; rfl, ?_, hpart⟩
      rw [encodeAll_cons, append_assoc, ← ht, hp']

namespace Session

/-! ## Inbound -/

theorem Frame.Ok.lt {cfg : Wt2wsConfig} {f : Frame} (h : f.Ok cfg) : f.payload.length < 2 ^ 32 := by
  have := cfg.frame_ok.2
  have := h.2
  omega

theorem takeFrame_ok {s : Session} {f : Frame} (hok : f.Ok s.cfg)
    (hroom : s.connected = false → s.inqBytes + f.payload.length ≤ s.cfg.maxQueue) :
    s.takeFrame f = { s with
      backend := s.backend ++ if s.connected then [f] else [],
      inq := s.inq ++ if s.connected then [] else [f],
      inqBytes := s.inqBytes + if s.connected then 0 else f.payload.length } := by
  have htype : ¬(f.type ≠ kFrameText ∧ f.type ≠ kFrameBinary) := fun ⟨h1, h2⟩ => hok.1.elim h1 h2
  unfold takeFrame
  rw [if_neg htype]
  cases hconn : s.connected with
  | true => simp
  | false =>
    have hfits : ¬s.cfg.maxQueue < s.inqBytes + f.payload.length := Nat.not_lt.2 (hroom hconn)
    simp [queueInbound, if_neg hfits, hconn]

theorem readFrames_takes : ∀ (fs rest : List Frame) (t : List Byte) (n : Nat) {s : Session},
    s.codec.pending = encodeAll fs ++ t → s.codec.maxPayload = s.cfg.maxFrame → (∀ f ∈ fs ++ rest, f.Ok s.cfg) →
    Partial t rest → fs.length < n → s.closed = false →
    (s.connected = false → s.inqBytes + payloadTotal fs ≤ s.cfg.maxQueue) →
    ∃ c, c.pending = t ∧ c.maxPayload = s.cfg.maxFrame ∧ readFrames n s = { s with
      codec := c,
      backend := s.backend ++ if s.connected then fs else [],
      inq := s.inq ++ if s.connected then [] else fs,
      inqBytes := s.inqBytes + if s.connected then 0 else payloadTotal fs }
  | _, _, _, 0, _, _, _, _, _, hn, _, _ => absurd hn (Nat.not_lt_zero _)
  | [], rest, t, n + 1, s, hp, hmax, hok, hpart, _, hopen, _ => by
    have hnext : s.codec.next = (s.codec, .kNeedMore) := by
      rw [encodeAll_nil, nil_append] at hp
      rcases hpart with ⟨-, rfl⟩ | ⟨f, rest', more, rfl, henc, hmore⟩
      · unfold FrameCodec.next
        rw [hp]
      · have hf := hok f (by simp)
        have hpos := List.length_pos_iff.2 hmore
        refine FrameCodec.next_part (f := f) (by rw [henc, hp]) ?_ (hmax ▸ hf.2) (Frame.Ok.lt hf)
        rw [henc, hp, length_append]
        omega
    refine ⟨s.codec, by simpa using hp, hmax, ?_⟩
    rw [readFrames, if_neg (by simp [hopen]), hnext]
    cases s.connected <;> simp [payloadTotal]
  | f :: fs, rest, t, n + 1, s, hp, hmax, hok, hpart, hn, hopen, hroom => by
    have hf := hok f (by simp)
    rw [encodeAll_cons, append_assoc] at hp
    obtain ⟨c, hnext, hpend, hcmax⟩ := FrameCodec.next_whole hp (hmax ▸ hf.2) (Frame.Ok.lt hf)
    have htake := takeFrame_ok (s := { s with codec := c }) hf fun hconn => by
      have := hroom hconn
      rw [payloadTotal_cons] at this
      dsimp only
      omega
    have hlen : fs.length < n := by simpa using hn
    obtain ⟨c', hpend', hmax', hrun⟩ := readFrames_takes fs rest t n (s := takeFrame { s with codec := c } f)
      (by rw [htake]; exact hpend) (by rw [htake]; exact hcmax.trans hmax)
      (fun g hg => by rw [htake]; exact hok g (by simp only [cons_append, mem_cons]; exact .inr hg)) hpart hlen
      (by rw [htake]; exact hopen) (fun hconn => by
        rw [htake] at hconn ⊢
        have := hroom hconn
        rw [payloadTotal_cons] at this
        dsimp only at hconn ⊢
        rw [if_neg (by simp [hconn])]
        omega)
    rw [htake] at hmax' hrun
    refine ⟨c', hpend', hmax', ?_⟩
    rw [readFrames, if_neg (by simp [hopen]), hnext]
    dsimp only
    rw [htake, hrun]
    cases s.connected <;> simp [Nat.add_assoc]

theorem sendQueued_eq : ∀ (q : List Frame) (s : Session), s.inq = q →
    sendQueued q s = { s with backend := s.backend ++ q, inqBytes := s.inqBytes - payloadTotal q, inq := [] }
  | [], s, h => by
    cases s
    cases h
    simp [sendQueued, payloadTotal]
  | m :: q, s, _ => by
    rw [sendQueued, sendQueued_eq q _ rfl]
    simp [Nat.sub_add_eq]

/-! ## Outbound -/

theorem writeQueued_takes {answer : Nat → Int} (hans : ∀ i, answer i = 0 ∨ answer i = 1) :
    ∀ (q : List OutMsg) (i : Nat) {s : Session}, s.outq = q → (∀ m ∈ q, m.off = 0) → ∃ done rest, q = done ++ rest ∧
      writeQueued answer q i s = { s with
        outBytes := s.outBytes - outTotal done, outq := rest, accepted := s.accepted ++ done.flatMap (·.data) }
  | [], i, s, hq, _ => by
    cases s
    cases hq
    exact ⟨[], [], rfl, by simp [writeQueued, outTotal]⟩
  | m :: q, i, s, hq, hoff => by
    by_cases hi : answer i = 0
    · obtain ⟨done, rest, hsplit, hrun⟩ := writeQueued_takes hans q (i + 1)
        (s := { s with outBytes := s.outBytes - (m.data.length - m.off), outq := q, accepted := s.accepted ++ m.data.drop m.off })
        rfl fun x hx => hoff x (mem_cons_of_mem _ hx)
      have hzero := hoff m mem_cons_self
      refine ⟨m :: done, rest, by rw [hsplit]; rfl, ?_⟩
      rw [writeQueued, if_pos hi, hrun]
      simp [hzero, outTotal, Nat.sub_add_eq]
    · have hone := (hans i).resolve_left hi
      refine ⟨[], m :: q, rfl, ?_⟩
      rw [writeQueued, if_neg hi, if_pos hone, ← hq]
      simp [outTotal]

/-- What a queue holds and a stream took, of messages `sent`. -/
structure Outgoing (s : Session) (sent : List Frame) : Prop where
  fresh : ∀ m ∈ s.outq, m.off = 0
  ledger : s.accepted ++ s.outq.flatMap (·.data) = encodeAll sent
  counted : s.outBytes = outTotal s.outq

theorem Outgoing.same {s s' : Session} {sent : List Frame} (h : s.Outgoing sent) (hq : s'.outq = s.outq)
    (hacc : s'.accepted = s.accepted) (hbytes : s'.outBytes = s.outBytes) : s'.Outgoing sent := by
  refine ⟨?_, ?_, ?_⟩
  · rw [hq]
    exact h.fresh
  · rw [hq, hacc]
    exact h.ledger
  · rw [hq, hbytes]
    exact h.counted

theorem flushOut_takes {answer : Nat → Int} (hans : ∀ i, answer i = 0 ∨ answer i = 1) {s : Session} {sent : List Frame}
    (h : s.Outgoing sent) : ∃ bytes outq accepted,
      s.flushOut answer = { s with outBytes := bytes, outq := outq, accepted := accepted } ∧ (s.flushOut answer).Outgoing sent := by
  unfold flushOut
  split
  · exact ⟨s.outBytes, s.outq, s.accepted, rfl, h⟩
  · obtain ⟨done, rest, hsplit, hrun⟩ := writeQueued_takes hans s.outq 0 rfl h.fresh
    refine ⟨_, _, _, hrun, ?_⟩
    rw [hrun]
    refine ⟨fun m hm => h.fresh m (hsplit ▸ mem_append_right _ hm), ?_, ?_⟩
    · rw [← h.ledger, hsplit]
      simp
    · have := h.counted
      simp only [hsplit, outTotal, map_append, sum_append] at this ⊢
      omega

/-! ## Runs -/

/-- What holds of a session after a part `hist` of a run that meets the condition. -/
structure Relaying (cfg : Wt2wsConfig) (ms : List Frame) (hist : List Input) (s : Session) : Prop where
  same : s.cfg = cfg
  limit : s.codec.maxPayload = cfg.maxFrame
  alive : s.closed = false
  wtOpen : s.wtClosed = false
  inbound : ∃ done rest, ms = done ++ rest ∧ streamBytes hist = encodeAll done ++ s.codec.pending ∧
    Partial s.codec.pending rest ∧ s.backend ++ s.inq = done
  queued : s.inqBytes = payloadTotal s.inq
  drained : s.connected = true → s.inq = []
  waiting : s.connected = false → Input.backendConnected ∉ hist ∧ s.backend = []
  outgoing : s.Outgoing (backendMessages hist)

variable {cfg : Wt2wsConfig} {ms : List Frame} {hist : List Input} {s : Session}

theorem Relaying.writes (h : Relaying cfg ms hist s) {e : Input} (hbytes : streamBytes [e] = []) (hne : e ≠ .backendConnected)
    (attached : Bool) (outBytes : Nat) (outq : List OutMsg) (accepted : List Byte)
    (hout : Outgoing { s with attached, outBytes, outq, accepted } (backendMessages (hist ++ [e]))) :
    Relaying cfg ms (hist ++ [e]) { s with attached, outBytes, outq, accepted } := by
  refine ⟨h.same, h.limit, h.alive, h.wtOpen, ?_, h.queued, h.drained, fun hconn => ?_, hout⟩
  · rw [streamBytes_append, hbytes, append_nil]
    exact h.inbound
  · obtain ⟨hnever, hnone⟩ := h.waiting hconn
    refine ⟨fun hmem => ?_, hnone⟩
    rcases List.mem_append.1 hmem with hmem | hmem
    · exact hnever hmem
    · exact hne (List.mem_singleton.1 hmem).symm

theorem Relaying.flush (h : Relaying cfg ms hist s) {e : Input} (hbytes : streamBytes [e] = []) (hne : e ≠ .backendConnected)
    {answer : Nat → Int} (hans : ∀ i, answer i = 0 ∨ answer i = 1) (attached : Bool) (outBytes : Nat) (outq : List OutMsg)
    (hout : Outgoing { s with attached, outBytes, outq } (backendMessages (hist ++ [e]))) :
    Relaying cfg ms (hist ++ [e]) (flushOut { s with attached, outBytes, outq } answer) := by
  obtain ⟨bytes', outq', accepted', hrun, hout'⟩ := flushOut_takes hans hout
  rw [hrun] at hout' ⊢
  exact h.writes hbytes hne attached bytes' outq' accepted' hout'

theorem Relaying.wtData {data : List Byte} (post : List Byte) (hms : ∀ f ∈ ms, f.Ok cfg) (h : Relaying cfg ms hist s)
    (hall : streamBytes hist ++ data ++ post = encodeAll ms) (hroom : s.connected = false → ∀ done rest, ms = done ++ rest →
    encodeAll done <+: streamBytes hist ++ data → payloadTotal done ≤ cfg.maxQueue) (hfits : s.Fits (.wtData data)) :
    Relaying cfg ms (hist ++ [.wtData data]) (s.onWtData data) := by
  have hbytes : streamBytes (hist ++ [.wtData data]) = streamBytes hist ++ data := by simp [streamBytes]
  have hmsgs : backendMessages (hist ++ [.wtData data]) = backendMessages hist := by simp [backendMessages]
  have hnever : Input.backendConnected ∉ hist → Input.backendConnected ∉ hist ++ [.wtData data] := fun hn => by simp [hn]
  unfold onWtData
  by_cases hempty : data = []
  · rw [if_pos (.inr (.inr hempty))]
    subst hempty
    rw [append_nil] at hbytes
    exact { h with
      inbound := by rw [hbytes]; exact h.inbound
      waiting := fun hconn => ⟨hnever (h.waiting hconn).1, (h.waiting hconn).2⟩
      outgoing := hmsgs ▸ h.outgoing }
  rw [if_neg (by simp [h.alive, h.wtOpen, hempty])]
  have hfed : (s.codec.feed data).2 = true := by
    rw [FrameCodec.feed_fits, h.limit, ← h.same]
    exact hfits.resolve_left hempty
  dsimp only
  rw [if_pos hfed]
  obtain ⟨done, rest, hsplit, hhist, -, hgot⟩ := h.inbound
  have hprefix : s.codec.pending ++ data <+: encodeAll rest := by
    rw [hhist, hsplit, encodeAll_append, append_assoc, append_assoc] at hall
    exact ⟨post, by rw [append_assoc]; exact append_cancel_left hall⟩
  obtain ⟨fs, rest', t, hrest, hpend, hpart⟩ := split_whole rest hprefix
  have hsplit' : ms = (done ++ fs) ++ rest' := by rw [hsplit, hrest, append_assoc]
  have hcount : fs.length < (s.codec.feed data).1.buffered + 1 := by
    rw [← FrameCodec.pending_length, FrameCodec.feed_pending, hpend, length_append]
    have := length_le_encodeAll fs
    omega
  obtain ⟨c, hc, hcmax, hrun⟩ := readFrames_takes fs rest' t ((s.codec.feed data).1.buffered + 1)
    (s := { s with codec := (s.codec.feed data).1 }) (by rw [FrameCodec.feed_pending, hpend])
    (by rw [FrameCodec.feed_maxPayload, h.limit, h.same])
    (fun f hf => by
      rw [h.same]
      exact hms f (hsplit ▸ mem_append_right _ (hrest ▸ hf))) hpart hcount h.alive (fun hconn => by
      dsimp only at hconn ⊢
      have htotal := hroom hconn (done ++ fs) rest' hsplit' ⟨t, by
        rw [hhist, append_assoc, hpend, encodeAll_append, append_assoc]⟩
      rw [payloadTotal_append, ← hgot, (h.waiting hconn).2, nil_append] at htotal
      rw [h.queued, h.same]
      exact htotal)
  rw [hrun]
  refine ⟨h.same, hcmax.trans (congrArg _ h.same), h.alive, h.wtOpen, ⟨done ++ fs, rest', hsplit', ?_, hc ▸ hpart, ?_⟩, ?_, ?_, ?_,
    hmsgs ▸ h.outgoing.same rfl rfl rfl⟩
  · dsimp only
    rw [hbytes, hhist, hc, append_assoc, hpend, encodeAll_append, append_assoc]
  · dsimp only
    cases hconn : s.connected with
    | true => simp [← hgot, h.drained hconn]
    | false => simp [← hgot]
  · dsimp only
    rw [h.queued]
    cases s.connected <;> simp
  · dsimp only
    intro hconn
    simp [hconn, h.drained hconn]
  · dsimp only
    intro hconn
    obtain ⟨hno, hnone⟩ := h.waiting hconn
    exact ⟨hnever hno, by simp [hconn, hnone]⟩

theorem Relaying.backendConnected (h : Relaying cfg ms hist s) :
    Relaying cfg ms (hist ++ [.backendConnected]) s.onBackendConnected := by
  have hbytes : streamBytes (hist ++ [.backendConnected]) = streamBytes hist := by simp [streamBytes]
  have hmsgs : backendMessages (hist ++ [.backendConnected]) = backendMessages hist := by simp [backendMessages]
  unfold onBackendConnected flushInbound
  rw [if_neg (by simp [h.alive]), sendQueued_eq _ _ rfl]
  dsimp only
  obtain ⟨done, rest, hsplit, hhist, hpart, hgot⟩ := h.inbound
  refine ⟨h.same, h.limit, h.alive, h.wtOpen, ⟨done, rest, hsplit, hbytes ▸ hhist, hpart, ?_⟩, ?_, fun _ => rfl, nofun,
    hmsgs ▸ h.outgoing.same rfl rfl rfl⟩
  · rw [append_nil, hgot]
  · dsimp only
    rw [h.queued, Nat.sub_self]
    rfl

theorem Outgoing.enqueue {sent : List Frame} (h : s.Outgoing sent) (f : Frame) :
    Outgoing { s with outq := s.outq ++ [{ data := f.encode }], outBytes := s.outBytes + f.encode.length } (sent ++ [f]) := by
  refine ⟨fun m hm => ?_, ?_, ?_⟩
  · rcases List.mem_append.1 hm with hm | hm
    · exact h.fresh m hm
    · rw [List.mem_singleton.1 hm]
  · simp [← h.ledger]
  · simp [outTotal, h.counted]

theorem unfit_closes (h : Relaying cfg ms hist s) {e : Input} (hfits : ¬s.Fits e) : (s.step e).closed = true := by
  cases e with
  | wtData data =>
    obtain ⟨hne, hlong⟩ := not_or.1 hfits
    have hfed : ¬(s.codec.feed data).2 = true := by
      rwa [FrameCodec.feed_fits, h.limit, ← h.same]
    dsimp only [step]
    unfold onWtData
    rw [if_neg (by simp [h.alive, h.wtOpen, hne])]
    dsimp only
    rw [if_neg hfed]
    exact fail_closed _
  | backendMessage f answer =>
    dsimp only [step]
    unfold enqueueOut
    rw [if_pos (Nat.lt_of_not_ge hfits)]
    exact fail_closed s
  | attach answer => exact absurd trivial hfits
  | wtWritable answer => exact absurd trivial hfits
  | backendConnected => exact absurd trivial hfits
  | wtClosed => exact absurd trivial hfits
  | backendClosed => exact absurd trivial hfits

end Session

open Session

theorem relaying_step {cfg : Wt2wsConfig} {ms : List Frame} {ins hist post : List Input} {s : Session} {e : Input}
    (hms : ∀ f ∈ ms, f.Ok cfg) (hrel : ∀ e ∈ ins, e.Relays) (hbytes : streamBytes ins = encodeAll ms)
    (hqueue : QueuedWithin cfg ms ins) (hins : ins = hist ++ e :: post) (h : Relaying cfg ms hist s) (hfits : s.Fits e) :
    Relaying cfg ms (hist ++ [e]) (s.step e) := by
  have hans : e.Relays := hrel e (by simp [hins])
  cases e with
  | wtData data =>
    refine h.wtData (streamBytes post) hms ?_ (fun hconn done rest hsplit hpre => ?_) hfits
    · rw [← hbytes, hins, streamBytes_append, append_assoc]
      rfl
    · refine hqueue (hist ++ [.wtData data]) post (by rw [hins]; simp) ?_ done rest hsplit ?_
      · simp [(h.waiting hconn).1]
      · rw [streamBytes_append]
        simpa [streamBytes] using hpre
  | attach answer =>
    dsimp only [Session.step]
    unfold attachStream
    have hmsgs : backendMessages (hist ++ [.attach answer]) = backendMessages hist := by simp [backendMessages]
    split
    · exact h.writes (e := .attach answer) rfl (by simp) s.attached s.outBytes s.outq s.accepted (hmsgs ▸ h.outgoing)
    · exact h.flush (e := .attach answer) rfl (by simp) hans true s.outBytes s.outq (hmsgs ▸ h.outgoing.same rfl rfl rfl)
  | wtWritable answer =>
    have hmsgs : backendMessages (hist ++ [.wtWritable answer]) = backendMessages hist := by simp [backendMessages]
    exact h.flush (e := .wtWritable answer) rfl (by simp) hans s.attached s.outBytes s.outq (hmsgs ▸ h.outgoing)
  | backendConnected => exact h.backendConnected
  | backendMessage f answer =>
    dsimp only [Session.step]
    unfold enqueueOut
    rw [if_neg (Nat.not_lt.2 hfits)]
    refine h.flush (e := .backendMessage f answer) rfl (by simp) hans s.attached _ _ ?_
    rw [backendMessages_append]
    exact h.outgoing.enqueue f
  | wtClosed => exact hans.elim
  | backendClosed => exact hans.elim

theorem Session.Relaying.relayed {cfg : Wt2wsConfig} {ms : List Frame} {ins : List Input} {s : Session}
    (h : Relaying cfg ms ins s) (hbytes : streamBytes ins = encodeAll ms) : Relayed ms (backendMessages ins) s := by
  obtain ⟨done, rest, hsplit, hhist, hpart, hgot⟩ := h.inbound
  have hpend : s.codec.pending = encodeAll rest := by
    rw [hbytes, hsplit, encodeAll_append] at hhist
    exact (append_cancel_left hhist).symm
  have hrest : rest = [] := by
    rcases hpart with ⟨hnil, -⟩ | ⟨f, rest', more, rfl, henc, hmore⟩
    · exact hnil
    · have hlen := congrArg List.length henc
      rw [hpend, encodeAll_cons, length_append, length_append] at hlen
      have := List.length_pos_iff.2 hmore
      omega
  refine ⟨h.alive, ?_, h.drained, ?_, h.outgoing.counted⟩
  · rw [hgot, hsplit, hrest, append_nil]
  · rw [← h.outgoing.ledger]
    congr 1
    exact flatMap_congr fun m hm => by rw [h.outgoing.fresh m hm, drop_zero]

def configSample : Wt2wsConfig := ⟨16, 64, by decide, by decide⟩

def framesSample : List Frame := [⟨kFrameText, [97]⟩, ⟨kFrameBinary, replicate 16 7⟩]

theorem queuedWithin_sample (ins : List Input) : QueuedWithin configSample framesSample ins := by
  intro pre post _ _ done rest hsplit _
  have htotal : payloadTotal done + payloadTotal rest = 17 := by
    rw [← payloadTotal_append, ← hsplit]
    rfl
  have hmax : configSample.maxQueue = 64 := rfl
  omega

end Wt2ws
end MoqLiveCast
