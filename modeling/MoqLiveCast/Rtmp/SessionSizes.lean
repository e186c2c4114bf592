import MoqLiveCast.Rtmp.ChunkWrite
import MoqLiveCast.Rtmp.SessionLife
/-!
# SessionSizes — where chunks are cut, in both directions

A session has one chunk size. The peer's announcement sets it, and is said again, so then both directions have it; a
connect sets it to `g_config_chunk_size` and announces that, which the peer's chunks know nothing of.
-/
namespace MoqLiveCast

open List

/-! ## Where chunks ought to be cut -/

/-- The chunks of a message for a peer that was told `size`. -/
def cutBy (m : RtmpMessage) (size : Nat) : List (List Byte) :=
  (range (chunkCount m.payload.length size)).map fun i =>
    genData (if i = 0 then 0 else 3) (m.csid % 65536) m.timestamp.toNat m.payload.length m.typeId m.streamId.toNat
      ((m.payload.drop (i * size)).take size)

def sizeAfter (size : Nat) (m : RtmpMessage) : Nat := if m.typeId = 1 then readNBytes (m.payload.take 4) else size

def announcedSize (sent : List RtmpSent) : Nat := sent.foldl (fun size x => sizeAfter size x.message) 128

/-- A chunk that was read: its stream and what was buffered, the session's size, and the last one of the peer. -/
structure ChunkTaken where
  stream : ChunkStream
  buf : List Byte
  size : Nat
  peer : Nat
deriving DecidableEq

/-- A session with what its peer announced last, whether a connect was accepted after that, and the chunks it read. -/
structure SizedWorld where
  world : RtmpWorld := {}
  peer : Nat := 128
  connected : Bool := false
  taken : List ChunkTaken := []

/-- A chunk's payload is read, by any stream from any bytes, or a message or a call comes. -/
inductive SizedInput where
  | read (s : ChunkStream) (b : List Byte)
  | event (i : RtmpInputEvent)

/-- **Both peers agree**: what is read is what would be read with the size of the peer, and what is sent is cut for the size that
was sent before it. -/
structure SizedWorld.Agreed (w : SizedWorld) : Prop where
  incoming : ∀ c ∈ w.taken, c.stream.readMessagePayload c.size c.buf = c.stream.readMessagePayload c.peer c.buf
  outgoing : ∀ pre x post, w.world.session.sent = pre ++ x :: post → x.chunks = cutBy x.message (announcedSize pre)

section

variable (sessionId : SessionId) (writerId : Nat → Name)

def RtmpWorld.connects (w : RtmpWorld) (items : List AmfItem) : Bool :=
  items.head?.map (·.descStr) = some (amfText "connect") && (w.handleClientCommand sessionId items 0).2

def SizedWorld.step (w : SizedWorld) : SizedInput → SizedWorld
  | .read s b =>
    if w.world.session.closed then w else { w with taken := w.taken ++ [⟨s, b, w.world.session.chunkSize, w.peer⟩] }
  | .event i =>
    let w' := { w with world := w.world.step sessionId writerId i }
    if w.world.session.closed then w'
    else
      match i with
      | .command items _ _ _ => if w.world.connects sessionId items then { w' with connected := true } else w'
      | .control m =>
        if m.typeId = 1 ∧ 4 ≤ m.payload.length then { w' with peer := readNBytes (m.payload.take 4), connected := false } else w'
      | _ => w'

/-! ## The condition -/

/-- A reply that is cut as it ought to be: it is one chunk, or its chunks can be counted. -/
def RtmpReply.Fits (size : Nat) : RtmpReply → Prop
  | .whole m => m.payload.length ≤ size
  | .chunked m => 0 < size ∧ size + m.payload.length < 2 ^ 32 ∧ m.payload.length < 2 ^ 31

instance (size : Nat) : ∀ r : RtmpReply, Decidable (r.Fits size)
  | .whole _ => inferInstanceAs (Decidable (_ ≤ _))
  | .chunked _ => inferInstanceAs (Decidable (_ ∧ _ ∧ _))

/-- What an accepted command is answered with in the size that was announced; behind those of a connect, its own one holds. -/
def repliesOf (items : List AmfItem) : List RtmpReply :=
  match items.head?.map (·.descStr) with
  | none => []
  | some name =>
    if name = amfText "connect" then connectControls
    else if name = amfText "createStream" then [.chunked (createStreamResp (transactionIdOf items))]
    else if name = amfText "publish" then [.chunked publishResp]
    else if name = amfText "play" then playResp
    else []

/-- **The condition**: a chunk that is read has no connect behind the peer's size, or is no longer than what both sizes allow;
what is sent fits the size that was announced, and no packet is written as an announcement. -/
def SizedWorld.Fits (w : SizedWorld) : SizedInput → Prop
  | .read s _ => w.connected = true → min s.remain g_config_chunk_size = min s.remain w.peer
  | .event i => w.world.session.closed = false →
    match i with
    | .command items now _ _ => (w.world.handleClientCommand sessionId items now).2 = true →
      ∀ r ∈ repliesOf items, r.Fits (announcedSize w.world.session.sent)
    | .control m => m.typeId = 1 → 4 ≤ m.payload.length → 4 ≤ announcedSize w.world.session.sent
    | .written p typeId streamId => ∀ m ∈ writerMessage p typeId streamId,
      m.typeId ≠ 1 ∧ (RtmpReply.chunked m).Fits (announcedSize w.world.session.sent)
    | _ => True

instance SizedWorld.Fits.decidable (w : SizedWorld) : ∀ i : SizedInput, Decidable (w.Fits sessionId i)
  | .read _ _ => inferInstanceAs (Decidable (_ = true → _ = _))
  | .event (.command items _ _ _) =>
    inferInstanceAs (Decidable (_ = false → _ = true → ∀ r ∈ repliesOf items, r.Fits _))
  | .event (.control _) => inferInstanceAs (Decidable (_ = false → _ = _ → _ ≤ _ → _ ≤ _))
  | .event (.written p typeId streamId) =>
    inferInstanceAs (Decidable (_ = false → ∀ m ∈ writerMessage p typeId streamId, m.typeId ≠ 1 ∧ (RtmpReply.chunked m).Fits _))
  | .event (.media _ _ _) | .event .amf3 | .event .close | .event (.other _ _) => inferInstanceAs (Decidable (_ = false → True))

end

/-! ## Chunks that are sent -/

def Outgoing (sent : List RtmpSent) : Prop :=
  ∀ pre x post, sent = pre ++ x :: post → x.chunks = cutBy x.message (announcedSize pre)

theorem outgoing_append {sent : List RtmpSent} {x : RtmpSent} (h : Outgoing sent)
    (hx : x.chunks = cutBy x.message (announcedSize sent)) : Outgoing (sent ++ [x]) := by
  intro pre y post heq
  rcases List.append_eq_append_iff.1 heq with ⟨mid, hpre, hpost⟩ | ⟨mid, hsent, hpost⟩
  · cases mid with
    | nil =>
      rw [append_nil] at hpre
      rw [hpre, ← (List.cons.inj hpost).1]
      exact hx
    | cons z mid =>
      have hnil := congrArg List.length hpost
      simp at hnil
  · cases mid with
    | nil =>
      rw [append_nil] at hsent
      rw [← hsent, (List.cons.inj hpost).1]
      exact hx
    | cons z mid =>
      obtain ⟨rfl, -⟩ := List.cons.inj hpost
      exact h pre y mid hsent

theorem announcedSize_append (sent : List RtmpSent) (x : RtmpSent) :
    announcedSize (sent ++ [x]) = sizeAfter (announcedSize sent) x.message := by
  unfold announcedSize
  rw [foldl_append]
  rfl

theorem cutBy_one {m : RtmpMessage} {size : Nat} (hpos : 0 < m.payload.length) (hle : m.payload.length ≤ size)
    (hcsid : m.csid < 65536) :
    cutBy m size = [genData 0 m.csid m.timestamp.toNat m.payload.length m.typeId m.streamId.toNat m.payload] := by
  have hcount : chunkCount m.payload.length size = 1 := by
    unfold chunkCount
    rcases Nat.lt_or_eq_of_le hle with hlt | heq
    · rw [Nat.div_eq_of_lt hlt, Nat.mod_eq_of_lt hlt, if_pos hpos]
    · rw [heq, Nat.div_self (by omega), Nat.mod_self, if_neg (Nat.lt_irrefl 0)]
  have hcs : m.csid % 65536 = m.csid := Nat.mod_eq_of_lt hcsid
  unfold cutBy
  rw [hcount, hcs]
  simp [range_one, take_of_length_le hle]

theorem written_cutBy {m : RtmpMessage} {size : Nat} (hfits : (RtmpReply.chunked m).Fits size) :
    writeDataByChunkStream m size = cutBy m size := by
  obtain ⟨hpos, hsum, hlen⟩ := hfits
  unfold writeDataByChunkStream cutBy
  rw [csCount_eq hlen hsum, Int.toNat_natCast]
  refine map_congr_left fun i hi => ?_
  exact chunkAt_take hpos hlen hsum ((lt_chunkCount hpos).1 (List.mem_range.1 hi))

def RtmpReply.message : RtmpReply → RtmpMessage
  | .whole m => m
  | .chunked m => m

/-- A message in one chunk has something to say, on a stream whose number fits. -/
def RtmpReply.Sound : RtmpReply → Prop
  | .whole m => 0 < m.payload.length ∧ m.csid < 65536
  | .chunked _ => True

instance : ∀ r : RtmpReply, Decidable r.Sound
  | .whole _ => inferInstanceAs (Decidable (_ ∧ _))
  | .chunked _ => .isTrue trivial

section

variable {s : RtmpSession}

theorem send_outgoing (hopen : s.closed = false) (h : Outgoing s.sent) {r : RtmpReply} (hsound : r.Sound)
    (hfits : r.Fits (announcedSize s.sent)) (hsize : s.chunkSize = announcedSize s.sent ∨ ∃ m, r = .whole m) :
    Outgoing (s.send r).sent ∧ announcedSize (s.send r).sent = sizeAfter (announcedSize s.sent) r.message := by
  unfold RtmpSession.send
  rw [if_neg (by simp [hopen])]
  cases r with
  | whole m =>
    dsimp only
    rw [announcedSize_append]
    exact ⟨outgoing_append h (cutBy_one hsound.1 hfits hsound.2).symm, rfl⟩
  | chunked m =>
    have hsame : s.chunkSize = announcedSize s.sent := hsize.resolve_right nofun
    dsimp only
    rw [announcedSize_append]
    refine ⟨outgoing_append h ?_, rfl⟩
    rw [hsame]
    exact written_cutBy hfits

theorem send_kept (s : RtmpSession) (r : RtmpReply) : (s.send r).closed = s.closed ∧ (s.send r).chunkSize = s.chunkSize := by
  unfold RtmpSession.send
  split
  · exact ⟨rfl, rfl⟩
  · cases r <;> exact ⟨rfl, rfl⟩

theorem sendAll_kept : ∀ (rs : List RtmpReply) (s : RtmpSession),
    (s.sendAll rs).closed = s.closed ∧ (s.sendAll rs).chunkSize = s.chunkSize
  | [], _ => ⟨rfl, rfl⟩
  | r :: rs, s => by
    obtain ⟨hclosed, hsize⟩ := send_kept s r
    obtain ⟨hclosed', hsize'⟩ := sendAll_kept rs (s.send r)
    exact ⟨hclosed'.trans hclosed, hsize'.trans hsize⟩

theorem sendAll_outgoing : ∀ (rs : List RtmpReply) (s : RtmpSession), s.closed = false → Outgoing s.sent →
    (s.chunkSize = announcedSize s.sent ∨ ∀ r ∈ rs, ∃ m, r = .whole m) →
    (∀ r ∈ rs, r.Sound ∧ r.message.typeId ≠ 1 ∧ r.Fits (announcedSize s.sent)) →
      Outgoing (s.sendAll rs).sent ∧ announcedSize (s.sendAll rs).sent = announcedSize s.sent
  | [], _, _, h, _, _ => ⟨h, rfl⟩
  | r :: rs, s, hopen, h, hsize, hall => by
    obtain ⟨hsound, htype, hfits⟩ := hall r mem_cons_self
    obtain ⟨hout, hann⟩ := send_outgoing hopen h hsound hfits (hsize.imp_right fun hw => hw r mem_cons_self)
    rw [sizeAfter, if_neg htype] at hann
    obtain ⟨hclosed, hsame⟩ := send_kept s r
    obtain ⟨hout', hann'⟩ := sendAll_outgoing rs (s.send r) (hclosed.trans hopen) hout
      (by rw [hsame, hann]; exact hsize.imp_right fun hw r hr => hw r (mem_cons_of_mem _ hr))
      (by rw [hann]; exact fun r hr => hall r (mem_cons_of_mem _ hr))
    exact ⟨hout', hann'.trans hann⟩

theorem send_announced (hopen : s.closed = false) (h : Outgoing s.sent) {size : Nat} (hfour : 4 ≤ announcedSize s.sent)
    (hlt : size < 2 ^ 32) : Outgoing (s.send (.whole (controlMessage 1 4 size))).sent ∧ announcedSize (s.send (.whole
    (controlMessage 1 4 size))).sent = size := by
  have hlen : (controlMessage 1 4 size).payload.length = 4 := by simp [controlMessage]
  have hsound : (RtmpReply.whole (controlMessage 1 4 size)).Sound := ⟨by omega, by simp [controlMessage]⟩
  obtain ⟨hout, hann⟩ := send_outgoing hopen h hsound (Nat.le_trans (Nat.le_of_eq hlen) hfour) (.inr ⟨_, rfl⟩)
  refine ⟨hout, hann.trans ?_⟩
  have htake : (controlMessage 1 4 size).payload.take 4 = beBytes 4 size := by
    simp [controlMessage, take_of_length_le]
  have htype : (controlMessage 1 4 size).typeId = 1 := rfl
  rw [RtmpReply.message, sizeAfter, if_pos htype, htake, readNBytes_beBytes]
  exact Nat.mod_eq_of_lt hlt

end

/-! ## Steps -/

structure SameSizes (s s' : RtmpSession) : Prop where
  closed : s'.closed = s.closed
  chunkSize : s'.chunkSize = s.chunkSize
  sent : s'.sent = s.sent

section

variable {sessionId : SessionId} {writerId : Nat → Name} {w : RtmpWorld}

theorem onPublishReady_sizes (w : RtmpWorld) (now : Int) : SameSizes w.session (w.onPublishReady sessionId now).1.session := by
  unfold RtmpWorld.onPublishReady
  split
  · exact ⟨rfl, rfl, rfl⟩
  split
  · exact ⟨rfl, rfl, rfl⟩
  dsimp only
  split <;> exact ⟨rfl, rfl, rfl⟩

theorem send_sizes {s s' : RtmpSession} (h : SameSizes s s') (r : RtmpReply) : SameSizes (s.send r) (s'.send r) := by
  unfold RtmpSession.send
  rw [h.closed, h.chunkSize, h.sent]
  split
  · exact h
  · cases r <;> exact ⟨rfl, rfl, rfl⟩

theorem sendAll_sizes : ∀ (rs : List RtmpReply) {s s' : RtmpSession}, SameSizes s s' → SameSizes (s.sendAll rs) (s'.sendAll rs)
  | [], _, _, h => h
  | r :: rs, _, _, h => sendAll_sizes rs (send_sizes h r)

def RtmpSession.connected (s : RtmpSession) : RtmpSession := { s with chunkSize := g_config_chunk_size }

theorem handleRtmpConnectCommand_sizes (w : RtmpWorld) (items : List AmfItem) : (w.handleRtmpConnectCommand items).2 = true ∧
    SameSizes (w.session.connected.sendAll (connectControls ++ [.chunked connectResp])) (w.handleRtmpConnectCommand
    items).1.session ∨ (w.handleRtmpConnectCommand items).2 = false ∧ SameSizes w.session (w.handleRtmpConnectCommand
    items).1.session := by
  unfold RtmpWorld.handleRtmpConnectCommand
  split
  · exact .inr ⟨rfl, rfl, rfl, rfl⟩
  · split
    · exact .inr ⟨rfl, rfl, rfl, rfl⟩
    · exact .inl ⟨rfl, sendAll_sizes _ ⟨rfl, rfl, rfl⟩⟩

theorem handleClientCommand_sizes (w : RtmpWorld) (items : List AmfItem) (now : Int) : if w.connects sessionId items then
      SameSizes (w.session.connected.sendAll (connectControls ++ [.chunked connectResp]))
          (w.handleClientCommand sessionId items now).1.session ∧
        (w.handleClientCommand sessionId items now).2 = true ∧ repliesOf items = connectControls else
      (w.handleClientCommand sessionId items now).2 = true ∧ (∀ r ∈ repliesOf items, r.Sound ∧ r.message.typeId ≠ 1) ∧
          SameSizes (w.session.sendAll (repliesOf items)) (w.handleClientCommand sessionId items now).1.session ∨
        (w.handleClientCommand sessionId items now).2 = false ∧
          SameSizes w.session (w.handleClientCommand sessionId items now).1.session := by
  have hnothing : SameSizes w.session w.session := ⟨rfl, rfl, rfl⟩
  cases items with
  | nil =>
    rw [if_neg (by simp [RtmpWorld.connects])]
    exact .inr ⟨rfl, hnothing⟩
  | cons item rest =>
    unfold RtmpWorld.connects repliesOf RtmpWorld.handleClientCommand
    simp only [List.head?_cons, Option.map_some, Option.some.injEq]
    by_cases htype : item.amfType ≠ .string
    · rw [if_pos htype, if_neg (by simp), if_pos htype]
      exact .inr ⟨rfl, hnothing⟩
    rw [if_neg htype, if_neg htype]
    by_cases hconnect : item.descStr = amfText "connect"
    · simp only [hconnect, decide_true, Bool.true_and, if_true]
      rcases handleRtmpConnectCommand_sizes w (item :: rest) with ⟨hdone, hsame⟩ | ⟨hdone, hsame⟩
      · rw [if_pos hdone]
        exact ⟨hsame, hdone, trivial⟩
      · rw [if_neg (by simp [hdone])]
        exact .inr ⟨hdone, hsame⟩
    rw [if_neg (by simp [hconnect]), if_neg hconnect, if_neg hconnect]
    by_cases hcreate : item.descStr = amfText "createStream"
    · simp only [if_pos hcreate]
      unfold RtmpWorld.handleRtmpCreatestreamCommand
      split
      · exact .inr ⟨rfl, hnothing⟩
      · refine .inl ⟨rfl, fun r hr => ?_, sendAll_sizes _ hnothing⟩
        rw [List.mem_singleton.1 hr]
        exact ⟨trivial, nofun⟩
    rw [if_neg hcreate, if_neg hcreate]
    by_cases hpublish : item.descStr = amfText "publish"
    · simp only [if_pos hpublish]
      unfold RtmpWorld.handleRtmpPublishCommand
      split
      · exact .inr ⟨rfl, hnothing⟩
      split
      · exact .inr ⟨rfl, hnothing⟩
      dsimp only
      have hready := @onPublishReady_sizes sessionId
        { w with session := { w.session with req := w.session.req.named true (streamNameOf (item :: rest)) } } now
      have hsame : SameSizes w.session _ := ⟨hready.closed, hready.chunkSize, hready.sent⟩
      split
      · refine .inl ⟨rfl, fun r hr => ?_, sendAll_sizes _ hsame⟩
        rw [List.mem_singleton.1 hr]
        exact ⟨trivial, nofun⟩
      · rename_i hrejected
        exact .inr ⟨by simpa using hrejected, hsame⟩
    rw [if_neg hpublish, if_neg hpublish]
    by_cases hplay : item.descStr = amfText "play"
    · simp only [if_pos hplay]
      unfold RtmpWorld.handleRtmpPlayCommand
      split
      · exact .inr ⟨rfl, hnothing⟩
      · exact .inl ⟨rfl, by decide +kernel, sendAll_sizes _ ⟨rfl, rfl, rfl⟩⟩
    · rw [if_neg hplay, if_neg hplay]
      exact .inl ⟨rfl, nofun, hnothing⟩

theorem close_sizes (w : RtmpWorld) : (w.close sessionId writerId).session.closed = true ∧
    (w.close sessionId writerId).session.sent = w.session.sent := by
  unfold RtmpWorld.close
  split
  · rename_i hclosed
    exact ⟨hclosed, rfl⟩
  dsimp only
  split
  · split <;> exact ⟨rfl, rfl⟩
  · split <;> exact ⟨rfl, rfl⟩

/-- **The session's size is what was announced**, and the peer's as long as no connect came behind it. -/
structure Sized (w : SizedWorld) : Prop where
  agreed : w.Agreed
  peer : w.world.session.closed = false → w.world.session.chunkSize = if w.connected then g_config_chunk_size else w.peer
  announced : w.world.session.closed = false → announcedSize w.world.session.sent = w.world.session.chunkSize

theorem Sized.same {w : SizedWorld} (h : Sized w) {w' : RtmpWorld} (hsent : w'.session.sent = w.world.session.sent)
    (hsize : w'.session.closed = false →
      w.world.session.closed = false ∧ w'.session.chunkSize = w.world.session.chunkSize) : Sized { w with world := w' } := by
  refine ⟨⟨h.agreed.incoming, ?_⟩, fun hopen => ?_, fun hopen => ?_⟩
  · dsimp only
    rw [hsent]
    exact h.agreed.outgoing
  · obtain ⟨hwas, hsame⟩ := hsize hopen
    exact hsame.trans (h.peer hwas)
  · obtain ⟨hwas, hsame⟩ := hsize hopen
    dsimp only
    rw [hsent, hsame]
    exact h.announced hwas

theorem Sized.closed {w : SizedWorld} (h : Sized w) : Sized { w with world := w.world.close sessionId writerId } := by
  obtain ⟨hclosed, hsent⟩ := @close_sizes sessionId writerId w.world
  refine h.same hsent fun hopen => ?_
  rw [hclosed] at hopen
  cases hopen

theorem connect_outgoing {s : RtmpSession} (hopen : s.closed = false) (h : Outgoing s.sent) (hfits : ∀ r ∈ connectControls, r.Fits
    (announcedSize s.sent)) : Outgoing (s.connected.sendAll (connectControls ++ [.chunked connectResp])).sent ∧
    announcedSize (s.connected.sendAll (connectControls ++ [.chunked connectResp])).sent = g_config_chunk_size := by
  have hfive : 5 ≤ announcedSize s.sent := hfits _ (mem_cons_of_mem _ mem_cons_self)
  obtain ⟨hout, hann⟩ := sendAll_outgoing (connectControls.take 2) s.connected hopen h (.inr (by simp [connectControls])) fun r hr =>
    ⟨by revert r; decide, by revert r; decide, hfits r (mem_of_mem_take hr)⟩
  obtain ⟨hclosed, hsize⟩ := sendAll_kept (connectControls.take 2) s.connected
  obtain ⟨hout', hann'⟩ := @send_announced _ (hclosed.trans hopen) hout g_config_chunk_size
    (by rw [hann]; exact Nat.le_trans (by decide) hfive) (by decide)
  obtain ⟨hclosed', hsize'⟩ := send_kept (s.connected.sendAll (connectControls.take 2))
    (.whole (controlMessage 1 4 g_config_chunk_size))
  obtain ⟨hout'', hann''⟩ := send_outgoing (r := .chunked connectResp) ((hclosed'.trans hclosed).trans hopen) hout' trivial
    (by rw [hann']; decide +kernel) (.inl ((hsize'.trans hsize).trans hann'.symm))
  exact ⟨hout'', hann''.trans hann'⟩

theorem Sized.handle {w : SizedWorld} (h : Sized w) (hopen : w.world.session.closed = false) (items : List AmfItem) (now : Int)
    (hfits : (w.world.handleClientCommand sessionId items now).2 = true →
      ∀ r ∈ repliesOf items, r.Fits (announcedSize w.world.session.sent)) :
    Sized { w with
      world := (w.world.handleClientCommand sessionId items now).1,
      connected := w.connected || w.world.connects sessionId items } := by
  have hcases := @handleClientCommand_sizes sessionId w.world items now
  have hout : Outgoing w.world.session.sent := h.agreed.outgoing
  cases hconnects : w.world.connects sessionId items with
  | true =>
    rw [if_pos hconnects] at hcases
    obtain ⟨hsame, hdone, hreplies⟩ := hcases
    obtain ⟨hout', hann'⟩ := connect_outgoing hopen hout (hreplies ▸ hfits hdone)
    refine ⟨⟨h.agreed.incoming, ?_⟩, fun _ => ?_, fun _ => ?_⟩
    · dsimp only
      rw [hsame.sent]
      exact hout'
    · simp only [Bool.or_true, if_true]
      rw [hsame.chunkSize]
      exact (sendAll_kept _ _).2
    · have hsize := (sendAll_kept (connectControls ++ [.chunked connectResp]) w.world.session.connected).2
      dsimp only
      rw [hsame.sent, hsame.chunkSize, hsize]
      exact hann'
  | false =>
    rw [if_neg (by simp [hconnects])] at hcases
    rw [Bool.or_false]
    rcases hcases with ⟨hdone, hquiet, hsame⟩ | ⟨-, hsame⟩
    swap
    · exact h.same hsame.sent fun _ => ⟨hopen, hsame.chunkSize⟩
    obtain ⟨hclosed, hsize⟩ := sendAll_kept (repliesOf items) w.world.session
    obtain ⟨hout', hann'⟩ := sendAll_outgoing (repliesOf items) w.world.session hopen hout (.inl (h.announced hopen).symm)
      fun r hr => ⟨(hquiet r hr).1, (hquiet r hr).2, hfits hdone r hr⟩
    refine ⟨⟨h.agreed.incoming, ?_⟩, fun _ => ?_, fun _ => ?_⟩
    · dsimp only
      rw [hsame.sent]
      exact hout'
    · dsimp only
      rw [hsame.chunkSize, hsize]
      exact h.peer hopen
    · dsimp only
      rw [hsame.sent, hsame.chunkSize, hsize, hann']
      exact h.announced hopen

theorem onCommand_sizes (w : RtmpWorld) (items : List AmfItem) (now : Int) (writer : Nat) (fails : Nat → MediaPacket → Bool) :
    let w' := w.onCommand sessionId writerId items now writer fails
    let r := (w.handleClientCommand sessionId items now).1
    w'.session.sent = r.session.sent ∧ (w'.session.closed = false →
      r.session.closed = false ∧ w'.session.chunkSize = r.session.chunkSize) := by
  intro w' r
  unfold w' RtmpWorld.onCommand
  dsimp only
  split
  · obtain ⟨hclosed, hsent⟩ := @close_sizes sessionId writerId r
    refine ⟨hsent, fun hopen => ?_⟩
    rw [hclosed] at hopen
    cases hopen
  split
  · exact ⟨rfl, fun hopen => ⟨hopen, rfl⟩⟩
  · exact ⟨rfl, fun hopen => ⟨hopen, rfl⟩⟩

theorem onMedia_sizes (w : RtmpWorld) (pkt : Option MediaPacket) (catalog : Option (List Byte)) (fails : Nat → MediaPacket → Bool) :
    let w' := w.onMedia sessionId writerId pkt catalog fails
    w'.session.sent = w.session.sent ∧
      (w'.session.closed = false → w.session.closed = false ∧ w'.session.chunkSize = w.session.chunkSize) := by
  intro w'
  unfold w' RtmpWorld.onMedia
  split
  · obtain ⟨hclosed, hsent⟩ := @close_sizes sessionId writerId w
    refine ⟨hsent, fun hopen => ?_⟩
    rw [hclosed] at hopen
    cases hopen
  · split
    · cases catalog <;> exact ⟨rfl, fun hopen => ⟨hopen, rfl⟩⟩
    · exact ⟨rfl, fun hopen => ⟨hopen, rfl⟩⟩

theorem Sized.control {w : SizedWorld} (h : Sized w) (hopen : w.world.session.closed = false) (m : RtmpMessage)
    (hfits : m.typeId = 1 → 4 ≤ m.payload.length → 4 ≤ announcedSize w.world.session.sent) :
    Sized (w.step sessionId writerId (.event (.control m))) := by
  have hne : ¬w.world.session.closed = true := by simp [hopen]
  unfold SizedWorld.step RtmpWorld.step RtmpWorld.onControl
  dsimp only
  rw [if_neg hne, if_neg hne]
  by_cases htype : m.typeId = 1
  · by_cases hlen : m.payload.length < 4
    · rw [if_pos htype, if_pos hlen, if_neg (by omega)]
      exact h.closed
    rw [if_pos htype, if_neg hlen, if_pos ⟨htype, by omega⟩]
    have hlt : readNBytes (m.payload.take 4) < 2 ^ 32 := by
      have hbound := readNBytes_lt (m.payload.take 4)
      have hfour : (m.payload.take 4).length = 4 := by simp; omega
      rwa [hfour] at hbound
    obtain ⟨hout, hann⟩ := send_announced (s := { w.world.session with chunkSize := readNBytes (m.payload.take 4) }) hopen
      h.agreed.outgoing (hfits htype (by omega)) hlt
    obtain ⟨-, hsize⟩ := send_kept { w.world.session with chunkSize := readNBytes (m.payload.take 4) }
      (.whole (controlMessage 1 4 (readNBytes (m.payload.take 4))))
    exact ⟨⟨h.agreed.incoming, hout⟩, fun _ => hsize, fun _ => hann.trans hsize.symm⟩
  · rw [if_neg htype, if_neg (fun hx => htype hx.1)]
    split
    · exact h.closed
    · exact h

theorem step_closed (hclosed : w.session.closed = true) (i : RtmpInputEvent) :
    (w.step sessionId writerId i).session = w.session := by
  have hclose : w.close sessionId writerId = w := if_pos hclosed
  cases i with
  | command items now writer fails =>
    dsimp only [RtmpWorld.step]
    rw [if_pos hclosed]
  | media pkt catalog fails =>
    dsimp only [RtmpWorld.step]
    rw [if_pos hclosed]
  | control m =>
    dsimp only [RtmpWorld.step]
    rw [if_pos hclosed]
  | amf3 => exact congrArg RtmpWorld.session hclose
  | close => exact congrArg RtmpWorld.session hclose
  | written p typeId streamId =>
    cases hm : writerMessage p typeId streamId with
    | none => simp [RtmpWorld.step, RtmpWorld.reply, RtmpSession.sendAll, hm]
    | some m => simp [RtmpWorld.step, RtmpWorld.reply, RtmpSession.sendAll, RtmpSession.send, hm, hclosed]
  | other key op => rfl

theorem sized_step {w : SizedWorld} (h : Sized w) (i : SizedInput) (hfits : w.Fits sessionId i) :
    Sized (w.step sessionId writerId i) := by
  cases i with
  | read s b =>
    dsimp only [SizedWorld.step]
    split
    · exact h
    rename_i hclosed
    have hopen : w.world.session.closed = false := by simpa using hclosed
    refine ⟨⟨fun c hc => ?_, h.agreed.outgoing⟩, h.peer, h.announced⟩
    rcases List.mem_append.1 hc with hc | hc
    · exact h.agreed.incoming c hc
    · rw [List.mem_singleton.1 hc]
      have hsize := h.peer hopen
      dsimp only
      unfold ChunkStream.readMessagePayload
      cases hconn : w.connected with
      | false => rw [hsize, hconn, if_neg Bool.false_ne_true]
      | true => rw [hsize, hconn, if_pos rfl, hfits hconn]
  | event i =>
    by_cases hclosed : w.world.session.closed = true
    · have hdone : ∀ w' : RtmpWorld, w'.session = w.world.session → Sized { w with world := w' } := fun w' hsame =>
        h.same (by rw [hsame]) fun hopen => by
          rw [hsame, hclosed] at hopen
          cases hopen
      dsimp only [SizedWorld.step]
      rw [if_pos hclosed]
      exact hdone _ (step_closed hclosed i)
    have hopen : w.world.session.closed = false := by simpa using hclosed
    cases i with
    | command items now writer fails =>
      have hhandled := h.handle hopen items now (hfits hopen)
      obtain ⟨hsent, hsize⟩ := @onCommand_sizes sessionId writerId w.world items now writer fails
      have hdone := hhandled.same hsent hsize
      dsimp only [SizedWorld.step, RtmpWorld.step]
      rw [if_neg hclosed, if_neg hclosed]
      cases hconnects : w.world.connects sessionId items with
      | true =>
        rw [hconnects, Bool.or_true] at hdone
        exact hdone
      | false =>
        rw [hconnects, Bool.or_false] at hdone
        exact hdone
    | media pkt catalog fails =>
      obtain ⟨hsent, hsize⟩ := @onMedia_sizes sessionId writerId w.world pkt catalog fails
      have hdone := h.same hsent hsize
      dsimp only [SizedWorld.step, RtmpWorld.step]
      rwa [if_neg hclosed, if_neg hclosed]
    | control m => exact h.control hopen m (hfits hopen)
    | amf3 =>
      dsimp only [SizedWorld.step, RtmpWorld.step]
      rw [if_neg hclosed]
      exact h.closed
    | written p typeId streamId =>
      dsimp only [SizedWorld.step, RtmpWorld.step]
      rw [if_neg hclosed]
      cases hm : writerMessage p typeId streamId with
      | none => exact h
      | some m =>
        obtain ⟨htype, hfit⟩ := hfits hopen m hm
        obtain ⟨hout, hann⟩ := send_outgoing (r := .chunked m) hopen h.agreed.outgoing trivial hfit (.inl (h.announced hopen).symm)
        obtain ⟨-, hsize⟩ := send_kept w.world.session (.chunked m)
        rw [RtmpReply.message, sizeAfter, if_neg htype] at hann
        exact ⟨⟨h.agreed.incoming, hout⟩, fun _ => hsize.trans (h.peer hopen),
          fun _ => hann.trans ((h.announced hopen).trans hsize.symm)⟩
    | close =>
      dsimp only [SizedWorld.step, RtmpWorld.step]
      rw [if_neg hclosed]
      exact h.closed
    | other key op =>
      dsimp only [SizedWorld.step, RtmpWorld.step]
      rw [if_neg hclosed]
      exact h.same rfl fun hstill => ⟨hstill, rfl⟩

end

/-- **The sizes agree** in a run whose chunks are read with no connect behind the peer's size, or are short, and whose replies fit
the size that was sent before. -/
theorem chunk_sizes_agree (sessionId : SessionId) (writerId : Nat → Name) (streams : Name → StreamKey) (ins : List SizedInput)
    (hfits : StepsOk (SizedWorld.step sessionId writerId) (SizedWorld.Fits sessionId) { world := { streams } } ins) :
    (ins.foldl (SizedWorld.step sessionId writerId) { world := { streams } }).Agreed := by
  have hstart : Sized { world := { streams } } := by
    refine ⟨⟨nofun, fun pre x post heq => ?_⟩, fun _ => rfl, fun _ => rfl⟩
    exact absurd heq.symm (by simp)
  exact (foldl_inv (SizedWorld.step sessionId writerId) _ Sized (fun _ i h hok => sized_step h i hok) ins _ hstart hfits).agreed

def takenSample : SizedInput := .read { fmt := 0, csid := 6, remain := 200 } (replicate 200 0)

/-- **A connect takes the peer's size away**: a peer that never announced one goes on with 128. -/
theorem connect_loses_size : ¬ ∀ ins : List SizedInput, (ins.foldl (SizedWorld.step rtmpId (fun _ => [])) {}).Agreed := by
  intro hall
  have hagreed := hall [.event connectSample, takenSample]
  have htaken : ([.event connectSample, takenSample].foldl (SizedWorld.step rtmpId (fun _ => [])) {}).taken =
      [⟨{ fmt := 0, csid := 6, remain := 200 }, replicate 200 0, 4096, 128⟩] := by
    decide +kernel
  have hread := hagreed.incoming _ (htaken ▸ List.mem_singleton.2 rfl)
  revert hread
  decide +kernel

theorem chunk_sizes_agree_sample :
    let ins := [.event (.control ⟨2, 0, 1, 0, [0, 0, 16, 0]⟩), .event connectSample, takenSample,
      .event (commandSample "publish" (textItem "x"))]
    let w := ins.foldl (SizedWorld.step rtmpId (fun _ => [])) { world := { streams := fun key => { key } } }
    w.world.session.sent.length = 6 ∧ w.taken.length = 1 ∧ w.Agreed := by
  intro ins w
  exact ⟨by decide +kernel, by decide +kernel, chunk_sizes_agree rtmpId (fun _ => []) _ ins (by decide +kernel)⟩

end MoqLiveCast
