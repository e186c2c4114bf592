import MoqLiveCast.Lib.Run
import MoqLiveCast.Moq.LiteTracks
/-!
# LiteHeaders — whether a subscriber's frames have their decoder's configuration before them

A sequence header is due before a track's first frame, and the flag that says so is set whatever becomes of the header.
It is never taken back: not when the catalog brings another configuration, nor when another publisher took over, went,
and left the stream to be written on without a header (`frame_after_takeover`).
-/
namespace MoqLiveCast

open StreamKey

def RenditionKind.carried (kind : RenditionKind) (p : MediaPacket) : List Byte := p.body.drop kind.tagLen

/-- **The stream's header of the kind carries the configuration of the catalog.** -/
def WrittenFrame.Current (f : WrittenFrame) : Prop := f.header.map f.kind.carried = some f.config

instance (f : WrittenFrame) : Decidable f.Current := inferInstanceAs (Decidable (_ = _))

/-- A track's header when it was due: what it was made of, and whether the stream has lost it since. -/
structure HeaderMark where
  kind : RenditionKind
  config : List Byte
  lost : Bool := false
deriving DecidableEq

namespace HeaderMark

/-- The cache is cleared, or a header of the kind with another configuration comes. -/
def loses (m : HeaderMark) (k : StreamKey) : StreamOp → Bool
  | .packet p fails => k.clears (.packet p fails) || (isHeaderOf m.kind.mediaType p && m.kind.carried p ≠ m.config)
  | op => k.clears op

def after (m : HeaderMark) (k : StreamKey) (op : StreamOp) : HeaderMark := { m with lost := m.lost || m.loses k op }

def beside (m : HeaderMark) (ti : MoqLiteTrack) : HeaderMark :=
  { m with lost := m.lost || (m.kind = ti.kind && m.config ≠ ti.codecConfig) }

end HeaderMark

def HeaderCarries (k : StreamKey) (kind : RenditionKind) (config : List Byte) : Prop :=
  (k.seqHdr kind.mediaType).map kind.carried = some config

/-- The session, and what its tracks' headers were when they were due. -/
structure MarkedSubscriber where
  sub : LiteSubscriber
  marks : Name → Option HeaderMark := fun _ => none

def LiteSubscriber.admits (s : LiteSubscriber) (name : Name) (payload : List Byte) (now : Int) : Option MoqLiteTrack :=
  match OrdMap.find s.tracks name, containerFrame payload with
  | some ti, some _ => if ti.m3Usable && (s.ensureStreamClaimed now).2 then some ti else none
  | _, _ => none

namespace MarkedSubscriber

def due (w : MarkedSubscriber) (name : Name) (ti : MoqLiteTrack) : Name → Option HeaderMark := fun n =>
  if n = name then some { kind := ti.kind, config := ti.codecConfig } else (w.marks n).map (·.beside ti)

def mark (w : MarkedSubscriber) : LiteSubscriber.Event → Name → Option HeaderMark
  | .frame name _ payload now _ =>
    if name = kCatalogTrack then w.marks
    else
      match w.sub.admits name payload now with
      | some ti => if ti.seqHdrSent then w.marks else w.due name ti
      | none => w.marks
  | .other op => fun n => (w.marks n).map (·.after w.sub.stream op)
  | _ => w.marks

section

variable (parseJson : List Byte → Option Json) (writerId : Nat → Name)

def step (w : MarkedSubscriber) (ev : LiteSubscriber.Event) : Option MarkedSubscriber :=
  (w.sub.step parseJson writerId ev).map fun sub => ⟨sub, w.mark ev⟩

end

/-- **The condition on a frame that is written**: its header was made of what the track is now, and the stream has not lost it
since; or its header is due, and there is something to make it of. -/
def Meets (w : MarkedSubscriber) : LiteSubscriber.Event → Prop
  | .frame name _ payload now _ => name ≠ kCatalogTrack → ∀ ti ∈ w.sub.admits name payload now,
      (w.sub.ensureStreamClaimed now).1.isStreamOwner = true →
        if ti.seqHdrSent then w.marks name = some { kind := ti.kind, config := ti.codecConfig } else ti.codecConfig ≠ []
  | _ => True

instance (w : MarkedSubscriber) (ev : LiteSubscriber.Event) : Decidable (w.Meets ev) := by
  cases ev <;> unfold Meets <;> infer_instance

end MarkedSubscriber

/-! ## Headers in the stream -/

@[simp] theorem carried_packet (kind : RenditionKind) (tsMs : Int) (seq key : Bool) (data : List Byte) :
    kind.carried (kind.packet tsMs seq key data) = data := by
  cases kind <;> rfl

@[simp] theorem isHeaderOf_packet (kind kind' : RenditionKind) (tsMs : Int) (seq key : Bool) (data : List Byte) :
    isHeaderOf kind'.mediaType (kind.packet tsMs seq key data) = (seq && kind = kind') := by
  cases kind <;> cases kind' <;> cases seq <;> rfl

theorem kind_media (kind : RenditionKind) : kind.mediaType = .video ∨ kind.mediaType = .audio := by
  cases kind
  · exact .inl rfl
  · exact .inr rfl

def HasHeader (k : StreamKey) (owner : Name) (m : HeaderMark) : Prop :=
  k.isPublisherOwner owner = true → HeaderCarries k m.kind m.config

section

variable {writerId : Nat → Name} {k : StreamKey} {owner : Name} {m : HeaderMark}

theorem HasHeader.step (h : HasHeader k owner m) {op : StreamOp} (hkeep : m.loses k op = false) :
    HasHeader (k.step writerId op) owner m := by
  have hclears : k.clears op = false := by
    cases op <;> simp_all [HeaderMark.loses]
  intro hown
  rcases step_held writerId k op hclears with hnone | ⟨st, st', hst, hst', hheld⟩
  · simp [isPublisherOwner, hnone] at hown
  · have hpass : k.isPublisherOwner owner = true := by
      unfold isPublisherOwner at hown ⊢
      simp only [hst, hst', Bool.or_eq_true, decide_eq_true_eq] at hown ⊢
      rcases hheld.owner with hfree | hsame
      · exact .inl hfree
      · rwa [hsame] at hown
    have hcarries := h hpass
    unfold HeaderCarries seqHdr at hcarries ⊢
    simp only [hst, hst', Option.bind_some] at hcarries ⊢
    by_cases hop : ∃ p fails, op = .packet p fails
    · obtain ⟨p, fails, rfl⟩ := hop
      obtain ⟨dts, pts, hcache⟩ := hheld.packet p fails rfl
      rw [hcache, hdr_input (kind_media _), isHeaderOf_timed]
      by_cases hhdr : isHeaderOf m.kind.mediaType p = true
      · have hsame : m.kind.carried p = m.config := by
          simp only [HeaderMark.loses, hhdr, hclears, Bool.false_or, Bool.true_and, decide_eq_false_iff_not, ne_eq,
            not_not] at hkeep
          exact hkeep
        rw [if_pos hhdr]
        exact congrArg some hsame
      · rw [if_neg hhdr]
        exact hcarries
    · rw [hheld.cache fun p fails hp => hop ⟨p, fails, hp⟩]
      exact hcarries

theorem owner_of_packet {p : MediaPacket} {fails : Nat → MediaPacket → Bool} (h : k.isPublisherOwner owner = true) :
    (k.writerMediaPacket writerId fails p).isPublisherOwner owner = true := by
  obtain ⟨ws, hst, -⟩ := writerMediaPacket_spec writerId fails k p
  have hid : (fed k.published p).1.publisherId = k.published.publisherId := (fed_keeps k.published p).2.1
  unfold isPublisherOwner at h ⊢
  simp only [hst, hid]
  unfold published
  cases hk : k.stream with
  | none => simp [hk] at h
  | some st => simpa [hk] using h

theorem carries_of_packet {kind : RenditionKind} {tsMs : Int} {config : List Byte} {fails : Nat → MediaPacket → Bool} :
    HeaderCarries (k.writerMediaPacket writerId fails (kind.packet tsMs true true config)) kind config := by
  obtain ⟨ws, hst, -⟩ := writerMediaPacket_spec writerId fails k (kind.packet tsMs true true config)
  obtain ⟨dts, pts, hcache⟩ := fed_input k.published (kind.packet tsMs true true config)
  have hhdr : isHeaderOf kind.mediaType (kind.packet tsMs true true config) = true := by simp
  unfold HeaderCarries seqHdr
  rw [hst, Option.bind_some, hcache, hdr_input (kind_media _), isHeaderOf_timed, if_pos hhdr]
  exact congrArg some (carried_packet kind tsMs true true config)

end

/-! ## The session -/

namespace LiteSubscriber

def Holds (s : LiteSubscriber) (m : HeaderMark) : Prop :=
  s.keyKnown = true → s.ownerId ≠ [] → HasHeader s.stream s.ownerId m

/-- Neither closed nor claimed meanwhile, and the owner by the same name. -/
structure Stays (s s' : LiteSubscriber) : Prop where
  ownerId : s'.ownerId = s.ownerId
  keyKnown : s'.keyKnown = s.keyKnown
  dead : s'.dead = s.dead
  streamClaimed : s'.streamClaimed = s.streamClaimed

section

variable (writerId : Nat → Name) (fails : Nat → MediaPacket → Bool) {s s' : LiteSubscriber} {m : HeaderMark}

theorem Stays.refl (s : LiteSubscriber) : Stays s s := ⟨rfl, rfl, rfl, rfl⟩

theorem Stays.trans {s'' : LiteSubscriber} (h : Stays s s') (h' : Stays s' s'') : Stays s s'' :=
  ⟨h'.ownerId.trans h.ownerId, h'.keyKnown.trans h.keyKnown, h'.dead.trans h.dead, h'.streamClaimed.trans h.streamClaimed⟩

theorem isStreamOwner_iff (s : LiteSubscriber) :
    s.isStreamOwner = true ↔ s.keyKnown = true ∧ s.ownerId ≠ [] ∧ s.stream.isPublisherOwner s.ownerId = true := by
  simp [isStreamOwner, and_assoc]

theorem Holds.carries (h : s.Holds m) (hown : s.isStreamOwner = true) : HeaderCarries s.stream m.kind m.config := by
  obtain ⟨hknown, hid, hpass⟩ := (isStreamOwner_iff s).1 hown
  exact h hknown hid hpass

theorem Holds.of_stream (h : s.Holds m) (hs : Stays s s') (hstream : s'.stream = s.stream) : s'.Holds m := by
  unfold Holds
  rw [hs.ownerId, hs.keyKnown, hstream]
  exact h

theorem Holds.of_step (h : s.Holds m) (hs : Stays s s') {op : StreamOp} (hstream : s'.stream = s.stream.step writerId op)
    (hkeep : m.loses s.stream op = false) : s'.Holds m := by
  unfold Holds
  rw [hs.ownerId, hs.keyKnown, hstream]
  exact fun hknown hid => (h hknown hid).step hkeep

theorem deliver_stays (s : LiteSubscriber) (p : MediaPacket) : Stays s (s.deliver writerId fails p).1 := by
  unfold deliver
  split <;> exact ⟨rfl, rfl, rfl, rfl⟩

theorem deliver_written (s : LiteSubscriber) (p : MediaPacket) : (s.deliver writerId fails p).1.written = s.written := by
  unfold deliver
  split <;> rfl

theorem deliver_snd (s : LiteSubscriber) (p : MediaPacket) : (s.deliver writerId fails p).2 = s.isStreamOwner := by
  unfold deliver
  split
  · rename_i h
    exact h.symm
  · rename_i h
    exact (Bool.eq_false_iff.2 h).symm

theorem deliver_owner (s : LiteSubscriber) (p : MediaPacket) :
    (s.deliver writerId fails p).1.isStreamOwner = s.isStreamOwner := by
  unfold deliver
  split
  · rename_i h
    obtain ⟨hknown, hid, hpass⟩ := (isStreamOwner_iff s).1 h
    rw [h]
    exact (isStreamOwner_iff _).2 ⟨hknown, hid, owner_of_packet hpass⟩
  · rfl

theorem Holds.deliver (h : s.Holds m) {p : MediaPacket} (hp : isHeaderOf m.kind.mediaType p = true → m.kind.carried p = m.config) :
    (s.deliver writerId fails p).1.Holds m := by
  have hstays := deliver_stays writerId fails s p
  unfold LiteSubscriber.deliver at hstays ⊢
  split at hstays
  · rename_i hown
    rw [if_pos hown]
    obtain ⟨-, -, hpass⟩ := (isStreamOwner_iff s).1 hown
    have hstep : s.stream.writerMediaPacket writerId fails p = s.stream.step writerId (.packet p fails) := rfl
    refine h.of_step writerId hstays hstep ?_
    cases hst : s.stream.stream with
    | none => simp [isPublisherOwner, hst] at hpass
    | some st =>
      simp only [HeaderMark.loses, clears, hst, Option.isNone_some, Bool.false_or, Bool.and_eq_false_iff,
        decide_eq_false_iff_not, ne_eq, not_not]
      by_cases hhdr : isHeaderOf m.kind.mediaType p = true
      · exact .inr (hp hhdr)
      · exact .inl (Bool.eq_false_iff.2 hhdr)
  · rename_i hown
    rw [if_neg hown]
    exact h

theorem emitSeqHdr_stays (s : LiteSubscriber) (name : Name) (ti : MoqLiteTrack) (tsMs : Int) :
    Stays s (s.emitSeqHdr writerId fails name ti tsMs) := by
  unfold emitSeqHdr
  dsimp only
  split
  · exact ⟨rfl, rfl, rfl, rfl⟩
  · have hput : Stays s (s.putTrack name { ti with seqHdrSent := true }) := ⟨rfl, rfl, rfl, rfl⟩
    exact hput.trans (deliver_stays writerId fails _ _)

theorem emitSeqHdr_written (s : LiteSubscriber) (name : Name) (ti : MoqLiteTrack) (tsMs : Int) :
    (s.emitSeqHdr writerId fails name ti tsMs).written = s.written := by
  unfold emitSeqHdr
  dsimp only
  split
  · rfl
  · rw [deliver_written]
    rfl

theorem emitSeqHdr_owner (s : LiteSubscriber) (name : Name) (ti : MoqLiteTrack) (tsMs : Int) :
    (s.emitSeqHdr writerId fails name ti tsMs).isStreamOwner = s.isStreamOwner := by
  unfold emitSeqHdr
  dsimp only
  split
  · rfl
  · rw [deliver_owner]
    rfl

theorem Holds.emitSeqHdr (h : s.Holds m) (name : Name) (ti : MoqLiteTrack) (tsMs : Int)
    (hm : m.kind = ti.kind → m.config = ti.codecConfig) : (s.emitSeqHdr writerId fails name ti tsMs).Holds m := by
  have hput : (s.putTrack name { ti with seqHdrSent := true }).Holds m := h
  unfold LiteSubscriber.emitSeqHdr
  dsimp only
  split
  · exact hput
  · refine hput.deliver writerId fails fun hhdr => ?_
    have hkind : ti.kind = m.kind := by simpa using hhdr
    rw [← hkind, carried_packet]
    exact (hm hkind.symm).symm

theorem holds_emitSeqHdr (s : LiteSubscriber) (name : Name) (ti : MoqLiteTrack) (tsMs : Int) (hconfig : s.isStreamOwner = true →
    ti.codecConfig ≠ []) : (s.emitSeqHdr writerId fails name ti tsMs).Holds { kind := ti.kind, config := ti.codecConfig } := by
  intro hknown hid hpass
  have hown := emitSeqHdr_owner writerId fails s name ti tsMs
  rw [(isStreamOwner_iff _).2 ⟨hknown, hid, hpass⟩] at hown
  have hput : (s.putTrack name { ti with seqHdrSent := true }).isStreamOwner = true := hown.symm
  unfold LiteSubscriber.emitSeqHdr LiteSubscriber.deliver
  dsimp only
  rw [if_neg (hconfig hown.symm), if_pos hput]
  exact carries_of_packet

theorem emitFrame_stays (s : LiteSubscriber) (name : Name) (ti : MoqLiteTrack) (tsMs : Int) (key : Bool) (data : List Byte) :
    Stays s (s.emitFrame writerId fails name ti tsMs key data) := by
  have hstays := deliver_stays writerId fails s (ti.kind.packet tsMs false key data)
  unfold emitFrame
  split
  · rename_i hd
    rw [hd] at hstays
    exact hstays
  · rename_i hd
    rw [hd] at hstays
    exact hstays.trans ⟨rfl, rfl, rfl, rfl⟩

theorem Holds.emitFrame (h : s.Holds m) (name : Name) (ti : MoqLiteTrack) (tsMs : Int) (key : Bool) (data : List Byte) :
    (s.emitFrame writerId fails name ti tsMs key data).Holds m := by
  have hheld := h.deliver writerId fails (p := ti.kind.packet tsMs false key data) (by simp)
  unfold LiteSubscriber.emitFrame
  split
  · rename_i hd
    rw [hd] at hheld
    exact hheld
  · rename_i hd
    rw [hd] at hheld
    exact hheld

theorem emitFrame_written (s : LiteSubscriber) (name : Name) (ti : MoqLiteTrack) (tsMs : Int) (key : Bool) (data : List Byte) :
    (s.emitFrame writerId fails name ti tsMs key data).written =
      if s.isStreamOwner then s.written ++ [⟨ti.kind, ti.codecConfig, s.stream.seqHdr ti.kind.mediaType⟩] else s.written := by
  have hsnd := deliver_snd writerId fails s (ti.kind.packet tsMs false key data)
  have hwritten := deliver_written writerId fails s (ti.kind.packet tsMs false key data)
  unfold emitFrame
  split
  · rename_i hd
    rw [hd] at hsnd hwritten
    simp [← hsnd, ← hwritten]
  · rename_i hd
    rw [hd] at hsnd
    simp [← hsnd]

/-! ## Claims and catalogs -/

theorem pushCatalog_stays (s : LiteSubscriber) : Stays s s.pushCatalogToManager ∧ s.pushCatalogToManager.written = s.written := by
  unfold pushCatalogToManager
  split <;> exact ⟨⟨rfl, rfl, rfl, rfl⟩, rfl⟩

theorem Holds.pushCatalog (h : s.Holds m) : s.pushCatalogToManager.Holds m := by
  have hstays := (pushCatalog_stays s).1
  unfold pushCatalogToManager at hstays ⊢
  split at hstays
  · rename_i hskip
    rw [if_pos hskip]
    exact h
  · rename_i hskip
    rw [if_neg hskip]
    cases hst : s.stream.stream with
    | none =>
      have hsame : (s.stream.setCatalogJson s.ownerId s.catalogJsonRaw).1 = s.stream := by
        unfold setCatalogJson
        rw [hst]
      exact h.of_stream hstays hsame
    | some st =>
      have hstep : (s.stream.setCatalogJson s.ownerId s.catalogJsonRaw).1 =
          s.stream.step (fun _ => []) (.setCatalog s.ownerId s.catalogJsonRaw) := rfl
      refine h.of_step _ hstays hstep ?_
      simp [HeaderMark.loses, clears, hst]

theorem closeSession_spec (s : LiteSubscriber) (hdead : s.dead = true → s.streamClaimed = false) :
    s.closeSession.dead = true ∧ s.closeSession.streamClaimed = false ∧ s.closeSession.written = s.written := by
  unfold closeSession releaseStream
  cases hd : s.dead with
  | true => simp [hd, hdead hd]
  | false =>
    simp only [Bool.false_eq_true, if_false]
    split_ifs with hclaimed hknown
    · exact ⟨rfl, hclaimed, rfl⟩
    · exact ⟨rfl, rfl, rfl⟩
    · exact ⟨rfl, rfl, rfl⟩

theorem ensureStreamClaimed_true {now : Int} (h : (s.ensureStreamClaimed now).2 = true) : (s.ensureStreamClaimed now).1.written =
    s.written ∧ (s.ensureStreamClaimed now).1.dead = s.dead ∧ (s.ensureStreamClaimed now).1.streamClaimed = true ∧
    (s.streamClaimed = true ∧ (s.ensureStreamClaimed now).1 = s ∨ s.streamClaimed = false ∧ s.dead = false ∧
    (s.ensureStreamClaimed now).1.keyKnown = true) := by
  unfold ensureStreamClaimed at h ⊢
  split_ifs at h ⊢ with hclaimed hdead
  · exact ⟨rfl, rfl, hclaimed, .inl ⟨hclaimed, rfl⟩⟩
  · rw [not_or, Bool.not_eq_true, Bool.not_eq_false] at hdead
    split at h
    · cases h
    · rename_i stream claim hne heq
      obtain ⟨hstays, hwritten⟩ := pushCatalog_stays { s with streamClaimed := true, stream }
      exact ⟨hwritten, hstays.dead, hstays.streamClaimed,
        .inr ⟨Bool.eq_false_iff.2 hclaimed, hdead.1, hstays.keyKnown.trans hdead.2⟩⟩

theorem ensureStreamClaimed_false {now : Int} (h : (s.ensureStreamClaimed now).2 = false) : (s.ensureStreamClaimed now).1 = s ∨
    ((s.ensureStreamClaimed now).1.dead = true ∧ (s.ensureStreamClaimed now).1.streamClaimed = false ∧ (s.ensureStreamClaimed
    now).1.written = s.written) := by
  unfold ensureStreamClaimed at h ⊢
  split_ifs at h ⊢ with hclaimed hdead
  · exact .inl rfl
  · rw [not_or, Bool.not_eq_true] at hdead
    split at h
    · rename_i stream heq
      refine .inr (closeSession_spec _ fun hd => ?_)
      exact absurd (hdead.1.symm.trans hd) (by decide)
    · cases h

theorem onCatalogFrame_spec {parseJson : List Byte → Option Json} {payload : List Byte}
    (h : s.onCatalogFrame parseJson payload = some s') : Stays s s' ∧ s'.written = s.written ∧ ∀ m, s.Holds m → s'.Holds m := by
  unfold onCatalogFrame at h
  split at h
  · rename_i raw fields _
    obtain ⟨tracks, -, h⟩ := Option.bind_eq_some_iff.1 h
    obtain rfl := Option.some.inj h
    obtain ⟨hstays, hwritten⟩ := pushCatalog_stays { s with catalogJsonRaw := raw }
    refine ⟨⟨hstays.ownerId, hstays.keyKnown, hstays.dead, hstays.streamClaimed⟩, hwritten, fun m hm => ?_⟩
    have hraw : Holds { s with catalogJsonRaw := raw } m := hm
    exact hraw.pushCatalog
  · obtain rfl := Option.some.inj h
    exact ⟨.refl _, rfl, fun _ hm => hm⟩

theorem onMediaFrame_cases (s : LiteSubscriber) (name : Name) (keyPending : Bool) (payload : List Byte) (now : Int) :
    (s.admits name payload now = none ∧ (s.onMediaFrame writerId fails name keyPending payload now = s ∨
      ((s.ensureStreamClaimed now).2 = false ∧
        s.onMediaFrame writerId fails name keyPending payload now = (s.ensureStreamClaimed now).1))) ∨
    ∃ ti tsMs key data, s.admits name payload now = some ti ∧ (s.ensureStreamClaimed now).2 = true ∧
      s.onMediaFrame writerId fails name keyPending payload now = (if ti.seqHdrSent then (s.ensureStreamClaimed now).1
          else (s.ensureStreamClaimed now).1.emitSeqHdr writerId fails name ti tsMs).emitFrame writerId fails name
            { ti with seqHdrSent := true } tsMs key data := by
  unfold onMediaFrame admits
  cases htrack : OrdMap.find s.tracks name with
  | none => exact .inl ⟨rfl, .inl rfl⟩
  | some ti =>
    cases hframe : containerFrame payload with
    | none => exact .inl ⟨rfl, .inl rfl⟩
    | some frame =>
      cases husable : ti.m3Usable with
      | false => exact .inl ⟨by simp [husable], .inl (by simp [husable])⟩
      | true =>
        cases hclaim : (s.ensureStreamClaimed now).2 with
        | false =>
          refine .inl ⟨by simp [husable], .inr ⟨rfl, ?_⟩⟩
          have hpair : s.ensureStreamClaimed now = ((s.ensureStreamClaimed now).1, false) := by rw [← hclaim]
          rw [hpair]
          simp [husable]
        | true =>
          refine .inr ⟨ti, (frame.1 / kUsPerMs : Int), ti.kind = .video && keyPending, frame.2, by simp [husable], rfl, ?_⟩
          have hpair : s.ensureStreamClaimed now = ((s.ensureStreamClaimed now).1, true) := by rw [← hclaim]
          rw [hpair]
          simp [husable]

end

end LiteSubscriber

/-! ## Runs -/

/-- **A header that was due and is not lost is in the stream**, when the session comes to write; and every frame so far had its
own. -/
structure HeadersKept (w : MarkedSubscriber) : Prop where
  dead : w.sub.dead = true → w.sub.streamClaimed = false
  known : w.sub.streamClaimed = true → w.sub.keyKnown = true
  marked : ∀ name m, w.marks name = some m → w.sub.dead = true ∨ w.sub.streamClaimed = true
  held : ∀ name m, w.marks name = some m → m.lost = false → w.sub.dead = true ∨ w.sub.Holds m
  written : ∀ f ∈ w.sub.written, f.Current

section

variable {parseJson : List Byte → Option Json} {writerId : Nat → Name} {w w' : MarkedSubscriber}

theorem HeadersKept.of_stays (h : HeadersKept w) {s' : LiteSubscriber} (hs : LiteSubscriber.Stays w.sub s')
    (hwritten : s'.written = w.sub.written) (hholds : ∀ m, w.sub.Holds m → s'.Holds m) : HeadersKept ⟨s', w.marks⟩ where
  dead := fun hd => hs.streamClaimed.trans (h.dead (hs.dead.symm.trans hd))
  known := fun hc => hs.keyKnown.trans (h.known (hs.streamClaimed.symm.trans hc))
  marked := fun name m hm => by
    rw [hs.dead, hs.streamClaimed]
    exact h.marked name m hm
  held := fun name m hm hlost => by
    rw [hs.dead]
    exact (h.held name m hm hlost).imp_right (hholds m)
  written := by
    rw [hwritten]
    exact h.written

theorem HeadersKept.of_dead (h : HeadersKept w) {s' : LiteSubscriber} {marks : Name → Option HeaderMark} (hdead : s'.dead = true)
    (hclaimed : s'.streamClaimed = false) (hwritten : s'.written = w.sub.written) : HeadersKept ⟨s', marks⟩ := by
  refine ⟨fun _ => hclaimed, fun hc => ?_, fun _ _ _ => .inl hdead, fun _ _ _ _ => .inl hdead, ?_⟩
  · exact absurd (hclaimed.symm.trans hc) (by decide)
  · rw [hwritten]
    exact h.written

theorem HeadersKept.other (h : HeadersKept w) (op : StreamOp) :
    HeadersKept ⟨{ w.sub with stream := w.sub.stream.step writerId op }, fun n => (w.marks n).map (·.after w.sub.stream op)⟩ where
  dead := h.dead
  known := h.known
  marked := fun name m hm => by
    obtain ⟨m₀, hm₀, -⟩ := Option.map_eq_some_iff.1 hm
    exact h.marked name m₀ hm₀
  held := fun name m hm hlost => by
    obtain ⟨m₀, hm₀, rfl⟩ := Option.map_eq_some_iff.1 hm
    simp only [HeaderMark.after, Bool.or_eq_false_iff] at hlost
    refine (h.held name m₀ hm₀ hlost.1).imp_right fun hholds => ?_
    exact hholds.of_step writerId ⟨rfl, rfl, rfl, rfl⟩ rfl hlost.2
  written := h.written

theorem HeadersKept.emitted (h : HeadersKept w) {fails : Nat → MediaPacket → Bool} {s₁ : LiteSubscriber} {name : Name}
    {ti : MoqLiteTrack} {tsMs : Int} {key : Bool} {data : List Byte} {marks : Name → Option HeaderMark}
    (hdead : s₁.dead = false) (hknown : s₁.keyKnown = true) (hclaimed : s₁.streamClaimed = true) (hwritten : s₁.written = w.sub.written)
    (hmarks : ∀ n m, marks n = some m → m.lost = false → s₁.Holds m)
    (howner : s₁.isStreamOwner = true → s₁.Holds { kind := ti.kind, config := ti.codecConfig }) :
    HeadersKept ⟨s₁.emitFrame writerId fails name ti tsMs key data, marks⟩ := by
  have hstays := LiteSubscriber.emitFrame_stays writerId fails s₁ name ti tsMs key data
  refine ⟨fun hd => ?_, fun _ => hstays.keyKnown.trans hknown, fun _ _ _ => .inr (hstays.streamClaimed.trans hclaimed),
    fun n m hm hlost => .inr ?_, fun f hf => ?_⟩
  · rw [hstays.dead, hdead] at hd
    cases hd
  · exact (hmarks n m hm hlost).emitFrame writerId fails name ti tsMs key data
  · rw [LiteSubscriber.emitFrame_written, hwritten] at hf
    split at hf
    · rename_i hown
      rcases List.mem_append.1 hf with hf | hf
      · exact h.written f hf
      · obtain rfl := List.mem_singleton.1 hf
        exact (howner hown).carries hown
    · exact h.written f hf

theorem HeadersKept.frame (h : HeadersKept w) {name : Name} {keyPending : Bool} {payload : List Byte} {now : Int}
    {fails : Nat → MediaPacket → Bool} (hname : name ≠ kCatalogTrack) (hmeets : w.Meets (.frame name keyPending payload now
    fails)) : HeadersKept ⟨w.sub.onMediaFrame writerId fails name keyPending payload now, w.mark (.frame name keyPending payload
    now fails)⟩ := by
  have hmark : w.mark (.frame name keyPending payload now fails) =
      match w.sub.admits name payload now with
      | some ti => if ti.seqHdrSent then w.marks else w.due name ti
      | none => w.marks := by
    simp only [MarkedSubscriber.mark, if_neg hname]
  rw [hmark]
  rcases LiteSubscriber.onMediaFrame_cases writerId fails w.sub name keyPending payload now with
    ⟨hadmits, hsame | ⟨hclaim, hsame⟩⟩ | ⟨ti, tsMs, key, data, hadmits, hclaim, hsame⟩
  · rw [hadmits, hsame]
    exact h
  · rw [hadmits, hsame]
    rcases LiteSubscriber.ensureStreamClaimed_false hclaim with heq | ⟨hdead, hclaimed, hwritten⟩
    · rw [heq]
      exact h
    · exact h.of_dead hdead hclaimed hwritten
  · rw [hadmits, hsame]
    obtain ⟨hwritten, hdead, hclaimed, hbefore⟩ := LiteSubscriber.ensureStreamClaimed_true hclaim
    have halive : w.sub.dead = false := by
      rcases hbefore with ⟨hc, -⟩ | ⟨-, hd⟩
      · cases hd : w.sub.dead with
        | false => rfl
        | true => exact absurd ((h.dead hd).symm.trans hc) (by decide)
      · exact hd.1
    have hknown : (w.sub.ensureStreamClaimed now).1.keyKnown = true := by
      rcases hbefore with ⟨hc, heq⟩ | ⟨-, -, hk⟩
      · rw [heq]
        exact h.known hc
      · exact hk
    -- marks are only there when the claim is, and then nothing has moved yet
    have hmarks : ∀ n m, w.marks n = some m → m.lost = false → (w.sub.ensureStreamClaimed now).1.Holds m := by
      intro n m hm hlost
      have hold := (h.held n m hm hlost).resolve_left (by simp [halive])
      rcases hbefore with ⟨-, heq⟩ | ⟨hc, -⟩
      · rwa [heq]
      · rcases h.marked n m hm with hd | hc'
        · exact absurd (halive.symm.trans hd) (by decide)
        · exact absurd (hc.symm.trans hc') (by decide)
    have hcond := hmeets hname ti hadmits
    dsimp only
    by_cases hsent : ti.seqHdrSent = true
    · rw [if_pos hsent, if_pos hsent]
      refine h.emitted (hdead.trans halive) hknown hclaimed hwritten hmarks fun hown => ?_
      have hmarked := hcond hown
      rw [if_pos hsent] at hmarked
      exact hmarks name _ hmarked rfl
    · rw [if_neg hsent, if_neg hsent]
      have hstays := LiteSubscriber.emitSeqHdr_stays writerId fails (w.sub.ensureStreamClaimed now).1 name ti tsMs
      have hwritten' := LiteSubscriber.emitSeqHdr_written writerId fails (w.sub.ensureStreamClaimed now).1 name ti tsMs
      have howner : (w.sub.ensureStreamClaimed now).1.isStreamOwner = true → ti.codecConfig ≠ [] := by
        intro hown
        have hconfig := hcond hown
        rwa [if_neg hsent] at hconfig
      have hown := LiteSubscriber.holds_emitSeqHdr writerId fails (w.sub.ensureStreamClaimed now).1 name ti tsMs howner
      refine h.emitted (hstays.dead.trans (hdead.trans halive)) (hstays.keyKnown.trans hknown)
        (hstays.streamClaimed.trans hclaimed) (hwritten'.trans hwritten) (fun n m hm hlost => ?_) fun _ => hown
      unfold MarkedSubscriber.due at hm
      split at hm
      · obtain rfl := Option.some.inj hm
        exact hown
      · obtain ⟨m₀, hm₀, rfl⟩ := Option.map_eq_some_iff.1 hm
        simp only [HeaderMark.beside, Bool.or_eq_false_iff, Bool.and_eq_false_iff, decide_eq_false_iff_not, ne_eq,
          not_not] at hlost
        have hbeside : (w.sub.ensureStreamClaimed now).1.Holds (m₀.beside ti) := hmarks n m₀ hm₀ hlost.1
        exact hbeside.emitSeqHdr writerId fails name ti tsMs fun hkind => hlost.2.resolve_left fun hne => hne hkind

theorem headersKept_step {ev : LiteSubscriber.Event} (h : HeadersKept w) (hmeets : w.Meets ev)
    (hstep : w.step parseJson writerId ev = some w') : HeadersKept w' := by
  obtain ⟨s', hs', rfl⟩ := Option.map_eq_some_iff.1 hstep
  cases ev with
  | broadcast =>
    obtain rfl := Option.some.inj hs'
    refine ⟨h.dead, fun _ => rfl, h.marked, fun name m hm hlost => ?_, h.written⟩
    rcases h.marked name m hm with hdead | hclaimed
    · exact .inl hdead
    · exact (h.held name m hm hlost).imp_right fun hholds _ hid => hholds (h.known hclaimed) hid
  | frame name keyPending payload now fails =>
    by_cases hname : name = kCatalogTrack
    · simp only [LiteSubscriber.step, if_pos hname] at hs'
      obtain ⟨hstays, hwritten, hholds⟩ := LiteSubscriber.onCatalogFrame_spec hs'
      have hmark : w.mark (.frame name keyPending payload now fails) = w.marks := by
        simp only [MarkedSubscriber.mark, if_pos hname]
      rw [hmark]
      exact h.of_stays hstays hwritten hholds
    · simp only [LiteSubscriber.step, if_neg hname] at hs'
      obtain rfl := Option.some.inj hs'
      exact h.frame hname hmeets
  | close =>
    obtain rfl := Option.some.inj hs'
    obtain ⟨hdead, hclaimed, hwritten⟩ := LiteSubscriber.closeSession_spec w.sub h.dead
    exact h.of_dead hdead hclaimed hwritten
  | other op =>
    obtain rfl := Option.some.inj hs'
    exact h.other op

end

theorem run_marked {parseJson : List Byte → Option Json} {writerId : Nat → Name} : ∀ (evs : List LiteSubscriber.Event)
    (w : MarkedSubscriber) (s' : LiteSubscriber), w.sub.run parseJson writerId evs = some s' →
      ∃ marks, evs.foldlM (MarkedSubscriber.step parseJson writerId) w = some ⟨s', marks⟩
  | [], w, s', hrun => ⟨w.marks, by rw [← Option.some.inj hrun]; rfl⟩
  | ev :: evs, w, s', hrun => by
    obtain ⟨s₁, hs₁, hrun⟩ := (foldlM_cons_some _).1 hrun
    obtain ⟨marks, hmarks⟩ := run_marked evs ⟨s₁, w.mark ev⟩ s' hrun
    refine ⟨marks, (foldlM_cons_some _).2 ⟨⟨s₁, w.mark ev⟩, ?_, hmarks⟩⟩
    unfold MarkedSubscriber.step
    rw [hs₁]
    rfl

/-- **Every frame has the configuration of the catalog before it**, in a run of a new session that writes frames only of tracks
whose header is still there. -/
theorem headers_current (parseJson : List Byte → Option Json) (writerId : Nat → Name) (ownerId : Name) (key : StreamKey)
    (evs : List LiteSubscriber.Event)
    (hmeets : StepsOkM (MarkedSubscriber.step parseJson writerId) MarkedSubscriber.Meets ⟨{ ownerId, stream := key }, fun _ => none⟩ evs)
    (s' : LiteSubscriber) (hrun : LiteSubscriber.run parseJson writerId { ownerId, stream := key } evs = some s') :
    ∀ f ∈ s'.written, f.Current := by
  obtain ⟨marks, hmarks⟩ := run_marked evs ⟨{ ownerId, stream := key }, fun _ => none⟩ s' hrun
  have hinit : HeadersKept ⟨{ ownerId, stream := key }, fun _ => none⟩ :=
    ⟨fun _ => rfl, (by simp), (by simp), (by simp), (by simp)⟩
  exact (foldlM_inv _ _ HeadersKept (fun _ _ _ h hm hs => headersKept_step h hm hs) evs _ _ hinit hmeets hmarks).written

/-! ## A stream that comes back without its header -/

def catalogSample : List Byte :=
  "\x7b\"video\":\x7b\"renditions\":\x7b\"v\":\x7b\"codec\":\"avc1.64001f\",\"description\":\"014d\"\x7d\x7d\x7d\x7d".toList.map
    fun c => BitVec.ofNat 8 c.toNat

def parseSample (text : List Byte) : Option Json :=
  if text = catalogSample then
    some (.object [("video".toList, .object [("renditions".toList, .object [("v".toList,
      .object [("codec".toList, .string "avc1.64001f".toList), ("description".toList, .string "014d".toList)])])])])
  else none

def noneFails : Nat → MediaPacket → Bool := fun _ _ => false

def frameSample (us : Byte) : LiteSubscriber.Event := .frame "v".toList true [us, 0x65] 0 noneFails

def startSample : List LiteSubscriber.Event :=
  [.broadcast, .frame kCatalogTrack true catalogSample 0 noneFails, frameSample 1]

def takeoverSample : List LiteSubscriber.Event :=
  [.other (.addPlayer 1 noneFails), .other (.claim "b".toList 1), .other (.release "b".toList)]

def subscriberSample : LiteSubscriber := { ownerId := "a".toList, stream := { key := "live/s".toList } }

theorem written_sample : (subscriberSample.run parseSample (fun _ => []) (startSample ++ takeoverSample ++ [frameSample 2])).map
    (·.written) = some [⟨.video, [0x01, 0x4d], some (makeFlvVideoPacket 0 true true [0x01, 0x4d])⟩,
      ⟨.video, [0x01, 0x4d], none⟩] := by decide +kernel

/-- **A frame without its header**: the flag is still set when the stream comes back. -/
theorem frame_after_takeover :
    ¬ ∀ s', subscriberSample.run parseSample (fun _ => []) (startSample ++ takeoverSample ++ [frameSample 2]) = some s' →
      ∀ f ∈ s'.written, f.Current := by
  intro hall
  obtain ⟨s', hs', hwritten⟩ := Option.map_eq_some_iff.1 written_sample
  have hcurrent := hall s' hs' ⟨.video, [0x01, 0x4d], none⟩ (by simp [hwritten])
  exact absurd hcurrent (by decide)

theorem headers_current_sample : ∃ s', subscriberSample.run parseSample (fun _ => []) (startSample ++ [frameSample 2]) = some s' ∧
    s'.written.length = 2 ∧ ∀ f ∈ s'.written, f.Current := by
  have hrun : (subscriberSample.run parseSample (fun _ => []) (startSample ++ [frameSample 2])).map (·.written.length) = some 2 := by
    decide +kernel
  obtain ⟨s', hs', hlen⟩ := Option.map_eq_some_iff.1 hrun
  exact ⟨s', hs', hlen, headers_current parseSample (fun _ => []) _ _ _ (by decide +kernel) s' hs'⟩

end MoqLiveCast
