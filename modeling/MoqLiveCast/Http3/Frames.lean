import MoqLiveCast.Quic.Varint
/-!
# Frames — HTTP/3 frames and WebTransport headers at the front of a chunk (`http3_frame.c`, `webtransport_client_api.c`)

A reader sees one chunk only: what begins there has to end there.  A chunk fits an `int`.
-/
namespace MoqLiveCast

def H3_FRAME_DATA : Byte := 0x00
def H3_FRAME_HEADERS : Byte := 0x01
def H3_FRAME_SETTINGS : Byte := 0x04

def H3_STREAM_TYPE_CONTROL : Nat := 0x00
def H3_STREAM_TYPE_QPACK_DEC : Nat := 0x03
def H3_STREAM_TYPE_WEBTRANSPORT : Nat := 0x54

/-- A frame of the type `ty`: its payload, and how many bytes it takes. -/
def h3FrameParse (ty : Byte) : List Byte → Option (List Byte × Nat)
  | [] => none
  | b :: rest =>
    if b = ty then
      (quicVarintDecode rest).bind fun (vlen, v) =>
        if rest.length < v + vlen then none else some ((rest.drop v).take vlen, 1 + v + vlen)
    else none

def h3FrameParseData : List Byte → Option (List Byte × Nat) := h3FrameParse H3_FRAME_DATA

def h3FrameParseHeaders : List Byte → Option (List Byte × Nat) := h3FrameParse H3_FRAME_HEADERS

def h3FrameParseSettings : List Byte → Option (List Byte × Nat) := h3FrameParse H3_FRAME_SETTINGS

/-- The header of a WebTransport stream, its type and a session: how many bytes it takes. -/
def wtHeaderLen (data : List Byte) : Option Nat :=
  (quicVarintDecode data).bind fun (ftype, n) =>
    if 0x41 ≤ ftype ∧ ftype ≤ 0x5f then (quicVarintDecode (data.drop n)).map fun (_, m) => n + m else none

/-- What a stream carries behind its header; nothing before the header is there. -/
def wtPayload (data : List Byte) : List Byte := (wtHeaderLen data).elim [] data.drop

theorem quicVarintDecode_append {a : List Byte} {r : Nat × Nat} (h : quicVarintDecode a = some r) (b : List Byte) :
    quicVarintDecode (a ++ b) = some r := by
  obtain ⟨-, -, hle⟩ := quicVarintDecode_bounds h
  refine quicVarintDecode_same h (a ++ b) (List.take_append_of_le_length hle) ?_
  rw [List.length_append]
  omega

theorem wtHeaderLen_some {a : List Byte} {n : Nat} (h : wtHeaderLen a = some n) : ∃ ftype k s m, 0x41 ≤ ftype ∧ ftype ≤ 0x5f ∧
    quicVarintDecode a = some (ftype, k) ∧ quicVarintDecode (a.drop k) = some (s, m) ∧ n = k + m := by
  obtain ⟨⟨ftype, k⟩, hk, hr⟩ := Option.bind_eq_some_iff.1 h
  dsimp only at hr
  split at hr
  · rename_i htype
    obtain ⟨⟨s, m⟩, hm, heq⟩ := Option.map_eq_some_iff.1 hr
    exact ⟨ftype, k, s, m, htype.1, htype.2, hk, hm, heq.symm⟩
  · cases hr

theorem wtHeaderLen_le {a : List Byte} {n : Nat} (h : wtHeaderLen a = some n) : 2 ≤ n ∧ n ≤ a.length := by
  obtain ⟨ftype, k, s, m, -, -, hk, hm, rfl⟩ := wtHeaderLen_some h
  obtain ⟨hpos, -, -⟩ := quicVarintDecode_bounds hk
  obtain ⟨hpos', -, hle⟩ := quicVarintDecode_bounds hm
  rw [List.length_drop] at hle
  omega

theorem wtHeaderLen_append {a : List Byte} {n : Nat} (h : wtHeaderLen a = some n) (b : List Byte) :
    wtHeaderLen (a ++ b) = some n := by
  obtain ⟨ftype, k, s, m, hlow, hhigh, hk, hm, rfl⟩ := wtHeaderLen_some h
  obtain ⟨-, -, hle⟩ := quicVarintDecode_bounds hk
  unfold wtHeaderLen
  rw [quicVarintDecode_append hk]
  dsimp only [Option.bind]
  rw [if_pos ⟨hlow, hhigh⟩, List.drop_append_of_le_length hle, quicVarintDecode_append hm]
  rfl

theorem wtPayload_append {a : List Byte} {n : Nat} (h : wtHeaderLen a = some n) (b : List Byte) :
    wtPayload (a ++ b) = wtPayload a ++ b := by
  unfold wtPayload
  rw [wtHeaderLen_append h, h]
  exact List.drop_append_of_le_length (wtHeaderLen_le h).2

theorem strip_chunk {stripped : Bool} {arrived passed data : List Byte} {header : Option Nat}
    (hheader : header = if stripped then none else wtHeaderLen data)
    (hok : data = [] ∨ stripped = true ∨ (wtHeaderLen data).isSome)
    (h : passed = wtPayload arrived ∧ (stripped = true → (wtHeaderLen arrived).isSome) ∧ (stripped = false → arrived = [])) :
    passed ++ header.elim data data.drop = wtPayload (arrived ++ data) ∧
      ((stripped || header.isSome) = true → (wtHeaderLen (arrived ++ data)).isSome) ∧
      ((stripped || header.isSome) = false → arrived ++ data = []) := by
  obtain ⟨rfl, hyes, hno⟩ := h
  subst hheader
  cases stripped with
  | true =>
    obtain ⟨n, hn⟩ := Option.isSome_iff_exists.1 (hyes rfl)
    rw [wtPayload_append hn, wtHeaderLen_append hn]
    exact ⟨rfl, fun _ => rfl, fun hc => (nomatch hc)⟩
  | false =>
    rw [hno rfl, List.nil_append, Bool.false_or, if_neg Bool.false_ne_true]
    rcases hok with rfl | hst | hhead
    · exact ⟨rfl, fun hc => (nomatch hc), fun _ => rfl⟩
    · cases hst
    · obtain ⟨n, hn⟩ := Option.isSome_iff_exists.1 hhead
      rw [hn]
      refine ⟨?_, fun _ => rfl, fun hc => (nomatch hc)⟩
      unfold wtPayload
      rw [hn]
      rfl

theorem header_look {stripped : Bool} {data : List Byte} {least : Nat} (hleast : least ≤ 2) :
    (if stripped = false ∧ least ≤ data.length then wtHeaderLen data else none) = if stripped then none else wtHeaderLen data := by
  cases stripped with
  | true => simp
  | false =>
    by_cases hlen : least ≤ data.length
    · rw [if_pos ⟨rfl, hlen⟩, if_neg Bool.false_ne_true]
    · have hnone : wtHeaderLen data = none := by
        rw [Option.eq_none_iff_forall_ne_some]
        intro n hn
        have := wtHeaderLen_le hn
        omega
      rw [if_neg fun h => hlen h.2, if_neg Bool.false_ne_true, hnone]

end MoqLiveCast
