import MoqLiveCast.Http3.Server
/-!
# ServerRequests — when a request is handed over

Every chunk of a request stream is taken for a whole request, or for nothing: no chunk is kept for the next.
-/
namespace MoqLiveCast

open List

def requestsOf (c : QuicPeer) (sid : Nat) (log : List H3Event) : List (List Byte × List Byte) :=
  log.filterMap fun
    | .onReq c' sid' headers body => if c' = c ∧ sid' = sid then some (headers, body) else none
    | _ => none

namespace H3Server

/-- The connection has no session, or the stream is the first one: a chunk of it is looked at as a request. -/
def TakesRequests (s : H3Server) (c : QuicPeer) (sid : Nat) : Prop := s.registryFind c = none ∨ sid = 0

instance (s : H3Server) (c : QuicPeer) (sid : Nat) : Decidable (s.TakesRequests c sid) := inferInstanceAs (Decidable (_ ∨ _))

def requestChunk (c : QuicPeer) (sid : Nat) (s : H3Server) : H3Input → List (List Byte)
  | .streamData c' sid' data _ => if c' = c ∧ sid' = sid ∧ s.TakesRequests c sid then [data] else []
  | _ => []

def requestChunks (c : QuicPeer) (sid : Nat) : H3Server → List H3Input → List (List Byte)
  | _, [] => []
  | s, i :: is => requestChunk c sid s i ++ requestChunks c sid (s.step i) is

/-- The bytes behind a HEADERS frame in its chunk are taken for this body: nothing, a whole DATA frame, or bytes that begin with
none. -/
def BodyAt (rest body : List Byte) : Prop :=
  (rest = [] ∧ body = []) ∨ (∃ n, h3FrameParseData rest = some (body, n)) ∨
    (rest ≠ [] ∧ h3FrameParseData rest = none ∧ rest = body)

/-- **The condition**: exactly one of the chunks begins with a whole HEADERS frame, it has the header block, and behind it the body
is whole. -/
def SeenOnce (block body : List Byte) (chunks : List (List Byte)) : Prop :=
  ∃ before chunk after n, chunks = before ++ chunk :: after ∧ (∀ x ∈ before ++ after, h3FrameParseHeaders x = none) ∧
    h3FrameParseHeaders chunk = some (block, n) ∧ BodyAt (chunk.drop n) body

/-! ## What a step hands over -/

@[simp] theorem requestsOf_append (c : QuicPeer) (sid : Nat) (log more : List H3Event) :
    requestsOf c sid (log ++ more) = requestsOf c sid log ++ requestsOf c sid more := filterMap_append

section

variable (s : H3Server) (c : QuicPeer) (sid : Nat)

@[simp] theorem addConn_log (c' : QuicPeer) : (s.addConn c').log = s.log := by
  unfold addConn
  split <;> rfl

@[simp] theorem removeConn_log (c' : QuicPeer) : (s.removeConn c').log = s.log := by
  unfold removeConn
  split <;> rfl

@[simp] theorem registryRemove_log (c' : QuicPeer) : (s.registryRemove c').log = s.log := by
  unfold registryRemove
  split <;> rfl

@[simp] theorem registryAdd_log (c' : QuicPeer) (id : Nat) : (s.registryAdd c' id).log = s.log := by
  unfold registryAdd
  split <;> rfl

@[simp] theorem rememberWtUni_log (c' : QuicPeer) (k : Nat) : (s.rememberWtUni c' k).log = s.log := by
  unfold rememberWtUni
  split
  · rfl
  · split
    · rfl
    · split <;> rfl

@[simp] theorem forgetWtUni_log (c' : QuicPeer) (k : Nat) : (s.forgetWtUni c' k).log = s.log := by
  unfold forgetWtUni
  split
  · rfl
  · split <;> rfl

theorem deliver_requests (id k : Nat) (payload : List Byte) :
    requestsOf c sid (s.deliver id k payload).log = requestsOf c sid s.log := by
  unfold deliver
  split
  · rfl
  · exact (requestsOf_append _ _ _ _).trans (append_nil _)

theorem wtStreamData_requests (id : Nat) (c' : QuicPeer) (k : Nat) (isUni : Bool) (data : List Byte) :
    requestsOf c sid (s.wtStreamData id c' k isUni data).log = requestsOf c sid s.log := by
  have hnote : requestsOf c sid (s.note (.wtChunk id c' k data)).log = requestsOf c sid s.log :=
    (requestsOf_append _ _ _ _).trans (append_nil _)
  unfold wtStreamData onInternalWtStream
  split
  · exact hnote
  · dsimp only
    split <;> exact (deliver_requests _ _ _ _ _ _).trans hnote

theorem onUniData_requests (id : Nat) (c' : QuicPeer) (k : Nat) (data : List Byte) (fin : Bool) :
    requestsOf c sid (s.onUniData id c' k data fin).log = requestsOf c sid s.log := by
  unfold onUniData
  dsimp only
  split
  · have hsame : ∀ t : H3Server, requestsOf c sid t.log = requestsOf c sid s.log →
        requestsOf c sid (if fin = true then (t.wtStreamData id c' k true data).forgetWtUni c' k
          else t.wtStreamData id c' k true data).log = requestsOf c sid s.log := by
      intro t ht
      split
      · rw [forgetWtUni_log, wtStreamData_requests, ht]
      · rw [wtStreamData_requests, ht]
    apply hsame
    split
    · rfl
    · rw [rememberWtUni_log]
  · rfl

theorem onServerRequest_requests (c' : QuicPeer) (k : Nat) (headers body : List Byte) :
    requestsOf c sid (s.onServerRequest c' k headers body).log =
      requestsOf c sid s.log ++ if c' = c ∧ k = sid then [(headers, body)] else [] := by
  have hnote : requestsOf c sid (s.note (.onReq c' k headers body)).log =
      requestsOf c sid s.log ++ if c' = c ∧ k = sid then [(headers, body)] else [] := by
    refine (requestsOf_append _ _ _ _).trans (congrArg _ ?_)
    by_cases h : c' = c ∧ k = sid <;> simp [requestsOf, h]
  unfold onServerRequest
  dsimp only
  split
  · refine (requestsOf_append _ _ _ _).trans ?_
    rw [registryAdd_log]
    exact (append_nil _).trans hnote
  · exact hnote

theorem request_requests (c' : QuicPeer) (k : Nat) (data : List Byte) :
    requestsOf c sid ((requestOf data).elim s fun r => s.onServerRequest c' k r.1 r.2).log =
      requestsOf c sid s.log ++ if c' = c ∧ k = sid then (requestOf data).toList else [] := by
  cases hr : requestOf data with
  | none => simp
  | some r => exact onServerRequest_requests s c sid c' k r.1 r.2

end

theorem onStreamData_requests (s : H3Server) (c c' : QuicPeer) (n k : Nat) (data : List Byte) (fin : Bool) :
    requestsOf c (4 * n) (s.onStreamData c' k data fin).log = requestsOf c (4 * n) s.log ++
      if c' = c ∧ k = 4 * n ∧ s.TakesRequests c (4 * n) then (requestOf data).toList else [] := by
  have hnote : requestsOf c (4 * n) (s.note (.arrived c' k data)).log = requestsOf c (4 * n) s.log :=
    (requestsOf_append _ _ _ _).trans (append_nil _)
  have hfind : (s.note (.arrived c' k data)).registryFind c' = s.registryFind c' := rfl
  unfold onStreamData
  dsimp only
  rw [hfind]
  cases hwt : s.registryFind c' with
  | none =>
    dsimp only
    split
    · rename_i huni
      rw [hnote, if_neg (by omega), append_nil]
    · rw [request_requests, hnote]
      by_cases hc : c' = c ∧ k = 4 * n
      · rw [if_pos hc, if_pos ⟨hc.1, hc.2, .inl (hc.1 ▸ hwt)⟩]
      · rw [if_neg hc, if_neg fun h => hc ⟨h.1, h.2.1⟩]
  | some id =>
    dsimp only
    split
    · rename_i hbidi
      rw [wtStreamData_requests, hnote, if_neg, append_nil]
      rintro ⟨rfl, rfl, hnone | hzero⟩
      · rw [hwt] at hnone
        cases hnone
      · omega
    · split
      · rename_i huni
        rw [onUniData_requests, hnote, if_neg (by omega), append_nil]
      · rw [request_requests, hnote]
        by_cases hc : c' = c ∧ k = 4 * n
        · rw [if_pos hc, if_pos ⟨hc.1, hc.2, .inr (by omega)⟩]
        · rw [if_neg hc, if_neg fun h => hc ⟨h.1, h.2.1⟩]

theorem onClose_requests (s : H3Server) (c c' : QuicPeer) (sid : Nat) :
    requestsOf c sid (s.onClose c').log = requestsOf c sid s.log := by
  have hnote : requestsOf c sid (s.note (.closing c')).log = requestsOf c sid s.log :=
    (requestsOf_append _ _ _ _).trans (append_nil _)
  unfold onClose
  dsimp only
  rw [removeConn_log, registryRemove_log]
  cases (s.note (.closing c')).registryFind c' with
  | none => exact hnote
  | some id => exact (requestsOf_append _ _ _ _).trans ((append_nil _).trans hnote)

theorem requests_run (c : QuicPeer) (n : Nat) : ∀ (is : List H3Input) (s : H3Server), requestsOf c (4 * n) (is.foldl step s).log =
      requestsOf c (4 * n) s.log ++ (requestChunks c (4 * n) s is).filterMap requestOf
  | [], s => (append_nil _).symm
  | i :: is, s => by
    rw [foldl_cons, requests_run c n is, requestChunks, filterMap_append, ← append_assoc]
    congr 1
    cases i with
    | connection c' =>
      rw [step, addConn_log]
      exact requestsOf_append _ _ _ _
    | otherAlpn c' =>
      rw [step, removeConn_log]
      exact requestsOf_append _ _ _ _
    | close c' => exact (onClose_requests s c c' (4 * n)).trans (append_nil _).symm
    | streamData c' k data fin =>
      refine (onStreamData_requests s c c' n k data fin).trans (congrArg _ ?_)
      rw [requestChunk]
      by_cases hlook : c' = c ∧ k = 4 * n ∧ s.TakesRequests c (4 * n)
      · rw [if_pos hlook, if_pos hlook]
        cases hr : requestOf data <;> simp [hr]
      · rw [if_neg hlook, if_neg hlook]
        rfl

/-! ## One request -/

theorem filterMap_eq_singleton {α β : Type} {f : α → Option β} {b : β} : ∀ {l : List α}, l.filterMap f = [b] ↔
    ∃ before a after, l = before ++ a :: after ∧ (∀ x ∈ before ++ after, f x = none) ∧ f a = some b
  | [] => by simp
  | x :: l => by
    constructor
    · intro h
      cases hx : f x with
      | none =>
        rw [filterMap_cons_none hx] at h
        obtain ⟨before, a, after, rfl, hothers, ha⟩ := filterMap_eq_singleton.1 h
        refine ⟨x :: before, a, after, rfl, fun y hy => ?_, ha⟩
        rcases List.mem_cons.1 hy with rfl | hy
        · exact hx
        · exact hothers y hy
      | some y =>
        rw [filterMap_cons_some hx, List.cons.injEq] at h
        refine ⟨[], x, l, rfl, List.filterMap_eq_nil_iff.1 h.2, ?_⟩
        rw [hx, h.1]
    · rintro ⟨before, a, after, heq, hothers, ha⟩
      rw [heq, filterMap_append, filterMap_cons_some ha, List.filterMap_eq_nil_iff.2 fun y hy => hothers y (mem_append_left _ hy),
        List.filterMap_eq_nil_iff.2 fun y hy => hothers y (mem_append_right _ hy)]
      rfl

theorem requestOf_none_iff (chunk : List Byte) : requestOf chunk = none ↔ h3FrameParseHeaders chunk = none :=
  Option.map_eq_none_iff

theorem requestOf_some_iff (chunk block body : List Byte) : requestOf chunk = some (block, body) ↔
    ∃ n, h3FrameParseHeaders chunk = some (block, n) ∧ BodyAt (chunk.drop n) body := by
  have hbody : ∀ rest : List Byte, (h3FrameParseData rest).elim rest Prod.fst = body ↔ BodyAt rest body := by
    intro rest
    unfold BodyAt
    cases hd : h3FrameParseData rest with
    | some r =>
      have hne : rest ≠ [] := by
        rintro rfl
        cases hd
      simp [hne, Prod.ext_iff]
    | none =>
      by_cases hne : rest = []
      · simp [hne, eq_comm]
      · simp [hne]
  unfold requestOf
  rw [Option.map_eq_some_iff]
  constructor
  · rintro ⟨⟨headers, n⟩, hparse, heq⟩
    simp only [Prod.mk.injEq] at heq
    exact ⟨n, heq.1 ▸ hparse, (hbody _).1 heq.2⟩
  · rintro ⟨n, hparse, hat⟩
    exact ⟨(block, n), hparse, congrArg _ ((hbody _).2 hat)⟩

/-- **A request is handed over once, and whole, exactly when one chunk has all of it** and no other looks like one: for every client
stream, in every run. -/
theorem request_once_iff (c : QuicPeer) (n : Nat) (block body : List Byte) (is : List H3Input) :
    requestsOf c (4 * n) (is.foldl step {}).log = [(block, body)] ↔ SeenOnce block body (requestChunks c (4 * n) {} is) := by
  rw [requests_run, requestsOf, filterMap_nil, nil_append, filterMap_eq_singleton]
  unfold SeenOnce
  simp only [requestOf_none_iff, requestOf_some_iff]
  constructor
  · rintro ⟨before, chunk, after, hsplit, hothers, k, hparse, hat⟩
    exact ⟨before, chunk, after, k, hsplit, hothers, hparse, hat⟩
  · rintro ⟨before, chunk, after, k, hsplit, hothers, hparse, hat⟩
    exact ⟨before, chunk, after, hsplit, hothers, k, hparse, hat⟩

def IsFrame (ty : Nat) (payload bytes : List Byte) : Prop :=
  ∃ tb lb, quicVarintDecode tb = some (ty, tb.length) ∧ quicVarintDecode lb = some (payload.length, lb.length) ∧
    bytes = tb ++ lb ++ payload

def CarriesRequest (block : List Byte) (bodies : List (List Byte)) (bytes : List Byte) : Prop :=
  ∃ headers frames, IsFrame 1 block headers ∧ Forall₂ (IsFrame 0) bodies frames ∧ bytes = headers ++ frames.flatten

def arrivedBytes (c : QuicPeer) (sid : Nat) (is : List H3Input) : List Byte :=
  is.flatMap fun
    | .streamData c' sid' data _ => if c' = c ∧ sid' = sid then data else []
    | _ => []

/-- A POST with the body `[7, 8]` in two DATA frames, all in one chunk. -/
def twoFrames : List H3Input :=
  [.connection ⟨0, 0⟩, .streamData ⟨0, 0⟩ 0 [0x01, 0x02, 0x00, 0x00, 0x00, 0x01, 0x07, 0x00, 0x01, 0x08] true]

/-- **Of two DATA frames the second is lost.** -/
theorem second_frame_lost : ¬∀ (c : QuicPeer) (n : Nat) (block : List Byte) (bodies : List (List Byte))
    (is : List H3Input), CarriesRequest block bodies (arrivedBytes c (4 * n) is) → requestsOf c (4 * n) (is.foldl step {}).log =
    [(block, bodies.flatten)] := by
  intro hall
  have hcarries : CarriesRequest [0x00, 0x00] [[0x07], [0x08]] (arrivedBytes ⟨0, 0⟩ (4 * 0) twoFrames) :=
    ⟨[0x01, 0x02, 0x00, 0x00], [[0x00, 0x01, 0x07], [0x00, 0x01, 0x08]], ⟨[0x01], [0x02], rfl, rfl, rfl⟩,
      .cons ⟨[0x00], [0x01], rfl, rfl, rfl⟩ (.cons ⟨[0x00], [0x01], rfl, rfl, rfl⟩ .nil), rfl⟩
  have hone := hall ⟨0, 0⟩ 0 [0x00, 0x00] [[0x07], [0x08]] twoFrames hcarries
  revert hone
  decide +kernel

end H3Server
end MoqLiveCast
