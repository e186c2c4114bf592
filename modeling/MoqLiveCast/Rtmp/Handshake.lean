import MoqLiveCast.Rtmp.ChunkStream
/-!
# Handshake — the digests of C1 and S1 (`net/rtmp/rtmp_handshake.cpp`)

HMAC-SHA256 and the Diffie-Hellman step are any functions, and `rand()` is any sequence of numbers.
-/
namespace MoqLiveCast

open List

def RTMP_HANDSHAKE_VERSION : Byte := 0x03
def RTMP_SIMPLE_HANDSHAKE : Int := 2

def GENUINE_FLASH_PLAYER_KEY : List Byte :=
  [0x47, 0x65, 0x6E, 0x75, 0x69, 0x6E, 0x65, 0x20, 0x41, 0x64, 0x6F, 0x62, 0x65, 0x20, 0x46, 0x6C,
   0x61, 0x73, 0x68, 0x20, 0x50, 0x6C, 0x61, 0x79, 0x65, 0x72, 0x20, 0x30, 0x30, 0x31,
   0xF0, 0xEE, 0xC2, 0x4A, 0x80, 0x68, 0xBE, 0xE8, 0x2E, 0x00, 0xD0, 0xD1, 0x02, 0x9E, 0x7E, 0x57,
   0x6E, 0xEC, 0x5D, 0x2D, 0x29, 0x80, 0x6F, 0xAB, 0x93, 0xB8, 0xE6, 0x36, 0xCF, 0xEB, 0x31, 0xAE]

abbrev HmacDigest := { d : List Byte // d.length = 32 }

abbrev HmacSha256 := List Byte → List Byte → HmacDigest

abbrev DhKey := { k : List Byte // k.length = 128 }

/-- `DHGenKey`: the shared key of a peer's, or an error. -/
abbrev DhGenKey := List Byte → Option DhKey

def read4Bytes (data : List Byte) : BitVec 32 := BitVec.ofNat 32 (readNBytes (data.take 4))

def write4Bytes (v : BitVec 32) : List Byte := beBytes 4 v.toNat

def byteSum (offset : BitVec 32) : Nat := ((write4Bytes offset).map BitVec.toNat).sum

def calcValidDigestOffset (offset : BitVec 32) : Nat := byteSum offset % (764 - 32 - 4)

def calcValidKeyOffset (offset : BitVec 32) : Nat := byteSum offset % (764 - 128 - 4)

/-! ## The two parts -/

structure DigestPart where
  offset : BitVec 32 := 0
  random0 : List Byte := []
  data : List Byte := []
  random1 : List Byte := []

structure KeyPart where
  random0 : List Byte := []
  data : List Byte := []
  random1 : List Byte := []
  offset : BitVec 32 := 0

def parseKey (data : List Byte) : KeyPart :=
  let offset := read4Bytes (data.drop (764 - 4))
  let realOffset := calcValidKeyOffset offset
  { random0 := data.take realOffset
    data := (data.drop realOffset).take 128
    random1 := (data.drop (realOffset + 128)).take (764 - realOffset - 128 - 4)
    offset }

def parseDigest (data : List Byte) : DigestPart :=
  let offset := read4Bytes data
  let realOffset := calcValidDigestOffset offset
  { offset
    random0 := (data.drop 4).take realOffset
    data := (data.drop (4 + realOffset)).take 32
    random1 := (data.drop (4 + realOffset + 32)).take (764 - 4 - realOffset - 32) }

def KeyPart.bytes (k : KeyPart) (data : List Byte) : List Byte := k.random0 ++ data ++ k.random1 ++ write4Bytes k.offset

def DigestPart.bytes (d : DigestPart) (data : List Byte) : List Byte := write4Bytes d.offset ++ d.random0 ++ data ++ d.random1

/-! ## The server -/

inductive HandshakeSchema where
  | SCHEMA_INIT
  | SCHEMA0
  | SCHEMA1
deriving DecidableEq

structure C1S1Handle where
  schema : HandshakeSchema := .SCHEMA_INIT
  c1Data : List Byte
  c1Time : BitVec 32
  c1Version : BitVec 32
  key : KeyPart := {}
  digest : DigestPart := {}

namespace C1S1Handle

def trySchema0 (h : C1S1Handle) (data : List Byte) : C1S1Handle :=
  { h with key := parseKey (data.take 764), digest := parseDigest (data.drop 764) }

def trySchema1 (h : C1S1Handle) (data : List Byte) : C1S1Handle :=
  { h with digest := parseDigest (data.take 764), key := parseKey (data.drop 764) }

def withoutDigest (data : List Byte) (firstPartLen : Nat) : List Byte := data.take firstPartLen ++ data.drop (firstPartLen + 32)

def checkDigestValid (hmac : HmacSha256) (h : C1S1Handle) (schema : HandshakeSchema) : Bool :=
  match schema with
  | .SCHEMA0 =>
    decide (h.digest.data = hmac (GENUINE_FLASH_PLAYER_KEY.take 30) (withoutDigest h.c1Data (8 + 764 + 4 + h.digest.random0.length)))
  | .SCHEMA1 =>
    decide (h.digest.data = hmac (GENUINE_FLASH_PLAYER_KEY.take 30) (withoutDigest h.c1Data (8 + 4 + h.digest.random0.length)))
  | .SCHEMA_INIT => false

end C1S1Handle

def parseC1 (hmac : HmacSha256) (c1 : List Byte) : Int × C1S1Handle :=
  let h : C1S1Handle := { c1Data := c1, c1Time := read4Bytes c1, c1Version := read4Bytes (c1.drop 4) }
  let h := h.trySchema1 (c1.drop 8)
  if h.checkDigestValid hmac .SCHEMA1 then (0, { h with schema := .SCHEMA1 })
  else
    let h := h.trySchema0 (c1.drop 8)
    if h.checkDigestValid hmac .SCHEMA0 then (0, { h with schema := .SCHEMA0 })
    else (RTMP_SIMPLE_HANDSHAKE, { h with schema := .SCHEMA0 })

def s1Version : BitVec 32 := 0x01000504

/-- `MakeS1Digest`: the key part with the key of C1, and the digest part behind it. -/
def makeS1Digest (hmac : HmacSha256) (h : C1S1Handle) : HmacDigest :=
  hmac (GENUINE_FLASH_PLAYER_KEY.take 36)
    (write4Bytes h.c1Time ++ write4Bytes s1Version ++ (h.key.bytes h.key.data ++ h.digest.bytes []))

def makeS1 (hmac : HmacSha256) (dh : DhGenKey) (h : C1S1Handle) : Option (List Byte) := do
  let s1Key ← dh h.key.data
  let s1Digest := makeS1Digest hmac h
  match h.schema with
  | .SCHEMA0 => return write4Bytes h.c1Time ++ write4Bytes s1Version ++ (h.key.bytes s1Key ++ h.digest.bytes s1Digest)
  | .SCHEMA1 => return write4Bytes h.c1Time ++ write4Bytes s1Version ++ (h.digest.bytes s1Digest ++ h.key.bytes s1Key)
  | .SCHEMA_INIT => none

/-! ## The client -/

def rtmpRandomGenerate (rand : Nat → Nat) (i size : Nat) : List Byte :=
  (range' i size).map fun k => BitVec.ofNat 8 (0x0f + rand k % (256 - 0x0f - 0x0f))

def prepareDigest (rand : Nat → Nat) (i : Nat) : DigestPart :=
  let offset := BitVec.ofNat 32 (rand i)
  let realOffset := calcValidDigestOffset offset
  { offset
    random0 := rtmpRandomGenerate rand (i + 1) realOffset
    data := rtmpRandomGenerate rand (i + 1 + realOffset) 32
    random1 := rtmpRandomGenerate rand (i + 1 + realOffset + 32) (764 - 4 - realOffset - 32) }

def prepareKey (rand : Nat → Nat) (i : Nat) : KeyPart :=
  let offset := BitVec.ofNat 32 (rand i)
  let realOffset := calcValidKeyOffset offset
  { offset
    random0 := rtmpRandomGenerate rand (i + 1) realOffset
    data := rtmpRandomGenerate rand (i + 1 + realOffset) 128
    random1 := rtmpRandomGenerate rand (i + 1 + realOffset + 128) (764 - realOffset - 128 - 4) }

def c1Version : BitVec 32 := 0x80000702

/-- `MakeC0C1`, or an error; `PrepareDigest` takes 761 numbers. -/
def makeC0C1 (hmac : HmacSha256) (now : BitVec 32) (rand : Nat → Nat) : Option (List Byte) :=
  let digest := prepareDigest rand 0
  let key := prepareKey rand 761
  let c1Digest := hmac (GENUINE_FLASH_PLAYER_KEY.take 30)
    (write4Bytes now ++ write4Bytes c1Version ++ (digest.bytes [] ++ key.bytes key.data))
  if digest.random0 = [] ∨ digest.random1 = [] then none
  else some (RTMP_HANDSHAKE_VERSION :: (write4Bytes now ++ write4Bytes c1Version ++ (digest.bytes c1Digest ++ key.bytes key.data)))

/-! ## When the digest of S1 is that of the bytes that are sent -/

open C1S1Handle

def digestBase : HandshakeSchema → Nat
  | .SCHEMA0 => 8 + 764
  | _ => 8

def digestPosition (schema : HandshakeSchema) (msg : List Byte) : Nat :=
  digestBase schema + 4 + calcValidDigestOffset (read4Bytes (msg.drop (digestBase schema)))

/-- **S1 verifies**: at its digest position is the HMAC of its other bytes. -/
def S1Verifies (hmac : HmacSha256) (schema : HandshakeSchema) (s1 : List Byte) : Prop :=
  s1.length = 1536 ∧ (s1.drop (digestPosition schema s1)).take 32 =
    hmac (GENUINE_FLASH_PLAYER_KEY.take 36) (withoutDigest s1 (digestPosition schema s1))

def DigestsVerify (hmac : HmacSha256) (dh : DhGenKey) (c1 : List Byte) : Prop :=
  (parseC1 hmac c1).1 = 0 → ∀ s1 ∈ makeS1 hmac dh (parseC1 hmac c1).2, S1Verifies hmac (parseC1 hmac c1).2.schema s1

/-- **The condition**: under schema 0 the shared key is that of C1, and under schema 1 the two parts are the same in either order. -/
def SameEitherWay (dh : DhGenKey) (h : C1S1Handle) : Prop :=
  ∀ s1Key ∈ dh h.key.data,
    match h.schema with
    | .SCHEMA0 => h.key.data = s1Key
    | .SCHEMA1 => h.key.bytes h.key.data ++ h.digest.bytes [] = h.digest.bytes [] ++ h.key.bytes s1Key
    | .SCHEMA_INIT => True

/-! ## The sizes of the parts -/

structure DigestPart.Sized (d : DigestPart) : Prop where
  random0 : d.random0.length = calcValidDigestOffset d.offset
  data : d.data.length = 32
  random1 : d.random1.length = 764 - 4 - calcValidDigestOffset d.offset - 32

structure KeyPart.Sized (k : KeyPart) : Prop where
  random0 : k.random0.length = calcValidKeyOffset k.offset
  data : k.data.length = 128
  random1 : k.random1.length = 764 - calcValidKeyOffset k.offset - 128 - 4

theorem calcValidDigestOffset_lt (offset : BitVec 32) : calcValidDigestOffset offset < 728 := Nat.mod_lt _ (by decide)

theorem calcValidKeyOffset_lt (offset : BitVec 32) : calcValidKeyOffset offset < 632 := Nat.mod_lt _ (by decide)

@[simp] theorem write4Bytes_length (v : BitVec 32) : (write4Bytes v).length = 4 := beBytes_length 4 _

theorem read4Bytes_write (v : BitVec 32) (rest : List Byte) : read4Bytes (write4Bytes v ++ rest) = v := by
  have hlt := v.isLt
  unfold read4Bytes
  rw [take_left' (write4Bytes_length v), write4Bytes, readNBytes_beBytes, Nat.mod_eq_of_lt (by omega), BitVec.ofNat_toNat,
    BitVec.setWidth_eq]

theorem rtmpRandomGenerate_length (rand : Nat → Nat) (i size : Nat) : (rtmpRandomGenerate rand i size).length = size := by
  simp [rtmpRandomGenerate]

theorem parseDigest_sized {data : List Byte} (hlen : data.length = 764) : (parseDigest data).Sized := by
  have hlt := calcValidDigestOffset_lt (read4Bytes data)
  constructor <;> simp only [parseDigest, length_take, length_drop] <;> omega

theorem parseKey_sized {data : List Byte} (hlen : data.length = 764) : (parseKey data).Sized := by
  have hlt := calcValidKeyOffset_lt (read4Bytes (data.drop (764 - 4)))
  constructor <;> simp only [parseKey, length_take, length_drop] <;> omega

theorem prepareDigest_sized (rand : Nat → Nat) (i : Nat) : (prepareDigest rand i).Sized := by
  constructor <;> simp only [prepareDigest, rtmpRandomGenerate_length]

theorem prepareKey_sized (rand : Nat → Nat) (i : Nat) : (prepareKey rand i).Sized := by
  constructor <;> simp only [prepareKey, rtmpRandomGenerate_length]

theorem DigestPart.Sized.bytes_length {d : DigestPart} (hs : d.Sized) (data : List Byte) : (d.bytes data).length = 732 + data.length := by
  have hlt := calcValidDigestOffset_lt d.offset
  have h0 := hs.random0
  have h1 := hs.random1
  simp only [DigestPart.bytes, length_append, write4Bytes_length]
  omega

theorem KeyPart.Sized.bytes_length {k : KeyPart} (hs : k.Sized) (data : List Byte) : (k.bytes data).length = 636 + data.length := by
  have hlt := calcValidKeyOffset_lt k.offset
  have h0 := hs.random0
  have h1 := hs.random1
  simp only [KeyPart.bytes, length_append, write4Bytes_length]
  omega

theorem parseDigest_bytes {d : DigestPart} (hs : d.Sized) {data : List Byte} (hdata : data.length = 32) :
    parseDigest (d.bytes data) = { d with data } := by
  have hoffset : read4Bytes (d.bytes data) = d.offset := by
    unfold DigestPart.bytes
    rw [append_assoc, append_assoc, read4Bytes_write]
  have hdrop4 : (d.bytes data).drop 4 = d.random0 ++ (data ++ d.random1) := by
    unfold DigestPart.bytes
    rw [append_assoc, append_assoc, drop_left' (write4Bytes_length _)]
  have hdrop : (d.bytes data).drop (4 + calcValidDigestOffset d.offset) = data ++ d.random1 := by
    rw [← drop_drop, hdrop4, drop_left' hs.random0]
  have hend : (d.bytes data).drop (4 + calcValidDigestOffset d.offset + 32) = d.random1 := by
    rw [← drop_drop, hdrop, drop_left' hdata]
  simp only [parseDigest, hoffset, hdrop4, hdrop, hend, take_left' hs.random0, take_left' hdata,
    take_of_length_le (Nat.le_of_eq hs.random1)]

theorem digest_at {d : DigestPart} (hs : d.Sized) (schema : HandshakeSchema) {head data : List Byte} (tail : List Byte)
    (hhead : head.length = digestBase schema) (hdata : data.length = 32) :
    digestPosition schema (head ++ (d.bytes data ++ tail)) = digestBase schema + 4 + d.random0.length ∧
      ((head ++ (d.bytes data ++ tail)).drop (digestBase schema + 4 + d.random0.length)).take 32 = data ∧
      withoutDigest (head ++ (d.bytes data ++ tail)) (digestBase schema + 4 + d.random0.length) = head ++ (d.bytes [] ++ tail) := by
  have hmsg : head ++ (d.bytes data ++ tail) = (head ++ (write4Bytes d.offset ++ d.random0)) ++ (data ++ (d.random1 ++ tail)) := by
    simp [DigestPart.bytes]
  have hfront : (head ++ (write4Bytes d.offset ++ d.random0)).length = digestBase schema + 4 + d.random0.length := by
    rw [length_append, length_append, write4Bytes_length, hhead, Nat.add_assoc]
  refine ⟨?_, ?_, ?_⟩
  · unfold digestPosition DigestPart.bytes
    rw [drop_left' hhead, append_assoc, append_assoc, append_assoc, read4Bytes_write, hs.random0]
  · rw [hmsg, drop_left' hfront, take_left' hdata]
  · unfold withoutDigest
    rw [hmsg, take_left' hfront, ← drop_drop, drop_left' hfront, drop_left' hdata]
    simp [DigestPart.bytes]

/-! ## S1 -/

theorem parseC1_cases (hmac : HmacSha256) {c1 : List Byte} (hlen : c1.length = 1536) :
    (parseC1 hmac c1).2.digest.Sized ∧ (parseC1 hmac c1).2.key.Sized ∧ (parseC1 hmac c1).2.schema ≠ .SCHEMA_INIT := by
  have hfront : ((c1.drop 8).take 764).length = 764 := by
    rw [length_take, length_drop]
    omega
  have hback : ((c1.drop 8).drop 764).length = 764 := by
    rw [length_drop, length_drop]
    omega
  unfold parseC1
  dsimp only
  split
  · exact ⟨parseDigest_sized hfront, parseKey_sized hback, by simp⟩
  · split
    · exact ⟨parseDigest_sized hback, parseKey_sized hfront, by simp⟩
    · exact ⟨parseDigest_sized hback, parseKey_sized hfront, by simp⟩

theorem parseC1_congr {hmac hmac' : HmacSha256} (hkey : hmac' (GENUINE_FLASH_PLAYER_KEY.take 30) = hmac (GENUINE_FLASH_PLAYER_KEY.take 30))
    (c1 : List Byte) : parseC1 hmac' c1 = parseC1 hmac c1 := by
  unfold parseC1 checkDigestValid
  rw [hkey]

/-- What `MakeS1Digest` is about, and what is sent without its digest. -/
def joinedBytes (h : C1S1Handle) : List Byte :=
  write4Bytes h.c1Time ++ write4Bytes s1Version ++ (h.key.bytes h.key.data ++ h.digest.bytes [])

def sentBytes (h : C1S1Handle) (s1Key : List Byte) : List Byte :=
  if h.schema = .SCHEMA0 then write4Bytes h.c1Time ++ write4Bytes s1Version ++ (h.key.bytes s1Key ++ h.digest.bytes [])
  else write4Bytes h.c1Time ++ write4Bytes s1Version ++ (h.digest.bytes [] ++ h.key.bytes s1Key)

theorem verifies_at (hmac : HmacSha256) {d : DigestPart} (hs : d.Sized) {schema : HandshakeSchema} {head : List Byte}
    (digest : HmacDigest) (tail : List Byte) (hhead : head.length = digestBase schema) (hlen : digestBase schema + 764 +
    tail.length = 1536) : S1Verifies hmac schema (head ++ (d.bytes digest ++ tail)) ↔ digest = hmac (GENUINE_FLASH_PLAYER_KEY.take
    36) (head ++ (d.bytes [] ++ tail)) := by
  obtain ⟨hpos, hdata, hother⟩ := digest_at hs schema tail hhead digest.property
  have hsize : (head ++ (d.bytes digest ++ tail)).length = 1536 := by
    rw [length_append, length_append, hs.bytes_length, digest.property]
    omega
  unfold S1Verifies
  rw [hpos, and_iff_right hsize, hdata, hother, Subtype.ext_iff]

theorem makeS1_verifies (hmac : HmacSha256) {dh : DhGenKey} {h : C1S1Handle} (hd : h.digest.Sized) (hk : h.key.Sized)
    (hschema : h.schema ≠ .SCHEMA_INIT) {s1Key : DhKey} (hkey : dh h.key.data = some s1Key) : ∃ s1, makeS1 hmac dh h = some s1 ∧
    (S1Verifies hmac h.schema s1 ↔ hmac (GENUINE_FLASH_PLAYER_KEY.take 36) (joinedBytes h) = hmac (GENUINE_FLASH_PLAYER_KEY.take
    36) (sentBytes h s1Key)) := by
  have hkeys : (h.key.bytes s1Key).length = 764 := by
    rw [hk.bytes_length, s1Key.property]
  unfold makeS1 sentBytes
  rw [hkey, Option.bind_eq_bind, Option.bind_some]
  cases hs : h.schema with
  | SCHEMA_INIT => exact absurd hs hschema
  | SCHEMA0 =>
    have hhead : (write4Bytes h.c1Time ++ write4Bytes s1Version ++ h.key.bytes s1Key).length = digestBase .SCHEMA0 := by
      rw [length_append, length_append, hkeys]
      rfl
    have hverifies := verifies_at hmac hd (makeS1Digest hmac h) [] hhead rfl
    rw [append_nil, append_nil, append_assoc _ (h.key.bytes s1Key), append_assoc _ (h.key.bytes s1Key)] at hverifies
    rw [if_pos rfl]
    exact ⟨_, rfl, hverifies⟩
  | SCHEMA1 =>
    have hhead : (write4Bytes h.c1Time ++ write4Bytes s1Version).length = digestBase .SCHEMA1 := rfl
    rw [if_neg (by simp)]
    exact ⟨_, rfl, verifies_at hmac hd (makeS1Digest hmac h) (h.key.bytes s1Key) hhead (by rw [hkeys]; rfl)⟩

theorem sameBytes_iff {h : C1S1Handle} (hschema : h.schema ≠ .SCHEMA_INIT) (s1Key : DhKey) :
    joinedBytes h = sentBytes h s1Key ↔
      match h.schema with
      | .SCHEMA0 => h.key.data = s1Key
      | .SCHEMA1 => h.key.bytes h.key.data ++ h.digest.bytes [] = h.digest.bytes [] ++ h.key.bytes s1Key
      | .SCHEMA_INIT => True := by
  unfold joinedBytes sentBytes
  cases hs : h.schema with
  | SCHEMA_INIT => exact absurd hs hschema
  | SCHEMA0 =>
    rw [if_pos rfl, append_right_inj, append_left_inj]
    unfold KeyPart.bytes
    rw [append_left_inj, append_left_inj, append_right_inj]
  | SCHEMA1 =>
    rw [if_neg (by simp), append_right_inj]

theorem hmac_tells (hmac : HmacSha256) (x y : List Byte) : (∀ hmac' : HmacSha256, hmac' (GENUINE_FLASH_PLAYER_KEY.take 30) =
    hmac (GENUINE_FLASH_PLAYER_KEY.take 30) → hmac' (GENUINE_FLASH_PLAYER_KEY.take 36) x = hmac' (GENUINE_FLASH_PLAYER_KEY.take
    36) y) ↔ x = y := by
  refine ⟨fun hall => ?_, fun heq _ _ => by rw [heq]⟩
  by_contra hne
  have hkeys : GENUINE_FLASH_PLAYER_KEY.take 30 ≠ GENUINE_FLASH_PLAYER_KEY.take 36 := by decide
  have htold := hall (fun key data => if key = GENUINE_FLASH_PLAYER_KEY.take 30 then hmac key data
    else if data = x then ⟨replicate 32 0, rfl⟩ else ⟨replicate 32 1, rfl⟩) (funext fun data => if_pos rfl)
  rw [if_neg hkeys.symm, if_neg hkeys.symm, if_pos rfl, if_neg (Ne.symm hne)] at htold
  exact absurd htold (by decide)

theorem digestsVerify_iff (hmac : HmacSha256) (dh : DhGenKey) {c1 : List Byte} (hlen : c1.length = 1536) : (∀ hmac' :
    HmacSha256, hmac' (GENUINE_FLASH_PLAYER_KEY.take 30) = hmac (GENUINE_FLASH_PLAYER_KEY.take 30) → DigestsVerify hmac' dh c1) ↔
    ((parseC1 hmac c1).1 = 0 → SameEitherWay dh (parseC1 hmac c1).2) := by
  obtain ⟨hd, hk, hschema⟩ := parseC1_cases hmac hlen
  unfold DigestsVerify SameEitherWay
  by_cases haccept : (parseC1 hmac c1).1 = 0
  · rw [imp_iff_right haccept]
    cases hkey : dh (parseC1 hmac c1).2.key.data with
    | none =>
      refine iff_of_true (fun hmac' hsame _ s1 hs1 => ?_) fun _ hnone => nomatch hnone
      rw [parseC1_congr hsame, makeS1, hkey] at hs1
      exact nomatch hs1
    | some s1Key =>
      simp only [Option.mem_some_iff, forall_eq']
      rw [← sameBytes_iff hschema s1Key, ← hmac_tells hmac]
      refine forall₂_congr fun hmac' hsame => ?_
      obtain ⟨s1, hs1, hverifies⟩ := makeS1_verifies hmac' hd hk hschema hkey
      rw [parseC1_congr hsame, imp_iff_right haccept, hs1, ← hverifies]
      simp
  · refine iff_of_true (fun hmac' hsame hzero => ?_) fun hzero => absurd hzero haccept
    rw [parseC1_congr hsame] at hzero
    exact absurd hzero haccept

/-! ## C1 -/

theorem parseC1_schema1 {hmac : HmacSha256} {c1 : List Byte} {d : DigestPart} (hparsed : parseDigest ((c1.drop 8).take 764) = d)
    (hvalid : d.data = hmac (GENUINE_FLASH_PLAYER_KEY.take 30) (withoutDigest c1 (8 + 4 + d.random0.length))) :
    (parseC1 hmac c1).1 = 0 ∧ (parseC1 hmac c1).2.schema = .SCHEMA1 := by
  have hcheck : (trySchema1 { c1Data := c1, c1Time := read4Bytes c1, c1Version := read4Bytes (c1.drop 4) } (c1.drop 8)).checkDigestValid
      hmac .SCHEMA1 = true := by
    unfold trySchema1 checkDigestValid
    dsimp only
    rw [hparsed]
    exact decide_eq_true hvalid
  unfold parseC1
  dsimp only
  rw [if_pos hcheck]
  exact ⟨rfl, rfl⟩

theorem makeC0C1_schema1 {hmac : HmacSha256} {now : BitVec 32} {rand : Nat → Nat} {c0c1 : List Byte}
    (hmake : makeC0C1 hmac now rand = some c0c1) :
    c0c1.length = 1537 ∧ (parseC1 hmac (c0c1.drop 1)).1 = 0 ∧ (parseC1 hmac (c0c1.drop 1)).2.schema = .SCHEMA1 := by
  have hd := prepareDigest_sized rand 0
  have hk := prepareKey_sized rand 761
  unfold makeC0C1 at hmake
  dsimp only at hmake
  split at hmake
  · exact nomatch hmake
  · generalize prepareDigest rand 0 = d at *
    generalize prepareKey rand 761 = k at *
    generalize hdigest : hmac (GENUINE_FLASH_PLAYER_KEY.take 30) _ = digest at hmake
    obtain rfl := Option.some.inj hmake
    have hblock : (d.bytes digest).length = 764 := by rw [hd.bytes_length, digest.property]
    have hkeys : (k.bytes k.data).length = 764 := by rw [hk.bytes_length, hk.data]
    have hhead : (write4Bytes now ++ write4Bytes c1Version).length = 8 := rfl
    obtain ⟨-, -, hother⟩ := digest_at hd .SCHEMA1 (k.bytes k.data) hhead digest.property
    refine ⟨?_, parseC1_schema1 (d := { d with data := digest }) ?_ ?_⟩
    · rw [length_cons, length_append, hhead, length_append, hblock, hkeys]
    · rw [drop_one, tail_cons, drop_left' hhead, take_left' hblock, parseDigest_bytes hd digest.property]
    · exact congrArg Subtype.val (hdigest.symm.trans (congrArg (hmac _) hother.symm))

/-- **The digests of the complex handshake**: whatever the HMAC of the second key is, S1 verifies exactly where what is joined for its
digest is what is sent; and C1 is of schema 1.

A known deviation: S1 has its digest over the key of C1, and over the order of schema 0. -/
theorem handshake_digests (hmac : HmacSha256) (dh : DhGenKey) (c1 : { c1 : List Byte // c1.length = 1536 }) (now : BitVec 32)
    (rand : Nat → Nat) : ((∀ hmac' : HmacSha256, hmac' (GENUINE_FLASH_PLAYER_KEY.take 30) = hmac (GENUINE_FLASH_PLAYER_KEY.take
    30) → DigestsVerify hmac' dh c1) ↔ ((parseC1 hmac c1).1 = 0 → SameEitherWay dh (parseC1 hmac c1).2)) ∧ ∀ c0c1 ∈ makeC0C1 hmac
    now rand, c0c1.length = 1537 ∧ (parseC1 hmac (c0c1.drop 1)).1 = 0 ∧ (parseC1 hmac (c0c1.drop 1)).2.schema = .SCHEMA1 :=
  ⟨digestsVerify_iff hmac dh c1.property, fun _ hmake => makeC0C1_schema1 hmake⟩

/-- A C1 of zeros, which is of schema 1 where each HMAC is zero, and a shared key of ones. -/
theorem s1_digest_lost : ¬∀ (hmac : HmacSha256) (dh : DhGenKey) (c1 : List Byte), c1.length = 1536 → DigestsVerify hmac dh c1 := by
  intro hall
  have hlen : (replicate 1536 (0 : Byte)).length = 1536 := length_replicate
  have hiff := digestsVerify_iff (fun _ _ => ⟨replicate 32 0, rfl⟩) (fun _ => some ⟨replicate 128 1, rfl⟩) hlen
  have hsame := hiff.1 (fun hmac' _ => hall hmac' _ _ hlen) (by decide +kernel) _ rfl
  have hschema : (parseC1 (fun _ _ => ⟨replicate 32 0, rfl⟩) (replicate 1536 (0 : Byte))).2.schema = .SCHEMA1 := by
    decide +kernel
  rw [hschema] at hsame
  exact absurd hsame (by decide +kernel)

end MoqLiveCast
