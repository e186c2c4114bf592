import Mathlib.Algebra.Ring.Int.Defs
import MoqLiveCast.Http3.Huffman
import MoqLiveCast.Lib.Word
/-!
# Qpack — header fields read from a block (`qpack.c`)

A field points into the block, into the static table, or into one of the static buffers that Huffman-coded strings are decoded to.
The buffers are taken in turn, eight for names and twice sixteen for values; what is written to them is kept as a list.
-/
namespace MoqLiveCast

def QPACK_MAX_FIELDS : Nat := 16

def h3Text (s : String) : List Byte := s.toList.map fun c => BitVec.ofNat 8 c.toNat

def stName : List String := [":authority", ":path", "age", "content-disposition", "content-length", "cookie", "date", "etag",
  "if-modified-since", "if-none-match", "last-modified", "link", "location", "referer", "set-cookie",
  "strict-transport-security", "transfer-encoding", "user-agent", "vary", "cache-control", "content-encoding",
  "content-language", "content-location", "content-range", ":method", ":scheme", ":status", ":authority", "accept",
  "accept-encoding", "accept-language", "alt-svc", "dns", "expect", "forwarded", "from", "host", "max-forwards",
  "origin", "proxy-authenticate", "proxy-authorization", "range", "te", "trailer", "upgrade", "user-agent", "via",
  "x-forwarded-for", "x-forwarded-host", "x-forwarded-proto", "x-request-id", "cache-control", "content-type",
  "date", "expect", "forwarded", "if-match", "if-modified-since", "if-none-match", "if-range", "if-unmodified-since",
  "location", "server", "strict-transport-security", "transfer-encoding", "user-agent", "vary",
  "content-security-policy", "x-content-type-options", "x-frame-options", "x-xss-protection", "accept-ranges",
  "cache-control", "content-length", "content-type", "cross-origin-resource-policy", "expect-ct", "nel", "report-to",
  "server-timing", "timing-allow-origin", "upgrade-insecure-requests", "x-content-type-options", "x-frame-options",
  "x-xss-protection", "accept-ranges", "access-control-allow-origin", "access-control-allow-credentials",
  "access-control-max-age", "alt-svc", "via", "x-forwarded-for", "x-forwarded-host", "x-forwarded-proto",
  "x-request-id", "cache-control", "content-type", "date", "expect"]

def qpackStaticName (index : Nat) : Option (List Byte) := stName[index]?.map h3Text

def qpackStaticValue : Nat → Option (List Byte)
  | 1  => h3Text "/"
  | 4  => h3Text "0"
  | 6  => h3Text "0"
  | 24 => h3Text "GET"
  | 25 => h3Text "POST"
  | 26 => h3Text "http"
  | 27 => h3Text "https"
  | _ => none

/-- The bytes behind a number that does not fit its first byte, nine at most: what is added stays below `2 ^ 64`. -/
def vdMore : List Byte → Nat → Nat → Nat → Option (Nat × Nat)
  | [], _, _, _ => none
  | b :: rest, val, m, pos =>
    let val := val + b.toNat % 128 * 2 ^ m
    if b.toNat < 128 then some (val, pos + 1) else vdMore rest val (m + 7) (pos + 1)

/-- A number of which `bits` bits are in its first byte, and its length in bytes. -/
def vd (buf : List Byte) (bits : Nat) : Option (Nat × Nat) :=
  match buf with
  | [] => none
  | b :: rest =>
    let val := b.toNat % 2 ^ bits
    if val < 2 ^ bits - 1 then some (val, 1) else vdMore (rest.take 9) val 0 1

/-! ## Static buffers -/

/-- Buffers of names, of values behind a name reference, and of values behind a literal name. -/
inductive QpackBuf where
  | nameRing (slot : Nat)
  | refValue (slot : Nat)
  | litValue (slot : Nat)
deriving DecidableEq

def QpackBuf.size : QpackBuf → Nat
  | .nameRing _ => 256
  | .refValue _ => 4096
  | .litValue _ => 4096

structure QpackWrite where
  buf : QpackBuf
  index : Int
  byte : Byte
deriving DecidableEq

/-- Where a name or a value is; of a decoded one also what was decoded. -/
inductive QpackPtr where
  | null
  | input (off : Nat)
  | staticText (text : List Byte)
  | decoded (buf : QpackBuf) (own : List Byte)
deriving DecidableEq

structure QpackHeaderField where
  name : QpackPtr
  nameLen : Nat
  value : QpackPtr
  valueLen : Nat
deriving DecidableEq

structure QpackStatics where
  ns : Nat := 0
  refSlot : Nat := 0
  litSlot : Nat := 0
  writes : List QpackWrite := []
deriving DecidableEq

def writesFrom (buf : QpackBuf) (bytes : List Byte) : List QpackWrite := bytes.zipIdx.map fun x => ⟨buf, x.2, x.1⟩

def huffStr (buf : QpackBuf) (cap : Nat) (src : List Byte) : Int × List QpackWrite :=
  let (symbols, accepted) := huffmanDecodeStr src
  let r : Int := if accepted then toInt32 symbols.length else -1
  (r, writesFrom buf symbols ++ if 0 < r ∧ r < cap then [⟨buf, r, 0⟩] else [])

def sizeOf32 (n : Int) : Nat := (n % 2 ^ 64).toNat

def staticPtr (text : Option (List Byte)) : QpackPtr × Nat := text.elim (.null, 0) fun t => (.staticText t, t.length)

/-! ## Field lines -/

section

variable (data : List Byte) (off : Nat) (st : QpackStatics)

/-- Indexed field line: `1 T Index(6+)`; an index of the dynamic table names nothing. -/
def parseIndexed (b : Byte) : Option (Int × QpackHeaderField) × QpackStatics :=
  match vd data 6 with
  | none => (none, st)
  | some (idx, v) =>
    if b.getLsbD 6 then
      let name := staticPtr (qpackStaticName idx)
      let value := staticPtr (qpackStaticValue idx)
      (some (v, ⟨name.1, name.2, value.1, value.2⟩), st)
    else (some (v, ⟨.null, 0, .null, 0⟩), st)

/-- A value of `vlen` bytes at `p`, Huffman-coded to the buffer `buf` or as it is. -/
def readValue (buf : QpackBuf) (huff : Bool) (p vlen : Nat) : (QpackPtr × Nat) × List QpackWrite :=
  if huff then
    let src := (data.drop p).take vlen
    let (dl, ws) := huffStr buf 4095 src
    (if 0 < dl then (.decoded buf (huffmanDecodeStr src).1, sizeOf32 dl) else (.null, 0), ws)
  else ((.input (off + p), vlen), [])

/-- Literal with a name reference: `01 N T NameIndex(4+)`, of the static table only. -/
def parseNameRef (b : Byte) : Option (Int × QpackHeaderField) × QpackStatics :=
  match vd data 4 with
  | none => (none, st)
  | some (idx, v) =>
    if ¬b.getLsbD 4 ∨ data.length ≤ v then (none, st)
    else
      match vd (data.drop v) 7 with
      | none => (none, st)
      | some (vlen, v2) =>
        if data.length < v + v2 + vlen then (none, st)
        else
          let h := (data.getD v 0).getLsbD 7
          let name := staticPtr (qpackStaticName idx)
          let (value, ws) := readValue data off (.refValue st.refSlot) h (v + v2) vlen
          let st := if h then { st with refSlot := (st.refSlot + 1) % 16, writes := st.writes ++ ws } else st
          (some (v + v2 + toInt32 vlen, ⟨name.1, name.2, value.1, value.2⟩), st)

/-- A name of `nlen` bytes at `v`; a decoded one gets a NUL at what the decoder returned. -/
def readName (buf : QpackBuf) (huff : Bool) (v nlen : Nat) : (QpackPtr × Int) × List QpackWrite :=
  if huff then
    let src := (data.drop v).take nlen
    let (r, ws) := huffStr buf 255 src
    ((.decoded buf (huffmanDecodeStr src).1, r), ws ++ [⟨buf, r, 0⟩])
  else ((.input (off + v), toInt32 nlen), [])

/-- Literal with a literal name: `001 N H NameLength(3+)`. -/
def parseLiteralName (b : Byte) : Option (Int × QpackHeaderField) × QpackStatics :=
  match vd data 3 with
  | none => (none, st)
  | some (nlen, v) =>
    if data.length < v + nlen then (none, st)
    else
      let (name, nameWrites) := readName data off (.nameRing st.ns) (b.getLsbD 3) v nlen
      let st := { st with ns := (st.ns + 1) % 8, writes := st.writes ++ nameWrites }
      let pos := v + nlen
      if data.length ≤ pos then (none, st)
      else
        match vd (data.drop pos) 7 with
        | none => (none, st)
        | some (vlen, v2) =>
          if data.length < pos + v2 + vlen then (none, st)
          else
            let h := (data.getD pos 0).getLsbD 7
            let (value, ws) := readValue data off (.litValue st.litSlot) h (pos + v2) vlen
            let st := if h then { st with litSlot := (st.litSlot + 1) % 16, writes := st.writes ++ ws } else st
            (some (toInt32 (pos + v2) + toInt32 vlen, ⟨name.1, sizeOf32 name.2, value.1, value.2⟩), st)

/-- The line at `off` of the block, where `data` is what is left of it. -/
def parseOne : Option (Int × QpackHeaderField) × QpackStatics :=
  match data with
  | [] => (none, st)
  | b :: _ =>
    if 128 ≤ b.toNat then parseIndexed data st b
    else if 64 ≤ b.toNat then parseNameRef data off st b
    else if 32 ≤ b.toNat then parseLiteralName data off st b
    else (none, st)

end

/-- The loop of `qpackDecode`, for `n` fields more. -/
def parseFields (data : List Byte) : Nat → Nat → QpackStatics → List QpackHeaderField × QpackStatics
  | 0, _, st => ([], st)
  | n + 1, pos, st =>
    if data.length ≤ pos then ([], st)
    else
      match parseOne (data.drop pos) pos st with
      | (none, st) => ([], st)
      | (some (c, f), st) =>
        if 0 < c then
          let r := parseFields data n (pos + c.toNat) st
          (f :: r.1, r.2)
        else ([], st)

/-- What a call returns, the fields it counted, and what it left in the buffers. -/
structure QpackDecoded where
  ret : Int
  fields : List QpackHeaderField
  statics : QpackStatics
deriving DecidableEq

/-- The two numbers before the fields: how many entries the dynamic table must have, and a base. -/
def fieldsStart (data : List Byte) : Option Nat :=
  if data.length < 2 then none
  else
    (vd data 8).bind fun (_, r) => (vd (data.drop r) 7).map fun (_, r') => r + r'

def qpackDecode (data : List Byte) (maxFields : Nat) (st : QpackStatics) : QpackDecoded :=
  match fieldsStart data with
  | none => ⟨-1, [], st⟩
  | some pos =>
    let r := parseFields data maxFields pos st
    ⟨r.1.length, r.1, r.2⟩

def QpackPtr.bytes (data : List Byte) (len : Nat) : QpackPtr → List Byte
  | .null => []
  | .input off => (data.drop off).take len
  | .staticText text => text.take len
  | .decoded _ own => own.take len

def QpackHeaderField.pair (data : List Byte) (f : QpackHeaderField) : List Byte × List Byte :=
  (f.name.bytes data f.nameLen, f.value.bytes data f.valueLen)

end MoqLiveCast
