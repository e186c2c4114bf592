import MoqLiveCast.Lib.OrdMap
import MoqLiveCast.Rtmp.ChunkStream
/-!
# Amf0 — values of commands and script tags (`format/amf/amf0.hpp`)

A value begins with its type.  A length is not compared with what is left before the bytes it counts are read, so a read can end
outside of the message (`AmfFault.outside`); what is left is an `int`, which only the loops look at (`leftLen`).

An object's end is looked at and left, and so is the value that is not one.
-/
namespace MoqLiveCast

inductive AmfType where
  | unknown | number | bool | string | object | null | undefined | array | date | longString
deriving DecidableEq

structure AmfItem where
  amfType : AmfType := .unknown
  number : BitVec 64 := 0
  enable : Bool := false
  descStr : List Byte := []
  amfObj : List (List Byte × AmfItem) := []
  amfArray : List AmfItem := []

/-! ## Decoding -/

def leftLen (data : List Byte) : Int := (BitVec.ofNat 32 data.length).toInt

/-- What must not be: a byte outside of the message is read, or an `assert` fires. -/
inductive AmfFault where
  | outside | assertion
deriving DecidableEq

/-- **What was seen so far**: a value that failed, and one that was begun after it. -/
structure AmfLog where
  failed : Bool := false
  late : Bool := false
deriving DecidableEq

def AmfLog.begin (log : AmfLog) : AmfLog := { log with late := log.late || log.failed }

def AmfLog.fail (log : AmfLog) : AmfLog := { log with failed := true }

/-- A result: whether it is 0, what was decoded, and what is left. -/
inductive AmfRead (α : Type) where
  | fault (f : AmfFault)
  | done (ok : Bool) (a : α) (rest : List Byte) (log : AmfLog)

def takeBytes (n : Nat) (data : List Byte) : Option (List Byte × List Byte) :=
  if data.length < n then none else some (data.take n, data.drop n)

theorem takeBytes_append {n : Nat} {b : List Byte} (hb : b.length = n) (rest : List Byte) :
    takeBytes n (b ++ rest) = some (b, rest) := by
  unfold takeBytes
  rw [if_neg (by rw [List.length_append]; omega), List.take_left' hb, List.drop_left' hb]

/-- `amf_obj.insert`: the first of a key stays. -/
def insertItem (obj : List (List Byte × AmfItem)) (key : List Byte) (item : AmfItem) : List (List Byte × AmfItem) :=
  if (OrdMap.find obj key).isSome then obj else OrdMap.put obj key item

section

variable (decode : AmfItem → List Byte → AmfLog → AmfRead AmfItem)

/-- `DecodeAmfObject`; a member takes three bytes at least, so there are no more of them than bytes. -/
def decodeAmfObject : Nat → List (List Byte × AmfItem) → List Byte → AmfLog → AmfRead (List (List Byte × AmfItem))
  | 0, obj, data, log => if 0 < leftLen data then .fault .outside else .done true obj data log
  | fuel + 1, obj, data, log =>
    if 0 < leftLen data then
      match takeBytes 2 data with
      | none => .fault .outside
      | some (len, data) =>
        if readNBytes len = 0 then
          match data with
          | [] => .fault .outside
          | x :: _ => if x = 9 then .done true obj data log else .fault .assertion
        else
          match takeBytes (readNBytes len) data with
          | none => .fault .outside
          | some (key, data) =>
            match data with
            | [] => .fault .outside
            | x :: _ =>
              if 13 < x.toNat then .done false obj data log
              else
                match decode {} data log with
                | .fault f => .fault f
                | .done false _ data log => .done false obj data log
                | .done true item data log => decodeAmfObject fuel (insertItem obj key item) data log
    else .done true obj data log

def decodeAmfItems : Nat → List AmfItem → List Byte → AmfLog → AmfRead (List AmfItem)
  | 0, items, data, log => .done true items data log
  | n + 1, items, data, log =>
    match decode {} data log with
    | .fault f => .fault f
    | .done false _ data log => .done false items data log
    | .done true item data log => decodeAmfItems n (items ++ [item]) data log

end

/-- `AMF_Decoder::Decode`, into an item that may have been used before; values stand in each other as deep as there are bytes.
The error of an array's item is not seen, and the zone of a date is skipped, not read. -/
def amfDecode : Nat → AmfItem → List Byte → AmfLog → AmfRead AmfItem
  | 0, _, _, _ => .fault .outside
  | depth + 1, item, data, log =>
    let log := log.begin
    match data with
    | [] => .fault .outside
    | t :: rest =>
      match t.toNat with
      | 0 =>
        match takeBytes 8 rest with
        | none => .fault .outside
        | some (v, rest) => .done true { item with amfType := .number, number := BitVec.ofNat 64 (readNBytes v) } rest log
      | 1 =>
        match rest with
        | [] => .fault .outside
        | v :: rest => .done true { item with amfType := .bool, enable := v ≠ 0 } rest log
      | 2 =>
        match takeBytes 2 rest with
        | none => .fault .outside
        | some (len, rest) =>
          match takeBytes (readNBytes len) rest with
          | none => .fault .outside
          | some (s, rest) => .done true { item with amfType := .string, descStr := s } rest log
      | 3 =>
        match decodeAmfObject (amfDecode depth) rest.length item.amfObj rest log with
        | .fault f => .fault f
        | .done ok obj rest log => .done ok { item with amfType := .object, amfObj := obj } rest (if ok then log else log.fail)
      | 5 => .done true { item with amfType := .null } rest log
      | 6 => .done true { item with amfType := .undefined } rest log
      | 7 => .fault .assertion
      | 8 =>
        match takeBytes 4 rest with
        | none => .fault .outside
        | some (_, rest) =>
          match decodeAmfObject (amfDecode depth) rest.length item.amfObj rest log with
          | .fault f => .fault f
          | .done ok obj rest log => .done ok { item with amfType := .object, amfObj := obj } rest (if ok then log else log.fail)
      | 10 =>
        match takeBytes 4 rest with
        | none => .fault .outside
        | some (len, rest) =>
          match decodeAmfItems (amfDecode depth) (readNBytes len) item.amfArray rest log with
          | .fault f => .fault f
          | .done _ items rest log => .done true { item with amfType := .array, amfArray := items } rest log
      | 11 =>
        match takeBytes 8 rest with
        | none => .fault .outside
        | some (v, rest) =>
          .done true { item with amfType := .date, number := BitVec.ofNat 64 (readNBytes v) } (rest.drop 2) log
      | 12 =>
        match takeBytes 4 rest with
        | none => .fault .outside
        | some (len, rest) =>
          match takeBytes (readNBytes len) rest with
          | none => .fault .outside
          | some (s, rest) => .done true { item with amfType := .longString, descStr := s } rest log
      | 13 => .done true { item with amfType := .longString } rest log
      | n => if 13 < n then .done false item data log.fail else .done false { item with amfType := .unknown } rest log.fail

def decodeItem (item : AmfItem) (data : List Byte) (log : AmfLog) : AmfRead AmfItem := amfDecode (data.length + 1) item data log

/-- The loop of `HandleClientCommandMessage` and `HandleServerCommandMessage`; there is no result where it does not come to an
end in `fuel` turns. -/
def decodeCommand : Nat → List AmfItem → List Byte → AmfLog → Option (AmfRead (List AmfItem))
  | fuel, vec, data, log =>
    if 0 < leftLen data then
      match fuel with
      | 0 => none
      | fuel + 1 =>
        match decodeItem {} data log with
        | .fault f => some (.fault f)
        | .done _ item data log => decodeCommand fuel (vec ++ [item]) data log
    else some (.done true vec data log)

def amfText (s : String) : List Byte := s.toList.map fun c => BitVec.ofNat 8 c.toNat

inductive MetadataType where
  | unknown | onTextData | onCaption | onCaptionInfo | onMetaData
deriving DecidableEq

inductive MetaValue where
  | text (s : List Byte)
  | number (v : BitVec 64)
  | flag (b : Bool)

structure FlvMetadata where
  metadataType : MetadataType := .unknown
  metadata : List (List Byte × MetaValue) := []

def metadataTypeOf (s : List Byte) : MetadataType :=
  if s = amfText "onTextData" then .onTextData
  else if s = amfText "onCaption" then .onCaption
  else if s = amfText "onCaptionInfo" then .onCaptionInfo
  else if s = amfText "onMetaData" then .onMetaData
  else .unknown

def addMembers (metadata : List (List Byte × MetaValue)) (obj : List (List Byte × AmfItem)) : List (List Byte × MetaValue) :=
  obj.foldl (fun m e =>
    match e.2.amfType with
    | .string => OrdMap.put m e.1 (.text e.2.descStr)
    | .number => OrdMap.put m e.1 (.number e.2.number)
    | .bool => OrdMap.put m e.1 (.flag e.2.enable)
    | _ => m) metadata

/-- The packet behind a value: the first is its type, and objects are added. -/
def addedTo (index : Nat) (item : AmfItem) (pkt : FlvMetadata) : FlvMetadata :=
  if index = 0 then { pkt with metadataType := metadataTypeOf item.descStr }
  else if item.amfType = .object then { pkt with metadata := addMembers pkt.metadata item.amfObj }
  else pkt

/-- The loop of `DecodeMetaData`: the item is one and the same, an error ends it, and a last byte is not looked at. -/
def decodeMetaData : Nat → Nat → AmfItem → FlvMetadata → List Byte → AmfLog → Option (AmfRead FlvMetadata)
  | 0, _, _, _, _, _ => none
  | fuel + 1, index, item, pkt, data, log =>
    match decodeItem item data log with
    | .fault f => some (.fault f)
    | .done false _ data log => some (.done true pkt data log)
    | .done true item data log =>
      if index = 0 ∧ item.amfType ≠ .string then some (.done false pkt data log)
      else if 1 < leftLen data then decodeMetaData fuel (index + 1) item (addedTo index item pkt) data log
      else some (.done true (addedTo index item pkt) data log)

/-! ## Encoding -/

/-- `Encode` of a string; `marked` where the type is not skipped. -/
def encodeString (s : List Byte) (marked : Bool) : List Byte :=
  if 0xffff < s.length then (if marked then [12] else []) ++ beBytes 4 s.length ++ s
  else (if marked then [2] else []) ++ beBytes 2 s.length ++ s

def encodeNumber (v : BitVec 64) : List Byte := 0 :: beBytes 8 v.toNat

def encodeBool (b : Bool) : List Byte := [1, if b then 1 else 0]

def encodeNull : List Byte := [5]

def encodeUndefined : List Byte := [6]

/-- A member's value: arrays and dates are not written, and what is no value is an error. -/
def encodeMember (item : AmfItem) : Option (List Byte) :=
  match item.amfType with
  | .number => some (encodeNumber item.number)
  | .bool => some (encodeBool item.enable)
  | .string => some (encodeString item.descStr true)
  | .longString => some (encodeString item.descStr true)
  | .null => some encodeNull
  | .undefined => some encodeUndefined
  | .array | .date => some []
  | .unknown | .object => none

/-- `Encode` of an object: its members in the order of their keys, and its end. -/
def encodeObject (obj : List (List Byte × AmfItem)) : Option (List Byte) := do
  let members ← obj.mapM fun e => (encodeMember e.2).map (encodeString e.1 false ++ ·)
  return 3 :: members.flatten ++ encodeString [] false ++ [9]

end MoqLiveCast
