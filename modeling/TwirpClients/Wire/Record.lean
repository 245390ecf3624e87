import TwirpClients.Wire.Reader
import TwirpClients.Wire.Schema

/-!
# Messages as records

A message is read as a record: the tags and values of its known fields in the order of
the bytes. The views of a record give the meaning of repeated occurrences: of a text or a number
the last one counts (`text?`, `number?`), single messages are joined (`record?`), and repeated
fields are lists (`texts`, `records`).

So two records one after the other are the record of the two byte strings one after the other,
and merging needs no other rule.
-/

namespace TwirpClients.Wire

inductive Value where
  | number (n : Nat)
  | text (s : String)
  | bytes (bytes : Bytes)
  | record (fields : List (Nat × Value))

abbrev Record := List (Nat × Value)

namespace Record

def texts (r : Record) (tag : Nat) : List String :=
  r.filterMap fun
    | (t, .text s) => if t = tag then some s else none
    | _ => none

def records (r : Record) (tag : Nat) : List Record :=
  r.filterMap fun
    | (t, .record fields) => if t = tag then some fields else none
    | _ => none

def numbers (r : Record) (tag : Nat) : List Nat :=
  r.filterMap fun
    | (t, .number n) => if t = tag then some n else none
    | _ => none

def text? (r : Record) (tag : Nat) : Option String := (r.texts tag).getLast?

def number? (r : Record) (tag : Nat) : Option Nat := (r.numbers tag).getLast?

def record? (r : Record) (tag : Nat) : Option Record :=
  match r.records tag with
  | [] => none
  | parts => some parts.flatten

theorem texts_append (r s : Record) (tag : Nat) :
    texts (r ++ s) tag = texts r tag ++ texts s tag :=
  List.filterMap_append

theorem records_append (r s : Record) (tag : Nat) :
    records (r ++ s) tag = records r tag ++ records s tag :=
  List.filterMap_append

theorem numbers_append (r s : Record) (tag : Nat) :
    numbers (r ++ s) tag = numbers r tag ++ numbers s tag :=
  List.filterMap_append

end Record

namespace Reader

def text : Reader String := do
  match String.fromUTF8? ⟨(← block).toArray⟩ with
  | some s => return s
  | none => fail .notUtf8

/-- The values of a field of that type, more than one only in a packed run. -/
def values (nested : MessageType → Reader Record) : FieldType → WireType → Reader (List Value)
  | .text, wireType => do
    expect .lengthDelimited wireType
    return [.text (← text)]
  | .bytes, wireType => do
    expect .lengthDelimited wireType
    return [.bytes (← block)]
  | .number, wireType => do
    expect .varint wireType
    return [.number (← varint)]
  | .numbers, .lengthDelimited => return (← delimited varint).map .number
  | .numbers, wireType => do
    expect .varint wireType
    return [.number (← varint)]
  | .double, wireType => do
    expect .sixtyFourBit wireType
    return [.bytes (← take 8)]
  | .message type, wireType => do
    expect .lengthDelimited wireType
    return [.record (← nested type)]

def field (nested : MessageType → Reader Record) (skip : WireType → Nat → Reader Unit)
    (type : MessageType) : Reader Record := do
  let (tag, wireType) ← key
  match type.field? tag with
  | none =>
    skip wireType tag
    return []
  | some field =>
    let values ← within (field.errorName type) (values nested field.type wireType)
    return values.map (tag, ·)

/-- A message inside another one. The counter bounds how deep messages may be nested. -/
def message : Nat → MessageType → Reader Record
  | 0, _ => fail .recursionLimit
  | depth + 1, type => return (← delimited (field (message depth) (skip depth) type)).flatten

end Reader

def maxDepth : Nat := 100

def Record.ofBytes (type : MessageType) (bytes : Bytes) : Except DecodeError Record :=
  let fields := Reader.downTo 0 (Reader.field (Reader.message maxDepth) (Reader.skip maxDepth) type)
  (fields bytes).map (·.1.flatten)

end TwirpClients.Wire
