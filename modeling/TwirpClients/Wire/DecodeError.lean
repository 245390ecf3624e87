/-!
# Errors of decoding

Why a byte string is not a message: the reason, and the known fields that enclose the
place where reading stopped, innermost first.
-/

namespace TwirpClients.Wire

/-- How the value of a field is laid out, told by the lowest three bits of its key. -/
inductive WireType where
  | varint
  | sixtyFourBit
  | lengthDelimited
  | startGroup
  | endGroup
  | thirtyTwoBit
deriving DecidableEq, Repr

namespace WireType

def code : WireType → Nat
  | varint => 0
  | sixtyFourBit => 1
  | lengthDelimited => 2
  | startGroup => 3
  | endGroup => 4
  | thirtyTwoBit => 5

def ofCode? : Nat → Option WireType
  | 0 => some varint
  | 1 => some sixtyFourBit
  | 2 => some lengthDelimited
  | 3 => some startGroup
  | 4 => some endGroup
  | 5 => some thirtyTwoBit
  | _ => none

def name : WireType → String
  | varint => "Varint"
  | sixtyFourBit => "SixtyFourBit"
  | lengthDelimited => "LengthDelimited"
  | startGroup => "StartGroup"
  | endGroup => "EndGroup"
  | thirtyTwoBit => "ThirtyTwoBit"

theorem ofCode?_code (w : WireType) : ofCode? w.code = some w := by cases w <;> rfl

end WireType

inductive DecodeError.Reason where
  | varint
  | key (value : Nat)
  | wireTypeCode (code : Nat)
  | tag (value : Nat)
  | wireType (actual expected : WireType)
  | underflow
  | lengthExceeded
  | notUtf8
  | endGroup
  | recursionLimit
deriving DecidableEq, Repr

def DecodeError.Reason.message : DecodeError.Reason → String
  | varint => "invalid varint"
  | key value => "invalid key value: " ++ toString value
  | wireTypeCode code => "invalid wire type value: " ++ toString code
  | tag value => "invalid tag value: " ++ toString value
  | wireType actual expected =>
    "invalid wire type: " ++ actual.name ++ " (expected " ++ expected.name ++ ")"
  | underflow => "buffer underflow"
  | lengthExceeded => "delimited length exceeded"
  | notUtf8 => "invalid string value: data is not UTF-8 encoded"
  | endGroup => "unexpected end group tag"
  | recursionLimit => "recursion limit reached"

structure FieldName where
  message : String
  field : String
deriving DecidableEq, Repr

structure DecodeError where
  reason : DecodeError.Reason
  path : List FieldName := []
deriving DecidableEq, Repr

namespace DecodeError

/-- The error as seen from outside `field`, in whose value it was met. -/
def within (field : FieldName) (e : DecodeError) : DecodeError :=
  { e with path := e.path ++ [field] }

def message (e : DecodeError) : String :=
  "failed to decode Protobuf message: "
    ++ e.path.foldr (fun f text => f.message ++ "." ++ f.field ++ ": " ++ text) e.reason.message

end DecodeError
end TwirpClients.Wire
