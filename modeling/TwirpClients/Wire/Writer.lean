import TwirpClients.Wire.Reader

/-!
# Writing fields

The bytes of numbers, texts and messages as fields of a message. A number is written
in as few bytes as it takes; an absent field is written as nothing, while a present one is written
also when it is empty.
-/

namespace TwirpClients.Wire.Writer

def varint (n : Nat) : Bytes :=
  if n < 128 then [n.toUInt8] else (n % 128 + 128).toUInt8 :: varint (n / 128)
termination_by n

def key (tag : Nat) (wireType : WireType) : Bytes := varint (tag * 8 + wireType.code)

def block (bytes : Bytes) : Bytes := varint bytes.length ++ bytes

def number (tag n : Nat) : Bytes := key tag .varint ++ varint n

def message (tag : Nat) (body : Bytes) : Bytes := key tag .lengthDelimited ++ block body

def text (tag : Nat) (s : String) : Bytes := message tag s.toUTF8.data.toList

def text? (tag : Nat) : Option String → Bytes
  | none => []
  | some s => text tag s

end TwirpClients.Wire.Writer
