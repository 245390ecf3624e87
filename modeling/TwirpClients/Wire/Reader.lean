import TwirpClients.Wire.DecodeError

/-!
# Readers of bytes

A reader takes bytes off the front of its input and answers with a value and the
bytes it left, or fails. What a reader sees is all the input that is left, not only the
message it stands in: a length is checked against the whole rest, and the end of a
message is the number of bytes that are left behind it.

Repetition is one function, `collect`, which ends because every round leaves fewer bytes.
-/

namespace TwirpClients.Wire

abbrev Bytes := List UInt8

abbrev Reader := StateT Bytes (Except DecodeError)

namespace Reader

def fail (reason : DecodeError.Reason) : Reader α := fun _ => .error { reason }

def within (field : FieldName) (r : Reader α) : Reader α :=
  fun bytes => (r bytes).mapError (·.within field)

def remaining : Reader Nat := fun bytes => .ok (bytes.length, bytes)

/-- The values of `step`, run until it has none. A round that takes no byte off the input would
never end and is the last one. -/
def collect (step : Reader (Option α)) (bytes : Bytes) : Except DecodeError (List α × Bytes) :=
  match step bytes with
  | .error e => .error e
  | .ok (none, rest) => .ok ([], rest)
  | .ok (some a, rest) =>
    if rest.length < bytes.length then
      (collect step rest).map fun (as, rest) => (a :: as, rest)
    else
      .ok ([a], rest)
termination_by bytes.length

def take (n : Nat) : Reader Bytes := fun bytes =>
  if bytes.length < n then .error { reason := .underflow } else .ok (bytes.splitAt n)

/-- A number below `2 ^ bits`, seven bits to a byte and the lowest first; a byte of 128 or more
says that another one follows. A number may have more bytes than it needs. -/
def varintWithin (bits : Nat) : Bytes → Except DecodeError (Nat × Bytes)
  | [] => .error { reason := .varint }
  | b :: rest =>
    if b.toNat < 128 then
      if b.toNat < Nat.pow 2 bits then .ok (b.toNat, rest) else .error { reason := .varint }
    else if 7 < bits then
      (varintWithin (bits - 7) rest).map fun (high, rest) => (b.toNat - 128 + 128 * high, rest)
    else
      .error { reason := .varint }

/-- A number of 64 bits, in ten bytes at most. -/
def varint : Reader Nat := varintWithin 64

def maxKey : Nat := 0xFFFFFFFF

def key : Reader (Nat × WireType) := do
  let value ← varint
  if value > maxKey then fail (.key value)
  match WireType.ofCode? (value % 8) with
  | none => fail (.wireTypeCode (value % 8))
  | some wireType =>
    if value / 8 = 0 then fail (.tag 0)
    return (value / 8, wireType)

def block : Reader Bytes := do take (← varint)

def downTo (limit : Nat) (body : Reader α) : Reader (List α) :=
  collect do
    if (← remaining) ≤ limit then return none
    return some (← body)

/-- A length and a run of values in as many bytes; the last one has to end where the run does. -/
def delimited (body : Reader α) : Reader (List α) := do
  let length ← varint
  let left ← remaining
  if left < length then fail .underflow
  let values ← downTo (left - length) body
  if (← remaining) ≠ left - length then fail .lengthExceeded
  return values

def expect (expected actual : WireType) : Reader Unit := do
  if actual ≠ expected then fail (.wireType actual expected)

/-- Passes over the value of a field that is not known. A group ends at the end key of its tag.
The counter bounds how deep groups may be nested. -/
def skip : Nat → WireType → Nat → Reader Unit
  | 0, _, _ => fail .recursionLimit
  | _ + 1, .varint, _ => discard varint
  | _ + 1, .sixtyFourBit, _ => discard (take 8)
  | _ + 1, .thirtyTwoBit, _ => discard (take 4)
  | _ + 1, .lengthDelimited, _ => discard block
  | _ + 1, .endGroup, _ => fail .endGroup
  | depth + 1, .startGroup, tag =>
    discard <| collect do
      let (inner, wireType) ← key
      if wireType = .endGroup then
        if inner ≠ tag then fail .endGroup
        return none
      return some (← skip depth wireType inner)

end Reader
end TwirpClients.Wire
