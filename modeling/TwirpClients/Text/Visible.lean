/-!
# Visible form of a text

Messages that quote an unwanted text show it in printable ASCII only, so that
the message itself has no control characters and no look-alikes.
-/

namespace TwirpClients.Text

/-- Printable ASCII stands for itself, except that quotes and the backslash get a
backslash in front; tab, return and line feed have a letter; every other character is
its code point in hexadecimal. -/
def visibleChar (c : Char) : List Char :=
  if c = '\t' then ['\\', 't']
  else if c = '\r' then ['\\', 'r']
  else if c = '\n' then ['\\', 'n']
  else if c = '\'' ∨ c = '"' ∨ c = '\\' then ['\\', c]
  else if 0x20 ≤ c.toNat ∧ c.toNat ≤ 0x7E then [c]
  else ['\\', 'u', '\x7b'] ++ Nat.toDigits 16 c.toNat ++ ['\x7d']

def visible (cs : List Char) : List Char :=
  cs.flatMap visibleChar

end TwirpClients.Text
