/-!
# Printing JSON

The layout of printed values: one item or member to a line, two spaces deeper than what holds
it, and an empty list on one line. A `Layout` is a value as a function of the depth it stands at.

In strings only quotes, backslashes and the characters below U+0020 are escaped.
-/

namespace TwirpClients.Json

abbrev Layout := (indent : Nat) → List Char

def printedEscapes : List (Char × Char) :=
  [('"', '"'), ('\\', '\\'), ('\x08', 'b'), ('\t', 't'), ('\n', 'n'), ('\x0c', 'f'), ('\r', 'r')]

def hexDigit (n : Nat) : Char := Nat.digitChar (n % 16)

def printChar (c : Char) : List Char :=
  match printedEscapes.lookup c with
  | some letter => ['\\', letter]
  | none =>
    if c.toNat < 0x20 then ['\\', 'u', '0', '0', hexDigit (c.toNat / 16), hexDigit c.toNat]
    else [c]

def printText (s : String) : List Char := '"' :: s.toList.flatMap printChar ++ ['"']

/-- What stands between an opening and a closing bracket, each part on a line of its own. -/
def printParts (first last : Char) (parts : List Layout) : Layout := fun indent =>
  match parts with
  | [] => [first, last]
  | part :: rest =>
    let newLine (n : Nat) : List Char := '\n' :: List.replicate n ' '
    first :: newLine (indent + 2) ++ part (indent + 2)
      ++ rest.flatMap (fun part => ',' :: newLine (indent + 2) ++ part (indent + 2))
      ++ newLine indent ++ [last]

namespace Layout

def text (s : String) : Layout := fun _ => printText s

def list (items : List Layout) : Layout := printParts '[' ']' items

def object (members : List (String × Layout)) : Layout :=
  printParts '\x7b' '\x7d' <| members.map fun (name, value) =>
    fun indent => printText name ++ [':', ' '] ++ value indent

def print (layout : Layout) : String := String.ofList (layout 0)

end Layout
end TwirpClients.Json
