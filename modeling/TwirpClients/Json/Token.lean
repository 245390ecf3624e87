/-!
# Tokens of JSON text

Strict JSON: no byte order mark, no comments, no control characters inside a string, numbers
by the grammar. A number is kept as it is written, since no use is made of its value.

A string may spell a character as one or two code units of UTF-16. Units that do not pair up
belong to no character; such a string is a token all the same, but it has no text.
-/

namespace TwirpClients.Json

inductive Token where
  | objectStart
  | objectEnd
  | listStart
  | listEnd
  | colon
  | comma
  | null
  | bool (value : Bool)
  | number (text : String)
  | text (text : Option String)
deriving DecidableEq, Repr

def isSpace (c : Char) : Bool := c == ' ' || c == '\n' || c == '\t' || c == '\r'

/-- A piece of a string: a character that stands for itself or has an escape of its own, or a
code unit given by number. -/
inductive Piece where
  | char (c : Char)
  | unit (n : Nat)
deriving DecidableEq, Repr

def hexValue? (c : Char) : Option Nat :=
  if c.isDigit then some (c.toNat - '0'.toNat)
  else if 'a' ≤ c ∧ c ≤ 'f' then some (c.toNat - 'a'.toNat + 10)
  else if 'A' ≤ c ∧ c ≤ 'F' then some (c.toNat - 'A'.toNat + 10)
  else none

def escapeLetters : List (Char × Char) :=
  [('"', '"'), ('\\', '\\'), ('/', '/'), ('b', '\x08'), ('f', '\x0c'), ('n', '\n'), ('r', '\r'),
    ('t', '\t')]

/-- Reads the rest of a string behind its opening quote, up to the closing one. -/
def pieces? : List Char → Option (List Piece × List Char)
  | [] => none
  | '"' :: rest => some ([], rest)
  | '\\' :: 'u' :: a :: b :: c :: d :: rest => do
    let unit := (((← hexValue? a) * 16 + (← hexValue? b)) * 16 + (← hexValue? c)) * 16
      + (← hexValue? d)
    let (pieces, rest) ← pieces? rest
    some (.unit unit :: pieces, rest)
  | '\\' :: letter :: rest => do
    let c ← escapeLetters.lookup letter
    let (pieces, rest) ← pieces? rest
    some (.char c :: pieces, rest)
  | c :: rest =>
    if c = '\\' ∨ c.toNat < 0x20 then none
    else do
      let (pieces, rest) ← pieces? rest
      some (.char c :: pieces, rest)

def isHighUnit (n : Nat) : Bool := 0xD800 ≤ n && n < 0xDC00

def isLowUnit (n : Nat) : Bool := 0xDC00 ≤ n && n < 0xE000

/-- The characters that the pieces spell, if every code unit belongs to one. -/
def spelled? : List Piece → Option (List Char)
  | [] => some []
  | .char c :: rest => (spelled? rest).map (c :: ·)
  | .unit high :: rest =>
    if isHighUnit high then
      match rest with
      | .unit low :: rest =>
        if isLowUnit low then
          (spelled? rest).map
            (Char.ofNat (0x10000 + (high - 0xD800) * 0x400 + (low - 0xDC00)) :: ·)
        else none
      | _ => none
    else if isLowUnit high then none
    else (spelled? rest).map (Char.ofNat high :: ·)

def digits? (cs : List Char) : Option (List Char × List Char) :=
  match cs.takeWhile Char.isDigit with
  | [] => none
  | ds => some (ds, cs.dropWhile Char.isDigit)

def integer? : List Char → Option (List Char × List Char)
  | '0' :: rest => some (['0'], rest)
  | cs => digits? cs

def fraction? : List Char → Option (List Char × List Char)
  | '.' :: rest => (digits? rest).map fun (ds, rest) => ('.' :: ds, rest)
  | cs => some ([], cs)

def exponent? : List Char → Option (List Char × List Char)
  | 'e' :: rest | 'E' :: rest =>
    match rest with
    | '+' :: rest => (digits? rest).map fun (ds, rest) => ('e' :: '+' :: ds, rest)
    | '-' :: rest => (digits? rest).map fun (ds, rest) => ('e' :: '-' :: ds, rest)
    | rest => (digits? rest).map fun (ds, rest) => ('e' :: ds, rest)
  | cs => some ([], cs)

def number? (cs : List Char) : Option (List Char × List Char) := do
  let (sign, cs) := match cs with
    | '-' :: rest => (['-'], rest)
    | cs => ([], cs)
  let (integer, cs) ← integer? cs
  let (fraction, cs) ← fraction? cs
  let (exponent, cs) ← exponent? cs
  some (sign ++ integer ++ fraction ++ exponent, cs)

/-- The first token of a text that does not start with a space, and what follows it. -/
def token? : List Char → Option (Token × List Char)
  | '\x7b' :: rest => some (.objectStart, rest)
  | '\x7d' :: rest => some (.objectEnd, rest)
  | '[' :: rest => some (.listStart, rest)
  | ']' :: rest => some (.listEnd, rest)
  | ':' :: rest => some (.colon, rest)
  | ',' :: rest => some (.comma, rest)
  | 'n' :: 'u' :: 'l' :: 'l' :: rest => some (.null, rest)
  | 't' :: 'r' :: 'u' :: 'e' :: rest => some (.bool true, rest)
  | 'f' :: 'a' :: 'l' :: 's' :: 'e' :: rest => some (.bool false, rest)
  | '"' :: rest => (pieces? rest).map fun (pieces, rest) =>
    (.text ((spelled? pieces).map String.ofList), rest)
  | cs => (number? cs).map fun (text, rest) => (.number (String.ofList text), rest)

/-- All tokens of a text. A token takes at least one character. -/
def tokens? (cs : List Char) : Option (List Token) :=
  match cs.dropWhile isSpace with
  | [] => some []
  | c :: rest =>
    match token? (c :: rest) with
    | none => none
    | some (token, rest) =>
      if rest.length < cs.length then (tokens? rest).map (token :: ·) else none
termination_by cs.length

end TwirpClients.Json
