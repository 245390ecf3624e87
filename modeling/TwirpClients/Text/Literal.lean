/-!
# String literals

The body of a C# string literal. `Literal.encode` writes a text so that it can stand
between two quotes; `Literal.scan` reads a body up to the quote that ends it. Scanning
what was written gives the text back and leaves what follows the quote (`scan_encode`).
-/

namespace TwirpClients.Text.Literal

def escapes : List (Char × Char) :=
  [('\\', '\\'), ('"', '"'), ('\n', 'n'), ('\r', 'r'), ('\t', 't')]

def encodeChar (c : Char) : List Char :=
  match escapes.lookup c with
  | some letter => ['\\', letter]
  | none => [c]

def encode (cs : List Char) : List Char := cs.flatMap encodeChar

def unescape? (letter : Char) : Option Char :=
  (escapes.find? (·.2 == letter)).map (·.1)

/-- Reads a literal body: the text it stands for and what follows the first quote that is not
escaped. There is none if that quote is missing or a backslash starts no known escape. -/
def scan : List Char → Option (List Char × List Char)
  | [] => none
  | '"' :: rest => some ([], rest)
  | '\\' :: letter :: rest => do
      let c ← unescape? letter
      let (cs, after) ← scan rest
      some (c :: cs, after)
  | ['\\'] => none
  | c :: rest => do
      let (cs, after) ← scan rest
      some (c :: cs, after)

theorem encode_append (s t : List Char) : encode (s ++ t) = encode s ++ encode t :=
  List.flatMap_append

theorem lookup_escapes_eq_none_iff {c : Char} :
    escapes.lookup c = none ↔ c ≠ '\\' ∧ c ≠ '"' ∧ c ≠ '\n' ∧ c ≠ '\r' ∧ c ≠ '\t' := by
  simp [escapes, List.lookup_eq_none_iff]

/-- The letters of the escapes differ, so a letter tells its character. -/
theorem unescape?_of_lookup {c letter : Char} (h : escapes.lookup c = some letter) :
    unescape? letter = some c := by
  have hmem : (c, letter) ∈ escapes := by
    obtain ⟨before, after, hl, -⟩ := List.lookup_eq_some_iff.1 h
    simp [hl]
  simp only [escapes, List.mem_cons, Prod.mk.injEq, List.not_mem_nil, or_false] at hmem
  rcases hmem with ⟨rfl, rfl⟩ | ⟨rfl, rfl⟩ | ⟨rfl, rfl⟩ | ⟨rfl, rfl⟩ | ⟨rfl, rfl⟩ <;> rfl

theorem scan_encodeChar_append (c : Char) (rest : List Char) :
    scan (encodeChar c ++ rest) = (scan rest).map fun (cs, after) => (c :: cs, after) := by
  cases h : escapes.lookup c with
  | none =>
    obtain ⟨h₁, h₂, -⟩ := lookup_escapes_eq_none_iff.1 h
    have hc : encodeChar c = [c] := by simp only [encodeChar, h]
    rw [hc, List.singleton_append, scan.eq_5 _ _ h₂ (by simp_all) (by simp_all)]
    cases scan rest <;> rfl
  | some letter =>
    have hc : encodeChar c = ['\\', letter] := by simp only [encodeChar, h]
    rw [hc, List.cons_append, List.singleton_append, scan, unescape?_of_lookup h]
    cases scan rest <;> rfl

theorem scan_encode (s t : List Char) : scan (encode s ++ '"' :: t) = some (s, t) := by
  induction s with
  | nil => rfl
  | cons c s ih =>
    rw [encode, List.flatMap_cons, List.append_assoc, scan_encodeChar_append, ← encode, ih]
    rfl

end TwirpClients.Text.Literal
