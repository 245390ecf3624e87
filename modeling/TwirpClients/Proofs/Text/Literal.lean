import Mathlib.Data.Bool.AllAny
import TwirpClients.Text.Literal

/-!
# Literals by the rules of the language

Two sets of rules for the body of a string literal, both without the functions that write and scan
one. The first says how a body is scanned; it leaves open what becomes of a backslash that starts
none of the known escapes, because no such backslash is ever written. The second is the grammar of
regular string literals, in which a line cannot end inside the quotes.
-/

namespace TwirpClients.Text.Literal

/-- A scanner ends at a quote, reads five escapes, and takes every character that is neither a
quote nor a backslash as it is. -/
structure IsScanner (scan : List Char → Option (List Char × List Char)) : Prop where
  quote : ∀ rest, scan ('"' :: rest) = some ([], rest)
  escape : ∀ c letter rest,
    (c, letter) ∈ [('\\', '\\'), ('"', '"'), ('\n', 'n'), ('\r', 'r'), ('\t', 't')] →
    scan ('\\' :: letter :: rest) = (scan rest).map fun (cs, after) => (c :: cs, after)
  other : ∀ c rest, c ≠ '"' → c ≠ '\\' →
    scan (c :: rest) = (scan rest).map fun (cs, after) => (c :: cs, after)

theorem mem_escapes_of_unescape? {c letter : Char} (h : unescape? letter = some c) :
    (c, letter) ∈ escapes := by
  obtain ⟨entry, hfind, rfl⟩ := Option.map_eq_some_iff.1 h
  have hletter : entry.2 = letter := by simpa using List.find?_some hfind
  rw [← hletter]
  exact List.mem_of_find?_eq_some hfind

theorem isScanner_scan : IsScanner scan where
  quote _ := rfl
  escape c letter rest h := by
    have hletter : unescape? letter = some c := by
      simp only [List.mem_cons, Prod.mk.injEq, List.not_mem_nil, or_false] at h
      rcases h with ⟨rfl, rfl⟩ | ⟨rfl, rfl⟩ | ⟨rfl, rfl⟩ | ⟨rfl, rfl⟩ | ⟨rfl, rfl⟩ <;> rfl
    rw [scan, hletter]
    cases scan rest <;> rfl
  other c rest hquote hbackslash := by
    rw [scan.eq_5 _ _ hquote (by simp_all) (by simp_all)]
    cases scan rest <;> rfl

/-- Every scanner agrees with `scan` where that has an answer. -/
theorem IsScanner.eq_of_scan {scan' : List Char → Option (List Char × List Char)}
    (h : IsScanner scan') {cs : List Char} {result : List Char × List Char}
    (hscan : scan cs = some result) : scan' cs = some result := by
  fun_induction scan cs generalizing result with
  | case1 => cases hscan
  | case2 rest => rw [h.quote, hscan]
  | case3 letter rest ih =>
    obtain ⟨c, hletter, hrest⟩ := Option.bind_eq_some_iff.1 hscan
    obtain ⟨⟨cs, after⟩, hcs, hresult⟩ := Option.bind_eq_some_iff.1 hrest
    rw [h.escape c letter rest (mem_escapes_of_unescape? hletter), ih hcs, Option.map_some]
    exact hresult
  | case4 => cases hscan
  | case5 c rest hquote hescape hlone ih =>
    obtain ⟨⟨cs, after⟩, hcs, hresult⟩ := Option.bind_eq_some_iff.1 hscan
    have hbackslash : c ≠ '\\' := by
      rintro rfl
      cases rest with
      | nil => exact hlone rfl rfl
      | cons letter rest => exact hescape letter rest rfl rfl
    rw [h.other c rest hquote hbackslash, ih hcs, Option.map_some]
    exact hresult

theorem IsScanner.scan_encode {scan' : List Char → Option (List Char × List Char)}
    (h : IsScanner scan') (s t : List Char) : scan' (encode s ++ '"' :: t) = some (s, t) :=
  h.eq_of_scan (Literal.scan_encode s t)

/-- The characters at which a line of source text ends. -/
def newLines : List Char := ['\n', '\r', '\x85', '\u2028', '\u2029']

/-- The characters that make an escape with a backslash in front of them. -/
def escapeLetters : List Char := ['\'', '"', '\\', '0', 'a', 'b', 'f', 'n', 'r', 't', 'v']

/-- The bodies of regular string literals. -/
inductive IsBody : List Char → Prop
  | nil : IsBody []
  | char {c : Char} {cs : List Char} : c ≠ '"' → c ≠ '\\' → c ∉ newLines → IsBody cs →
      IsBody (c :: cs)
  | escape {letter : Char} {cs : List Char} : letter ∈ escapeLetters → IsBody cs →
      IsBody ('\\' :: letter :: cs)

theorem IsBody.notMem_newLines {cs : List Char} (h : IsBody cs) : ∀ c ∈ cs, c ∉ newLines := by
  have hletters : ∀ letter ∈ escapeLetters, letter ∉ newLines :=
    List.all_iff_forall_prop.1 (by decide)
  induction h with
  | nil => simp
  | char _ _ hline _ ih => exact List.forall_mem_cons.2 ⟨hline, ih⟩
  | escape hletter _ ih =>
    exact List.forall_mem_cons.2 ⟨by decide, List.forall_mem_cons.2 ⟨hletters _ hletter, ih⟩⟩

theorem isBody_encodeChar_append {c : Char} (h : c ∈ newLines → c = '\n' ∨ c = '\r')
    {cs : List Char} (hcs : IsBody cs) : IsBody (encodeChar c ++ cs) := by
  cases hlookup : escapes.lookup c with
  | none =>
    obtain ⟨hbackslash, hquote, hfeed, hreturn, -⟩ := lookup_escapes_eq_none_iff.1 hlookup
    have hline : c ∉ newLines := fun hmem => (h hmem).elim hfeed hreturn
    rw [encodeChar, hlookup]
    exact .char hquote hbackslash hline hcs
  | some letter =>
    have hletters : ∀ entry ∈ escapes, entry.2 ∈ escapeLetters :=
      List.all_iff_forall_prop.1 (by decide)
    rw [encodeChar, hlookup]
    exact .escape (hletters _ (mem_escapes_of_unescape? (unescape?_of_lookup hlookup))) hcs

/-- What is written is a body, as long as the only ends of lines in the text are those that have
an escape. -/
theorem isBody_encode {cs : List Char} (h : ∀ c ∈ cs, c ∈ newLines → c = '\n' ∨ c = '\r') :
    IsBody (encode cs) := by
  induction cs with
  | nil => exact .nil
  | cons c cs ih =>
    obtain ⟨hc, hcs⟩ := List.forall_mem_cons.1 h
    rw [encode, List.flatMap_cons, ← encode]
    exact isBody_encodeChar_append hc (ih hcs)

theorem ne_of_mem_encode {cs : List Char} {c : Char} (h : c ∈ encode cs) : c ≠ '\n' ∧ c ≠ '\r' := by
  obtain ⟨d, -, hc⟩ := List.mem_flatMap.1 h
  cases hlookup : escapes.lookup d with
  | none =>
    obtain ⟨-, -, hfeed, hreturn, -⟩ := lookup_escapes_eq_none_iff.1 hlookup
    rw [encodeChar, hlookup, List.mem_singleton] at hc
    rw [hc]
    exact ⟨hfeed, hreturn⟩
  | some letter =>
    have hletters : ∀ entry ∈ escapes, ∀ c ∈ ['\\', entry.2], c ≠ '\n' ∧ c ≠ '\r' := by
      simp [escapes]
    rw [encodeChar, hlookup] at hc
    exact hletters _ (mem_escapes_of_unescape? (unescape?_of_lookup hlookup)) c hc

end TwirpClients.Text.Literal
