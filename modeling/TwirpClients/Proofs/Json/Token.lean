import TwirpClients.Json.Printer
import TwirpClients.Json.Token

/-!
# Tokens of printed text

A text lexes to tokens if these come first whatever stands behind it (`Lexes`). Texts one after the
other then lex to their tokens one after the other, and white space lexes to nothing. For this a
token has to be shorter than what it is taken from, or else the tokens would end with it.

A printed string lexes to one token with that very text. Each of its characters is printed as
one piece of a string, be it the character itself, a letter behind a backslash or a code unit below
U+0020, which needs no second one to be a character. None of them is a quote by itself.
-/

namespace TwirpClients.Json

section Length

variable {cs rest : List Char}

theorem length_of_pieces? {ps : List Piece} (h : pieces? cs = some (ps, rest)) :
    rest.length < cs.length := by
  fun_induction pieces? cs generalizing ps with
  | case1 => cases h
  | case2 after =>
    cases h
    simp
  | case3 a b c d after ih =>
    simp only [Option.bind_eq_bind, Option.bind_eq_some_iff] at h
    obtain ⟨_, -, _, -, _, -, _, -, ⟨ps', rest'⟩, hps, heq⟩ := h
    cases heq
    have hrest : rest'.length < after.length := ih hps
    simp only [List.length_cons]
    omega
  | case4 letter after hu ih =>
    simp only [Option.bind_eq_bind, Option.bind_eq_some_iff] at h
    obtain ⟨_, -, ⟨ps', rest'⟩, hps, heq⟩ := h
    cases heq
    have hrest : rest'.length < after.length := ih hps
    simp only [List.length_cons]
    omega
  | case5 c after hquote hunit hletter hc => cases h
  | case6 c after hquote hunit hletter hc ih =>
    simp only [Option.bind_eq_bind, Option.bind_eq_some_iff] at h
    obtain ⟨⟨ps', rest'⟩, hps, heq⟩ := h
    cases heq
    have hrest : rest'.length < after.length := ih hps
    simp only [List.length_cons]
    omega

theorem length_of_digits? {ds : List Char} (h : digits? cs = some (ds, rest)) :
    rest.length < cs.length := by
  have hsplit : (cs.takeWhile Char.isDigit).length + (cs.dropWhile Char.isDigit).length
      = cs.length := by
    rw [← List.length_append, List.takeWhile_append_dropWhile]
  unfold digits? at h
  split at h
  · cases h
  · next hne =>
    cases h
    have hpos := List.length_pos_iff.2 hne
    omega

theorem length_of_map_digits? {f : List Char × List Char → List Char × List Char}
    {ds : List Char} (h : (digits? cs).map f = some (ds, rest))
    (hf : ∀ result, (f result).2 = result.2) : rest.length < cs.length := by
  obtain ⟨⟨ds', rest'⟩, hds, heq⟩ := Option.map_eq_some_iff.1 h
  have hrest : rest = rest' := by
    exact (congrArg Prod.snd heq).symm.trans (hf (ds', rest'))
  rw [hrest]
  exact length_of_digits? hds

theorem length_of_integer? {ds : List Char} (h : integer? cs = some (ds, rest)) :
    rest.length < cs.length := by
  unfold integer? at h
  split at h
  · cases h
    simp
  · exact length_of_digits? h

theorem length_of_fraction? {ds : List Char} (h : fraction? cs = some (ds, rest)) :
    rest.length ≤ cs.length := by
  unfold fraction? at h
  split at h
  · have hlength := length_of_map_digits? h fun _ => rfl
    simp only [List.length_cons]
    omega
  · cases h
    simp

theorem length_of_exponent? {ds : List Char} (h : exponent? cs = some (ds, rest)) :
    rest.length ≤ cs.length := by
  unfold exponent? at h
  split at h
  case h_3 =>
    cases h
    simp
  all_goals
    split at h
    all_goals
      have hlength := length_of_map_digits? h fun _ => rfl
      simp only [List.length_cons] at hlength ⊢
      omega

theorem length_of_number? {text : List Char} (h : number? cs = some (text, rest)) :
    rest.length < cs.length := by
  unfold number? at h
  split at h
  next sign unsigned hsign =>
  have hunsigned : unsigned.length ≤ cs.length := by
    split at hsign
    · cases hsign
      simp
    · cases hsign
      simp
  simp only [Option.bind_eq_bind, Option.bind_eq_some_iff] at h
  obtain ⟨⟨integer, afterInteger⟩, hinteger, ⟨fraction, afterFraction⟩, hfraction,
    ⟨exponent, afterExponent⟩, hexponent, heq⟩ := h
  cases heq
  have h₁ : afterInteger.length < unsigned.length := length_of_integer? hinteger
  have h₂ : afterFraction.length ≤ afterInteger.length := length_of_fraction? hfraction
  have h₃ : afterExponent.length ≤ afterFraction.length := length_of_exponent? hexponent
  change afterExponent.length < cs.length
  omega

theorem length_of_token? {token : Token} (h : token? cs = some (token, rest)) :
    rest.length < cs.length := by
  unfold token? at h
  split at h
  case h_10 =>
    obtain ⟨⟨ps, rest'⟩, hps, heq⟩ := Option.map_eq_some_iff.1 h
    cases heq
    have hlength := length_of_pieces? hps
    simp only [List.length_cons]
    omega
  case h_11 =>
    obtain ⟨⟨text, rest'⟩, htext, heq⟩ := Option.map_eq_some_iff.1 h
    cases heq
    exact length_of_number? htext
  all_goals
    cases h
    simp only [List.length_cons]
    omega

end Length

theorem tokens?_eq (cs : List Char) :
    tokens? cs = match cs.dropWhile isSpace with
      | [] => some []
      | c :: rest =>
        (token? (c :: rest)).bind fun result => (tokens? result.2).map (result.1 :: ·) := by
  rw [tokens?]
  cases hdrop : cs.dropWhile isSpace with
  | nil => rfl
  | cons c rest =>
    cases htoken : token? (c :: rest) with
    | none => simp only [htoken, Option.bind_none]
    | some result =>
      obtain ⟨token, after⟩ := result
      have hafter := length_of_token? htoken
      have hle := (List.dropWhile_sublist isSpace (l := cs)).length_le
      rw [hdrop] at hle
      have hshorter : after.length < cs.length := by omega
      simp only [htoken, Option.bind_some, hshorter, if_true]

def Lexes (cs : List Char) (tokens : List Token) : Prop :=
  ∀ rest, tokens? (cs ++ rest) = (tokens? rest).map (tokens ++ ·)

theorem Lexes.append {cs ds : List Char} {first second : List Token} (h : Lexes cs first)
    (h' : Lexes ds second) : Lexes (cs ++ ds) (first ++ second) := by
  intro rest
  rw [List.append_assoc, h, h', Option.map_map]
  congr 1
  funext tokens
  exact (List.append_assoc first second tokens).symm

theorem lexes_of_isSpace {cs : List Char} (h : ∀ c ∈ cs, isSpace c = true) : Lexes cs [] := by
  intro rest
  rw [tokens?_eq, tokens?_eq, List.dropWhile_append_of_pos h]
  simp

theorem lexes_of_token? {c : Char} {cs : List Char} {token : Token} (hc : isSpace c = false)
    (h : ∀ rest, token? (c :: cs ++ rest) = some (token, rest)) : Lexes (c :: cs) [token] := by
  intro rest
  have hdrop : (c :: cs ++ rest).dropWhile isSpace = c :: cs ++ rest := by
    rw [List.cons_append, List.dropWhile_cons_of_neg (by simp [hc])]
  have htoken := h rest
  rw [List.cons_append] at hdrop htoken ⊢
  rw [tokens?_eq, hdrop]
  simp [htoken]

section Text

theorem printedEscapes_letters : ∀ pair ∈ printedEscapes,
    pair.2 ≠ 'u' ∧ escapeLetters.lookup pair.2 = some pair.1 := by decide

theorem hexValue?_digitChar : ∀ n < 16, hexValue? (Nat.digitChar n) = some n := by decide

theorem hexValue?_hexDigit (n : Nat) : hexValue? (hexDigit n) = some (n % 16) :=
  hexValue?_digitChar (n % 16) (Nat.mod_lt n (by decide))

/-- A piece that the text is read as, and that stands for the character. -/
structure IsPieceOf (c : Char) (cs : List Char) (piece : Piece) : Prop where
  read : ∀ rest, pieces? (cs ++ rest)
    = (pieces? rest).map fun result => (piece :: result.1, result.2)
  spelled : ∀ pieces, spelled? (piece :: pieces) = (spelled? pieces).map (c :: ·)

theorem isPieceOf_letter {c letter : Char} (h : printedEscapes.lookup c = some letter) :
    IsPieceOf c ['\\', letter] (.char c) := by
  obtain ⟨before, after, hpair, -⟩ := List.lookup_eq_some_iff.1 h
  have hmem : (c, letter) ∈ printedEscapes := by simp [hpair]
  obtain ⟨hne, hlookup⟩ := printedEscapes_letters _ hmem
  refine ⟨?_, fun _ => rfl⟩
  intro rest
  rw [List.cons_append, List.singleton_append,
    pieces?.eq_4 letter rest fun _ _ _ _ _ hu _ => hne hu]
  simp only [hlookup]
  cases pieces? rest <;> rfl

theorem isPieceOf_unit {c : Char} (h : c.toNat < 0x20) :
    IsPieceOf c ['\\', 'u', '0', '0', hexDigit (c.toNat / 16), hexDigit c.toNat]
      (.unit c.toNat) := by
  have hzero : hexValue? '0' = some 0 := by decide
  have hhigh : isHighUnit c.toNat = false := by
    simp only [isHighUnit, Bool.and_eq_false_iff, decide_eq_false_iff_not]
    omega
  have hlow : isLowUnit c.toNat = false := by
    simp only [isLowUnit, Bool.and_eq_false_iff, decide_eq_false_iff_not]
    omega
  constructor
  · intro rest
    have hunit : ((0 * 16 + 0) * 16 + c.toNat / 16 % 16) * 16 + c.toNat % 16 = c.toNat := by omega
    simp only [List.cons_append, List.nil_append, pieces?.eq_3, hzero, hexValue?_hexDigit]
    simp only [Option.bind_eq_bind, Option.bind_some, hunit]
    cases pieces? rest <;> rfl
  · intro pieces
    rw [spelled?.eq_def]
    simp [hhigh, hlow, Char.ofNat_toNat]

theorem isPieceOf_self {c : Char} (h : printedEscapes.lookup c = none) (hc : ¬ c.toNat < 0x20) :
    IsPieceOf c [c] (.char c) := by
  have hnone := List.lookup_eq_none_iff.1 h
  have hquote : c ≠ '"' := by simpa using hnone ('"', '"') (by decide)
  have hslash : c ≠ '\\' := by simpa using hnone ('\\', '\\') (by decide)
  refine ⟨?_, fun _ => rfl⟩
  intro rest
  rw [List.singleton_append,
    pieces?.eq_5 c rest hquote (fun _ _ _ _ _ hb _ => hslash hb) (fun _ _ hb _ => hslash hb)]
  simp only [hslash, hc, or_self, if_false]
  cases pieces? rest <;> rfl

theorem exists_isPieceOf_printChar (c : Char) : ∃ piece, IsPieceOf c (printChar c) piece := by
  unfold printChar
  split
  · next letter hletter => exact ⟨_, isPieceOf_letter hletter⟩
  · next hnone =>
    split
    · next hc => exact ⟨_, isPieceOf_unit hc⟩
    · next hc => exact ⟨_, isPieceOf_self hnone hc⟩

theorem exists_pieces_printed (cs : List Char) : ∃ pieces,
    (∀ rest, pieces? (cs.flatMap printChar ++ '"' :: rest) = some (pieces, rest)) ∧
      spelled? pieces = some cs := by
  induction cs with
  | nil => exact ⟨[], fun _ => rfl, rfl⟩
  | cons c cs ih =>
    obtain ⟨piece, hpiece⟩ := exists_isPieceOf_printChar c
    obtain ⟨pieces, hread, hspelled⟩ := ih
    refine ⟨piece :: pieces, ?_, ?_⟩
    · intro rest
      rw [List.flatMap_cons, List.append_assoc, hpiece.read, hread, Option.map_some]
    · rw [hpiece.spelled, hspelled, Option.map_some]

theorem lexes_printText (s : String) : Lexes (printText s) [.text (some s)] := by
  obtain ⟨pieces, hread, hspelled⟩ := exists_pieces_printed s.toList
  rw [printText, List.cons_append]
  apply lexes_of_token? rfl
  intro rest
  have htoken : token? ('"' :: (s.toList.flatMap printChar ++ '"' :: rest))
      = (pieces? (s.toList.flatMap printChar ++ '"' :: rest)).map fun result =>
        (.text ((spelled? result.1).map String.ofList), result.2) := rfl
  rw [List.cons_append, List.append_assoc, List.singleton_append, htoken, hread]
  simp [hspelled]

end Text

end TwirpClients.Json
