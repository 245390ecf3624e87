import Mathlib.Data.List.Forall2
import TwirpClients.Text.Visible

/-!
# What the visible form of a text is

What may stand for a character is a relation here (`StandsFor`), in which a code point is written in
base sixteen by the rule that makes the digits one by one. Each text has exactly one visible form,
and it is the one that is computed.
-/

namespace TwirpClients.Text

/-- The number in base sixteen, with small letters and without a zero in front. -/
inductive InHex : Nat → List Char → Prop
  | digit {d : Nat} {c : Char} : "0123456789abcdef".toList[d]? = some c → InHex d [c]
  | append {n d : Nat} {cs : List Char} {c : Char} : 0 < n → InHex n cs →
      "0123456789abcdef".toList[d]? = some c → InHex (16 * n + d) (cs ++ [c])

inductive StandsFor : List Char → Char → Prop
  | tab : StandsFor ['\\', 't'] '\t'
  | carriageReturn : StandsFor ['\\', 'r'] '\r'
  | lineFeed : StandsFor ['\\', 'n'] '\n'
  | mark {c : Char} : c ∈ ['\'', '"', '\\'] → StandsFor ['\\', c] c
  | itself {c : Char} : ' ' ≤ c → c ≤ '~' → c ∉ ['\'', '"', '\\'] → StandsFor [c] c
  | code {c : Char} {digits : List Char} : c < ' ' ∨ '~' < c → c ∉ ['\t', '\r', '\n'] →
      InHex c.toNat digits → StandsFor (['\\', 'u', '\x7b'] ++ digits ++ ['\x7d']) c

def IsVisibleOf (shown cs : List Char) : Prop :=
  ∃ parts, List.Forall₂ StandsFor parts cs ∧ shown = parts.flatten

theorem hexDigit_eq_some_iff {d : Nat} {c : Char} :
    "0123456789abcdef".toList[d]? = some c ↔ d < 16 ∧ c = d.digitChar := by
  have hdigits : "0123456789abcdef".toList = (List.range 16).map Nat.digitChar := by decide
  rw [hdigits, List.getElem?_map]
  by_cases hd : d < 16
  · simp [hd, eq_comm]
  · simp [hd]

theorem InHex.eq_toDigits {n : Nat} {cs : List Char} (h : InHex n cs) :
    cs = Nat.toDigits 16 n := by
  induction h with
  | digit hdigit =>
    obtain ⟨hd, rfl⟩ := hexDigit_eq_some_iff.1 hdigit
    rw [Nat.toDigits_of_lt_base hd]
  | append hn _ hdigit ih =>
    obtain ⟨hd, rfl⟩ := hexDigit_eq_some_iff.1 hdigit
    rw [ih, ← Nat.toDigits_of_lt_base hd, Nat.toDigits_append_toDigits (by decide) hn hd]

theorem inHex_toDigits (n : Nat) : InHex n (Nat.toDigits 16 n) := by
  induction n using Nat.strongRecOn with
  | ind n ih =>
    by_cases hn : n < 16
    · rw [Nat.toDigits_of_lt_base hn]
      exact .digit (hexDigit_eq_some_iff.2 ⟨hn, rfl⟩)
    · -- the remainder is the last digit, and the digits before it are those of the quotient
      have hlast : n % 16 < 16 := Nat.mod_lt n (by decide)
      have hfront : 0 < n / 16 := by omega
      have hdigits := Nat.toDigits_append_toDigits (by decide) hfront hlast
      rw [Nat.div_add_mod, Nat.toDigits_of_lt_base hlast] at hdigits
      have happend := InHex.append hfront (ih (n / 16) (by omega))
        (hexDigit_eq_some_iff.2 ⟨hlast, rfl⟩)
      rwa [Nat.div_add_mod, hdigits] at happend

theorem standsFor_visibleChar (c : Char) : StandsFor (visibleChar c) c := by
  unfold visibleChar
  split_ifs with htab hreturn hfeed hmark hprintable
  · exact htab ▸ .tab
  · exact hreturn ▸ .carriageReturn
  · exact hfeed ▸ .lineFeed
  · exact .mark (by simpa using hmark)
  · exact .itself hprintable.1 hprintable.2 (by simpa using hmark)
  · have hcode : c < ' ' ∨ '~' < c := by
      rw [← Char.not_le, ← Char.not_le, ← not_and_or]
      exact hprintable
    exact .code hcode (by simp [htab, hreturn, hfeed]) (inHex_toDigits _)

theorem StandsFor.eq_visibleChar {shown : List Char} {c : Char} (h : StandsFor shown c) :
    shown = visibleChar c := by
  cases h with
  | tab => decide
  | carriageReturn => decide
  | lineFeed => decide
  | mark hmark =>
    simp only [List.mem_cons, List.not_mem_nil, or_false] at hmark
    rcases hmark with rfl | rfl | rfl <;> decide
  | itself hfirst hlast hmark =>
    have hletter : ∀ d < ' ', c ≠ d := by
      rintro d hd rfl
      exact Char.not_lt.2 hfirst hd
    have hprintable : 0x20 ≤ c.toNat ∧ c.toNat ≤ 0x7E := ⟨hfirst, hlast⟩
    simp only [List.mem_cons, List.not_mem_nil, or_false] at hmark
    unfold visibleChar
    rw [if_neg (hletter _ (by decide)), if_neg (hletter _ (by decide)),
      if_neg (hletter _ (by decide)), if_neg hmark, if_pos hprintable]
  | code hcode hletter hdigits =>
    have hprintable : ¬ (0x20 ≤ c.toNat ∧ c.toNat ≤ 0x7E) := by
      rw [not_and_or]
      exact hcode.imp Char.not_le.2 Char.not_le.2
    have hmark : ¬ (c = '\'' ∨ c = '"' ∨ c = '\\') := by
      rintro (rfl | rfl | rfl) <;> exact hprintable (by decide)
    simp only [List.mem_cons, List.not_mem_nil, or_false, not_or] at hletter
    obtain ⟨htab, hreturn, hfeed⟩ := hletter
    unfold visibleChar
    rw [if_neg htab, if_neg hreturn, if_neg hfeed, if_neg hmark, if_neg hprintable,
      hdigits.eq_toDigits]

theorem standsFor_iff {shown : List Char} {c : Char} :
    StandsFor shown c ↔ shown = visibleChar c := by
  constructor
  · exact StandsFor.eq_visibleChar
  · rintro rfl
    exact standsFor_visibleChar c

theorem forall₂_iff_eq_map {α β : Type} {R : β → α → Prop} {f : α → β}
    (h : ∀ b a, R b a ↔ b = f a) {bs : List β} {as : List α} :
    List.Forall₂ R bs as ↔ bs = as.map f := by
  have hR : R = fun b a => b = f a := by
    funext b a
    exact propext (h b a)
  rw [hR, ← List.forall₂_map_right_iff, List.forall₂_eq_eq_eq]

theorem isVisibleOf_iff {shown cs : List Char} : IsVisibleOf shown cs ↔ shown = visible cs := by
  have hparts (parts : List (List Char)) :
      List.Forall₂ StandsFor parts cs ↔ parts = cs.map visibleChar := by
    apply forall₂_iff_eq_map
    exact fun _ _ => standsFor_iff
  simp only [IsVisibleOf, hparts, exists_eq_left, visible, List.flatMap_def]

example : visible "it's\t\u2028\x00".toList
    = "it\\'s\\t\\u\x7b2028\x7d\\u\x7b0\x7d".toList := by decide

end TwirpClients.Text
