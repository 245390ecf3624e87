import Mathlib.Data.List.Basic
import Mathlib.Data.List.TakeWhile
import TwirpClients.Text.Blank

/-!
# Trimming

The blanks are listed one by one here and the control characters told by their bounds. A text that
neither starts nor ends with a blank is as it was after trimming. In general trimming is described
by what it takes away: blanks at the two ends, as many as there are (`IsTrimOf`).
-/

namespace TwirpClients.Text

def whiteSpace : List Char :=
  ['\t', '\n', '\x0b', '\x0c', '\r', ' ', '\x85', '\xa0', '\u1680', '\u2000', '\u2001', '\u2002',
    '\u2003', '\u2004', '\u2005', '\u2006', '\u2007', '\u2008', '\u2009', '\u200a', '\u2028',
    '\u2029', '\u202f', '\u205f', '\u3000']

theorem inRanges_eq_false_iff {ranges : List (Nat × Nat)} {c : Char} :
    inRanges ranges c = false ↔ ∀ range ∈ ranges, c.toNat < range.1 ∨ range.2 < c.toNat := by
  unfold inRanges
  rw [List.any_eq_false]
  apply forall₂_congr
  intro range _
  simp only [Bool.and_eq_true, decide_eq_true_eq]
  omega

theorem inRanges_iff_mem {ranges : List (Nat × Nat)} {c : Char} :
    inRanges ranges c = true ↔
      c.toNat ∈ ranges.flatMap fun range => List.range' range.1 (range.2 + 1 - range.1) := by
  rw [← not_iff_not, Bool.not_eq_true, inRanges_eq_false_iff, List.mem_flatMap]
  simp only [List.mem_range'_1, not_exists, not_and]
  apply forall₂_congr
  intro range _
  omega

theorem isBlank_iff {c : Char} : isBlank c = true ↔ c ∈ whiteSpace := by
  have hcodes : (blankRanges.flatMap fun range => List.range' range.1 (range.2 + 1 - range.1))
      = whiteSpace.map Char.toNat := by decide
  rw [isBlank, inRanges_iff_mem, hcodes]
  exact List.mem_map_of_injective fun _ _ => Char.toNat_inj.1

theorem isBlank_eq_false_iff {c : Char} : isBlank c = false ↔ c ∉ whiteSpace := by
  rw [← isBlank_iff, Bool.not_eq_true]

theorem isControl_eq_false_iff {c : Char} :
    isControl c = false ↔ ' ' ≤ c ∧ ¬ ('\x7f' ≤ c ∧ c ≤ '\x9f') := by
  have hcodes : isControl c = false ↔
      0x20 ≤ c.toNat ∧ ¬ (0x7F ≤ c.toNat ∧ c.toNat ≤ 0x9F) := by
    rw [isControl, inRanges_eq_false_iff]
    simp only [controlRanges, List.forall_mem_cons, List.not_mem_nil, IsEmpty.forall_iff,
      implies_true, and_true]
    omega
  exact hcodes

theorem dropWhile_eq_self {p : Char → Bool} {cs : List Char}
    (h : ∀ c ∈ cs.head?, p c = false) : cs.dropWhile p = cs := by
  cases cs with
  | nil => rfl
  | cons c rest =>
    have hc : ¬ p c = true := by simp [h c rfl]
    rw [List.dropWhile_cons_of_neg hc]

theorem trim_eq_self {cs : List Char} (hfirst : ∀ c ∈ cs.head?, isBlank c = false)
    (hlast : ∀ c ∈ cs.getLast?, isBlank c = false) : trim cs = cs := by
  have hreverse : ∀ c ∈ cs.reverse.head?, isBlank c = false := by
    rw [List.head?_reverse]
    exact hlast
  rw [trim, dropWhile_eq_self hfirst, dropWhile_eq_self hreverse, List.reverse_reverse]

theorem not_of_mem_head?_dropWhile {p : Char → Bool} {cs : List Char} {c : Char}
    (h : c ∈ (cs.dropWhile p).head?) : p c = false := by
  have hnot := List.head?_dropWhile_not p cs
  rw [Option.mem_def.1 h] at hnot
  exact hnot

/-- The text without the blanks at its two ends. -/
structure IsTrimOf (core cs : List Char) : Prop where
  around : ∃ front back, cs = front ++ (core ++ back) ∧
    (∀ c ∈ front, c ∈ whiteSpace) ∧ ∀ c ∈ back, c ∈ whiteSpace
  first : ∀ c ∈ core.head?, c ∉ whiteSpace
  last : ∀ c ∈ core.getLast?, c ∉ whiteSpace

theorem isTrimOf_trim (cs : List Char) : IsTrimOf (trim cs) cs := by
  have hcut : cs.dropWhile isBlank
      = trim cs ++ ((cs.dropWhile isBlank).reverse.takeWhile isBlank).reverse := by
    rw [trim, ← List.reverse_append, List.takeWhile_append_dropWhile, List.reverse_reverse]
  have hblank : ∀ ds : List Char, ∀ c ∈ ds.takeWhile isBlank, c ∈ whiteSpace :=
    fun ds c hc => isBlank_iff.1 (List.all_eq_true.1 List.all_takeWhile c hc)
  constructor
  · refine ⟨cs.takeWhile isBlank, ((cs.dropWhile isBlank).reverse.takeWhile isBlank).reverse, ?_,
      hblank cs, fun c hc => hblank _ c (List.mem_reverse.1 hc)⟩
    rw [← hcut, List.takeWhile_append_dropWhile]
  · intro c hc
    have hhead : (cs.dropWhile isBlank).head? = some c := by
      rw [hcut, List.head?_append, Option.mem_def.1 hc, Option.some_or]
    exact isBlank_eq_false_iff.1 (not_of_mem_head?_dropWhile hhead)
  · intro c hc
    rw [trim, List.getLast?_reverse] at hc
    exact isBlank_eq_false_iff.1 (not_of_mem_head?_dropWhile hc)

example : trim "\u3000 a b\x85\n".toList = "a b".toList := by decide
example : trim "\u200Ba".toList = "\u200Ba".toList := by decide

theorem IsTrimOf.eq_trim {core cs : List Char} (h : IsTrimOf core cs) : core = trim cs := by
  obtain ⟨front, back, rfl, hfront, hback⟩ := h.around
  have hfront' : ∀ c ∈ front, isBlank c = true := fun c hc => isBlank_iff.2 (hfront c hc)
  have hback' : ∀ c ∈ back, isBlank c = true := fun c hc => isBlank_iff.2 (hback c hc)
  have hreverse : ∀ c ∈ back.reverse, isBlank c = true :=
    fun c hc => hback' c (List.mem_reverse.1 hc)
  rw [trim, List.dropWhile_append_of_pos hfront']
  cases core with
  | nil =>
    have hnil : back.dropWhile isBlank = [] := List.dropWhile_eq_nil_iff.2 hback'
    rw [List.nil_append, hnil]
    rfl
  | cons first rest =>
    have hfirst : ∀ c ∈ (first :: rest ++ back).head?, isBlank c = false :=
      fun c hc => isBlank_eq_false_iff.2 (h.first c hc)
    have hlast : ∀ c ∈ (first :: rest).reverse.head?, isBlank c = false := by
      rw [List.head?_reverse]
      exact fun c hc => isBlank_eq_false_iff.2 (h.last c hc)
    rw [dropWhile_eq_self hfirst, List.reverse_append, List.dropWhile_append_of_pos hreverse,
      dropWhile_eq_self hlast, List.reverse_reverse]

theorem isTrimOf_iff {core cs : List Char} : IsTrimOf core cs ↔ core = trim cs := by
  constructor
  · exact IsTrimOf.eq_trim
  · rintro rfl
    exact isTrimOf_trim cs

end TwirpClients.Text
