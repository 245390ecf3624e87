import Mathlib.Data.List.TakeWhile
import TwirpClients.Text.Split

/-!
# What the parts of a text are made of

The characters of the parts between separators are those of the text that are no separators, in
order. Cutting at the first separator and taking what is behind the last one are described in the
same way, by what they do to the characters.
-/

namespace TwirpClients.Text

theorem length_splitOnP (sep : Char → Bool) (cs : List Char) :
    (cs.splitOnP sep).length = cs.countP sep + 1 := by
  induction cs with
  | nil => rfl
  | cons c rest ih =>
    rw [List.splitOnP_cons_eq_if_modifyHead]
    split
    · next hc => rw [List.length_cons, ih, List.countP_cons_of_pos hc]
    · next hc => rw [List.length_modifyHead, ih, List.countP_cons_of_neg hc]

/-- The parts together have all characters but the separators. -/
theorem flatten_splitOnP (sep : Char → Bool) (cs : List Char) :
    (cs.splitOnP sep).flatten = cs.filter (!sep ·) := by
  induction cs with
  | nil => rfl
  | cons c rest ih =>
    rw [List.splitOnP_cons_eq_if_modifyHead]
    split
    · next hc =>
      rw [List.flatten_cons, List.nil_append, ih, List.filter_cons_of_neg (by simpa using hc)]
    · next hc =>
      obtain ⟨first, others, hparts⟩ := List.exists_cons_of_ne_nil (List.splitOnP_ne_nil sep rest)
      rw [hparts, List.flatten_cons] at ih
      rw [hparts, List.modifyHead_cons, List.flatten_cons, List.cons_append, ih,
        List.filter_cons_of_pos (by simpa using hc)]

theorem mem_splitOnP_iff {sep : Char → Bool} {cs : List Char} {d : Char} :
    (∃ part ∈ cs.splitOnP sep, d ∈ part) ↔ d ∈ cs ∧ sep d = false := by
  rw [← List.mem_flatten, flatten_splitOnP, List.mem_filter, Bool.not_eq_true']

theorem mem_splitOn_iff {sep : Char} {cs : List Char} {d : Char} :
    (∃ part ∈ cs.splitOn sep, d ∈ part) ↔ d ∈ cs ∧ d ≠ sep := by
  rw [List.splitOn_eq_splitOnP, mem_splitOnP_iff, beq_eq_false_iff_ne]

theorem sep_notMem_of_mem_splitOn {sep : Char} {cs part : List Char} (h : part ∈ cs.splitOn sep) :
    sep ∉ part :=
  fun hsep => (mem_splitOn_iff.1 ⟨part, h, hsep⟩).2 rfl

/-- Texts without separators are the parts of what they make when joined with one. -/
theorem splitOnP_intercalate {sep : Char → Bool} {c : Char} (hc : sep c = true)
    {parts : List (List Char)} (hne : parts ≠ []) (h : ∀ part ∈ parts, ∀ d ∈ part, sep d = false) :
    ([c].intercalate parts).splitOnP sep = parts := by
  induction parts with
  | nil => exact absurd rfl hne
  | cons part rest ih =>
    obtain ⟨hpart, hrest⟩ := List.forall_mem_cons.1 h
    by_cases hnil : rest = []
    · rw [hnil, List.intercalate_singleton, List.splitOnP_eq_singleton hpart]
    · rw [List.intercalate_cons_of_ne_nil hnil, List.append_assoc, List.singleton_append,
        List.splitOnP_append_cons_of_forall_mem hpart c hc, ih hnil hrest]

theorem mem_intercalate {sep : List Char} {parts : List (List Char)} {d : Char}
    (h : d ∈ sep.intercalate parts) : d ∈ sep ∨ ∃ part ∈ parts, d ∈ part := by
  induction parts with
  | nil => cases h
  | cons part rest ih =>
    by_cases hnil : rest = []
    · rw [hnil, List.intercalate_singleton] at h
      exact Or.inr ⟨part, List.mem_cons_self, h⟩
    · rw [List.intercalate_cons_of_ne_nil hnil, List.mem_append, List.mem_append] at h
      rcases h with (hpart | hsep) | hrest
      · exact Or.inr ⟨part, List.mem_cons_self, hpart⟩
      · exact Or.inl hsep
      · rcases ih hrest with hsep | ⟨other, hother, hd⟩
        · exact Or.inl hsep
        · exact Or.inr ⟨other, List.mem_cons_of_mem _ hother, hd⟩

theorem cut?_append_cons {sep : Char} {before : List Char} (h : sep ∉ before)
    (after : List Char) : cut? sep (before ++ sep :: after) = some (before, after) := by
  have hb : ∀ c ∈ before, (c != sep) = true := fun c hc => by
    simpa using fun he : c = sep => h (he ▸ hc)
  rw [cut?, List.dropWhile_append_of_pos hb, List.takeWhile_append_of_pos hb]
  simp

theorem cut?_eq_none_iff {sep : Char} {cs : List Char} : cut? sep cs = none ↔ sep ∉ cs := by
  have hnil : cs.dropWhile (· != sep) = [] ↔ sep ∉ cs := by
    rw [List.dropWhile_eq_nil_iff]
    constructor
    · intro h hmem
      simpa using h sep hmem
    · intro h c hc
      simpa using fun heq : c = sep => h (heq ▸ hc)
  rw [← hnil, cut?]
  cases cs.dropWhile (· != sep) <;> simp

theorem cut?_eq_some_iff {sep : Char} {cs before after : List Char} :
    cut? sep cs = some (before, after) ↔ sep ∉ before ∧ cs = before ++ sep :: after := by
  constructor
  · intro h
    have hmem : sep ∈ cs := by
      by_contra hnot
      rw [cut?_eq_none_iff.2 hnot] at h
      cases h
    obtain ⟨first, rest, rfl, hfirst⟩ := List.eq_append_cons_of_mem hmem
    rw [cut?_append_cons hfirst] at h
    cases h
    exact ⟨hfirst, rfl⟩
  · rintro ⟨hbefore, rfl⟩
    exact cut?_append_cons hbefore after

theorem mem_afterLast {sep : Char} {cs : List Char} {d : Char} (h : d ∈ afterLast sep cs) :
    d ∈ cs ∧ d ≠ sep := by
  rw [afterLast, List.mem_reverse] at h
  have hs : (d != sep) = true := List.all_eq_true.1 List.all_takeWhile d h
  exact ⟨List.mem_reverse.1 ((List.takeWhile_sublist _).mem h), by simpa using hs⟩

theorem takeWhile_reverse_append {sep : Char} {cs : List Char} (h : sep ∉ cs)
    (rest : List Char) :
    (cs.reverse ++ rest).takeWhile (· != sep) = cs.reverse ++ rest.takeWhile (· != sep) := by
  apply List.takeWhile_append_of_pos
  intro c hc
  have hne : c ≠ sep := fun heq => h (heq ▸ List.mem_reverse.1 hc)
  simpa using hne

theorem afterLast_of_notMem {sep : Char} {cs : List Char} (h : sep ∉ cs) :
    afterLast sep cs = cs := by
  have htake := takeWhile_reverse_append h []
  simp only [List.append_nil, List.takeWhile_nil] at htake
  rw [afterLast, htake, List.reverse_reverse]

theorem afterLast_append_cons {sep : Char} {after : List Char} (h : sep ∉ after)
    (before : List Char) : afterLast sep (before ++ sep :: after) = after := by
  have hreverse : (before ++ sep :: after).reverse = after.reverse ++ sep :: before.reverse := by
    simp
  rw [afterLast, hreverse, takeWhile_reverse_append h]
  simp

theorem afterLast_append {sep : Char} {before after : List Char}
    (hend : before = [] ∨ before.getLast? = some sep) (h : sep ∉ after) :
    afterLast sep (before ++ after) = after := by
  rcases hend with rfl | hlast
  · exact afterLast_of_notMem h
  · obtain ⟨start, rfl⟩ := List.getLast?_eq_some_iff.1 hlast
    rw [List.append_assoc, List.singleton_append]
    exact afterLast_append_cons h start

theorem uptoLast_append {sep : Char} {before after : List Char}
    (hend : before = [] ∨ before.getLast? = some sep) (h : sep ∉ after) :
    uptoLast sep (before ++ after) = before := by
  have hwhole := uptoLast_append_afterLast sep (before ++ after)
  rw [afterLast_append hend h] at hwhole
  exact List.append_cancel_right hwhole

theorem uptoLast_ends (sep : Char) (cs : List Char) :
    uptoLast sep cs = [] ∨ (uptoLast sep cs).getLast? = some sep := by
  unfold uptoLast
  cases hrest : cs.reverse.dropWhile (· != sep) with
  | nil => exact Or.inl rfl
  | cons c rest =>
    have hhead := List.head?_dropWhile_not (· != sep) cs.reverse
    rw [hrest] at hhead
    have hc : c = sep := by simpa using hhead
    right
    simp [hc]

theorem afterLast_eq_nil_iff {sep : Char} {cs : List Char} :
    afterLast sep cs = [] ↔ cs = [] ∨ cs.getLast? = some sep := by
  rcases List.eq_nil_or_concat cs with rfl | ⟨before, last, rfl⟩
  · simp [afterLast]
  · by_cases h : last = sep <;> simp [afterLast, h]

/-- The last part is what stands behind the last separator. -/
theorem getLast?_splitOn (sep : Char) (cs : List Char) :
    (cs.splitOn sep).getLast? = some (afterLast sep cs) := by
  by_cases h : sep ∈ cs
  · obtain ⟨after, before, hreverse, hafter⟩ := List.eq_append_cons_of_mem (List.mem_reverse.2 h)
    have hcs : cs = before.reverse ++ sep :: after.reverse := by
      rw [← List.reverse_reverse cs, hreverse]
      simp
    have hnot : sep ∉ after.reverse := fun hmem => hafter (List.mem_reverse.1 hmem)
    rw [hcs, List.splitOn_append_cons_self, List.splitOn_eq_singleton hnot,
      afterLast_append_cons hnot, List.getLast?_concat]
  · rw [List.splitOn_eq_singleton h, afterLast_of_notMem h]
    rfl

/-- A text is cut at its last separator in one way only. -/
theorem append_cons_inj_of_notMem_right {sep : Char} {before before' after after' : List Char}
    (h : sep ∉ after) (h' : sep ∉ after')
    (heq : before ++ sep :: after = before' ++ sep :: after') :
    before = before' ∧ after = after' := by
  have hafter : after = after' := by
    rw [← afterLast_append_cons h before, heq, afterLast_append_cons h']
  rw [hafter] at heq
  exact ⟨List.append_cancel_right heq, hafter⟩

theorem append_ne_append_of_head? {start start' rest rest' : String} {c c' : Char}
    (h : start.toList.head? = some c) (h' : start'.toList.head? = some c') (hne : c ≠ c') :
    start ++ rest ≠ start' ++ rest' := by
  intro heq
  have hhead := congrArg (·.toList.head?) heq
  simp only [String.toList_append, List.head?_append, h, h', Option.some_or] at hhead
  exact hne (Option.some.inj hhead)

end TwirpClients.Text
