import TwirpClients.Proofs.Text.Blank
import TwirpClients.Text.UpperCase

/-!
# Where upper case leads

The upper case of a character is the character itself or consists of letters of the
tables. The letters of the tables are read off once, by evaluation, as facts about code
points; everything else follows from where a letter of `upper` can come from (`mem_upper`).

What upper case begins with is in upper case already. No run leads to a code point that is in the
tables itself, and since these ascend, that takes one walk along a table for each of its runs.
-/

namespace TwirpClients.Text

theorem CaseRun.upper?_eq_some_iff {run : CaseRun} {m n : Nat} :
    run.upper? m = some n ↔ run.first ≤ m ∧ m ≤ run.last ∧ (m - run.first) % run.step = 0 ∧
      run.target + (m - run.first) = n := by
  simp only [CaseRun.upper?, Option.ite_none_right_eq_some, Option.some.injEq, and_assoc]

theorem upper_cases (c : Char) :
    (∃ letters, (c.toNat, letters) ∈ caseExpansions ∧ upper c = letters.map Char.ofNat) ∨
      (∃ run ∈ caseRuns, ∃ n, run.upper? c.toNat = some n ∧ upper c = [Char.ofNat n]) ∨
      upper c = [c] := by
  unfold upper
  split
  · next letters hl =>
    obtain ⟨before, after, he, -⟩ := List.lookup_eq_some_iff.1 hl
    exact Or.inl ⟨letters, by simp [he], rfl⟩
  · split
    · next n hn =>
      obtain ⟨run, hr, hu⟩ := List.exists_of_findSome?_eq_some hn
      exact Or.inr (Or.inl ⟨run, hr, n, hu, rfl⟩)
    · exact Or.inr (Or.inr rfl)

theorem mem_upper {c d : Char} (h : d ∈ upper c) :
    d = c ∨ (∃ entry ∈ caseExpansions, ∃ n ∈ entry.2, d = Char.ofNat n) ∨
      ∃ run ∈ caseRuns, ∃ n, run.upper? c.toNat = some n ∧ d = Char.ofNat n := by
  rcases upper_cases c with ⟨letters, he, hc⟩ | ⟨run, hr, n, hn, hc⟩ | hc
  · rw [hc] at h
    obtain ⟨n, hn, rfl⟩ := List.mem_map.1 h
    exact Or.inr (Or.inl ⟨_, he, n, hn, rfl⟩)
  · rw [hc] at h
    exact Or.inr (Or.inr ⟨run, hr, n, hn, List.mem_singleton.1 h⟩)
  · rw [hc] at h
    exact Or.inl (List.mem_singleton.1 h)

def IsLetterCode (n : Nat) : Prop := 0x41 ≤ n ∧ n.isValidChar

instance (n : Nat) : Decidable (IsLetterCode n) := inferInstanceAs (Decidable (_ ∧ _))

theorem toNat_ofNat_of_isLetterCode {n : Nat} (h : IsLetterCode n) : (Char.ofNat n).toNat = n := by
  rw [Char.ofNat, dif_pos h.2]
  rfl

theorem caseExpansions_letterCodes : ∀ entry ∈ caseExpansions, ∀ n ∈ entry.2, IsLetterCode n := by
  decide +kernel

theorem caseRuns_targets : ∀ run ∈ caseRuns, 0x41 ≤ run.target ∧
    (run.target + (run.last - run.first) < 0xD800 ∨
      0xDFFF < run.target ∧ run.target + (run.last - run.first) < 0x110000) := by
  decide +kernel

theorem CaseRun.upper?_letterCode {run : CaseRun} (hr : run ∈ caseRuns) {m n : Nat}
    (h : run.upper? m = some n) : IsLetterCode n := by
  -- a run starts and ends on the same side of the surrogates, so all of its targets are characters
  obtain ⟨hlow, hside⟩ := caseRuns_targets run hr
  obtain ⟨hfirst, hlast, -, hn⟩ := CaseRun.upper?_eq_some_iff.1 h
  refine ⟨by omega, ?_⟩
  unfold Nat.isValidChar
  omega

/-- Upper case never introduces a character below the capital letters: no control
character, blank, dot, dash or slash comes from another character. -/
theorem eq_or_le_of_mem_upper {c d : Char} (h : d ∈ upper c) : d = c ∨ 0x41 ≤ d.toNat := by
  rcases mem_upper h with rfl | ⟨entry, he, n, hn, rfl⟩ | ⟨run, hr, n, hn, rfl⟩
  · exact Or.inl rfl
  · have hc := caseExpansions_letterCodes entry he n hn
    exact Or.inr ((toNat_ofNat_of_isLetterCode hc).symm ▸ hc.1)
  · have hc := CaseRun.upper?_letterCode hr hn
    exact Or.inr ((toNat_ofNat_of_isLetterCode hc).symm ▸ hc.1)

/-- The code points of blanks and of the underscore, which are the characters that the tables have
letters on both sides of. -/
def gapRanges : List (Nat × Nat) := (0x5F, 0x5F) :: blankRanges

theorem caseExpansions_gaps : ∀ entry ∈ caseExpansions, ∀ n ∈ entry.2, ∀ range ∈ gapRanges,
    n < range.1 ∨ range.2 < n := by
  decide +kernel

theorem caseRuns_gaps : ∀ run ∈ caseRuns, ∀ range ∈ gapRanges,
    run.target + (run.last - run.first) < range.1 ∨ range.2 < run.target := by
  decide +kernel

/-- Upper case introduces no blank and no underscore either. -/
theorem eq_or_not_gap_of_mem_upper {c d : Char} (h : d ∈ upper c) :
    d = c ∨ inRanges gapRanges d = false := by
  rcases mem_upper h with rfl | ⟨entry, he, n, hn, rfl⟩ | ⟨run, hr, n, hn, rfl⟩
  · exact Or.inl rfl
  · right
    apply inRanges_eq_false_iff.2
    rw [toNat_ofNat_of_isLetterCode (caseExpansions_letterCodes entry he n hn)]
    exact caseExpansions_gaps entry he n hn
  · right
    apply inRanges_eq_false_iff.2
    rw [toNat_ofNat_of_isLetterCode (CaseRun.upper?_letterCode hr hn)]
    intro range hrange
    have hgap := caseRuns_gaps run hr range hrange
    obtain ⟨hfirst, hlast, -, hn⟩ := CaseRun.upper?_eq_some_iff.1 hn
    omega

theorem isLower_iff_toNat {c : Char} : c.isLower = true ↔ 0x61 ≤ c.toNat ∧ c.toNat ≤ 0x7A := by
  change (decide ('a'.val ≤ c.val) && decide (c.val ≤ 'z'.val)) = true ↔ _
  simp [UInt32.le_iff_toNat_le]

theorem upper_lowerCodes :
    ∀ n < 0x7B, 0x61 ≤ n → upper (Char.ofNat n) = [Char.ofNat (n - 0x20)] := by
  decide +kernel

theorem upper_of_isLower {c : Char} (h : c.isLower = true) :
    ∃ capital, upper c = [capital] ∧ capital.toNat + 0x20 = c.toNat := by
  have hcode := isLower_iff_toNat.1 h
  have hupper := upper_lowerCodes c.toNat (by omega) hcode.1
  rw [Char.ofNat_toNat] at hupper
  refine ⟨Char.ofNat (c.toNat - 0x20), hupper, ?_⟩
  rw [toNat_ofNat_of_isLetterCode ⟨by omega, Or.inl (by omega)⟩]
  omega

theorem mem_of_mem_capitalize {cs : List Char} {d : Char} (hd : d.toNat < 0x41)
    (h : d ∈ capitalize cs) : d ∈ cs := by
  cases cs with
  | nil => cases h
  | cons c rest =>
    rcases List.mem_append.1 h with hu | hr
    · rcases eq_or_le_of_mem_upper hu with rfl | hle
      · exact List.mem_cons_self
      · omega
    · exact List.mem_cons_of_mem c hr

/-! ## Upper case of upper case -/

theorem CaseRun.upper?_eq_none_iff {run : CaseRun} {n : Nat} :
    run.upper? n = none ↔ (run.first ≤ n → n ≤ run.last → (n - run.first) % run.step ≠ 0) := by
  simp only [CaseRun.upper?, ite_eq_right_iff, reduceCtorEq, imp_false, not_and]

/-- Whether each run starts above the bound and above the runs before it. -/
def ascend (bound : Nat) : List CaseRun → Bool
  | [] => true
  | run :: runs => bound < run.first && run.first ≤ run.last && ascend run.last runs

/-- Whether runs that ascend have none of the code points `low`, `low + step`, ..., `high`. A run
that does not lie on one side of these has to have them between its own. -/
def avoid (low high step : Nat) : List CaseRun → Bool
  | [] => true
  | run :: runs =>
    if run.last < low then avoid low high step runs
    else high < run.first || ((low == high || step == 2) && run.step == 2 &&
      (low + run.first) % 2 == 1 && high < run.last)

theorem lt_of_ascend {bound : Nat} {runs : List CaseRun} (h : ascend bound runs = true) :
    ∀ run ∈ runs, bound < run.first := by
  induction runs generalizing bound with
  | nil => simp
  | cons run runs ih =>
    simp only [ascend, Bool.and_eq_true, decide_eq_true_eq] at h
    obtain ⟨⟨hfirst, hlast⟩, hruns⟩ := h
    rw [List.forall_mem_cons]
    refine ⟨hfirst, fun other hother => ?_⟩
    have hbehind := ih hruns other hother
    omega

theorem upper?_of_avoid {low high step n : Nat} (hlow : low ≤ n) (hhigh : n ≤ high)
    (hstep : (n - low) % step = 0) {bound : Nat} {runs : List CaseRun}
    (hascend : ascend bound runs = true) (h : avoid low high step runs = true) :
    ∀ run ∈ runs, run.upper? n = none := by
  induction runs generalizing bound with
  | nil => simp
  | cons run runs ih =>
    simp only [ascend, Bool.and_eq_true, decide_eq_true_eq] at hascend
    obtain ⟨⟨-, hrun⟩, hruns⟩ := hascend
    have hbehind : n ≤ run.last → ∀ other ∈ runs, other.upper? n = none := by
      intro hn other hother
      have hother := lt_of_ascend hruns other hother
      rw [CaseRun.upper?_eq_none_iff]
      omega
    unfold avoid at h
    rw [List.forall_mem_cons, CaseRun.upper?_eq_none_iff]
    split at h
    · exact ⟨by omega, ih hruns h⟩
    · simp only [Bool.or_eq_true, Bool.and_eq_true, decide_eq_true_eq, beq_iff_eq] at h
      rcases h with hfirst | ⟨⟨⟨heven, htwo⟩, hodd⟩, hlast⟩
      · exact ⟨by omega, hbehind (by omega)⟩
      · -- the code points are an even number above `low`, and those of the run an odd number
        have hparity : (n - low) % 2 = 0 := by
          rcases heven with hsingle | hstep2
          · have hn : n - low = 0 := by omega
            rw [hn]
          · rwa [hstep2] at hstep
        rw [htwo]
        exact ⟨by omega, hbehind (by omega)⟩

/-- The characters with an expansion, as runs of one code point. -/
def expansionRuns : List CaseRun := caseExpansions.map fun entry => ⟨entry.1, entry.1, 1, entry.1⟩

theorem caseRuns_ascend : ascend 0 caseRuns = true := by
  decide +kernel

theorem expansionRuns_ascend : ascend 0 expansionRuns = true := by
  decide +kernel

theorem caseRuns_avoid : caseRuns.all (fun run =>
    avoid run.target (run.target + (run.last - run.first)) run.step caseRuns &&
      avoid run.target (run.target + (run.last - run.first)) run.step expansionRuns) = true := by
  decide +kernel

theorem caseExpansions_avoid : caseExpansions.all (fun entry =>
    entry.2.head?.any fun n => avoid n n 1 caseRuns && avoid n n 1 expansionRuns) = true := by
  decide +kernel

theorem upper_eq_self_of_avoid {c : Char} {low high step : Nat} (hlow : low ≤ c.toNat)
    (hhigh : c.toNat ≤ high) (hstep : (c.toNat - low) % step = 0)
    (hruns : avoid low high step caseRuns = true)
    (hexpansions : avoid low high step expansionRuns = true) : upper c = [c] := by
  have hlookup : caseExpansions.lookup c.toNat = none := by
    apply List.lookup_eq_none_iff.2
    intro entry hentry
    have hnone := upper?_of_avoid hlow hhigh hstep expansionRuns_ascend hexpansions
      ⟨entry.1, entry.1, 1, entry.1⟩ (List.mem_map.2 ⟨entry, hentry, rfl⟩)
    rw [CaseRun.upper?_eq_none_iff] at hnone
    have hne : c.toNat ≠ entry.1 := by
      intro heq
      apply hnone (Nat.le_of_eq heq.symm) (Nat.le_of_eq heq)
      rw [Nat.mod_one]
    simpa using hne
  have hfind : caseRuns.findSome? (·.upper? c.toNat) = none :=
    List.findSome?_eq_none_iff.2 (upper?_of_avoid hlow hhigh hstep caseRuns_ascend hruns)
  simp only [upper, hlookup, hfind]

theorem upper_of_firstLetter {code : Nat} {letters : List Nat}
    (h : (code, letters) ∈ caseExpansions) :
    ∃ n ns, letters = n :: ns ∧ upper (Char.ofNat n) = [Char.ofNat n] := by
  have hfirst := List.all_eq_true.1 caseExpansions_avoid (code, letters) h
  obtain ⟨n, hhead, havoid⟩ := (Option.any_eq_true _ _).1 hfirst
  obtain ⟨hruns, hexpansions⟩ := Bool.and_eq_true_iff.1 havoid
  obtain ⟨ns, hletters⟩ : ∃ ns, letters = n :: ns := List.head?_eq_some_iff.1 hhead
  have hmem : n ∈ letters := by simp [hletters]
  have hcode := toNat_ofNat_of_isLetterCode (caseExpansions_letterCodes _ h n hmem)
  refine ⟨n, ns, hletters, ?_⟩
  apply upper_eq_self_of_avoid _ _ _ hruns hexpansions
  · omega
  · omega
  · rw [hcode, Nat.sub_self]

theorem upper_of_target {run : CaseRun} (hrun : run ∈ caseRuns) {m n : Nat}
    (h : run.upper? m = some n) : upper (Char.ofNat n) = [Char.ofNat n] := by
  have hcode := toNat_ofNat_of_isLetterCode (CaseRun.upper?_letterCode hrun h)
  obtain ⟨hruns, hexpansions⟩ :=
    Bool.and_eq_true_iff.1 (List.all_eq_true.1 caseRuns_avoid run hrun)
  obtain ⟨hfirst, hlast, hstep, hn⟩ := CaseRun.upper?_eq_some_iff.1 h
  have hdistance : n - run.target = m - run.first := by omega
  apply upper_eq_self_of_avoid _ _ _ hruns hexpansions
  · omega
  · omega
  · rw [hcode, hdistance, hstep]

/-- Upper case is never empty, and its first character is its own upper case. -/
theorem exists_upper_eq_cons (c : Char) : ∃ d ds, upper c = d :: ds ∧ upper d = [d] := by
  rcases upper_cases c with ⟨letters, hentry, hc⟩ | ⟨run, hrun, n, hn, hc⟩ | hc
  · obtain ⟨n, ns, rfl, hn⟩ := upper_of_firstLetter hentry
    exact ⟨Char.ofNat n, ns.map Char.ofNat, hc, hn⟩
  · exact ⟨Char.ofNat n, [], hc, upper_of_target hrun hn⟩
  · exact ⟨c, [], hc, hc⟩

theorem capitalize_capitalize (cs : List Char) : capitalize (capitalize cs) = capitalize cs := by
  cases cs with
  | nil => rfl
  | cons c rest =>
    obtain ⟨d, ds, hupper, hself⟩ := exists_upper_eq_cons c
    simp only [capitalize, hupper, List.cons_append, hself, List.nil_append]

end TwirpClients.Text
