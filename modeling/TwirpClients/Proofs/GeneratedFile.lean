import TwirpClients.GeneratedFile
import TwirpClients.Proofs.Text.Blank
import TwirpClients.Proofs.Text.Split
import TwirpClients.Proofs.Text.UpperCase

/-!
# Names of generated files

A name is the directory of the proto file as it is spelled, and behind its last slash words without
breaks and a fixed ending. So the directory can be read off the name again. The
words cannot in general, because the breaks between them are gone. They can if each of them starts
with a small letter and goes on with small letters and digits: then the capitals of the name
are where the words start.
-/

namespace TwirpClients.GeneratedFile

section Shape

variable {cs : List Char} {c : Char}

theorem mem_of_mem_stem (h : c ∈ stem cs) : c ∈ cs := by
  unfold stem at h
  split at h
  · exact h
  · rw [← Text.uptoLast_append_afterLast '.' cs]
    exact List.mem_append_left _ ((List.dropLast_sublist _).mem h)

theorem not_isWordBreak_of_mem_upper {d : Char} (hd : isWordBreak d = false)
    (h : c ∈ Text.upper d) : isWordBreak c = false := by
  rcases Text.eq_or_le_of_mem_upper h with rfl | hle
  · exact hd
  · rcases Text.eq_or_not_gap_of_mem_upper h with rfl | hgap
    · exact hd
    · have hblank : Text.isBlank c = false := (Bool.or_eq_false_iff.1 hgap).2
      have hunderscore : c ≠ '_' := by
        rintro rfl
        exact absurd hgap (by decide)
      have hdash : c ≠ '-' := by
        rintro rfl
        exact absurd hle (by decide)
      have hdot : c ≠ '.' := by
        rintro rfl
        exact absurd hle (by decide)
      simp [isWordBreak, hblank, hunderscore, hdash, hdot]

theorem not_isWordBreak_of_mem_runTogether (h : c ∈ runTogether cs) : isWordBreak c = false := by
  obtain ⟨word, hword, hc⟩ := List.mem_flatMap.1 h
  have hword := (List.mem_filter.1 hword).1
  cases word with
  | nil => cases hc
  | cons first rest =>
    have hbreak : ∀ d ∈ first :: rest, isWordBreak d = false :=
      fun d hd => (Text.mem_splitOnP_iff.1 ⟨_, hword, hd⟩).2
    rcases List.mem_append.1 hc with hupper | hrest
    · exact not_isWordBreak_of_mem_upper (hbreak first List.mem_cons_self) hupper
    · exact hbreak c (List.mem_cons_of_mem first hrest)

theorem slash_notMem_runTogether (h : '/' ∉ cs) : '/' ∉ runTogether cs := by
  intro hmem
  obtain ⟨word, hword, hc⟩ := List.mem_flatMap.1 hmem
  have hword := (List.mem_filter.1 hword).1
  exact h (Text.mem_splitOnP_iff.1 ⟨word, hword, Text.mem_of_mem_capitalize (by decide) hc⟩).1

/-- The part of a name behind its last slash, for a proto file with this base name. -/
def baseFor (base : List Char) : List Char := runTogether (stem base) ++ nameEnding.toList

theorem toList_nameFor (protoPath : String) :
    (nameFor protoPath).toList
      = Text.uptoLast '/' protoPath.toList ++ baseFor (Text.afterLast '/' protoPath.toList) := by
  simp [nameFor, baseFor]

theorem slash_notMem_baseFor (h : '/' ∉ cs) : '/' ∉ baseFor cs := by
  have hstem : '/' ∉ stem cs := fun hmem => h (mem_of_mem_stem hmem)
  rw [baseFor, List.mem_append, not_or]
  exact ⟨slash_notMem_runTogether hstem, by decide⟩

theorem slash_notMem_afterLast (cs : List Char) : '/' ∉ Text.afterLast '/' cs :=
  fun hmem => (Text.mem_afterLast hmem).2 rfl

theorem uptoLast_nameFor (protoPath : String) :
    Text.uptoLast '/' (nameFor protoPath).toList = Text.uptoLast '/' protoPath.toList := by
  rw [toList_nameFor]
  exact Text.uptoLast_append (Text.uptoLast_ends '/' _)
    (slash_notMem_baseFor (slash_notMem_afterLast _))

theorem afterLast_nameFor (protoPath : String) :
    Text.afterLast '/' (nameFor protoPath).toList
      = baseFor (Text.afterLast '/' protoPath.toList) := by
  rw [toList_nameFor]
  exact Text.afterLast_append (Text.uptoLast_ends '/' _)
    (slash_notMem_baseFor (slash_notMem_afterLast _))

theorem notMem_runTogether (hc : isWordBreak c = true) : c ∉ runTogether cs := by
  intro hmem
  have hnot := not_isWordBreak_of_mem_runTogether hmem
  rw [hc] at hnot
  cases hnot

theorem count_dot_baseFor (cs : List Char) : (baseFor cs).count '.' = 1 := by
  rw [baseFor, List.count_append, List.count_eq_zero.2 (notMem_runTogether rfl)]
  decide

/-- The only word break in the last part of a name is the dot of its ending. -/
theorem not_isWordBreak_of_mem_baseFor (h : c ∈ baseFor cs) (hdot : c ≠ '.') :
    isWordBreak c = false := by
  rcases List.mem_append.1 h with hwords | hending
  · exact not_isWordBreak_of_mem_runTogether hwords
  · have hall : nameEnding.toList.all (fun d => d == '.' || !isWordBreak d) = true := by decide
    simpa [hdot] using List.all_eq_true.1 hall c hending

/-- What a file may be called that is generated: one part of a path, with the fixed ending, and with
no word break but the dot in that ending. -/
structure IsClientName (name : List Char) : Prop where
  one_part : '/' ∉ name
  ending : "Twirp.cs".toList <:+ name
  one_dot : name.count '.' = 1
  no_underscore : '_' ∉ name
  no_dash : '-' ∉ name
  no_blank : ∀ c ∈ name, Text.isBlank c = false

theorem isClientName_baseFor (h : '/' ∉ cs) : IsClientName (baseFor cs) where
  one_part := slash_notMem_baseFor h
  ending := List.suffix_append _ nameEnding.toList
  one_dot := count_dot_baseFor cs
  no_underscore hmem := absurd (not_isWordBreak_of_mem_baseFor hmem (by decide)) (by decide)
  no_dash hmem := absurd (not_isWordBreak_of_mem_baseFor hmem (by decide)) (by decide)
  no_blank c hc := by
    by_cases hdot : c = '.'
    · rw [hdot]
      decide
    · exact (Bool.or_eq_false_iff.1 (not_isWordBreak_of_mem_baseFor hc hdot)).2

theorem IsClientName.proper {name : String} (h : IsClientName name.toList) :
    name ≠ "" ∧ name ≠ "." ∧ name ≠ ".." := by
  have hlength : 8 ≤ name.toList.length := h.ending.length_le
  refine ⟨?_, ?_, ?_⟩ <;> rintro rfl <;> exact absurd hlength (by decide)

theorem nameFor_eq_append (protoPath : String) :
    ∃ directory base name : String, protoPath = directory ++ base ∧ '/' ∉ base.toList ∧
      (directory = "" ∨ directory.toList.getLast? = some '/') ∧
      nameFor protoPath = directory ++ name ∧ IsClientName name.toList := by
  refine ⟨String.ofList (Text.uptoLast '/' protoPath.toList),
    String.ofList (Text.afterLast '/' protoPath.toList),
    String.ofList (baseFor (Text.afterLast '/' protoPath.toList)), ?_, ?_, ?_, ?_, ?_⟩
  · rw [← String.ofList_append, Text.uptoLast_append_afterLast, String.ofList_toList]
  · rw [String.toList_ofList]
    exact slash_notMem_afterLast _
  · rw [String.ofList_eq_empty_iff, String.toList_ofList]
    exact Text.uptoLast_ends '/' _
  · rw [← String.ofList_append, ← toList_nameFor, String.ofList_toList]
  · rw [String.toList_ofList]
    exact isClientName_baseFor (slash_notMem_afterLast _)

end Shape

section Conventional

def isSmall (c : Char) : Bool := c.isLower || c.isDigit

/-- A small letter, and small letters and digits behind it. -/
def isSmallWord : List Char → Bool
  | [] => false
  | first :: rest => first.isLower && rest.all isSmall

/-- The path of a proto file as it is usually named: a directory, small words with underscores
between them, and the extension. -/
def IsConventional (path : String) : Prop :=
  ∃ directory words, (directory = "" ∨ directory.toList.getLast? = some '/') ∧ words ≠ [] ∧
    (∀ word ∈ words, isSmallWord word = true) ∧
    path = directory ++ String.ofList (['_'].intercalate words) ++ ".proto"

variable {word : List Char} {words words' : List (List Char)} {c : Char}

theorem isSmall_iff : isSmall c = true ↔
    (0x61 ≤ c.toNat ∧ c.toNat ≤ 0x7A) ∨ (0x30 ≤ c.toNat ∧ c.toNat ≤ 0x39) := by
  rw [isSmall, Bool.or_eq_true, Text.isLower_iff_toNat]
  simp [Char.isDigit, UInt32.le_iff_toNat_le]

theorem smallCodes : ∀ n < 0x7B, isSmall (Char.ofNat n) = true →
    isWordBreak (Char.ofNat n) = false ∧ Char.ofNat n ≠ '/' := by
  decide +kernel

theorem not_isWordBreak_of_isSmall (h : isSmall c = true) : isWordBreak c = false ∧ c ≠ '/' := by
  have hbound := isSmall_iff.1 h
  have hcode := smallCodes c.toNat (by omega)
  rw [Char.ofNat_toNat] at hcode
  exact hcode h

theorem isSmall_of_mem (h : isSmallWord word = true) : ∀ c ∈ word, isSmall c = true := by
  cases word with
  | nil => simp
  | cons first rest =>
    obtain ⟨hfirst, hrest⟩ := Bool.and_eq_true_iff.1 h
    rw [List.forall_mem_cons]
    constructor
    · simp [isSmall, hfirst]
    · exact List.all_eq_true.1 hrest

theorem ne_nil_of_isSmallWord (h : isSmallWord word = true) : word ≠ [] := by
  rintro rfl
  cases h

theorem capitalize_of_isSmallWord (h : isSmallWord word = true) :
    ∃ first rest capital, word = first :: rest ∧ Text.capitalize word = capital :: rest ∧
      capital.toNat + 0x20 = first.toNat ∧ isSmall capital = false := by
  cases word with
  | nil => cases h
  | cons first rest =>
    obtain ⟨hfirst, -⟩ := Bool.and_eq_true_iff.1 h
    have hlower := Text.isLower_iff_toNat.1 hfirst
    obtain ⟨capital, hupper, hcode⟩ := Text.upper_of_isLower hfirst
    refine ⟨first, rest, capital, rfl, ?_, hcode, ?_⟩
    · rw [Text.capitalize, hupper]
      rfl
    · rw [Bool.eq_false_iff, Ne, isSmall_iff]
      omega

theorem head?_flatMap_capitalize (hwords : ∀ word ∈ words, isSmallWord word = true) :
    ∀ c ∈ (words.flatMap Text.capitalize).head?, isSmall c = false := by
  cases words with
  | nil => simp
  | cons word words =>
    obtain ⟨first, rest, capital, -, hcapital, -, hsmall⟩ :=
      capitalize_of_isSmallWord (hwords word List.mem_cons_self)
    rw [List.flatMap_cons, hcapital]
    simpa using hsmall

theorem append_inj_of_isSmall {before before' after after' : List Char}
    (hbefore : ∀ c ∈ before, isSmall c = true) (hbefore' : ∀ c ∈ before', isSmall c = true)
    (hafter : ∀ c ∈ after.head?, isSmall c = false)
    (hafter' : ∀ c ∈ after'.head?, isSmall c = false)
    (h : before ++ after = before' ++ after') : before = before' ∧ after = after' := by
  have hrest : after = after' := by
    have hdrop := congrArg (List.dropWhile isSmall) h
    rwa [List.dropWhile_append_of_pos hbefore, List.dropWhile_append_of_pos hbefore',
      Text.dropWhile_eq_self hafter, Text.dropWhile_eq_self hafter'] at hdrop
  rw [hrest] at h
  exact ⟨List.append_cancel_right h, hrest⟩

/-- Small words that are run together can be told apart, because each of them starts with a capital
and goes on without one. -/
theorem flatMap_capitalize_inj (hwords : ∀ word ∈ words, isSmallWord word = true)
    (hwords' : ∀ word ∈ words', isSmallWord word = true)
    (h : words.flatMap Text.capitalize = words'.flatMap Text.capitalize) : words = words' := by
  induction words generalizing words' with
  | nil =>
    cases words' with
    | nil => rfl
    | cons word' words' =>
      obtain ⟨first', rest', capital', -, hcapital', -⟩ :=
        capitalize_of_isSmallWord (hwords' word' List.mem_cons_self)
      rw [List.flatMap_cons, hcapital'] at h
      cases h
  | cons word words ih =>
    obtain ⟨hword, hothers⟩ := List.forall_mem_cons.1 hwords
    obtain ⟨first, rest, capital, rfl, hcapital, hcode, -⟩ := capitalize_of_isSmallWord hword
    cases words' with
    | nil =>
      rw [List.flatMap_cons, hcapital] at h
      cases h
    | cons word' words' =>
      obtain ⟨hword', hothers'⟩ := List.forall_mem_cons.1 hwords'
      obtain ⟨first', rest', capital', rfl, hcapital', hcode', -⟩ :=
        capitalize_of_isSmallWord hword'
      rw [List.flatMap_cons, hcapital, List.flatMap_cons, hcapital'] at h
      obtain ⟨rfl, hrests⟩ := List.cons.inj h
      -- both first words end where the next capital is
      obtain ⟨rfl, htexts⟩ := append_inj_of_isSmall
        (fun c hc => isSmall_of_mem hword c (List.mem_cons_of_mem first hc))
        (fun c hc => isSmall_of_mem hword' c (List.mem_cons_of_mem first' hc))
        (head?_flatMap_capitalize hothers) (head?_flatMap_capitalize hothers') hrests
      have hfirst : first = first' := Char.toNat_inj.1 (by omega)
      rw [hfirst, ih hothers hothers' htexts]

theorem runTogether_intercalate (hne : words ≠ [])
    (hwords : ∀ word ∈ words, isSmallWord word = true) :
    runTogether (['_'].intercalate words) = words.flatMap Text.capitalize := by
  have hsplit : (['_'].intercalate words).splitOnP isWordBreak = words := by
    refine Text.splitOnP_intercalate rfl hne ?_
    intro word hword c hc
    exact (not_isWordBreak_of_isSmall (isSmall_of_mem (hwords word hword) c hc)).1
  have hfilter : words.filter (!·.isEmpty) = words := by
    rw [List.filter_eq_self]
    intro word hword
    simpa using ne_nil_of_isSmallWord (hwords word hword)
  rw [runTogether, hsplit, hfilter]

theorem intercalate_ne_nil (hne : words ≠ []) (hwords : ∀ word ∈ words, isSmallWord word = true) :
    ['_'].intercalate words ≠ [] := by
  cases words with
  | nil => exact absurd rfl hne
  | cons word words =>
    have hword := ne_nil_of_isSmallWord (hwords word List.mem_cons_self)
    by_cases hnil : words = []
    · rwa [hnil, List.intercalate_singleton]
    · rw [List.intercalate_cons_of_ne_nil hnil]
      simp [hword]

theorem stem_proto {cs : List Char} (hne : cs ≠ []) : stem (cs ++ ".proto".toList) = cs := by
  have hsplit : cs ++ ".proto".toList = (cs ++ ['.']) ++ "proto".toList := by simp
  have hupto : Text.uptoLast '.' (cs ++ ".proto".toList) = cs ++ ['.'] := by
    rw [hsplit]
    exact Text.uptoLast_append (Or.inr (by simp)) (by decide)
  unfold stem
  rw [hupto, List.dropLast_concat]
  cases cs with
  | nil => exact absurd rfl hne
  | cons c cs => rfl

theorem baseFor_conventional (hne : words ≠ []) (hwords : ∀ word ∈ words, isSmallWord word = true) :
    baseFor (['_'].intercalate words ++ ".proto".toList)
      = words.flatMap Text.capitalize ++ nameEnding.toList := by
  rw [baseFor, stem_proto (intercalate_ne_nil hne hwords), runTogether_intercalate hne hwords]

theorem slash_notMem_conventional (hwords : ∀ word ∈ words, isSmallWord word = true) :
    '/' ∉ ['_'].intercalate words ++ ".proto".toList := by
  rw [List.mem_append, not_or]
  refine ⟨?_, by decide⟩
  intro hmem
  rcases Text.mem_intercalate hmem with hsep | ⟨word, hword, hslash⟩
  · exact absurd hsep (by decide)
  · exact (not_isWordBreak_of_isSmall (isSmall_of_mem (hwords word hword) _ hslash)).2 rfl

theorem IsConventional.afterLast {path : String} (h : IsConventional path) :
    ∃ words, words ≠ [] ∧ (∀ word ∈ words, isSmallWord word = true) ∧
      Text.afterLast '/' path.toList = ['_'].intercalate words ++ ".proto".toList := by
  obtain ⟨directory, words, hend, hne, hwords, rfl⟩ := h
  refine ⟨words, hne, hwords, ?_⟩
  rw [← String.toList_eq_nil_iff] at hend
  rw [String.toList_append, String.toList_append, String.toList_ofList, List.append_assoc]
  exact Text.afterLast_append hend (slash_notMem_conventional hwords)

/-- Proto files with different conventional names get differently named files. -/
theorem nameFor_inj {path path' : String} (h : IsConventional path) (h' : IsConventional path') :
    nameFor path = nameFor path' ↔ path = path' := by
  constructor
  · intro heq
    have hdirectory := uptoLast_nameFor path
    have hbase := afterLast_nameFor path
    rw [heq, uptoLast_nameFor] at hdirectory
    rw [heq, afterLast_nameFor] at hbase
    obtain ⟨words, hne, hwords, hafter⟩ := h.afterLast
    obtain ⟨words', hne', hwords', hafter'⟩ := h'.afterLast
    rw [hafter, hafter', baseFor_conventional hne hwords,
      baseFor_conventional hne' hwords'] at hbase
    have hsame : words' = words :=
      flatMap_capitalize_inj hwords' hwords (List.append_cancel_right hbase)
    rw [← String.toList_inj]
    calc path.toList
        = Text.uptoLast '/' path.toList ++ Text.afterLast '/' path.toList :=
          (Text.uptoLast_append_afterLast '/' _).symm
      _ = Text.uptoLast '/' path'.toList ++ Text.afterLast '/' path'.toList := by
          rw [hdirectory, hafter, hafter', hsame]
      _ = path'.toList := Text.uptoLast_append_afterLast '/' _
  · intro heq
    rw [heq]

theorem nameFor_inj_echo :
    IsConventional "echo/v1/echo_api2.proto" ∧ IsConventional "echo/v1/echoapi2.proto" ∧
      nameFor "echo/v1/echo_api2.proto" ≠ nameFor "echo/v1/echoapi2.proto" := by
  have h : IsConventional "echo/v1/echo_api2.proto" :=
    ⟨"echo/v1/", ["echo".toList, "api2".toList], Or.inr rfl, by decide, by decide, by decide⟩
  have h' : IsConventional "echo/v1/echoapi2.proto" :=
    ⟨"echo/v1/", ["echoapi2".toList], Or.inr rfl, by decide, by decide, by decide⟩
  refine ⟨h, h', ?_⟩
  rw [Ne, nameFor_inj h h']
  decide

end Conventional

end TwirpClients.GeneratedFile
