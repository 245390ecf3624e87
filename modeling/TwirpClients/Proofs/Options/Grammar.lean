import Mathlib.Data.Bool.AllAny
import TwirpClients.Options
import TwirpClients.Proofs.Fallible
import TwirpClients.Proofs.Text.Blank
import TwirpClients.Proofs.Text.Split
import TwirpClients.Proofs.Text.Visible

/-!
# The grammar of parameters

Which entries a parameter lists, what an entry says and what is wrong with one that says nothing are
relations between texts here, without the functions that read them. A parameter is accepted if all
its entries assign a path, and then the last of them counts. Otherwise the first entry at fault
gives the message, and nothing behind it is looked at.
-/

namespace TwirpClients

namespace Options

/-- The entries in a parameter: what stands between its commas, without the blanks around it, as far
as there is anything left. -/
structure Lists (parameter : String) (es : List (List Char)) : Prop where
  between : ∃ ps cores, ps ≠ [] ∧ (∀ piece ∈ ps, ',' ∉ piece) ∧
    [','].intercalate ps = parameter.toList ∧ List.Forall₂ Text.IsTrimOf cores ps ∧
    es = cores.filter (!·.isEmpty)

/-- The first equals sign of the entry stands between the key and the value. -/
def Pairs (entry key value : List Char) : Prop :=
  ∃ before after, '=' ∉ before ∧ entry = before ++ '=' :: after ∧
    Text.IsTrimOf key before ∧ Text.IsTrimOf value after

def Harmless (path : List Char) : Prop :=
  ∀ c ∈ path, c ≠ '"' ∧ c ≠ '\\' ∧ ' ' ≤ c ∧ ¬ ('\x7f' ≤ c ∧ c ≤ '\x9f')

structure Assigns (entry path : List Char) : Prop where
  pairs : Pairs entry "prefix".toList path
  harmless : Harmless path

inductive Offends (entry : List Char) : String → Prop
  | valueMissing : '=' ∉ entry →
      Offends entry ("expected key=value, got '" ++ String.ofList entry ++ "'")
  | unknownOption {key value : List Char} : Pairs entry key value → key ≠ "prefix".toList →
      Offends entry ("unknown option '" ++ String.ofList key ++ "'")
  | forbiddenText {path shown : List Char} : Pairs entry "prefix".toList path → ¬ Harmless path →
      Text.IsVisibleOf shown path → Offends entry ("prefix '" ++ String.ofList shown
        ++ "' contains characters not allowed in a string literal")

theorem lists_iff {parameter : String} {es : List (List Char)} :
    Lists parameter es ↔ es = entries parameter := by
  have htrims (cores ps : List (List Char)) :
      List.Forall₂ Text.IsTrimOf cores ps ↔ cores = ps.map Text.trim := by
    apply Text.forall₂_iff_eq_map
    exact fun _ _ => Text.isTrimOf_iff
  constructor
  · rintro ⟨ps, cores, hne, hcomma, hjoin, hcores, rfl⟩
    rw [(htrims cores ps).1 hcores, entries, ← hjoin, List.splitOn_intercalate ',' hcomma hne]
  · rintro rfl
    exact ⟨parameter.toList.splitOn ',', _, List.splitOn_ne_nil _ _,
      fun _ => Text.sep_notMem_of_mem_splitOn, List.intercalate_splitOn ',', (htrims _ _).2 rfl,
      rfl⟩

section Entry

variable {options options' : Options} {entry path : List Char} {message : String}

theorem exists_pairs (h : '=' ∈ entry) : ∃ key value, Pairs entry key value := by
  obtain ⟨before, after, hentry, hbefore⟩ := List.eq_append_cons_of_mem h
  exact ⟨Text.trim before, Text.trim after, before, after, hbefore, hentry,
    Text.isTrimOf_trim before, Text.isTrimOf_trim after⟩

theorem assigns_or_offends (entry : List Char) :
    (∃ path, Assigns entry path) ∨ ∃ message, Offends entry message := by
  by_cases hequals : '=' ∈ entry
  · obtain ⟨key, value, hpairs⟩ := exists_pairs hequals
    by_cases hkey : key = "prefix".toList
    · rw [hkey] at hpairs
      by_cases hvalue : Harmless value
      · exact Or.inl ⟨value, hpairs, hvalue⟩
      · exact Or.inr ⟨_, .forbiddenText hpairs hvalue (Text.isVisibleOf_iff.2 rfl)⟩
    · exact Or.inr ⟨_, .unknownOption hpairs hkey⟩
  · exact Or.inr ⟨_, .valueMissing hequals⟩

theorem harmless_iff :
    Harmless path ↔ ∀ c ∈ path, c ≠ '"' ∧ c ≠ '\\' ∧ Text.isControl c = false := by
  simp only [Harmless, Text.isControl_eq_false_iff]

theorem any_isForbidden_iff : path.any isForbidden = true ↔ ¬ Harmless path := by
  simp only [harmless_iff, List.any_eq_true, isForbidden, Bool.or_eq_true, beq_iff_eq, not_forall,
    exists_prop, ← Bool.not_eq_true, not_and_or, not_not, ne_eq, or_assoc]

theorem withServerPath_of_harmless {path : String} (h : Harmless path.toList) :
    options.withServerPath path = .ok { serverPath := path } := by
  have hallowed : ¬ path.toList.any isForbidden = true := by
    rwa [any_isForbidden_iff, not_not]
  rw [withServerPath, if_neg hallowed]

theorem withServerPath_of_not_harmless {path : String} (h : ¬ Harmless path.toList) :
    options.withServerPath path = .error (.forbiddenText path) := by
  rw [withServerPath, if_pos (any_isForbidden_iff.2 h)]

theorem withEntry_of_pairs {key value : List Char} (h : Pairs entry key value) :
    options.withEntry entry
      = if key = "prefix".toList then options.withServerPath (String.ofList value)
        else .error (.unknownOption (String.ofList key)) := by
  obtain ⟨before, after, hbefore, hentry, hkey, hvalue⟩ := h
  rw [withEntry, Text.cut?_eq_some_iff.2 ⟨hbefore, hentry⟩, Text.isTrimOf_iff.1 hkey,
    Text.isTrimOf_iff.1 hvalue]

theorem withEntry_of_assigns (h : Assigns entry path) :
    options.withEntry entry = .ok { serverPath := String.ofList path } := by
  rw [withEntry_of_pairs h.pairs, if_pos rfl]
  apply withServerPath_of_harmless
  rw [String.toList_ofList]
  exact h.harmless

/-- The error of an entry does not depend on the options so far. -/
theorem withEntry_of_offends (h : Offends entry message) :
    ∃ e : ParameterError, e.message = message ∧
      ∀ options : Options, options.withEntry entry = .error e := by
  cases h with
  | valueMissing hequals =>
    refine ⟨.valueMissing (String.ofList entry), rfl, fun options => ?_⟩
    rw [withEntry, Text.cut?_eq_none_iff.2 hequals]
  | @unknownOption key _ hpairs hkey =>
    refine ⟨.unknownOption (String.ofList key), rfl, fun options => ?_⟩
    rw [withEntry_of_pairs hpairs, if_neg hkey]
  | @forbiddenText path shown hpairs hpath hshown =>
    refine ⟨.forbiddenText (String.ofList path), ?_, fun options => ?_⟩
    · change "prefix '" ++ String.ofList (Text.visible (String.ofList path).toList) ++ _ = _
      rw [String.toList_ofList, Text.isVisibleOf_iff.1 hshown]
    · rw [withEntry_of_pairs hpairs, if_pos rfl]
      apply withServerPath_of_not_harmless
      rwa [String.toList_ofList]

theorem withEntry_ok_iff :
    options.withEntry entry = .ok options' ↔ Assigns entry options'.serverPath.toList := by
  constructor
  · intro h
    rcases assigns_or_offends entry with ⟨path, hpath⟩ | ⟨message, hmessage⟩
    · rw [withEntry_of_assigns hpath] at h
      cases h
      rwa [String.toList_ofList]
    · obtain ⟨e, -, he⟩ := withEntry_of_offends hmessage
      rw [he options] at h
      cases h
  · intro h
    rw [withEntry_of_assigns h, String.ofList_toList]

theorem offends_of_withEntry {e : ParameterError} (h : options.withEntry entry = .error e) :
    Offends entry e.message := by
  rcases assigns_or_offends entry with ⟨path, hpath⟩ | ⟨message, hmessage⟩
  · rw [withEntry_of_assigns hpath] at h
    cases h
  · obtain ⟨e', he', herror⟩ := withEntry_of_offends hmessage
    rw [herror options] at h
    cases h
    rwa [he']

end Entry

section Parameter

variable {options options' : Options} {es before after : List (List Char)} {entry : List Char}
  {message : String}

theorem exists_foldlM_withEntry_iff :
    (∃ options', es.foldlM withEntry options = .ok options') ↔
      ∀ entry ∈ es, ∃ path, Assigns entry path := by
  induction es generalizing options with
  | nil => exact ⟨fun _ _ h => (List.not_mem_nil h).elim, fun _ => ⟨options, rfl⟩⟩
  | cons first rest ih =>
    simp only [List.foldlM_cons, bind_ok_iff, List.forall_mem_cons]
    constructor
    · rintro ⟨options', next, hfirst, hrest⟩
      exact ⟨⟨_, withEntry_ok_iff.1 hfirst⟩, ih.1 ⟨options', hrest⟩⟩
    · rintro ⟨⟨path, hfirst⟩, hrest⟩
      obtain ⟨options', hok⟩ := ih.2 hrest
      exact ⟨options', _, withEntry_of_assigns hfirst, hok⟩

/-- All entries have to assign a path, and the last one decides. -/
theorem foldlM_withEntry_ok_iff :
    es.foldlM withEntry options = .ok options' ↔
      (∀ entry ∈ es, ∃ path, Assigns entry path) ∧ (es = [] → options' = options) ∧
        ∀ last ∈ es.getLast?, Assigns last options'.serverPath.toList := by
  rcases List.eq_nil_or_concat es with rfl | ⟨before, last, rfl⟩
  · simp [pure, Except.pure, eq_comm]
  · have hlast (next : Options) :
        [last].foldlM withEntry next = .ok options' ↔ Assigns last options'.serverPath.toList := by
      rw [List.foldlM_cons, ← @withEntry_ok_iff next options' last]
      cases next.withEntry last <;> rfl
    rw [List.concat_eq_append, List.foldlM_append, bind_ok_iff]
    simp only [hlast, exists_and_right, exists_foldlM_withEntry_iff]
    constructor
    · rintro ⟨hbefore, hassigns⟩
      refine ⟨?_, fun hnil => ?_, fun other hother => ?_⟩
      · intro entry hentry
        rcases List.mem_append.1 hentry with hmem | hmem
        · exact hbefore entry hmem
        · exact ⟨_, List.mem_singleton.1 hmem ▸ hassigns⟩
      · simp at hnil
      · rw [List.getLast?_concat] at hother
        cases hother
        exact hassigns
    · rintro ⟨hall, -, hassigns⟩
      exact ⟨fun entry hentry => hall entry (List.mem_append_left _ hentry),
        hassigns last List.getLast?_concat⟩

theorem foldlM_withEntry_of_offends (h : Offends entry message)
    (hbefore : ∀ earlier ∈ before, ∃ path, Assigns earlier path) :
    ∃ e : ParameterError, e.message = message ∧
      (before ++ entry :: after).foldlM withEntry options = .error e := by
  obtain ⟨reached, hreached⟩ := exists_foldlM_withEntry_iff.2 hbefore
  obtain ⟨e, he, herror⟩ := withEntry_of_offends h
  exact ⟨e, he, foldlM_error_iff.2 ⟨before, entry, after, reached, rfl, hreached, herror reached⟩⟩

theorem foldlM_withEntry_error_iff :
    (∃ e, es.foldlM withEntry options = .error e ∧ e.message = message) ↔
      ∃ before entry after, es = before ++ entry :: after ∧
        (∀ earlier ∈ before, ∃ path, Assigns earlier path) ∧ Offends entry message := by
  constructor
  · rintro ⟨e, herror, rfl⟩
    obtain ⟨before, entry, after, reached, hes, hreached, hentry⟩ := foldlM_error_iff.1 herror
    exact ⟨before, entry, after, hes, exists_foldlM_withEntry_iff.1 ⟨reached, hreached⟩,
      offends_of_withEntry hentry⟩
  · rintro ⟨before, entry, after, rfl, hbefore, hoffends⟩
    obtain ⟨e, he, herror⟩ := foldlM_withEntry_of_offends hoffends hbefore
    exact ⟨e, herror, he⟩

/-- Behind an entry at fault everything may be different. -/
theorem foldlM_withEntry_congr (h : Offends entry message) (after' : List (List Char)) :
    (before ++ entry :: after').foldlM withEntry options
      = (before ++ entry :: after).foldlM withEntry options := by
  obtain ⟨e, -, herror⟩ := withEntry_of_offends h
  rw [List.foldlM_append, List.foldlM_append]
  congr 1
  funext reached
  rw [List.foldlM_cons, List.foldlM_cons, herror reached]
  rfl

end Parameter

/-- The options that a parameter asks for, or that have a server path that was asked for. -/
inductive Accepted : Options → Prop
  | parameter {parameter : Option String} {options : Options} :
      ofParameter parameter = .ok options → Accepted options
  | path {options options' : Options} {path : String} :
      options.withServerPath path = .ok options' → Accepted options'

theorem Accepted.harmless {options : Options} (h : options.Accepted) :
    Harmless options.serverPath.toList := by
  have hdefault : Harmless ({} : Options).serverPath.toList :=
    List.all_iff_forall_prop.1 (by decide)
  cases h with
  | @parameter parameter _ hparameter =>
    cases parameter with
    | none =>
      cases hparameter
      exact hdefault
    | some text =>
      obtain ⟨-, hnil, hlast⟩ := foldlM_withEntry_ok_iff.1 hparameter
      cases hentry : (entries text).getLast? with
      | none =>
        rw [hnil (List.getLast?_eq_none_iff.1 hentry)]
        exact hdefault
      | some last => exact (hlast last hentry).harmless
  | @path _ _ path hpath =>
    by_cases hharmless : Harmless path.toList
    · rw [withServerPath_of_harmless hharmless] at hpath
      cases hpath
      exact hharmless
    · rw [withServerPath_of_not_harmless hharmless] at hpath
      cases hpath

/-- A parameter is accepted if and only if each of its entries assigns a path, and then the path is
that of the last entry, or the default one without entries. Otherwise the message is about the first
entry that assigns none, whatever is behind it. -/
theorem ofParameter_follows_grammar (parameter : String) :
    (∀ es, Lists parameter es ↔ es = entries parameter) ∧
    ((∃ options, ofParameter (some parameter) = .ok options) ↔
      ∀ entry ∈ entries parameter, ∃ path, Assigns entry path) ∧
    (∀ options, ofParameter (some parameter) = .ok options ↔
      (∀ entry ∈ entries parameter, ∃ path, Assigns entry path) ∧
      (entries parameter = [] → options.serverPath = "twirp") ∧
      ∀ last ∈ (entries parameter).getLast?, Assigns last options.serverPath.toList) ∧
    (∀ message, (∃ e, ofParameter (some parameter) = .error e ∧ e.message = message) ↔
      ∃ before entry after, entries parameter = before ++ entry :: after ∧
        (∀ earlier ∈ before, ∃ path, Assigns earlier path) ∧ Offends entry message) ∧
    ∀ before entry after message, entries parameter = before ++ entry :: after →
      Offends entry message → ∀ parameter' after', entries parameter' = before ++ entry :: after' →
        ofParameter (some parameter') = ofParameter (some parameter) := by
  refine ⟨fun es => lists_iff, exists_foldlM_withEntry_iff, fun options => ?_,
    fun message => foldlM_withEntry_error_iff, ?_⟩
  · have hdefault : options = {} ↔ options.serverPath = "twirp" := by
      cases options
      rw [mk.injEq]
    rw [ofParameter, foldlM_withEntry_ok_iff, hdefault]
  · intro before entry after message hentries hoffends parameter' after' hentries'
    rw [ofParameter, ofParameter, hentries, hentries']
    exact foldlM_withEntry_congr hoffends after'

def mintParameter : String := " prefix = a=b , ,flavor =\u3000mint,prefix=\""

theorem offends_mint : Offends "flavor =\u3000mint".toList "unknown option 'flavor'" := by
  have hpairs : Pairs "flavor =\u3000mint".toList "flavor".toList "mint".toList :=
    ⟨"flavor ".toList, "\u3000mint".toList, by decide, by decide,
      Text.isTrimOf_iff.2 (by decide), Text.isTrimOf_iff.2 (by decide)⟩
  exact .unknownOption hpairs (by decide)

theorem assigns_mint : Assigns "prefix = a=b".toList "a=b".toList where
  pairs := ⟨"prefix ".toList, " a=b".toList, by decide, by decide,
    Text.isTrimOf_iff.2 (by decide), Text.isTrimOf_iff.2 (by decide)⟩
  harmless := List.all_iff_forall_prop.1 (by decide)

def bellPath : String := "it's\t\u2028\x07~é"

def bellMessage : String :=
  "prefix 'it\\'s\\t\\u\x7b2028\x7d\\u\x7b7\x7d~\\u\x7be9\x7d'"
    ++ " contains characters not allowed in a string literal"

theorem offends_bell : Offends ("prefix=" ++ bellPath).toList bellMessage := by
  have hpairs : Pairs ("prefix=" ++ bellPath).toList "prefix".toList bellPath.toList :=
    ⟨"prefix".toList, bellPath.toList, by decide, by decide,
      Text.isTrimOf_iff.2 (by decide), Text.isTrimOf_iff.2 (by decide)⟩
  have hbell : ¬ Harmless bellPath.toList := by
    intro h
    exact absurd (h '\x07' (by decide)) (by decide)
  exact .forbiddenText hpairs hbell (Text.isVisibleOf_iff.2 rfl)

theorem ofParameter_follows_grammar_mint :
    (∃ e, ofParameter (some mintParameter) = .error e ∧ e.message = "unknown option 'flavor'") ∧
      ofParameter (some "prefix = a=b,flavor =\u3000mint,mint")
        = ofParameter (some mintParameter) ∧
      ofParameter (some "prefix = a=b\x85") = .ok { serverPath := "a=b" } ∧
      ∃ e, ofParameter (some ("prefix=" ++ bellPath ++ " ,flavor")) = .error e ∧
        e.message = bellMessage := by
  obtain ⟨-, -, -, herror, hcongr⟩ := ofParameter_follows_grammar mintParameter
  obtain ⟨-, -, hok, -⟩ := ofParameter_follows_grammar "prefix = a=b\x85"
  obtain ⟨-, -, -, hbell, -⟩ := ofParameter_follows_grammar ("prefix=" ++ bellPath ++ " ,flavor")
  have hentries : entries mintParameter
      = ["prefix = a=b".toList] ++ "flavor =\u3000mint".toList :: ["prefix=\"".toList] := by
    decide +kernel
  have hentries' : entries "prefix = a=b\x85" = ["prefix = a=b".toList] := by decide +kernel
  have hentries'' : entries ("prefix=" ++ bellPath ++ " ,flavor")
      = [] ++ ("prefix=" ++ bellPath).toList :: ["flavor".toList] := by
    decide +kernel
  have hassigns : ∀ entry ∈ ["prefix = a=b".toList], ∃ path, Assigns entry path := by
    intro entry hentry
    exact ⟨_, List.mem_singleton.1 hentry ▸ assigns_mint⟩
  refine ⟨(herror _).2 ⟨_, _, _, hentries, hassigns, offends_mint⟩,
    hcongr _ _ _ _ hentries offends_mint _ ["mint".toList] (by decide +kernel), (hok _).2 ?_,
    (hbell _).2 ⟨_, _, _, hentries'', by simp, offends_bell⟩⟩
  rw [hentries']
  refine ⟨hassigns, fun h => (List.cons_ne_nil _ _ h).elim, ?_⟩
  intro last hlast
  cases hlast
  exact assigns_mint

end Options
end TwirpClients
