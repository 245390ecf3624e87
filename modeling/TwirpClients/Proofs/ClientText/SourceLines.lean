import TwirpClients.Proofs.ClientText.Literals
import TwirpClients.Proofs.Options.Grammar

/-!
# What stays on its line

The comment that names the source has the file name as it is, so it ends where it should if and only
if no line ends in the file name. A literal has its line feeds and returns as escapes. Other
characters that end a line have no escape, so what is said here about literals with such characters
in their texts is only that these two are not among them.

A server path that is accepted has no control characters, which leaves only the two separators of
lines and paragraphs as characters that could end its line.
-/

namespace TwirpClients.ClientText

open Text.Literal (newLines IsBody)

def IsRegularLiteral (cs : List Char) : Prop := ∃ body, cs = '"' :: (body ++ ['"']) ∧ IsBody body

theorem notMem_newLines_of_isRegularLiteral {cs : List Char} (h : IsRegularLiteral cs) :
    ∀ c ∈ cs, c ∉ newLines := by
  obtain ⟨body, rfl, hbody⟩ := h
  have hquote : '"' ∉ newLines := by decide
  intro c hc
  rcases List.mem_cons.1 hc with rfl | hc
  · exact hquote
  · rcases List.mem_append.1 hc with hc | hc
    · exact hbody.notMem_newLines c hc
    · rw [List.mem_singleton.1 hc]
      exact hquote

theorem isRegularLiteral_literal {value : String}
    (h : ∀ c ∈ value.toList, c ≠ '\x85' ∧ c ≠ '\u2028' ∧ c ≠ '\u2029') :
    IsRegularLiteral (Fragment.literal value).chars := by
  refine ⟨_, rfl, Text.Literal.isBody_encode fun c hc hline => ?_⟩
  obtain ⟨hnext, hline', hparagraph⟩ := h c hc
  simpa [newLines, hnext, hline', hparagraph] using hline

theorem ne_of_mem_literal {value : String} {c : Char} (h : c ∈ (Fragment.literal value).chars) :
    c ≠ '\n' ∧ c ≠ '\r' := by
  rcases List.mem_cons.1 h with rfl | h
  · decide
  · rcases List.mem_append.1 h with h | h
    · exact Text.Literal.ne_of_mem_encode h
    · rw [List.mem_singleton.1 h]
      decide

theorem notMem_newLines_source_iff {fileName : String} :
    (∀ c ∈ (Fragment.source fileName).chars, c ∉ newLines) ↔
      ∀ c ∈ fileName.toList, c ∉ newLines := by
  have hstart : ∀ c ∈ "// source: ".toList, c ∉ newLines :=
    List.all_iff_forall_prop.1 (by decide)
  rw [Fragment.chars_source, List.forall_mem_append]
  exact ⟨fun h => h.2, fun h => ⟨hstart, h⟩⟩

/-- A comment on a line of its own ends at the first character that ends a line. -/
theorem takeWhile_comment_iff {comment after : List Char} :
    (comment ++ '\n' :: after).takeWhile (· ∉ newLines) = comment ↔
      ∀ c ∈ comment, c ∉ newLines := by
  constructor
  · intro h c hc
    rw [← h] at hc
    simpa using List.mem_takeWhile_imp hc
  · intro h
    have hall : ∀ c ∈ comment, decide (c ∉ newLines) = true := fun c hc => decide_eq_true (h c hc)
    have hfeed : ('\n' :: after).takeWhile (· ∉ newLines) = [] := rfl
    rw [List.takeWhile_append_of_pos hall, hfeed, List.append_nil]

theorem exists_source (options : Options) (api : Api) :
    ∃ before after, (render options api).toList
      = before ++ ((Fragment.source api.fileName).chars ++ '\n' :: after) := by
  have hfeed : "\n".toList = ['\n'] := by decide
  rw [← chars_fragments]
  simp only [fragments, List.cons_append, List.nil_append, List.flatMap_cons,
    Fragment.chars_code ("\n" ++ _), String.toList_append, hfeed]
  exact ⟨_, _, rfl⟩

theorem value_cases {options : Options} {api : Api} {value : String}
    (h : Fragment.literal value ∈ fragments options api) :
    value = options.serverPath ∨ ∃ method ∈ api.methods, value = method.route := by
  have hvalue : value ∈ (fragments options api).filterMap Fragment.value? :=
    List.mem_filterMap.2 ⟨_, h, rfl⟩
  rw [values_fragments] at hvalue
  obtain ⟨service, hservice, hvalue⟩ := List.mem_flatMap.1 hvalue
  rcases List.mem_cons.1 hvalue with hpath | hroute
  · exact Or.inl hpath
  · obtain ⟨method, hmethod, rfl⟩ := List.mem_map.1 hroute
    exact Or.inr ⟨method, List.mem_flatMap.2 ⟨service, hservice, hmethod⟩, rfl⟩

/-- The comment is the file name as it is. It stays on its line, and is a comment to its end, if and
only if the file name has no character that ends a line. The literals stand for the server path and
for routes. None of them has a line feed or a return in it, and one whose text has none of the other
characters that end a line is a regular literal on one line. The first of these characters is in no
server path that is accepted. -/
theorem text_stays_on_line {options : Options} (h : options.Accepted) (api : Api) :
    (fragments options api).flatMap Fragment.chars = (render options api).toList ∧
    (∃ before after, (render options api).toList
        = before ++ ((Fragment.source api.fileName).chars ++ '\n' :: after) ∧
      ((∀ c ∈ (Fragment.source api.fileName).chars, c ∉ newLines) ↔
        ∀ c ∈ api.fileName.toList, c ∉ newLines) ∧
      (((Fragment.source api.fileName).chars ++ '\n' :: after).takeWhile (· ∉ newLines)
          = (Fragment.source api.fileName).chars ↔
        ∀ c ∈ api.fileName.toList, c ∉ newLines)) ∧
    (∀ value, Fragment.literal value ∈ fragments options api →
      (value = options.serverPath ∨ ∃ method ∈ api.methods, value = method.route) ∧
      (∀ c ∈ (Fragment.literal value).chars, c ≠ '\n' ∧ c ≠ '\r') ∧
      ((∀ c ∈ value.toList, c ≠ '\x85' ∧ c ≠ '\u2028' ∧ c ≠ '\u2029') →
        (∀ c ∈ (Fragment.literal value).chars, c ∉ newLines) ∧
          IsRegularLiteral (Fragment.literal value).chars)) ∧
    '\x85' ∉ options.serverPath.toList := by
  refine ⟨chars_fragments options api, ?_, ?_, ?_⟩
  · obtain ⟨before, after, htext⟩ := exists_source options api
    exact ⟨before, after, htext, notMem_newLines_source_iff,
      takeWhile_comment_iff.trans notMem_newLines_source_iff⟩
  · intro value hvalue
    refine ⟨value_cases hvalue, fun c => ne_of_mem_literal, fun hothers => ?_⟩
    have hregular := isRegularLiteral_literal hothers
    exact ⟨notMem_newLines_of_isRegularLiteral hregular, hregular⟩
  · intro hmem
    exact absurd (h.harmless '\x85' hmem) (by decide)

def plainOptions : Options where
  serverPath := "api v1"

/-- The name of the method has the two ends of lines that have an escape. -/
def foldedApi : Api where
  fileName := "chat.proto"
  codeNamespace := ""
  services :=
    [{ name := "Chat"
       serviceUrl := "chat"
       methods :=
        [{ serviceUrl := "chat", serviceName := "Chat", name := "Say\r\n", input := "In"
           output := "Out" }] }]

theorem text_stays_on_line_folded :
    (∃ before after, (render plainOptions foldedApi).toList
        = before ++ ("// source: chat.proto".toList ++ '\n' :: after) ∧
      ("// source: chat.proto".toList ++ '\n' :: after).takeWhile (· ∉ newLines)
        = "// source: chat.proto".toList) ∧
      Fragment.literal "chat/Say\r\n" ∈ fragments plainOptions foldedApi ∧
      IsRegularLiteral (Fragment.literal "chat/Say\r\n").chars := by
  have haccepted : Options.withServerPath {} "api v1" = .ok plainOptions := by decide +kernel
  have hmem : Fragment.literal "chat/Say\r\n" ∈ fragments plainOptions foldedApi := by
    decide +kernel
  have hcomment : (Fragment.source foldedApi.fileName).chars = "// source: chat.proto".toList := by
    decide +kernel
  obtain ⟨-, ⟨before, after, htext, -, hends⟩, hliterals, -⟩ :=
    text_stays_on_line (.path haccepted) foldedApi
  rw [hcomment] at htext hends
  exact ⟨⟨before, after, htext, hends.2 (List.all_iff_forall_prop.1 (by decide +kernel))⟩, hmem,
    ((hliterals _ hmem).2.2 (List.all_iff_forall_prop.1 (by decide +kernel))).2⟩

/-- The comment and both literals have a character that ends a line. -/
def brokenApi : Api where
  fileName := "a\nb.proto"
  codeNamespace := ""
  services :=
    [{ name := "Chat"
       serviceUrl := "chat"
       methods :=
        [{ serviceUrl := "chat\x85", serviceName := "Chat", name := "Say", input := "In"
           output := "Out" }] }]

def brokenOptions : Options where
  serverPath := "api\u2028v1"

theorem text_leaves_line :
    brokenOptions.Accepted ∧
      (Fragment.source "a\nb.proto" ∈ fragments brokenOptions brokenApi ∧
        '\n' ∈ (Fragment.source "a\nb.proto").chars) ∧
      (Fragment.literal "api\u2028v1" ∈ fragments brokenOptions brokenApi ∧
        '\u2028' ∈ (Fragment.literal "api\u2028v1").chars) ∧
      Fragment.literal "chat\x85/Say" ∈ fragments brokenOptions brokenApi ∧
        '\x85' ∈ (Fragment.literal "chat\x85/Say").chars := by
  have haccepted : Options.ofParameter (some "prefix=api\u2028v1") = .ok brokenOptions := by
    decide +kernel
  refine ⟨.parameter haccepted, ⟨?_, ?_⟩, ⟨?_, ?_⟩, ?_, ?_⟩ <;> decide +kernel

end TwirpClients.ClientText
