import TwirpClients.Proofs.ClientText.Literals
import TwirpClients.Proofs.Options.Grammar

/-!
# The server path in the constructors

Options are changed one step at a time, by a server path or by a parameter, and a step that fails
changes nothing. No step lets a quote, a backslash or a control character in. The characters that
have escapes are all among these, so the path that is reached stands in every constructor as it is.

Two paths never give the same text, reached or not: up to the literal in the first constructor the
texts agree, and scanning from there gives the paths.
-/

namespace TwirpClients

namespace Options

inductive Change where
  | serverPath (path : String)
  | parameter (text : Option String)
deriving DecidableEq, Repr

/-- What a change makes of the options. A parameter starts from the default options. -/
def Change.apply (options : Options) : Change → Except ParameterError Options
  | serverPath path => options.withServerPath path
  | parameter text => ofParameter text

def after (options : Options) (change : Change) : Options :=
  match change.apply options with
  | .ok options' => options'
  | .error _ => options

def run (changes : List Change) : Options := changes.foldl after {}

theorem accepted_of_apply {options options' : Options} {change : Change}
    (h : change.apply options = .ok options') : options'.Accepted := by
  cases change with
  | serverPath path => exact .path (show options.withServerPath path = .ok options' from h)
  | parameter text => exact .parameter h

theorem harmless_after {options : Options} (h : Harmless options.serverPath.toList)
    (change : Change) : Harmless (options.after change).serverPath.toList := by
  unfold after
  cases happly : change.apply options with
  | ok options' => exact (accepted_of_apply happly).harmless
  | error _ => exact h

theorem harmless_foldl_after {options : Options} (h : Harmless options.serverPath.toList)
    (changes : List Change) : Harmless (changes.foldl after options).serverPath.toList := by
  induction changes generalizing options with
  | nil => exact h
  | cons change changes ih => exact ih (harmless_after h change)

theorem harmless_run (changes : List Change) : Harmless (run changes).serverPath.toList := by
  have hdefault : Accepted {} := .parameter (show ofParameter none = .ok {} from rfl)
  exact harmless_foldl_after hdefault.harmless changes

end Options

namespace ClientText

theorem encode_of_harmless {cs : List Char} (h : Options.Harmless cs) :
    Text.Literal.encode cs = cs := by
  have hchar : ∀ c ∈ cs, Text.Literal.encodeChar c = [c] := by
    intro c hc
    obtain ⟨hquote, hbackslash, hfirst, -⟩ := h c hc
    have hne (d : Char) (hd : d < ' ') : c ≠ d := by
      rintro rfl
      exact Char.not_lt.2 hfirst hd
    have hnone : Text.Literal.escapes.lookup c = none :=
      Text.Literal.lookup_escapes_eq_none_iff.2 ⟨hbackslash, hquote, hne '\n' (by decide),
        hne '\r' (by decide), hne '\t' (by decide)⟩
    rw [Text.Literal.encodeChar, hnone]
  rw [Text.Literal.encode, List.flatMap_congr hchar, List.flatMap_singleton']

theorem quoted_of_harmless {path : String} (h : Options.Harmless path.toList) :
    quoted path = path := by
  rw [quoted, encode_of_harmless h, String.ofList_toList]

def openingLines (api : Api) : List String :=
  headerLines api ++ usingLines api ++ ["", "namespace Twirp \x7b"]

def headLines (service : Service) : List String :=
  ["", "    public class " ++ service.name ++ "Client : TwirpClient \x7b", ""]

def constructorStart (service : Service) : String :=
  "        public " ++ service.name
    ++ "Client(MonoBehaviour mono, string url, int timeout, string serverPathPrefix = \""

/-- The constructor of a client with a text between the quotes of its default value. -/
def constructorLine (service : Service) (body : String) : String :=
  constructorStart service ++ body ++ "\") : base(mono, url, timeout, serverPathPrefix) \x7b"

section Constructor

variable {api : Api} {front back : List Service} {service : Service}

theorem classLines_eq (options : Options) (service : Service) :
    classLines options service
      = headLines service ++ constructorLine service (quoted options.serverPath)
        :: "        \x7d" :: (service.methods.flatMap methodLines ++ ["    \x7d"]) := rfl

theorem lines_of_services (options : Options) (h : api.services = front ++ service :: back) :
    ∃ rest, lines options api
      = openingLines api ++ front.flatMap (classLines options) ++ headLines service
        ++ constructorLine service (quoted options.serverPath) :: rest := by
  rw [lines, h, List.flatMap_append, List.flatMap_cons, classLines_eq options service, openingLines]
  simp only [List.append_assoc, List.cons_append]
  exact ⟨_, rfl⟩

theorem exists_render_constructor (options : Options)
    (h : api.services = front ++ service :: back) :
    ∃ rest, render options api
      = unlines (openingLines api ++ front.flatMap (classLines options) ++ headLines service)
        ++ constructorLine service (quoted options.serverPath) ++ "\n" ++ rest := by
  have hfeed : "\n".toList = ['\n'] := by decide
  obtain ⟨ls, hlines⟩ := lines_of_services options h
  refine ⟨unlines ls, String.toList_injective ?_⟩
  rw [render, hlines, unlines_append, unlines_cons]
  simp only [String.toList_append, List.append_assoc, hfeed, List.singleton_append]

theorem constructorLine_toList (service : Service) (body : String) :
    (constructorLine service body).toList
      = (constructorStart service).toList
        ++ (body.toList
          ++ '"' :: ") : base(mono, url, timeout, serverPathPrefix) \x7b".toList) := by
  unfold constructorLine
  rw [← toList_constructorEnd, String.toList_append, String.toList_append, List.append_assoc]

/-- The text up to the first literal is the same for all options, and the literal tells the path. -/
theorem serverPath_of_render_eq {options options' : Options} (hservices : api.services ≠ [])
    (h : render options api = render options' api) : options.serverPath = options'.serverPath := by
  obtain ⟨first, back, hfirst⟩ := List.exists_cons_of_ne_nil hservices
  have hsplit : api.services = [] ++ first :: back := hfirst
  obtain ⟨rest, hrest⟩ := exists_render_constructor options hsplit
  obtain ⟨rest', hrest'⟩ := exists_render_constructor options' hsplit
  rw [hrest, hrest', List.flatMap_nil, List.flatMap_nil] at h
  have hchars := congrArg String.toList h
  simp only [String.toList_append, constructorLine_toList, quoted, String.toList_ofList,
    List.append_assoc, List.append_cancel_left_eq, List.cons_append] at hchars
  have hscan := congrArg Text.Literal.scan hchars
  rw [Text.Literal.scan_encode, Text.Literal.scan_encode, Option.some.injEq, Prod.mk.injEq] at hscan
  exact String.toList_injective hscan.1

end Constructor
end ClientText

namespace Options

/-- Whatever changes were made, and whichever of them failed, the server path has no quote, no
backslash and no control character. So it is its own literal, it stands as it is between the quotes
in the constructor of every service, and two different ones never give the same text as long as
there is a service. -/
theorem run_serverPath_verbatim (changes : List Change) :
    (∀ c ∈ (run changes).serverPath.toList, c ≠ '"' ∧ c ≠ '\\' ∧ Text.isControl c = false) ∧
    ClientText.quoted (run changes).serverPath = (run changes).serverPath ∧
    (∀ (api : Api) (front : List Service) (service : Service) (back : List Service),
      api.services = front ++ service :: back →
        ∃ rest, ClientText.render (run changes) api
          = ClientText.unlines (ClientText.openingLines api
              ++ front.flatMap (ClientText.classLines (run changes))
              ++ ClientText.headLines service)
            ++ ClientText.constructorLine service (run changes).serverPath ++ "\n" ++ rest) ∧
    ∀ changes', (run changes).serverPath ≠ (run changes').serverPath →
      ∀ api : Api, api.services ≠ [] →
        ClientText.render (run changes) api ≠ ClientText.render (run changes') api := by
  have hquoted := ClientText.quoted_of_harmless (harmless_run changes)
  refine ⟨harmless_iff.1 (harmless_run changes), hquoted, ?_, ?_⟩
  · intro api front service back hservices
    have hrender := ClientText.exists_render_constructor (run changes) hservices
    rwa [hquoted] at hrender
  · intro changes' hpath api hservices htext
    exact hpath (ClientText.serverPath_of_render_eq hservices htext)

/-- The last entry counts, without the blanks around it, and the three changes behind it fail. -/
def mixedChanges : List Change :=
  [.serverPath "first", .parameter (some "prefix=a, prefix =\u3000b "), .serverPath "c\"",
    .parameter (some "prefix=d\\"), .parameter (some "prefix=e,flavor=mint")]

theorem run_serverPath_verbatim_mixed :
    (run mixedChanges).serverPath = "b" ∧ (run (mixedChanges ++ [.serverPath ""])).serverPath = "" ∧
    (∃ before rest, ClientText.render (run mixedChanges) ClientText.crookedApi
      = before ++ ("        public CrookedClient(MonoBehaviour mono, string url, int timeout, "
          ++ "string serverPathPrefix = \"b\") : base(mono, url, timeout, serverPathPrefix) \x7b")
        ++ "\n" ++ rest) ∧
    ClientText.render (run mixedChanges) ClientText.crookedApi
      ≠ ClientText.render (run (mixedChanges ++ [.serverPath ""])) ClientText.crookedApi := by
  have hpath : (run mixedChanges).serverPath = "b" := by decide +kernel
  have hempty : (run (mixedChanges ++ [.serverPath ""])).serverPath = "" := by decide +kernel
  have hline : ClientText.constructorLine ⟨"Crooked", "a", [ClientText.crookedMethod]⟩ "b"
      = "        public CrookedClient(MonoBehaviour mono, string url, int timeout, "
        ++ "string serverPathPrefix = \"b\") : base(mono, url, timeout, serverPathPrefix) \x7b" :=
    by decide +kernel
  obtain ⟨-, -, htext, hdiffer⟩ := run_serverPath_verbatim mixedChanges
  refine ⟨hpath, hempty, ?_, hdiffer _ ?_ _ (List.cons_ne_nil _ _)⟩
  · obtain ⟨rest, hrest⟩ := htext ClientText.crookedApi [] _ [] rfl
    rw [hpath, hline] at hrest
    exact ⟨_, rest, hrest⟩
  · rw [hpath, hempty]
    decide

end Options
end TwirpClients
