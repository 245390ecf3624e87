import TwirpClients.Proofs.ClientText.RoundTrip
import TwirpClients.Proofs.Text.Literal

/-!
# The literals of a client text

A client text taken apart into fragments: the literals, each by the text it stands for, the comment
that names the source, and the code between them, in which names stand as they are. The fragments
one after the other are the text for every API, also where a name has quotes or line feeds in it.

A call is made with a literal for its route. The text is written with the two parts of the route
encoded each by itself; escapes never reach across the slash, so this is the literal of the
route.
-/

namespace TwirpClients.ClientText

inductive Fragment where
  | code (text : String)
  | source (fileName : String)
  | literal (value : String)
deriving DecidableEq, Repr

namespace Fragment

def chars : Fragment → List Char
  | code text => text.toList
  | source fileName => "// source: ".toList ++ fileName.toList
  | literal value => '"' :: (Text.Literal.encode value.toList ++ ['"'])

def value? : Fragment → Option String
  | literal value => some value
  | _ => none

@[simp] theorem chars_code (text : String) : (code text).chars = text.toList := rfl

@[simp] theorem chars_source (fileName : String) :
    (source fileName).chars = "// source: ".toList ++ fileName.toList := rfl

@[simp] theorem chars_literal (value : String) :
    (literal value).chars = '"' :: (Text.Literal.encode value.toList ++ ['"']) := rfl

@[simp] theorem value?_code (text : String) : (code text).value? = none := rfl

@[simp] theorem value?_source (fileName : String) : (source fileName).value? = none := rfl

@[simp] theorem value?_literal (value : String) : (literal value).value? = some value := rfl

end Fragment

def methodFragments (method : Method) : List Fragment :=
  [.code (unlines ["", "        public TwirpRequestInstruction<" ++ method.output ++ "> "
      ++ method.name ++ "(" ++ method.input ++ " request) \x7b"]
      ++ "            return this.MakeRequest<" ++ method.output ++ ">("),
    .literal method.route,
    .code (unlines [", request);", "        \x7d"])]

def classFragments (options : Options) (service : Service) : List Fragment :=
  [.code (unlines ["", "    public class " ++ service.name ++ "Client : TwirpClient \x7b", ""]
      ++ "        public " ++ service.name
      ++ "Client(MonoBehaviour mono, string url, int timeout, string serverPathPrefix = "),
    .literal options.serverPath,
    .code (unlines [") : base(mono, url, timeout, serverPathPrefix) \x7b", "        \x7d"])]
    ++ service.methods.flatMap methodFragments ++ [.code (unlines ["    \x7d"])]

def fragments (options : Options) (api : Api) : List Fragment :=
  [.code (unlines ["// <auto-generated>",
      "//     Generated by protoc-gen-twirp_unity. DO NOT EDIT!", "// </auto-generated>"]),
    .source api.fileName,
    .code ("\n" ++ unlines (usingLines api ++ ["", "namespace Twirp \x7b"]))]
    ++ api.services.flatMap (classFragments options) ++ [.code (unlines ["\x7d"])]

theorem chars_methodFragments (method : Method) :
    (methodFragments method).flatMap Fragment.chars = (unlines (methodLines method)).toList := by
  have hopen : ">(\"".toList = ">(".toList ++ ['"'] := by decide
  simp only [methodLines, methodFragments, unlines_cons, unlines_nil, String.toList_append,
    List.append_assoc, List.cons_append, List.nil_append, hopen, toList_callEnd,
    quoted_route_toList, Fragment.chars_code, Fragment.chars_literal, List.flatMap_cons,
    List.flatMap_nil, List.append_nil]

theorem chars_classFragments (options : Options) (service : Service) :
    (classFragments options service).flatMap Fragment.chars
      = (unlines (classLines options service)).toList := by
  have hopen :
      "Client(MonoBehaviour mono, string url, int timeout, string serverPathPrefix = \"".toList
        = "Client(MonoBehaviour mono, string url, int timeout, string serverPathPrefix = ".toList
          ++ ['"'] := by
    decide
  simp only [classLines, classFragments, unlines_append, unlines_flatMap, unlines_cons,
    unlines_nil, String.toList_append, List.append_assoc, List.cons_append, List.nil_append, hopen,
    toList_constructorEnd, quoted, String.toList_ofList, Fragment.chars_code,
    Fragment.chars_literal, List.flatMap_cons, List.flatMap_nil, List.append_nil,
    List.flatMap_append, List.flatMap_assoc, chars_methodFragments]

/-- The fragments one after the other are the client text. -/
theorem chars_fragments (options : Options) (api : Api) :
    (fragments options api).flatMap Fragment.chars = (render options api).toList := by
  have hfeed : "\n".toList = ['\n'] := by decide
  simp only [render, lines, headerLines, fragments, unlines_append, unlines_flatMap, unlines_cons,
    unlines_nil, String.toList_append, List.append_assoc, List.cons_append, List.nil_append, hfeed,
    Fragment.chars_code, Fragment.chars_source, List.flatMap_cons, List.flatMap_nil,
    List.append_nil, List.flatMap_append, List.flatMap_assoc, chars_classFragments]

theorem values_methodFragments (methods : List Method) :
    (methods.flatMap methodFragments).filterMap Fragment.value? = methods.map Method.route := by
  rw [List.filterMap_flatMap]
  exact List.map_eq_flatMap.symm

theorem values_fragments (options : Options) (api : Api) :
    (fragments options api).filterMap Fragment.value?
      = api.services.flatMap fun service =>
          options.serverPath :: service.methods.map Method.route := by
  have hclass (service : Service) :
      (classFragments options service).filterMap Fragment.value?
        = options.serverPath :: service.methods.map Method.route := by
    simp only [classFragments, List.filterMap_append, values_methodFragments]
    simp only [List.filterMap_cons, Fragment.value?_code, Fragment.value?_literal,
      List.filterMap_nil, List.append_nil, List.cons_append, List.nil_append]
  simp only [fragments, List.filterMap_append, List.filterMap_flatMap, hclass]
  simp only [List.filterMap_cons, Fragment.value?_code, Fragment.value?_source,
    List.filterMap_nil, List.append_nil, List.nil_append]

theorem methodFragments_within (options : Options) {api : Api} {service : Service} {method : Method}
    (hservice : service ∈ api.services) (hmethod : method ∈ service.methods) :
    methodFragments method <:+: fragments options api := by
  have hin {α : Type} (f : α → List Fragment) {a : α} {as : List α} (h : a ∈ as) :
      f a <:+: as.flatMap f := List.infix_of_mem_flatten (List.mem_map_of_mem h)
  have hclass : methodFragments method <:+: classFragments options service :=
    (hin methodFragments hmethod).trans (List.infix_append _ _ _)
  exact hclass.trans ((hin (classFragments options) hservice).trans (List.infix_append _ _ _))

theorem quoted_route (method : Method) :
    quoted method.serviceUrl ++ "/" ++ quoted method.name = quoted method.route := by
  apply String.toList_injective
  have h := quoted_route_toList method []
  simpa only [List.append_nil, String.toList_append, List.append_assoc, quoted,
    String.toList_ofList] using h

/-- In the text of a call the quote before the literal of its route is followed by the encoded route
and the quote that ends the literal. -/
theorem exists_call (options : Options) {api : Api} {service : Service} {method : Method}
    (hservice : service ∈ api.services) (hmethod : method ∈ service.methods) :
    ∃ before after, (render options api).toList
      = before ++ ("            return this.MakeRequest<" ++ method.output ++ ">(").toList
        ++ '"' :: ((quoted method.route).toList ++ '"' :: after) := by
  obtain ⟨front, rest, hfragments⟩ := methodFragments_within options hservice hmethod
  have hchars := chars_fragments options api
  rw [← hfragments, List.flatMap_append, List.flatMap_append] at hchars
  rw [← hchars]
  simp only [methodFragments, List.flatMap_cons, List.flatMap_nil, List.append_nil,
    Fragment.chars_code, Fragment.chars_literal, String.toList_append, List.append_assoc,
    List.cons_append, List.nil_append, quoted, String.toList_ofList]
  exact ⟨_, _, (List.append_assoc _ _ _).symm⟩

/-- Every scanner reads an encoded text back up to the quote behind it, and encoding goes part by
part. So the literal in the call of a method stands for the route of the method, with any texts in
the address of the service and in the name, and the literals of a client text are, in order, the
server path of each service and the routes of its methods. -/
theorem calls_denote_routes :
    Text.Literal.IsScanner Text.Literal.scan ∧
    (∀ scan, Text.Literal.IsScanner scan → ∀ s t : List Char,
      scan (Text.Literal.encode s ++ '"' :: t) = some (s, t)) ∧
    (∀ s t : List Char,
      Text.Literal.encode (s ++ t) = Text.Literal.encode s ++ Text.Literal.encode t) ∧
    ∀ (options : Options) (api : Api),
      (fragments options api).flatMap Fragment.chars = (render options api).toList ∧
      (fragments options api).filterMap Fragment.value?
        = (api.services.flatMap fun service =>
            options.serverPath :: service.methods.map Method.route) ∧
      ∀ service ∈ api.services, ∀ method ∈ service.methods,
        methodFragments method <:+: fragments options api ∧
        quoted method.serviceUrl ++ "/" ++ quoted method.name = quoted method.route ∧
        ∃ before after, (render options api).toList
            = before ++ ("            return this.MakeRequest<" ++ method.output ++ ">(").toList
              ++ '"' :: ((quoted method.route).toList ++ '"' :: after) ∧
          ∀ scan, Text.Literal.IsScanner scan →
            scan ((quoted method.route).toList ++ '"' :: after)
              = some (method.route.toList, after) := by
  refine ⟨Text.Literal.isScanner_scan, fun scan h => h.scan_encode, Text.Literal.encode_append, ?_⟩
  intro options api
  refine ⟨chars_fragments options api, values_fragments options api, ?_⟩
  intro service hservice method hmethod
  refine ⟨methodFragments_within options hservice hmethod, quoted_route method, ?_⟩
  obtain ⟨before, after, htext⟩ := exists_call options hservice hmethod
  refine ⟨before, after, htext, fun scan h => ?_⟩
  rw [quoted, String.toList_ofList]
  exact h.scan_encode method.route.toList after

/-- Both parts of the route have quotes and backslashes where they meet the slash. -/
def crookedMethod : Method where
  serviceUrl := "a\"\\"
  serviceName := "Crooked"
  name := "\"\\\n"
  input := "In"
  output := "Out"

def crookedApi : Api where
  fileName := "crooked.proto"
  codeNamespace := ""
  services := [{ name := "Crooked", serviceUrl := "a", methods := [crookedMethod] }]

theorem calls_denote_routes_crooked :
    (quoted crookedMethod.route).toList = "a\\\"\\\\/\\\"\\\\\\n".toList ∧
      ∃ before after, (render {} crookedApi).toList
          = before ++ "            return this.MakeRequest<Out>(".toList
            ++ '"' :: ((quoted crookedMethod.route).toList ++ '"' :: after) ∧
        Text.Literal.scan ((quoted crookedMethod.route).toList ++ '"' :: after)
          = some ("a\"\\/\"\\\n".toList, after) := by
  obtain ⟨hscanner, -, -, htexts⟩ := calls_denote_routes
  obtain ⟨-, -, hcalls⟩ := htexts {} crookedApi
  obtain ⟨-, -, before, after, htext, hscan⟩ :=
    hcalls _ List.mem_cons_self crookedMethod List.mem_cons_self
  exact ⟨by decide +kernel, before, after, htext, hscan _ hscanner⟩

end TwirpClients.ClientText
