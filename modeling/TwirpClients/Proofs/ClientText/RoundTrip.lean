import TwirpClients.Proofs.ClientText.Outline
import TwirpClients.Proofs.Text.Split

/-!
# Client texts give their outlines back

Reading is described part by part: each reader is run on the text that stands for its value
with anything behind it. The parts of a line are put together by rewriting, calls and clients by
`many_flatMap`. The options need no premise, because every text can stand in a literal; names and
types have to be words, since they stand in the text as they are, and what ends with its line must
not have a line feed (`Legible`).
-/

namespace TwirpClients.ClientText

theorem toList_ofList_cons (c : Char) (cs : List Char) :
    (String.ofList (c :: cs)).toList = c :: (String.ofList cs).toList := by
  simp

theorem isPrefixOf?_append (text rest : List Char) :
    text.isPrefixOf? (text ++ rest) = some rest := by
  induction text with
  | nil => rfl
  | cons c text ih =>
    change (if c == c then text.isPrefixOf? (text ++ rest) else none) = some rest
    rw [beq_self_eq_true, if_pos rfl, ih]

theorem isSuffixOf?_append (text ending : List Char) :
    ending.isSuffixOf? (text ++ ending) = some text := by
  change Option.map List.reverse (ending.reverse.isPrefixOf? (text ++ ending).reverse) = some text
  rw [List.reverse_append, isPrefixOf?_append, Option.map_some, List.reverse_reverse]

namespace Reader

theorem expect_append (text : String) (rest : List Char) :
    (expect text).run (text.toList ++ rest) = some ((), rest) := by
  simp [StateT.run, expect, isPrefixOf?_append]

theorem newline_cons (rest : List Char) : newline.run ('\n' :: rest) = some ((), rest) :=
  expect_append "\n" rest

theorem newline_cons_of_ne {c : Char} (h : c ≠ '\n') (rest : List Char) :
    newline.run (c :: rest) = none := by
  have hc : ('\n' == c) = false := by simpa using h.symm
  change (if '\n' == c then some rest else none).map _ = none
  rw [hc]
  rfl

theorem word_append {text : String} (ht : ∀ d ∈ text.toList, isWordChar d = true) (after : String)
    (ha : after.toList.head?.any (!isWordChar ·) = true) (rest : List Char) :
    word.run (text.toList ++ (after.toList ++ rest)) = some (text, after.toList ++ rest) := by
  obtain ⟨c, hc, hn⟩ := (Option.any_eq_true _ _).1 ha
  obtain ⟨cs, hcs⟩ := List.head?_eq_some_iff.1 hc
  have hn : ¬ isWordChar c = true := by simpa using hn
  simp only [word, StateT.run, hcs, List.cons_append, List.takeWhile_append_of_pos ht,
    List.dropWhile_append_of_pos ht, List.takeWhile_cons_of_neg hn, List.dropWhile_cons_of_neg hn,
    List.append_nil, String.ofList_toList]

theorem wordBefore_append {text : String} (ht : ∀ d ∈ text.toList, isWordChar d = true)
    (ending after : String) (he : ending.toList.all isWordChar = true)
    (ha : after.toList.head?.any (!isWordChar ·) = true) (rest : List Char) :
    (wordBefore ending).run (text.toList ++ (ending.toList ++ (after.toList ++ rest)))
      = some (text, after.toList ++ rest) := by
  have hw : ∀ d ∈ (text ++ ending).toList, isWordChar d = true := by
    intro d hd
    rw [String.toList_append, List.mem_append] at hd
    exact hd.elim (ht d) (List.all_eq_true.1 he d)
  have hr := word_append hw after ha rest
  rw [String.toList_append, List.append_assoc] at hr
  simp only [wordBefore, StateT.run_bind, hr, Option.bind_eq_bind, Option.bind_some,
    String.toList_append, isSuffixOf?_append, StateT.run_pure, String.ofList_toList,
    Option.pure_def]

theorem restOfLine_append {line : List Char} (h : '\n' ∉ line) (rest : List Char) :
    restOfLine.run (line ++ '\n' :: rest) = some (String.ofList line, rest) := by
  simp only [restOfLine, StateT.run, Text.cut?_append_cons h, Option.map_some]

theorem literal_append (text : List Char) (after : String) (rest : List Char) :
    literal.run (Text.Literal.encode text ++ ('"' :: after.toList ++ rest))
      = some (String.ofList text, after.toList ++ rest) := by
  simp only [literal, StateT.run, List.cons_append, Text.Literal.scan_encode, Option.map_some]

theorem maybe_of_some {item : Reader α} {cs rest : List Char} {a : α}
    (h : item.run cs = some (a, rest)) : (maybe item).run cs = some (some a, rest) := by
  unfold StateT.run at *
  simp only [maybe, h]

theorem maybe_of_none {item : Reader α} {cs : List Char} (h : item.run cs = none) :
    (maybe item).run cs = some (none, cs) := by
  unfold StateT.run at *
  simp only [maybe, h]

/-- A repetition reads its items one after the other and ends where no item starts. -/
theorem many_flatMap {item : Reader β} {text : α → List Char} {value : α → β} {rest : List Char}
    (hend : item.run rest = none) {as : List α} (hne : ∀ a ∈ as, text a ≠ [])
    (hitem : ∀ a ∈ as, ∀ rest, item.run (text a ++ rest) = some (value a, rest)) :
    (many item).run (as.flatMap text ++ rest) = some (as.map value, rest) := by
  unfold StateT.run at *
  induction as with
  | nil =>
    rw [List.flatMap_nil, List.nil_append, many]
    simp only [hend, List.map_nil]
  | cons a as ih =>
    have ha := hitem a List.mem_cons_self (as.flatMap text ++ rest)
    have hlen : 0 < (text a).length := List.length_pos_iff.2 (hne a List.mem_cons_self)
    have hs : (as.flatMap text ++ rest).length < (text a ++ (as.flatMap text ++ rest)).length := by
      simp only [List.length_append]
      omega
    have hrest := ih (fun b hb => hne b (List.mem_cons_of_mem a hb))
      (fun b hb => hitem b (List.mem_cons_of_mem a hb))
    rw [List.flatMap_cons, List.append_assoc, many]
    simp only [ha, if_pos hs, hrest, Option.map_some, List.map_cons]

end Reader

theorem unlines_nil : (unlines []).toList = [] := by
  simp [unlines]

theorem unlines_cons (line : String) (ls : List String) :
    (unlines (line :: ls)).toList = line.toList ++ '\n' :: (unlines ls).toList := by
  simp [unlines]

theorem unlines_cons_ne_nil (line : String) (ls : List String) :
    (unlines (line :: ls)).toList ≠ [] := by
  simp [unlines_cons]

theorem unlines_append (ls ls' : List String) :
    (unlines (ls ++ ls')).toList = (unlines ls).toList ++ (unlines ls').toList := by
  simp [unlines]

theorem unlines_flatMap (f : α → List String) (as : List α) :
    (unlines (as.flatMap f)).toList = as.flatMap fun a => (unlines (f a)).toList := by
  simp [unlines, List.flatMap_assoc]

-- the quotes that end the literals in a text, apart from the code behind them
theorem toList_constructorEnd :
    "\") : base(mono, url, timeout, serverPathPrefix) \x7b".toList
      = '"' :: ") : base(mono, url, timeout, serverPathPrefix) \x7b".toList :=
  toList_ofList_cons _ _

theorem toList_callEnd : "\", request);".toList = '"' :: ", request);".toList :=
  toList_ofList_cons _ _

theorem quoted_route_toList (method : Method) (rest : List Char) :
    (quoted method.serviceUrl).toList ++ ("/".toList ++ ((quoted method.name).toList ++ rest))
      = Text.Literal.encode method.route.toList ++ rest := by
  -- the slash needs no escape, so the two parts of a route are encoded as the route is
  have hs : Text.Literal.encode "/".toList = "/".toList := by decide
  simp only [quoted, String.toList_ofList, Method.route, String.toList_append,
    Text.Literal.encode_append, List.append_assoc, hs]

def IsWord (text : String) : Prop := ∀ c ∈ text.toList, isWordChar c = true

structure LegibleMethod (method : Method) : Prop where
  name : IsWord method.name
  input : IsWord method.input
  output : IsWord method.output

structure LegibleService (service : Service) : Prop where
  name : IsWord service.name
  methods : ∀ method ∈ service.methods, LegibleMethod method

/-- The APIs whose texts can be read: names and types are words, and the texts that end with their
line have no line feed. -/
structure Legible (api : Api) : Prop where
  source : '\n' ∉ api.fileName.toList
  codeNamespace : '\n' ∉ api.codeNamespace.toList
  services : ∀ service ∈ api.services, LegibleService service

def Call.ofMethod (method : Method) : Call :=
  ⟨method.name, method.input, method.output, method.route⟩

def Client.ofService (options : Options) (service : Service) : Client :=
  ⟨service.name, options.serverPath, service.methods.map Call.ofMethod⟩

def Outline.ofApi (options : Options) (api : Api) : Outline :=
  ⟨api.fileName, api.codeNamespace, api.services.map (Client.ofService options)⟩

namespace Reader

theorem call_methodLines {method : Method} (h : LegibleMethod method) (rest : List Char) :
    call.run ((unlines (methodLines method)).toList ++ rest) = some (.ofMethod method, rest) := by
  have houtput := word_append h.output "> " (by decide)
  have hname := word_append h.name "(" (by decide)
  have hinput := word_append h.input " request) \x7b" (by decide)
  have hroute := literal_append method.route.toList ", request);"
  simp only [methodLines, unlines_cons, unlines_nil, String.toList_append, List.append_assoc,
    List.cons_append, List.nil_append, quoted_route_toList, toList_callEnd, String.toList_empty]
  simp only [List.cons_append] at hroute
  simp only [call, StateT.run_bind, newline_cons, expect_append, houtput, hname, hinput, hroute,
    Option.bind_eq_bind, Option.bind_some, StateT.run_pure, String.ofList_toList, Option.pure_def]
  rfl

theorem many_call {methods : List Method} (h : ∀ method ∈ methods, LegibleMethod method)
    (rest : List Char) :
    (many call).run ((unlines (methods.flatMap methodLines)).toList ++ ("    \x7d".toList ++ rest))
      = some (methods.map Call.ofMethod, "    \x7d".toList ++ rest) := by
  have hbrace : "    \x7d".toList = ' ' :: "   \x7d".toList := toList_ofList_cons _ _
  rw [unlines_flatMap]
  apply many_flatMap
  -- the closing brace of the class is indented, and a call starts with an empty line
  · rw [hbrace, List.cons_append]
    simp only [call, StateT.run_bind, newline_cons_of_ne (show ' ' ≠ '\n' by decide)]
    rfl
  · intro method _
    exact unlines_cons_ne_nil _ _
  · intro method hm
    exact call_methodLines (h method hm)

theorem client_classLines (options : Options) {service : Service} (h : LegibleService service)
    (rest : List Char) :
    client.run ((unlines (classLines options service)).toList ++ rest)
      = some (.ofService options service, rest) := by
  have hname := wordBefore_append h.name "Client" " : TwirpClient \x7b" (by decide) (by decide)
  have hpath := literal_append options.serverPath.toList
    ") : base(mono, url, timeout, serverPathPrefix) \x7b"
  have hcalls := many_call h.methods
  have hclass : "Client : TwirpClient \x7b".toList
      = "Client".toList ++ " : TwirpClient \x7b".toList := by
    rw [← String.toList_append]
    rfl
  simp only [classLines, unlines_append, unlines_cons, unlines_nil, String.toList_append,
    List.append_assoc, List.cons_append, List.nil_append, quoted, String.toList_ofList, hclass,
    toList_constructorEnd, String.toList_empty]
  simp only [List.cons_append] at hpath
  simp only [client, StateT.run_bind, newline_cons, expect_append, hname, hpath, hcalls,
    Option.bind_eq_bind, Option.bind_some, StateT.run_pure, String.ofList_toList, Option.pure_def]
  rfl

theorem many_client (options : Options) {services : List Service}
    (h : ∀ service ∈ services, LegibleService service) (rest : List Char) :
    (many client).run
        ((unlines (services.flatMap (classLines options))).toList ++ ("\x7d".toList ++ rest))
      = some (services.map (Client.ofService options), "\x7d".toList ++ rest) := by
  have hbrace : "\x7d".toList = ['\x7d'] := toList_ofList_cons _ _
  rw [unlines_flatMap]
  apply many_flatMap
  · rw [hbrace, List.cons_append]
    simp only [client, StateT.run_bind, newline_cons_of_ne (show '\x7d' ≠ '\n' by decide)]
    rfl
  · intro service _
    exact unlines_cons_ne_nil _ _
  · intro service hs
    exact client_classLines options (h service hs)

theorem usedNamespace_append {text : String} (h : '\n' ∉ text.toList) (rest : List Char) :
    usedNamespace.run ("using ".toList ++ (text.toList ++ (";".toList ++ '\n' :: rest)))
      = some (text, rest) := by
  have hline : '\n' ∉ text.toList ++ ";".toList := by
    rw [List.mem_append]
    exact fun hm => hm.elim h (by decide)
  have hr := restOfLine_append hline rest
  rw [List.append_assoc] at hr
  simp only [usedNamespace, StateT.run_bind, expect_append, hr, Option.bind_eq_bind,
    Option.bind_some, String.toList_ofList, isSuffixOf?_append, StateT.run_pure,
    String.ofList_toList, Option.pure_def]

theorem usedNamespace_newline (rest : List Char) : usedNamespace.run ('\n' :: rest) = none := rfl

theorem codeNamespace_usingLines {api : Api} (h : '\n' ∉ api.codeNamespace.toList)
    (rest : List Char) :
    codeNamespace.run ((unlines (usingLines api)).toList ++ '\n' :: rest)
      = some (api.codeNamespace, '\n' :: rest) := by
  have hengine := usedNamespace_append (show '\n' ∉ "UnityEngine".toList by decide)
  have hfixed : "using UnityEngine;".toList
      = "using ".toList ++ ("UnityEngine".toList ++ ";".toList) := by
    rw [← String.toList_append, ← String.toList_append]
    rfl
  simp only [usingLines, unlines_append, unlines_cons, unlines_nil, hfixed, List.append_assoc,
    List.cons_append, List.nil_append]
  by_cases hn : api.codeNamespace = ""
  · -- only one namespace is in use, and no second one can be read from an empty line
    have hnone := maybe_of_none (usedNamespace_newline rest)
    simp only [unlines_nil, List.nil_append, codeNamespace, StateT.run_bind, hengine, hnone,
      Option.bind_eq_bind, Option.bind_some, ↓reduceIte, StateT.run_pure, Option.pure_def, hn]
  · have hused := usedNamespace_append h
    have hsome := maybe_of_some (hengine ('\n' :: rest))
    simp only [if_neg hn, unlines_cons, unlines_nil, String.toList_append, List.append_assoc,
      List.cons_append, List.nil_append, codeNamespace, StateT.run_bind, hused, hsome,
      Option.bind_eq_bind, Option.bind_some, ↓reduceIte, StateT.run_pure, Option.pure_def]

theorem outline_lines (options : Options) {api : Api} (h : Legible api) :
    outline.run (unlines (lines options api)).toList = some (.ofApi options api, []) := by
  have hsource := restOfLine_append h.source
  have huse := codeNamespace_usingLines h.codeNamespace
  have hclients := many_client options h.services
  simp only [lines, headerLines, unlines_append, unlines_cons, unlines_nil, String.toList_append,
    List.append_assoc, List.cons_append, List.nil_append, String.toList_empty]
  simp only [outline, StateT.run_bind, newline_cons, expect_append, hsource, huse, hclients,
    Option.bind_eq_bind, Option.bind_some, StateT.run_pure, String.ofList_toList, Option.pure_def]
  rfl

end Reader

/-- The text of an API gives the outline of the API back, for all options. -/
theorem read_render_of_legible (options : Options) {api : Api} (h : Legible api) :
    read (render options api) = some (.ofApi options api) := by
  have ho := Reader.outline_lines options h
  unfold StateT.run at ho
  simp only [read, render, ho]

end TwirpClients.ClientText
