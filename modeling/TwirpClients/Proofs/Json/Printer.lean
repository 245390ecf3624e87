import Mathlib.Data.List.Forall2
import Mathlib.Data.List.Nodup
import TwirpClients.Json.Value
import TwirpClients.Proofs.Json.Token

/-!
# Printed values are read back

The reader of values is a machine that goes from state to state by tokens. A text drives it from one
state to another if its tokens do (`Drives`). A layout prints a value if, at any depth and with
anything open around it, its text drives the machine from wherever a value may start to the state in
which this value is done (`Prints`).

Lists and objects are printed alike, as parts between brackets, so what is said of parts is said
once for both (`Brackets.drives_printParts`). What differs is which states are passed through.
-/

namespace TwirpClients.Json

open State

def Drives (s t : State) (cs : List Char) : Prop :=
  ∃ tokens, Lexes cs tokens ∧ tokens.foldlM step? s = some t

section Drives

variable {s t u : State} {cs ds : List Char}

theorem Drives.trans (h : Drives s t cs) (h' : Drives t u ds) : Drives s u (cs ++ ds) := by
  obtain ⟨first, hlex, hfold⟩ := h
  obtain ⟨second, hlex', hfold'⟩ := h'
  refine ⟨first ++ second, hlex.append hlex', ?_⟩
  rw [List.foldlM_append, hfold]
  exact hfold'

theorem drives_token {token : Token} (hlex : Lexes cs [token]) (h : s.step? token = some t) :
    Drives s t cs := by
  refine ⟨[token], hlex, ?_⟩
  rw [List.foldlM_cons, h]
  rfl

theorem drives_mark {c : Char} {token : Token} (hc : isSpace c = false)
    (htoken : ∀ rest, token? (c :: rest) = some (token, rest)) (h : s.step? token = some t) :
    Drives s t [c] :=
  drives_token (lexes_of_token? hc htoken) h

theorem drives_of_isSpace (h : ∀ c ∈ cs, isSpace c = true) : Drives s s cs :=
  ⟨[], lexes_of_isSpace h, rfl⟩

end Drives

/-! ## Values -/

/-- A value may start in this state, and will be the next in the innermost of the stack. -/
def Awaits (s : State) (stack : List Frame) : Prop :=
  ∀ token t, start? stack token = some t → s.step? token = some t

theorem awaits_value (stack : List Frame) : Awaits (.value stack) stack :=
  fun _ _ h => h

theorem awaits_firstItem (stack : List Frame) :
    Awaits (.firstItem stack) (.list [] :: stack) := by
  intro token t h
  cases token with
  | listEnd => cases h
  | _ => exact h

def Prints (layout : Layout) (value : Json) : Prop :=
  ∀ indent stack s, Awaits s stack → Drives s (.done value stack) (layout indent)

theorem prints_text (text : String) : Prints (.text text) (.text (some text)) := by
  intro indent stack s hs
  exact drives_token (lexes_printText text) (hs _ _ rfl)

/-! ## Parts between brackets -/

def newLine (n : Nat) : List Char := '\n' :: List.replicate n ' '

theorem drives_newLine (s : State) (n : Nat) : Drives s s (newLine n) := by
  apply drives_of_isSpace
  intro c hc
  rcases List.mem_cons.1 hc with heq | hspace
  · rw [heq]
    rfl
  · rw [(List.mem_replicate.1 hspace).2]
    rfl

/-- The way of the machine through parts between brackets: `opened` is its state behind the first
bracket, `held b acc` that behind the part for `b`, with `acc` for the parts before it, last first,
and `closed bs` that behind the last bracket. -/
structure Brackets {β : Type} (R : Layout → β → Prop) (first last : Char) (s : State)
    (closed : List β → State) where
  opened : State
  held : β → List β → State
  start : Drives s opened [first]
  empty : Drives opened (closed []) [last]
  initial : ∀ part b n, R part b → Drives opened (held b []) (part n)
  further : ∀ part b b' acc n, R part b' →
    Drives (held b acc) (held b' (b :: acc)) (',' :: newLine n ++ part n)
  final : ∀ b acc, Drives (held b acc) (closed (b :: acc).reverse) [last]

namespace Brackets

variable {β : Type} {R : Layout → β → Prop} {first last : Char} {s : State}
  {closed : List β → State} {parts : List Layout} {bs : List β}

theorem drives_further (brackets : Brackets R first last s closed) (n : Nat)
    (h : List.Forall₂ R parts bs) (b : β) (acc : List β) :
    ∃ b' acc', b' :: acc' = bs.reverse ++ b :: acc ∧
      Drives (brackets.held b acc) (brackets.held b' acc')
        (parts.flatMap fun part => ',' :: newLine n ++ part n) := by
  induction h generalizing b acc with
  | nil => exact ⟨b, acc, rfl, drives_of_isSpace (by simp)⟩
  | @cons part c parts cs hpart hparts ih =>
    obtain ⟨b', acc', heq, hdrives⟩ := ih c (b :: acc)
    refine ⟨b', acc', ?_, ?_⟩
    · rw [heq]
      simp
    · rw [List.flatMap_cons]
      exact (brackets.further part b c acc n hpart).trans hdrives

theorem drives_printParts (brackets : Brackets R first last s closed)
    (h : List.Forall₂ R parts bs) (indent : Nat) :
    Drives s (closed bs) (printParts first last parts indent) := by
  cases h with
  | nil => exact brackets.start.trans brackets.empty
  | @cons part b parts bs hpart hparts =>
    obtain ⟨b', acc', heq, hfurther⟩ := brackets.drives_further (indent + 2) hparts b []
    have hclosed : (b' :: acc').reverse = b :: bs := by
      rw [heq]
      simp
    have hend := (drives_newLine _ indent).trans (brackets.final b' acc')
    rw [hclosed] at hend
    have hstart := (brackets.start.trans (drives_newLine _ (indent + 2))).trans
      (brackets.initial part b (indent + 2) hpart)
    have hall := (hstart.trans hfurther).trans hend
    simpa [printParts, newLine] using hall

end Brackets

def listBrackets (stack : List Frame) {s : State} (hs : Awaits s stack) :
    Brackets Prints '[' ']' s fun values => .done (.list values) stack where
  opened := .firstItem stack
  held value items := .done value (.list items :: stack)
  start := drives_mark rfl (fun _ => rfl) (hs _ _ rfl)
  empty := drives_mark rfl (fun _ => rfl) rfl
  initial := by
    intro layout value n hvalue
    exact hvalue n _ _ (awaits_firstItem stack)
  further := by
    intro layout value value' items n hvalue
    have hcomma : Drives (.done value (.list items :: stack))
        (.value (.list (value :: items) :: stack)) [','] := drives_mark rfl (fun _ => rfl) rfl
    exact (hcomma.trans (drives_newLine _ n)).trans (hvalue n _ _ (awaits_value _))
  final := by
    intro value items
    exact drives_mark rfl (fun _ => rfl) rfl

theorem prints_list {layouts : List Layout} {values : List Json}
    (h : List.Forall₂ Prints layouts values) : Prints (.list layouts) (.list values) := by
  intro indent stack s hs
  exact (listBrackets stack hs).drives_printParts h indent

/-! ## Objects -/

def memberLayout (name : String) (value : Layout) : Layout :=
  fun indent => printText name ++ [':', ' '] ++ value indent

def PrintsMember (layout : Layout) (member : Option String × Json) : Prop :=
  ∃ name value, layout = memberLayout name value ∧ member.1 = some name ∧ Prints value member.2

theorem drives_member {s : State} {layout : Layout} {member : Option String × Json}
    (h : PrintsMember layout member) {acc : List (Option String × Json)} {stack : List Frame}
    (hs : s.step? (.text member.1) = some (.colon acc member.1 stack)) (n : Nat) :
    Drives s (.done member.2 (.member acc member.1 :: stack)) (layout n) := by
  obtain ⟨name, value, rfl, hname, hvalue⟩ := h
  rw [hname] at hs ⊢
  have htext := drives_token (lexes_printText name) hs
  have hcolon : Drives (.colon acc (some name) stack) (.value (.member acc (some name) :: stack))
      [':'] := drives_mark rfl (fun _ => rfl) rfl
  have hspace : Drives (.value (.member acc (some name) :: stack))
      (.value (.member acc (some name) :: stack)) [' '] := drives_of_isSpace (by simp [isSpace])
  exact (htext.trans (hcolon.trans hspace)).trans (hvalue n _ _ (awaits_value _))

def objectBrackets (stack : List Frame) {s : State} (hs : Awaits s stack) :
    Brackets PrintsMember '\x7b' '\x7d' s fun members => .done (.object members) stack where
  opened := .firstName stack
  held member members := .done member.2 (.member members member.1 :: stack)
  start := drives_mark rfl (fun _ => rfl) (hs _ _ rfl)
  empty := drives_mark rfl (fun _ => rfl) rfl
  initial := by
    intro layout member n hmember
    exact drives_member hmember rfl n
  further := by
    intro layout member member' members n hmember
    have hcomma : Drives (.done member.2 (.member members member.1 :: stack))
        (.name (member :: members) stack) [','] := drives_mark rfl (fun _ => rfl) rfl
    exact (hcomma.trans (drives_newLine _ n)).trans (drives_member hmember rfl n)
  final := by
    intro member members
    exact drives_mark rfl (fun _ => rfl) rfl

theorem prints_object {members : List (String × Layout)} {values : List (Option String × Json)}
    (h : List.Forall₂ (fun member value => value.1 = some member.1 ∧ Prints member.2 value.2)
      members values) : Prints (.object members) (.object values) := by
  intro indent stack s hs
  apply (objectBrackets stack hs).drives_printParts
  rw [List.forall₂_map_left_iff]
  apply h.imp
  intro member value hmember
  exact ⟨member.1, member.2, rfl, hmember.1, hmember.2⟩

/-! ## Records -/

def record (names : List String) (values : List Json) : Json :=
  .object ((names.zip values).map (Prod.map some id))

theorem prints_record {names : List String} {layouts : List Layout} {values : List Json}
    (h : List.Forall₂ Prints layouts values) :
    Prints (.object (names.zip layouts)) (record names values) := by
  apply prints_object
  rw [List.forall₂_map_right_iff]
  induction h generalizing names with
  | nil => simp
  | cons hfirst hrest ih =>
    cases names with
    | nil => exact .nil
    | cons name names => exact .cons ⟨rfl, hfirst⟩ ih

theorem filter_name_of_mem {members : List (Option String × Json)}
    (hnodup : (members.map (·.1)).Nodup) {name : Option String} {value : Json}
    (h : (name, value) ∈ members) : members.filter (·.1 == name) = [(name, value)] := by
  induction members with
  | nil => cases h
  | cons member members ih =>
    rw [List.map_cons, List.nodup_cons] at hnodup
    rcases List.mem_cons.1 h with heq | hmem
    · have hothers : members.filter (·.1 == name) = [] := by
        apply List.filter_eq_nil_iff.2
        intro other hother hname
        have hmap := List.mem_map_of_mem (f := Prod.fst) hother
        rw [eq_of_beq hname] at hmap
        rw [← heq] at hnodup
        exact hnodup.1 hmap
      rw [← heq, List.filter_cons_of_pos (by simp), hothers]
    · have hne : ¬ (member.1 == name) = true := by
        intro hname
        rw [eq_of_beq hname] at hnodup
        exact hnodup.1 (List.mem_map_of_mem (f := Prod.fst) hmem)
      rw [List.filter_cons, if_neg hne, ih hnodup.2 hmem]

theorem only?_of_mem {members : List (Option String × Json)} (hnodup : (members.map (·.1)).Nodup)
    {name : String} {value : Json} (h : (some name, value) ∈ members) :
    only? members name = some value := by
  simp only [only?, filter_name_of_mem hnodup h]

theorem mapM_of_forall₂ {α β : Type} {f : α → Option β} {as : List α} {bs : List β}
    (h : List.Forall₂ (fun a b => f a = some b) as bs) : as.mapM f = some bs := by
  induction h with
  | nil => rfl
  | cons hfirst _ ih =>
    rw [List.mapM_cons, hfirst, ih]
    rfl

theorem fields?_record {names : List String} {values : List Json} (hnodup : names.Nodup)
    (hlength : names.length = values.length) :
    (record names values).fields? names = some values := by
  have hnames : ((names.zip values).map (Prod.map some id)).map (·.1) = names.map some := by
    calc ((names.zip values).map (Prod.map some id)).map (·.1)
        = ((names.zip values).map (·.1)).map some := by simp
      _ = names.map some := by rw [List.map_fst_zip (by omega)]
  have hdistinct : (((names.zip values).map (Prod.map some id)).map (·.1)).Nodup := by
    rw [hnames]
    exact hnodup.map fun _ _ heq => Option.some.inj heq
  have hsome : ((names.zip values).map (Prod.map some id)).all (·.1.isSome) = true := by
    simp
  have hfields : List.Forall₂
      (fun name value => only? ((names.zip values).map (Prod.map some id)) name = some value)
      names values := by
    apply List.forall₂_iff_zip.2 ⟨hlength, ?_⟩
    intro name value hmem
    exact only?_of_mem hdistinct (List.mem_map_of_mem (f := Prod.map some id) hmem)
  simp only [record, fields?, hsome, if_true, mapM_of_forall₂ hfields]

/-! ## Whole texts -/

theorem parse?_of_prints {layout : Layout} {value : Json} (h : Prints layout value)
    {text : String} {space : List Char} (hspace : ∀ c ∈ space, isSpace c = true)
    (htext : text.toList = layout 0 ++ space) : parse? text = some value := by
  obtain ⟨tokens, hlex, hfold⟩ := h 0 [] (.value []) (awaits_value [])
  have hempty : tokens? [] = some [] := by rw [tokens?_eq]; rfl
  have hend : tokens? space = some [] := by
    have hlexes := lexes_of_isSpace hspace []
    rw [List.append_nil, hempty] at hlexes
    exact hlexes
  have htokens : tokens? text.toList = some tokens := by
    rw [htext, hlex, hend, Option.map_some, List.append_nil]
  simp only [parse?, htokens, Option.bind_eq_bind, Option.bind_some, hfold]

end TwirpClients.Json
