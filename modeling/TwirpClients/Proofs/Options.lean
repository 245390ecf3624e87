import TwirpClients.Options
import TwirpClients.Proofs.Text.Blank
import TwirpClients.Proofs.Text.Split

/-!
# Options by parameter

A parameter with the one entry `prefix=` and a path asks for that path, provided that the path
is all of the trimmed value: no comma ends the entry early, and no blank is at an end of the path.
-/

namespace TwirpClients.Options

/-- The paths that stand in a parameter as they are. -/
structure Plain (path : String) : Prop where
  comma : ',' ∉ path.toList
  first : ∀ c ∈ path.toList.head?, Text.isBlank c = false
  last : ∀ c ∈ path.toList.getLast?, Text.isBlank c = false

theorem Plain.trim {path : String} (h : Plain path) : Text.trim path.toList = path.toList :=
  Text.trim_eq_self h.first h.last

theorem entries_pathEntry {path : String} (h : Plain path) :
    entries ("prefix=" ++ path) = [("prefix=" ++ path).toList] := by
  have hcs : ("prefix=" ++ path).toList = "prefix=".toList ++ path.toList := String.toList_append
  have hcomma : ',' ∉ ("prefix=" ++ path).toList := by
    rw [hcs, List.mem_append]
    exact fun hmem => hmem.elim (by decide) h.comma
  have hfirst : ∀ c ∈ ("prefix=" ++ path).toList.head?, Text.isBlank c = false := by
    have hp : "prefix=".toList.head? = some 'p' := by decide
    intro c hc
    rw [hcs, List.head?_append, hp] at hc
    cases hc
    decide
  have hlast : ∀ c ∈ ("prefix=" ++ path).toList.getLast?, Text.isBlank c = false := by
    have he : "prefix=".toList.getLast? = some '=' := by decide
    intro c hc
    rw [hcs, List.getLast?_append, he] at hc
    cases hl : path.toList.getLast? with
    | none =>
      rw [hl] at hc
      cases hc
      decide
    | some d =>
      rw [hl] at hc
      cases hc
      exact h.last c hl
  simp only [entries, List.splitOn_eq_singleton hcomma, List.map_cons, List.map_nil,
    Text.trim_eq_self hfirst hlast]
  simp

theorem withEntry_pathEntry (options : Options) {path : String} (h : Plain path) :
    options.withEntry ("prefix=" ++ path).toList = options.withServerPath path := by
  have hcs : ("prefix=" ++ path).toList = "prefix".toList ++ '=' :: path.toList := by
    have hequals : "prefix=" = "prefix" ++ "=" := rfl
    simp [hequals]
  have hcut := Text.cut?_append_cons (show '=' ∉ "prefix".toList by decide) path.toList
  have hkey : Text.trim "prefix".toList = "prefix".toList := by decide
  rw [hcs, withEntry, hcut]
  simp only [hkey, h.trim, if_true, String.ofList_toList]

/-- A parameter that is one entry for a plain path has the effect of asking for the path directly,
also where the path is refused. -/
theorem ofParameter_pathEntry {path : String} (h : Plain path) :
    ofParameter (some ("prefix=" ++ path)) = withServerPath {} path := by
  simp only [ofParameter, entries_pathEntry h, List.foldlM_cons, List.foldlM_nil,
    withEntry_pathEntry _ h]
  cases withServerPath {} path <;> rfl

end TwirpClients.Options
