/-!
# Taking a text apart at separators

`cut?` cuts at the first separator, `uptoLast` and `afterLast` at the last one, and all characters
stay in order (`uptoLast_append_afterLast`). Cutting at every separator is `List.splitOn`, and
`List.intercalate` undoes it.
-/

namespace TwirpClients.Text

def cut? (sep : Char) (cs : List Char) : Option (List Char × List Char) :=
  match cs.dropWhile (· != sep) with
  | [] => none
  | _ :: after => some (cs.takeWhile (· != sep), after)

/-- The text up to its last separator, which is kept; empty if there is none. -/
def uptoLast (sep : Char) (cs : List Char) : List Char :=
  (cs.reverse.dropWhile (· != sep)).reverse

/-- The text behind its last separator; all of it if there is none. -/
def afterLast (sep : Char) (cs : List Char) : List Char :=
  (cs.reverse.takeWhile (· != sep)).reverse

theorem uptoLast_append_afterLast (sep : Char) (cs : List Char) :
    uptoLast sep cs ++ afterLast sep cs = cs := by
  rw [uptoLast, afterLast, ← List.reverse_append, List.takeWhile_append_dropWhile,
    List.reverse_reverse]

end TwirpClients.Text
