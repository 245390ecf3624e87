/-!
# Paths

A path is the list of the texts between its slashes, as it is spelled: an empty text
at the front makes it absolute, one at the end is a trailing slash. So the text of a path can always
be had back (`text_ofText`), which matters because the system takes paths as they are spelled.

Empty texts and single dots lead nowhere. Leaving them out gives the parts of a path that
count; `parent` is the path without the last of these.
-/

namespace TwirpClients

structure Path where
  segments : List String
deriving DecidableEq, Repr

namespace Path

def ofText (text : String) : Path where
  segments := (text.toList.splitOn '/').map String.ofList

def text (path : Path) : String := "/".intercalate path.segments

def isIdle (segment : String) : Bool := segment == "" || segment == "."

def isAbsolute (path : Path) : Bool := path.segments.head? == some "" && path.segments.length > 1

/-- The path spelled as the directory, a slash unless there is one, and the name. -/
def join (directory name : Path) : Path where
  segments :=
    (if directory.segments.getLast? = some "" then directory.segments.dropLast
      else directory.segments) ++ name.segments

/-- The path without its last segment that is not idle, and without what is behind it. -/
def parent (path : Path) : Path where
  segments := ((path.segments.reverse.dropWhile isIdle).drop 1).reverse

/-- Whether the path, taken from some directory, names something below that directory: it starts
with a proper name and never goes up. -/
def isConfined (path : Path) : Bool :=
  (match path.segments with
    | [] => false
    | first :: _ => !isIdle first)
    && !path.segments.contains ".."

theorem text_ofText (text : String) : (ofText text).text = text := by
  apply String.toList_injective
  simp [ofText, Path.text, Function.comp_def, List.intercalate_splitOn]

end Path
end TwirpClients
