import Std.Data.ExtTreeMap
import TwirpClients.Storage.Basic

/-!
# Files in memory

A tree of files and directories without links, by location: the names on the way from
the root. The operations find their way through it segment by segment, and fail, as the system
does: a name that is missing, a file in the place of a directory, a name that is too long.
-/

namespace TwirpClients

inductive Entry where
  | file (content : List UInt8)
  | directory
deriving DecidableEq, Repr

abbrev Location := List String

structure FileTree where
  entries : Std.ExtTreeMap Location Entry compare := ∅
  /-- The directory from which relative paths are taken. -/
  here : Location := []

namespace FileTree

/-- What is at a location; the root is always a directory. -/
def get? (tree : FileTree) (location : Location) : Option Entry :=
  if location = [] then some .directory else tree.entries[location]?

def set (tree : FileTree) (location : Location) (entry : Entry) : FileTree :=
  { tree with entries := tree.entries.insert location entry }

theorem get?_set (tree : FileTree) {location : Location} (h : location ≠ []) (entry : Entry)
    (other : Location) :
    (tree.set location entry).get? other
      = if other = location then some entry else tree.get? other := by
  by_cases ho : other = location
  · subst ho
    simp [get?, set, h]
  · have hne : location ≠ other := fun he => ho he.symm
    simp [get?, set, ho, Std.ExtTreeMap.getElem?_insert, hne]

def maxNameSize : Nat := 255

/-- A path with as many bytes is too long. -/
def pathSizeLimit : Nat := 4096

def child (location : Location) (name : String) : Except Failure Location :=
  if name.utf8ByteSize > maxNameSize then .error .nameTooLong else .ok (location ++ [name])

def enter (tree : FileTree) (location : Location) (segment : String) :
    Except Failure Location := do
  if Path.isIdle segment then return location
  -- above the root there is nothing but the root
  if segment = ".." then return location.dropLast
  let next ← child location segment
  match tree.get? next with
  | none => .error .notFound
  | some (.file _) => .error .notDirectory
  | some .directory => return next

def walk (tree : FileTree) (location : Location) (segments : List String) :
    Except Failure Location :=
  segments.foldlM tree.enter location

/-- Refuses what no system call would take for a path. -/
def check (path : Path) : Except Failure Unit := do
  if path.segments.any (·.toList.contains '\x00') then .error .nulByte
  if path.text = "" then .error .notFound
  if path.text.utf8ByteSize ≥ pathSizeLimit then .error .nameTooLong

def start (tree : FileTree) (path : Path) : Location := if path.isAbsolute then [] else tree.here

/-- Where a path ends: at a directory that has no name there, because the path is a slash or
ends in one or two dots; or at a name in a directory, with a trailing slash or without. -/
inductive Target where
  | directory (location : Location)
  | name (directory : Location) (name : String) (slash : Bool)
deriving DecidableEq, Repr

def target (tree : FileTree) (path : Path) : Except Failure Target := do
  check path
  match path.segments.reverse.dropWhile (· == "") with
  | [] => return .directory (tree.start path)
  | last :: above =>
    let location ← tree.walk (tree.start path) above.reverse
    if last = "." ∨ last = ".." then return .directory (← tree.enter location last)
    return .name location last (path.segments.getLast? = some "")

def read (tree : FileTree) (path : Path) : Except Failure (List UInt8) := do
  match ← tree.target path with
  | .directory _ => .error .isDirectory
  | .name location name slash =>
    match tree.get? (← child location name) with
    | none => .error .notFound
    | some .directory => .error .isDirectory
    | some (.file content) => if slash then .error .notDirectory else return content

/-- The tree with another content of a file, which need not be there before. A trailing slash
asks for a directory, whatever is there. -/
def write (tree : FileTree) (path : Path) (content : List UInt8) : Except Failure FileTree := do
  match ← tree.target path with
  | .directory _ => .error .isDirectory
  | .name location name slash =>
    if slash then .error .isDirectory
    let location ← child location name
    match tree.get? location with
    | some .directory => .error .isDirectory
    | _ => return tree.set location (.file content)

def makeDirectory (tree : FileTree) (path : Path) : Except Failure FileTree := do
  match ← tree.target path with
  | .directory _ => .error .alreadyExists
  | .name location name _ =>
    let location ← child location name
    match tree.get? location with
    | some _ => .error .alreadyExists
    | none => return tree.set location .directory

def isDirectory (tree : FileTree) (path : Path) : Bool :=
  match check path with
  | .error _ => false
  | .ok () => (tree.walk (tree.start path) path.segments).isOk

/-- Runs an operation that changes the tree; one that fails leaves it as it is. -/
def update (operation : FileTree → Except Failure FileTree) :
    StateM FileTree (Except Failure Unit) := fun tree =>
  match operation tree with
  | .ok tree => (.ok (), tree)
  | .error failure => (.error failure, tree)

instance : Storage (StateM FileTree) where
  readFile path := return (← get).read path
  writeFile path content := update (·.write path content)
  makeDirectory path := update (·.makeDirectory path)
  isDirectory path := return (← get).isDirectory path

def below (tree : FileTree) (directory : Location) : List (Location × Entry) :=
  tree.entries.toList.filterMap fun (location, entry) =>
    if directory.isPrefixOf location ∧ location ≠ directory then
      some (location.drop directory.length, entry)
    else
      none

end FileTree
end TwirpClients
