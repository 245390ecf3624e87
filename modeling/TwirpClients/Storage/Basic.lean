import TwirpClients.Storage.Path

/-!
# Storage

The four things that are asked of a file system, each of which may fail. A program that
only uses these runs on the files of the machine as well as on a tree of files in memory.
-/

namespace TwirpClients

inductive Failure where
  | notFound
  | alreadyExists
  | notDirectory
  | isDirectory
  | nameTooLong
  | nulByte
  | other (text : String)
deriving DecidableEq, Repr

def Failure.message : Failure → String
  | notFound => "No such file or directory (os error 2)"
  | alreadyExists => "File exists (os error 17)"
  | notDirectory => "Not a directory (os error 20)"
  | isDirectory => "Is a directory (os error 21)"
  | nameTooLong => "File name too long (os error 36)"
  | nulByte => "file name contained an unexpected NUL byte"
  | other text => text

class Storage (m : Type → Type) where
  readFile : Path → m (Except Failure (List UInt8))
  writeFile : Path → List UInt8 → m (Except Failure Unit)
  makeDirectory : Path → m (Except Failure Unit)
  isDirectory : Path → m Bool

namespace Storage

variable {m : Type → Type} [Monad m] [Storage m]

/-- Makes a directory; one that is there already will do. -/
def ensureDirectory (path : Path) : m (Except Failure Unit) := do
  match ← makeDirectory path with
  | .ok () => return .ok ()
  | .error failure =>
    if ← isDirectory path then return .ok () else return .error failure

/-- Makes the directory whose segments are given last first, and before it, when the
system says that something on the way is missing, all those above it. -/
def makeDirectoriesAux : List String → m (Except Failure Unit)
  | [] => return .ok ()
  | last :: above => do
    if Path.isIdle last then makeDirectoriesAux above
    else
      let path : Path := ⟨(last :: above).reverse⟩
      match ← ensureDirectory path with
      | .error .notFound =>
        match ← makeDirectoriesAux above with
        | .ok () => ensureDirectory path
        | .error failure => return .error failure
      | result => return result

def makeDirectories (path : Path) : m (Except Failure Unit) :=
  makeDirectoriesAux path.segments.reverse

end Storage
end TwirpClients
