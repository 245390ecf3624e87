import TwirpClients.Fault
import TwirpClients.GeneratedFile
import TwirpClients.Storage.Basic

/-!
# Writing generated files

Generated files are written below an output directory, one after the other, and the
first fault ends it: what was written before stays. A name that could lead out of the output
directory is refused before anything is done for it.
-/

namespace TwirpClients.OutputDirectory

variable {m : Type → Type} [Monad m] [Storage m]

def refusal (name : String) : Fault :=
  .storage ("refusing to write generated file outside output directory: '" ++ name ++ "'")

def step (operation : m (Except Failure α)) : ExceptT Fault m α :=
  ExceptT.mk (return (← operation).mapError (.storage ·.message))

/-- Writes one file, and makes the directories on the way to it. An absent name or content is an
empty one. -/
def writeFile (directory : Path) (file : GeneratedFile) : ExceptT Fault m Path := do
  let name := file.name.getD ""
  if !(Path.ofText name).isConfined then throw (refusal name)
  let path := directory.join (Path.ofText name)
  step (Storage.makeDirectories path.parent)
  step (Storage.writeFile path (file.content.getD "").toUTF8.data.toList)
  return path

def writeFiles (directory : Path) (files : List GeneratedFile) : ExceptT Fault m (List Path) :=
  files.mapM (writeFile directory)

end TwirpClients.OutputDirectory
