/-!
# Faults

Why a client could not be generated or written. A fault holds the text that is
particular to it; `Fault.message` puts the kind of fault in front. A fault met while one
file of a batch was worked on is a `FileFault`, which also tells the file and the stage.
-/

namespace TwirpClients

inductive Fault where
  | descriptorNotFound (file : String)
  | render (reason : String)
  | parameter (reason : String)
  | parse (reason : String)
  | storage (reason : String)
  | json (reason : String)
deriving DecidableEq, Repr

def Fault.message : Fault → String
  | descriptorNotFound file => "could not find descriptor for file: " ++ file
  | render reason => "render error: " ++ reason
  | parameter reason => "invalid plugin parameter: " ++ reason
  | parse reason => "Parse error: " ++ reason
  | storage reason => "IO error: " ++ reason
  | json reason => "JSON error: " ++ reason

inductive Stage where
  | descriptor
  | generate
deriving DecidableEq, Repr

def Stage.name : Stage → String
  | descriptor => "descriptor"
  | generate => "generate"

structure FileFault where
  file : String
  stage : Stage
  fault : Fault
deriving DecidableEq, Repr

def FileFault.message (f : FileFault) : String :=
  "File[" ++ f.file ++ "][" ++ f.stage.name ++ "]: " ++ f.fault.message

end TwirpClients
