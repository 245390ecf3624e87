import TwirpClients.Text.Blank
import TwirpClients.Text.Split
import TwirpClients.Text.UpperCase

/-!
# Generated files

A generated file is a name, relative to an output directory, and a content. The name
is made from the path of the proto file: the directory stays as it is, the last part
loses its extension, its words are run together with a capital each, and a fixed ending
tells what the file is.
-/

namespace TwirpClients

structure GeneratedFile where
  name : Option String := none
  content : Option String := none
deriving DecidableEq, Repr

namespace GeneratedFile

def isWordBreak (c : Char) : Bool := c == '_' || c == '-' || c == '.' || Text.isBlank c

/-- What stands before the last dot, or the whole name if that is nothing: a leading dot
alone starts no extension. -/
def stem (base : List Char) : List Char :=
  match (Text.uptoLast '.' base).dropLast with
  | [] => base
  | cs => cs

def runTogether (cs : List Char) : List Char :=
  ((cs.splitOnP isWordBreak).filter (!·.isEmpty)).flatMap Text.capitalize

def nameEnding : String := "Twirp.cs"

def nameFor (protoPath : String) : String :=
  let path := protoPath.toList
  String.ofList (Text.uptoLast '/' path ++ runTogether (stem (Text.afterLast '/' path)))
    ++ nameEnding

end GeneratedFile
end TwirpClients
