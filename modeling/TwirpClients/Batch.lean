import TwirpClients.Api
import TwirpClients.ClientText
import TwirpClients.Fault
import TwirpClients.GeneratedFile

/-!
# Answering a request

A request names the files to generate and brings the descriptors. Its files are handled
in request order and the first fault ends the batch: a response has either a file for every
name of the request or an error and no file at all.

`respondWith` is the batch for any renderer, `respond` the one that writes client texts with
the options of the request's parameter.
-/

namespace TwirpClients

structure Request where
  files : List String := []
  parameter : Option String := none
  descriptors : DescriptorSet := {}
deriving DecidableEq, Repr

/-- The features of the proto language that clients are generated for; the value says that
optional fields may occur, since no field is ever looked at. -/
def supportedFeatures : Nat := 1

structure Response where
  error : Option String := none
  features : Nat := supportedFeatures
  files : List GeneratedFile := []
deriving DecidableEq, Repr

abbrev Renderer := Api → Except Fault String

def ClientText.renderer (options : Options) : Renderer := fun api => .ok (render options api)

/-- The file generated for an API by itself, named after the file the API came from. -/
def GeneratedFile.ofApi (renderer : Renderer) (api : Api) : Except Fault GeneratedFile := do
  let text ← renderer api
  return { name := nameFor api.fileName, content := text }

def GeneratedFile.ofName (renderer : Renderer) (descriptors : DescriptorSet) (name : String) :
    Except FileFault GeneratedFile :=
  match descriptors.api? name with
  | none => .error ⟨name, .descriptor, .descriptorNotFound name⟩
  | some api =>
    match renderer api with
    | .error fault => .error ⟨name, .generate, fault⟩
    | .ok text => .ok { name := nameFor name, content := text }

def respondWith (renderer : Renderer) (request : Request) : Response :=
  match request.files.mapM (GeneratedFile.ofName renderer request.descriptors) with
  | .ok files => { files }
  | .error fault => { error := fault.message }

def respond (request : Request) : Response :=
  match Options.ofParameter request.parameter with
  | .ok options => respondWith (ClientText.renderer options) request
  | .error e => { error := "parameter: " ++ (Fault.parameter e.message).message }

end TwirpClients
