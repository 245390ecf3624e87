import TwirpClients.Api.Json
import TwirpClients.Command.Arguments
import TwirpClients.Command.Outcome
import TwirpClients.OutputDirectory
import TwirpClients.Wire.Plugin

/-!
# Running a command

`generate` writes the clients of a descriptor set into a directory, `inspect` prints the API
of one file, and without a command the program is a plugin: it answers the request on its input
with a response on its output.

What `generate` writes and what it says on the way are functions of the descriptor set
(`Generation.clients`, `Generation.progress`); only reading the set and writing the files need
storage.
-/

namespace TwirpClients.Command

namespace Generation

def requested (generation : Generation) (set : DescriptorSet) : List String :=
  if generation.files.isEmpty then set.filesWithServices else generation.files

def options (generation : Generation) : Except ParameterError Options :=
  match generation.serverPath with
  | none => .ok {}
  | some path => Options.withServerPath {} path

def clients (generation : Generation) (set : DescriptorSet) : Except Report (List GeneratedFile) :=
  match generation.options with
  | .error e => .error ⟨"Invalid --prefix", (Fault.parameter e.message).causes⟩
  | .ok options =>
    let response := respondWith (ClientText.renderer options)
      { files := generation.requested set, descriptors := set }
    match response.error with
    | some text => .error ⟨"Generation failed: " ++ text, []⟩
    | none => .ok response.files

def greeting (generation : Generation) : String :=
  "→ Loading descriptor set: " ++ generation.descriptorSet ++ "\n"

def progress (generation : Generation) (set : DescriptorSet) (verbose : Bool) : String :=
  let files := generation.requested set
  (if generation.files.isEmpty then
      "→ Found " ++ toString files.length ++ " files declaring services\n"
    else "")
  ++ match generation.options with
    | .error _ => ""
    | .ok options =>
      (if verbose then
          "  Files: " ++ ", ".intercalate files ++ "\n"
            ++ "  Prefix: " ++ options.serverPath ++ "\n"
            ++ "  Output: " ++ generation.output ++ "\n"
        else "")
      ++ "→ Generating clients...\n"

def closing (paths : List Path) : String :=
  "\n✓ Generation complete!\n\nGenerated files:\n"
    ++ "".intercalate (paths.map fun path => "  📄 " ++ path.text ++ "\n")

end Generation

variable {m : Type → Type} [Monad m] [Storage m]

def loadSet (path : String) : m (Except Fault DescriptorSet) := do
  match ← Storage.readFile (Path.ofText path) with
  | .ok bytes => return DescriptorSet.parse bytes
  | .error failure =>
    return .error <| .parse <|
      "Failed to read FileDescriptorSet file " ++ path ++ ": " ++ failure.message

def loadReport (fault : Fault) : Report := ⟨"Failed to load descriptor set", fault.causes⟩

def Generation.run (generation : Generation) (verbose : Bool) : m Outcome := do
  match ← loadSet generation.descriptorSet with
  | .error fault => return .failed generation.greeting (loadReport fault)
  | .ok set =>
    let said := generation.greeting ++ generation.progress set verbose
    match generation.clients set with
    | .error report => return .failed said report
    | .ok files =>
      match ← (OutputDirectory.writeFiles (Path.ofText generation.output) files).run with
      | .error fault => return .failed said ⟨"Failed to write clients", fault.causes⟩
      | .ok paths => return .done (said ++ Generation.closing paths) ""

def apiSummary (api : Api) : String :=
  "✓ " ++ toString api.services.length ++ " services, " ++ toString api.methodCount
    ++ " methods, namespace " ++ api.codeNamespace ++ "\n"

def Inspection.outcome (inspection : Inspection) (verbose : Bool) (set : DescriptorSet) : Outcome :=
  match set.api? inspection.file with
  | none =>
    .failed ""
      ⟨"Failed to extract " ++ inspection.file, (Fault.descriptorNotFound inspection.file).causes⟩
  | some api => .done (api.toJson ++ "\n") (if verbose then apiSummary api else "")

def Inspection.run (inspection : Inspection) (verbose : Bool) : m Outcome := do
  match ← loadSet inspection.descriptorSet with
  | .error fault => return .failed "" (loadReport fault)
  | .ok set => return inspection.outcome verbose set

def pluginOutcome (input : List UInt8) : Outcome :=
  match Request.ofBytes input with
  | .ok request => { stdout := (respond request).toBytes }
  | .error e =>
    .failed ""
      ⟨"couldn't parse CodeGeneratorRequest, make sure you're using this as a plugin to protoc",
        [e.message]⟩

def versionText : String := "protoc-gen-twirp_unity 0.2.0\n"

def usageText : String :=
  "Generate Twirp clients for Unity from .proto services\n\n"
    ++ "Usage: protoc-gen-twirp_unity [-v] [COMMAND]\n\n"
    ++ "Commands:\n"
    ++ "  generate -d SET [-f FILE]... [--prefix PREFIX] [-o DIRECTORY]\n"
    ++ "  inspect -d SET -f FILE\n\n"
    ++ "Options:\n"
    ++ "  -v, --verbose\n"
    ++ "  -h, --help\n"
    ++ "  -V, --version\n"

def Stop.outcome : Stop → Outcome
  | .version => .done versionText ""
  | .help => .done usageText ""
  | .usage => { exit := 2, stderr := usageText }

/-- Runs the program with its arguments; `input` is what stands on its standard input. -/
def run (input : m (List UInt8)) (arguments : List String) : m Outcome := do
  match Invocation.ofArguments arguments with
  | .error stop => return stop.outcome
  | .ok invocation =>
    match invocation.task with
    | .plugin => return pluginOutcome (← input)
    | .generate generation => generation.run invocation.verbose
    | .inspect inspection => inspection.run invocation.verbose

end TwirpClients.Command
