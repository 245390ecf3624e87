import TwirpClients.Proofs.Command.Generation
import TwirpClients.Proofs.Options

/-!
# The command and the plugin agree

`generate` and the plugin reach the same batch by different ways. The command takes the server
path as it is, the plugin finds it in a parameter; the command reads a descriptor file, the plugin
is sent the descriptors. For the same descriptors, names and path the command writes the files of
the plugin's response, or fails with the plugin's error and leaves the tree as it was.
-/

namespace TwirpClients.Command

namespace Generation

variable {generation : Generation} {tree : FileTree} {set : DescriptorSet}

/-- The request that asks the plugin for what the command is asked for. -/
def request (generation : Generation) (set : DescriptorSet) : Request where
  files := generation.files
  parameter := generation.serverPath.map ("prefix=" ++ ·)
  descriptors := set

theorem ofParameter_request (set : DescriptorSet)
    (hpath : ∀ path ∈ generation.serverPath, Options.Plain path) :
    Options.ofParameter (generation.request set).parameter = generation.options := by
  unfold request options
  cases hp : generation.serverPath with
  | none => rfl
  | some path => exact Options.ofParameter_pathEntry (hpath path hp)

theorem requested_of_files (hfiles : generation.files ≠ []) :
    generation.requested set = generation.files := by
  have he : generation.files.isEmpty = false := by simpa using hfiles
  simp only [requested, he, Bool.false_eq_true, if_false]

theorem clients_of_options (set : DescriptorSet) (hfiles : generation.files ≠ [])
    {options : Options} (ho : generation.options = .ok options) :
    generation.clients set
      = match (respondWith (ClientText.renderer options) (generation.request set)).error with
        | some text => .error ⟨"Generation failed: " ++ text, []⟩
        | none =>
          .ok (respondWith (ClientText.renderer options) (generation.request set)).files := by
  simp only [clients, ho, requested_of_files hfiles]
  rfl

end Generation

theorem respondWith_error_ne_parameter {renderer : Renderer} {request : Request} {text : String}
    (h : (respondWith renderer request).error = some text) (e : String) :
    text ≠ "parameter: " ++ e := by
  rcases respondWith_complete_or_stoppedAt renderer request with hc | ⟨before, name, hs⟩
  · rw [hc.error] at h
    cases h
  · obtain ⟨stage, fault, -, herror⟩ := hs.fails
    rw [herror] at h
    cases h
    -- the one text starts with the file, the other with the parameter
    have hfile : "File[".toList.head? = some 'F' := by decide
    have hparameter : "parameter: ".toList.head? = some 'p' := by decide
    simp only [FileFault.message, String.append_assoc]
    exact Text.append_ne_append_of_head? hfile hparameter (by decide)

/-- With names given, and a server path that can stand in a parameter, the command does what the
plugin does. It hands files over to be written if and only if the response has no error, and these
are the files of the response. On an error it ends with a report of that error, and the tree is
as it was. -/
theorem Generation.run_agrees_with_respond (generation : Generation) (verbose : Bool)
    {tree : FileTree} {set : DescriptorSet} (hload : Loads tree generation.descriptorSet set)
    (hfiles : generation.files ≠ []) (hpath : ∀ path ∈ generation.serverPath, Options.Plain path) :
    (∀ files, generation.clients set = .ok files ↔
      (respond (generation.request set)).error = none ∧
        (respond (generation.request set)).files = files) ∧
    ((respond (generation.request set)).error = none →
      generation.runOn verbose tree
        = afterWriting (generation.said set verbose)
          (generation.write (respond (generation.request set)).files tree)) ∧
    (∀ e, (respond (generation.request set)).error = some ("parameter: " ++ e) →
      generation.runOn verbose tree
        = (.failed (generation.said set verbose) ⟨"Invalid --prefix", [e]⟩, tree)) ∧
    ∀ text, (respond (generation.request set)).error = some text →
      (∀ e, text ≠ "parameter: " ++ e) →
      generation.runOn verbose tree
        = (.failed (generation.said set verbose) ⟨"Generation failed: " ++ text, []⟩, tree) := by
  have hparameter := ofParameter_request set hpath
  cases ho : generation.options with
  | error e =>
    have hrespond : respond (generation.request set)
        = { error := "parameter: " ++ (Fault.parameter e.message).message } := by
      simp only [respond, hparameter, ho]
    have hclients : generation.clients set
        = .error ⟨"Invalid --prefix", [(Fault.parameter e.message).message]⟩ := by
      simp only [clients, ho, Fault.causes]
    have hrun := runOn_of_clients_error verbose hload hclients
    rw [hrespond]
    refine ⟨by simp [hclients], by simp, ?_, ?_⟩
    · intro e' he
      have he' : (Fault.parameter e.message).message = e' := by
        simpa using he
      rw [hrun, he']
    · intro text htext hne
      exact absurd (Option.some.inj htext).symm (hne _)
  | ok options =>
    have hrespond : respond (generation.request set)
        = respondWith (ClientText.renderer options) (generation.request set) := by
      simp only [respond, hparameter, ho]
    have hclients := clients_of_options set hfiles ho
    rw [hrespond]
    cases herror : (respondWith (ClientText.renderer options) (generation.request set)).error with
    | none =>
      rw [herror] at hclients
      have hrun := runOn_of_clients_ok verbose hload hclients
      exact ⟨by simp [hclients], fun _ => hrun, by simp, by simp⟩
    | some text =>
      rw [herror] at hclients
      refine ⟨by simp [hclients], by simp, ?_, ?_⟩
      · intro e he
        exact absurd (Option.some.inj he) (respondWith_error_ne_parameter herror e)
      · intro text' htext _
        cases htext
        exact runOn_of_clients_error verbose hload hclients

def greeterService : ServiceDescriptor where
  name := some "Greeter"
  methods := [{ name := some "Greet", inputType := some ".Name", outputType := some ".Greeting" }]

def greeterSet : DescriptorSet where
  files := [{ name := some "greeter.proto", services := [greeterService] }]

def greeterTree : FileTree := FileTree.set {} ["greeter.bin"] (.file greeterSet.toBytes)

def greeterGeneration : Generation where
  descriptorSet := "greeter.bin"
  files := ["greeter.proto"]
  serverPath := some "v=1 beta"
  output := "out"

theorem Generation.run_agrees_with_respond_greeter :
    (respond (greeterGeneration.request greeterSet)).files.map (·.name) = [some "GreeterTwirp.cs"] ∧
      greeterGeneration.clients greeterSet
        = .ok (respond (greeterGeneration.request greeterSet)).files ∧
      greeterGeneration.runOn false greeterTree
        = afterWriting (greeterGeneration.said greeterSet false)
          (greeterGeneration.write (respond (greeterGeneration.request greeterSet)).files
            greeterTree) := by
  have hload : Loads greeterTree greeterGeneration.descriptorSet greeterSet :=
    ⟨greeterSet.toBytes, by decide +kernel, by decide +kernel⟩
  have hpath : ∀ path ∈ greeterGeneration.serverPath, Options.Plain path := by
    rintro _ ⟨⟩
    have hfirst : "v=1 beta".toList.head? = some 'v' := by decide
    have hlast : "v=1 beta".toList.getLast? = some 'a' := by decide
    refine ⟨by decide, ?_, ?_⟩
    · rw [hfirst]
      rintro _ ⟨⟩
      decide
    · rw [hlast]
      rintro _ ⟨⟩
      decide
  have herror : (respond (greeterGeneration.request greeterSet)).error = none := by
    decide +kernel
  obtain ⟨hclients, hrun, -⟩ :=
    run_agrees_with_respond greeterGeneration false hload (by decide) hpath
  exact ⟨by decide +kernel, (hclients _).2 ⟨herror, rfl⟩, hrun herror⟩

end TwirpClients.Command
