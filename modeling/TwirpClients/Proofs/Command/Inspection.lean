import TwirpClients.Proofs.Api.Json
import TwirpClients.Proofs.Command.Delivery

/-!
# Inspecting before generating

`inspect` prints the API of a file, and what it prints can be parsed: it is that API and nothing
else. The client rendered from it is the one that `generate` makes of the same file, and asked for
this file alone `generate` leaves the text of that client in its place.
-/

namespace TwirpClients.Command

namespace Inspection

variable {inspection : Inspection} {tree tree' : FileTree} {set : DescriptorSet}

def runOn (inspection : Inspection) (verbose : Bool) (tree : FileTree) : Outcome × FileTree :=
  (inspection.run verbose : StateM FileTree Outcome).run tree

theorem runOn_of_loads (verbose : Bool) (h : Loads tree inspection.descriptorSet set) :
    inspection.runOn verbose tree = (inspection.outcome verbose set, tree) := by
  rw [runOn, Inspection.run, StateT.run_bind, loadSet_of_loads h, pure_bind]
  rfl

theorem runOn_of_fault (verbose : Bool) {fault : Fault}
    (h : (loadSet inspection.descriptorSet : StateM FileTree (Except Fault DescriptorSet)).run tree
      = pure (.error fault, tree)) :
    inspection.runOn verbose tree = (.failed "" (loadReport fault), tree) := by
  rw [runOn, Inspection.run, StateT.run_bind, h, pure_bind]
  rfl

/-- A run that exits with zero has loaded a set, found an API in it and printed that. -/
theorem printed_of_runOn {verbose : Bool} {outcome : Outcome}
    (h : inspection.runOn verbose tree = (outcome, tree')) (hexit : outcome.exit = 0) :
    ∃ set api, Loads tree inspection.descriptorSet set ∧ set.api? inspection.file = some api ∧
      outcome.stdout = (api.toJson ++ "\n").toUTF8.data.toList ∧ tree' = tree := by
  rcases loads_or_fault tree inspection.descriptorSet with ⟨set, hload⟩ | ⟨fault, hfault⟩
  · rw [runOn_of_loads verbose hload] at h
    cases h
    cases hapi : set.api? inspection.file with
    | none => simp [outcome, hapi, Outcome.failed] at hexit
    | some api => exact ⟨set, api, hload, hapi, by simp only [outcome, hapi, Outcome.done], rfl⟩
  · rw [runOn_of_fault verbose hfault] at h
    cases h
    cases hexit

end Inspection

namespace Generation

variable {generation : Generation} {tree tree' : FileTree} {set : DescriptorSet}
  {options : Options} {name : String} {api : Api}

theorem eq_clientFor_of_isFor {file : GeneratedFile}
    (h : GeneratedFile.IsFor options set name file) (hapi : set.api? name = some api) :
    file = clientFor options name api := by
  obtain ⟨hnamed, api', hapi', hcontent⟩ := h
  rw [hapi, Option.some.injEq] at hapi'
  obtain ⟨fileName, content⟩ := file
  simp only at hnamed hcontent
  rw [hnamed, hcontent, clientFor, hapi']

theorem clients_eq_clientFor (hoptions : generation.options = .ok options)
    (hapi : set.api? name = some api) {files : List GeneratedFile}
    (h : generation.clients set = .ok files) :
    List.Forall₂ (fun requested file => requested = name → file = clientFor options name api)
      (generation.requested set) files := by
  obtain ⟨options', hoptions', hcomplete⟩ := complete_of_clients_ok h
  have heq : options' = options := Except.ok.inj (hoptions'.symm.trans hoptions)
  rw [heq] at hcomplete
  apply (forall₂_isFor hcomplete).imp
  intro requested file hfile hname
  rw [hname] at hfile
  exact eq_clientFor_of_isFor hfile hapi

theorem requested_of_single (hfiles : generation.files = [name]) (set : DescriptorSet) :
    generation.requested set = [name] := by
  simp [requested, hfiles]

theorem clients_of_single (hoptions : generation.options = .ok options)
    (hfiles : generation.files = [name]) (hapi : set.api? name = some api) :
    generation.clients set = .ok [clientFor options name api] := by
  apply clients_of_forall₂ hoptions
  rw [requested_of_single hfiles]
  exact .cons ⟨api, hapi, rfl⟩ .nil

theorem read_of_single {verbose : Bool} {outcome : Outcome}
    (hload : Loads tree generation.descriptorSet set) (hoptions : generation.options = .ok options)
    (hfiles : generation.files = [name]) (hapi : set.api? name = some api)
    (hrun : generation.runOn verbose tree = (outcome, tree')) (hexit : outcome.exit = 0) :
    tree'.read ((Path.ofText generation.output).join (Path.ofText (GeneratedFile.nameFor name)))
      = .ok (ClientText.render options api).toUTF8.data.toList := by
  obtain ⟨set', options', files, paths, hload', hoptions', -, hclients, hwrite⟩ :=
    delivered_of_runOn hrun hexit
  have hset : set' = set := hload'.unique hload
  have heq : options' = options := Except.ok.inj (hoptions'.symm.trans hoptions)
  rw [hset, heq] at hclients
  have hrequested := requested_of_single hfiles set
  have hmem : name ∈ generation.requested set := by simp [hrequested]
  have hlast : LastWith GeneratedFile.place name (generation.requested set) := by
    rw [hrequested]
    exact ⟨[], [], rfl, by simp⟩
  obtain ⟨api', hapi', hread⟩ := holds_last hwrite hclients hmem hlast rfl
  rw [hapi, Option.some.injEq] at hapi'
  rw [hread, hapi']

end Generation

/-- Every API is parsed back from its printed text. So what a successful `inspect` has printed is
the API of the file, and the client that `generate` makes of this file, for every server path, is
the one rendered from the text that was printed; alone it is always made, and written it is the
content of its file. -/
theorem inspect_output_renders_alike :
    (∀ api : Api, Api.parse? (api.toJson ++ "\n") = some api) ∧
    ∀ (inspection : Inspection) (verbose : Bool) (tree tree' : FileTree) (outcome : Outcome),
      inspection.runOn verbose tree = (outcome, tree') → outcome.exit = 0 →
      ∃ set text api, Loads tree inspection.descriptorSet set ∧
        set.api? inspection.file = some api ∧ text = api.toJson ++ "\n" ∧
        outcome.stdout = text.toUTF8.data.toList ∧ tree' = tree ∧ Api.parse? text = some api ∧
        ∀ (generation : Generation) (options : Options),
          generation.descriptorSet = inspection.descriptorSet →
          generation.options = .ok options →
          (∀ files, generation.clients set = .ok files →
            List.Forall₂ (fun name file => name = inspection.file →
              file = Generation.clientFor options inspection.file api)
              (generation.requested set) files) ∧
          (generation.files = [inspection.file] →
            generation.clients set
              = .ok [Generation.clientFor options inspection.file api] ∧
            ∀ (verbose' : Bool) (outcome' : Outcome) (tree'' : FileTree),
              generation.runOn verbose' tree = (outcome', tree'') → outcome'.exit = 0 →
              tree''.read ((Path.ofText generation.output).join
                (Path.ofText (GeneratedFile.nameFor inspection.file)))
                = .ok (ClientText.render options api).toUTF8.data.toList) := by
  have hparse : ∀ api : Api, Api.parse? (api.toJson ++ "\n") = some api := by
    intro api
    exact api.parse?_toJson_append (by simp [Json.isSpace])
  refine ⟨hparse, ?_⟩
  intro inspection verbose tree tree' outcome hrun hexit
  obtain ⟨set, api, hload, hapi, hstdout, htree⟩ := Inspection.printed_of_runOn hrun hexit
  refine ⟨set, _, api, hload, hapi, rfl, hstdout, htree, hparse api, ?_⟩
  intro generation options hset hoptions
  rw [← hset] at hload
  refine ⟨fun files => Generation.clients_eq_clientFor hoptions hapi, ?_⟩
  intro hfiles
  refine ⟨Generation.clients_of_single hoptions hfiles hapi, ?_⟩
  intro verbose' outcome' tree'' hrun' hexit'
  exact Generation.read_of_single hload hoptions hfiles hapi hrun' hexit'

/-- A file whose name has a quote, a backslash, control characters and a wide character. -/
def oddFile : FileDescriptor where
  name := some "odd/\"\\\x07\x7f\u2028😀.proto"
  package := some "odd"
  services := [{ name := some "Odd", methods := [{ name := some "Tab\tNew\n" }] }, {}]

def oddSet : DescriptorSet := ⟨[oddFile, {}]⟩

def oddTree : FileTree := FileTree.set {} ["odd.bin"] (.file oddSet.toBytes)

def oddInspection : Inspection where
  descriptorSet := "odd.bin"
  file := oddFile.lookupName

def oddGeneration : Generation where
  descriptorSet := "odd.bin"
  files := [oddFile.lookupName]
  serverPath := some "odd/v1"
  output := "out"

theorem loads_oddSet : Loads oddTree "odd.bin" oddSet :=
  ⟨oddSet.toBytes, by decide +kernel, by decide +kernel⟩

theorem inspect_output_renders_alike_odd :
    Api.parse? ((Api.ofDescriptor oddFile).toJson ++ "\n") = some (Api.ofDescriptor oddFile) ∧
      (oddInspection.runOn true oddTree).1.exit = 0 ∧
      (oddInspection.runOn true oddTree).1.stdout
        = ((Api.ofDescriptor oddFile).toJson ++ "\n").toUTF8.data.toList ∧
      (oddInspection.runOn true oddTree).2 = oddTree ∧
      (oddGeneration.runOn false oddTree).1.exit = 0 ∧
      (oddGeneration.runOn false oddTree).2.read
          ((Path.ofText "out").join (Path.ofText (GeneratedFile.nameFor oddFile.lookupName)))
        = .ok (ClientText.render ⟨"odd/v1"⟩ (Api.ofDescriptor oddFile)).toUTF8.data.toList := by
  obtain ⟨hparse, hinspect⟩ := inspect_output_renders_alike
  have hexit : (oddInspection.runOn true oddTree).1.exit = 0 := by decide +kernel
  have hexit' : (oddGeneration.runOn false oddTree).1.exit = 0 := by decide +kernel
  obtain ⟨set, text, api, hload, hapi, htext, hstdout, htree, -, hgenerate⟩ :=
    hinspect oddInspection true oddTree _ _ rfl hexit
  have hset : set = oddSet := hload.unique loads_oddSet
  have hodd : oddSet.api? oddInspection.file = some (Api.ofDescriptor oddFile) := by
    decide +kernel
  rw [hset, hodd, Option.some.injEq] at hapi
  subst hapi
  obtain ⟨-, halone⟩ := hgenerate oddGeneration ⟨"odd/v1"⟩ rfl (by decide +kernel)
  exact ⟨hparse _, hexit, htext ▸ hstdout, htree, hexit', (halone rfl).2 false _ _ rfl hexit'⟩

end TwirpClients.Command
