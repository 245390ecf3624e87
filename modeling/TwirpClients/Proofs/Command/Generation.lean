import Mathlib.Control.Monad.Basic
import TwirpClients.Command.Run
import TwirpClients.Proofs.Batch
import TwirpClients.Proofs.OutputDirectory

/-!
# Runs of the command that generates

A run loads a descriptor set, makes the files and writes them. It does these in order and ends at
the first that fails, before anything is written unless it is the writing itself. So a run that
succeeds has gone through all three.
-/

namespace TwirpClients.Command

/-- The file at the path holds that descriptor set. -/
def Loads (tree : FileTree) (path : String) (set : DescriptorSet) : Prop :=
  ∃ bytes, tree.read (Path.ofText path) = .ok bytes ∧ DescriptorSet.parse bytes = .ok set

theorem Loads.unique {tree : FileTree} {path : String} {set set' : DescriptorSet}
    (h : Loads tree path set) (h' : Loads tree path set') : set = set' := by
  obtain ⟨bytes, hread, hparse⟩ := h
  obtain ⟨bytes', hread', hparse'⟩ := h'
  have hbytes := Except.ok.inj (hread.symm.trans hread')
  rw [hbytes] at hparse
  exact Except.ok.inj (hparse.symm.trans hparse')

theorem loadSet_of_loads {tree : FileTree} {path : String} {set : DescriptorSet}
    (h : Loads tree path set) :
    (loadSet path : StateM FileTree (Except Fault DescriptorSet)).run tree
      = pure (.ok set, tree) := by
  obtain ⟨bytes, hread, hparse⟩ := h
  unfold loadSet
  simp [Storage.readFile, hread, hparse]

theorem loads_or_fault (tree : FileTree) (path : String) :
    (∃ set, Loads tree path set) ∨
      ∃ fault, (loadSet path : StateM FileTree (Except Fault DescriptorSet)).run tree
        = pure (.error fault, tree) := by
  unfold loadSet Loads
  cases hread : tree.read (Path.ofText path) with
  | error failure =>
    refine Or.inr ⟨.parse
      ("Failed to read FileDescriptorSet file " ++ path ++ ": " ++ failure.message), ?_⟩
    simp [Storage.readFile, hread]
  | ok bytes =>
    cases hparse : DescriptorSet.parse bytes with
    | error fault =>
      refine Or.inr ⟨fault, ?_⟩
      simp [Storage.readFile, hread, hparse]
    | ok set => exact Or.inl ⟨set, bytes, rfl, hparse⟩

namespace Generation

def said (generation : Generation) (set : DescriptorSet) (verbose : Bool) : String :=
  generation.greeting ++ generation.progress set verbose

/-- The outcome of a run whose last step is to write the files. -/
def afterWriting (said : String) : Except Fault (List Path) × FileTree → Outcome × FileTree
  | (.error fault, tree) => (.failed said ⟨"Failed to write clients", fault.causes⟩, tree)
  | (.ok paths, tree) => (.done (said ++ closing paths) "", tree)

def write (generation : Generation) (files : List GeneratedFile) (tree : FileTree) :
    Except Fault (List Path) × FileTree :=
  OutputDirectory.onTree (OutputDirectory.writeFiles (Path.ofText generation.output) files) tree

def runOn (generation : Generation) (verbose : Bool) (tree : FileTree) : Outcome × FileTree :=
  (generation.run verbose : StateM FileTree Outcome).run tree

variable {generation : Generation} {tree tree' : FileTree} {set : DescriptorSet}

theorem runOn_of_fault {fault : Fault} (verbose : Bool)
    (hload : (loadSet generation.descriptorSet : StateM FileTree (Except Fault DescriptorSet)).run
      tree = pure (.error fault, tree)) :
    generation.runOn verbose tree = (.failed generation.greeting (loadReport fault), tree) := by
  unfold runOn Generation.run
  rw [StateT.run_bind, hload, pure_bind]
  rfl

theorem runOn_of_clients_ok (verbose : Bool) (hload : Loads tree generation.descriptorSet set)
    {files : List GeneratedFile} (hclients : generation.clients set = .ok files) :
    generation.runOn verbose tree
      = afterWriting (generation.said set verbose) (generation.write files tree) := by
  unfold runOn Generation.run
  rw [StateT.run_bind, loadSet_of_loads hload, pure_bind]
  simp only [hclients, StateT.run_bind]
  change _ = afterWriting _ ((OutputDirectory.writeFiles (Path.ofText generation.output) files :
    ExceptT Fault (StateM FileTree) (List Path)).run.run tree)
  generalize (OutputDirectory.writeFiles (Path.ofText generation.output) files :
    ExceptT Fault (StateM FileTree) (List Path)).run.run tree = written
  obtain ⟨result, tree'⟩ := written
  cases result <;> rfl

theorem runOn_of_clients_error (verbose : Bool) (hload : Loads tree generation.descriptorSet set)
    {report : Report} (hclients : generation.clients set = .error report) :
    generation.runOn verbose tree = (.failed (generation.said set verbose) report, tree) := by
  unfold runOn Generation.run
  rw [StateT.run_bind, loadSet_of_loads hload, pure_bind]
  simp only [hclients]
  rfl

/-- A run that exits with zero has loaded a set, made files of it and written all of them. -/
theorem written_of_runOn {verbose : Bool} {outcome : Outcome}
    (h : generation.runOn verbose tree = (outcome, tree')) (hexit : outcome.exit = 0) :
    ∃ set files paths, Loads tree generation.descriptorSet set ∧
      generation.clients set = .ok files ∧ generation.write files tree = (.ok paths, tree') := by
  rcases loads_or_fault tree generation.descriptorSet with ⟨set, hload⟩ | ⟨fault, hfault⟩
  · cases hclients : generation.clients set with
    | error report =>
      rw [runOn_of_clients_error verbose hload hclients] at h
      cases h
      cases hexit
    | ok files =>
      rw [runOn_of_clients_ok verbose hload hclients] at h
      generalize hwrite : generation.write files tree = written at h
      obtain ⟨result, final⟩ := written
      cases result with
      | error fault =>
        cases h
        cases hexit
      | ok paths =>
        cases h
        exact ⟨set, files, paths, hload, hclients, hwrite⟩
  · rw [runOn_of_fault verbose hfault] at h
    cases h
    cases hexit

theorem complete_of_clients_ok {files : List GeneratedFile}
    (h : generation.clients set = .ok files) :
    ∃ options, generation.options = .ok options ∧
      Response.Complete (ClientText.renderer options)
        { files := generation.requested set, descriptors := set } { files } := by
  unfold clients at h
  cases ho : generation.options with
  | error e => simp [ho] at h
  | ok options =>
    refine ⟨options, rfl, ?_⟩
    rw [ho] at h
    rcases respondWith_complete_or_stoppedAt (ClientText.renderer options)
      { files := generation.requested set, descriptors := set } with hc | ⟨before, name, hs⟩
    · simp only [hc.error] at h
      cases h
      exact ⟨rfl, hc.files⟩
    · obtain ⟨stage, fault, -, herror⟩ := hs.fails
      simp only [herror] at h
      cases h

def clientFor (options : Options) (name : String) (api : Api) : GeneratedFile where
  name := some (GeneratedFile.nameFor name)
  content := some (ClientText.render options api)

theorem clients_of_forall₂ {options : Options} {files : List GeneratedFile}
    (hoptions : generation.options = .ok options)
    (h : List.Forall₂ (fun name file => ∃ api, set.api? name = some api ∧
      file = clientFor options name api) (generation.requested set) files) :
    generation.clients set = .ok files := by
  have hmap : (generation.requested set).mapM
      (GeneratedFile.ofName (ClientText.renderer options) set) = .ok files := by
    apply mapM_ok_iff.2
    apply h.imp
    intro name file hfile
    obtain ⟨api, hapi, heq⟩ := hfile
    exact ofName_ok_iff.2 ⟨_, ⟨api, hapi, rfl⟩, heq⟩
  simp only [clients, hoptions, respondWith, hmap]

end Generation

end TwirpClients.Command
