import Mathlib.Algebra.GroupWithZero.Nat
import TwirpClients.Proofs.Batch.Errors
import TwirpClients.Proofs.Command.Generation
import TwirpClients.Proofs.Descriptor

/-!
# Files found by themselves

Without names the command asks for the files that declare a service. They are picked as descriptors
and then looked up again by name. Each of these names has a descriptor, so the look-up cannot fail;
that it comes back to the descriptor the name was taken from needs the names to differ. The files
left out have no methods, so the clients of the others have all the methods of the set.
-/

namespace TwirpClients

namespace DescriptorSet

variable {set : DescriptorSet} {name : String} {file : FileDescriptor}

def declaring (set : DescriptorSet) : List FileDescriptor :=
  set.files.filter (!·.services.isEmpty)

def methodCount (set : DescriptorSet) : Nat :=
  (set.files.flatMap fun file => file.services.flatMap (·.methods)).length

theorem filesWithServices_eq (set : DescriptorSet) :
    set.filesWithServices = set.declaring.map (·.lookupName) := rfl

theorem services_ne_nil_of_mem_declaring (h : file ∈ set.declaring) : file.services ≠ [] := by
  have hdeclares := (List.mem_filter.1 h).2
  simpa using hdeclares

theorem exists_api?_of_mem_filesWithServices (h : name ∈ set.filesWithServices) :
    ∃ api, set.api? name = some api := by
  obtain ⟨file, hmem, rfl⟩ := List.mem_map.1 h
  obtain ⟨found, hfound⟩ := exists_find?_of_mem (List.mem_filter.1 hmem).1
  exact ⟨Api.ofDescriptor found, by rw [api?, hfound, Option.map_some]⟩

theorem api?_lookupName (hnodup : (set.files.map (·.lookupName)).Nodup)
    (h : file ∈ set.declaring) : set.api? file.lookupName = some (Api.ofDescriptor file) := by
  rw [api?, find?_lookupName hnodup (List.mem_filter.1 h).1, Option.map_some]

theorem map_api?_filesWithServices (hnodup : (set.files.map (·.lookupName)).Nodup) :
    set.filesWithServices.map set.api? = set.declaring.map (some <| Api.ofDescriptor ·) := by
  rw [filesWithServices_eq, List.map_map]
  apply List.map_congr_left
  intro file hfile
  exact api?_lookupName hnodup hfile

theorem filterMap_api?_filesWithServices (hnodup : (set.files.map (·.lookupName)).Nodup) :
    set.filesWithServices.filterMap set.api? = set.declaring.map Api.ofDescriptor := by
  calc set.filesWithServices.filterMap set.api?
      = (set.filesWithServices.map set.api?).filterMap id := by
        rw [List.filterMap_map, Function.id_comp]
    _ = set.declaring.filterMap (some <| Api.ofDescriptor ·) := by
        rw [map_api?_filesWithServices hnodup, List.filterMap_map, Function.id_comp]
    _ = set.declaring.map Api.ofDescriptor := congrFun List.filterMap_eq_map' _

theorem methodCount_ofDescriptor (file : FileDescriptor) :
    (Api.ofDescriptor file).methodCount = (file.services.flatMap (·.methods)).length := by
  simp only [Api.methodCount, Api.methods, Api.ofDescriptor, List.length_flatMap, List.map_map]
  congr 1
  apply List.map_congr_left
  intro service _
  simp [Service.ofDescriptor]

theorem sum_methodCount_declaring (set : DescriptorSet) :
    ((set.declaring.map Api.ofDescriptor).map (·.methodCount)).sum = set.methodCount := by
  obtain ⟨files⟩ := set
  simp only [declaring, methodCount, List.map_map, List.length_flatMap]
  induction files with
  | nil => rfl
  | cons file rest ih =>
    have hfile := methodCount_ofDescriptor file
    rw [List.length_flatMap] at hfile
    by_cases hservices : file.services = []
    · simp [hservices, ih]
    · simp [hservices, ih, hfile]

end DescriptorSet

section Discovered

variable {renderer : Renderer} {set : DescriptorSet} {name : String}

theorem Fails.stage_eq_generate {stage : Stage} {fault : Fault}
    (hname : name ∈ set.filesWithServices) (h : Fails renderer set name stage fault) :
    stage = .generate := by
  cases h with
  | descriptor hnone =>
    obtain ⟨api, hapi⟩ := DescriptorSet.exists_api?_of_mem_filesWithServices hname
    rw [hnone] at hapi
    cases hapi
  | generate hapi herror => rfl

theorem respondWith_discovered (renderer : Renderer) {request : Request}
    (hfiles : request.files = request.descriptors.filesWithServices) :
    (respondWith renderer request).error = none ∨
      ∃ name ∈ request.files, ∃ fault, Fails renderer request.descriptors name .generate fault ∧
        (respondWith renderer request).error
          = some (FileFault.message ⟨name, .generate, fault⟩) := by
  rcases respondWith_complete_or_stoppedAt renderer request with hcomplete | ⟨before, name, hstop⟩
  · exact Or.inl hcomplete.error
  · right
    obtain ⟨after, hnames⟩ := hstop.names
    obtain ⟨stage, fault, hfails, herror⟩ := hstop.fails
    have hname : name ∈ request.files := by simp [hnames]
    have hstage := Fails.stage_eq_generate (hfiles ▸ hname) hfails
    subst hstage
    exact ⟨name, hname, fault, hfails, herror⟩

end Discovered

namespace Command.Generation

theorem clients_of_discovery {generation : Generation} {options : Options} {set : DescriptorSet}
    (hnodup : (set.files.map (·.lookupName)).Nodup) (hfiles : generation.files = [])
    (hoptions : generation.options = .ok options) :
    generation.clients set = .ok (set.declaring.map fun file =>
      clientFor options file.lookupName (Api.ofDescriptor file)) := by
  have hrequested : generation.requested set = set.declaring.map (·.lookupName) := by
    simp [requested, hfiles, DescriptorSet.filesWithServices_eq]
  apply clients_of_forall₂ hoptions
  rw [hrequested, List.forall₂_map_left_iff, List.forall₂_map_right_iff, List.forall₂_same]
  intro file hfile
  exact ⟨_, DescriptorSet.api?_lookupName hnodup hfile, rfl⟩

/-- Every file that declares a service is found by its name, so asking for all of them stops at no
look-up, whatever the renderer. If all names in the set differ, the APIs found are those of the
descriptors with services, in set order, and hence have services, and together all methods of the
set; and the command without names makes exactly their clients. -/
theorem discovery_covers_declaring_files (set : DescriptorSet) :
    (∀ name ∈ set.filesWithServices, ∃ api, set.api? name = some api) ∧
    (∀ (renderer : Renderer) (request : Request), request.descriptors = set →
      request.files = set.filesWithServices →
      (respondWith renderer request).error = none ∨
        ∃ name ∈ set.filesWithServices, ∃ fault, Fails renderer set name .generate fault ∧
          (respondWith renderer request).error
            = some (FileFault.message ⟨name, .generate, fault⟩)) ∧
    ((set.files.map (·.lookupName)).Nodup →
      set.filesWithServices.map set.api? = set.declaring.map (some <| Api.ofDescriptor ·) ∧
      (∀ api ∈ set.filesWithServices.filterMap set.api?, api.services ≠ []) ∧
      ((set.filesWithServices.filterMap set.api?).map (·.methodCount)).sum = set.methodCount ∧
      ∀ (generation : Generation) (options : Options), generation.files = [] →
        generation.options = .ok options →
        generation.clients set = .ok (set.declaring.map fun file =>
          clientFor options file.lookupName (Api.ofDescriptor file))) := by
  refine ⟨fun name => DescriptorSet.exists_api?_of_mem_filesWithServices, ?_, ?_⟩
  · intro renderer request hset hfiles
    subst hset
    rw [← hfiles]
    exact respondWith_discovered renderer hfiles
  · intro hnodup
    have hapis := DescriptorSet.filterMap_api?_filesWithServices hnodup
    refine ⟨DescriptorSet.map_api?_filesWithServices hnodup, ?_, ?_, ?_⟩
    · intro api hapi
      rw [hapis] at hapi
      obtain ⟨file, hfile, rfl⟩ := List.mem_map.1 hapi
      have hservices := DescriptorSet.services_ne_nil_of_mem_declaring hfile
      simpa [Api.ofDescriptor] using hservices
    · rw [hapis, DescriptorSet.sum_methodCount_declaring]
    · intro generation options hfiles hoptions
      exact clients_of_discovery hnodup hfiles hoptions

/-- A file without services, one without a name, and one whose service has no methods. -/
def mixedSet : DescriptorSet where
  files :=
    [{ name := some "types.proto" },
      { services := [{ name := some "Alarm", methods := [{ name := some "Set" }, {}] }] },
      { name := some "idle.proto", services := [{ name := some "Idle" }] }]

theorem discovery_covers_declaring_files_mixed :
    mixedSet.filesWithServices = ["", "idle.proto"] ∧
      (∃ api, mixedSet.api? "" = some api) ∧
      (respondWith (fun _ => .error (.render "out of ink"))
          { files := mixedSet.filesWithServices, descriptors := mixedSet }).error ≠ none ∧
      (∃ name ∈ mixedSet.filesWithServices, ∃ fault,
        (respondWith (fun _ => .error (.render "out of ink"))
          { files := mixedSet.filesWithServices, descriptors := mixedSet }).error
            = some (FileFault.message ⟨name, .generate, fault⟩)) ∧
      ((mixedSet.filesWithServices.filterMap mixedSet.api?).map (·.methodCount)).sum = 2 ∧
      clients { descriptorSet := "mixed.bin" } mixedSet
        = .ok (mixedSet.declaring.map fun file =>
          clientFor {} file.lookupName (Api.ofDescriptor file)) := by
  obtain ⟨hfound, hrespond, hdistinct⟩ := discovery_covers_declaring_files mixedSet
  obtain ⟨-, -, hcount, hclients⟩ := hdistinct (by decide +kernel)
  have herror : (respondWith (fun _ => .error (.render "out of ink"))
      { files := mixedSet.filesWithServices, descriptors := mixedSet }).error ≠ none := by
    decide +kernel
  refine ⟨by decide +kernel, hfound "" (by decide +kernel), herror, ?_, ?_,
    hclients _ _ rfl rfl⟩
  · obtain ⟨name, hname, fault, -, heq⟩ := (hrespond _ _ rfl rfl).resolve_left herror
    exact ⟨name, hname, fault, heq⟩
  · rw [hcount]
    decide

end Command.Generation
end TwirpClients
