import TwirpClients.Proofs.Batch
import TwirpClients.Proofs.Text.Split

/-!
# Why a request fails

Client texts can be written for every API, so of the two stages of a file only the look-up of its
descriptor can fail. A request then fails for one of two reasons: its parameter is refused, which
is found out before any file is looked at, or one of its names has no descriptor, and then the
first such name is told.
-/

namespace TwirpClients

namespace DescriptorSet

def Names (set : DescriptorSet) (name : String) : Prop :=
  ∃ file ∈ set.files, file.lookupName = name

theorem names_of_api? {set : DescriptorSet} {name : String} {api : Api}
    (h : set.api? name = some api) : set.Names name := by
  obtain ⟨file, hfind, -⟩ := Option.map_eq_some_iff.1 h
  have hname := List.find?_some hfind
  exact ⟨file, List.mem_of_find?_eq_some hfind, by simpa using hname⟩

theorem not_names_of_api?_none {set : DescriptorSet} {name : String} (h : set.api? name = none) :
    ¬ set.Names name := by
  have hfind : set.find? name = none := Option.map_eq_none_iff.1 h
  intro ⟨file, hmem, hname⟩
  have hne := List.find?_eq_none.1 hfind file hmem
  simp [hname] at hne

end DescriptorSet

def Request.FirstMissing (request : Request) (name : String) : Prop :=
  ∃ before after, request.files = before ++ name :: after ∧
    (∀ earlier ∈ before, request.descriptors.Names earlier) ∧ ¬ request.descriptors.Names name

theorem Request.FirstMissing.not_all {request : Request} {name : String}
    (h : request.FirstMissing name) : ¬ ∀ name ∈ request.files, request.descriptors.Names name := by
  obtain ⟨before, after, hfiles, -, hmissing⟩ := h
  intro hall
  exact hmissing (hall name (by simp [hfiles]))

section Client

variable {options : Options} {descriptors : DescriptorSet} {name : String}

theorem names_of_renders {text : String}
    (h : Renders (ClientText.renderer options) descriptors name text) : descriptors.Names name := by
  obtain ⟨api, hapi, -⟩ := h
  exact DescriptorSet.names_of_api? hapi

theorem Fails.stage_eq {stage : Stage} {fault : Fault}
    (h : Fails (ClientText.renderer options) descriptors name stage fault) :
    stage = .descriptor ∧ fault = .descriptorNotFound name ∧ ¬ descriptors.Names name := by
  cases h with
  | descriptor hnone => exact ⟨rfl, rfl, DescriptorSet.not_names_of_api?_none hnone⟩
  | generate hapi herror => cases herror

theorem respondWith_client (options : Options) (request : Request) :
    ((respondWith (ClientText.renderer options) request).error = none ∧
        ∀ name ∈ request.files, request.descriptors.Names name) ∨
      ∃ name, request.FirstMissing name ∧
        respondWith (ClientText.renderer options) request
          = { error := FileFault.message ⟨name, .descriptor, .descriptorNotFound name⟩ } := by
  rcases respondWith_complete_or_stoppedAt (ClientText.renderer options) request with
    hcomplete | ⟨before, name, hstopped⟩
  · left
    refine ⟨hcomplete.error, ?_⟩
    intro name hname
    obtain ⟨text, ht⟩ := hcomplete.renders name hname
    exact names_of_renders ht
  · right
    obtain ⟨after, hfiles⟩ := hstopped.names
    obtain ⟨stage, fault, hfails, -⟩ := hstopped.fails
    have hbefore : ∀ earlier ∈ before, request.descriptors.Names earlier := by
      intro earlier hearlier
      obtain ⟨text, ht⟩ := hstopped.before earlier hearlier
      exact names_of_renders ht
    have hrespond := respondWith_of_fails hfiles hstopped.before hfails
    obtain ⟨rfl, rfl, hmissing⟩ := hfails.stage_eq
    exact ⟨name, ⟨before, after, hfiles, hbefore, hmissing⟩, hrespond⟩

end Client

theorem respond_of_parameter_ok {request : Request} {options : Options}
    (h : Options.ofParameter request.parameter = .ok options) :
    respond request = respondWith (ClientText.renderer options) request := by
  simp only [respond, h]

theorem respond_of_parameter_error {request : Request} {e : ParameterError}
    (h : Options.ofParameter request.parameter = .error e) :
    respond request = { error := "parameter: " ++ (Fault.parameter e.message).message } := by
  simp only [respond, h]

theorem respond_error_eq_none_iff (request : Request) :
    (respond request).error = none ↔
      (∃ options, Options.ofParameter request.parameter = .ok options) ∧
        ∀ name ∈ request.files, request.descriptors.Names name := by
  cases hparameter : Options.ofParameter request.parameter with
  | error e => simp [respond_of_parameter_error hparameter]
  | ok options =>
    rw [respond_of_parameter_ok hparameter]
    rcases respondWith_client options request with ⟨herror, hall⟩ | ⟨name, hmissing, hrespond⟩
    · exact ⟨fun _ => ⟨⟨options, rfl⟩, hall⟩, fun _ => herror⟩
    · have hnot := hmissing.not_all
      simp only [hrespond, reduceCtorEq, hnot, and_false]

theorem respond_error_ne_template (request : Request) (rest : String) :
    (respond request).error ≠ some ("template: " ++ rest) := by
  have hparameterHead : "parameter: ".toList.head? = some 'p' := by decide
  have hfileHead : "File[".toList.head? = some 'F' := by decide
  have htemplateHead : "template: ".toList.head? = some 't' := by decide
  intro h
  cases hparameter : Options.ofParameter request.parameter with
  | error e =>
    rw [respond_of_parameter_error hparameter] at h
    exact Text.append_ne_append_of_head? hparameterHead htemplateHead (by decide)
      (Option.some.inj h)
  | ok options =>
    rw [respond_of_parameter_ok hparameter] at h
    rcases respondWith_client options request with ⟨herror, -⟩ | ⟨name, -, hrespond⟩
    · rw [herror] at h
      cases h
    · rw [hrespond] at h
      have htext := Option.some.inj h
      simp only [FileFault.message, String.append_assoc] at htext
      exact Text.append_ne_append_of_head? hfileHead htemplateHead (by decide) htext

/-- A request succeeds if and only if its parameter is accepted and each of its names is that of a
descriptor. Otherwise there are no files, and the error is about the parameter if that is refused,
whatever the names are, and else about the first name without a descriptor. No error comes from the
template or from rendering. -/
theorem respond_error_cases (request : Request) :
    ((respond request).error = none ↔
      (∃ options, Options.ofParameter request.parameter = .ok options) ∧
        ∀ name ∈ request.files, request.descriptors.Names name) ∧
    (∀ e, Options.ofParameter request.parameter = .error e →
      (respond request).files = [] ∧
        (respond request).error
          = some ("parameter: " ++ (Fault.parameter e.message).message)) ∧
    (∀ options, Options.ofParameter request.parameter = .ok options →
      (¬ ∀ name ∈ request.files, request.descriptors.Names name) →
      ∃ name, request.FirstMissing name ∧ (respond request).files = [] ∧
        (respond request).error = some ("File[" ++ name
          ++ "][descriptor]: could not find descriptor for file: " ++ name)) ∧
    (∀ rest, (respond request).error ≠ some ("template: " ++ rest)) ∧
    ∀ options name fault,
      GeneratedFile.ofName (ClientText.renderer options) request.descriptors name = .error fault →
      fault.stage = .descriptor := by
  refine ⟨respond_error_eq_none_iff request, ?_, ?_, respond_error_ne_template request, ?_⟩
  · intro e hparameter
    rw [respond_of_parameter_error hparameter]
    exact ⟨rfl, rfl⟩
  · intro options hparameter hmissing
    rw [respond_of_parameter_ok hparameter]
    rcases respondWith_client options request with ⟨-, hall⟩ | ⟨name, hfirst, hrespond⟩
    · exact absurd hall hmissing
    · rw [hrespond, FileFault.message_descriptor]
      exact ⟨name, hfirst, rfl, rfl⟩
  · intro options name fault herror
    obtain ⟨stage, cause, hfails, rfl⟩ := ofName_error_iff.1 herror
    exact hfails.stage_eq.1

end TwirpClients
