import TwirpClients.Proofs.Batch
import TwirpClients.Proofs.ClientText.RoundTrip
import TwirpClients.Proofs.Descriptor

/-!
# The files of a batch made one by one

A batch names a file after the name that was asked for, while a file made for an API alone is named
after the file that the API came from. The look-up compares names as they are and an absent name is
read as the empty one in both places, so the two names never differ.
-/

namespace TwirpClients

theorem fileName_of_find? {set : DescriptorSet} {name : String} {descriptor : FileDescriptor}
    (h : set.find? name = some descriptor) : (Api.ofDescriptor descriptor).fileName = name :=
  (DescriptorSet.mem_of_find? h).2

theorem name_of_find? {set : DescriptorSet} {name : String} {descriptor : FileDescriptor}
    (h : set.find? name = some descriptor) :
    descriptor.name = some name ∨ descriptor.name = none ∧ name = "" := by
  obtain ⟨-, hname⟩ := DescriptorSet.mem_of_find? h
  rw [FileDescriptor.lookupName] at hname
  cases hrecorded : descriptor.name with
  | none =>
    rw [hrecorded] at hname
    exact Or.inr ⟨rfl, hname.symm⟩
  | some recorded =>
    rw [hrecorded] at hname
    exact Or.inl (congrArg some hname)

theorem ofApi_eq_ok {renderer : Renderer} {api : Api} {text : String}
    (h : renderer api = .ok text) :
    GeneratedFile.ofApi renderer api
      = .ok ⟨some (GeneratedFile.nameFor api.fileName), some text⟩ := by
  rw [GeneratedFile.ofApi, h]
  rfl

theorem render_eq_header_append (options : Options) (api : Api) :
    ∃ rest, ClientText.render options api
      = ClientText.unlines ["// <auto-generated>",
          "//     Generated by protoc-gen-twirp_unity. DO NOT EDIT!", "// </auto-generated>",
          "// source: " ++ api.fileName] ++ rest := by
  refine ⟨ClientText.unlines (ClientText.usingLines api ++ ["", "namespace Twirp \x7b"]
    ++ api.services.flatMap (ClientText.classLines options) ++ ["\x7d"]), ?_⟩
  apply String.toList_injective
  rw [String.toList_append, ← ClientText.unlines_append, ClientText.render, ClientText.lines,
    ClientText.headerLines]
  simp only [List.append_assoc]

theorem complete_of_error_eq_none {renderer : Renderer} {request : Request}
    (h : (respondWith renderer request).error = none) :
    (respondWith renderer request).Complete renderer request := by
  rcases respondWith_complete_or_stoppedAt renderer request with
    hcomplete | ⟨before, name, hstopped⟩
  · exact hcomplete
  · obtain ⟨stage, fault, -, herror⟩ := hstopped.fails
    rw [h] at herror
    cases herror

/-- Each file of a successful batch is the one made for the API alone that its name leads to. The
API has this name as its file name, and so has the header of the text, also where the name is empty
and leads to a descriptor without a name. -/
theorem respondWith_files_one_by_one (options : Options) (request : Request)
    (h : (respondWith (ClientText.renderer options) request).error = none) :
    List.Forall₂ (fun name file => ∃ descriptor api,
        request.descriptors.find? name = some descriptor ∧
        (descriptor.name = some name ∨ descriptor.name = none ∧ name = "") ∧
        request.descriptors.api? name = some api ∧ api.fileName = name ∧
        GeneratedFile.ofApi (ClientText.renderer options) api = .ok file ∧
        ∃ text rest, file.content = some text ∧
          text = ClientText.unlines ["// <auto-generated>",
            "//     Generated by protoc-gen-twirp_unity. DO NOT EDIT!", "// </auto-generated>",
            "// source: " ++ name] ++ rest)
      request.files (respondWith (ClientText.renderer options) request).files := by
  apply (complete_of_error_eq_none h).files.imp
  intro name file ⟨text, ⟨api, hapi, htext⟩, hfile⟩
  obtain ⟨descriptor, hfind, rfl⟩ := Option.map_eq_some_iff.1 hapi
  have hname := fileName_of_find? hfind
  have hmade := ofApi_eq_ok htext
  obtain ⟨rest, hrest⟩ := render_eq_header_append options (Api.ofDescriptor descriptor)
  rw [hname] at hmade hrest
  rw [hfile]
  refine ⟨descriptor, _, hfind, name_of_find? hfind, hapi, hname, hmade, text, rest, rfl, ?_⟩
  cases htext
  exact hrest

/-- The second name leads to the first descriptor, which has none. -/
def namelessRequest : Request where
  files := ["mail/in_box.proto", ""]
  descriptors := ⟨[{ package := some "clock", services := [{ name := some "Clock" }] },
    { name := some "mail/in_box.proto" }, { name := some "" }]⟩

theorem respondWith_files_one_by_one_nameless :
    (respondWith (ClientText.renderer {}) namelessRequest).error = none ∧
      ∃ mail clock, (respondWith (ClientText.renderer {}) namelessRequest).files = [mail, clock] ∧
        GeneratedFile.ofApi (ClientText.renderer {}) ⟨"mail/in_box.proto", "", []⟩ = .ok mail ∧
        GeneratedFile.ofApi (ClientText.renderer {}) ⟨"", "Clock", [⟨"Clock", "clock.Clock", []⟩]⟩
          = .ok clock := by
  have herror : (respondWith (ClientText.renderer {}) namelessRequest).error = none := by
    decide +kernel
  have hmail : namelessRequest.descriptors.api? "mail/in_box.proto"
      = some ⟨"mail/in_box.proto", "", []⟩ := by
    decide +kernel
  have hclock : namelessRequest.descriptors.api? ""
      = some ⟨"", "Clock", [⟨"Clock", "clock.Clock", []⟩]⟩ := by
    decide +kernel
  have hfiles := respondWith_files_one_by_one {} namelessRequest herror
  obtain ⟨mail, _, ⟨_, mailApi, _, _, hmailApi, _, hmailFile, _⟩, hothers, hresponse⟩ :=
    List.forall₂_cons_left_iff.1 hfiles
  obtain ⟨clock, _, ⟨_, clockApi, _, _, hclockApi, _, hclockFile, _⟩, hnone, rfl⟩ :=
    List.forall₂_cons_left_iff.1 hothers
  rw [List.forall₂_nil_left_iff.1 hnone] at hresponse
  rw [Option.some.inj (hmailApi.symm.trans hmail)] at hmailFile
  rw [Option.some.inj (hclockApi.symm.trans hclock)] at hclockFile
  exact ⟨herror, mail, clock, hresponse, hmailFile, hclockFile⟩

end TwirpClients
