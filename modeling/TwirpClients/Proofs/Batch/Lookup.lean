import TwirpClients.Proofs.Batch.Errors
import TwirpClients.Proofs.Descriptor

/-!
# What a response takes from the descriptors

Of the descriptors in a request only those count that its names find. Two requests that differ in
nothing else have the same response, be it files or an error. So what answers to none of the names
may be anywhere in the set or missing from it, and what stands behind the descriptors that a
successful request has found is never seen.
-/

namespace TwirpClients

theorem ofName_eq_of_find? (renderer : Renderer) {set set' : DescriptorSet} {name : String}
    (h : set'.find? name = set.find? name) :
    GeneratedFile.ofName renderer set' name = GeneratedFile.ofName renderer set name := by
  simp only [GeneratedFile.ofName, DescriptorSet.api?, h]

theorem respondWith_eq_of_find? (renderer : Renderer) {request request' : Request}
    (hfiles : request'.files = request.files)
    (hfind : ∀ name ∈ request.files,
      request'.descriptors.find? name = request.descriptors.find? name) :
    respondWith renderer request' = respondWith renderer request := by
  have hmap := mapM_congr fun name hname => ofName_eq_of_find? renderer (hfind name hname)
  simp only [respondWith, hfiles, hmap]

theorem respond_eq_of_find? {request request' : Request} (hfiles : request'.files = request.files)
    (hparameter : request'.parameter = request.parameter)
    (hfind : ∀ name ∈ request.files,
      request'.descriptors.find? name = request.descriptors.find? name) :
    respond request' = respond request := by
  have hwith := fun options =>
    respondWith_eq_of_find? (ClientText.renderer options) hfiles hfind
  simp only [respond, hparameter, hwith]

theorem respond_eq_of_answering (request : Request) {set : DescriptorSet}
    (h : set.answering request.files = request.descriptors.answering request.files) :
    respond { request with descriptors := set } = respond request :=
  respond_eq_of_find? rfl rfl fun _ hname => DescriptorSet.find?_eq_of_answering_eq h hname

theorem respond_append_of_success {request : Request} (h : (respond request).error = none)
    (more : List FileDescriptor) :
    respond { request with descriptors := ⟨request.descriptors.files ++ more⟩ }
      = respond request := by
  obtain ⟨-, hnames⟩ := (respond_error_eq_none_iff request).1 h
  have hfind : ∀ name ∈ request.files,
      DescriptorSet.find? ⟨request.descriptors.files ++ more⟩ name
        = request.descriptors.find? name := by
    intro name hname
    obtain ⟨file, hmem, rfl⟩ := hnames name hname
    obtain ⟨found, hfound⟩ := DescriptorSet.exists_find?_of_mem hmem
    rw [hfound]
    exact DescriptorSet.find?_append_of_find? hfound more
  exact respond_eq_of_find? rfl rfl hfind

/-- The response to a request is the same for every set in which the names of the request find the
same descriptors, or none, as before. In particular a success stays as it is when descriptors are
appended; descriptors that answer to no name of the request can be inserted anywhere or removed;
and all sets with the same answering descriptors in the same order are as good as each other. -/
theorem respond_depends_on_first_matches (request : Request) :
    (∀ request' : Request, request'.files = request.files →
      request'.parameter = request.parameter →
      (∀ name ∈ request.files,
        request'.descriptors.find? name = request.descriptors.find? name) →
      respond request' = respond request) ∧
    ((respond request).error = none → ∀ more,
      respond { request with descriptors := ⟨request.descriptors.files ++ more⟩ }
        = respond request) ∧
    (∀ before extra after, (∀ file ∈ extra, file.lookupName ∉ request.files) →
      respond { request with descriptors := ⟨before ++ extra ++ after⟩ }
        = respond { request with descriptors := ⟨before ++ after⟩ }) ∧
    ∀ set : DescriptorSet,
      set.answering request.files = request.descriptors.answering request.files →
      respond { request with descriptors := set } = respond request := by
  refine ⟨?_, respond_append_of_success, ?_, fun set => respond_eq_of_answering request⟩
  · intro request' hfiles hparameter hfind
    exact respond_eq_of_find? hfiles hparameter hfind
  · intro before extra after hextra
    exact respond_eq_of_answering { request with descriptors := ⟨before ++ after⟩ }
      (DescriptorSet.answering_insert hextra before after)

def mailFile : FileDescriptor where
  name := some "mail.proto"
  package := some "mail"
  services := [{ name := some "Inbox" }]

def clockFile : FileDescriptor where
  package := some "clock"

/-- The name asked for is that of two descriptors, with another one between them. -/
def shadowedRequest : Request where
  files := ["mail.proto"]
  parameter := some "prefix=api"
  descriptors := ⟨[mailFile, clockFile, { name := some "mail.proto" }]⟩

theorem respond_depends_on_first_matches_shadowed :
    (respond shadowedRequest).files.map (·.name) = [some "MailTwirp.cs"] ∧
      respond { shadowedRequest with descriptors := ⟨[mailFile]⟩ } = respond shadowedRequest ∧
      respond { shadowedRequest with
          descriptors := ⟨shadowedRequest.descriptors.files ++ [clockFile, mailFile]⟩ }
        = respond shadowedRequest ∧
      respond shadowedRequest
        = respond { shadowedRequest with
          descriptors := ⟨[mailFile] ++ [{ name := some "mail.proto" }]⟩ } ∧
      respond { shadowedRequest with
          descriptors := ⟨[clockFile, mailFile, clockFile, { name := some "mail.proto" }]⟩ }
        = respond shadowedRequest := by
  obtain ⟨hfind, happend, hinsert, hanswering⟩ :=
    respond_depends_on_first_matches shadowedRequest
  have herror : (respond shadowedRequest).error = none := by decide +kernel
  refine ⟨by decide +kernel, hfind _ rfl rfl ?_, happend herror _,
    hinsert [mailFile] [clockFile] _ ?_, hanswering _ ?_⟩
  · decide +kernel
  · decide +kernel
  · decide +kernel

end TwirpClients
