import Mathlib.Data.List.Nodup
import TwirpClients.Descriptor

/-!
# Which descriptor a name finds

A name finds the first descriptor that answers to it. Descriptors behind that one and descriptors
that answer to other names are passed over, wherever they stand. If no two descriptors answer to the
same name, then each is found by its own.
-/

namespace TwirpClients.DescriptorSet

variable {set set' : DescriptorSet} {name : String} {names : List String} {file : FileDescriptor}

theorem exists_find?_of_mem (h : file ∈ set.files) :
    ∃ found, set.find? file.lookupName = some found := by
  apply Option.ne_none_iff_exists'.1
  intro hnone
  have hne := List.find?_eq_none.1 hnone file h
  simp at hne

theorem mem_of_find? (h : set.find? name = some file) :
    file ∈ set.files ∧ file.lookupName = name := by
  have hname := List.find?_some h
  exact ⟨List.mem_of_find?_eq_some h, eq_of_beq hname⟩

theorem find?_append_of_find? (h : set.find? name = some file) (more : List FileDescriptor) :
    find? ⟨set.files ++ more⟩ name = some file := by
  rw [find?] at h
  rw [find?, List.find?_append, h, Option.some_or]

/-- The descriptors that answer to one of the names, in their order. -/
def answering (names : List String) (set : DescriptorSet) : List FileDescriptor :=
  set.files.filter (·.lookupName ∈ names)

theorem find?_answering (h : name ∈ names) : find? ⟨set.answering names⟩ name = set.find? name := by
  have hboth : (fun file : FileDescriptor =>
      decide (decide (file.lookupName ∈ names) = true ∧ (file.lookupName == name) = true))
        = fun file => file.lookupName == name := by
    funext file
    by_cases hname : file.lookupName = name
    · simp [hname, h]
    · simp [hname]
  rw [find?, answering, List.find?_filter, hboth, find?]

theorem find?_eq_of_answering_eq (hset : set'.answering names = set.answering names)
    (h : name ∈ names) : set'.find? name = set.find? name := by
  rw [← find?_answering h, hset, find?_answering h]

theorem answering_insert {extra : List FileDescriptor}
    (h : ∀ file ∈ extra, file.lookupName ∉ names) (before after : List FileDescriptor) :
    answering names ⟨before ++ extra ++ after⟩ = answering names ⟨before ++ after⟩ := by
  have hextra : extra.filter (·.lookupName ∈ names) = [] := by
    apply List.filter_eq_nil_iff.2
    intro file hfile
    simpa using h file hfile
  rw [answering, List.filter_append, List.filter_append, hextra, List.append_nil,
    ← List.filter_append, answering]

theorem find?_lookupName (hnodup : (set.files.map (·.lookupName)).Nodup) (h : file ∈ set.files) :
    set.find? file.lookupName = some file := by
  obtain ⟨found, hfound⟩ := exists_find?_of_mem h
  obtain ⟨hmem, hname⟩ := mem_of_find? hfound
  have heq := List.inj_on_of_nodup_map hnodup hmem h hname
  rw [hfound, heq]

end TwirpClients.DescriptorSet
