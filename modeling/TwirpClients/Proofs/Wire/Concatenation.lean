import TwirpClients.Proofs.Batch.Errors
import TwirpClients.Proofs.Descriptor
import TwirpClients.Proofs.Wire.Steady
import TwirpClients.Wire.Descriptor

/-!
# Sets one after the other

The bytes of two messages one after the other are a message, and its record is the record of the one
followed by that of the other. If only the second cannot be read, then the two together cannot, for
the same reason. For descriptor sets this means that files can be put together without
reading them.
-/

namespace TwirpClients

open Wire

namespace Wire.Record

theorem ofBytes_append {type : MessageType} {first : Bytes} {record : Record}
    (h : ofBytes type first = .ok record) (second : Bytes) :
    ofBytes type (first ++ second) = (ofBytes type second).map (record ++ ·) := by
  have hsteady := Reader.steady_field (Reader.steady_message maxDepth) (Reader.steady_skip maxDepth)
    type
  have hinput := Reader.needsInput_field (Reader.message maxDepth) (Reader.skip maxDepth) type
  obtain ⟨⟨fields, rest⟩, hfields, hrecord⟩ := map_ok_iff.1 h
  obtain ⟨parts, hparts, hreads, hrest⟩ := Reader.exists_parts_of_downTo hsteady hinput hfields
  have hnil : rest = [] := List.eq_nil_of_length_eq_zero (Nat.le_zero.1 hrest)
  rw [hnil, List.append_nil] at hparts
  simp only [ofBytes]
  rw [hparts, Reader.downTo_flatten_append hinput hreads (Nat.zero_le _), ← hrecord]
  cases Reader.downTo 0 (Reader.field (Reader.message maxDepth) (Reader.skip maxDepth) type)
    second with
  | error e => rfl
  | ok result => simp only [Except.map, List.flatten_append]

end Wire.Record

namespace DescriptorSet

instance : Append DescriptorSet where
  append set set' := ⟨set.files ++ set'.files⟩

theorem files_append (set set' : DescriptorSet) : (set ++ set').files = set.files ++ set'.files :=
  rfl

theorem ofRecord_append (record record' : Record) :
    ofRecord (record ++ record') = ofRecord record ++ ofRecord record' := by
  have hfiles : (ofRecord (record ++ record')).files
      = (ofRecord record).files ++ (ofRecord record').files := by
    simp only [ofRecord, Record.records_append, List.map_append]
  exact congrArg mk hfiles

theorem filesWithServices_append (set set' : DescriptorSet) :
    (set ++ set').filesWithServices = set.filesWithServices ++ set'.filesWithServices := by
  simp only [filesWithServices, files_append, List.filter_append, List.map_append]

theorem api?_append (set set' : DescriptorSet) (name : String) :
    (set ++ set').api? name = (set.api? name).or (set'.api? name) := by
  simp only [api?, find?, files_append, List.find?_append, Option.map_or]

theorem parse_ok_iff {bytes : Bytes} {set : DescriptorSet} :
    parse bytes = .ok set ↔ ofBytes bytes = .ok set := by
  rw [parse]
  cases ofBytes bytes <;> simp [Except.mapError]

theorem parse_error_iff {bytes : Bytes} {fault : Fault} :
    parse bytes = .error fault ↔ ∃ e, ofBytes bytes = .error e ∧
      fault = .parse ("Failed to decode FileDescriptorSet: " ++ e.message) := by
  rw [parse]
  cases ofBytes bytes <;> simp [Except.mapError, eq_comm]

theorem ofBytes_append {first : Bytes} {set : DescriptorSet} (h : ofBytes first = .ok set)
    (second : Bytes) : ofBytes (first ++ second) = (ofBytes second).map (set ++ ·) := by
  obtain ⟨record, hrecord, rfl⟩ := map_ok_iff.1 h
  rw [ofBytes, ofBytes, Record.ofBytes_append hrecord second]
  cases Record.ofBytes .fileDescriptorSet second with
  | error e => rfl
  | ok record' => exact congrArg Except.ok (ofRecord_append record record')

/-- Descriptor sets can be put together as bytes. If both can be read, then so can the two one after
the other, and the files are those of the first set followed by those of the second, so a name
that the first set does not have is looked up in the second. If only the first can be read, then the
fault is that of the second. -/
theorem parse_append (first second : Bytes) :
    (∀ set set', parse first = .ok set → parse second = .ok set' →
      ∃ both, parse (first ++ second) = .ok both ∧ both.files = set.files ++ set'.files ∧
        both.filesWithServices = set.filesWithServices ++ set'.filesWithServices ∧
        ∀ name, (set.Names name → both.api? name = set.api? name) ∧
          (¬ set.Names name → both.api? name = set'.api? name)) ∧
    ∀ set fault, parse first = .ok set → parse second = .error fault →
      ∃ text, fault = .parse text ∧ parse (first ++ second) = .error (.parse text) := by
  constructor
  · intro set set' hset hset'
    have hboth := ofBytes_append (parse_ok_iff.1 hset) second
    rw [parse_ok_iff.1 hset'] at hboth
    refine ⟨set ++ set', parse_ok_iff.2 hboth, files_append set set',
      filesWithServices_append set set', ?_⟩
    intro name
    rw [api?_append]
    cases hapi : set.api? name with
    | none => exact ⟨fun hname => absurd hname (not_names_of_api?_none hapi), fun _ => rfl⟩
    | some api => exact ⟨fun _ => rfl, fun hname => absurd (names_of_api? hapi) hname⟩
  · intro set fault hset hfault
    obtain ⟨e, he, rfl⟩ := parse_error_iff.1 hfault
    have hboth := ofBytes_append (parse_ok_iff.1 hset) second
    rw [he] at hboth
    exact ⟨_, rfl, parse_error_iff.2 ⟨e, hboth, rfl⟩⟩

/-- A group of no known field, and a file whose length has a byte more than it needs. -/
def mailBytes : Bytes :=
  [0x13, 0x08, 0x01, 0x14, 0x0A, 0x88, 0x00, 0x0A, 0x04, 0x6D, 0x61, 0x69, 0x6C, 0x32, 0x00]

/-- Two files, the first with the name that is also in `mailBytes`. -/
def clockBytes : Bytes :=
  [0x0A, 0x06, 0x0A, 0x04, 0x6D, 0x61, 0x69, 0x6C, 0x0A, 0x07, 0x0A, 0x05, 0x63, 0x6C, 0x6F, 0x63,
    0x6B]

def cutBytes : Bytes := [0x0A, 0x05]

def mailSet : DescriptorSet where
  files := [{ name := some "mail", services := [{}] }]

def clockSet : DescriptorSet where
  files := [{ name := some "mail" }, { name := some "clock" }]

theorem parse_append_mail :
    (∃ both, parse (mailBytes ++ clockBytes) = .ok both ∧
      both.files.map (·.name) = [some "mail", some "mail", some "clock"] ∧
      both.filesWithServices = ["mail"] ∧ both.api? "mail" = mailSet.api? "mail" ∧
      both.api? "clock" = clockSet.api? "clock") ∧
    ∃ text, text = "Failed to decode FileDescriptorSet: "
        ++ "failed to decode Protobuf message: FileDescriptorSet.file: buffer underflow" ∧
      parse cutBytes = .error (.parse text) ∧
      parse (mailBytes ++ cutBytes) = .error (.parse text) := by
  have hmail : parse mailBytes = .ok mailSet := by decide +kernel
  have hclock : parse clockBytes = .ok clockSet := by decide +kernel
  have hcut : parse cutBytes = .error (.parse ("Failed to decode FileDescriptorSet: "
      ++ "failed to decode Protobuf message: FileDescriptorSet.file: buffer underflow")) := by
    decide +kernel
  constructor
  · obtain ⟨both, hboth, hfiles, hservices, hapis⟩ :=
      (parse_append mailBytes clockBytes).1 mailSet clockSet hmail hclock
    have hnamed : mailSet.Names "mail" := ⟨_, List.mem_cons_self, rfl⟩
    have hother : ¬ mailSet.Names "clock" := by
      intro ⟨file, hfile, hname⟩
      rw [List.mem_singleton.1 hfile] at hname
      exact absurd hname (by decide)
    refine ⟨both, hboth, ?_, ?_, (hapis "mail").1 hnamed, (hapis "clock").2 hother⟩
    · rw [hfiles]
      decide +kernel
    · rw [hservices]
      decide +kernel
  · obtain ⟨text, htext, hboth⟩ := (parse_append mailBytes cutBytes).2 mailSet _ hmail hcut
    cases htext
    exact ⟨_, rfl, hcut, hboth⟩

end DescriptorSet
end TwirpClients
