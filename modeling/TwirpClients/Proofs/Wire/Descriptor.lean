import TwirpClients.Api
import TwirpClients.Proofs.Wire.Spelling
import TwirpClients.Wire.Descriptor

/-!
# Descriptor sets survive their bytes

Every descriptor is written as the fields of a record and read off the views of one. For the two
to agree it is enough that the record has the right views, message by message; that the record is
found again in the bytes is a fact about all messages.
-/

namespace TwirpClients

open Wire

namespace MethodDescriptor

def toRecord (method : MethodDescriptor) : Record :=
  .ofText? 1 method.name ++ .ofText? 2 method.inputType ++ .ofText? 3 method.outputType

@[simp] theorem ofRecord_toRecord (method : MethodDescriptor) :
    ofRecord method.toRecord = method := by
  simp [ofRecord, toRecord]

theorem spells (depth : Nat) (method : MethodDescriptor) :
    Spells depth .methodDescriptorProto method.toBytes method.toRecord :=
  ((Spells.ofText? ⟨_, rfl⟩ method.name).append (.ofText? ⟨_, rfl⟩ method.inputType)).append
    (.ofText? ⟨_, rfl⟩ method.outputType)

end MethodDescriptor

namespace ServiceDescriptor

def toRecord (service : ServiceDescriptor) : Record :=
  .ofText? 1 service.name ++ .ofRecords 2 (service.methods.map MethodDescriptor.toRecord)

@[simp] theorem ofRecord_toRecord (service : ServiceDescriptor) :
    ofRecord service.toRecord = service := by
  simp [ofRecord, toRecord, Record.records_append, Function.comp_def]

theorem spells (depth : Nat) (service : ServiceDescriptor) :
    Spells (depth + 1) .serviceDescriptorProto service.toBytes service.toRecord :=
  (Spells.ofText? ⟨_, rfl⟩ service.name).append
    (.ofRecords ⟨_, rfl⟩ (MethodDescriptor.spells depth) service.methods)

end ServiceDescriptor

namespace FileOptions

def toRecord (options : FileOptions) : Record := .ofText? 37 options.csharpNamespace

@[simp] theorem ofRecord_toRecord (options : FileOptions) :
    ofRecord options.toRecord = options := by
  simp [ofRecord, toRecord]

theorem spells (depth : Nat) (options : FileOptions) :
    Spells depth .fileOptions options.toBytes options.toRecord :=
  .ofText? ⟨_, rfl⟩ options.csharpNamespace

end FileOptions

namespace FileDescriptor

def toRecord (file : FileDescriptor) : Record :=
  .ofText? 1 file.name ++ .ofText? 2 file.package
    ++ .ofRecords 6 (file.services.map ServiceDescriptor.toRecord)
    ++ .ofRecords 8 (file.options.toList.map FileOptions.toRecord)

@[simp] theorem ofRecord_toRecord (file : FileDescriptor) : ofRecord file.toRecord = file := by
  obtain ⟨name, package, options, services⟩ := file
  cases options <;>
    simp [ofRecord, toRecord, Record.record?, Record.records_append, Function.comp_def]

theorem spells (depth : Nat) (file : FileDescriptor) :
    Spells (depth + 2) .fileDescriptorProto file.toBytes file.toRecord := by
  have hservices : Spells (depth + 2) .fileDescriptorProto
      (file.services.flatMap fun service => Writer.message 6 service.toBytes)
      (.ofRecords 6 (file.services.map ServiceDescriptor.toRecord)) :=
    .ofRecords ⟨_, rfl⟩ (ServiceDescriptor.spells depth) file.services
  have hoptions : Spells (depth + 2) .fileDescriptorProto
      (file.options.toList.flatMap fun options => Writer.message 8 options.toBytes)
      (.ofRecords 8 (file.options.toList.map FileOptions.toRecord)) :=
    .ofRecords ⟨_, rfl⟩ (FileOptions.spells (depth + 1)) file.options.toList
  have helim : file.options.elim [] (fun options => Writer.message 8 options.toBytes)
      = file.options.toList.flatMap fun options => Writer.message 8 options.toBytes := by
    cases file.options <;> simp
  rw [toBytes, helim]
  exact (((Spells.ofText? ⟨_, rfl⟩ file.name).append (.ofText? ⟨_, rfl⟩ file.package)).append
    hservices).append hoptions

end FileDescriptor

namespace DescriptorSet

def toRecord (set : DescriptorSet) : Record :=
  .ofRecords 1 (set.files.map FileDescriptor.toRecord)

@[simp] theorem ofRecord_toRecord (set : DescriptorSet) : ofRecord set.toRecord = set := by
  simp [ofRecord, toRecord, Function.comp_def]

/-- The bytes are an encoding of the set, with the fields of each message in any order. -/
def SpelledBy (set : DescriptorSet) (bytes : Bytes) : Prop :=
  ∃ record, Spells 3 .fileDescriptorSet bytes record ∧ ofRecord record = set

theorem spelledBy_toBytes (set : DescriptorSet) : set.SpelledBy set.toBytes :=
  ⟨set.toRecord, .ofRecords ⟨_, rfl⟩ (FileDescriptor.spells 0) set.files, set.ofRecord_toRecord⟩

theorem parse_of_spelledBy {set : DescriptorSet} {bytes : Bytes} (h : set.SpelledBy bytes)
    (hlength : bytes.length < 2 ^ 64) : parse bytes = .ok set := by
  obtain ⟨record, hspells, rfl⟩ := h
  have hrecord := ofBytes_of_spells hspells (by decide) hlength
  rw [parse, ofBytes, hrecord]
  rfl

/-- A set is found again in its bytes, written in the order of the tags or in any other, as long as
the bytes can be counted in 64 bits: the files are the same ones in the same order, what is absent
is absent and what is empty is empty. So every name leads to the same API, and the same files are
known to declare a service. -/
theorem parse_spelled (set : DescriptorSet) :
    set.SpelledBy set.toBytes ∧
      ∀ bytes, set.SpelledBy bytes → bytes.length < 2 ^ 64 →
        ∃ loaded, parse bytes = .ok loaded ∧ loaded.files = set.files ∧
          (∀ name, loaded.api? name = set.api? name) ∧
          loaded.filesWithServices = set.filesWithServices := by
  refine ⟨set.spelledBy_toBytes, ?_⟩
  intro bytes hbytes hlength
  exact ⟨set, parse_of_spelledBy hbytes hlength, rfl, fun _ => rfl, rfl⟩

end DescriptorSet
end TwirpClients
