import TwirpClients.Descriptor
import TwirpClients.Fault
import TwirpClients.Wire.Record
import TwirpClients.Wire.Writer

/-!
# Descriptors as bytes

A descriptor set is read from the record of its message and written field by field, in
the order of the tags. Of a descriptor only the fields that a client is made from are kept.
-/

namespace TwirpClients

open Wire

def MethodDescriptor.ofRecord (r : Record) : MethodDescriptor where
  name := r.text? 1
  inputType := r.text? 2
  outputType := r.text? 3

def ServiceDescriptor.ofRecord (r : Record) : ServiceDescriptor where
  name := r.text? 1
  methods := (r.records 2).map MethodDescriptor.ofRecord

def FileOptions.ofRecord (r : Record) : FileOptions where
  csharpNamespace := r.text? 37

def FileDescriptor.ofRecord (r : Record) : FileDescriptor where
  name := r.text? 1
  package := r.text? 2
  options := (r.record? 8).map FileOptions.ofRecord
  services := (r.records 6).map ServiceDescriptor.ofRecord

def DescriptorSet.ofRecord (r : Record) : DescriptorSet where
  files := (r.records 1).map FileDescriptor.ofRecord

def DescriptorSet.ofBytes (bytes : Bytes) : Except DecodeError DescriptorSet :=
  (Record.ofBytes .fileDescriptorSet bytes).map ofRecord

def DescriptorSet.parse (bytes : Bytes) : Except Fault DescriptorSet :=
  (ofBytes bytes).mapError fun e =>
    .parse ("Failed to decode FileDescriptorSet: " ++ e.message)

def MethodDescriptor.toBytes (method : MethodDescriptor) : Bytes :=
  Writer.text? 1 method.name ++ Writer.text? 2 method.inputType
    ++ Writer.text? 3 method.outputType

def ServiceDescriptor.toBytes (service : ServiceDescriptor) : Bytes :=
  Writer.text? 1 service.name
    ++ service.methods.flatMap fun method => Writer.message 2 method.toBytes

def FileOptions.toBytes (options : FileOptions) : Bytes :=
  Writer.text? 37 options.csharpNamespace

def FileDescriptor.toBytes (file : FileDescriptor) : Bytes :=
  Writer.text? 1 file.name ++ Writer.text? 2 file.package
    ++ (file.services.flatMap fun service => Writer.message 6 service.toBytes)
    ++ file.options.elim [] fun options => Writer.message 8 options.toBytes

def DescriptorSet.toBytes (set : DescriptorSet) : Bytes :=
  set.files.flatMap fun file => Writer.message 1 file.toBytes

end TwirpClients
