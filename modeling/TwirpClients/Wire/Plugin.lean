import TwirpClients.Batch
import TwirpClients.Wire.Descriptor

/-!
# Requests and responses as bytes

A plugin is sent one request and sends back one response. A request is only read; a
response is written in the order of the tags, and reading it back is defined beside it.
-/

namespace TwirpClients

open Wire

def Request.ofRecord (r : Record) : Request where
  files := r.texts 1
  parameter := r.text? 2
  descriptors := ⟨(r.records 15).map FileDescriptor.ofRecord⟩

def Request.ofBytes (bytes : Bytes) : Except DecodeError Request :=
  (Record.ofBytes .codeGeneratorRequest bytes).map ofRecord

def GeneratedFile.toBytes (file : GeneratedFile) : Bytes :=
  Writer.text? 1 file.name ++ Writer.text? 15 file.content

def Response.toBytes (response : Response) : Bytes :=
  Writer.text? 1 response.error ++ Writer.number 2 response.features
    ++ response.files.flatMap fun file => Writer.message 15 file.toBytes

def GeneratedFile.ofRecord (r : Record) : GeneratedFile where
  name := r.text? 1
  content := r.text? 15

/-- The response of a record; a response without features supports none. -/
def Response.ofRecord (r : Record) : Response where
  error := r.text? 1
  features := (r.number? 2).getD 0
  files := (r.records 15).map GeneratedFile.ofRecord

def Response.ofBytes (bytes : Bytes) : Except DecodeError Response :=
  (Record.ofBytes .codeGeneratorResponse bytes).map ofRecord

end TwirpClients
