import Mathlib.Control.Monad.Basic
import TwirpClients.Command.Run
import TwirpClients.Proofs.Wire.Descriptor

/-!
# What the plugin puts on its output

The plugin writes the fields of one response and nothing else. Whoever takes the bytes apart by
the rules for messages finds that response: no other reading of them is possible, and the reader
of this library is one that arrives at it.
-/

namespace TwirpClients

open Wire

namespace GeneratedFile

def toRecord (file : GeneratedFile) : Record :=
  .ofText? 1 file.name ++ .ofText? 15 file.content

@[simp] theorem ofRecord_toRecord (file : GeneratedFile) : ofRecord file.toRecord = file := by
  simp [ofRecord, toRecord]

theorem spells (depth : Nat) (file : GeneratedFile) :
    Spells depth .file file.toBytes file.toRecord :=
  (Spells.ofText? ⟨_, rfl⟩ file.name).append (.ofText? ⟨_, rfl⟩ file.content)

end GeneratedFile

namespace Response

def toRecord (response : Response) : Record :=
  .ofText? 1 response.error ++ .ofNumber 2 response.features
    ++ .ofRecords 15 (response.files.map GeneratedFile.toRecord)

@[simp] theorem ofRecord_toRecord (response : Response) :
    ofRecord response.toRecord = response := by
  simp [ofRecord, toRecord, Record.records_append, Function.comp_def]

theorem spells {response : Response} (h : response.features < 2 ^ 64) :
    Spells 1 .codeGeneratorResponse response.toBytes response.toRecord :=
  ((Spells.ofText? ⟨_, rfl⟩ response.error).append (.ofNumber ⟨_, rfl⟩ h)).append
    (.ofRecords ⟨_, rfl⟩ (GeneratedFile.spells 0) response.files)

end Response

theorem Request.ofBytes_of_spells {depth : Nat} {bytes : Bytes} {record : Record}
    (h : Spells depth .codeGeneratorRequest bytes record) (hdepth : depth ≤ maxDepth)
    (hlength : bytes.length < 2 ^ 64) : ofBytes bytes = .ok (ofRecord record) := by
  rw [ofBytes, Wire.ofBytes_of_spells h hdepth hlength]
  rfl

theorem respond_features (request : Request) : (respond request).features = 1 := by
  simp only [respond, respondWith]
  split
  · split <;> rfl
  · rfl

namespace Command

theorem pluginOutcome_of_error {input : Bytes} {e : DecodeError}
    (h : Request.ofBytes input = .error e) :
    (pluginOutcome input).exit = 1 ∧ (pluginOutcome input).stdout = [] := by
  simp only [pluginOutcome, h]
  exact ⟨rfl, rfl⟩

theorem pluginOutcome_of_ok {input : Bytes} {request : Request}
    (h : Request.ofBytes input = .ok request) :
    pluginOutcome input = { stdout := (respond request).toBytes } := by
  simp only [pluginOutcome, h]

/-- Input that is no request makes the plugin fail without a byte on its output. Bytes that are
spelled as a request are one, with what stands in the fields. For any input that is a request the
output is one response, that to the request: its bytes are spelled as a response with those very
fields and cannot be spelled otherwise, and reading them gives the response back, with what is
absent and what is empty told apart, provided that the bytes can be counted in 64 bits. -/
theorem pluginOutcome_frames_response (input : Bytes) :
    (∀ e, Request.ofBytes input = .error e →
      (pluginOutcome input).exit = 1 ∧ (pluginOutcome input).stdout = []) ∧
    (∀ depth record, Spells depth .codeGeneratorRequest input record → depth ≤ maxDepth →
      input.length < 2 ^ 64 → Request.ofBytes input = .ok (Request.ofRecord record)) ∧
    ∀ request, Request.ofBytes input = .ok request →
      (pluginOutcome input).exit = 0 ∧ (respond request).features = 1 ∧
      (∃ record, Spells 1 .codeGeneratorResponse (pluginOutcome input).stdout record ∧
        Response.ofRecord record = respond request) ∧
      (∀ depth record, Spells depth .codeGeneratorResponse (pluginOutcome input).stdout record →
        Response.ofRecord record = respond request) ∧
      ((pluginOutcome input).stdout.length < 2 ^ 64 →
        Response.ofBytes (pluginOutcome input).stdout = .ok (respond request)) := by
  refine ⟨fun e => pluginOutcome_of_error, fun depth record => Request.ofBytes_of_spells, ?_⟩
  intro request hrequest
  rw [pluginOutcome_of_ok hrequest]
  have hfeatures := respond_features request
  have hspells := Response.spells (show (respond request).features < 2 ^ 64 by omega)
  have hrecord := (respond request).ofRecord_toRecord
  refine ⟨rfl, hfeatures, ⟨_, hspells, hrecord⟩, ?_, ?_⟩
  · intro depth record hother
    rw [hspells.unique hother, hrecord]
  · intro hlength
    rw [Response.ofBytes, ofBytes_of_spells hspells (by decide) hlength]
    exact congrArg Except.ok hrecord

def pingFile : FileDescriptor where
  name := some "ping/v1/ping_api.proto"
  package := some "ping.v1"
  services := [{ name := some "Ping", methods := [{ name := some "Send" }] }]

def pingRequest : Request where
  files := ["ping/v1/ping_api.proto", ""]
  parameter := some "prefix=api"
  descriptors := ⟨[pingFile, {}]⟩

/-- The fields of the request out of the order of their tags, with a parameter given twice. -/
def pingInput : Bytes :=
  Writer.text 2 "flavor=mint" ++ (Writer.message 15 pingFile.toBytes
    ++ (Writer.text 1 "ping/v1/ping_api.proto" ++ (Writer.message 15 []
      ++ (Writer.text 2 "prefix=api" ++ (Writer.text 1 "" ++ [])))))

def pingRecord : Record :=
  [(2, .text "flavor=mint"), (15, .record pingFile.toRecord),
    (1, .text "ping/v1/ping_api.proto"), (15, .record []), (2, .text "prefix=api"), (1, .text "")]

theorem spells_pingInput : Spells 3 .codeGeneratorRequest pingInput pingRecord :=
  .text ⟨_, rfl⟩ (.message ⟨_, rfl⟩ (pingFile.spells 0) (.text ⟨_, rfl⟩ (.message ⟨_, rfl⟩ .nil
    (.text ⟨_, rfl⟩ (.text ⟨_, rfl⟩ .nil)))))

theorem pluginOutcome_frames_response_ping :
    Request.ofBytes pingInput = .ok pingRequest ∧ (pluginOutcome pingInput).exit = 0 ∧
      (∃ record, Spells 1 .codeGeneratorResponse (pluginOutcome pingInput).stdout record ∧
        Response.ofRecord record = respond pingRequest) ∧
      (respond pingRequest).error = none ∧
      (respond pingRequest).files.map (·.name)
        = [some "ping/v1/PingApiTwirp.cs", some "Twirp.cs"] ∧
      Response.ofBytes (pluginOutcome (Writer.text 1 "lost")).stdout
        = .ok { error := "File[lost][descriptor]: could not find descriptor for file: lost" } ∧
      (pluginOutcome [0x0A, 0xFF]).exit = 1 ∧ (pluginOutcome [0x0A, 0xFF]).stdout = [] := by
  obtain ⟨-, hdecode, hframes⟩ := pluginOutcome_frames_response pingInput
  obtain ⟨-, -, hframesLost⟩ := pluginOutcome_frames_response (Writer.text 1 "lost")
  obtain ⟨hgarbage, -, -⟩ := pluginOutcome_frames_response [0x0A, 0xFF]
  have hrecord : Request.ofRecord pingRecord = pingRequest := by decide +kernel
  have hrequest := hdecode 3 pingRecord spells_pingInput (by decide) (by decide +kernel)
  rw [hrecord] at hrequest
  obtain ⟨hexit, -, hspells, -, -⟩ := hframes pingRequest hrequest
  obtain ⟨-, -, -, -, hread⟩ := hframesLost { files := ["lost"] } (by decide +kernel)
  have hbytes : Request.ofBytes [0x0A, 0xFF]
      = .error ⟨.varint, [⟨"CodeGeneratorRequest", "file_to_generate"⟩]⟩ := by decide +kernel
  refine ⟨hrequest, hexit, hspells, by decide +kernel, by decide +kernel, ?_, hgarbage _ hbytes⟩
  rw [hread (by decide +kernel)]
  decide +kernel

end Command
end TwirpClients
