import TwirpClients.Api
import TwirpClients.Json.Printer
import TwirpClients.Json.Value

/-!
# APIs as JSON

`Api.toJson` prints an API for a reader, `Api.ofJson?` takes one from a value. Both know
the fields by the same names and in the same order.
-/

namespace TwirpClients

def Method.fieldNames : List String := ["service_url", "service_name", "name", "input", "output"]

def Service.fieldNames : List String := ["name", "service_url", "methods"]

def Api.fieldNames : List String := ["file_name", "namespace", "services"]

def Method.layout (method : Method) : Json.Layout :=
  .object <| fieldNames.zip
    [.text method.serviceUrl, .text method.serviceName, .text method.name, .text method.input,
      .text method.output]

def Service.layout (service : Service) : Json.Layout :=
  .object <| fieldNames.zip
    [.text service.name, .text service.serviceUrl, .list (service.methods.map Method.layout)]

def Api.layout (api : Api) : Json.Layout :=
  .object <| fieldNames.zip
    [.text api.fileName, .text api.codeNamespace, .list (api.services.map Service.layout)]

def Api.toJson (api : Api) : String := api.layout.print

def Method.ofJson? (json : Json) : Option Method := do
  let [serviceUrl, serviceName, name, input, output] ← json.fields? fieldNames | none
  some ⟨← serviceUrl.text?, ← serviceName.text?, ← name.text?, ← input.text?, ← output.text?⟩

def Service.ofJson? (json : Json) : Option Service := do
  let [name, serviceUrl, methods] ← json.fields? fieldNames | none
  some ⟨← name.text?, ← serviceUrl.text?, ← methods.listOf? Method.ofJson?⟩

def Api.ofJson? (json : Json) : Option Api := do
  let [fileName, codeNamespace, services] ← json.fields? fieldNames | none
  some ⟨← fileName.text?, ← codeNamespace.text?, ← services.listOf? Service.ofJson?⟩

def Api.parse? (text : String) : Option Api := (Json.parse? text).bind Api.ofJson?

end TwirpClients
