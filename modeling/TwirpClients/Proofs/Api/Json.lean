import TwirpClients.Api.Json
import TwirpClients.Proofs.Json.Printer

/-!
# APIs survive printing

An API is laid out as a record of records, and the value of the same shape is read as that API.
Since the text of a layout is read as the value it prints, parsing the printed text gives the API
back, also with white space behind it.
-/

namespace TwirpClients

open Json (Prints prints_text prints_list prints_record record fields?_record)

theorem listOf?_map {α : Type} {item? : Json → Option α} {json : α → Json}
    (h : ∀ a, item? (json a) = some a) (as : List α) :
    Json.listOf? item? (.list (as.map json)) = some as := by
  rw [Json.listOf?]
  apply Json.mapM_of_forall₂
  rw [List.forall₂_map_left_iff, List.forall₂_same]
  intro a _
  exact h a

theorem prints_list_map {α : Type} {layout : α → Json.Layout} {json : α → Json}
    (h : ∀ a, Prints (layout a) (json a)) (as : List α) :
    Prints (.list (as.map layout)) (.list (as.map json)) := by
  apply prints_list
  rw [List.forall₂_map_left_iff, List.forall₂_map_right_iff, List.forall₂_same]
  intro a _
  exact h a

def Method.json (method : Method) : Json :=
  record fieldNames
    [.text method.serviceUrl, .text method.serviceName, .text method.name, .text method.input,
      .text method.output]

def Service.json (service : Service) : Json :=
  record fieldNames
    [.text service.name, .text service.serviceUrl, .list (service.methods.map Method.json)]

def Api.json (api : Api) : Json :=
  record fieldNames
    [.text api.fileName, .text api.codeNamespace, .list (api.services.map Service.json)]

theorem prints_method (method : Method) : Prints method.layout method.json := by
  apply prints_record
  exact .cons (prints_text _) <| .cons (prints_text _) <| .cons (prints_text _) <|
    .cons (prints_text _) <| .cons (prints_text _) .nil

theorem prints_service (service : Service) : Prints service.layout service.json := by
  apply prints_record
  exact .cons (prints_text _) <| .cons (prints_text _) <|
    .cons (prints_list_map prints_method service.methods) .nil

theorem prints_api (api : Api) : Prints api.layout api.json := by
  apply prints_record
  exact .cons (prints_text _) <| .cons (prints_text _) <|
    .cons (prints_list_map prints_service api.services) .nil

theorem Method.ofJson?_json (method : Method) : Method.ofJson? method.json = some method := by
  rw [Method.ofJson?, Method.json, fields?_record (by decide) rfl]
  rfl

theorem Service.ofJson?_json (service : Service) : Service.ofJson? service.json = some service := by
  have hmethods := listOf?_map Method.ofJson?_json service.methods
  rw [Service.ofJson?, Service.json, fields?_record (by decide) rfl]
  simp only [Option.bind_eq_bind, Option.bind_some, hmethods, Json.text?]

theorem Api.ofJson?_json (api : Api) : Api.ofJson? api.json = some api := by
  have hservices := listOf?_map Service.ofJson?_json api.services
  rw [Api.ofJson?, Api.json, fields?_record (by decide) rfl]
  simp only [Option.bind_eq_bind, Option.bind_some, hservices, Json.text?]

theorem Api.parse?_toJson_append (api : Api) {space : String}
    (h : ∀ c ∈ space.toList, Json.isSpace c = true) :
    Api.parse? (api.toJson ++ space) = some api := by
  have htext : (api.toJson ++ space).toList = api.layout 0 ++ space.toList := by
    rw [String.toList_append, Api.toJson, Json.Layout.print, String.toList_ofList]
  rw [Api.parse?, Json.parse?_of_prints (prints_api api) h htext, Option.bind_some,
    Api.ofJson?_json]

end TwirpClients
