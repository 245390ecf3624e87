import TwirpClients.Proofs.ClientText.RoundTrip
import TwirpClients.Proofs.Text.UpperCase

/-!
# Client texts tell the whole API

A descriptor is well named if its names are as the compiler of proto files leaves them. Then the
API of the descriptor is legible, and its client text determines the outline that the descriptor
itself gives: no service or method is lost, repeated or moved, and each call has its route.

The outline of a descriptor is written down here without the API in between. In particular a
route is put together from package, service and method directly.
-/

namespace TwirpClients

def isIdentifier : List Char → Bool
  | [] => false
  | c :: rest => (c.isAlpha || c == '_') && rest.all ClientText.isWordChar

def isDotted (cs : List Char) : Bool := (cs.splitOn '.').all isIdentifier

/-- A type is referred to from the file, or from the root by a leading dot. -/
def isTypeName : List Char → Bool
  | '.' :: rest => isDotted rest
  | cs => isDotted cs

def isOneLine (cs : List Char) : Bool := !cs.contains '\n'

def MethodDescriptor.isWellNamed (method : MethodDescriptor) : Bool :=
  isIdentifier (method.name.getD "").toList && isTypeName (method.inputType.getD "").toList
    && isTypeName (method.outputType.getD "").toList

def ServiceDescriptor.isWellNamed (service : ServiceDescriptor) : Bool :=
  isIdentifier (service.name.getD "").toList && service.methods.all (·.isWellNamed)

def FileDescriptor.isWellNamed (file : FileDescriptor) : Bool :=
  isOneLine file.lookupName.toList
    && file.explicitNamespace?.all (isOneLine ·.toList)
    && (file.package.getD "" == "" || isDotted (file.package.getD "").toList)
    && file.services.all (·.isWellNamed)

namespace ClientText

def Call.ofDescriptor (package service : String) (method : MethodDescriptor) : Call where
  name := method.name.getD ""
  input := bareTypeName (method.inputType.getD "")
  output := bareTypeName (method.outputType.getD "")
  route :=
    if package = "" then service ++ "/" ++ method.name.getD ""
    else package ++ "." ++ service ++ "/" ++ method.name.getD ""

def Client.ofDescriptor (options : Options) (package : String) (service : ServiceDescriptor) :
    Client where
  name := service.name.getD ""
  serverPath := options.serverPath
  calls := service.methods.map (Call.ofDescriptor package (service.name.getD ""))

def Outline.ofDescriptor (options : Options) (file : FileDescriptor) : Outline where
  source := file.name.getD ""
  codeNamespace := file.explicitNamespace?.getD (capitalizePackage (file.package.getD ""))
  clients := file.services.map (Client.ofDescriptor options (file.package.getD ""))

theorem ofApi_ofDescriptor (options : Options) (file : FileDescriptor) :
    Outline.ofApi options (Api.ofDescriptor file) = .ofDescriptor options file := by
  have hcall (package service : String) (method : MethodDescriptor) :
      Call.ofMethod (Method.ofDescriptor (serviceUrl package service) service method)
        = .ofDescriptor package service method := by
    simp only [Call.ofMethod, Method.ofDescriptor, Method.route, serviceUrl, Call.ofDescriptor]
    by_cases hp : package = ""
    · simp only [if_pos hp]
    · simp only [if_neg hp]
  have hclient (package : String) (service : ServiceDescriptor) :
      Client.ofService options (Service.ofDescriptor package service)
        = .ofDescriptor options package service := by
    simp only [Client.ofService, Service.ofDescriptor, Client.ofDescriptor, List.map_map]
    congr 1
    exact List.map_congr_left fun method _ => hcall package _ method
  simp only [Outline.ofApi, Api.ofDescriptor, Outline.ofDescriptor, List.map_map]
  congr 1
  exact List.map_congr_left fun service _ => hclient _ service

theorem isWord_of_isIdentifier {text : String} (h : isIdentifier text.toList = true) :
    IsWord text := by
  intro c hc
  cases hcs : text.toList with
  | nil => simp [hcs] at hc
  | cons first rest =>
    rw [hcs] at h hc
    simp only [isIdentifier, Bool.and_eq_true, Bool.or_eq_true, List.all_eq_true] at h
    rcases List.mem_cons.1 hc with rfl | hc
    · rcases h.1 with ha | hu
      · simp [isWordChar, Char.isAlphanum, ha]
      · simp [isWordChar, hu]
    · exact h.2 c hc

theorem wordChar_or_dot_of_isDotted {cs : List Char} (h : isDotted cs = true) {c : Char}
    (hc : c ∈ cs) : isWordChar c = true ∨ c = '.' := by
  by_cases hdot : c = '.'
  · exact Or.inr hdot
  · obtain ⟨part, hpart, hm⟩ := Text.mem_splitOn_iff.2 ⟨hc, hdot⟩
    have hi := List.all_eq_true.1 h part hpart
    rw [← String.toList_ofList (l := part)] at hi hm
    exact Or.inl (isWord_of_isIdentifier hi c hm)

theorem isWord_bareTypeName {text : String} (h : isTypeName text.toList = true) :
    IsWord (bareTypeName text) := by
  intro c hc
  rw [bareTypeName, String.toList_ofList] at hc
  obtain ⟨hm, hdot⟩ := Text.mem_afterLast hc
  refine Or.resolve_right ?_ hdot
  unfold isTypeName at h
  split at h
  · next rest heq =>
    rw [heq] at hm
    exact wordChar_or_dot_of_isDotted h ((List.mem_cons.1 hm).resolve_left hdot)
  · exact wordChar_or_dot_of_isDotted h hm

theorem newline_notMem_capitalizePackage {package : String} (h : '\n' ∉ package.toList) :
    '\n' ∉ (capitalizePackage package).toList := by
  intro hm
  rw [capitalizePackage, String.toList_ofList] at hm
  rcases Text.mem_intercalate hm with hs | ⟨word, hw, hd⟩
  · exact absurd hs (by decide)
  · obtain ⟨part, hpart, rfl⟩ := List.mem_map.1 hw
    exact h (Text.mem_splitOn_iff.1 ⟨part, hpart, Text.mem_of_mem_capitalize (by decide) hd⟩).1

theorem newline_notMem_of_isDotted {cs : List Char} (h : isDotted cs = true) : '\n' ∉ cs := by
  intro hm
  rcases wordChar_or_dot_of_isDotted h hm with hw | hd
  · exact absurd hw (by decide)
  · exact absurd hd (by decide)

theorem legibleMethod_ofDescriptor {method : MethodDescriptor} (h : method.isWellNamed = true)
    (url service : String) : LegibleMethod (.ofDescriptor url service method) := by
  simp only [MethodDescriptor.isWellNamed, Bool.and_eq_true] at h
  obtain ⟨⟨hname, hinput⟩, houtput⟩ := h
  exact ⟨isWord_of_isIdentifier hname, isWord_bareTypeName hinput, isWord_bareTypeName houtput⟩

theorem legibleService_ofDescriptor {service : ServiceDescriptor} (h : service.isWellNamed = true)
    (package : String) : LegibleService (.ofDescriptor package service) := by
  simp only [ServiceDescriptor.isWellNamed, Bool.and_eq_true, List.all_eq_true] at h
  refine ⟨isWord_of_isIdentifier h.1, ?_⟩
  intro method hm
  obtain ⟨descriptor, hd, rfl⟩ := List.mem_map.1 hm
  exact legibleMethod_ofDescriptor (h.2 descriptor hd) _ _

theorem legible_ofDescriptor {file : FileDescriptor} (h : file.isWellNamed = true) :
    Legible (.ofDescriptor file) := by
  simp only [FileDescriptor.isWellNamed, Bool.and_eq_true, Bool.or_eq_true, List.all_eq_true,
    isOneLine, Bool.not_eq_true', List.contains_eq_mem, decide_eq_false_iff_not] at h
  obtain ⟨⟨⟨hsource, hexplicit⟩, hpackage⟩, hservices⟩ := h
  refine ⟨hsource, ?_, ?_⟩
  · change '\n' ∉ (file.explicitNamespace?.getD _).toList
    cases he : file.explicitNamespace? with
    | some explicit =>
      rw [he] at hexplicit
      simpa using hexplicit
    | none =>
      apply newline_notMem_capitalizePackage
      rcases hpackage with hempty | hdotted
      · rw [eq_of_beq hempty]
        decide
      · exact newline_notMem_of_isDotted hdotted
  · intro service hs
    obtain ⟨descriptor, hd, rfl⟩ := List.mem_map.1 hs
    exact legibleService_ofDescriptor (hservices descriptor hd) _

/-- The client text of a well named file gives the outline of the file back. So it has a client for
every service and a call for every method, in the order of the file, and a file with the same
text has the same outline. All options will do, since the server path stands in a literal. -/
theorem read_render_ofDescriptor (options : Options) {file : FileDescriptor}
    (h : file.isWellNamed = true) :
    read (render options (.ofDescriptor file)) = some (.ofDescriptor options file) ∧
      (∀ outline, read (render options (.ofDescriptor file)) = some outline →
        outline.clients.map (fun client => (client.name, client.calls.map (·.name)))
          = file.services.map (fun service =>
              (service.name.getD "", service.methods.map (·.name.getD "")))) ∧
      ∀ (options' : Options) (file' : FileDescriptor), file'.isWellNamed = true →
        render options' (.ofDescriptor file') = render options (.ofDescriptor file) →
        Outline.ofDescriptor options' file' = .ofDescriptor options file := by
  have hread (options : Options) (file : FileDescriptor) (h : file.isWellNamed = true) :
      read (render options (.ofDescriptor file)) = some (.ofDescriptor options file) := by
    rw [read_render_of_legible options (legible_ofDescriptor h), ofApi_ofDescriptor]
  refine ⟨hread options file h, ?_, ?_⟩
  · intro outline ho
    rw [hread options file h] at ho
    cases ho
    simp [Outline.ofDescriptor, Client.ofDescriptor, Call.ofDescriptor]
  · intro options' file' h' htext
    have heq := hread options' file' h'
    rw [htext, hread options file h] at heq
    exact (Option.some.inj heq).symm

/-- A file whose namespace is the fixed one, with a service named like the ending of clients. -/
def engineFile : FileDescriptor where
  name := some "game/engine.proto"
  package := some "game.v1"
  options := some { csharpNamespace := some "UnityEngine" }
  services :=
    [{ name := some "Client"
       methods :=
        [{ name := some "Call", inputType := some ".game.v1.In", outputType := some "Out" },
          { name := some "Client", inputType := some "In", outputType := some ".game.v1.Out" }] },
      { name := some "Idle" }]

theorem read_render_engineFile :
    read (render {} (.ofDescriptor engineFile)) = some
      { source := "game/engine.proto"
        codeNamespace := "UnityEngine"
        clients :=
          [{ name := "Client"
             serverPath := "twirp"
             calls := [⟨"Call", "In", "Out", "game.v1.Client/Call"⟩,
              ⟨"Client", "In", "Out", "game.v1.Client/Client"⟩] },
            { name := "Idle", serverPath := "twirp", calls := [] }] } := by
  have hnamed : engineFile.isWellNamed = true := by decide +kernel
  rw [(read_render_ofDescriptor {} hnamed).1]
  decide +kernel

end ClientText
end TwirpClients
