import TwirpClients.Descriptor
import TwirpClients.Text.Split
import TwirpClients.Text.UpperCase

/-!
# The API that a proto file declares

`Api.ofDescriptor` reads off a descriptor what its clients are made of: the namespace
of the message types, and per service its methods with the route each is called by.
It has an answer for every descriptor, because absent texts read as empty.

The namespace is the one of the options, verbatim, or else the package with every
dotted part capitalized. Routes are built from the package as it is, never from the
namespace, and message types lose their qualification.
-/

namespace TwirpClients

structure Method where
  serviceUrl : String
  serviceName : String
  name : String
  input : String
  output : String
deriving DecidableEq, Repr

structure Service where
  name : String
  serviceUrl : String
  methods : List Method
deriving DecidableEq, Repr

structure Api where
  fileName : String
  codeNamespace : String
  services : List Service
deriving DecidableEq, Repr

def Method.route (method : Method) : String := method.serviceUrl ++ "/" ++ method.name

def Api.methods (api : Api) : List Method := api.services.flatMap (·.methods)

def Api.methodCount (api : Api) : Nat := api.methods.length

/-- How a service is addressed: by its qualified name, or by its bare name when the file
has no package. -/
def serviceUrl (package service : String) : String :=
  if package = "" then service else package ++ "." ++ service

def bareTypeName (typeName : String) : String :=
  String.ofList (Text.afterLast '.' typeName.toList)

def capitalizePackage (package : String) : String :=
  String.ofList <| List.intercalate ['.'] <|
    (package.toList.splitOn '.').map Text.capitalize

def Method.ofDescriptor (serviceUrl serviceName : String) (method : MethodDescriptor) : Method where
  serviceUrl
  serviceName
  name := method.name.getD ""
  input := bareTypeName (method.inputType.getD "")
  output := bareTypeName (method.outputType.getD "")

def Service.ofDescriptor (package : String) (service : ServiceDescriptor) : Service :=
  let name := service.name.getD ""
  let url := TwirpClients.serviceUrl package name
  { name, serviceUrl := url, methods := service.methods.map (Method.ofDescriptor url name) }

def Api.ofDescriptor (file : FileDescriptor) : Api :=
  let package := file.package.getD ""
  { fileName := file.lookupName
    codeNamespace := file.explicitNamespace?.getD (capitalizePackage package)
    services := file.services.map (Service.ofDescriptor package) }

def DescriptorSet.api? (set : DescriptorSet) (name : String) : Option Api :=
  (set.find? name).map Api.ofDescriptor

end TwirpClients
