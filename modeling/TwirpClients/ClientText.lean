import TwirpClients.Api
import TwirpClients.Options
import TwirpClients.Text.Literal

/-!
# The text of a client

The C# source generated for one proto file: a header that names the file, the namespace of
its messages, and in the namespace `Twirp` one client class per service with one method per
call, in the order of the file.

The text is a list of lines, built in blocks. Names stand in it as they are; only what is
inside a string literal is encoded, the two parts of a route each by itself.
-/

namespace TwirpClients.ClientText

def quoted (text : String) : String := String.ofList (Text.Literal.encode text.toList)

def headerLines (api : Api) : List String :=
  ["// <auto-generated>",
    "//     Generated by protoc-gen-twirp_unity. DO NOT EDIT!",
    "// </auto-generated>",
    "// source: " ++ api.fileName]

/-- The namespaces in use; the one of the messages is left out when it is empty. -/
def usingLines (api : Api) : List String :=
  (if api.codeNamespace = "" then [] else ["using " ++ api.codeNamespace ++ ";"])
    ++ ["using UnityEngine;"]

def methodLines (method : Method) : List String :=
  ["",
    "        public TwirpRequestInstruction<" ++ method.output ++ "> " ++ method.name ++ "("
      ++ method.input ++ " request) \x7b",
    "            return this.MakeRequest<" ++ method.output ++ ">(\""
      ++ quoted method.serviceUrl ++ "/" ++ quoted method.name ++ "\", request);",
    "        \x7d"]

def classLines (options : Options) (service : Service) : List String :=
  ["",
    "    public class " ++ service.name ++ "Client : TwirpClient \x7b",
    "",
    "        public " ++ service.name
      ++ "Client(MonoBehaviour mono, string url, int timeout, string serverPathPrefix = \""
      ++ quoted options.serverPath ++ "\") : base(mono, url, timeout, serverPathPrefix) \x7b",
    "        \x7d"]
    ++ service.methods.flatMap methodLines ++ ["    \x7d"]

def lines (options : Options) (api : Api) : List String :=
  headerLines api ++ usingLines api ++ ["", "namespace Twirp \x7b"]
    ++ api.services.flatMap (classLines options) ++ ["\x7d"]

/-- The lines one after the other, each with a line feed behind it. -/
def unlines (lines : List String) : String :=
  String.ofList (lines.flatMap fun line => line.toList ++ ['\n'])

def render (options : Options) (api : Api) : String := unlines (lines options api)

end TwirpClients.ClientText
