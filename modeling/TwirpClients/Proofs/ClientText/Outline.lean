import TwirpClients.ClientText

/-!
# Outlines of client texts

An outline is what a client text tells about an API: the proto file, the namespace of the messages,
and the clients in order, each with its server path and its calls. `read` finds the outline in
the text alone. It takes the text from front to back, the fixed parts letter by letter, so a text is
refused as soon as it departs from the shape of a client text.

Clients and calls are repeated with `many`. A repetition ends where its item cannot start: a call
and a client each start with an empty line, and what follows the last of them does not.
-/

namespace TwirpClients.ClientText

structure Call where
  name : String
  input : String
  output : String
  route : String
deriving DecidableEq, Repr

structure Client where
  name : String
  serverPath : String
  calls : List Call
deriving DecidableEq, Repr

structure Outline where
  source : String
  codeNamespace : String
  clients : List Client
deriving DecidableEq, Repr

abbrev Reader := StateT (List Char) Option

def isWordChar (c : Char) : Bool := c.isAlphanum || c == '_'

namespace Reader

def expect (text : String) : Reader Unit := fun cs => (text.toList.isPrefixOf? cs).map ((), ·)

def newline : Reader Unit := expect "\n"

def word : Reader String := fun cs =>
  some (String.ofList (cs.takeWhile isWordChar), cs.dropWhile isWordChar)

def wordBefore (ending : String) : Reader String := do
  match ending.toList.isSuffixOf? (← word).toList with
  | some cs => return String.ofList cs
  | none => failure

def restOfLine : Reader String := fun cs =>
  (Text.cut? '\n' cs).map fun (line, after) => (String.ofList line, after)

def literal : Reader String := fun cs =>
  (Text.Literal.scan cs).map fun (text, after) => (String.ofList text, after)

def maybe (item : Reader α) : Reader (Option α) := fun cs =>
  match item cs with
  | none => some (none, cs)
  | some (a, rest) => some (some a, rest)

def many (item : Reader α) : Reader (List α) := fun cs =>
  match item cs with
  | none => some ([], cs)
  | some (a, rest) =>
    if rest.length < cs.length then
      (many item rest).map fun (as, rest) => (a :: as, rest)
    else
      some ([a], rest)
termination_by cs => cs.length

def call : Reader Call := do
  newline
  expect "        public TwirpRequestInstruction<"
  let output ← word
  expect "> "
  let name ← word
  expect "("
  let input ← word
  expect " request) \x7b"
  newline
  expect "            return this.MakeRequest<"
  expect output
  expect ">(\""
  let route ← literal
  expect ", request);"
  newline
  expect "        \x7d"
  newline
  return { name, input, output, route }

def client : Reader Client := do
  newline
  expect "    public class "
  let name ← wordBefore "Client"
  expect " : TwirpClient \x7b"
  newline
  newline
  expect "        public "
  expect name
  expect "Client(MonoBehaviour mono, string url, int timeout, string serverPathPrefix = \""
  let serverPath ← literal
  expect ") : base(mono, url, timeout, serverPathPrefix) \x7b"
  newline
  expect "        \x7d"
  newline
  let calls ← many call
  expect "    \x7d"
  newline
  return { name, serverPath, calls }

def usedNamespace : Reader String := do
  expect "using "
  match ";".toList.isSuffixOf? (← restOfLine).toList with
  | some cs => return String.ofList cs
  | none => failure

/-- The namespace of the messages: the first of two in use, or none if there is only one. -/
def codeNamespace : Reader String := do
  let first ← usedNamespace
  match ← maybe usedNamespace with
  | some second => if second = "UnityEngine" then return first else failure
  | none => if first = "UnityEngine" then return "" else failure

def outline : Reader Outline := do
  expect "// <auto-generated>"
  newline
  expect "//     Generated by protoc-gen-twirp_unity. DO NOT EDIT!"
  newline
  expect "// </auto-generated>"
  newline
  expect "// source: "
  let source ← restOfLine
  let codeNamespace ← codeNamespace
  newline
  expect "namespace Twirp \x7b"
  newline
  let clients ← many client
  expect "\x7d"
  newline
  return { source, codeNamespace, clients }

end Reader

def read (text : String) : Option Outline :=
  match Reader.outline text.toList with
  | some (outline, []) => some outline
  | _ => none

end TwirpClients.ClientText
