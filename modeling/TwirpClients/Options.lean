import TwirpClients.Text.Blank
import TwirpClients.Text.Split
import TwirpClients.Text.Visible

/-!
# Options of the generated clients

The one option is the server path, the default path prefix in the constructor of
every client. It stands there in a string literal and is refused if it could end or bend
that literal.

`Options.ofParameter` reads the options from a plugin parameter, a comma-separated list of
`key=value` entries. Blanks around entries, keys and values do not count, empty entries are
passed over, and of several entries for one key the last one wins. The first entry at
fault decides the error.
-/

namespace TwirpClients

inductive ParameterError where
  | valueMissing (entry : String)
  | unknownOption (key : String)
  | forbiddenText (text : String)
deriving DecidableEq, Repr

def ParameterError.message : ParameterError → String
  | valueMissing entry => "expected key=value, got '" ++ entry ++ "'"
  | unknownOption key => "unknown option '" ++ key ++ "'"
  | forbiddenText text =>
    "prefix '" ++ String.ofList (Text.visible text.toList)
      ++ "' contains characters not allowed in a string literal"

structure Options where
  serverPath : String := "twirp"
deriving DecidableEq, Repr

namespace Options

/-- A quote ends a string literal, a backslash starts an escape in it, and control
characters do not belong on a source line. -/
def isForbidden (c : Char) : Bool := c == '"' || c == '\\' || Text.isControl c

def withServerPath (options : Options) (path : String) : Except ParameterError Options :=
  if path.toList.any isForbidden then .error (.forbiddenText path)
  else .ok { options with serverPath := path }

def entries (parameter : String) : List (List Char) :=
  ((parameter.toList.splitOn ',').map Text.trim).filter (!·.isEmpty)

def withEntry (options : Options) (entry : List Char) : Except ParameterError Options :=
  match Text.cut? '=' entry with
  | none => .error (.valueMissing (String.ofList entry))
  | some (key, value) =>
    if Text.trim key = "prefix".toList then
      options.withServerPath (String.ofList (Text.trim value))
    else
      .error (.unknownOption (String.ofList (Text.trim key)))

def ofParameter (parameter : Option String) : Except ParameterError Options :=
  match parameter with
  | none => .ok {}
  | some text => (entries text).foldlM withEntry {}

end Options
end TwirpClients
