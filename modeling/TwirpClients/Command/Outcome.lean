import TwirpClients.Fault

/-!
# Outcome of a command

What a command leaves behind besides files: an exit code and what it has written to its two
outputs. A command that fails ends with a report: what could not be done, and behind it the
chain of causes.
-/

namespace TwirpClients.Command

structure Outcome where
  exit : Nat := 0
  stdout : List UInt8 := []
  stderr : String := ""
deriving DecidableEq, Repr

structure Report where
  headline : String
  causes : List String := []
deriving DecidableEq, Repr

/-- The text with every line but the first moved to the right. -/
def indentLines (width : Nat) (text : String) : String :=
  String.ofList <| List.intercalate ('\n' :: List.replicate width ' ') <|
    text.toList.splitOn '\n'

def causeNumber (n : Nat) : String :=
  let digits := Nat.toDigits 10 n
  String.ofList (List.replicate (5 - digits.length) ' ' ++ digits) ++ ": "

/-- A single cause stands by itself, several are numbered from the outermost one on. -/
def Report.causeLines (report : Report) : List String :=
  match report.causes with
  | [cause] => ["    " ++ indentLines 4 cause]
  | causes => causes.mapIdx fun n cause => causeNumber n ++ indentLines 7 cause

def Report.text (report : Report) : String :=
  "Error: " ++ report.headline ++ "\n"
    ++ (if report.causes.isEmpty then ""
      else "\nCaused by:\n" ++ "".intercalate (report.causeLines.map (· ++ "\n")))

def Outcome.failed (stdout : String) (report : Report) : Outcome where
  exit := 1
  stdout := stdout.toUTF8.data.toList
  stderr := report.text

def Outcome.done (stdout stderr : String) : Outcome where
  stdout := stdout.toUTF8.data.toList
  stderr := stderr

end TwirpClients.Command

namespace TwirpClients

/-- The causes that a fault adds to a report: itself, and what was said by the system or the JSON
library if it comes from one of these. -/
def Fault.causes (fault : Fault) : List String :=
  match fault with
  | storage reason | json reason => [fault.message, reason]
  | _ => [fault.message]

end TwirpClients
