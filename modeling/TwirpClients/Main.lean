import TwirpClients.Command.Run

/-!
# The program

Runs a command on the files of the machine, with the standard input and outputs of the
process.
-/

namespace TwirpClients

def Failure.ofError : IO.Error → Failure
  | .noFileOrDirectory .. => .notFound
  | .alreadyExists .. => .alreadyExists
  | .inappropriateType _ 21 _ => .isDirectory
  | .inappropriateType .. => .notDirectory
  | .invalidArgument _ 36 _ => .nameTooLong
  | e => .other (toString e)

def attempt (path : Path) (operation : String → IO α) : IO (Except Failure α) := do
  if path.text.toList.contains '\x00' then return .error .nulByte
  match ← (operation path.text).toBaseIO with
  | .ok a => return .ok a
  | .error e => return .error (.ofError e)

instance : Storage IO where
  readFile path := attempt path fun text =>
    IO.FS.withFile text .read fun handle => return (← handle.readBinToEnd).data.toList
  writeFile path content := attempt path fun text => IO.FS.writeBinFile text ⟨content.toArray⟩
  makeDirectory path := attempt path fun text => IO.FS.createDir text
  isDirectory path := do
    match ← attempt path fun text => do (← IO.FS.realPath text).isDir with
    | .ok found => return found
    | .error _ => return false

end TwirpClients

def main (arguments : List String) : IO UInt32 := do
  let input : IO (List UInt8) := return (← (← IO.getStdin).readBinToEnd).data.toList
  let outcome ← TwirpClients.Command.run input arguments
  let stdout ← IO.getStdout
  stdout.write ⟨outcome.stdout.toArray⟩
  stdout.flush
  (← IO.getStderr).putStr outcome.stderr
  return outcome.exit.toUInt32
