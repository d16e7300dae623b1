import TypedSql.Cli.Run

/-!
# The program

Reads files and standard input, prints the statement, and reports a failure on standard error.
-/

namespace TypedSql.Main

/-- Why a file cannot be read, in the words of the operating system. -/
def reason : IO.Error → String
  | .noFileOrDirectory .. => "No such file or directory (os error 2)"
  | .permissionDenied .. => "Permission denied (os error 13)"
  | .inappropriateType .. => "Is a directory (os error 21)"
  | e => toString e

/-- The text that bytes stand for. -/
def decode (bytes : ByteArray) : Except String String :=
  match String.fromUTF8? bytes with
  | some text => .ok text
  | none => .error "stream did not contain valid UTF-8"

/-- The content of a file. -/
def readFile (path : String) : IO (Except String String) := do
  match ← (IO.FS.readBinFile path).toBaseIO with
  | .ok bytes => return decode bytes
  | .error e => return .error (reason e)

/-- The content of standard input. -/
def readInput : IO (Except String String) := do
  let input ← IO.getStdin
  match ← input.readToEnd.toBaseIO with
  | .ok text => return .ok text
  | .error e => return .error (reason e)

end TypedSql.Main

/-- Prints the statement, or the failure and exit code 1. -/
def main (arguments : List String) : IO UInt32 := do
  let outcome ← TypedSql.Cli.run ⟨TypedSql.Main.readFile, TypedSql.Main.readInput⟩ arguments
  match outcome.result with
  | .ok text =>
    IO.print text
    return 0
  | .error failure =>
    IO.eprintln failure.message
    return 1
