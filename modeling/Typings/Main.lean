import Typings.Program

/-!
The command: the program on the files and the console of the system.
-/

namespace Typings.Command

/-- The error of the system as an error on files. -/
def fileErrorOf : IO.Error → FileError
  | .noFileOrDirectory .. => .missing
  | .alreadyExists .. => .present
  | .inappropriateType _ code _ => if code = 20 then .notDirectory else .isDirectory
  | .permissionDenied .. => .other (FileError.numbered "Permission denied" 13)
  | error => .other (toString error)

/-- Does something with a file, and gives an error back as a value. -/
def attemptFile {α : Type} (action : IO α) : IO (Except FileError α) := do
  try return .ok (← action)
  catch error => return .error (fileErrorOf error)

instance : Files IO where
  exists? path := do
    match ← attemptFile (IO.FS.Handle.mk path .read) with
    | .ok _ => return true
    | .error error => return error != .missing
  isDirectory? path := do
    match ← attemptFile (IO.FS.readFile path) with
    | .error error => return error = .isDirectory
    | .ok _ => return false
  read path := attemptFile (IO.FS.readFile path)
  write path content := attemptFile (IO.FS.writeFile path content)
  makeDirectory path := attemptFile (IO.FS.createDir path)

/-- The text of the standard input. -/
def readConsole : IO String := do
  (← IO.getStdin).readToEnd

end Typings.Command

/-- Runs the program on the system. -/
def main (arguments : List String) : IO UInt32 := do
  let outcome ← Typings.Program.run Typings.Command.readConsole arguments
  IO.print outcome.output
  outcome.log.forM IO.eprintln
  IO.eprint outcome.complaints
  return outcome.status
