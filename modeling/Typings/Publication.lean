import Typings.Declarations
import Typings.Files.Basic
import Typings.Report

/-!
Publication: the declarations for doclets are written to a file, or given to the console.
-/

namespace Typings

/-- A file or directory that could not be written, and why. -/
structure WriteFault where
  path : String
  error : FileError
deriving DecidableEq

/-- The wording of a fault. -/
def WriteFault.message (fault : WriteFault) : String :=
  "failed to write " ++ fault.path ++ ": " ++ fault.error.message

/-- What came of a publication: the number of declarations, the warnings, the text for the console,
and the path of the file that was written. -/
structure Publication where
  count : Nat
  warnings : List Warning
  console : String
  written : Except WriteFault (Option String)

namespace Publication

variable {m : Type → Type} [Monad m] [Files m]

/-- Writes a text to a file in a directory, which is made if it is missing. -/
def writeInto (directory name text : String) : m (Except WriteFault (Option String)) := do
  match ← Files.makeDirectories directory with
  | .error error => return .error ⟨directory, error⟩
  | .ok () =>
    let path := Path.join directory name
    match ← Files.write path text with
    | .error error => return .error ⟨path, error⟩
    | .ok () => return .ok (some path)

/-- Publishes the declarations for doclets. Those without documentation are left out, but a package
names the file all the same. -/
def publish (settings : Settings) (doclets : List Doclet) : m Publication := do
  let decls := declarations settings (doclets.filter fun doclet => !doclet.undocumented)
  let text := Decl.renderAll {} decls.value
  let outcome (console : String) (written : Except WriteFault (Option String)) : Publication :=
    ⟨decls.value.length, decls.warnings, console, written⟩
  match settings.destination with
  | .console => return outcome (text ++ "\n") (.ok none)
  | .directory path =>
    return outcome "" (← writeInto path (settings.outputName doclets) text)

/-- Writes the report on some warnings beside a file, and gives the path of the report. -/
def writeReport (file : String) (warnings : List Warning) : m (Except FileError String) := do
  let path := Report.path file
  match ← Files.write path (Report.text warnings) with
  | .error error => return .error error
  | .ok () => return .ok path

end Publication

end Typings
