import Typings.Files.Path

/-!
Operations on files, and why they fail. A program that works with files is written over the class
`Files`, so it runs on the files of the system as well as on a tree of files in memory.
-/

namespace Typings

/-- Why an operation on files fails. -/
inductive FileError where
  | missing | present | notDirectory | isDirectory | nameTooLong | nulCharacter
  /-- What the system says of any other failure. -/
  | other (text : String)
deriving DecidableEq

/-- The words of the system for an error with a number. -/
def FileError.numbered (text : String) (number : Nat) : String :=
  text ++ " (os error " ++ toString number ++ ")"

/-- The wording of an error. -/
def FileError.message : FileError → String
  | missing => numbered "No such file or directory" 2
  | present => numbered "File exists" 17
  | notDirectory => numbered "Not a directory" 20
  | isDirectory => numbered "Is a directory" 21
  | nameTooLong => numbered "File name too long" 36
  | nulCharacter => "file name contained an unexpected NUL byte"
  | other text => text

/-- The operations on files that programs need. A file is written as a whole, and a directory is
made in one that is there. -/
class Files (m : Type → Type) where
  exists? : String → m Bool
  isDirectory? : String → m Bool
  read : String → m (Except FileError String)
  write : String → String → m (Except FileError Unit)
  makeDirectory : String → m (Except FileError Unit)

namespace Files

variable {m : Type → Type} [Monad m] [Files m]

/-- Makes a directory. One that is there already is as good. -/
def ensureDirectory (path : String) : m (Except FileError Unit) := do
  match ← makeDirectory path with
  | .ok () => return .ok ()
  | .error error => return if ← isDirectory? path then .ok () else .error error

/-- Makes the first directory of a line of paths, of which each lies above the one before. Those
above are made only if they are missing. -/
def makeLine : List String → m (Except FileError Unit)
  | [] => pure (.error .missing)
  | path :: above => do
    if path = "" then return .ok ()
    match ← ensureDirectory path with
    | .error .missing =>
      match ← makeLine above with
      | .error error => return .error error
      | .ok () => ensureDirectory path
    | result => return result

/-- Makes a directory and those above it. -/
def makeDirectories (path : String) : m (Except FileError Unit) :=
  makeLine (Path.ancestry path)

end Files

end Typings
