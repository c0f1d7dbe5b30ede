import Typings.Text.Split

/-!
Paths of files, as texts whose parts stand between slashes. Empty parts and single dots name
nothing, so the name of a file is the last part of another kind.
-/

namespace Typings.Path

/-- Whether a part of a path names something. -/
def isStep (part : List Char) : Bool :=
  !part.isEmpty && part != ['.']

/-- The front of a path that is part of every path above it: the slash of an absolute path, or the
dot of one that begins with the current directory. -/
def lead (path : List Char) : List Char × List Char :=
  match path with
  | '/' :: rest => (['/'], rest)
  | ['.'] => (['.'], [])
  | '.' :: '/' :: rest => (['.'], '/' :: rest)
  | rest => ([], rest)

/-- The parts of a path, given from the last one on, without those that name nothing. -/
def fromStep (parts : List (List Char)) : List (List Char) :=
  parts.dropWhile fun part => !isStep part

/-- Parts with slashes between them. -/
def joined (parts : List (List Char)) : List Char :=
  ['/'].intercalate parts

/-- The path above a path and its last step. The root, and the path without any step, have none. -/
def splitStep? (path : List Char) : Option (List Char × List Char) :=
  let (front, body) := lead path
  match fromStep (Text.split '/' body).reverse with
  | [] => if front = ['.'] then some ([], front) else none
  | step :: before => some (front ++ joined (fromStep before).reverse, step)

/-- The path above a path, and the name of what it leads to, unless its last step goes up or
nowhere. -/
def splitName? (path : List Char) : Option (List Char × List Char) :=
  (splitStep? path).filter fun (_, step) => step != ['.'] && step != ['.', '.']

/-- A path and all paths above it, `limit` at most. -/
def upwards : Nat → List Char → List String
  | 0, _ => []
  | limit + 1, path =>
    String.ofList path :: match splitStep? path with
      | some (above, _) => upwards limit above
      | none => []

/-- A path and all paths above it. Each has fewer characters than the one before. -/
def ancestry (path : String) : List String :=
  upwards (path.length + 1) path.toList

/-- The path of `name` below a directory. An absolute path stands for itself. -/
def under (directory name : List Char) : List Char :=
  if name.head? = some '/' || directory.isEmpty then name
  else if directory.getLast? = some '/' then directory ++ name
  else directory ++ '/' :: name

/-- The path of `name` below a directory, as text. -/
def join (directory name : String) : String :=
  String.ofList (under directory.toList name.toList)

/-- The path with `change` made to its name. Where the path has no name, the change of the empty
name goes below it. -/
def mapName (change : List Char → List Char) (path : String) : String :=
  match splitName? path.toList with
  | some (above, name) => String.ofList (under above (change name))
  | none => String.ofList (under path.toList (change []))

end Typings.Path
