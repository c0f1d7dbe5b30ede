import Typings.Files.Basic

/-!
A tree of files in memory, with a working directory. Paths are followed step by step, so every
step but the last has to lead to a directory.
-/

namespace Typings

/-- A tree of files: what there is by its steps from the root, the content of a file or nothing
for a directory, and the working directory. The root itself is not listed. -/
structure FileTree where
  entries : List (List String × Option String)
  here : List String

namespace FileTree

/-- What stands at a place. -/
inductive Item where
  | directory
  | file (content : String)
deriving DecidableEq

/-- What stands at the end of some steps from the root. -/
def item? (tree : FileTree) (place : List String) : Option Item :=
  if place = [] then some .directory
  else
    match tree.entries.lookup place with
    | some (some content) => some (.file content)
    | some none => some .directory
    | none => none

/-- The place that a path leads to: a directory that is there, or a name in one, behind which the
path may demand a directory by a slash. -/
inductive Target where
  | directory (place : List String)
  | entry (place : List String) (name : String) (slash : Bool)

/-- The greatest number of bytes in a name. -/
def maxName : Nat := 255

/-- The greatest number of bytes in a path. -/
def maxPath : Nat := 4095

/-- What stands under a name in a directory. -/
def find (tree : FileTree) (place : List String) (name : String)
    : Except FileError (Option Item) :=
  if maxName < name.utf8ByteSize then .error .nameTooLong else .ok (tree.item? (place ++ [name]))

/-- One step from a directory to another. -/
def enter (tree : FileTree) (place : List String) (part : String)
    : Except FileError (List String) :=
  if part = "" || part = "." then .ok place
  else if part = ".." then .ok place.dropLast
  else
    match tree.find place part with
    | .ok (some .directory) => .ok (place ++ [part])
    | .ok (some (.file _)) => .error .notDirectory
    | .ok none => .error .missing
    | .error error => .error error

/-- The parts of a path up to the last one that is not empty, and whether slashes follow it. -/
def cutSlashes (parts : List String) : List String × Bool :=
  let kept := parts.reverse.dropWhile (· == "")
  (kept.reverse, decide (kept.length < parts.length))

/-- Follows a path as far as its last step. -/
def locate (tree : FileTree) (path : String) : Except FileError Target := do
  if path.toList.contains '\x00' then throw .nulCharacter
  if path = "" then throw .missing
  if maxPath < path.utf8ByteSize then throw .nameTooLong
  let (parts, slash) := cutSlashes ((Text.split '/' path.toList).map String.ofList)
  let start := if path.toList.head? = some '/' then [] else tree.here
  let place ← parts.dropLast.foldlM tree.enter start
  match parts.getLast? with
  | none => return .directory place
  | some last =>
    if last = "." || last = ".." then return .directory (← tree.enter place last)
    else return .entry place last slash

/-- What a path leads to. -/
def look (tree : FileTree) (path : String) : Except FileError Item := do
  match ← tree.locate path with
  | .directory _ => return .directory
  | .entry place name slash =>
    match ← tree.find place name with
    | none => throw .missing
    | some (.file content) => if slash then throw .notDirectory else return .file content
    | some .directory => return .directory

/-- The content of a file. -/
def contentOf (tree : FileTree) (path : String) : Except FileError String := do
  match ← tree.look path with
  | .file content => return content
  | .directory => throw .isDirectory

/-- The tree with another content, or a new entry, at a place. -/
def put (tree : FileTree) (place : List String) (content : Option String) : FileTree :=
  if (tree.item? place).isSome then
    { tree with
      entries := tree.entries.map fun entry =>
        if entry.1 == place then (place, content) else entry }
  else { tree with entries := tree.entries ++ [(place, content)] }

/-- The tree with a file written as a whole. -/
def withFile (tree : FileTree) (path content : String) : Except FileError FileTree := do
  match ← tree.locate path with
  | .directory _ => throw .isDirectory
  | .entry place name slash =>
    if slash then throw .isDirectory
    match ← tree.find place name with
    | some .directory => throw .isDirectory
    | _ => return tree.put (place ++ [name]) (some content)

/-- The tree with a new directory. -/
def withDirectory (tree : FileTree) (path : String) : Except FileError FileTree := do
  match ← tree.locate path with
  | .directory _ => throw .present
  | .entry place name _ =>
    match ← tree.find place name with
    | some _ => throw .present
    | none => return tree.put (place ++ [name]) none

/-- Makes a change that may fail, in which case the tree stays as it is. -/
def attempt (change : FileTree → Except FileError FileTree)
    : StateM FileTree (Except FileError Unit) :=
  fun tree =>
    match change tree with
    | .ok tree => (.ok (), tree)
    | .error error => (.error error, tree)

instance : Files (StateM FileTree) where
  exists? path := fun tree => ((tree.look path).toBool, tree)
  isDirectory? path := fun tree =>
    ((match tree.look path with
      | .ok .directory => true
      | _ => false), tree)
  read path := fun tree => (tree.contentOf path, tree)
  write path content := attempt fun tree => tree.withFile path content
  makeDirectory path := attempt fun tree => tree.withDirectory path

/-- A tree that holds nothing but the working directory and those above it. -/
def empty (here : List String) : FileTree :=
  ⟨(List.range here.length).map fun above => (here.take (above + 1), none), here⟩

/-- What there is below the working directory, by the steps from there. -/
def below (tree : FileTree) : List (List String × Option String) :=
  tree.entries.filterMap fun (place, content) =>
    if tree.here.isPrefixOf place && place != tree.here then
      some (place.drop tree.here.length, content)
    else none

end FileTree

end Typings
