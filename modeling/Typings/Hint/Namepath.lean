import Typings.TsType.Basic

/-!
Namepaths, by which documentation names what it documents, and the names of TypeScript that they
stand for.
-/

namespace Typings.Namepath

/-- `cs` without `front`, where it begins so. -/
def without (front : String) (cs : List Char) : List Char :=
  (front.toList.isPrefixOf? cs).getD cs

/-- Whether `c` leads from an owner to a member inside it. -/
def isMemberMark (c : Char) : Bool :=
  c == '~' || c == '#'

/-- The part of `path` behind its last slash. -/
def lastSegment (path : List Char) : List Char :=
  (path.reverse.takeWhile (· != '/')).reverse

/-- The name by which the file of a module is known: its last segment, with underscores for what
no name holds. -/
def moduleName (path : List Char) : List Char :=
  (lastSegment path).map fun c => if c == '-' || c == '@' then '_' else c

/-- A namepath whose module, if it begins with one, is given by its name alone. -/
def withoutModule (cs : List Char) : List Char :=
  match "module:".toList.isPrefixOf? cs with
  | none => cs
  | some path =>
    moduleName (path.takeWhile (!isMemberMark ·)) ++ path.dropWhile (!isMemberMark ·)

/-- The TypeScript name of a namepath: without the kind of path, and with a point before every
member. -/
def entityName (path : String) : String :=
  let bare := withoutModule (without "event:" (without "external:" path.toList))
  String.ofList (bare.map fun c => if isMemberMark c then '.' else c)

end Typings.Namepath
