import Typings.Arena.Basic
import Typings.Forest.Link

/-!
Linking of doclets in an arena: first there is a cell for each doclet, then each is put under the
one it is a member of, with helpers for what one declaration cannot hold.
-/

namespace Typings.Arena

open Forest (interfaceOf namespaceOf)

/-- Adds the interface that helps a class, if the class implements or mixes in anything and there
is none yet, and gives its index. -/
def mergeInterface (arena : Arena) (owner : Doclet) : Arena × List Nat :=
  let helper := interfaceOf owner
  if (owner.implements.isEmpty && owner.mixes.isEmpty)
      || (arena.lookup helper.longname).isSome then
    (arena, [])
  else
    let (arena, index) := arena.insert helper.doclet helper.role
    (arena, [index])

/-- Whether a cell is a static member of the doclet `owner`. -/
def isStaticOf (owner : String) (cell : Cell) : Bool :=
  !cell.isHelper && cell.doclet.isStatic && cell.doclet.memberof == some owner

/-- The static members of the doclet `owner`. -/
def statics (arena : Arena) (owner : String) : List Nat :=
  (arena.cells.zipIdx.filter fun entry => isStaticOf owner entry.1).map Prod.snd

/-- Makes one static member of an interface a member of its namespace. One that stands under the
interface moves. -/
def moveStatic (owner container : Nat) (key : String) (arena : Arena) (child : Nat) : Arena :=
  let arena := arena.modify child fun cell => cell.withMemberof (some key)
  if arena.parent? child = some owner then (arena.detach owner child).attach container child
  else arena

/-- Moves the static members of an interface or mixin to its namespace, which is added where it is
not there yet. -/
def mergeNamespace (arena : Arena) (index : Nat) (owner : Doclet) : Arena :=
  let members := arena.statics owner.longname
  if members.isEmpty then arena
  else
    let helper := namespaceOf owner owner.scope
    let (arena, container) :=
      match arena.lookup helper.longname with
      | some existing => (arena, existing)
      | none => arena.insert helper.doclet helper.role
    members.foldl (moveStatic index container helper.longname) arena

/-- The namespace of a class, interface or mixin, as long as it stands nowhere. -/
def waitingNamespace (arena : Arena) (owner : Doclet) : List Nat :=
  (arena.lookup (namespaceHelper owner.longname)).toList.filter fun helper =>
    !arena.placed helper

/-- Adds the helpers of a doclet and gives those that are to stand before it. -/
def addHelpers (arena : Arena) (index : Nat) (owner : Doclet) : Arena × List Nat :=
  let (arena, interfaces) :=
    if owner.kind = .class then arena.mergeInterface owner else (arena, [])
  let arena := if owner.kind.isInterfaceLike then arena.mergeNamespace index owner else arena
  (arena, interfaces ++ if owner.kind.isClassLike then arena.waitingNamespace owner else [])

/-- The cell that holds the types, namespaces and enumerations within a node. Modules and namespaces
hold them themselves. A new namespace stands right behind its owner; where the owner stands nowhere
yet, it waits to be put before it. -/
def companion (arena : Arena) (index : Nat) (owner : Doclet) : Arena × Nat :=
  if owner.kind.isModuleLike then (arena, index)
  else
    let helper := namespaceOf owner (some .static)
    match arena.lookup helper.longname with
    | some existing => (arena, existing)
    | none =>
      let (arena, container) := arena.insert helper.doclet helper.role
      (if arena.placed index then arena.placeAfter index container else arena, container)

/-- Puts cells among the roots, one after the other. -/
def pushRoots (arena : Arena) (indices : List Nat) : Arena :=
  indices.foldl pushRoot arena

/-- Puts cells under another one, one after the other. -/
def attachAll (arena : Arena) (parent : Nat) (indices : List Nat) : Arena :=
  indices.foldl (attach · parent) arena

/-- Puts a cell under its parent, behind its helpers. What the body of a class cannot hold goes to
its namespace; an enumeration takes nothing, and the helpers become roots. -/
def linkUnder (arena : Arena) (parent : Nat) (owner : Doclet) (helpers : List Nat) (index : Nat)
    (doclet : Doclet)
    : Arena :=
  if owner.kind.isClassLike && doclet.leavesClass then
    let (arena, container) := arena.companion parent owner
    arena.attachAll container (helpers ++ [index])
  else
    let nested := doclet.kind.isModuleLike && owner.kind.isModuleLike
    let arena :=
      if nested then arena.modify index fun cell => { cell with nested := true } else arena
    if owner.isEnum then arena.pushRoots helpers
    else arena.attachAll parent (helpers ++ [index])

/-- Puts a cell to its place. A doclet that is no member of anything is a root, and one whose parent
is unknown stands nowhere. -/
def link (arena : Arena) (index : Nat) : Arena :=
  match arena.cells[index]? with
  | none => arena
  | some cell =>
    let (arena, helpers) := arena.addHelpers index cell.doclet
    match arena.cells[index]?.bind (·.doclet.memberof) with
    | none => arena.pushRoots (helpers ++ [index])
    | some memberof =>
      match arena.lookup memberof with
      | none => arena.warn (.noParent cell.longname memberof)
      | some parent =>
        match arena.cells[parent]? with
        | none => arena
        | some owner => arena.linkUnder parent owner.doclet helpers index cell.doclet

/-- Adds a cell for a doclet, unless there is one with its longname. -/
def addDoclet (arena : Arena) (doclet : Doclet) : Arena :=
  if (arena.lookup doclet.longname).isSome then arena else (arena.insert doclet none).1

/-- An arena with a cell for each doclet that the settings admit. Of doclets with one longname the
first counts. -/
def scattered (settings : Settings) (doclets : List Doclet) : Arena :=
  (doclets.filter settings.admits).foldl addDoclet {}

/-- The arena of the doclets that the settings admit, linked in their order. -/
def ofDoclets (settings : Settings) (doclets : List Doclet) : Arena :=
  let arena := scattered settings doclets
  (List.range arena.cells.length).foldl link arena

end Typings.Arena
