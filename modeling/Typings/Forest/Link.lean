import Typings.Forest.Basic

/-!
Linking of doclets into a forest. Each doclet is put under the one it is a member of, with helpers
for what one declaration cannot hold: an interface beside a class, which carries what the class
implements and mixes in, and a namespace beside a class, interface or mixin, which holds the types,
namespaces and static members that their bodies cannot. The same steps are taken in an arena, which
shows the forest after each of them (`Arena.Shows.link`).
-/

namespace Typings.Forest

/-- The helper that carries what a class implements and mixes in. -/
def interfaceOf (owner : Doclet) : Node :=
  { doclet :=
      { kind := .interface, name := owner.name, longname := interfaceHelper owner.longname,
        scope := owner.scope, memberof := owner.memberof,
        augments := owner.implements ++ owner.mixes },
    role := some .interface }

/-- The helper that holds what the body of `owner` cannot. -/
def namespaceOf (owner : Doclet) (scope : Option Doclet.Scope) : Node :=
  { doclet :=
      { kind := .namespace, name := owner.name, longname := namespaceHelper owner.longname,
        scope := scope },
    role := some .namespace }

/-- Adds the interface that helps a class, if the class implements or mixes in anything, and tells
whether it did. -/
def addInterface (forest : Forest) (owner : Doclet) : Forest × List String :=
  let helper := interfaceOf owner
  if owner.kind != .class || helper.doclet.augments.isEmpty || forest.has helper.longname then
    (forest, [])
  else (forest.add helper, [helper.longname])

/-- The static members of a doclet, among the doclets `names`. -/
def statics (forest : Forest) (names : List String) (owner : String) : List String :=
  names.filter fun name =>
    match forest.find? name with
    | some node => node.doclet.isStatic && node.doclet.memberof == some owner
    | none => false

/-- Makes one static member of an interface a member of its namespace. One that stands under the
interface moves. -/
def moveStatic (owner container : String) (forest : Forest) (name : String) : Forest :=
  let forest := forest.modify name fun node => node.withMemberof (some container)
  if forest.parent? name = some owner then (forest.detach name).attach container name else forest

/-- Moves the static members of an interface or mixin to its namespace, which is added where it is
not there yet. -/
def moveStatics (forest : Forest) (names : List String) (owner : Doclet) : Forest :=
  let members := forest.statics names owner.longname
  if !owner.kind.isInterfaceLike || members.isEmpty then forest
  else
    let container := namespaceHelper owner.longname
    let forest :=
      if forest.has container then forest else forest.add (namespaceOf owner owner.scope)
    members.foldl (moveStatic owner.longname container) forest

/-- The namespace of a class, interface or mixin, as long as it stands nowhere. -/
def waitingNamespace (forest : Forest) (owner : Doclet) : List String :=
  let helper := namespaceHelper owner.longname
  if owner.kind.isClassLike && forest.has helper && !forest.stands helper then [helper] else []

/-- Adds the helpers of a doclet and gives those that are to stand before it. -/
def addHelpers (forest : Forest) (names : List String) (owner : Doclet)
    : Forest × List String :=
  let (forest, interfaces) := forest.addInterface owner
  let forest := forest.moveStatics names owner
  (forest, interfaces ++ forest.waitingNamespace owner)

/-- The namespace of a class, interface or mixin. A new one stands right behind its owner; where
the owner stands nowhere yet, it waits to be put before it. -/
def companion (forest : Forest) (owner : Node) : Forest × String :=
  let helper := namespaceOf owner.doclet (some .static)
  let forest :=
    if forest.has helper.longname then forest
    else if owner.place = .nowhere then forest.add helper
    else forest.addBehind owner helper
  (forest, helper.longname)

/-- Puts nodes among the roots, one after the other. -/
def addRoots (forest : Forest) (names : List String) : Forest :=
  names.foldl addRoot forest

/-- Puts nodes under another one, one after the other. -/
def attachAll (forest : Forest) (parent : String) (names : List String) : Forest :=
  names.foldl (attach · parent) forest

/-- Puts a doclet under its parent, behind its helpers. What the body of a class cannot hold goes to
its namespace; an enumeration takes nothing, and the helpers become roots. -/
def linkUnder (forest : Forest) (parent : Node) (helpers : List String) (doclet : Doclet)
    : Forest :=
  if parent.doclet.kind.isClassLike && doclet.leavesClass then
    let (forest, container) := forest.companion parent
    forest.attachAll container (helpers ++ [doclet.longname])
  else if parent.doclet.isEnum then forest.addRoots helpers
  else
    let nested := doclet.kind.isModuleLike && parent.doclet.kind.isModuleLike
    let forest :=
      if nested then forest.modify doclet.longname fun node => { node with nested := true }
      else forest
    forest.attachAll parent.longname (helpers ++ [doclet.longname])

/-- What the node `longname` is a member of. -/
def memberof? (forest : Forest) (longname : String) : Option String :=
  (forest.find? longname).bind fun node => node.doclet.memberof

/-- Puts the doclet `longname` to its place. A doclet that is no member of anything is a root, and
one whose parent is unknown stands nowhere. A static interface that is a member of itself is by
then a member of its own namespace. -/
def link (names : List String) (forest : Forest) (longname : String) : Forest :=
  match forest.find? longname with
  | none => forest
  | some node =>
    let (forest, helpers) := forest.addHelpers names node.doclet
    match forest.memberof? longname with
    | none => forest.addRoots (helpers ++ [longname])
    | some memberof =>
      match forest.find? memberof with
      | none => forest.warn (.noParent longname memberof)
      | some parent => forest.linkUnder parent helpers node.doclet

/-- The first doclet of each longname. -/
def firsts : List Doclet → List Doclet
  | [] => []
  | doclet :: doclets =>
    doclet :: (firsts doclets).filter fun other => other.longname != doclet.longname

/-- A forest in which the doclets stand nowhere yet. -/
def scattered (doclets : List Doclet) : Forest :=
  { nodes := doclets.map fun doclet => { doclet } }

/-- The forest of the doclets that the settings admit, linked in their order. Of doclets with one
longname the first counts. -/
def ofDoclets (settings : Settings) (doclets : List Doclet) : Forest :=
  let doclets := firsts (doclets.filter settings.admits)
  let names := doclets.map Doclet.longname
  names.foldl (link names) (scattered doclets)

end Typings.Forest
