import Typings.Settings
import Typings.Warning

/-!
Forests of doclets. A forest is a list of nodes with distinct longnames, each of which says where
it stands: among the roots, under another node, or nowhere yet. Roots, and the nodes under one
node, stand in the order that they have in the list. Doclets are linked in an arena, which keeps
children, parents and roots apart; the forest is what such an arena shows (`Arena.Shows`).
-/

namespace Typings

/-- Where a node stands. -/
inductive Place where
  | nowhere
  | root
  | under (parent : String)
deriving DecidableEq

/-- What a node is there for, if it is there for another one: to carry what that one implements,
or to hold what it cannot hold itself. -/
inductive Node.Role where
  | interface | «namespace»
deriving DecidableEq

/-- A doclet in a forest. It is nested if it is a module or a namespace within another one. -/
structure Node where
  doclet : Doclet
  role : Option Node.Role := none
  nested : Bool := false
  place : Place := .nowhere

/-- The longname of a node, which names it in its forest. -/
def Node.longname (node : Node) : String :=
  node.doclet.longname

/-- Whether a node stands for no doclet of the input. -/
def Node.isHelper (node : Node) : Bool :=
  node.role.isSome

/-- The node with another parent named in its doclet. -/
def Node.withMemberof (node : Node) (memberof : Option String) : Node :=
  { node with doclet := { node.doclet with memberof } }

/-- A forest of nodes, with the warnings that came up while it was linked. -/
structure Forest where
  nodes : List Node := []
  warnings : List Warning := []

/-- The longname of the interface that helps the class `longname`. -/
def interfaceHelper (longname : String) : String :=
  longname ++ "$$interface$helper"

/-- The longname of the namespace that helps the class, interface or mixin `longname`. -/
def namespaceHelper (longname : String) : String :=
  longname ++ "$$namespace$helper"

namespace Forest

/-- The node with a longname. -/
def find? (forest : Forest) (longname : String) : Option Node :=
  forest.nodes.find? fun node => node.longname == longname

/-- Whether a forest has a node with a longname. -/
def has (forest : Forest) (longname : String) : Bool :=
  (forest.find? longname).isSome

/-- The nodes that stand at a place. -/
def standingAt (forest : Forest) (place : Place) : List Node :=
  forest.nodes.filter fun node => node.place == place

/-- The roots. -/
def roots (forest : Forest) : List Node :=
  forest.standingAt .root

/-- The nodes under the node `longname`. -/
def children (forest : Forest) (longname : String) : List Node :=
  forest.standingAt (.under longname)

/-- The longname of the node that the node `longname` stands under. -/
def parent? (forest : Forest) (longname : String) : Option String :=
  match forest.find? longname with
  | some node =>
    match node.place with
    | .under parent => some parent
    | _ => none
  | none => none

/-- Whether the node `longname` stands anywhere. -/
def stands (forest : Forest) (longname : String) : Bool :=
  match forest.find? longname with
  | some node => node.place != .nowhere
  | none => false

/-- The node `longname` and those it stands under, one above the other, `limit` at most. -/
def lineage (forest : Forest) : Nat → String → List String
  | 0, _ => []
  | limit + 1, longname =>
    longname :: match forest.parent? longname with
      | some parent => forest.lineage limit parent
      | none => []

/-- The node `longname` and all that it stands under. A line of nodes is no longer than the list
of all. -/
def above (forest : Forest) (longname : String) : List String :=
  forest.lineage (forest.nodes.length + 1) longname

/-! ### Changes -/

/-- The forest with a warning more. -/
def warn (forest : Forest) (warning : Warning) : Forest :=
  { forest with warnings := forest.warnings ++ [warning] }

/-- The forest with a node more, which stands nowhere. -/
def add (forest : Forest) (node : Node) : Forest :=
  { forest with nodes := forest.nodes ++ [node] }

/-- The forest with `change` made to the node `longname`. -/
def modify (forest : Forest) (longname : String) (change : Node → Node) : Forest :=
  { forest with
    nodes := forest.nodes.map fun node => if node.longname == longname then change node else node }

/-- The forest without the node `longname`. -/
def without (forest : Forest) (longname : String) : List Node :=
  forest.nodes.filter fun node => node.longname != longname

/-- The parent that a node names in its doclet when it comes to stand at a place. A helper names
the one it stands under, any other node keeps what its doclet says. -/
def settled (node : Node) (place : Place) (memberof : Option String) : Node :=
  { (if node.isHelper then node.withMemberof memberof else node) with place }

/-- Puts the node `longname` behind all others at a place. -/
def moveLast (forest : Forest) (longname : String) (change : Node → Node) : Forest :=
  match forest.find? longname with
  | none => forest
  | some node => { forest with nodes := forest.without longname ++ [change node] }

/-- Puts a node among the roots, unless it stands somewhere. -/
def addRoot (forest : Forest) (longname : String) : Forest :=
  if forest.stands longname then forest
  else forest.moveLast longname fun node => settled node .root none

/-- Puts a node under another one, unless it stands somewhere or would stand under itself. -/
def attach (forest : Forest) (parent longname : String) : Forest :=
  if forest.stands longname then forest.warn (.alreadyPlaced longname parent)
  else if (forest.above parent).contains longname then
    forest.warn (.underItself longname parent)
  else forest.moveLast longname fun node => settled node (.under parent) (some parent)

/-- Takes a node from its place. -/
def detach (forest : Forest) (longname : String) : Forest :=
  forest.modify longname fun node => { node with place := .nowhere }

/-- A list with an element put right behind each node `longname`. -/
def putBehind (longname : String) (added : Node) : List Node → List Node
  | [] => []
  | node :: nodes =>
    if node.longname == longname then node :: added :: nodes
    else node :: putBehind longname added nodes

/-- Adds a helper right behind the node it helps, at the same place. -/
def addBehind (forest : Forest) (helped : Node) (helper : Node) : Forest :=
  let memberof :=
    match helped.place with
    | .under parent => some parent
    | _ => none
  let helper := { helper.withMemberof memberof with place := helped.place }
  { forest with nodes := putBehind helped.longname helper forest.nodes }

end Forest

end Typings
