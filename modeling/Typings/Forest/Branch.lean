import Typings.Forest.Basic

/-!
Branches of a forest: the nodes with all that stands under them.
-/

namespace Typings

/-- A node with the branches under it. -/
structure Branch where
  node : Node
  branches : List Branch

namespace Forest

/-- The branch of a node, `limit` nodes deep at most. -/
def branch (forest : Forest) : Nat → Node → Branch
  | 0, node => ⟨node, []⟩
  | limit + 1, node => ⟨node, (forest.children node.longname).map (forest.branch limit)⟩

/-- The branches of the roots. None is deeper than there are nodes. -/
def branches (forest : Forest) : List Branch :=
  forest.roots.map (forest.branch forest.nodes.length)

end Forest

end Typings
