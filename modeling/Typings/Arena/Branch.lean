import Typings.Arena.Basic
import Typings.Forest.Branch

/-!
Branches of an arena: the nodes that its cells stand for, with all that stands under them.
-/

namespace Typings.Arena

/-- Where a cell stands. -/
def placeOf (arena : Arena) (cell : Cell) : Place :=
  match cell.parent with
  | some parent => ((arena.longname? parent).map Place.under).getD .nowhere
  | none => if cell.placed then .root else .nowhere

/-- The node that a cell stands for. -/
def nodeOf (arena : Arena) (cell : Cell) : Node :=
  { doclet := cell.doclet, role := cell.role, nested := cell.nested, place := arena.placeOf cell }

/-- The branch of the cell at an index, `limit` cells deep at most. -/
def branch (arena : Arena) : Nat → Nat → Option Branch
  | 0, index => arena.cells[index]?.map fun cell => ⟨arena.nodeOf cell, []⟩
  | limit + 1, index =>
    arena.cells[index]?.map fun cell =>
      ⟨arena.nodeOf cell, cell.children.filterMap (arena.branch limit)⟩

/-- The branches of the roots. None is deeper than there are cells. -/
def branches (arena : Arena) : List Branch :=
  arena.roots.filterMap (arena.branch arena.cells.length)

end Typings.Arena
