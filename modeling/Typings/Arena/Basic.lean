import Typings.Forest.Basic

/-!
Arenas, in which a forest is linked. The cells of an arena are its nodes, and know each other by
their index. Each has the indices of its children and that of its parent, and a mark for whether it
stands anywhere; the arena has the indices of the roots, and a table of the longnames. Every change
updates each of these for itself.
-/

namespace Typings

/-- A node in an arena. -/
structure Cell where
  doclet : Doclet
  role : Option Node.Role := none
  children : List Nat := []
  parent : Option Nat := none
  nested : Bool := false
  placed : Bool := false

namespace Cell

/-- The longname of a cell. -/
def longname (cell : Cell) : String :=
  cell.doclet.longname

/-- Whether a cell stands for no doclet of the input. -/
def isHelper (cell : Cell) : Bool :=
  cell.role.isSome

/-- The cell with another parent named in its doclet. -/
def withMemberof (cell : Cell) (memberof : Option String) : Cell :=
  { cell with doclet := { cell.doclet with memberof } }

/-- A helper names the parent that it gets, any other cell keeps what its doclet says. -/
def adopted (cell : Cell) (memberof : Option String) : Cell :=
  if cell.isHelper then cell.withMemberof memberof else cell

/-- The cell with the mark that it stands somewhere. -/
def marked (cell : Cell) : Cell :=
  { cell with placed := true }

/-- The cell as it stands under another one. -/
def under (parent : Nat) (cell : Cell) : Cell :=
  { cell with parent := some parent, placed := true }

/-- The cell as it stands nowhere. -/
def loosened (cell : Cell) : Cell :=
  { cell with parent := none, placed := false }

/-- The cell with a change made to its children. -/
def withChildren (change : List Nat → List Nat) (cell : Cell) : Cell :=
  { cell with children := change cell.children }

end Cell

/-- An arena of doclets, with the warnings that came up while they were linked. The last entry for a
longname is the first in the table. -/
structure Arena where
  cells : List Cell := []
  table : List (String × Nat) := []
  roots : List Nat := []
  warnings : List Warning := []

namespace Arena

/-- The index of a longname. -/
def lookup (arena : Arena) (longname : String) : Option Nat :=
  arena.table.lookup longname

/-- The longname at an index. -/
def longname? (arena : Arena) (index : Nat) : Option String :=
  arena.cells[index]?.map Cell.longname

/-- The index of the parent of a cell. -/
def parent? (arena : Arena) (index : Nat) : Option Nat :=
  arena.cells[index]?.bind Cell.parent

/-- The indices of the children of a cell. -/
def children (arena : Arena) (index : Nat) : List Nat :=
  (arena.cells[index]?.map Cell.children).getD []

/-- Whether a cell stands anywhere. -/
def placed (arena : Arena) (index : Nat) : Bool :=
  arena.cells[index]?.any Cell.placed

/-- A cell and those it stands under, one above the other, `limit` at most. -/
def lineage (arena : Arena) : Nat → Nat → List Nat
  | 0, _ => []
  | limit + 1, index =>
    index :: match arena.parent? index with
      | some parent => arena.lineage limit parent
      | none => []

/-- A cell and all that it stands under. A line of cells is no longer than the list of all. -/
def above (arena : Arena) (index : Nat) : List Nat :=
  arena.lineage (arena.cells.length + 1) index

/-! ### Changes -/

/-- The arena with a warning more. -/
def warn (arena : Arena) (warning : Warning) : Arena :=
  { arena with warnings := arena.warnings ++ [warning] }

/-- The arena with `change` made to one cell. -/
def modify (arena : Arena) (index : Nat) (change : Cell → Cell) : Arena :=
  { arena with cells := arena.cells.modify index change }

/-- Adds a cell that stands nowhere, and gives its index. -/
def insert (arena : Arena) (doclet : Doclet) (role : Option Node.Role) : Arena × Nat :=
  let index := arena.cells.length
  ({ arena with
      cells := arena.cells ++ [{ doclet, role }],
      table := (doclet.longname, index) :: arena.table },
    index)

/-- Puts a cell among the roots, unless it stands somewhere. -/
def pushRoot (arena : Arena) (index : Nat) : Arena :=
  if arena.placed index then arena
  else
    let arena := arena.modify index fun cell => (cell.adopted none).marked
    { arena with roots := arena.roots ++ [index] }

/-- A list with an index put right behind another one, or to the end if that is not there. -/
def insertBehind (anchor index : Nat) (siblings : List Nat) : List Nat :=
  siblings.insertIdx (((siblings.idxOf? anchor).map (· + 1)).getD siblings.length) index

/-- Puts a cell right behind one that stands somewhere. -/
def placeAfter (arena : Arena) (anchor index : Nat) : Arena :=
  match arena.parent? anchor with
  | some parent =>
    let memberof := arena.longname? parent
    let arena := arena.modify parent (Cell.withChildren (insertBehind anchor index))
    arena.modify index fun cell => (cell.withMemberof memberof).under parent
  | none =>
    let arena := { arena with roots := insertBehind anchor index arena.roots }
    arena.modify index fun cell => (cell.withMemberof none).marked

/-- Puts a cell under another one, unless it stands somewhere or would stand under itself. -/
def attach (arena : Arena) (parent child : Nat) : Arena :=
  match arena.longname? parent, arena.longname? child with
  | some owner, some longname =>
    if arena.placed child then arena.warn (.alreadyPlaced longname owner)
    else if (arena.above parent).contains child then arena.warn (.underItself longname owner)
    else
      let arena := arena.modify child fun cell => (cell.adopted (some owner)).under parent
      arena.modify parent (Cell.withChildren (· ++ [child]))
  | _, _ => arena

/-- Takes a cell from under another one. -/
def detach (arena : Arena) (parent child : Nat) : Arena :=
  let arena := arena.modify parent (Cell.withChildren (List.filter (· != child)))
  arena.modify child Cell.loosened

end Arena

end Typings
