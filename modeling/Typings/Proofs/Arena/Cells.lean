import Typings.Arena.Branch
import Typings.Arena.Link

/-! Cells and their longnames by index, before and after each change to an arena. -/

namespace Typings

@[simp]
theorem Cell.longname_withMemberof (cell : Cell) (memberof : Option String)
    : (cell.withMemberof memberof).longname = cell.longname := rfl

@[simp]
theorem Cell.longname_adopted (cell : Cell) (memberof : Option String)
    : (cell.adopted memberof).longname = cell.longname := by
  unfold adopted
  split <;> rfl

@[simp]
theorem Cell.role_adopted (cell : Cell) (memberof : Option String)
    : (cell.adopted memberof).role = cell.role := by
  unfold adopted
  split <;> rfl

@[simp]
theorem Cell.parent_adopted (cell : Cell) (memberof : Option String)
    : (cell.adopted memberof).parent = cell.parent := by
  unfold adopted
  split <;> rfl

@[simp]
theorem Cell.children_adopted (cell : Cell) (memberof : Option String)
    : (cell.adopted memberof).children = cell.children := by
  unfold adopted
  split <;> rfl

@[simp]
theorem Cell.nested_adopted (cell : Cell) (memberof : Option String)
    : (cell.adopted memberof).nested = cell.nested := by
  unfold adopted
  split <;> rfl

@[simp]
theorem Cell.longname_marked (cell : Cell) : cell.marked.longname = cell.longname := rfl

@[simp]
theorem Cell.role_marked (cell : Cell) : cell.marked.role = cell.role := rfl

@[simp]
theorem Cell.children_marked (cell : Cell) : cell.marked.children = cell.children := rfl

@[simp]
theorem Cell.longname_under (cell : Cell) (parent : Nat)
    : (cell.under parent).longname = cell.longname := rfl

@[simp]
theorem Cell.role_under (cell : Cell) (parent : Nat)
    : (cell.under parent).role = cell.role := rfl

@[simp]
theorem Cell.children_under (cell : Cell) (parent : Nat)
    : (cell.under parent).children = cell.children := rfl

@[simp]
theorem Cell.longname_loosened (cell : Cell) : cell.loosened.longname = cell.longname := rfl

@[simp]
theorem Cell.role_loosened (cell : Cell) : cell.loosened.role = cell.role := rfl

@[simp]
theorem Cell.children_loosened (cell : Cell) : cell.loosened.children = cell.children := rfl

@[simp]
theorem Cell.longname_withChildren (change : List Nat → List Nat) (cell : Cell)
    : (cell.withChildren change).longname = cell.longname := rfl

@[simp]
theorem Cell.role_withChildren (change : List Nat → List Nat) (cell : Cell)
    : (cell.withChildren change).role = cell.role := rfl

@[simp]
theorem Cell.role_withMemberof (cell : Cell) (memberof : Option String)
    : (cell.withMemberof memberof).role = cell.role := rfl

@[simp]
theorem Cell.children_withMemberof (cell : Cell) (memberof : Option String)
    : (cell.withMemberof memberof).children = cell.children := rfl

namespace Arena

variable {arena next : Arena} {index other parent : Nat} {cell : Cell} {name : String}
  {change : Cell → Cell}

theorem longname?_eq_some_iff
    : arena.longname? index = some name
      ↔ ∃ cell, arena.cells[index]? = some cell ∧ cell.longname = name := by
  simp [longname?]

theorem longname?_of_cell (found : arena.cells[index]? = some cell)
    : arena.longname? index = some cell.longname :=
  longname?_eq_some_iff.mpr ⟨cell, found, rfl⟩

theorem parent?_of_cell (found : arena.cells[index]? = some cell)
    : arena.parent? index = cell.parent := by
  simp [parent?, found]

theorem placed_of_cell (found : arena.cells[index]? = some cell)
    : arena.placed index = cell.placed := by
  simp [placed, found]

theorem children_of_cell (found : arena.cells[index]? = some cell)
    : arena.children index = cell.children := by
  simp [children, found]

-----------------------------------------------------------------------------------------
-- One changed cell
-----------------------------------------------------------------------------------------

theorem cells_modify
    : (arena.modify index change).cells[other]?
      = if other = index then arena.cells[other]?.map change else arena.cells[other]? := by
  rw [modify, List.getElem?_modify]
  by_cases same : other = index
  · simp [same]
  · simp [same, Ne.symm same]

theorem longname?_modify (keeps : ∀ cell, (change cell).longname = cell.longname) (other : Nat)
    : (arena.modify index change).longname? other = arena.longname? other := by
  rw [longname?, cells_modify, longname?]
  split
  · rw [Option.map_map]
    exact congrArg (Option.map · _) (funext keeps)
  · rfl

theorem children_modify (keeps : ∀ cell, (change cell).children = cell.children) (other : Nat)
    : (arena.modify index change).children other = arena.children other := by
  rw [children, cells_modify, children]
  split
  · rw [Option.map_map]
    exact congrArg (fun read => (Option.map read _).getD []) (funext keeps)
  · rfl

/-- The list of all `g` of cells, where a change leaves the `g` of the changed cell as it is. -/
theorem filterMap_modify {α : Type} {g : Cell → Option α} {cells : List Cell}
    (keeps : ∀ cell, g (change cell) = g cell) (index : Nat)
    : (cells.modify index change).filterMap g = cells.filterMap g := by
  induction cells generalizing index with
  | nil => simp
  | cons cell cells ih =>
      cases index with
      | zero => simp [List.filterMap_cons, keeps]
      | succ index => simp [List.filterMap_cons, ih]

-----------------------------------------------------------------------------------------
-- One new cell
-----------------------------------------------------------------------------------------

theorem cells_insert (arena : Arena) (doclet : Doclet) (role : Option Node.Role) (index : Nat)
    : (arena.insert doclet role).1.cells[index]?
      = if index = arena.cells.length then some { doclet, role } else arena.cells[index]? := by
  change (arena.cells ++ [_])[index]? = _
  rcases Nat.lt_trichotomy index arena.cells.length with below | same | beyond
  · rw [List.getElem?_append_left below, if_neg (Nat.ne_of_lt below)]
  · rw [same, List.getElem?_concat_length, if_pos rfl]
  · have outside : index ≥ (arena.cells ++ [({ doclet, role } : Cell)]).length := by
      simpa using Nat.succ_le_of_lt beyond
    rw [if_neg (Nat.ne_of_gt beyond), List.getElem?_eq_none outside,
      List.getElem?_eq_none (Nat.le_of_lt beyond)]

/-- The cells that were there before stay as they are. -/
theorem cells_insert_of_cell (found : arena.cells[index]? = some cell) (doclet : Doclet)
    (role : Option Node.Role)
    : (arena.insert doclet role).1.cells[index]? = some cell := by
  rw [cells_insert, if_neg (Nat.ne_of_lt (List.getElem?_eq_some_iff.mp found).1), found]

theorem longname?_insert (arena : Arena) (doclet : Doclet) (role : Option Node.Role)
    (index : Nat)
    : (arena.insert doclet role).1.longname? index
      = if index = arena.cells.length then some doclet.longname else arena.longname? index := by
  rw [longname?, cells_insert]
  split <;> rfl

theorem lookup_insert (arena : Arena) (doclet : Doclet) (role : Option Node.Role) (name : String)
    : (arena.insert doclet role).1.lookup name
      = if name = doclet.longname then some arena.cells.length else arena.lookup name := by
  change List.lookup name ((doclet.longname, arena.cells.length) :: arena.table) = _
  rw [List.lookup_cons]
  by_cases same : name = doclet.longname
  · simp [same]
  · rw [if_neg same, beq_false_of_ne same]
    rfl

theorem longname?_length (arena : Arena) : arena.longname? arena.cells.length = none := by
  simp [longname?]

theorem ne_length (named : arena.longname? index = some name) : index ≠ arena.cells.length := by
  rintro rfl
  rw [longname?_length] at named
  cases named

-----------------------------------------------------------------------------------------
-- Arenas whose cells have the same names
-----------------------------------------------------------------------------------------

/-- The longname of a cell that stands for a doclet of the input. -/
def original? (cell : Cell) : Option String :=
  match cell.role with
  | none => some cell.longname
  | some _ => none

/-- The longnames of the cells that stand for doclets of the input. -/
def originals (arena : Arena) : List String :=
  arena.cells.filterMap original?

/-- The cells of two arenas have the same longnames at the same indices. -/
structure SameNames (arena next : Arena) : Prop where
  table : next.table = arena.table
  longname?_eq : next.longname? = arena.longname?
  originals : next.originals = arena.originals

theorem SameNames.rfl : SameNames arena arena :=
  ⟨.refl _, .refl _, .refl _⟩

theorem SameNames.trans {last : Arena} (first : SameNames arena next) (second : SameNames next last)
    : SameNames arena last where
  table := second.table.trans first.table
  longname?_eq := second.longname?_eq.trans first.longname?_eq
  originals := second.originals.trans first.originals

/-- A change to a cell that leaves its longname and its role. -/
theorem SameNames.modify (index : Nat)
    (longname : ∀ cell, (change cell).longname = cell.longname)
    (role : ∀ cell, (change cell).role = cell.role)
    : SameNames arena (arena.modify index change) where
  table := .refl _
  longname?_eq := funext fun other => longname?_modify longname other
  originals := filterMap_modify (fun cell => by rw [original?, role, longname, original?]) _

/-- The roots have no part in the names of cells. -/
theorem SameNames.withRoots (same : SameNames arena next) (roots : List Nat)
    : SameNames arena { next with roots } :=
  ⟨same.table, same.longname?_eq, same.originals⟩

theorem SameNames.lookup (same : SameNames arena next) (name : String)
    : next.lookup name = arena.lookup name := by
  rw [Arena.lookup, same.table, Arena.lookup]

theorem sameNames_pushRoot (arena : Arena) (index : Nat)
    : SameNames arena (arena.pushRoot index) := by
  unfold pushRoot
  split
  · exact .rfl
  · exact .withRoots (.modify index (by simp) (by simp)) _

theorem sameNames_placeAfter (arena : Arena) (anchor index : Nat)
    : SameNames arena (arena.placeAfter anchor index) := by
  unfold placeAfter
  dsimp only
  split
  · exact .trans (.modify _ (by simp) (by simp))
      (.modify index (by simp) (by simp))
  · exact .trans (.withRoots .rfl _) (.modify index (by simp) (by simp))

theorem sameNames_attach (arena : Arena) (parent child : Nat)
    : SameNames arena (arena.attach parent child) := by
  have warned (warning : Warning) : SameNames arena (arena.warn warning) :=
    ⟨.refl _, .refl _, .refl _⟩
  unfold attach
  dsimp only
  split
  · rename_i owner _ _ _
    split
    · exact warned _
    · split
      · exact warned _
      · exact .trans
          (.modify child (by simp) (by simp)) (.modify parent (by simp) (by simp))
  · exact .rfl

theorem sameNames_detach (arena : Arena) (parent child : Nat)
    : SameNames arena (arena.detach parent child) :=
  .trans (.modify parent (by simp) (by simp))
    (.modify child (by simp) (by simp))

/-- Every cell of an arena has the same longname in the next one, which may have more cells. -/
def Keeps (arena next : Arena) : Prop :=
  ∀ index name, arena.longname? index = some name → next.longname? index = some name

theorem Keeps.rfl : Keeps arena arena :=
  fun _ _ named => named

theorem Keeps.trans {last : Arena} (first : Keeps arena next) (second : Keeps next last)
    : Keeps arena last :=
  fun index name named => second index name (first index name named)

theorem SameNames.keeps (same : SameNames arena next) : Keeps arena next :=
  fun _ _ named => same.longname?_eq ▸ named

theorem keeps_insert (arena : Arena) (doclet : Doclet) (role : Option Node.Role)
    : Keeps arena (arena.insert doclet role).1 := by
  intro index name named
  rw [longname?_insert, if_neg (ne_length named), named]

/-- A cell in a row of named ones has its name there. -/
theorem exists_name_of_mem {indices : List Nat} {row : List String}
    (alike : indices.map arena.longname? = row.map some) (listed : index ∈ indices)
    : ∃ name ∈ row, arena.longname? index = some name := by
  have mapped : arena.longname? index ∈ row.map some := alike ▸ List.mem_map_of_mem listed
  obtain ⟨name, member, named⟩ := List.mem_map.mp mapped
  exact ⟨name, member, named.symm⟩

theorem Keeps.map_longname? (keeps : Keeps arena next) {indices : List Nat} {row : List String}
    (alike : indices.map arena.longname? = row.map some)
    : indices.map next.longname? = row.map some := by
  rw [← alike]
  refine List.map_congr_left fun index listed => ?_
  obtain ⟨name, _, named⟩ := exists_name_of_mem alike listed
  rw [named, keeps index name named]

-----------------------------------------------------------------------------------------
-- Cells apart from their children
-----------------------------------------------------------------------------------------

/-- A cell apart from its children. -/
def apart (cell : Cell) : Cell :=
  { cell with children := [] }

/-- The cell at an index, apart from its children. -/
def apart? (arena : Arena) (index : Nat) : Option Cell :=
  arena.cells[index]?.map apart

theorem apart?_of_cell (found : arena.cells[index]? = some cell)
    : arena.apart? index = some (apart cell) := by
  simp [apart?, found]

/-- A change to a cell that does not look at its children. -/
theorem apart?_modify (blind : ∀ cell, apart (change (apart cell)) = apart (change cell))
    : (arena.modify index change).apart? other
      = if other = index then (arena.apart? other).map fun cell => apart (change cell)
        else arena.apart? other := by
  rw [apart?, cells_modify, apart?]
  split
  · rw [Option.map_map, Option.map_map]
    exact congrArg (Option.map · _) (funext fun cell => (blind cell).symm)
  · rfl

theorem apart?_modify_of_cell (blind : ∀ cell, apart (change (apart cell)) = apart (change cell))
    (found : arena.apart? index = some (apart cell)) (other : Nat)
    : (arena.modify index change).apart? other
      = if other = index then some (apart (change cell)) else arena.apart? other := by
  rw [apart?_modify blind]
  split
  · rename_i here
    rw [here, found]
    exact congrArg some (blind cell)
  · rfl

/-- A change to the children of a cell only. -/
theorem apart?_modify_children (arena : Arena) (index : Nat) (change : List Nat → List Nat)
    (other : Nat)
    : (arena.modify index (Cell.withChildren change)).apart? other = arena.apart? other := by
  rw [apart?_modify fun _ => rfl]
  split
  · rw [apart?, Option.map_map]
    rfl
  · rfl

theorem apart_adopted (cell : Cell) (memberof : Option String)
    : apart ((apart cell).adopted memberof) = apart (cell.adopted memberof) := by
  have helper : (apart cell).isHelper = cell.isHelper := rfl
  unfold Cell.adopted
  rw [helper]
  split <;> rfl

theorem parent?_eq_apart? (arena : Arena) (index : Nat)
    : arena.parent? index = (arena.apart? index).bind Cell.parent := by
  rw [parent?, apart?]
  cases arena.cells[index]? <;> rfl

theorem placed_eq_apart? (arena : Arena) (index : Nat)
    : arena.placed index = (arena.apart? index).any Cell.placed := by
  rw [placed, apart?]
  cases arena.cells[index]? <;> rfl

-----------------------------------------------------------------------------------------
-- Nodes
-----------------------------------------------------------------------------------------

/-- The node that the cell at an index stands for. -/
def node? (arena : Arena) (index : Nat) : Option Node :=
  arena.cells[index]?.map arena.nodeOf

theorem node?_of_cell (found : arena.cells[index]? = some cell)
    : arena.node? index = some (arena.nodeOf cell) := by
  simp [node?, found]

/-- The children of a cell say nothing about the node that it stands for. -/
theorem node?_eq_apart? (arena : Arena) (index : Nat)
    : arena.node? index = (arena.apart? index).map arena.nodeOf := by
  rw [node?, apart?, Option.map_map]
  rfl

/-- What a cell stands for depends on the longnames in its arena only. -/
theorem SameNames.nodeOf (same : SameNames arena next) : next.nodeOf = arena.nodeOf := by
  funext cell
  rw [Arena.nodeOf, placeOf, same.longname?_eq]
  rfl

-----------------------------------------------------------------------------------------
-- Rows
-----------------------------------------------------------------------------------------

/-- The indices of the cells that stand at a place, in their order. -/
def row (arena : Arena) : Place → List Nat
  | .nowhere => []
  | .root => arena.roots
  | .under parent => ((arena.lookup parent).map arena.children).getD []

/-- A change to the roots is one to their row. -/
theorem row_withRoots (arena : Arena) (change : List Nat → List Nat) (place : Place)
    : ({ arena with roots := change arena.roots } : Arena).row place
      = if place = .root then change (arena.row place) else arena.row place := by
  cases place <;> rfl

theorem row_modify (keeps : ∀ cell, (change cell).children = cell.children) (place : Place)
    : (arena.modify index change).row place = arena.row place := by
  cases place with
  | nowhere | root => rfl
  | under owner =>
      have same : (arena.modify index change).children = arena.children :=
        funext (children_modify keeps)
      rw [row, row, same]
      rfl

/-- A change to the children of one cell is one to the row under it. -/
theorem row_modify_children
    (lookup_iff
      : ∀ name index, arena.lookup name = some index ↔ arena.longname? index = some name)
    (named : arena.longname? index = some name) (change : List Nat → List Nat) (place : Place)
    : (arena.modify index (Cell.withChildren change)).row place
      = if place = .under name then change (arena.row place) else arena.row place := by
  obtain ⟨cell, found, longname⟩ := longname?_eq_some_iff.mp named
  cases place with
  | nowhere | root => rfl
  | under owner =>
      have same
          : (arena.modify index (Cell.withChildren change)).lookup owner = arena.lookup owner := rfl
      rw [row, same, row]
      cases listed : arena.lookup owner with
      | none =>
          rw [if_neg]
          · rfl
          · intro here
            have known := (lookup_iff name index).mpr named
            rw [← Place.under.inj here, listed] at known
            cases known
      | some other =>
          have otherNamed := (lookup_iff owner other).mp listed
          simp only [Option.map_some, Option.getD_some, children, cells_modify,
            Place.under.injEq]
          by_cases here : other = index
          · subst here
            rw [if_pos rfl, if_pos (Option.some.inj (otherNamed.symm.trans named)), found]
            rfl
          · rw [if_neg here, if_neg]
            rintro rfl
            exact here (Option.some.inj
              (listed.symm.trans ((lookup_iff owner index).mpr named)))

-----------------------------------------------------------------------------------------
-- Indices behind others
-----------------------------------------------------------------------------------------

theorem insertBehind_self (anchor index : Nat) (siblings : List Nat)
    : insertBehind anchor index (anchor :: siblings) = anchor :: index :: siblings := by
  simp [insertBehind, List.idxOf?_cons]

theorem insertBehind_of_ne {anchor sibling : Nat} (different : sibling ≠ anchor) (index : Nat)
    (siblings : List Nat)
    : insertBehind anchor index (sibling :: siblings)
      = sibling :: insertBehind anchor index siblings := by
  cases found : siblings.idxOf? anchor <;>
    simp [insertBehind, List.idxOf?_cons, different, found]

/-- An index that is put behind the first occurrence of another one, by induction on what comes
before that.
-/
theorem insertBehind_append {anchor : Nat} {before : List Nat} (absent : anchor ∉ before)
    (index : Nat) (after : List Nat)
    : insertBehind anchor index (before ++ anchor :: after)
      = before ++ anchor :: index :: after := by
  induction before with
  | nil => exact insertBehind_self anchor index after
  | cons sibling before ih =>
      obtain ⟨different, rest⟩ := List.ne_and_not_mem_of_not_mem_cons absent
      rw [List.cons_append, insertBehind_of_ne (Ne.symm different), ih rest, List.cons_append]

end Arena

end Typings
