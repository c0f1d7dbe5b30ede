import Typings.Proofs.Arena.Linking

/-! While doclets are linked in an arena, what it keeps apart agrees: parents and children, roots
and marks, the table and the longnames. Every line of parents ends.
-/

namespace Typings.Arena

open Relation

variable {names : List String} {arena : Arena} {forest : Forest} {index child parent other : Nat}
  {name : String}

/-- The cell `child` stands right under the cell `parent`. -/
def StandsUnder (arena : Arena) (child parent : Nat) : Prop :=
  arena.parent? child = some parent

/-- What an arena keeps apart agrees, and no line of parents goes on forever. -/
structure Agrees (arena : Arena) : Prop where
  /-- A cell has another one for its parent if it is among the children of that, and only then. -/
  parent?_iff
    : ∀ child parent, arena.parent? child = some parent ↔ child ∈ arena.children parent
  /-- No cell is twice among the children of one. -/
  childrenOnce : ∀ parent, (arena.children parent).Nodup
  /-- Parents are cells of the arena. -/
  parentKnown
    : ∀ child parent, arena.parent? child = some parent → parent < arena.cells.length
  /-- A root is a cell of the arena that has no parent. -/
  rootsFree
    : ∀ index ∈ arena.roots, index < arena.cells.length ∧ arena.parent? index = none
  /-- No cell is twice among the roots. -/
  rootsOnce : arena.roots.Nodup
  /-- A cell has the mark that it stands somewhere if it is a root or has a parent, and only
  then. -/
  placed_iff
    : ∀ index,
        arena.placed index = true
        ↔ index ∈ arena.roots ∨ ∃ parent, arena.parent? index = some parent
  /-- No cell stands under itself. -/
  acyclic : ∀ index, ¬ TransGen arena.StandsUnder index index
  /-- The walk along the parents goes to its end, at a cell without a parent. -/
  walkEnds
    : ∀ index,
        ∃ top, (arena.above index).getLast? = some top ∧ arena.parent? top = none
  /-- The walk meets exactly the cell itself and what that stands under. -/
  mem_walk_iff
    : ∀ index other, other ∈ arena.above index ↔ ReflTransGen arena.StandsUnder index other
  /-- The table has the index of the longname of every cell, and no other entry. -/
  lookup_iff
    : ∀ name index,
        arena.lookup name = some index
        ↔ ∃ cell, arena.cells[index]? = some cell ∧ cell.longname = name

theorem lt_length (named : arena.longname? index = some name) : index < arena.cells.length := by
  obtain ⟨cell, found, _⟩ := longname?_eq_some_iff.mp named
  exact (List.getElem?_eq_some_iff.mp found).1

theorem exists_longname (inRange : index < arena.cells.length)
    : ∃ name, arena.longname? index = some name :=
  ⟨_, longname?_of_cell (List.getElem?_eq_getElem inRange)⟩

theorem parent?_of_le (beyond : arena.cells.length ≤ index) : arena.parent? index = none := by
  rw [parent?, List.getElem?_eq_none beyond]
  rfl

theorem children_of_le (beyond : arena.cells.length ≤ index) : arena.children index = [] := by
  rw [children, List.getElem?_eq_none beyond]
  rfl

theorem above_of_free (free : arena.parent? index = none) : arena.above index = [index] := by
  simp [above, lineage, free]

namespace Shows

theorem lt_of_parent? (shows : Shows names arena forest)
    (under : arena.parent? child = some parent)
    : parent < arena.cells.length := by
  obtain ⟨_, _, named⟩ := shows.parents child parent under
  exact lt_length named

/-- The roots are a row. -/
theorem map_roots (shows : Shows names arena forest)
    : arena.roots.map arena.longname? = (forest.row .root).map some :=
  shows.rows .root nofun

/-- The row under a cell is that of its children. -/
theorem map_children (shows : Shows names arena forest)
    (named : arena.longname? parent = some name)
    : (arena.children parent).map arena.longname? = (forest.row (.under name)).map some := by
  have rows := shows.rows (.under name) nofun
  rw [row, shows.lookup_of_named named] at rows
  exact rows

theorem nodup_indices (shows : Shows names arena forest) {indices : List Nat} {place : Place}
    (alike : indices.map arena.longname? = (forest.row place).map some)
    : indices.Nodup := by
  have once : (indices.map arena.longname?).Nodup :=
    alike ▸ (shows.sound.nodup_standingAt place).map (Option.some_injective _)
  exact once.of_map

theorem parent?_iff (shows : Shows names arena forest) (child parent : Nat)
    : arena.parent? child = some parent ↔ child ∈ arena.children parent := by
  rcases Nat.lt_or_ge parent arena.cells.length with inRange | beyond
  · obtain ⟨owner, ownerNamed⟩ := exists_longname inRange
    have alike := shows.map_children ownerNamed
    rcases Nat.lt_or_ge child arena.cells.length with here | outside
    · obtain ⟨name, named⟩ := exists_longname here
      rw [shows.mem_iff alike named, ← shows.parent?_eq_some_iff named ownerNamed,
        Forest.parent?_eq_some_iff]
      exact shows.sound.mem_standingAt_iff.symm
    · refine ⟨fun under => ?_, fun listed => ?_⟩
      · rw [parent?_of_le outside] at under
        cases under
      · obtain ⟨name, _, named⟩ := exists_name_of_mem alike listed
        exact absurd (lt_length named) (Nat.not_lt.mpr outside)
  · rw [children_of_le beyond]
    refine ⟨fun under => ?_, nofun⟩
    exact absurd (shows.lt_of_parent? under) (Nat.not_lt.mpr beyond)

/-- A cell is among the roots if its node is. -/
theorem mem_roots_iff (shows : Shows names arena forest)
    (named : arena.longname? index = some name)
    : index ∈ arena.roots ↔ name ∈ forest.roots.map Node.longname :=
  shows.mem_iff shows.map_roots named

theorem placed_iff_mem (shows : Shows names arena forest) (index : Nat)
    : arena.placed index = true
      ↔ index ∈ arena.roots ∨ ∃ parent, arena.parent? index = some parent := by
  rcases Nat.lt_or_ge index arena.cells.length with inRange | beyond
  · obtain ⟨name, named⟩ := exists_longname inRange
    rw [← shows.stands_eq named, shows.sound.stands_iff, shows.mem_roots_iff named]
    refine or_congr_right ⟨?_, ?_⟩
    · rintro ⟨owner, under⟩
      rw [shows.parent?_eq named] at under
      obtain ⟨parent, isParent, _⟩ := Option.bind_eq_some_iff.mp under
      exact ⟨parent, isParent⟩
    · rintro ⟨parent, under⟩
      obtain ⟨_, owner, ownerNamed⟩ := shows.parents index parent under
      exact ⟨owner, (shows.parent?_eq_some_iff named ownerNamed).mpr under⟩
  · have nothing : arena.cells[index]? = none := List.getElem?_eq_none beyond
    have free : arena.parent? index = none := parent?_of_le beyond
    refine ⟨fun stands => ?_, ?_⟩
    · simp [placed, nothing] at stands
    · rintro (root | ⟨parent, under⟩)
      · obtain ⟨name, _, named⟩ := exists_name_of_mem shows.map_roots root
        exact absurd (lt_length named) (Nat.not_lt.mpr beyond)
      · rw [free] at under
        cases under

-----------------------------------------------------------------------------------------
-- Lines of parents
-----------------------------------------------------------------------------------------

/-- A line of cells is one of nodes. -/
theorem line_of_cells (shows : Shows names arena forest)
    (named : arena.longname? index = some name)
    (line : ReflTransGen arena.StandsUnder index other)
    : ∃ otherName,
        arena.longname? other = some otherName
        ∧ ReflTransGen forest.StandsUnder name otherName := by
  induction line with
  | refl => exact ⟨name, named, .refl⟩
  | tail _ last ih =>
      obtain ⟨lower, lowerNamed, line⟩ := ih
      obtain ⟨_, upper, upperNamed⟩ := shows.parents _ _ last
      exact ⟨upper, upperNamed,
        line.tail ((shows.parent?_eq_some_iff lowerNamed upperNamed).mpr last)⟩

/-- A line of nodes is one of cells. -/
theorem line_of_nodes (shows : Shows names arena forest) {otherName : String}
    (named : arena.longname? index = some name)
    (line : ReflTransGen forest.StandsUnder name otherName)
    : ∃ other,
        arena.longname? other = some otherName
        ∧ ReflTransGen arena.StandsUnder index other := by
  induction line with
  | refl => exact ⟨index, named, .refl⟩
  | tail _ last ih =>
      obtain ⟨lower, lowerNamed, line⟩ := ih
      have under := last
      rw [Forest.StandsUnder, shows.parent?_eq lowerNamed] at under
      obtain ⟨upper, isParent, upperNamed⟩ := Option.bind_eq_some_iff.mp under
      exact ⟨upper, upperNamed, line.tail isParent⟩

theorem mem_above_iff (shows : Shows names arena forest) (index other : Nat)
    : other ∈ arena.above index ↔ ReflTransGen arena.StandsUnder index other := by
  rcases Nat.lt_or_ge index arena.cells.length with inRange | beyond
  · obtain ⟨name, named⟩ := exists_longname inRange
    have alike := shows.map_above named
    constructor
    · intro met
      obtain ⟨otherName, listed, otherNamed⟩ := exists_name_of_mem alike met
      obtain ⟨same, sameNamed, line⟩ :=
        shows.line_of_nodes named ((Forest.mem_above_iff shows.sound).mp listed)
      exact shows.index_unique sameNamed otherNamed ▸ line
    · intro line
      obtain ⟨otherName, otherNamed, nodes⟩ := shows.line_of_cells named line
      exact (shows.mem_iff alike otherNamed).mpr
        ((Forest.mem_above_iff shows.sound).mpr nodes)
  · have free := parent?_of_le beyond
    rw [above_of_free free, List.mem_singleton]
    constructor
    · rintro rfl
      exact .refl
    · intro line
      rcases ReflTransGen.cases_head line with same | ⟨parent, under, _⟩
      · exact same.symm
      · rw [StandsUnder, free] at under
        cases under

theorem exists_top (shows : Shows names arena forest) (index : Nat)
    : ∃ top, (arena.above index).getLast? = some top ∧ arena.parent? top = none := by
  rcases Nat.lt_or_ge index arena.cells.length with inRange | beyond
  · obtain ⟨name, named⟩ := exists_longname inRange
    obtain ⟨top, last, free, _⟩ := Forest.exists_top shows.sound name
    have ends := congrArg List.getLast? (shows.map_above named)
    rw [List.getLast?_map, List.getLast?_map, last] at ends
    obtain ⟨topIndex, isLast, topNamed⟩ := Option.map_eq_some_iff.mp ends
    refine ⟨topIndex, isLast, ?_⟩
    cases under : arena.parent? topIndex with
    | none => rfl
    | some parent =>
        obtain ⟨_, owner, ownerNamed⟩ := shows.parents topIndex parent under
        rw [(shows.parent?_eq_some_iff topNamed ownerNamed).mpr under] at free
        cases free
  · have free := parent?_of_le beyond
    exact ⟨index, by rw [above_of_free free]; rfl, free⟩

theorem acyclic (shows : Shows names arena forest) (index : Nat)
    : ¬ TransGen arena.StandsUnder index index := by
  intro circle
  obtain ⟨parent, under, back⟩ := TransGen.head'_iff.mp circle
  obtain ⟨_, owner, ownerNamed⟩ := shows.parents index parent under
  obtain ⟨name, named, line⟩ := shows.line_of_cells ownerNamed back
  exact shows.sound.acyclic
    (.head' ((shows.parent?_eq_some_iff named ownerNamed).mpr under) line)

/-- In an arena that shows a forest all agrees. -/
theorem agrees (shows : Shows names arena forest) : arena.Agrees where
  parent?_iff := shows.parent?_iff
  childrenOnce parent := by
    rcases Nat.lt_or_ge parent arena.cells.length with inRange | beyond
    · obtain ⟨owner, ownerNamed⟩ := exists_longname inRange
      exact shows.nodup_indices (shows.map_children ownerNamed)
    · rw [children_of_le beyond]
      exact .nil
  parentKnown _ _ under := shows.lt_of_parent? under
  rootsFree index root := by
    obtain ⟨name, _, named⟩ := exists_name_of_mem shows.map_roots root
    have free := shows.sound.parent?_of_root ((shows.mem_roots_iff named).mp root)
    refine ⟨lt_length named, ?_⟩
    cases under : arena.parent? index with
    | none => rfl
    | some parent =>
        obtain ⟨_, owner, ownerNamed⟩ := shows.parents index parent under
        rw [(shows.parent?_eq_some_iff named ownerNamed).mpr under] at free
        cases free
  rootsOnce := shows.nodup_indices shows.map_roots
  placed_iff := shows.placed_iff_mem
  acyclic := shows.acyclic
  walkEnds := shows.exists_top
  mem_walk_iff := shows.mem_above_iff
  lookup_iff name index := (shows.lookup_iff name index).trans longname?_eq_some_iff

end Shows

/-- After each doclet that is linked, whatever doclets there are, what the arena keeps apart agrees:
children, parents, roots, marks and the table.
Witness: the arena shows the forest that linking the same doclets makes, change by change.
-/
theorem linking_maintains (settings : Settings) (doclets : List Doclet)
    : let start := scattered settings doclets
      (∀ count ≤ start.cells.length, ((List.range count).foldl link start).Agrees)
      ∧ (ofDoclets settings doclets).Agrees :=
  ⟨fun _ inRange => (linked_shows settings doclets inRange).agrees,
    (ofDoclets_shows settings doclets).agrees⟩

/-- A class that is a member of itself, with a member that has the longname of its namespace. -/
theorem linking_maintains_colliding
    : let doclets : List Doclet :=
        [ { kind := .class, name := "A", longname := "A", memberof := some "A" },
          { kind := .member, name := "B", longname := "A$$namespace$helper",
            memberof := some "A" },
          { kind := .member, name := "A", longname := "A" } ]
      let start := scattered {} doclets
      1 ≤ start.cells.length
      ∧ ((List.range 1).foldl link start).Agrees
      ∧ ((List.range 1).foldl link start).cells.map Cell.children = [[], [0]]
      ∧ ((List.range 1).foldl link start).cells.map Cell.parent = [some 1, none]
      ∧ (ofDoclets {} doclets).Agrees
      ∧ (ofDoclets {} doclets).warnings
        = [ .underItself "A$$namespace$helper" "A$$namespace$helper",
            .underItself "A$$namespace$helper" "A" ] := by
  intro doclets start
  have some : 1 ≤ start.cells.length := by decide
  obtain ⟨each, all⟩ := linking_maintains {} doclets
  exact ⟨some, each 1 some, by decide +kernel, by decide +kernel, all, by decide +kernel⟩

end Typings.Arena
