import Typings.Proofs.Arena.Cells
import Typings.Proofs.Forest.Rows

/-! An arena shows a forest if both have the same nodes, at the same places and in the same rows.
What an arena tells of a cell is then what the forest tells of its node.
-/

namespace Typings.Arena

/-- The cells of an arena stand for the nodes of a forest. Those that stand for doclets of the input
have the longnames `names`, in their order.
-/
structure Shows (names : List String) (arena : Arena) (forest : Forest) : Prop where
  sound : forest.Sound
  /-- The table has the index of every longname. -/
  lookup_iff
    : ∀ name index, arena.lookup name = some index ↔ arena.longname? index = some name
  /-- The node of a longname is the one that its cell stands for. -/
  finds : ∀ name, forest.find? name = (arena.lookup name).bind arena.node?
  /-- Each row of indices is that of the nodes there. -/
  rows
    : ∀ place,
        place ≠ .nowhere
        → (arena.row place).map arena.longname? = (forest.row place).map some
  /-- A cell with a parent stands under one that is there. -/
  parents
    : ∀ index parent,
        arena.parent? index = some parent
        → arena.placed index = true ∧ ∃ owner, arena.longname? parent = some owner
  originals : arena.originals = names
  warnings : arena.warnings = forest.warnings

variable {names : List String} {arena next : Arena} {forest nextForest : Forest}
  {index other parent limit : Nat} {cell : Cell} {name owner : String} {place target : Place}

namespace Shows

theorem lookup_of_named (shows : Shows names arena forest)
    (named : arena.longname? index = some name)
    : arena.lookup name = some index :=
  (shows.lookup_iff name index).mpr named

/-- No two cells have one longname. -/
theorem index_unique (shows : Shows names arena forest)
    (named : arena.longname? index = some name) (same : arena.longname? other = some name)
    : other = index :=
  Option.some.inj ((shows.lookup_of_named same).symm.trans (shows.lookup_of_named named))

theorem find?_of_cell (shows : Shows names arena forest)
    (found : arena.cells[index]? = some cell)
    : forest.find? cell.longname = some (arena.nodeOf cell) := by
  rw [shows.finds, shows.lookup_of_named (longname?_of_cell found), Option.bind_some,
    node?_of_cell found]

theorem has_of_named (shows : Shows names arena forest)
    (named : arena.longname? index = some name)
    : forest.has name = true := by
  obtain ⟨cell, found, rfl⟩ := longname?_eq_some_iff.mp named
  exact Forest.has_of_find? (shows.find?_of_cell found)

/-- Every node has a cell. -/
theorem exists_index (shows : Shows names arena forest) (known : forest.has name = true)
    : ∃ index, arena.longname? index = some name := by
  obtain ⟨node, found⟩ := Forest.has_iff.mp known
  rw [shows.finds] at found
  obtain ⟨index, listed, _⟩ := Option.bind_eq_some_iff.mp found
  exact ⟨index, (shows.lookup_iff name index).mp listed⟩

theorem find?_eq_none (shows : Shows names arena forest) (absent : arena.lookup name = none)
    : forest.find? name = none := by
  rw [shows.finds, absent, Option.bind_none]

theorem lookup_isSome (shows : Shows names arena forest) (name : String)
    : (arena.lookup name).isSome = forest.has name := by
  cases listed : arena.lookup name with
  | none => simp [Forest.has, shows.find?_eq_none listed]
  | some index => exact (shows.has_of_named ((shows.lookup_iff name index).mp listed)).symm

-----------------------------------------------------------------------------------------
-- Where cells stand
-----------------------------------------------------------------------------------------

theorem placeOf_of_parent (shows : Shows names arena forest)
    (found : arena.cells[index]? = some cell) (under : cell.parent = some parent)
    : ∃ owner, arena.longname? parent = some owner ∧ arena.placeOf cell = .under owner := by
  obtain ⟨_, owner, named⟩ := shows.parents index parent ((parent?_of_cell found).trans under)
  exact ⟨owner, named, by simp [placeOf, under, named]⟩

/-- A cell stands for the same node in any arena with the same longnames and more. -/
theorem nodeOf_eq (shows : Shows names arena forest) (keeps : Keeps arena next)
    (found : arena.cells[index]? = some cell)
    : next.nodeOf cell = arena.nodeOf cell := by
  cases under : cell.parent with
  | none => simp [nodeOf, placeOf, under]
  | some parent =>
      obtain ⟨owner, named, _⟩ := shows.placeOf_of_parent found under
      simp [nodeOf, placeOf, under, named, keeps parent owner named]

theorem placed_iff (shows : Shows names arena forest) (found : arena.cells[index]? = some cell)
    : cell.placed = true ↔ arena.placeOf cell ≠ .nowhere := by
  cases under : cell.parent with
  | none => cases stands : cell.placed <;> simp [placeOf, under, stands]
  | some parent =>
      obtain ⟨owner, _, place⟩ := shows.placeOf_of_parent found under
      have stands := (shows.parents index parent ((parent?_of_cell found).trans under)).1
      rw [placed_of_cell found] at stands
      simp [place, stands]

theorem stands_eq (shows : Shows names arena forest) (named : arena.longname? index = some name)
    : forest.stands name = arena.placed index := by
  obtain ⟨cell, found, rfl⟩ := longname?_eq_some_iff.mp named
  rw [Bool.eq_iff_iff, Forest.stands_iff, shows.find?_of_cell found, placed_of_cell found,
    shows.placed_iff found]
  simp [nodeOf]

/-- A cell without a mark has no parent. -/
theorem parent_eq_none (shows : Shows names arena forest)
    (found : arena.cells[index]? = some cell) (loose : cell.placed = false)
    : cell.parent = none := by
  cases under : cell.parent with
  | none => rfl
  | some parent =>
      have stands := (shows.parents index parent ((parent?_of_cell found).trans under)).1
      rw [placed_of_cell found, loose] at stands
      cases stands

theorem place_eq_nowhere (shows : Shows names arena forest)
    (found : arena.cells[index]? = some cell) (loose : cell.placed = false)
    : (arena.nodeOf cell).place = .nowhere := by
  simp [nodeOf, placeOf, shows.parent_eq_none found loose, loose]

theorem parent?_eq (shows : Shows names arena forest)
    (named : arena.longname? index = some name)
    : forest.parent? name = (arena.parent? index).bind arena.longname? := by
  obtain ⟨cell, found, rfl⟩ := longname?_eq_some_iff.mp named
  rw [Forest.parent?, shows.find?_of_cell found, parent?_of_cell found]
  cases under : cell.parent with
  | none => cases stands : cell.placed <;> simp [nodeOf, placeOf, under, stands]
  | some parent =>
      obtain ⟨owner, ownerNamed, place⟩ := shows.placeOf_of_parent found under
      simp [nodeOf, place, ownerNamed]

/-- The parent of a cell is the one with the longname of the parent of its node. -/
theorem parent?_eq_some_iff (shows : Shows names arena forest)
    (named : arena.longname? index = some name) (ownerNamed : arena.longname? parent = some owner)
    : forest.parent? name = some owner ↔ arena.parent? index = some parent := by
  rw [shows.parent?_eq named, Option.bind_eq_some_iff]
  constructor
  · rintro ⟨other, under, otherNamed⟩
    exact under.trans (congrArg some (shows.index_unique ownerNamed otherNamed))
  · intro under
    exact ⟨parent, under, ownerNamed⟩

/-- There are as many cells as nodes. -/
theorem length_eq (shows : Shows names arena forest)
    : arena.cells.length = forest.nodes.length := by
  have distinct : (arena.cells.map Cell.longname).Nodup := by
    rw [List.nodup_iff_getElem?_ne_getElem?]
    intro left right before inRange same
    have here : right < arena.cells.length := by simpa using inRange
    have named : arena.longname? right = some (arena.cells[right].longname) := by
      simp [longname?, here]
    have again : arena.longname? left = some (arena.cells[right].longname) := by
      rw [← named]
      simpa [longname?] using same
    exact absurd (shows.index_unique named again) (by omega)
  have members (name : String)
      : name ∈ arena.cells.map Cell.longname ↔ name ∈ forest.longnames := by
    rw [← Forest.has_iff_mem]
    constructor
    · intro listed
      obtain ⟨index, found⟩ := List.mem_iff_getElem?.mp listed
      exact shows.has_of_named (by simpa [longname?] using found)
    · intro known
      obtain ⟨index, named⟩ := shows.exists_index known
      exact List.mem_iff_getElem?.mpr ⟨index, by simpa [longname?] using named⟩
  have same : (arena.cells.map Cell.longname).Perm forest.longnames :=
    (List.perm_ext_iff_of_nodup distinct shows.sound.distinct).mpr members
  simpa [Forest.longnames] using same.length_eq

/-- The walk along the parents of a cell meets the same as that along the parents of its node. -/
theorem map_lineage (shows : Shows names arena forest)
    (named : arena.longname? index = some name) (limit : Nat)
    : (arena.lineage limit index).map arena.longname?
      = (forest.lineage limit name).map some := by
  induction limit generalizing index name with
  | zero => rfl
  | succ limit ih =>
      rw [lineage, Forest.lineage, List.map_cons, List.map_cons, named,
        shows.parent?_eq named]
      congr 1
      cases under : arena.parent? index with
      | none => rfl
      | some parent =>
          obtain ⟨_, owner, ownerNamed⟩ := shows.parents index parent under
          simp only [Option.bind_some, ownerNamed]
          exact ih ownerNamed

theorem map_above (shows : Shows names arena forest)
    (named : arena.longname? index = some name)
    : (arena.above index).map arena.longname? = (forest.above name).map some := by
  rw [above, shows.length_eq]
  exact shows.map_lineage named _

/-- In a list of indices a cell is where its longname is. -/
theorem mem_iff (shows : Shows names arena forest) {indices : List Nat} {row : List String}
    (alike : indices.map arena.longname? = row.map some)
    (named : arena.longname? index = some name)
    : index ∈ indices ↔ name ∈ row := by
  constructor
  · intro listed
    have mapped : some name ∈ row.map some :=
      alike ▸ named ▸ List.mem_map_of_mem listed
    exact (List.mem_map_of_injective (Option.some_injective _)).mp mapped
  · intro listed
    have mapped : some name ∈ indices.map arena.longname? :=
      alike ▸ List.mem_map_of_mem listed
    obtain ⟨other, member, otherNamed⟩ := List.mem_map.mp mapped
    exact shows.index_unique named otherNamed ▸ member

end Shows

end Typings.Arena
