import Typings.Proofs.Arena.Agreement

/-! The branches of an arena are those of the forest that it shows. -/

namespace Typings.Arena

variable {names : List String} {arena : Arena} {forest : Forest} {index limit : Nat} {cell : Cell}
  {place : Place}

namespace Shows

/-- The branches of cells and of their nodes, by induction on the nodes. -/
theorem filterMap_branch (shows : Shows names arena forest)
    (each
      : ∀ {index cell},
          arena.cells[index]? = some cell
          → arena.branch limit index = some (forest.branch limit (arena.nodeOf cell)))
    {indices : List Nat} {nodes : List Node}
    (known : ∀ node ∈ nodes, forest.find? node.longname = some node)
    (alike : indices.map arena.longname? = (nodes.map Node.longname).map some)
    : indices.filterMap (arena.branch limit) = nodes.map (forest.branch limit) := by
  induction nodes generalizing indices with
  | nil =>
      cases List.map_eq_nil_iff.mp alike
      rfl
  | cons node nodes ih =>
      obtain ⟨found, rest⟩ := List.forall_mem_cons.mp known
      obtain ⟨index, indices, rfl, named, others⟩ := List.map_eq_cons_iff.mp alike
      obtain ⟨cell, cellFound, same⟩ := longname?_eq_some_iff.mp named
      have own := shows.find?_of_cell cellFound
      rw [same, found] at own
      rw [List.filterMap_cons_some (each cellFound), List.map_cons, ih rest others,
        Option.some.inj own]

theorem find?_of_mem_standingAt (shows : Shows names arena forest) (place : Place)
    : ∀ node ∈ forest.standingAt place, forest.find? node.longname = some node := by
  intro node listed
  exact Forest.find?_of_mem shows.sound.distinct (Forest.mem_standingAt.mp listed).1

/-- The branch of a cell is that of its node, by induction on the limit. -/
theorem branch_eq (shows : Shows names arena forest) (limit : Nat)
    (found : arena.cells[index]? = some cell)
    : arena.branch limit index = some (forest.branch limit (arena.nodeOf cell)) := by
  induction limit generalizing index cell with
  | zero => simp [Arena.branch, Forest.branch, found]
  | succ limit ih =>
      have alike := shows.map_children (longname?_of_cell found)
      rw [children_of_cell found] at alike
      have below := shows.filterMap_branch ih (shows.find?_of_mem_standingAt _) alike
      rw [Arena.branch, found, Option.map_some, below]
      rfl

/-- An arena and the forest that it shows have the same branches. -/
theorem branches_eq (shows : Shows names arena forest) : arena.branches = forest.branches := by
  rw [branches, Forest.branches, shows.length_eq]
  exact shows.filterMap_branch (shows.branch_eq _) (shows.find?_of_mem_standingAt .root)
    shows.map_roots

end Shows

/-- The branches that doclets make, and the warnings from linking them, are those of their
forest. -/
theorem ofDoclets_branches (settings : Settings) (doclets : List Doclet)
    : (ofDoclets settings doclets).branches = (Forest.ofDoclets settings doclets).branches
      ∧ (ofDoclets settings doclets).warnings = (Forest.ofDoclets settings doclets).warnings :=
  ⟨(ofDoclets_shows settings doclets).branches_eq, (ofDoclets_shows settings doclets).warnings⟩

end Typings.Arena
