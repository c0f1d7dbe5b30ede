import Typings.Proofs.Arena.Showing

/-! Every change to an arena is the change to the forest that it shows: what it updates one by one,
namely children, parents, marks, roots and the table, still goes together afterwards.
-/

namespace Typings.Arena

open Forest (settled)

variable {names : List String} {arena next : Arena} {forest nextForest : Forest}
  {index other parent child anchor : Nat} {cell : Cell} {name owner : String} {place : Place}

namespace Shows

/-- An arena in which one cell has changed, apart from its children, shows a forest in which that
node has changed, as long as the rows are those of the forest.
-/
theorem update (shows : Shows names arena forest) (moved : Cell) (same : SameNames arena next)
    (sound : nextForest.Sound) (found : arena.cells[index]? = some cell) {change : Node → Node}
    (finds
      : ∀ other,
          nextForest.find? other
          = if other = cell.longname then (forest.find? other).map change
            else forest.find? other)
    (cells
      : ∀ other,
          next.apart? other = if other = index then some (apart moved) else arena.apart? other)
    (node : arena.nodeOf moved = change (arena.nodeOf cell))
    (stands
      : ∀ parent,
          moved.parent = some parent
          → moved.placed = true ∧ ∃ owner, arena.longname? parent = some owner)
    (rows
      : ∀ place,
          place ≠ .nowhere
          → (next.row place).map arena.longname? = (nextForest.row place).map some)
    (warnings : next.warnings = nextForest.warnings)
    : Shows names next nextForest where
  sound := sound
  lookup_iff name other := by
    rw [same.lookup, same.longname?_eq]
    exact shows.lookup_iff name other
  finds name := by
    rw [finds, same.lookup, shows.finds]
    cases listed : arena.lookup name with
    | none => simp
    | some other =>
        have named := (shows.lookup_iff name other).mp listed
        rw [Option.bind_some, Option.bind_some, node?_eq_apart? next, same.nodeOf, cells]
        by_cases here : other = index
        · subst here
          rw [longname?_of_cell found] at named
          rw [if_pos (Option.some.inj named).symm, if_pos rfl, node?_of_cell found]
          exact (congrArg some node).symm
        · rw [if_neg here, if_neg, node?_eq_apart?]
          rintro rfl
          exact here (shows.index_unique (longname?_of_cell found) named)
  rows place stands := by
    rw [same.longname?_eq]
    exact rows place stands
  parents other parent under := by
    rw [parent?_eq_apart?, cells] at under
    rw [placed_eq_apart?, cells, same.longname?_eq]
    split at under
    · rename_i here
      rw [if_pos here]
      exact stands parent under
    · rename_i elsewhere
      rw [if_neg elsewhere, ← placed_eq_apart?]
      exact shows.parents other parent ((parent?_eq_apart? arena other).trans under)
  originals := same.originals.trans shows.originals
  warnings := warnings

/-- A change to a cell that leaves it where it stands. -/
theorem modify (shows : Shows names arena forest) (found : arena.cells[index]? = some cell)
    {cellChange : Cell → Cell} {nodeChange : Node → Node}
    (blind : ∀ cell, apart (cellChange (apart cell)) = apart (cellChange cell))
    (same : SameNames arena (arena.modify index cellChange))
    (sound : (forest.modify cell.longname nodeChange).Sound)
    (keeps : ∀ node, (nodeChange node).longname = node.longname)
    (stays : ∀ node, (nodeChange node).place = node.place)
    (children : ∀ cell, (cellChange cell).children = cell.children)
    (parent : (cellChange cell).parent = cell.parent)
    (placed : (cellChange cell).placed = cell.placed)
    (node : arena.nodeOf (cellChange cell) = nodeChange (arena.nodeOf cell))
    : Shows names (arena.modify index cellChange) (forest.modify cell.longname nodeChange) := by
  refine shows.update (cellChange cell) same sound found (fun _ => Forest.find?_modify keeps)
    ?cells node ?stands ?rows shows.warnings
  case cells => exact apart?_modify_of_cell blind (apart?_of_cell found)
  case stands =>
    intro parent' under
    rw [parent, ← parent?_of_cell found] at under
    rw [placed, ← placed_of_cell found]
    exact shows.parents index parent' under
  case rows =>
    intro place stands
    rw [row_modify children, Forest.row_modify shows.sound.distinct keeps stays]
    exact shows.rows place stands

theorem rename (shows : Shows names arena forest) (named : arena.longname? index = some name)
    (key : String)
    : Shows names (arena.modify index fun cell => cell.withMemberof (some key))
        (forest.modify name fun node => node.withMemberof (some key)) := by
  obtain ⟨cell, found, rfl⟩ := longname?_eq_some_iff.mp named
  exact shows.modify found (fun _ => rfl) (.modify index (fun _ => rfl) fun _ => rfl)
    (Forest.Change.sound (.rename cell.longname key) shows.sound) (fun _ => rfl) (fun _ => rfl)
    (fun _ => rfl) rfl rfl rfl

theorem nest (shows : Shows names arena forest) (named : arena.longname? index = some name)
    : Shows names (arena.modify index fun cell => { cell with nested := true })
        (forest.modify name fun node => { node with nested := true }) := by
  obtain ⟨cell, found, rfl⟩ := longname?_eq_some_iff.mp named
  exact shows.modify found (fun _ => rfl) (.modify index (fun _ => rfl) fun _ => rfl)
    (Forest.Change.sound (.nest cell.longname) shows.sound) (fun _ => rfl) (fun _ => rfl)
    (fun _ => rfl) rfl rfl rfl

theorem warn (shows : Shows names arena forest) (warning : Warning)
    : Shows names (arena.warn warning) (forest.warn warning) where
  sound := ⟨shows.sound.distinct, shows.sound.parents, shows.sound.grounded⟩
  lookup_iff := shows.lookup_iff
  finds := shows.finds
  rows := shows.rows
  parents := shows.parents
  originals := shows.originals
  warnings := congrArg (· ++ [warning]) shows.warnings

-----------------------------------------------------------------------------------------
-- Cells that come to a place
-----------------------------------------------------------------------------------------

/-- A cell and its node that come to the ends of their rows. -/
theorem rows_append {row : List String} {indices : List Nat}
    (alike : indices.map arena.longname? = row.map some)
    (named : arena.longname? index = some name) (here : Prop) [Decidable here]
    : (if here then indices ++ [index] else indices).map arena.longname?
      = (row ++ if here then [name] else []).map some := by
  split <;> simp [alike, named]

/-- A cell that comes to a place stands for its node as that settles there. -/
theorem nodeOf_adopted (arena : Arena) {cell moved : Cell} {memberof : Option String}
    (doclet : moved.doclet = (cell.adopted memberof).doclet) (role : moved.role = cell.role)
    (nested : moved.nested = cell.nested)
    : arena.nodeOf moved = settled (arena.nodeOf cell) (arena.placeOf moved) memberof := by
  have helper : (arena.nodeOf cell).isHelper = cell.isHelper := rfl
  rw [nodeOf, doclet, role, nested]
  unfold settled Cell.adopted
  rw [helper]
  split <;> rfl

theorem pushRoot (shows : Shows names arena forest) (named : arena.longname? index = some name)
    : Shows names (arena.pushRoot index) (forest.addRoot name) := by
  have sound := (Forest.addRoot_changes forest name).sound shows.sound
  have same := sameNames_pushRoot arena index
  unfold Arena.pushRoot at same ⊢
  unfold Forest.addRoot at sound ⊢
  rw [shows.stands_eq named] at sound ⊢
  split
  · exact shows
  · rename_i loose
    rw [if_neg loose] at sound same
    obtain ⟨cell, found, rfl⟩ := longname?_eq_some_iff.mp named
    have unplaced : cell.placed = false := by simpa [placed_of_cell found] using loose
    have free := shows.parent_eq_none found unplaced
    have nowhere := shows.place_eq_nowhere found unplaced
    have place : arena.placeOf (cell.adopted none).marked = .root := by
      simp [Cell.marked, placeOf, free]
    refine shows.update (cell.adopted none).marked same sound found
      (fun _ => Forest.find?_moveLast (by simp)) ?cells ?node ?stands ?rows ?warnings
    case cells =>
      exact apart?_modify_of_cell
        (fun cell => congrArg Cell.marked (apart_adopted cell none)) (apart?_of_cell found)
    case node =>
      rw [← place]
      exact nodeOf_adopted arena rfl (Cell.role_adopted _ _) (Cell.nested_adopted _ _)
    case stands => simp [Cell.marked, free]
    case rows =>
      intro place stands
      rw [Forest.row_moveLast shows.sound.distinct none (shows.find?_of_cell found) nowhere stands]
      have rows := row_withRoots (arena.modify index fun cell => (cell.adopted none).marked)
        (· ++ [index]) place
      rw [row_modify (by simp)] at rows
      exact (congrArg _ rows).trans (rows_append (shows.rows place stands) named _)
    case warnings => exact shows.warnings.trans (Forest.warnings_moveLast _).symm

theorem contains_above (shows : Shows names arena forest)
    (ownerNamed : arena.longname? parent = some owner) (named : arena.longname? child = some name)
    : (arena.above parent).contains child = (forest.above owner).contains name := by
  rw [Bool.eq_iff_iff, List.contains_iff_mem, List.contains_iff_mem]
  exact shows.mem_iff (shows.map_above ownerNamed) named

theorem attach (shows : Shows names arena forest)
    (ownerNamed : arena.longname? parent = some owner) (named : arena.longname? child = some name)
    : Shows names (arena.attach parent child) (forest.attach owner name) := by
  have sound : (forest.attach owner name).Sound :=
    Forest.attach_sound shows.sound (shows.has_of_named ownerNamed)
  have same := sameNames_attach arena parent child
  unfold Arena.attach at same ⊢
  unfold Forest.attach at sound ⊢
  rw [shows.stands_eq named] at sound ⊢
  simp only [ownerNamed, named, shows.contains_above ownerNamed named] at same ⊢
  split
  · exact shows.warn _
  · rename_i loose
    split
    · exact shows.warn _
    · rename_i outside
      rw [if_neg loose, if_neg outside] at sound same
      obtain ⟨cell, found, rfl⟩ := longname?_eq_some_iff.mp named
      have unplaced : cell.placed = false := by simpa [placed_of_cell found] using loose
      have nowhere := shows.place_eq_nowhere found unplaced
      have place : arena.placeOf ((cell.adopted (some owner)).under parent) = .under owner := by
        simp [Cell.under, placeOf, ownerNamed]
      have put
          : SameNames arena
              (arena.modify child fun cell => (cell.adopted (some owner)).under parent) :=
        .modify child (by simp) (by simp)
      refine shows.update ((cell.adopted (some owner)).under parent) same sound found
        (fun _ => Forest.find?_moveLast (by simp)) ?cells ?node ?stands ?rows ?warnings
      case cells =>
        intro other
        have blind (cell : Cell)
            : apart (((apart cell).adopted (some owner)).under parent)
              = apart ((cell.adopted (some owner)).under parent) :=
          congrArg (Cell.under parent) (apart_adopted cell (some owner))
        rw [apart?_modify_children]
        exact apart?_modify_of_cell blind (apart?_of_cell found) other
      case node =>
        rw [← place]
        exact nodeOf_adopted arena rfl (Cell.role_adopted _ _) (Cell.nested_adopted _ _)
      case stands =>
        intro above under
        cases under
        exact ⟨rfl, owner, ownerNamed⟩
      case rows =>
        intro place stands
        rw [Forest.row_moveLast shows.sound.distinct (some owner) (shows.find?_of_cell found)
          nowhere stands, row_modify_children, row_modify (by simp)]
        · exact rows_append (shows.rows place stands) named _
        · intro name index
          rw [put.lookup, put.longname?_eq]
          exact shows.lookup_iff name index
        · rw [put.longname?_eq, ownerNamed]
      case warnings => exact shows.warnings.trans (Forest.warnings_moveLast _).symm

-----------------------------------------------------------------------------------------
-- Cells that leave their place
-----------------------------------------------------------------------------------------

/-- A cell and its node that leave their rows. -/
theorem rows_filter (shows : Shows names arena forest) {row : List String} {indices : List Nat}
    (alike : indices.map arena.longname? = row.map some)
    (named : arena.longname? child = some name)
    : (indices.filter (· != child)).map arena.longname?
      = (row.filter (· != name)).map some := by
  have filtered := congrArg (List.filter (· != some name)) alike
  rw [List.filter_map, List.filter_map] at filtered
  have left : ((· != some name) ∘ arena.longname?) = (· != child) := by
    funext index
    rw [Function.comp_apply, Bool.eq_iff_iff, bne_iff_ne, bne_iff_ne, not_iff_not]
    constructor
    · exact shows.index_unique named
    · rintro rfl
      exact named
  have right : ((· != some name) ∘ some) = (· != name) := by
    funext other
    simp [bne]
  rwa [left, right] at filtered

theorem detach (shows : Shows names arena forest)
    (ownerNamed : arena.longname? parent = some owner) (named : arena.longname? child = some name)
    (under : arena.parent? child = some parent)
    : Shows names (arena.detach parent child) (forest.detach name) := by
  have stood := (shows.parent?_eq_some_iff named ownerNamed).mpr under
  obtain ⟨cell, found, rfl⟩ := longname?_eq_some_iff.mp named
  refine shows.update cell.loosened (sameNames_detach arena parent child)
    (Forest.Change.sound (.detach cell.longname) shows.sound) found
    (fun _ => Forest.find?_modify fun _ => rfl) ?cells rfl nofun ?rows shows.warnings
  case cells =>
    have untouched (other : Nat) := apart?_modify_children arena parent
      (List.filter (· != child)) other
    intro other
    rw [← untouched other]
    exact apart?_modify_of_cell (fun _ => rfl) ((untouched child).trans (apart?_of_cell found))
      other
  case rows =>
    intro place stands
    rw [Arena.detach, row_modify (by simp), row_modify_children shows.lookup_iff ownerNamed,
      Forest.row_detach _ _ stands]
    split
    · exact shows.rows_filter (shows.rows place stands) named
    · rename_i elsewhere
      have absent : cell.longname ∉ forest.row place := by
        intro listed
        obtain ⟨node, nodeFound, here⟩ := shows.sound.mem_standingAt_iff.mp listed
        obtain ⟨same, sameFound, below⟩ := Forest.parent?_eq_some_iff.mp stood
        cases nodeFound.symm.trans sameFound
        exact elsewhere (here.symm.trans below)
      rw [List.filter_eq_self.mpr]
      · exact shows.rows place stands
      · intro other listed
        rw [bne_iff_ne]
        rintro rfl
        exact absent listed

-----------------------------------------------------------------------------------------
-- New cells
-----------------------------------------------------------------------------------------

theorem lookup_iff_insert (shows : Shows names arena forest) {doclet : Doclet}
    (role : Option Node.Role) (fresh : arena.lookup doclet.longname = none) (name : String)
    (index : Nat)
    : (arena.insert doclet role).1.lookup name = some index
      ↔ (arena.insert doclet role).1.longname? index = some name := by
  rw [lookup_insert, longname?_insert]
  by_cases same : name = doclet.longname
  · subst same
    rw [if_pos rfl]
    by_cases here : index = arena.cells.length
    · rw [if_pos here, here]
      exact iff_of_true rfl rfl
    · rw [if_neg here]
      refine iff_of_false (fun added => here (Option.some.inj added).symm) fun named => ?_
      rw [shows.lookup_of_named named] at fresh
      cases fresh
  · rw [if_neg same]
    split
    · rename_i here
      refine iff_of_false (fun listed => ?_) fun named => same (Option.some.inj named).symm
      exact ne_length ((shows.lookup_iff _ _).mp listed) here
    · exact shows.lookup_iff name index

theorem find?_insert (shows : Shows names arena forest) {doclet : Doclet}
    (role : Option Node.Role) (fresh : arena.lookup doclet.longname = none) (name : String)
    : (forest.add { doclet, role }).find? name
      = ((arena.insert doclet role).1.lookup name).bind (arena.insert doclet role).1.node? := by
  have absent : forest.find? doclet.longname = none := shows.find?_eq_none fresh
  rw [Forest.find?_add_of_fresh absent, lookup_insert]
  change (if name = doclet.longname then _ else _) = _
  split
  · rw [Option.bind_some, node?, cells_insert, if_pos rfl]
    rfl
  · rw [shows.finds]
    cases listed : arena.lookup name with
    | none => rfl
    | some index =>
        have named := (shows.lookup_iff name index).mp listed
        obtain ⟨cell, found, rfl⟩ := longname?_eq_some_iff.mp named
        rw [Option.bind_some, Option.bind_some, node?_of_cell found,
          node?_of_cell (cells_insert_of_cell found doclet role),
          shows.nodeOf_eq (keeps_insert arena doclet role) found]

/-- A new cell has no children, and comes into no row. -/
theorem row_insert (shows : Shows names arena forest) {doclet : Doclet} (role : Option Node.Role)
    (fresh : arena.lookup doclet.longname = none) (place : Place)
    : (arena.insert doclet role).1.row place = arena.row place := by
  cases place with
  | nowhere | root => rfl
  | under owner =>
      rw [row, row, lookup_insert]
      split
      · rename_i same
        rw [same, fresh]
        simp [children, cells_insert]
      · cases listed : arena.lookup owner with
        | none => rfl
        | some index =>
            have named := (shows.lookup_iff owner index).mp listed
            simp [children, cells_insert, ne_length named]

theorem insert (shows : Shows names arena forest) {doclet : Doclet} (role : Option Node.Role)
    (fresh : arena.lookup doclet.longname = none)
    : Shows (names ++ (original? { doclet, role }).toList) (arena.insert doclet role).1
        (forest.add { doclet, role }) where
  sound := by
    have absent := shows.find?_eq_none fresh
    refine shows.sound.of_links ?_ ?_ (Forest.standsUnder_add absent rfl)
    · rw [Forest.longnames_add]
      exact (List.perm_append_singleton _ _).nodup_iff.mpr
        (List.nodup_cons.mpr ⟨Forest.find?_eq_none_iff.mp absent, shows.sound.distinct⟩)
    · intro name known
      exact Forest.has_iff_mem.mpr (by simp [Forest.has_iff_mem.mp known])
  lookup_iff := shows.lookup_iff_insert role fresh
  finds := shows.find?_insert role fresh
  rows place stands := by
    rw [shows.row_insert role fresh, Forest.row_add rfl stands]
    exact (keeps_insert arena doclet role).map_longname? (shows.rows place stands)
  parents index parent under := by
    rw [parent?, cells_insert] at under
    rw [placed, cells_insert]
    split at under
    · cases under
    · rename_i elsewhere
      rw [if_neg elsewhere]
      obtain ⟨stands, owner, named⟩ := shows.parents index parent under
      exact ⟨stands, owner, keeps_insert arena doclet role _ _ named⟩
  originals := by
    rw [← shows.originals]
    exact List.filterMap_append
  warnings := shows.warnings

-----------------------------------------------------------------------------------------
-- Cells behind others
-----------------------------------------------------------------------------------------

/-- A cell and its node that come right behind another one in their rows. -/
theorem rows_insertBehind (shows : Shows names arena forest) {before after : List String}
    {indices : List Nat} (alike : indices.map arena.longname? = (before ++ owner :: after).map some)
    (once : owner ∉ before) (anchorNamed : arena.longname? anchor = some owner)
    (named : arena.longname? index = some name)
    : (insertBehind anchor index indices).map arena.longname?
      = (before ++ owner :: name :: after).map some := by
  rw [List.map_append, List.map_cons] at alike
  obtain ⟨front, back, rfl, frontAlike, backAlike⟩ := List.map_eq_append_iff.mp alike
  obtain ⟨same, rest, rfl, sameNamed, restAlike⟩ := List.map_eq_cons_iff.mp backAlike
  cases shows.index_unique anchorNamed sameNamed
  have absent : anchor ∉ front := fun listed =>
    once ((shows.mem_iff frontAlike anchorNamed).mp listed)
  rw [insertBehind_append absent, List.map_append, List.map_cons, List.map_cons, frontAlike,
    anchorNamed, named, restAlike]
  simp

/-- The rows in which a new cell is put behind one that stands at `place`. -/
theorem rows_addBehind {helped helper : Node}
    (shows : Shows names arena (forest.add helper)) (loose : helper.place = .nowhere)
    (distinct : forest.longnames.Nodup) (found : forest.find? helped.longname = some helped)
    (anchorNamed : arena.longname? anchor = some helped.longname)
    (named : arena.longname? index = some helper.longname) (stands : place ≠ .nowhere)
    : (if place = helped.place then insertBehind anchor index (arena.row place)
        else arena.row place).map arena.longname?
      = ((forest.addBehind helped helper).row place).map some := by
  have alike := shows.rows place stands
  rw [Forest.row_add loose stands] at alike
  obtain ⟨elsewhere, before, after, old, new⟩ := Forest.row_addBehind distinct helper found
  split
  · rename_i here
    subst here
    rw [new]
    refine shows.rows_insertBehind (old ▸ alike) ?_ anchorNamed named
    have once : (forest.row helped.place).Nodup := (List.filter_sublist.map _).nodup distinct
    rw [old, List.nodup_middle, List.nodup_cons] at once
    exact fun listed => once.1 (List.mem_append_left _ listed)
  · rename_i other
    rw [elsewhere place other]
    exact alike

/-- A new cell is put right behind one that stands somewhere. -/
theorem placeAfter {helped : Cell} (shows : Shows names arena (forest.add (arena.nodeOf cell)))
    (sound : (forest.addBehind (arena.nodeOf helped) (arena.nodeOf cell)).Sound)
    (distinct : forest.longnames.Nodup)
    (nodeFound
      : forest.find? (arena.nodeOf helped).longname = some (arena.nodeOf helped))
    (fresh : forest.find? (arena.nodeOf cell).longname = none)
    (anchorFound : arena.cells[anchor]? = some helped) (stands : helped.placed = true)
    (found : arena.cells[index]? = some cell) (loose : cell.placed = false)
    : Shows names (arena.placeAfter anchor index)
        (forest.addBehind (arena.nodeOf helped) (arena.nodeOf cell)) := by
  have finds (other : String)
      : (forest.addBehind (arena.nodeOf helped) (arena.nodeOf cell)).find? other
        = if other = cell.longname then
            ((forest.add (arena.nodeOf cell)).find? other).map fun _ =>
              Forest.beside (arena.nodeOf helped) (arena.nodeOf cell)
          else (forest.add (arena.nodeOf cell)).find? other := by
    have same : (arena.nodeOf cell).longname = cell.longname := rfl
    rw [Forest.find?_addBehind (Forest.mem_of_find? nodeFound) fresh,
      Forest.find?_add_of_fresh fresh, same]
    split <;> rfl
  have free := shows.parent_eq_none found loose
  have nowhere := shows.place_eq_nowhere found loose
  have rows (place : Place) (somewhere : place ≠ .nowhere) :=
    shows.rows_addBehind nowhere distinct nodeFound (longname?_of_cell anchorFound)
      (longname?_of_cell found) somewhere
  have same := sameNames_placeAfter arena anchor index
  unfold Arena.placeAfter at same ⊢
  rw [parent?_of_cell anchorFound] at same ⊢
  cases under : helped.parent with
  | none =>
      rw [under] at same
      have place : (arena.nodeOf helped).place = .root := by simp [nodeOf, placeOf, under, stands]
      refine shows.update (cell.withMemberof none).marked same sound found finds ?cells ?node
        ?stands ?rows shows.warnings
      case cells => exact apart?_modify_of_cell (fun _ => rfl) (apart?_of_cell found)
      case node =>
        rw [Forest.beside, place]
        simp [nodeOf, placeOf, free, Cell.marked, Cell.withMemberof, Node.withMemberof]
      case stands => simp [Cell.marked, Cell.withMemberof, free]
      case rows =>
        intro place' somewhere
        have put := rows place' somewhere
        rw [place] at put
        dsimp only
        rw [row_modify (by simp), row_withRoots]
        exact put
  | some parent =>
      rw [under] at same
      obtain ⟨owner, ownerNamed, below⟩ := shows.placeOf_of_parent anchorFound under
      have place : (arena.nodeOf helped).place = .under owner := below
      dsimp only at same ⊢
      rw [ownerNamed] at same ⊢
      have untouched (other : Nat) := apart?_modify_children arena parent
        (insertBehind anchor index) other
      refine shows.update ((cell.withMemberof (some owner)).under parent) same sound found finds
        ?cells ?node ?stands ?rows shows.warnings
      case cells =>
        intro other
        rw [← untouched other]
        exact apart?_modify_of_cell (fun _ => rfl) ((untouched index).trans (apart?_of_cell found))
          other
      case node =>
        rw [Forest.beside, place]
        simp [nodeOf, placeOf, ownerNamed, Cell.under, Cell.withMemberof, Node.withMemberof]
      case stands =>
        intro above same
        cases same
        exact ⟨rfl, owner, ownerNamed⟩
      case rows =>
        intro place' somewhere
        have put := rows place' somewhere
        rw [place] at put
        rw [row_modify (by simp), row_modify_children shows.lookup_iff ownerNamed]
        exact put

end Shows

end Typings.Arena
