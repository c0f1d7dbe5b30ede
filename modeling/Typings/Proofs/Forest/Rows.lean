import Typings.Proofs.Forest.Standing
import Typings.Proofs.Forest.Effects

/-! The nodes at each place in their order, before and after the changes that linking makes. Nodes
come to the end of a row or right behind another node, and leave the others in their order.
-/

namespace Typings.Forest

variable {forest next : Forest} {name parent : String} {node : Node} {place target : Place}

-----------------------------------------------------------------------------------------
-- Nodes at a place
-----------------------------------------------------------------------------------------

theorem standingAt_add (elsewhere : node.place ≠ place)
    : (forest.add node).standingAt place = forest.standingAt place := by
  simp [standingAt, add, List.filter_append, elsewhere]

/-- A change to one node, made to each node of a list. -/
def changeIn (name : String) (change : Node → Node) (nodes : List Node) : List Node :=
  nodes.map fun node => if node.longname == name then change node else node

theorem changeIn_of_not_mem {change : Node → Node} {nodes : List Node}
    (absent : ∀ node ∈ nodes, node.longname ≠ name)
    : changeIn name change nodes = nodes := by
  have same : ∀ node ∈ nodes,
      (if node.longname == name then change node else node) = id node := by
    intro node listed
    simp [absent node listed]
  rw [changeIn, List.map_congr_left same, List.map_id]

theorem filter_changeIn {change : Node → Node} {nodes : List Node} {test : Node → Bool}
    (kept : ∀ node ∈ nodes, node.longname = name → test (change node) = test node)
    : (changeIn name change nodes).filter test = changeIn name change (nodes.filter test) := by
  rw [changeIn, changeIn, List.filter_map]
  congr 1
  refine List.filter_congr fun node listed => ?_
  by_cases same : node.longname = name
  · simp [same, kept node listed same]
  · simp [same]

theorem standingAt_modify (distinct : forest.longnames.Nodup) {change : Node → Node}
    (stays
      : ∀ node,
          forest.find? name = some node → ((change node).place = place ↔ node.place = place))
    : (forest.modify name change).standingAt place
      = changeIn name change (forest.standingAt place) := by
  refine filter_changeIn fun node listed same => ?_
  have found := find?_of_mem distinct listed
  rw [same] at found
  rw [Bool.eq_iff_iff, beq_iff_eq, beq_iff_eq]
  exact stays node found

theorem nodes_moveLast {change : Node → Node} (found : forest.find? name = some node)
    : (forest.moveLast name change).nodes = forest.without name ++ [change node] := by
  simp [moveLast, found]

theorem without_eq_filter (forest : Forest) (name : String) (test : Node → Bool)
    : (forest.without name).filter test
      = (forest.nodes.filter test).filter fun node => node.longname != name := by
  rw [without, List.filter_comm]

/-- A node that stands elsewhere leaves a place as it is, and comes behind the nodes there if it
comes to that place.
-/
theorem standingAt_moveLast (distinct : forest.longnames.Nodup) {change : Node → Node}
    (found : forest.find? name = some node) (elsewhere : node.place ≠ place)
    : (forest.moveLast name change).standingAt place
      = forest.standingAt place ++ [change node].filter fun node => node.place == place := by
  rw [standingAt, nodes_moveLast found, List.filter_append, without_eq_filter]
  congr 1
  refine List.filter_eq_self.mpr fun other listed => ?_
  obtain ⟨known, stands⟩ := List.mem_filter.mp listed
  rw [bne_iff_ne]
  intro same
  have otherFound := find?_of_mem distinct known
  rw [same, found] at otherFound
  cases otherFound
  exact elsewhere (by simpa using stands)

/-- What a test takes of a list with a node put behind another one, by induction on the list. -/
theorem filter_putBehind {test : Node → Bool} {helper : Node} {nodes : List Node}
    (alike : ∀ node ∈ nodes, node.longname = name → test helper = test node)
    : (putBehind name helper nodes).filter test
      = if test helper then putBehind name helper (nodes.filter test) else nodes.filter test := by
  induction nodes with
  | nil => simp [putBehind]
  | cons node nodes ih =>
      have rest := ih fun other listed => alike other (List.mem_cons_of_mem _ listed)
      by_cases same : node.longname = name
      · have own := alike node List.mem_cons_self same
        cases passes : test helper <;> rw [passes] at own <;>
          simp [putBehind, same, passes, ← own]
      · cases passes : test helper <;> cases own : test node <;> rw [passes] at rest <;>
          simp_all [putBehind]

theorem standingAt_addBehind (distinct : forest.longnames.Nodup) {helped helper : Node}
    (found : forest.find? helped.longname = some helped)
    : (forest.addBehind helped helper).standingAt place
      = if helped.place = place then
          putBehind helped.longname (Forest.beside helped helper) (forest.standingAt place)
        else forest.standingAt place := by
  rw [standingAt, nodes_addBehind, filter_putBehind]
  · simp only [beq_iff_eq]
    rfl
  · intro node listed same
    have nodeFound := find?_of_mem distinct listed
    rw [same, found] at nodeFound
    cases nodeFound
    rfl

-----------------------------------------------------------------------------------------
-- Rows
-----------------------------------------------------------------------------------------

/-- The longnames of the nodes that stand at a place, in their order. -/
def row (forest : Forest) (place : Place) : List String :=
  (forest.standingAt place).map Node.longname

/-- Nothing stands anywhere before linking. -/
theorem row_scattered (doclets : List Doclet) (stands : place ≠ .nowhere)
    : (scattered doclets).row place = [] := by
  rw [row, List.map_eq_nil_iff, List.eq_nil_iff_forall_not_mem]
  intro node listed
  obtain ⟨known, place_eq⟩ := mem_standingAt.mp listed
  obtain ⟨_, _, rfl⟩ := mem_nodes_scattered.mp known
  exact stands place_eq.symm

theorem row_add (loose : node.place = .nowhere) (stands : place ≠ .nowhere)
    : (forest.add node).row place = forest.row place := by
  rw [row, standingAt_add (loose ▸ Ne.symm stands), row]

/-- A new interface waits for its class. -/
theorem row_addInterface (forest : Forest) (owner : Doclet) (stands : place ≠ .nowhere)
    : (forest.addInterface owner).1.row place = forest.row place := by
  unfold addInterface
  dsimp only
  split
  · rfl
  · exact row_add rfl stands

theorem map_longname_changeIn {change : Node → Node} (nodes : List Node)
    (keeps : ∀ node, (change node).longname = node.longname)
    : (changeIn name change nodes).map Node.longname = nodes.map Node.longname := by
  rw [changeIn, List.map_map]
  refine List.map_congr_left fun node _ => ?_
  by_cases same : node.longname = name <;> simp [same, keeps]

theorem row_modify (distinct : forest.longnames.Nodup) {change : Node → Node}
    (keeps : ∀ node, (change node).longname = node.longname)
    (stays : ∀ node, (change node).place = node.place)
    : (forest.modify name change).row place = forest.row place := by
  rw [row, standingAt_modify distinct fun node _ => by rw [stays], map_longname_changeIn _ keeps,
    row]

/-- A node that is taken from its place leaves the others of its row in their order. -/
theorem row_detach (forest : Forest) (name : String) (stands : place ≠ .nowhere)
    : (forest.detach name).row place = (forest.row place).filter (· != name) := by
  have others
      : (forest.detach name).standingAt place
        = (forest.standingAt place).filter fun node => node.longname != name := by
    rw [standingAt, detach, modify, List.filter_map, standingAt, List.filter_filter]
    have tests
        : forest.nodes.filter
            ((fun node => node.place == place)
              ∘ fun node =>
                  if node.longname == name then { node with place := .nowhere } else node)
          = forest.nodes.filter fun node => node.longname != name && node.place == place := by
      refine List.filter_congr fun node _ => ?_
      by_cases same : node.longname = name <;> simp [same, Ne.symm stands]
    rw [tests]
    exact changeIn_of_not_mem fun node listed => by
      simpa using (Bool.and_eq_true_iff.mp (List.mem_filter.mp listed).2).1
  rw [row, others, row, List.filter_map]
  rfl

/-- A helper behind the node that it helps is next to it in the row of that. -/
theorem row_addBehind (distinct : forest.longnames.Nodup) {helped : Node} (helper : Node)
    (found : forest.find? helped.longname = some helped)
    : (∀ place,
        place ≠ helped.place → (forest.addBehind helped helper).row place = forest.row place)
      ∧ ∃ before after,
          forest.row helped.place = before ++ helped.longname :: after
          ∧ (forest.addBehind helped helper).row helped.place
            = before ++ helped.longname :: helper.longname :: after := by
  constructor
  · intro place elsewhere
    rw [row, standingAt_addBehind distinct found, if_neg (Ne.symm elsewhere), row]
  · have member : helped ∈ forest.standingAt helped.place :=
      mem_standingAt.mpr ⟨mem_of_find? found, rfl⟩
    obtain ⟨before, same, after, split, sameName, put⟩ :=
      putBehind_split (Forest.beside helped helper) member
    refine ⟨before.map Node.longname, after.map Node.longname, ?_, ?_⟩
    · rw [row, split, List.map_append, List.map_cons, sameName]
    · rw [row, standingAt_addBehind distinct found, if_pos rfl, put, List.map_append,
        List.map_cons, List.map_cons, sameName, longname_beside]

/-- A companion leaves all rows as they are, or comes right behind its owner. -/
theorem row_companion (sound : forest.Sound) (found : forest.find? node.longname = some node)
    : (∀ place, place ≠ .nowhere → (forest.companion node).1.row place = forest.row place)
      ∨ forest.find? (namespaceHelper node.longname) = none
        ∧ (∀ place, place ≠ node.place → (forest.companion node).1.row place = forest.row place)
        ∧ ∃ before after,
            forest.row node.place = before ++ node.longname :: after
            ∧ (forest.companion node).1.row node.place
              = before ++ node.longname :: namespaceHelper node.longname :: after := by
  unfold Forest.companion
  dsimp only
  split
  · exact .inl fun _ _ => rfl
  · rename_i absent
    split
    · exact .inl fun place stands => row_add rfl stands
    · exact .inr ⟨find?_of_not_has absent, row_addBehind sound.distinct _ found⟩

-----------------------------------------------------------------------------------------
-- Nodes that come to the end of a row
-----------------------------------------------------------------------------------------

/-- Some of the nodes `names` have come to the end of the row at a place, and all other rows are as
they were.
-/
def Extends (forest next : Forest) (target : Place) (names : List String) : Prop :=
  ∃ moved,
    moved.Sublist names
    ∧ ∀ place,
        place ≠ .nowhere
        → next.row place = forest.row place ++ if place = target then moved else []

theorem Extends.of_rows (names : List String)
    (same : ∀ place, place ≠ .nowhere → next.row place = forest.row place)
    : Extends forest next target names :=
  ⟨[], List.nil_sublist _, by simpa using same⟩

theorem Extends.cons {middle : Forest} {names : List String}
    (first : Extends forest middle target [name]) (rest : Extends middle next target names)
    : Extends forest next target (name :: names) := by
  obtain ⟨moved, sublist, rows⟩ := first
  obtain ⟨later, laterSublist, laterRows⟩ := rest
  refine ⟨moved ++ later, sublist.append laterSublist, fun place stands => ?_⟩
  rw [laterRows place stands, rows place stands]
  split <;> simp

/-- A node that stands nowhere comes to the end of a row. -/
theorem row_moveLast (distinct : forest.longnames.Nodup) (memberof : Option String)
    (found : forest.find? name = some node) (loose : node.place = .nowhere)
    (stands : place ≠ .nowhere)
    : (forest.moveLast name fun node => settled node target memberof).row place
      = forest.row place ++ if place = target then [name] else [] := by
  rw [row, standingAt_moveLast distinct found (loose ▸ Ne.symm stands), List.map_append, row]
  congr 1
  have comes : (settled node target memberof).place = target := rfl
  by_cases here : place = target
  · simp [here, comes, longname_of_find? found]
  · simp [here, comes, Ne.symm here]

theorem extends_moveLast (distinct : forest.longnames.Nodup) (memberof : Option String)
    (loose : forest.stands name = false)
    : Extends forest (forest.moveLast name fun node => settled node target memberof) target
        [name] := by
  cases found : forest.find? name with
  | none =>
      rw [moveLast, found]
      exact .of_rows _ fun _ _ => rfl
  | some node =>
      have nodeLoose : node.place = .nowhere := by simpa [Forest.stands, found] using loose
      exact ⟨[name], .refl _, fun place stands =>
        row_moveLast distinct memberof found nodeLoose stands⟩

theorem extends_addRoots (sound : forest.Sound) (names : List String)
    : Extends forest (forest.addRoots names) .root names := by
  induction names generalizing forest with
  | nil => exact .of_rows _ fun _ _ => rfl
  | cons name names ih =>
      have first : Extends forest (forest.addRoot name) .root [name] := by
        unfold addRoot
        split
        · exact .of_rows _ fun _ _ => rfl
        · rename_i loose
          exact extends_moveLast sound.distinct none (by simpa using loose)
      exact first.cons (ih ((addRoot_changes forest name).sound sound))

theorem extends_attach (sound : forest.Sound) (parent name : String)
    : Extends forest (forest.attach parent name) (.under parent) [name] := by
  unfold attach
  split
  · exact .of_rows _ fun _ _ => rfl
  · rename_i loose
    split
    · exact .of_rows _ fun _ _ => rfl
    · exact extends_moveLast sound.distinct (some parent) (by simpa using loose)

theorem extends_attachAll (sound : forest.Sound) (known : forest.has parent = true)
    (names : List String)
    : Extends forest (forest.attachAll parent names) (.under parent) names := by
  induction names generalizing forest with
  | nil => exact .of_rows _ fun _ _ => rfl
  | cons name names ih =>
      have knownNext : (forest.attach parent name).has parent = true := by rwa [has_attach]
      exact (extends_attach sound parent name).cons (ih (attach_sound sound known) knownNext)

/-- A static member stays in its row or, if it stands under its owner, is taken from that and may
come to the end of the row of the container.
-/
theorem row_moveStatic (sound : forest.Sound) (owner container name : String)
    : (∀ place,
        place ≠ .nowhere → (moveStatic owner container forest name).row place = forest.row place)
      ∨ forest.StandsUnder name owner
        ∧ ∃ moved,
            moved.Sublist [name]
            ∧ ∀ place,
                place ≠ .nowhere
                → (moveStatic owner container forest name).row place
                  = (forest.row place).filter (· != name)
                    ++ if place = .under container then moved else [] := by
  have renamedSound := Change.sound (.rename name container) sound
  have renamedRow (place : Place)
      : (forest.modify name fun node => node.withMemberof (some container)).row place
        = forest.row place :=
    row_modify sound.distinct (by simp) fun _ => rfl
  have sameParent
      : (forest.modify name fun node => node.withMemberof (some container)).parent? name
        = forest.parent? name := by
    rw [parent?, parent?, find?_modify (by simp), if_pos rfl]
    cases forest.find? name <;> rfl
  unfold Forest.moveStatic
  dsimp only
  split
  · rename_i under
    refine .inr ⟨sameParent.symm.trans under, ?_⟩
    obtain ⟨moved, sublist, rows⟩ :=
      extends_attach (Change.sound (.detach name) renamedSound) container name
    refine ⟨moved, sublist, fun place stands => ?_⟩
    rw [rows place stands, row_detach _ name stands, renamedRow]
  · exact .inl fun place _ => renamedRow place

end Typings.Forest
