import Mathlib.Data.List.Nodup
import Typings.Forest.Link

/-! Finding nodes by their longnames, before and after each change to a forest. -/

namespace Typings

@[simp]
theorem Node.longname_withMemberof (node : Node) (memberof : Option String)
    : (node.withMemberof memberof).longname = node.longname := rfl

namespace Forest

@[simp]
theorem longname_settled (node : Node) (place : Place) (memberof : Option String)
    : (settled node place memberof).longname = node.longname := by
  unfold settled
  split <;> rfl

@[simp]
theorem nested_settled (node : Node) (place : Place) (memberof : Option String)
    : (settled node place memberof).nested = node.nested := by
  unfold settled
  split <;> rfl

/-- A node that helps no other one keeps its doclet wherever it comes to stand. -/
theorem settled_of_role {node : Node} (role : node.role = none) (place : Place)
    (memberof : Option String)
    : settled node place memberof = { node with place } := by
  simp [settled, Node.isHelper, role]

theorem doclet_settled {node : Node} (role : node.role = none) (place : Place)
    (memberof : Option String)
    : (settled node place memberof).doclet = node.doclet := by
  rw [settled_of_role role]

/-- The longnames of all nodes. -/
def longnames (forest : Forest) : List String :=
  forest.nodes.map Node.longname

variable {forest : Forest} {name other : String} {node : Node}

theorem longname_of_find? (found : forest.find? name = some node) : node.longname = name := by
  simpa using List.find?_some found

theorem mem_of_find? (found : forest.find? name = some node) : node ∈ forest.nodes :=
  List.mem_of_find?_eq_some found

theorem find?_eq_none_iff : forest.find? name = none ↔ name ∉ forest.longnames := by
  simp [find?, longnames]

theorem has_iff : forest.has name = true ↔ ∃ node, forest.find? name = some node :=
  Option.isSome_iff_exists

theorem has_iff_mem : forest.has name = true ↔ name ∈ forest.longnames := by
  rw [has, Option.isSome_iff_ne_none, ne_eq, find?_eq_none_iff, not_not]

theorem has_of_find? (found : forest.find? name = some node) : forest.has name = true :=
  has_iff.mpr ⟨node, found⟩

theorem find?_of_not_has (absent : ¬ forest.has name = true) : forest.find? name = none := by
  simpa [has] using absent

/-- A node is found by its longname when no other node has the same one. -/
theorem find?_of_mem (distinct : forest.longnames.Nodup) (member : node ∈ forest.nodes)
    : forest.find? node.longname = some node := by
  obtain ⟨found, isFound⟩ := has_iff.mp
    (has_iff_mem.mpr (List.mem_map_of_mem member : node.longname ∈ forest.longnames))
  have same : found = node :=
    List.inj_on_of_nodup_map distinct (mem_of_find? isFound) member (longname_of_find? isFound)
  exact same ▸ isFound

theorem parent?_eq_some_iff {parent : String}
    : forest.parent? name = some parent
      ↔ ∃ node, forest.find? name = some node ∧ node.place = .under parent := by
  unfold parent?
  cases forest.find? name with
  | none => simp
  | some node => cases h : node.place <;> simp [h]

theorem stands_iff
    : forest.stands name = true
      ↔ ∃ node, forest.find? name = some node ∧ node.place ≠ .nowhere := by
  unfold stands
  cases forest.find? name <;> simp

theorem stands_eq_false (found : forest.find? name = some node) (loose : node.place = .nowhere)
    : forest.stands name = false := by
  simp [stands, found, loose]

@[simp]
theorem warnings_warn (warning : Warning)
    : (forest.warn warning).warnings = forest.warnings ++ [warning] := rfl

/-! ### New nodes -/

@[simp]
theorem longnames_add : (forest.add node).longnames = forest.longnames ++ [node.longname] := by
  simp [add, longnames]

theorem find?_add
    : (forest.add node).find? name
      = (forest.find? name).or (if node.longname = name then some node else none) := by
  by_cases same : node.longname = name <;>
    simp [add, find?, List.find?_append, same]

theorem find?_add_of_fresh (fresh : forest.find? node.longname = none)
    : (forest.add node).find? name
      = if name = node.longname then some node else forest.find? name := by
  rw [find?_add]
  split
  · rename_i same
    simp [← same, fresh]
  · rename_i different
    simp [Ne.symm different]

theorem has_add : (forest.add node).has node.longname = true :=
  has_iff_mem.mpr (by simp)

/-! ### Changed nodes -/

theorem longnames_modify {change : Node → Node}
    (keeps : ∀ node, (change node).longname = node.longname)
    : (forest.modify name change).longnames = forest.longnames := by
  simp only [longnames, modify, List.map_map]
  apply List.map_congr_left
  intro node _
  by_cases same : node.longname = name <;> simp [same, keeps]

theorem find?_modify {change : Node → Node}
    (keeps : ∀ node, (change node).longname = node.longname)
    : (forest.modify name change).find? other
      = if other = name then (forest.find? other).map change else forest.find? other := by
  have keyed : ((fun node : Node => node.longname == other)
        ∘ fun node => if node.longname == name then change node else node)
      = fun node => node.longname == other := by
    funext node
    by_cases same : node.longname = name <;> simp [same, keeps]
  simp only [find?, modify, List.find?_map, keyed]
  cases found : forest.nodes.find? fun node => node.longname == other with
  | none => simp
  | some node =>
      have same : node.longname = other := longname_of_find? found
      by_cases h : other = name <;> simp [same, h]

/-! ### Moved nodes -/

@[simp]
theorem warnings_moveLast (change : Node → Node)
    : (forest.moveLast name change).warnings = forest.warnings := by
  unfold moveLast
  split <;> rfl

/-- Moving a node changes the order of the longnames only. -/
theorem longnames_moveLast (distinct : forest.longnames.Nodup) {change : Node → Node}
    (keeps : ∀ node, (change node).longname = node.longname)
    : (forest.moveLast name change).longnames.Perm forest.longnames := by
  unfold moveLast
  split
  · exact .rfl
  · rename_i node found
    have member : name ∈ forest.longnames := has_iff_mem.mp (has_of_find? found)
    have others : (forest.without name).map Node.longname
        = forest.longnames.filter fun other => other != name := by
      simp only [longnames, without, List.filter_map]
      rfl
    simp only [longnames, List.map_append, List.map_cons, List.map_nil, keeps,
      longname_of_find? found]
    rw [others, ← List.Nodup.erase_eq_filter distinct]
    exact List.perm_append_comm.trans (List.perm_cons_erase member).symm

theorem find?_moveLast {change : Node → Node}
    (keeps : ∀ node, (change node).longname = node.longname)
    : (forest.moveLast name change).find? other
      = if other = name then (forest.find? other).map change else forest.find? other := by
  unfold moveLast
  split
  · rename_i absent
    by_cases same : other = name <;> simp [same, absent]
  · rename_i node found
    have nodeName := longname_of_find? found
    by_cases same : other = name
    · subst same
      have others : (forest.without other).find? (fun node => node.longname == other) = none := by
        simp [without]
      rw [if_pos rfl, found]
      simp [find?, List.find?_append, others, keeps, nodeName]
    · have others : (forest.without name).find? (fun node => node.longname == other)
          = forest.find? other := by
        simp only [without, List.find?_filter, find?]
        congr 1
        funext node
        by_cases h : node.longname = other <;> simp [h, same]
      simp [find?, List.find?_append, others, keeps, nodeName, same, Ne.symm same]

/-! ### Nodes behind others -/

/-- Putting a node behind a listed one splits the list there, by induction on the list. -/
theorem putBehind_split (helper : Node) {nodes : List Node} (member : node ∈ nodes)
    : ∃ before helped after,
        nodes = before ++ helped :: after
        ∧ helped.longname = node.longname
        ∧ putBehind node.longname helper nodes = before ++ helped :: helper :: after := by
  induction nodes with
  | nil => cases member
  | cons first rest ih =>
      by_cases same : first.longname = node.longname
      · exact ⟨[], first, rest, rfl, same, by simp [putBehind, same]⟩
      · have later : node ∈ rest := by
          rcases List.mem_cons.mp member with rfl | later
          · exact absurd rfl same
          · exact later
        obtain ⟨before, helped, after, split, helpedName, put⟩ := ih later
        exact ⟨first :: before, helped, after, by simp [split], helpedName,
          by simp [putBehind, same, put]⟩

/-- A helper as it stands beside the node that it helps. -/
def beside (helped helper : Node) : Node :=
  { helper.withMemberof (match helped.place with | .under parent => some parent | _ => none) with
    place := helped.place }

@[simp]
theorem longname_beside (helped helper : Node)
    : (beside helped helper).longname = helper.longname := rfl

theorem nodes_addBehind (helped helper : Node)
    : (forest.addBehind helped helper).nodes
      = putBehind helped.longname (beside helped helper) forest.nodes := rfl

theorem longnames_addBehind {helper : Node} (member : node ∈ forest.nodes)
    : (forest.addBehind node helper).longnames.Perm (helper.longname :: forest.longnames) := by
  obtain ⟨before, helped, after, split, _, put⟩ := putBehind_split (beside node helper) member
  rw [longnames, nodes_addBehind, put, longnames, split]
  simp only [List.map_append, List.map_cons, longname_beside]
  have moved
      : (before.map Node.longname ++ [helped.longname]
          ++ helper.longname :: after.map Node.longname).Perm
          (helper.longname :: (before.map Node.longname ++ [helped.longname]
            ++ after.map Node.longname)) :=
    List.perm_middle
  simpa using moved

/-- A fresh helper behind a node is found, and all other nodes are found as before. -/
theorem find?_addBehind {helper : Node} (member : node ∈ forest.nodes)
    (fresh : forest.find? helper.longname = none)
    : (forest.addBehind node helper).find? name
      = if name = helper.longname then some (beside node helper) else forest.find? name := by
  obtain ⟨before, helped, after, split, _, put⟩ := putBehind_split (beside node helper) member
  have old : forest.find? name = ((before ++ [helped]).find? fun node => node.longname == name).or
      (after.find? fun node => node.longname == name) := by
    rw [find?, split, ← List.find?_append, List.append_assoc]
    rfl
  have new : (forest.addBehind node helper).find? name
      = ((before ++ [helped]).find? fun node => node.longname == name).or
          ((beside node helper :: after).find? fun node => node.longname == name) := by
    rw [find?, nodes_addBehind, put, ← List.find?_append, List.append_assoc]
    rfl
  rw [new]
  by_cases same : name = helper.longname
  · subst same
    rw [fresh] at old
    simp [(Option.or_eq_none_iff.mp old.symm).1]
  · rw [List.find?_cons_of_neg (by simpa using Ne.symm same), if_neg same, old]

end Forest

end Typings
