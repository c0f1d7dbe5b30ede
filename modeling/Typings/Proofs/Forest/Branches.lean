import Typings.Forest.Branch
import Typings.Proofs.Forest.Standing

/-! The branches of a sound forest are whole: none is cut off at its limit, and each node is in
them exactly once if it stands under a root.
-/

namespace Typings

open Relation

mutual
/-- A branch and all branches in it, each before those under it. -/
def Branch.within : Branch → List Branch
  | ⟨node, branches⟩ => ⟨node, branches⟩ :: Branch.withinAll branches

/-- Branches and all branches in them. -/
def Branch.withinAll : List Branch → List Branch
  | [] => []
  | branch :: branches => Branch.within branch ++ Branch.withinAll branches
end

/-- The longname of the node that a branch starts from. -/
def Branch.longname (branch : Branch) : String :=
  branch.node.longname

theorem Branch.withinAll_eq (branches : List Branch)
    : Branch.withinAll branches = branches.flatMap Branch.within := by
  induction branches with
  | nil => rfl
  | cons branch branches ih => simp [Branch.withinAll, ih]

theorem Branch.within_eq (branch : Branch)
    : branch.within = branch :: Branch.withinAll branch.branches := by
  cases branch
  rw [Branch.within]

namespace Forest

/-- The branch of a node with all that stands under the node. -/
def whole (forest : Forest) (node : Node) : Branch :=
  forest.branch forest.nodes.length node

variable {forest : Forest} {name : String} {node child : Node} {branch : Branch}

theorem mem_children {parent : String}
    : child ∈ forest.children parent ↔ child ∈ forest.nodes ∧ child.place = .under parent :=
  mem_standingAt

theorem mem_roots : node ∈ forest.roots ↔ node ∈ forest.nodes ∧ node.place = .root :=
  mem_standingAt

theorem standsUnder_of_mem_children (sound : forest.Sound) {parent : String}
    (member : child ∈ forest.children parent)
    : forest.StandsUnder child.longname parent := by
  obtain ⟨known, place⟩ := mem_children.mp member
  exact parent?_eq_some_iff.mpr ⟨child, find?_of_mem sound.distinct known, place⟩

theorem exists_child (sound : forest.Sound) {parent : String}
    (under : forest.StandsUnder name parent)
    : ∃ child ∈ forest.children parent, child.longname = name :=
  List.mem_map.mp (sound.parent?_iff.mp under)

theorem length_above_child (sound : forest.Sound)
    (member : child ∈ forest.children node.longname)
    : (forest.above child.longname).length = (forest.above node.longname).length + 1 := by
  have link : forest.parent? child.longname = some node.longname :=
    standsUnder_of_mem_children sound member
  rw [above_eq sound, link, List.length_cons]

theorem length_above_le (sound : forest.Sound) (member : node ∈ forest.nodes)
    : (forest.above node.longname).length ≤ forest.nodes.length :=
  length_lineage_le sound (List.mem_map_of_mem member) _

/-- What holds of a node if it holds of its children holds of every node.
Witness: every child is further down, and no node is further down than there are nodes.
-/
theorem Sound.children_induction (sound : forest.Sound)
    {motive : (node : Node) → node ∈ forest.nodes → Prop}
    (step
      : ∀ node member,
          (∀ child (listed : child ∈ forest.children node.longname),
            motive child (mem_children.mp listed).1)
          → motive node member)
    (node : Node) (member : node ∈ forest.nodes)
    : motive node member := by
  induction h : forest.nodes.length - (forest.above node.longname).length using Nat.strongRecOn
    generalizing node with
  | ind room ih =>
    refine step node member fun child listed => ?_
    have known := (mem_children.mp listed).1
    have below := length_above_child sound listed
    have bound := length_above_le sound known
    exact ih _ (by omega) child known rfl

/-- A limit that leaves room for all nodes below does not cut a branch off. -/
theorem branch_succ (sound : forest.Sound) (member : node ∈ forest.nodes) {limit : Nat}
    (room : forest.nodes.length ≤ limit + (forest.above node.longname).length)
    : forest.branch (limit + 1) node = forest.branch limit node := by
  induction limit generalizing node with
  | zero =>
      have childless : forest.children node.longname = [] := by
        apply List.eq_nil_iff_forall_not_mem.mpr
        intro child childMember
        have below := length_above_child sound childMember
        have bound := length_above_le sound (mem_children.mp childMember).1
        omega
      simp [branch, childless]
  | succ limit ih =>
      simp only [branch, Branch.mk.injEq, true_and]
      apply List.map_congr_left
      intro child childMember
      have below := length_above_child sound childMember
      exact ih (mem_children.mp childMember).1 (by omega)

/-- A whole branch is its node with the whole branches of the children. -/
theorem whole_eq (sound : forest.Sound) (member : node ∈ forest.nodes)
    : forest.whole node
      = ⟨node, (forest.children node.longname).map forest.whole⟩ := by
  rw [whole, ← branch_succ sound member (Nat.le_add_right _ _)]
  rfl

theorem branches_eq (forest : Forest) : forest.branches = forest.roots.map forest.whole := rfl

@[simp]
theorem node_whole (forest : Forest) (node : Node) : (forest.whole node).node = node := by
  unfold whole
  cases forest.nodes.length <;> rfl

@[simp]
theorem longname_whole (forest : Forest) (node : Node)
    : (forest.whole node).longname = node.longname := by
  simp [Branch.longname]

theorem within_whole (sound : forest.Sound) (member : node ∈ forest.nodes)
    : (forest.whole node).within
      = forest.whole node
        :: (forest.children node.longname).flatMap fun child => (forest.whole child).within := by
  conv_lhs => rw [whole_eq sound member]
  rw [Branch.within, ← whole_eq sound member, Branch.withinAll_eq, List.flatMap_map]

-----------------------------------------------------------------------------------------
-- Which nodes are in a branch
-----------------------------------------------------------------------------------------

/-- Every branch in a whole branch is a whole branch itself, of a node that is there. -/
theorem whole_of_mem_within (sound : forest.Sound) (member : node ∈ forest.nodes)
    (inside : branch ∈ (forest.whole node).within)
    : branch.node ∈ forest.nodes ∧ branch = forest.whole branch.node := by
  induction node, member using sound.children_induction with
  | step node member ih =>
    rw [within_whole sound member] at inside
    rcases List.mem_cons.mp inside with rfl | deeper
    · simp [member]
    · obtain ⟨child, childMember, inChild⟩ := List.mem_flatMap.mp deeper
      exact ih child childMember inChild

/-- Exactly what stands under a node is in its branch, besides the node itself. -/
theorem mem_within_iff (sound : forest.Sound) (member : node ∈ forest.nodes)
    : name ∈ (forest.whole node).within.map Branch.longname
      ↔ ReflTransGen forest.StandsUnder name node.longname := by
  induction node, member using sound.children_induction with
  | step node member ih =>
    rw [within_whole sound member, List.map_cons, List.mem_cons, longname_whole, List.map_flatMap,
      List.mem_flatMap]
    constructor
    · rintro (rfl | ⟨child, childMember, inChild⟩)
      · exact .refl
      · exact ((ih child childMember).mp inChild).tail
          (standsUnder_of_mem_children sound childMember)
    · intro line
      rcases ReflTransGen.cases_tail line with same | ⟨upper, lower, last⟩
      · exact .inl same.symm
      · obtain ⟨child, childMember, rfl⟩ := exists_child sound last
        exact .inr ⟨child, childMember, (ih child childMember).mpr lower⟩

/-- Two nodes above one are the same if neither stands under the other. -/
theorem eq_of_common_line {left right : String}
    (toLeft : ReflTransGen forest.StandsUnder name left)
    (toRight : ReflTransGen forest.StandsUnder name right)
    (leftApart : ¬ TransGen forest.StandsUnder left right)
    (rightApart : ¬ TransGen forest.StandsUnder right left)
    : left = right := by
  have functional : Relator.RightUnique forest.StandsUnder :=
    fun _ _ _ first second => first.unique second
  rcases toLeft.total_of_right_unique functional toRight with line | line
  · rcases reflTransGen_iff_eq_or_transGen.mp line with same | strict
    · exact same.symm
    · exact absurd strict leftApart
  · rcases reflTransGen_iff_eq_or_transGen.mp line with same | strict
    · exact same
    · exact absurd strict rightApart

/-- The branches of nodes that do not stand under each other have no node in common. -/
theorem nodup_flatMap_within (sound : forest.Sound) {nodes : List Node}
    (known : ∀ node ∈ nodes, node ∈ forest.nodes)
    (each : ∀ node ∈ nodes, ((forest.whole node).within.map Branch.longname).Nodup)
    (distinct : (nodes.map Node.longname).Nodup)
    (apart
      : ∀ left ∈ nodes,
          ∀ right ∈ nodes, ¬ TransGen forest.StandsUnder left.longname right.longname)
    : ((nodes.flatMap fun node => (forest.whole node).within).map Branch.longname).Nodup := by
  rw [List.map_flatMap, List.nodup_flatMap]
  refine ⟨each, (List.pairwise_map.mp distinct).imp_of_mem ?_⟩
  intro left right leftMember rightMember different name inLeft inRight
  exact different (eq_of_common_line
    ((mem_within_iff sound (known left leftMember)).mp inLeft)
    ((mem_within_iff sound (known right rightMember)).mp inRight)
    (apart left leftMember right rightMember) (apart right rightMember left leftMember))

theorem siblings_apart (sound : forest.Sound) {parent left right : String}
    (leftUnder : forest.StandsUnder left parent) (rightUnder : forest.StandsUnder right parent)
    : ¬ TransGen forest.StandsUnder left right := by
  intro line
  obtain ⟨upper, step, rest⟩ := TransGen.head'_iff.mp line
  cases leftUnder.unique step
  exact sound.acyclic (.tail' rest rightUnder)

theorem nodup_within (sound : forest.Sound) (member : node ∈ forest.nodes)
    : ((forest.whole node).within.map Branch.longname).Nodup := by
  induction node, member using sound.children_induction with
  | step node member ih =>
    rw [within_whole sound member, List.map_cons, List.nodup_cons, longname_whole]
    constructor
    · intro again
      rw [List.map_flatMap] at again
      obtain ⟨child, childMember, inChild⟩ := List.mem_flatMap.mp again
      have line := (mem_within_iff sound (mem_children.mp childMember).1).mp inChild
      exact sound.acyclic (.tail' line (standsUnder_of_mem_children sound childMember))
    · refine nodup_flatMap_within sound (fun child childMember => (mem_children.mp childMember).1)
        ih (sound.nodup_standingAt _) fun left leftMember right rightMember => ?_
      exact siblings_apart sound (standsUnder_of_mem_children sound leftMember)
        (standsUnder_of_mem_children sound rightMember)

theorem nodup_branches (sound : forest.Sound)
    : ((forest.branches.flatMap Branch.within).map Branch.longname).Nodup := by
  rw [branches_eq, List.flatMap_map]
  refine nodup_flatMap_within sound (fun root member => (mem_roots.mp member).1)
    (fun root member => nodup_within sound (mem_roots.mp member).1)
    (sound.nodup_standingAt _) fun left leftMember right _ line => ?_
  obtain ⟨upper, step, _⟩ := TransGen.head'_iff.mp line
  have free := sound.parent?_of_root (List.mem_map_of_mem leftMember)
  exact absurd (free.symm.trans step) nofun

/-- Exactly the nodes with a root above them are in the branches. -/
theorem mem_branches_iff (sound : forest.Sound)
    : name ∈ (forest.branches.flatMap Branch.within).map Branch.longname
      ↔ ∃ root ∈ forest.roots, ReflTransGen forest.StandsUnder name root.longname := by
  rw [branches_eq, List.flatMap_map, List.map_flatMap, List.mem_flatMap]
  constructor
  · rintro ⟨root, member, inside⟩
    exact ⟨root, member, (mem_within_iff sound (mem_roots.mp member).1).mp inside⟩
  · rintro ⟨root, member, line⟩
    exact ⟨root, member, (mem_within_iff sound (mem_roots.mp member).1).mpr line⟩

/-- The longnames of the nodes in the branches. -/
def reachable (forest : Forest) : List String :=
  (forest.branches.flatMap Branch.within).map Branch.longname

theorem mem_reachable_iff (sound : forest.Sound)
    : name ∈ forest.reachable
      ↔ ∃ top root,
          forest.find? top = some root
          ∧ root.place = .root
          ∧ ReflTransGen forest.StandsUnder name top := by
  rw [reachable, mem_branches_iff sound]
  constructor
  · rintro ⟨root, isRoot, line⟩
    obtain ⟨known, place⟩ := mem_roots.mp isRoot
    exact ⟨_, root, find?_of_mem sound.distinct known, place, line⟩
  · rintro ⟨top, root, found, place, line⟩
    refine ⟨root, mem_roots.mpr ⟨mem_of_find? found, place⟩, ?_⟩
    rwa [longname_of_find? found]

/-- What a reachable node stands under is reachable. -/
theorem reachable_of_standsUnder (sound : forest.Sound) {parent : String}
    (reached : name ∈ forest.reachable) (under : forest.StandsUnder name parent)
    : parent ∈ forest.reachable := by
  obtain ⟨top, root, found, place, line⟩ := (mem_reachable_iff sound).mp reached
  refine (mem_reachable_iff sound).mpr ⟨top, root, found, place, ?_⟩
  rcases ReflTransGen.cases_head line with rfl | ⟨upper, first, rest⟩
  · obtain ⟨node, nodeFound, nodePlace⟩ := parent?_eq_some_iff.mp under
    cases nodeFound.symm.trans found
    cases nodePlace.symm.trans place
  · exact first.unique under ▸ rest

/-- What stands under a reachable node is reachable. -/
theorem reachable_of_above (sound : forest.Sound) {parent : String}
    (reached : parent ∈ forest.reachable) (under : forest.StandsUnder name parent)
    : name ∈ forest.reachable := by
  obtain ⟨top, root, found, place, line⟩ := (mem_reachable_iff sound).mp reached
  exact (mem_reachable_iff sound).mpr ⟨top, root, found, place, .head under line⟩

theorem root_reachable (sound : forest.Sound) (member : node ∈ forest.roots)
    : node.longname ∈ forest.reachable := by
  obtain ⟨known, place⟩ := mem_roots.mp member
  exact (mem_reachable_iff sound).mpr ⟨_, node, find?_of_mem sound.distinct known, place, .refl⟩

theorem place_ne_nowhere (sound : forest.Sound) (reached : name ∈ forest.reachable)
    (found : forest.find? name = some node)
    : node.place ≠ .nowhere := by
  obtain ⟨top, root, rootFound, place, line⟩ := (mem_reachable_iff sound).mp reached
  rcases ReflTransGen.cases_head line with rfl | ⟨upper, first, _⟩
  · cases rootFound.symm.trans found
    simp [place]
  · obtain ⟨other, otherFound, otherPlace⟩ := parent?_eq_some_iff.mp first
    cases otherFound.symm.trans found
    simp [otherPlace]

theorem whole_of_mem_branches (sound : forest.Sound)
    (inside : branch ∈ forest.branches.flatMap Branch.within)
    : branch.node ∈ forest.nodes ∧ branch = forest.whole branch.node := by
  rw [branches_eq, List.flatMap_map] at inside
  obtain ⟨root, member, inRoot⟩ := List.mem_flatMap.mp inside
  exact whole_of_mem_within sound (mem_roots.mp member).1 inRoot

/-- If all nodes stand somewhere, each is in the branches exactly once. -/
theorem count_branches (sound : forest.Sound)
    (placed : ∀ node ∈ forest.nodes, node.place ≠ .nowhere) (known : forest.has name = true)
    : ((forest.branches.flatMap Branch.within).map Branch.longname).count name = 1 := by
  apply List.count_eq_one_of_mem (nodup_branches sound)
  obtain ⟨top, _, free, line⟩ := exists_top sound name
  have topKnown : forest.has top = true := by
    rcases ReflTransGen.cases_tail line with same | ⟨lower, _, last⟩
    · exact same ▸ known
    · exact sound.parents last
  obtain ⟨node, found⟩ := has_iff.mp topKnown
  have member := mem_of_find? found
  refine (mem_branches_iff sound).mpr ⟨node, mem_roots.mpr ⟨member, ?_⟩, ?_⟩
  · cases place : node.place with
    | nowhere => exact absurd place (placed node member)
    | root => rfl
    | under parent => simp [parent?, found, place] at free
  · rwa [longname_of_find? found]

end Forest

end Typings
