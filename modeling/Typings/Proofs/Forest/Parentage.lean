import Typings.Proofs.Forest.Located

/-! A node among the roots names no parent in its doclet, and a node under another one names some.
For the node of a doclet that follows from where linking puts it. A helper is given a name for its
parent whenever it is put to a place, and only doclets are renamed after that.
-/

namespace Typings

/-- The parent that a node names agrees with its place, once it stands somewhere. -/
def Node.NamesPlace (node : Node) : Prop :=
  match node.place with
  | .nowhere => True
  | .root => node.doclet.memberof = none
  | .under parent => node.doclet.memberof = some parent

namespace Forest

/-- Every helper that stands somewhere names the node that it stands under, and none as a root. -/
def HelpersName (forest : Forest) : Prop :=
  ∀ name node, forest.find? name = some node → node.isHelper = true → node.NamesPlace

/-- The nodes `names` are there and are no helpers. -/
def Owns (names : List String) (forest : Forest) : Prop :=
  ∀ name ∈ names, ∃ node, forest.find? name = some node ∧ node.isHelper = false

variable {forest next : Forest} {names members helpers : List String} {name parent : String}
variable {node : Node} {owner doclet : Doclet}

theorem Owns.changes (owns : Owns names forest) (changes : Changes forest next)
    : Owns names next := by
  intro name listed
  obtain ⟨old, oldFound, plain⟩ := owns name listed
  obtain ⟨node, found, role, -⟩ := changes.keeps oldFound
  exact ⟨node, found, by rw [Node.isHelper, role]; exact plain⟩

-----------------------------------------------------------------------------------------
-- Putting nodes to their places
-----------------------------------------------------------------------------------------

theorem isHelper_settled (node : Node) (place : Place) (memberof : Option String)
    : (settled node place memberof).isHelper = node.isHelper := by
  unfold settled
  split <;> rfl

theorem HelpersName.moveLast {place : Place} {memberof : Option String}
    (named : forest.HelpersName)
    (agrees
      : ∀ node : Node, node.isHelper = true → (settled node place memberof).NamesPlace)
    : (forest.moveLast name fun node => settled node place memberof).HelpersName := by
  intro other node found helper
  rw [find?_moveLast (by simp)] at found
  split at found
  · obtain ⟨old, -, rfl⟩ := Option.map_eq_some_iff.mp found
    exact agrees old (isHelper_settled old place memberof ▸ helper)
  · exact named _ _ found helper

theorem HelpersName.addRoot (named : forest.HelpersName) (name : String)
    : (forest.addRoot name).HelpersName := by
  unfold Forest.addRoot
  split
  · exact named
  · refine named.moveLast fun node helper => ?_
    rw [settled, if_pos helper]
    rfl

theorem HelpersName.addRoots (named : forest.HelpersName) (names : List String)
    : (forest.addRoots names).HelpersName := by
  induction names generalizing forest with
  | nil => exact named
  | cons name names ih => exact ih (named.addRoot name)

theorem HelpersName.attach (named : forest.HelpersName) (parent name : String)
    : (forest.attach parent name).HelpersName := by
  unfold Forest.attach
  split
  · exact named
  · split
    · exact named
    · refine named.moveLast fun node helper => ?_
      rw [settled, if_pos helper]
      rfl

theorem HelpersName.attachAll (named : forest.HelpersName) (parent : String) (names : List String)
    : (forest.attachAll parent names).HelpersName := by
  induction names generalizing forest with
  | nil => exact named
  | cons name names ih => exact ih (named.attach parent name)

-----------------------------------------------------------------------------------------
-- Adding helpers and moving static members
-----------------------------------------------------------------------------------------

theorem HelpersName.add (named : forest.HelpersName) (loose : node.place = .nowhere)
    : (forest.add node).HelpersName := by
  intro name other found helper
  rw [find?_add, Option.or_eq_some_iff] at found
  rcases found with old | ⟨-, new⟩
  · exact named _ _ old helper
  · obtain ⟨-, ⟨⟩⟩ := Option.ite_none_right_eq_some.mp new
    rw [Node.NamesPlace, loose]
    trivial

theorem HelpersName.modify {change : Node → Node} (named : forest.HelpersName)
    (keeps : ∀ node, (change node).longname = node.longname)
    (agrees
      : ∀ node,
          forest.find? name = some node
          → (change node).isHelper = true
          → (change node).NamesPlace)
    : (forest.modify name change).HelpersName := by
  intro other node found helper
  rw [find?_modify keeps] at found
  split at found
  · rename_i same
    subst same
    obtain ⟨old, oldFound, rfl⟩ := Option.map_eq_some_iff.mp found
    exact agrees old oldFound helper
  · exact named _ _ found helper

theorem HelpersName.rename (named : forest.HelpersName)
    (plain : ∃ node, forest.find? name = some node ∧ node.isHelper = false) (container : String)
    : (forest.modify name fun node => node.withMemberof (some container)).HelpersName := by
  refine named.modify (by simp) fun node found helper => ?_
  obtain ⟨other, otherFound, noHelper⟩ := plain
  cases found.symm.trans otherFound
  exact absurd (noHelper.symm.trans helper) (by simp)

theorem HelpersName.detach (named : forest.HelpersName) (name : String)
    : (forest.detach name).HelpersName := by
  refine named.modify (by intro _; rfl) fun node _ _ => ?_
  trivial

theorem HelpersName.addInterface (named : forest.HelpersName) (owner : Doclet)
    : (forest.addInterface owner).1.HelpersName := by
  unfold Forest.addInterface
  dsimp only
  split
  · exact named
  · exact named.add rfl

theorem HelpersName.moveStatic (named : forest.HelpersName) (owner container : String)
    (plain : ∃ node, forest.find? name = some node ∧ node.isHelper = false)
    : (moveStatic owner container forest name).HelpersName := by
  have renamed := named.rename plain container
  unfold Forest.moveStatic
  dsimp only
  split
  · exact (renamed.detach name).attach container name
  · exact renamed

theorem HelpersName.moveAll (named : forest.HelpersName) (owner : String)
    (known : forest.has (namespaceHelper owner) = true) (owns : Owns members forest)
    : (members.foldl (Forest.moveStatic owner (namespaceHelper owner)) forest).HelpersName := by
  induction members generalizing forest with
  | nil => exact named
  | cons name members ih =>
      have changes
          : Changes forest (Forest.moveStatic owner (namespaceHelper owner) forest name) :=
        moveStatic_changes known
      obtain ⟨first, others⟩ := List.forall_mem_cons.mp owns
      exact ih (named.moveStatic owner _ first) (changes.has known)
        (Owns.changes others changes)

theorem HelpersName.moveStatics (named : forest.HelpersName) (owns : Owns names forest)
    (owner : Doclet)
    : (forest.moveStatics names owner).HelpersName := by
  have members : Owns (forest.statics names owner.longname) forest :=
    fun name listed => owns name (List.mem_filter.mp listed).1
  unfold Forest.moveStatics
  dsimp only
  split
  · exact named
  · split
    · rename_i known
      exact named.moveAll owner.longname known members
    · rename_i absent
      have added
          : Changes forest (forest.add (namespaceOf owner owner.scope)) :=
        .single (.add (.namespace owner owner.scope) (find?_of_not_has absent))
      exact HelpersName.moveAll (named.add rfl) owner.longname has_add (members.changes added)

theorem HelpersName.companion {owner : Node} (named : forest.HelpersName)
    (found : forest.find? owner.longname = some owner)
    : (forest.companion owner).1.HelpersName := by
  unfold Forest.companion
  dsimp only
  split
  · exact named
  · rename_i absent
    split
    · exact named.add rfl
    · intro name node nodeFound helper
      rw [find?_addBehind_namespaceOf found (find?_of_not_has absent)] at nodeFound
      split at nodeFound
      · cases nodeFound
        unfold Node.NamesPlace beside
        cases owner.place <;> trivial
      · exact named _ _ nodeFound helper

-----------------------------------------------------------------------------------------
-- Linking
-----------------------------------------------------------------------------------------

theorem HelpersName.linkUnder (named : forest.HelpersName)
    (found : forest.find? node.longname = some node) (helpers : List String) (doclet : Doclet)
    : (forest.linkUnder node helpers doclet).HelpersName := by
  unfold Forest.linkUnder
  split
  · exact (named.companion found).attachAll _ _
  · split
    · exact named.addRoots helpers
    · dsimp only
      refine HelpersName.attachAll ?_ _ _
      split
      · refine named.modify (by intro _; rfl) fun other otherFound helper => ?_
        have same : other.NamesPlace := named _ other otherFound helper
        exact same
      · exact named

theorem HelpersName.link (named : forest.HelpersName) (owns : Owns names forest) (name : String)
    : (link names forest name).HelpersName := by
  unfold Forest.link
  split
  · exact named
  · rename_i node found
    have helped : (forest.addHelpers names node.doclet).1.HelpersName :=
      (named.addInterface node.doclet).moveStatics
        (owns.changes (addInterface_changes forest node.doclet)) node.doclet
    dsimp only
    split
    · exact helped.addRoots _
    · split
      · exact helped
      · rename_i parent parentFound
        refine helped.linkUnder ?_ _ _
        rw [longname_of_find? parentFound]
        exact parentFound

theorem helpersName_links (named : forest.HelpersName) (owns : Owns names forest)
    (linked : List String)
    : (linked.foldl (Forest.link names) forest).HelpersName := by
  induction linked generalizing forest with
  | nil => exact named
  | cons name linked ih =>
      exact ih (named.link owns name) (owns.changes (link_changes names forest name))

theorem helpersName_ofDoclets (settings : Settings) (doclets : List Doclet)
    : (ofDoclets settings doclets).HelpersName := by
  have distinct := nodup_survivors settings doclets
  refine helpersName_links ?_ ?_ _
  · intro name node found helper
    obtain ⟨doclet, -, rfl⟩ := mem_nodes_scattered.mp (mem_of_find? found)
    cases helper
  · intro name listed
    obtain ⟨doclet, member, rfl⟩ := List.mem_map.mp listed
    exact ⟨_, find?_scattered distinct member, rfl⟩

-----------------------------------------------------------------------------------------
-- Plain doclets
-----------------------------------------------------------------------------------------

theorem Own.memberof_of_place {doclets : List Doclet} {progress : Progress} {trouble : Prop}
    (own : Own doclets progress trouble doclet node) (placed : doclet.longname ∈ progress.placed)
    : (node.place = .root → node.doclet.memberof = none ∧ node.nested = false)
      ∧ ∀ parent, node.place = .under parent → node.doclet.memberof ≠ none := by
  have lands := own.situated.placed placed
  obtain ⟨memberof, doclet_eq, named⟩ := own.doclet_eq
  rw [doclet_eq]
  constructor
  · intro place
    rw [place] at lands
    cases lands with
    | root free =>
        have orphan : ∀ parent, ¬ MemberOf doclets doclet parent := by
          rintro parent ⟨-, names⟩
          cases free.symm.trans names
        constructor
        · cases named with
          | own => exact free
          | moved link => exact absurd link (orphan _)
        · rw [Bool.eq_false_iff]
          intro nested
          obtain ⟨-, -, parent, link, -⟩ := own.nested_iff.mp nested
          exact orphan parent link
  · intro parent place
    rw [place] at lands
    cases lands with
    | under joins =>
        cases named with
        | own => simp [joins.1.2]
        | moved => simp

/-- What a node of plain doclets names agrees with where it stands: a root names no parent and is
nested in nothing, and what stands under another node names a parent.
-/
theorem memberof_of_place (settings : Settings) {doclets : List Doclet} (plain : Plain doclets)
    (member : node ∈ (ofDoclets settings doclets).nodes)
    : (node.place = .root → node.doclet.memberof = none ∧ node.nested = false)
      ∧ ∀ parent, node.place = .under parent → node.doclet.memberof ≠ none := by
  have settled := settled_ofDoclets settings plain
  have distinct := nodup_survivors settings doclets
  have found := find?_of_mem settled.sound.distinct member
  by_cases listed : node.longname ∈ (survivors settings doclets).map Doclet.longname
  · obtain ⟨doclet, docletMember, same⟩ := List.mem_map.mp listed
    obtain ⟨own, ownFound, isOwn⟩ := settled.charted.own doclet docletMember
    rw [same] at ownFound
    cases ownFound.symm.trans found
    exact isOwn.memberof_of_place (longname_mem_reverse docletMember)
  · obtain ⟨owner, ownerMember, kin⟩ := settled.charted.helper found listed
    have helper : node.isHelper = true := by
      cases kin.serves with
      | interface _ _ _ same | «namespace» _ _ same => rw [Node.isHelper, same.1]; rfl
    have names := helpersName_ofDoclets settings doclets _ _ found helper
    rw [Node.NamesPlace] at names
    constructor
    · intro place
      rw [place] at names
      exact ⟨names, kin.nested⟩
    · intro parent place
      rw [place] at names
      simp [names]

end Forest

end Typings
