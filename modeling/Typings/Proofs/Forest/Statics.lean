import Typings.Proofs.Forest.Branches
import Typings.Proofs.Forest.Located

/-! Static members of interfaces and mixins. In whatever order plain doclets come, no interface or
mixin keeps one: it stands in the namespace beside them, or nowhere if it is on a circle.
-/

namespace Typings.Forest

variable {doclets : List Doclet} {moved : List String} {trouble : Prop} {forest : Forest}
variable {doclet owner : Doclet} {name : String} {node : Node}

-----------------------------------------------------------------------------------------
-- What stands in the body of a doclet
-----------------------------------------------------------------------------------------

/-- What linking has put under a doclet itself belongs to a member that the body of that can hold,
and that has not been renamed.
Witness: all else stands under the namespace of the doclet, which has another longname.
-/
theorem Lands.in_body {role : Option Node.Role} (plain : Plain doclets)
    (distinct : (doclets.map Doclet.longname).Nodup) (member : owner ∈ doclets)
    (lands : Lands doclets moved trouble doclet role (.under owner.longname))
    : MemberOf doclets doclet owner
      ∧ ¬ (owner.kind.isClassLike = true ∧ doclet.leavesClass = true)
      ∧ ¬ Renames moved owner doclet := by
  obtain ⟨parent, joins, held⟩ := lands.joins_of_under
  rcases holder_cases moved parent doclet with body | container
  · have same : owner = parent :=
      eq_of_longname_eq distinct member joins.1.1 (held.trans body)
    subst same
    have notContainer : holder moved owner doclet ≠ namespaceHelper owner.longname :=
      fun container => plain.namespaceHelper_ne member _ (container.symm.trans body)
    exact ⟨joins.1, fun ⟨like, leaves⟩ => notContainer (holder_of_leaves like leaves),
      fun renames => notContainer (holder_of_renames renames)⟩
  · exact absurd (held.trans container).symm (plain.namespaceHelper_ne member _)

/-- A doclet that stands under anything has been put there. -/
theorem Charted.lands_under {progress : Progress} {upper : String}
    (charted : Charted doclets progress trouble forest) (member : doclet ∈ doclets)
    (found : forest.find? doclet.longname = some node) (place : node.place = .under upper)
    : doclet.longname ∈ progress.placed
      ∧ Lands doclets progress.moved trouble doclet none (.under upper) := by
  obtain ⟨ownNode, ownFound, own⟩ := charted.own doclet member
  cases ownFound.symm.trans found
  have placed : doclet.longname ∈ progress.placed := by
    by_contra unplaced
    cases place.symm.trans (own.situated.waiting unplaced)
  exact ⟨placed, place ▸ own.situated.placed placed⟩

/-- A node that is no helper is that of a doclet. -/
theorem SettledUpTo.exists_doclet (settled : Settled doclets forest)
    (found : forest.find? name = some node) (noHelper : node.isHelper = false)
    : ∃ doclet ∈ doclets, doclet.longname = name ∧ node.doclet.kind = doclet.kind := by
  by_cases listed : name ∈ doclets.map Doclet.longname
  · obtain ⟨doclet, member, rfl⟩ := List.mem_map.mp listed
    obtain ⟨ownNode, ownFound, own⟩ := settled.charted.own doclet member
    cases ownFound.symm.trans found
    obtain ⟨_, doclet_eq, -⟩ := own.doclet_eq
    exact ⟨doclet, member, rfl, by rw [doclet_eq]⟩
  · obtain ⟨owner, _, kin⟩ := settled.charted.helper found listed
    cases kin.serves.isHelper.symm.trans noHelper

/-- What stands under an interface or mixin is the node of a member that is not static.
Witness: only classes, interfaces and mixins have helpers, and these go beside their parent.
-/
theorem SettledUpTo.not_static_of_under (settled : Settled doclets forest) (plain : Plain doclets)
    (distinct : (doclets.map Doclet.longname).Nodup) (member : owner ∈ doclets)
    (like : owner.kind.isInterfaceLike = true)
    (under : forest.StandsUnder name owner.longname) (found : forest.find? name = some node)
    : node.doclet.isStatic = false := by
  obtain ⟨doclet, docletMember, belongs⟩ := settled.belongs (has_of_find? found)
  have lands := settled.lands plain distinct docletMember belongs found
  obtain ⟨sameNode, sameFound, place⟩ := parent?_eq_some_iff.mp under
  cases sameFound.symm.trans found
  rw [place] at lands
  obtain ⟨-, notLeaving, unmoved⟩ := lands.in_body plain distinct member
  by_cases isDoclet : name = doclet.longname
  · subst isDoclet
    obtain ⟨ownNode, ownFound, own⟩ := settled.charted.own doclet docletMember
    cases ownFound.symm.trans found
    obtain ⟨memberof, doclet_eq, -⟩ := own.doclet_eq
    have sameScope : node.doclet.isStatic = doclet.isStatic := by
      rw [doclet_eq]
      rfl
    rw [sameScope, Bool.eq_false_iff]
    exact fun static => unmoved ⟨longname_mem_reverse member, like, static⟩
  · have kin := settled.charted.kin_of plain distinct docletMember belongs isDoclet found
    have leaves := leavesClass_of_isClassLike kin.serves.isClassLike
    exact absurd ⟨Doclet.Kind.isClassLike_of_isInterfaceLike like, leaves⟩ notLeaving

/-- A static member of an interface or mixin stands in the namespace beside that, or nowhere if it
is on a circle.
-/
theorem SettledUpTo.place_of_static (settled : Settled doclets forest)
    (distinct : (doclets.map Doclet.longname).Nodup) (member : doclet ∈ doclets)
    (static : StaticOf doclets owner doclet)
    : forest.parent? doclet.longname = some (namespaceHelper owner.longname)
      ∨ forest.stands doclet.longname = false ∧ OnCircle doclets doclet := by
  obtain ⟨node, found, own⟩ := settled.charted.own doclet member
  have lands := own.situated.placed (longname_mem_reverse member)
  generalize place_eq : node.place = place at lands
  cases lands with
  | root free => cases free.symm.trans static.1.2
  | lost names unlisted =>
      cases names.symm.trans static.1.2
      exact absurd (longname_mem static.1.1) unlisted
  | dropped link enum =>
      cases link.unique distinct static.1
      cases enum.symm.trans static.joins.2
  | under joins =>
      left
      cases joins.1.unique distinct static.1
      have renames : Renames (doclets.map Doclet.longname).reverse owner doclet :=
        ⟨longname_mem_reverse static.1.1, static.2⟩
      exact parent?_eq_some_iff.mpr
        ⟨node, found, place_eq.trans (congrArg Place.under (holder_of_renames renames))⟩
  | refused circle _ => exact .inr ⟨stands_eq_false found place_eq, circle⟩

-----------------------------------------------------------------------------------------
-- All interfaces among plain doclets
-----------------------------------------------------------------------------------------

/-- After linking plain doclets, in any order and with whatever circles and missing parents, no
interface or mixin of the input has a static child. Its static members are in the namespace beside
it, but for those on a circle.
-/
theorem interfaces_keep_no_static (settings : Settings) {doclets : List Doclet}
    (plain : Plain doclets)
    : let kept := survivors settings doclets
      let forest := ofDoclets settings doclets
      (∀ node ∈ forest.nodes,
        node.isHelper = false
        → node.doclet.kind.isInterfaceLike = true
        → ∀ child ∈ forest.children node.longname, child.doclet.isStatic = false)
      ∧ ∀ owner ∈ kept,
          ∀ doclet ∈ kept,
            StaticOf kept owner doclet
            → forest.parent? doclet.longname = some (namespaceHelper owner.longname)
              ∨ forest.stands doclet.longname = false ∧ OnCircle kept doclet := by
  intro kept forest
  have plainest := plain.survivors settings
  have distinct := nodup_survivors settings doclets
  have settled := settled_ofDoclets settings plain
  refine ⟨?_, fun owner _ doclet member => settled.place_of_static distinct member⟩
  intro node member noHelper like child listed
  have found := find?_of_mem settled.sound.distinct member
  obtain ⟨owner, ownerMember, same, kind⟩ := settled.exists_doclet found noHelper
  have under := standsUnder_of_mem_children settled.sound listed
  have childFound := find?_of_mem settled.sound.distinct (mem_children.mp listed).1
  exact settled.not_static_of_under plainest distinct ownerMember (kind ▸ like) (same ▸ under)
    childFound

/-- An interface that comes after a static member and a method of its own. -/
theorem interfaces_keep_no_static_moved
    : let make : Doclet :=
        { kind := .function, name := "make", longname := "I.make", memberof := some "I",
          scope := some .static }
      let size : Doclet :=
        { kind := .function, name := "size", longname := "I#size", memberof := some "I",
          scope := some .instance }
      let owner : Doclet := { kind := .interface, name := "I", longname := "I" }
      let doclets := [make, size, owner]
      let forest := ofDoclets {} doclets
      Plain doclets
      ∧ (forest.children "I").map Node.longname = ["I#size"]
      ∧ (∀ child ∈ forest.children "I", child.doclet.isStatic = false)
      ∧ forest.parent? "I.make" = some "I$$namespace$helper" := by
  intro make size owner doclets forest
  have plain : Plain doclets := plain_of_short (by decide)
  have kept : survivors {} doclets = doclets := by rfl
  obtain ⟨clean, moved⟩ := interfaces_keep_no_static {} plain
  rw [kept] at moved
  have known : (forest.nodes.any fun node =>
      node.longname == "I" && !node.isHelper && node.doclet.kind.isInterfaceLike) = true := by
    decide +kernel
  obtain ⟨node, member, facts⟩ := List.any_eq_true.mp known
  simp only [Bool.and_eq_true, beq_iff_eq, Bool.not_eq_true'] at facts
  obtain ⟨⟨isInterface, noHelper⟩, like⟩ := facts
  refine ⟨plain, by decide +kernel, isInterface ▸ clean node member noHelper like, ?_⟩
  have ownerMember : owner ∈ doclets := by simp [doclets]
  have static : StaticOf doclets owner make := ⟨⟨ownerMember, rfl⟩, rfl, rfl⟩
  rcases moved owner ownerMember make List.mem_cons_self static with under | ⟨loose, -⟩
  · exact under
  · have stands : forest.stands "I.make" = true := by decide +kernel
    exact absurd (stands.symm.trans loose) nofun

end Typings.Forest
