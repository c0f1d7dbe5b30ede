import Typings.Proofs.Forest.Standing
import Typings.Proofs.Forest.Helpers

/-! What stands in the bodies of a forest of plain doclets: nothing in a class, interface or mixin
that such a body cannot hold.
-/

namespace Typings.Forest

open Relation

variable {forest next : Forest} {name parent : String} {node : Node}

-----------------------------------------------------------------------------------------
-- Where the nodes of a changed forest come from
-----------------------------------------------------------------------------------------

/-- A node after a change was there before, or is a helper that has been added. -/
theorem Change.origin (change : Change forest next) (found : next.find? name = some node)
    : (∃ old, forest.find? name = some old ∧ SameDoclet node old)
      ∨ ∃ helper, IsHelper helper ∧ SameDoclet node helper := by
  cases old : forest.find? name with
  | some oldNode =>
      obtain ⟨kept, keptFound, same⟩ := change.keeps old
      cases keptFound.symm.trans found
      exact .inl ⟨oldNode, rfl, same⟩
  | none =>
      right
      cases change with
      | warn _ _ => cases old.symm.trans found
      | @add helper isHelper fresh =>
          rw [find?_add, old, Option.none_or, Option.ite_none_right_eq_some] at found
          exact ⟨helper, isHelper, Option.some.inj found.2 ▸ .refl helper⟩
      | rename _ _ =>
          rw [find?_modify (by simp), old] at found
          simp at found
      | nest _ =>
          rw [find?_modify (by intro _; rfl), old] at found
          simp at found
      | detach _ =>
          rw [Forest.detach, find?_modify (by intro _; rfl), old] at found
          simp at found
      | root _ _ | attach _ _ _ _ _ =>
          rw [find?_moveLast (by simp), old] at found
          simp at found
      | @beside owner ownerFound _ _ fresh =>
          rw [find?_addBehind_namespaceOf ownerFound fresh, old] at found
          simp only [Option.ite_none_right_eq_some, Option.some.injEq] at found
          refine ⟨_, .namespace owner.doclet (some .static), ?_⟩
          rw [← found.2]
          exact ⟨rfl, _, rfl⟩

-----------------------------------------------------------------------------------------
-- No packages
-----------------------------------------------------------------------------------------

/-- No node stands for a package. -/
def NoPackage (forest : Forest) : Prop :=
  ∀ {name node}, forest.find? name = some node → node.doclet.kind ≠ .package

/-- No change adds a package, as all helpers are interfaces and namespaces. -/
theorem Change.noPackage (change : Change forest next) (free : forest.NoPackage)
    : next.NoPackage := by
  intro name node found
  rcases change.origin found with ⟨old, oldFound, same⟩ | ⟨helper, isHelper, same⟩
  · rw [same.kind_eq]
    exact free oldFound
  · rw [same.kind_eq]
    cases isHelper <;> exact nofun

theorem Changes.noPackage (changes : Changes forest next) (free : forest.NoPackage)
    : next.NoPackage := by
  induction changes with
  | refl => exact free
  | tail _ last ih => exact last.noPackage ih

theorem scattered_noPackage (settings : Settings) (doclets : List Doclet)
    : (scattered (survivors settings doclets)).NoPackage := by
  intro name node found
  obtain ⟨doclet, member, rfl⟩ := mem_nodes_scattered.mp (mem_of_find? found)
  exact kind_ne_package member

/-- No package comes into the forest of any doclets. -/
theorem ofDoclets_noPackage (settings : Settings) (doclets : List Doclet)
    : (ofDoclets settings doclets).NoPackage :=
  (links_changes _ _ _).noPackage (scattered_noPackage settings doclets)

-----------------------------------------------------------------------------------------
-- What stands in the bodies
-----------------------------------------------------------------------------------------

/-- What stands under a class, interface or mixin is what such a body can hold, what has the
longname of a namespace is one, and no node is a package.
-/
structure Contents (forest : Forest) : Prop where
  fits
    : ∀ {name parent node holder},
        forest.StandsUnder name parent
        → forest.find? name = some node
        → forest.find? parent = some holder
        → holder.doclet.kind.isClassLike = true
        → node.doclet.leavesClass = false
  spaces
    : ∀ {owner node},
        forest.find? (namespaceHelper owner) = some node → node.doclet.kind = .namespace
  noPackage : forest.NoPackage

theorem SameDoclet.longname_eq {old : Node} (same : SameDoclet node old)
    : node.longname = old.longname := by
  obtain ⟨_, doclet⟩ := same.2
  rw [Node.longname, doclet]
  rfl

theorem Change.spaces (change : Change forest next) (contents : forest.Contents) {owner : String}
    (found : next.find? (namespaceHelper owner) = some node)
    : node.doclet.kind = .namespace := by
  rcases change.origin found with ⟨old, oldFound, same⟩ | ⟨helper, isHelper, same⟩
  · exact same.kind_eq.trans (contents.spaces oldFound)
  · have helperName := same.longname_eq.symm.trans (longname_of_find? found)
    rw [same.kind_eq]
    cases isHelper with
    | interface _ => exact absurd helperName (interfaceHelper_ne_namespaceHelper _ _)
    | «namespace» _ _ => rfl

/-- Every change keeps what bodies hold.
Witness: a new link is made to a namespace or to what can hold the node, or puts a namespace beside
a class or the like, which stands in no such body itself.
-/
theorem Change.contents (change : Change forest next) (sound : forest.Sound)
    (contents : forest.Contents)
    : next.Contents where
  spaces found := change.spaces contents found
  noPackage := change.noPackage contents.noPackage
  fits {name parent node holder} link found holderFound classLike := by
    -- Both ends of the link were there before, with the same doclets.
    have before {other : String} {changed : Node} (known : forest.has other = true)
        (changedFound : next.find? other = some changed)
        : ∃ old, forest.find? other = some old ∧ SameDoclet changed old := by
      obtain ⟨old, oldFound⟩ := has_iff.mp known
      obtain ⟨kept, keptFound, same⟩ := change.keeps oldFound
      cases keptFound.symm.trans changedFound
      exact ⟨old, oldFound, same⟩
    have kept (old : forest.StandsUnder name parent) : node.doclet.leavesClass = false := by
      obtain ⟨oldNode, oldFound, same⟩ := before old.has found
      obtain ⟨oldHolder, oldHolderFound, sameHolder⟩ := before (sound.parents old) holderFound
      rw [same.leavesClass_eq]
      exact contents.fits old oldFound oldHolderFound (sameHolder.kind_eq ▸ classLike)
    rcases change.links with unlinked | ⟨lower, upper, links, made⟩
    · exact kept (unlinked link)
    · rcases links link with old | ⟨rfl, rfl⟩
      · exact kept old
      · rcases made with ⟨oldNode, oldFound, known, _, room⟩
          | ⟨owner, rfl, _, ownerFound, ownerLike, under⟩
        · obtain ⟨oldHolder, oldHolderFound, sameHolder⟩ := before known holderFound
          obtain ⟨_, sameNode, same⟩ := before (has_of_find? oldFound) found
          cases oldFound.symm.trans sameNode
          rw [same.leavesClass_eq]
          rcases room with ⟨owner, rfl⟩ | room
          · rw [change.spaces contents holderFound] at classLike
            cases classLike
          · exact room oldHolder oldHolderFound (sameHolder.kind_eq ▸ classLike)
        · obtain ⟨oldHolder, oldHolderFound, sameHolder⟩ :=
            before (sound.parents under) holderFound
          have inside :=
            contents.fits under ownerFound oldHolderFound (sameHolder.kind_eq ▸ classLike)
          rw [leavesClass_of_isClassLike ownerLike] at inside
          cases inside

theorem Changes.contents (changes : Changes forest next) (sound : forest.Sound)
    (contents : forest.Contents)
    : next.Contents := by
  induction changes with
  | refl => exact contents
  | tail earlier last ih => exact last.contents (Changes.sound earlier sound) ih

theorem scattered_contents {settings : Settings} {doclets : List Doclet} (plain : Plain doclets)
    : (scattered (survivors settings doclets)).Contents where
  fits link := by simp [StandsUnder, parent?_scattered] at link
  spaces {owner node} found := by
    obtain ⟨doclet, member, rfl⟩ := mem_nodes_scattered.mp (mem_of_find? found)
    have named : doclet.longname = namespaceHelper owner := longname_of_find? found
    exact absurd (named ▸ reserved_namespaceHelper owner) (plain.survivors settings doclet member).1
  noPackage := scattered_noPackage settings doclets

theorem ofDoclets_contents (settings : Settings) {doclets : List Doclet} (plain : Plain doclets)
    : (ofDoclets settings doclets).Contents :=
  (links_changes _ _ _).contents (scattered_sound (nodup_survivors settings doclets))
    (scattered_contents plain)

end Typings.Forest
