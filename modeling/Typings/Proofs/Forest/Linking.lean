import Typings.Proofs.Forest.Changes

/-! Linking a doclet is a line of single changes, in every forest and for every doclet. -/

namespace Typings.Forest

open Relation

variable {forest next : Forest} {name parent : String} {node : Node} {names : List String}

/-- Whatever stands anywhere may stand under `parent`: it is no class, interface or mixin. -/
def Roomy (forest : Forest) (parent : String) : Prop :=
  (∃ owner, parent = namespaceHelper owner)
  ∨ ∃ holder, forest.find? parent = some holder ∧ holder.doclet.kind.isClassLike = false

theorem Roomy.fits (roomy : forest.Roomy parent) (node : Node) : forest.Fits parent node := by
  refine roomy.imp_right ?_
  rintro ⟨holder, found, plain⟩ other otherFound classLike
  cases found.symm.trans otherFound
  rw [plain] at classLike
  cases classLike

theorem Changes.roomy (changes : Changes forest next) (roomy : forest.Roomy parent)
    : next.Roomy parent := by
  refine roomy.imp_right ?_
  rintro ⟨holder, found, plain⟩
  obtain ⟨node, nodeFound, same⟩ := changes.keeps found
  exact ⟨node, nodeFound, same.kind_eq ▸ plain⟩

-----------------------------------------------------------------------------------------
-- Putting nodes to their places
-----------------------------------------------------------------------------------------

theorem addRoot_changes (forest : Forest) (name : String)
    : Changes forest (forest.addRoot name) := by
  unfold addRoot
  split
  · exact .refl
  · rename_i loose
    cases found : forest.find? name with
    | none => simp only [moveLast, found, ReflTransGen.refl]
    | some node =>
        refine .single (.root found ?_)
        simpa [stands, found] using loose

theorem addRoots_changes (forest : Forest) (names : List String)
    : Changes forest (forest.addRoots names) := by
  induction names generalizing forest with
  | nil => exact .refl
  | cons name names ih => exact (addRoot_changes forest name).trans (ih _)

theorem attach_changes (known : forest.has parent = true)
    (fits : ∀ node, forest.find? name = some node → forest.Fits parent node)
    : Changes forest (forest.attach parent name) := by
  unfold attach
  split
  · exact .single (.warn _ (.inr rfl))
  · rename_i loose
    split
    · exact .single (.warn _ (.inr rfl))
    · rename_i apart
      cases found : forest.find? name with
      | none => simp only [moveLast, found, ReflTransGen.refl]
      | some node =>
          refine .single (.attach found ?_ known ?_ (fits node found))
          · simpa [stands, found] using loose
          · simpa using apart

theorem attachAll_changes (known : forest.has parent = true) (roomy : forest.Roomy parent)
    (names : List String)
    : Changes forest (forest.attachAll parent names) := by
  induction names generalizing forest with
  | nil => exact .refl
  | cons name names ih =>
      have first : Changes forest (forest.attach parent name) :=
        attach_changes known fun node _ => roomy.fits node
      exact first.trans (ih (first.has known) (first.roomy roomy))

-----------------------------------------------------------------------------------------
-- Adding the helpers of a doclet
-----------------------------------------------------------------------------------------

theorem addInterface_changes (forest : Forest) (owner : Doclet)
    : Changes forest (forest.addInterface owner).1 := by
  unfold addInterface
  dsimp only
  split
  · exact .refl
  · rename_i absent
    simp only [Bool.or_eq_true, not_or] at absent
    exact .single (.add (.interface owner) (find?_of_not_has absent.2))

theorem moveStatic_changes {owner : String}
    (known : forest.has (namespaceHelper owner) = true)
    : Changes forest (moveStatic owner (namespaceHelper owner) forest name) := by
  have renamed := Changes.has (.single (.rename name (namespaceHelper owner))) known
  unfold moveStatic
  dsimp only
  split
  · have detached := Changes.has (.single (.detach name)) renamed
    exact .head (.rename name (namespaceHelper owner)) (.head (.detach name)
      (attach_changes detached fun _ _ => .inl ⟨owner, rfl⟩))
  · exact .single (.rename name (namespaceHelper owner))

theorem moveStatics_changes (forest : Forest) (names : List String) (owner : Doclet)
    : Changes forest (forest.moveStatics names owner) := by
  have each (forest : Forest) (members : List String)
      (known : forest.has (namespaceHelper owner.longname) = true)
      : Changes forest
          (members.foldl (moveStatic owner.longname (namespaceHelper owner.longname)) forest) := by
    induction members generalizing forest with
    | nil => exact .refl
    | cons name members ih =>
        have first
            : Changes forest
                (moveStatic owner.longname (namespaceHelper owner.longname) forest name) :=
          moveStatic_changes known
        exact first.trans (ih _ (first.has known))
  unfold moveStatics
  dsimp only
  split
  · exact .refl
  · split
    · rename_i known
      exact each forest _ known
    · rename_i absent
      exact .head (.add (.namespace owner owner.scope) (find?_of_not_has absent))
        (each _ _ has_add)

theorem addHelpers_changes (forest : Forest) (names : List String) (owner : Doclet)
    : Changes forest (forest.addHelpers names owner).1 :=
  (addInterface_changes forest owner).trans (moveStatics_changes _ names owner)

/-- Only classes, interfaces and mixins have helpers. -/
theorem addHelpers_bare {owner : Doclet} (plain : owner.kind.isClassLike = false)
    : forest.addHelpers names owner = (forest, []) := by
  cases kind : owner.kind <;>
    simp_all [addHelpers, addInterface, moveStatics, waitingNamespace, Doclet.Kind.isClassLike,
      Doclet.Kind.isInterfaceLike]

theorem eq_of_mem_addInterface {owner : Doclet} (listed : name ∈ (forest.addInterface owner).2)
    : name = interfaceHelper owner.longname := by
  unfold addInterface at listed
  dsimp only at listed
  split at listed
  · cases listed
  · exact List.mem_singleton.mp listed

theorem eq_of_mem_waitingNamespace {owner : Doclet} (listed : name ∈ forest.waitingNamespace owner)
    : name = namespaceHelper owner.longname := by
  unfold waitingNamespace at listed
  dsimp only at listed
  split at listed
  · exact List.mem_singleton.mp listed
  · cases listed

/-- What stands before a doclet has the longname of one of its helpers. -/
theorem eq_of_mem_addHelpers {owner : Doclet} (listed : name ∈ (forest.addHelpers names owner).2)
    : name = interfaceHelper owner.longname ∨ name = namespaceHelper owner.longname :=
  (List.mem_append.mp listed).imp eq_of_mem_addInterface eq_of_mem_waitingNamespace

theorem companion_changes {owner : Node} (found : forest.find? owner.longname = some owner)
    (classLike : owner.doclet.kind.isClassLike = true)
    : Changes forest (forest.companion owner).1 := by
  unfold companion
  dsimp only
  split
  · exact .refl
  · rename_i absent
    have fresh := find?_of_not_has absent
    split
    · exact .single (.add (.namespace owner.doclet (some .static)) fresh)
    · rename_i stands
      exact .single (.beside found classLike stands fresh)

theorem has_companion {owner : Node} (found : forest.find? owner.longname = some owner)
    : (forest.companion owner).1.has (namespaceHelper owner.longname) = true := by
  unfold companion
  dsimp only
  split
  · rename_i known
    exact known
  · rename_i absent
    have fresh := find?_of_not_has absent
    split
    · exact has_add
    · simp [has, find?_addBehind_namespaceOf found fresh]

-----------------------------------------------------------------------------------------
-- Linking one doclet, and one after the other
-----------------------------------------------------------------------------------------

theorem leavesClass_of_isClassLike {doclet : Doclet}
    (classLike : doclet.kind.isClassLike = true)
    : doclet.leavesClass = true := by
  simp [Doclet.leavesClass, classLike]

theorem linkUnder_changes {helpers : List String} {doclet : Doclet}
    (found : forest.find? node.longname = some node)
    (own
      : ∃ old,
          forest.find? doclet.longname = some old
          ∧ old.doclet.leavesClass = doclet.leavesClass)
    (bare : doclet.kind.isClassLike = false → helpers = [])
    : Changes forest (forest.linkUnder node helpers doclet) := by
  unfold linkUnder
  split
  · rename_i moves
    simp only [Bool.and_eq_true] at moves
    have made := companion_changes found moves.1
    exact made.trans (attachAll_changes (has_companion found) (.inl ⟨node.longname, rfl⟩) _)
  · rename_i stays
    split
    · exact addRoots_changes forest helpers
    · dsimp only
      have flagged
          : Changes forest
              (if doclet.kind.isModuleLike && node.doclet.kind.isModuleLike then
                forest.modify doclet.longname fun node => { node with nested := true }
              else forest) := by
        split
        · exact .single (.nest _)
        · exact .refl
      refine flagged.trans ?_
      have known := flagged.has (has_of_find? found)
      cases classLike : node.doclet.kind.isClassLike with
      | false => exact attachAll_changes known (flagged.roomy (.inr ⟨node, found, classLike⟩)) _
      | true =>
          -- Only what is no class itself stays in the body of one, and that has no helpers.
          have plain : doclet.leavesClass = false := by simpa [classLike] using stays
          have noClass : doclet.kind.isClassLike = false := by
            cases kind : doclet.kind.isClassLike with
            | false => rfl
            | true => simp [leavesClass_of_isClassLike kind] at plain
          obtain ⟨old, oldFound, oldLeaves⟩ := own
          obtain ⟨own, ownFound, same⟩ := flagged.keeps oldFound
          simp only [bare noClass, List.nil_append, attachAll, List.foldl_cons, List.foldl_nil]
          refine attach_changes known fun other otherFound => .inr fun _ _ _ => ?_
          cases ownFound.symm.trans otherFound
          rw [same.leavesClass_eq, oldLeaves, plain]

/-- Linking a doclet is a line of changes, whatever the doclet names for its parent. -/
theorem link_changes (names : List String) (forest : Forest) (name : String)
    : Changes forest (link names forest name) := by
  unfold link
  split
  · exact .refl
  · rename_i node found
    have helped := addHelpers_changes forest names node.doclet
    dsimp only
    refine helped.trans ?_
    split
    · exact addRoots_changes _ _
    · split
      · exact .single (.warn _ (.inl rfl))
      · rename_i parent parentFound
        obtain ⟨own, ownFound, same⟩ := helped.keeps found
        refine linkUnder_changes ?_ ⟨own, ?_, same.leavesClass_eq⟩ fun plain =>
          by rw [addHelpers_bare plain]
        · rw [longname_of_find? parentFound]
          exact parentFound
        · rw [← ownFound, ← longname_of_find? found]
          rfl

/-- Linking doclets one after the other is a line of changes. -/
theorem links_changes (names : List String) (forest : Forest) (linked : List String)
    : Changes forest (linked.foldl (link names) forest) := by
  induction linked generalizing forest with
  | nil => exact .refl
  | cons name linked ih => exact (link_changes names forest name).trans (ih _)

end Typings.Forest
