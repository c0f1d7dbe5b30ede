import Typings.Proofs.Forest.Contents
import Typings.Proofs.Forest.Located

/-! What linking a doclet leaves alone, in every forest: nodes change only if they are linked, move
with what is linked or are helpers, and new nodes are helpers of what is linked. So every node comes
from a doclet, whatever the longnames of doclets are.
-/

namespace Typings.Forest

/-- The helpers that come into a forest while `owner` is linked: the interface that helps a class,
and namespaces.
-/
inductive AddedFor (owner : Doclet) : Node → Prop
  | interface (isClass : owner.kind = .class) : AddedFor owner (interfaceOf owner)
  | namespace (helped : Doclet) (scope : Option Doclet.Scope)
    : AddedFor owner (namespaceOf helped scope)

/-- From one forest to the next, while `owner` is linked, the nodes outside `moved` stay as they are
unless they have the longnames of helpers, and what is new is a helper.
-/
structure Spares (owner : Doclet) (moved : List String) (forest next : Forest) : Prop where
  same : ∀ other, other ∉ moved → ¬ Reserved other → next.find? other = forest.find? other
  origin
    : ∀ {name node},
        next.find? name = some node
        → (∃ old, forest.find? name = some old ∧ SameDoclet node old)
          ∨ ∃ helper, AddedFor owner helper ∧ SameDoclet node helper

variable {owner doclet : Doclet} {moved more names helpers : List String}
variable {forest middle next : Forest} {name other parent container : String} {node : Node}

theorem AddedFor.reserved (added : AddedFor owner node) : Reserved node.longname := by
  cases added with
  | interface _ => exact reserved_interfaceHelper _
  | «namespace» _ _ => exact reserved_namespaceHelper _

theorem Spares.refl : Spares owner moved forest forest :=
  ⟨fun _ _ _ => rfl, fun found => .inl ⟨_, found, .refl _⟩⟩

theorem Spares.trans (first : Spares owner moved forest middle)
    (second : Spares owner moved middle next)
    : Spares owner moved forest next where
  same other apart plain := (second.same other apart plain).trans (first.same other apart plain)
  origin found := by
    rcases second.origin found with ⟨between, betweenFound, same⟩ | added
    · rcases first.origin betweenFound with ⟨old, oldFound, oldSame⟩ | ⟨helper, added, oldSame⟩
      · exact .inl ⟨old, oldFound, same.trans oldSame⟩
      · exact .inr ⟨helper, added, same.trans oldSame⟩
    · exact .inr added

/-- More nodes may be said to change, and longnames of helpers need not be said. -/
theorem Spares.mono (spares : Spares owner moved forest next)
    (covers : ∀ name ∈ moved, Reserved name ∨ name ∈ more)
    : Spares owner more forest next where
  same other apart plain :=
    spares.same other (fun listed => (covers other listed).elim plain apart) plain
  origin := spares.origin

-----------------------------------------------------------------------------------------
-- Single changes
-----------------------------------------------------------------------------------------

/-- A change to one node that keeps its doclet, but for the parent, spares all others. -/
theorem spares_of_finds {change : Node → Node}
    (finds
      : ∀ other,
          next.find? other
          = if other = name then (forest.find? other).map change else forest.find? other)
    (keeps : ∀ node, SameDoclet (change node) node)
    : Spares owner [name] forest next where
  same other apart _ := by rw [finds, if_neg fun same => apart (List.mem_singleton.mpr same)]
  origin {other node} found := by
    left
    rw [finds] at found
    split at found
    · obtain ⟨old, oldFound, rfl⟩ := Option.map_eq_some_iff.mp found
      exact ⟨old, oldFound, keeps old⟩
    · exact ⟨node, found, .refl node⟩

/-- A new helper spares all nodes that are there. -/
theorem spares_of_added {helper : Node}
    (finds
      : ∀ other,
          next.find? other
          = if other = helper.longname then some node else forest.find? other)
    (added : AddedFor owner helper) (sameHelper : SameDoclet node helper)
    : Spares owner moved forest next where
  same other _ plain := by
    rw [finds, if_neg]
    rintro rfl
    exact plain added.reserved
  origin {other found} isFound := by
    rw [finds] at isFound
    split at isFound
    · exact .inr ⟨helper, added, Option.some.inj isFound ▸ sameHelper⟩
    · exact .inl ⟨found, isFound, .refl found⟩

theorem spares_warn (warning : Warning) : Spares owner moved forest (forest.warn warning) :=
  ⟨fun _ _ _ => rfl, fun found => .inl ⟨_, found, .refl _⟩⟩

theorem spares_add (added : AddedFor owner node) (absent : ¬ forest.has node.longname = true)
    : Spares owner moved forest (forest.add node) :=
  spares_of_added (fun _ => find?_add_of_fresh (find?_of_not_has absent)) added (.refl node)

theorem spares_settle (forest : Forest) (name : String) (place : Place) (memberof : Option String)
    : Spares owner [name] forest
        (forest.moveLast name fun node => settled node place memberof) :=
  spares_of_finds (fun _ => find?_moveLast (by simp)) fun node =>
    sameDoclet_settled node place memberof

theorem spares_rename (forest : Forest) (name : String) (memberof : Option String)
    : Spares owner [name] forest (forest.modify name fun node => node.withMemberof memberof) :=
  spares_of_finds (fun _ => find?_modify (by simp)) fun _ => ⟨rfl, memberof, rfl⟩

theorem spares_nest (forest : Forest) (name : String)
    : Spares owner [name] forest (forest.modify name fun node => { node with nested := true }) :=
  spares_of_finds (fun _ => find?_modify (by intro _; rfl)) fun node => .refl node

theorem spares_detach (forest : Forest) (name : String)
    : Spares owner [name] forest (forest.detach name) :=
  spares_of_finds (fun _ => find?_modify (by intro _; rfl)) fun node => .refl node

-----------------------------------------------------------------------------------------
-- Putting nodes to their places
-----------------------------------------------------------------------------------------

theorem spares_addRoot (forest : Forest) (name : String)
    : Spares owner [name] forest (forest.addRoot name) := by
  unfold addRoot
  split
  · exact .refl
  · exact spares_settle forest name .root none

theorem spares_attach (forest : Forest) (parent name : String)
    : Spares owner [name] forest (forest.attach parent name) := by
  unfold attach
  split
  · exact spares_warn _
  · split
    · exact spares_warn _
    · exact spares_settle forest name _ _

theorem spares_detach_attach (forest : Forest) (container name : String)
    : Spares owner [name] forest ((forest.detach name).attach container name) :=
  (spares_detach forest name).trans (spares_attach _ container name)

theorem spares_moveStatic (forest : Forest) (upper container name : String)
    : Spares owner [name] forest (moveStatic upper container forest name) := by
  unfold moveStatic
  dsimp only
  split
  · exact (spares_rename forest name (some container)).trans (spares_detach_attach _ container name)
  · exact spares_rename forest name (some container)

/-- What is done to one node after the other spares all that are not among these. -/
theorem spares_foldl {step : Forest → String → Forest}
    (each : ∀ forest name, Spares owner [name] forest (step forest name)) (names : List String)
    (forest : Forest)
    : Spares owner names forest (names.foldl step forest) := by
  induction names generalizing forest with
  | nil => exact .refl
  | cons name names ih =>
      have first : Spares owner (name :: names) forest (step forest name) :=
        (each forest name).mono (by simp)
      refine first.trans ((ih (step forest name)).mono ?_)
      exact fun other listed => .inr (List.mem_cons_of_mem _ listed)

theorem spares_addRoots (forest : Forest) (names : List String)
    : Spares owner names forest (forest.addRoots names) :=
  spares_foldl spares_addRoot names forest

theorem spares_attachAll (forest : Forest) (parent : String) (names : List String)
    : Spares owner names forest (forest.attachAll parent names) :=
  spares_foldl (fun forest name => spares_attach forest parent name) names forest

-----------------------------------------------------------------------------------------
-- Helpers
-----------------------------------------------------------------------------------------

theorem spares_addInterface (forest : Forest) (owner : Doclet)
    : Spares owner moved forest (forest.addInterface owner).1 := by
  unfold addInterface
  dsimp only
  split
  · exact .refl
  · rename_i adds
    simp only [Bool.or_eq_true, not_or, bne_iff_ne, ne_eq, not_not] at adds
    exact spares_add (.interface adds.1.1) adds.2

theorem spares_moveStatics (forest : Forest) (names : List String) (owner : Doclet)
    (covers
      : owner.kind.isInterfaceLike = true → forest.statics names owner.longname ⊆ moved)
    : Spares owner moved forest (forest.moveStatics names owner) := by
  unfold moveStatics
  dsimp only
  split
  · exact .refl
  · rename_i moves
    simp only [Bool.or_eq_true, not_or, Bool.not_eq_true', Bool.not_eq_false] at moves
    have statics (begun : Forest)
        : Spares owner moved begun
            ((forest.statics names owner.longname).foldl
              (moveStatic owner.longname (namespaceHelper owner.longname)) begun) := by
      refine (spares_foldl ?_ _ begun).mono fun name listed => .inr (covers moves.1 listed)
      exact fun forest name => spares_moveStatic forest _ _ name
    split
    · exact statics forest
    · rename_i absent
      exact (spares_add (.namespace owner owner.scope) absent).trans (statics _)

theorem spares_addHelpers (forest : Forest) (names : List String) (owner : Doclet)
    (covers
      : owner.kind.isInterfaceLike = true → forest.statics names owner.longname ⊆ moved)
    : Spares owner moved forest (forest.addHelpers names owner).1 := by
  refine (spares_addInterface forest owner).trans (spares_moveStatics _ names owner ?_)
  intro interfaceLike
  -- An interface or mixin is no class, so that nothing has been added yet.
  have noClass : owner.kind ≠ .class := by
    intro isClass
    simp [isClass, Doclet.Kind.isInterfaceLike] at interfaceLike
  have unchanged : (forest.addInterface owner).1 = forest := by simp [addInterface, noClass]
  exact unchanged.symm ▸ covers interfaceLike

theorem spares_companion (found : forest.find? node.longname = some node)
    : Spares owner moved forest (forest.companion node).1 := by
  unfold companion
  dsimp only
  split
  · exact .refl
  · rename_i absent
    have added : AddedFor owner (namespaceOf node.doclet (some .static)) := .namespace _ _
    split
    · exact spares_add added absent
    · have sameHelper
          : SameDoclet (beside node (namespaceOf node.doclet (some .static)))
              (namespaceOf node.doclet (some .static)) :=
        ⟨rfl, _, rfl⟩
      exact spares_of_added
        (fun _ => find?_addBehind_namespaceOf found (find?_of_not_has absent)) added sameHelper

-----------------------------------------------------------------------------------------
-- Linking
-----------------------------------------------------------------------------------------

theorem spares_linkUnder (found : forest.find? node.longname = some node) (helpers : List String)
    (doclet : Doclet)
    : Spares owner (helpers ++ [doclet.longname]) forest
        (forest.linkUnder node helpers doclet) := by
  unfold linkUnder
  split
  · exact (spares_companion found).trans (spares_attachAll _ _ _)
  · split
    · exact (spares_addRoots forest helpers).mono fun name listed =>
        .inr (List.mem_append_left _ listed)
    · refine Spares.trans ?_ (spares_attachAll _ _ _)
      split
      · exact (spares_nest forest doclet.longname).mono fun name listed =>
          .inr (List.mem_append_right _ listed)
      · exact .refl

/-- Linking a doclet changes its own node, those of the static members that it moves, and nodes with
the longnames of helpers.
-/
theorem spares_link (names : List String) (found : forest.find? name = some node)
    (covers : node.doclet.kind.isInterfaceLike = true → forest.statics names name ⊆ moved)
    : Spares node.doclet (name :: moved) forest (link names forest name) := by
  have nodeName : node.doclet.longname = name := longname_of_find? found
  have helped
      : Spares node.doclet (name :: moved) forest (forest.addHelpers names node.doclet).1 :=
    spares_addHelpers forest names node.doclet fun interfaceLike other listed =>
      List.mem_cons_of_mem _ (covers interfaceLike (nodeName ▸ listed))
  have reserved (other : String) (listed : other ∈ (forest.addHelpers names node.doclet).2)
      : Reserved other :=
    ⟨_, eq_of_mem_addHelpers listed⟩
  unfold link
  rw [found]
  dsimp only
  generalize forest.addHelpers names node.doclet = result at helped reserved ⊢
  obtain ⟨begun, helpers⟩ := result
  dsimp only at helped reserved ⊢
  have covered (other : String) (listed : other ∈ helpers ++ [name])
      : Reserved other ∨ other ∈ name :: moved := by
    rcases List.mem_append.mp listed with helper | own
    · exact .inl (reserved other helper)
    · exact .inr (List.mem_singleton.mp own ▸ List.mem_cons_self)
  refine helped.trans ?_
  split
  · exact (spares_addRoots begun _).mono covered
  · split
    · exact spares_warn _
    · rename_i parent parentFound
      have parentSelf : begun.find? parent.longname = some parent := by
        rw [longname_of_find? parentFound, parentFound]
      refine (spares_linkUnder parentSelf helpers node.doclet).mono ?_
      rw [nodeName]
      exact covered

-----------------------------------------------------------------------------------------
-- Where the nodes of a forest come from
-----------------------------------------------------------------------------------------

variable {doclets : List Doclet}

/-- Every doclet has its node, and every node is that of a doclet or of a helper that has come with
one.
-/
structure Sourced (doclets : List Doclet) (forest : Forest) : Prop where
  own
    : ∀ doclet ∈ doclets,
        ∃ node, forest.find? doclet.longname = some node ∧ SameDoclet node { doclet }
  origin
    : ∀ {name node},
        forest.find? name = some node
        → (∃ doclet ∈ doclets, SameDoclet node { doclet })
          ∨ ∃ owner ∈ doclets, ∃ helper, AddedFor owner helper ∧ SameDoclet node helper

/-- What comes with a node comes with its doclet, whatever parent the node names. -/
theorem AddedFor.of_sameDoclet {helper : Node} (added : AddedFor node.doclet helper)
    (same : SameDoclet node { doclet })
    : ∃ first, AddedFor doclet first ∧ SameDoclet helper first := by
  obtain ⟨memberof, isDoclet⟩ := same.2
  cases added with
  | interface isClass =>
      refine ⟨interfaceOf doclet, .interface (same.kind_eq ▸ isClass), rfl, memberof, ?_⟩
      rw [isDoclet]
      rfl
  | «namespace» helped scope => exact ⟨_, .namespace helped scope, .refl _⟩

theorem Sourced.link (sourced : Sourced doclets forest) (member : doclet ∈ doclets)
    : Sourced doclets (link (doclets.map Doclet.longname) forest doclet.longname) where
  own other otherMember := by
    obtain ⟨old, oldFound, oldSame⟩ := sourced.own other otherMember
    obtain ⟨node, found, same⟩ := (link_changes _ forest doclet.longname).keeps oldFound
    exact ⟨node, found, same.trans oldSame⟩
  origin found := by
    obtain ⟨own, ownFound, ownSame⟩ := sourced.own doclet member
    have spares := spares_link (doclets.map Doclet.longname) ownFound fun _ =>
      List.Subset.refl _
    rcases spares.origin found with ⟨old, oldFound, same⟩ | ⟨helper, added, same⟩
    · rcases sourced.origin oldFound
        with ⟨other, listed, first⟩ | ⟨owner, listed, helper, added, first⟩
      · exact .inl ⟨other, listed, same.trans first⟩
      · exact .inr ⟨owner, listed, helper, added, same.trans first⟩
    · obtain ⟨first, firstAdded, firstSame⟩ := added.of_sameDoclet ownSame
      exact .inr ⟨doclet, member, first, firstAdded, same.trans firstSame⟩

theorem sourced_scattered (distinct : (doclets.map Doclet.longname).Nodup)
    : Sourced doclets (scattered doclets) where
  own doclet member := ⟨_, find?_scattered distinct member, .refl _⟩
  origin found := by
    obtain ⟨doclet, member, rfl⟩ := mem_nodes_scattered.mp (mem_of_find? found)
    exact .inl ⟨doclet, member, .refl _⟩

theorem sourced_linkAll (distinct : (doclets.map Doclet.longname).Nodup)
    : Sourced doclets (linkAll doclets) := by
  refine linking_induction distinct (motive := fun _ forest => Sourced doclets forest)
    (sourced_scattered distinct) ?_
  exact fun _ _ _ member _ sourced => sourced.link member

theorem sourced_ofDoclets (settings : Settings) (input : List Doclet)
    : Sourced (survivors settings input) (ofDoclets settings input) :=
  sourced_linkAll (nodup_survivors settings input)

/-- A node with the longname of a helper apart, a node is that of the doclet of its longname. -/
theorem Sourced.doclet_of_plain (sourced : Sourced doclets forest)
    (found : forest.find? name = some node) (plain : ¬ Reserved name)
    : ∃ doclet ∈ doclets, doclet.longname = name ∧ SameDoclet node { doclet } := by
  rcases sourced.origin found with ⟨doclet, member, same⟩ | ⟨_, _, helper, added, same⟩
  · exact ⟨doclet, member, same.longname_eq.symm.trans (longname_of_find? found), same⟩
  · rw [← longname_of_find? found, same.longname_eq] at plain
    exact absurd added.reserved plain

end Typings.Forest
