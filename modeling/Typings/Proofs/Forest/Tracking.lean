import Typings.Proofs.Forest.Helpers

/-! Where every node stands in a forest of plain doclets if each of them is taken by its parent: a
doclet under what holds it, and a helper where the node of its owner stands.
-/

namespace Typings.Forest

-----------------------------------------------------------------------------------------
-- How far linking has come
-----------------------------------------------------------------------------------------

/-- How far linking has come: the longnames of the doclets whose interface has been added, of those
whose static members have come to their namespace, and of those that have been put to their places.
-/
structure Stage where
  begun : List String
  moved : List String
  placed : List String

/-- The doclet has been made a member of the namespace of its parent. -/
def Renames (moved : List String) (parent doclet : Doclet) : Prop :=
  parent.longname ∈ moved ∧ parent.kind.isInterfaceLike = true ∧ doclet.isStatic = true

instance (moved : List String) (parent doclet : Doclet)
    : Decidable (Renames moved parent doclet) :=
  inferInstanceAs (Decidable (_ ∧ _ ∧ _))

/-- The longname of the node that holds a member of `parent`. -/
def holder (moved : List String) (parent doclet : Doclet) : String :=
  if parent.kind.isClassLike = true ∧ doclet.leavesClass = true ∨ Renames moved parent doclet then
    namespaceHelper parent.longname
  else parent.longname

/-- The parent that the node of a doclet names. -/
inductive Named (doclets : List Doclet) (moved : List String) (doclet : Doclet)
    : Option String → Prop
  | own (unmoved : ∀ parent, MemberOf doclets doclet parent → ¬ Renames moved parent doclet)
    : Named doclets moved doclet doclet.memberof
  | moved {parent} (link : MemberOf doclets doclet parent) (renames : Renames moved parent doclet)
    : Named doclets moved doclet (some (namespaceHelper parent.longname))

/-- The place that a doclet is put to. -/
inductive Spot (doclets : List Doclet) (moved : List String) (doclet : Doclet) : Place → Prop
  | root (free : doclet.memberof = none) : Spot doclets moved doclet .root
  | under {parent} (link : MemberOf doclets doclet parent)
    : Spot doclets moved doclet (.under (holder moved parent doclet))

/-- The node of a doclet, at its place once it has been put there. -/
structure OwnNode (doclets : List Doclet) (stage : Stage) (doclet : Doclet) (node : Node)
    : Prop where
  role : node.role = none
  doclet_eq
    : ∃ memberof, node.doclet = { doclet with memberof } ∧ Named doclets stage.moved doclet memberof
  placed : doclet.longname ∈ stage.placed → Spot doclets stage.moved doclet node.place
  waiting : doclet.longname ∉ stage.placed → node.place = .nowhere

/-- A node is a helper of the doclet `owner`, and stands where the node of that does. Only the
namespace of a doclet that is a member of itself never stands anywhere.
-/
inductive HelperNode (begun : List String) (owner : Doclet) (place : Place) (name : String)
    (node : Node)
    : Prop
  | interface (name_eq : name = interfaceHelper owner.longname)
    (hasBegun : owner.longname ∈ begun) (role : node.role = some .interface)
    (kind : node.doclet.kind = .interface) (place_eq : node.place = place)
  | namespace (name_eq : name = namespaceHelper owner.longname)
    (role : node.role = some .namespace) (kind : node.doclet.kind = .namespace)
    (place_eq
      : node.place = if owner.memberof = some owner.longname then .nowhere else place)

/-- Every node of the forest is that of a doclet or a helper of one, and stands where it is to
stand at this stage.
-/
structure Tracked (doclets : List Doclet) (stage : Stage) (forest : Forest) : Prop where
  own
    : ∀ doclet ∈ doclets,
        ∃ node, forest.find? doclet.longname = some node ∧ OwnNode doclets stage doclet node
  helper
    : ∀ {name node},
        forest.find? name = some node
        → name ∉ doclets.map Doclet.longname
        → ∃ owner ∈ doclets,
            owner.kind.isClassLike = true
            ∧ ∃ ownerNode,
                forest.find? owner.longname = some ownerNode
                ∧ HelperNode stage.begun owner ownerNode.place name node
  container
    : ∀ {doclet parent},
        doclet ∈ doclets
        → MemberOf doclets doclet parent
        → Renames stage.moved parent doclet
        → forest.has (namespaceHelper parent.longname) = true

variable {doclets : List Doclet} {stage : Stage} {forest next : Forest}
variable {doclet parent owner : Doclet} {name : String} {node : Node}

theorem longname_mem (member : doclet ∈ doclets)
    : doclet.longname ∈ doclets.map Doclet.longname :=
  List.mem_map_of_mem member

theorem Plain.interface_fresh (plain : Plain doclets) (owner : String)
    : interfaceHelper owner ∉ doclets.map Doclet.longname := by
  intro listed
  obtain ⟨doclet, member, same⟩ := List.mem_map.mp listed
  exact (plain doclet member).1 (same ▸ reserved_interfaceHelper owner)

theorem Plain.namespace_fresh (plain : Plain doclets) (owner : String)
    : namespaceHelper owner ∉ doclets.map Doclet.longname := by
  intro listed
  obtain ⟨doclet, member, same⟩ := List.mem_map.mp listed
  exact (plain doclet member).1 (same ▸ reserved_namespaceHelper owner)

/-- A node is a helper of the doclet that its longname tells. -/
theorem Tracked.helper_of (tracked : Tracked doclets stage forest) (plain : Plain doclets)
    (distinct : (doclets.map Doclet.longname).Nodup) (member : owner ∈ doclets)
    (belongs : Belongs name owner.longname) (isHelper : name ≠ owner.longname)
    (found : forest.find? name = some node)
    : owner.kind.isClassLike = true
      ∧ ∃ ownerNode,
          forest.find? owner.longname = some ownerNode
          ∧ HelperNode stage.begun owner ownerNode.place name node := by
  have unlisted : name ∉ doclets.map Doclet.longname := by
    rcases belongs with same | rfl | rfl
    · exact absurd same isHelper
    · exact plain.interface_fresh _
    · exact plain.namespace_fresh _
  obtain ⟨other, otherMember, classLike, ownerNode, ownerFound, helper⟩ :=
    tracked.helper found unlisted
  have toOther : Belongs name other.longname := by
    cases helper with
    | interface same _ _ _ _ => exact .inr (.inl same)
    | «namespace» same _ _ _ => exact .inr (.inr same)
  have same : other = owner := eq_of_longname_eq distinct otherMember member
    (toOther.unique (plain other otherMember).1 (plain owner member).1 belongs)
  subst same
  exact ⟨classLike, ownerNode, ownerFound, helper⟩

theorem Tracked.namespace_of (tracked : Tracked doclets stage forest) (plain : Plain doclets)
    (distinct : (doclets.map Doclet.longname).Nodup) (member : owner ∈ doclets)
    (found : forest.find? (namespaceHelper owner.longname) = some node)
    : owner.kind.isClassLike = true
      ∧ node.role = some .namespace
      ∧ node.doclet.kind = .namespace
      ∧ ∃ ownerNode,
          forest.find? owner.longname = some ownerNode
          ∧ node.place
            = if owner.memberof = some owner.longname then .nowhere else ownerNode.place := by
  have isHelper : namespaceHelper owner.longname ≠ owner.longname := fun same =>
    (plain owner member).1 (same ▸ reserved_namespaceHelper _)
  obtain ⟨classLike, ownerNode, ownerFound, helper⟩ :=
    tracked.helper_of plain distinct member (.inr (.inr rfl)) isHelper found
  cases helper with
  | interface same _ _ _ _ => exact absurd same.symm (interfaceHelper_ne_namespaceHelper _ _)
  | «namespace» _ role kind place_eq =>
      exact ⟨classLike, role, kind, ownerNode, ownerFound, place_eq⟩

/-- The static member `doclet` of the interface or mixin `parent`. -/
def StaticOf (doclets : List Doclet) (parent doclet : Doclet) : Prop :=
  MemberOf doclets doclet parent
  ∧ parent.kind.isInterfaceLike = true
  ∧ doclet.isStatic = true

theorem Named.congr {moved later : List String} {memberof : Option String}
    (named : Named doclets moved doclet memberof)
    (same
      : ∀ parent,
          MemberOf doclets doclet parent
          → (Renames later parent doclet ↔ Renames moved parent doclet))
    : Named doclets later doclet memberof := by
  cases named with
  | own unmoved =>
      refine .own ?_
      intro parent link renames
      exact unmoved parent link ((same parent link).mp renames)
  | moved link renames => exact .moved link ((same _ link).mpr renames)

theorem belongs_holder (moved : List String) (parent doclet : Doclet)
    : Belongs (holder moved parent doclet) parent.longname := by
  unfold holder
  split
  · exact .inr (.inr rfl)
  · exact .inl rfl

end Typings.Forest
