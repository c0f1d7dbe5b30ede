import Typings.Proofs.Forest.Circles
import Typings.Proofs.Forest.Tracking

/-! Where every node stands while plain doclets are linked, whatever they are members of: also on
circles, under enumerations and under what is not there. This is the first half of a step: what
adding the helpers of a doclet does to that.
-/

namespace Typings.Forest

-----------------------------------------------------------------------------------------
-- How far linking has come
-----------------------------------------------------------------------------------------

/-- How far linking has come: the longnames of the doclets whose interface has been added, of those
whose static members have come to their namespace, of those for which their parent has been made
ready, and of those that have been put to their places.
-/
structure Progress where
  begun : List String
  moved : List String
  called : List String
  placed : List String

/-- The doclets `done` have been linked. -/
def Progress.upTo (done : List String) : Progress :=
  ⟨done, done, done, done⟩

/-- A class that implements or mixes in anything, which an interface carries for it. -/
def HasHeritage (owner : Doclet) : Prop :=
  owner.kind = .class ∧ owner.implements ++ owner.mixes ≠ []

/-- The doclet calls for the namespace of its parent, as the body of the parent cannot hold it. -/
def Calls (doclets : List Doclet) (doclet parent : Doclet) : Prop :=
  MemberOf doclets doclet parent ∧ parent.kind.isClassLike = true ∧ doclet.leavesClass = true

/-- There is a reason for the namespace of `owner`: its static members, or a member that has called
for it.
-/
inductive Asked (doclets : List Doclet) (moving called : List String) (owner : Doclet) : Prop
  | static {member} (listed : member ∈ doclets) (static : StaticOf doclets owner member)
    (isMoving : owner.longname ∈ moving)
  | call {member} (listed : member ∈ doclets) (calls : Calls doclets member owner)
    (hasCalled : member.longname ∈ called)

/-- The namespace of `owner` is there when `owner` is put to its place: for its static members, or
since a member that comes before has called for it.
-/
def Awaited (doclets : List Doclet) (owner : Doclet) : Prop :=
  (∃ member ∈ doclets, StaticOf doclets owner member)
  ∨ ∃ member, Precedes doclets member owner ∧ Calls doclets member owner

/-- A module or namespace is nested in another one, or in the namespace of an interface that has its
static members by then.
-/
def Nests (doclets : List Doclet) (doclet : Doclet) : Prop :=
  doclet.kind.isModuleLike = true
  ∧ ∃ parent,
      MemberOf doclets doclet parent
      ∧ (parent.kind.isModuleLike = true
        ∨ StaticOf doclets parent doclet ∧ Precedes doclets parent doclet)

-----------------------------------------------------------------------------------------
-- Where nodes stand
-----------------------------------------------------------------------------------------

/-- The place that linking a doclet gives to its node, and to the node of each role that helps it.
Only a doclet on a circle can be refused, and that is some trouble.
-/
inductive Lands (doclets : List Doclet) (moved : List String) (trouble : Prop) (doclet : Doclet)
    : Option Node.Role → Place → Prop
  | root {role} (free : doclet.memberof = none) : Lands doclets moved trouble doclet role .root
  | lost {role absent} (names : doclet.memberof = some absent)
    (unlisted : absent ∉ doclets.map Doclet.longname)
    : Lands doclets moved trouble doclet role .nowhere
  | dropped {parent} (link : MemberOf doclets doclet parent) (enum : parent.isEnum = true)
    : Lands doclets moved trouble doclet none .nowhere
  | parked {role parent} (link : MemberOf doclets doclet parent) (enum : parent.isEnum = true)
    (awaited : role = .namespace → Awaited doclets doclet)
    : Lands doclets moved trouble doclet (some role) .root
  | missed {parent} (link : MemberOf doclets doclet parent) (enum : parent.isEnum = true)
    (late : ¬ Awaited doclets doclet)
    : Lands doclets moved trouble doclet (some .namespace) .nowhere
  | under {role parent} (joins : Joins doclets doclet parent)
    : Lands doclets moved trouble doclet role (.under (holder moved parent doclet))
  | refused {role} (circle : OnCircle doclets doclet) (troubled : trouble)
    : Lands doclets moved trouble doclet role .nowhere
  | shut (self : Joins doclets doclet doclet) (late : ¬ Awaited doclets doclet)
    : Lands doclets moved trouble doclet (some .namespace) .nowhere

/-- A node stands where linking a doclet has put it, and nowhere before that. -/
structure Situated (doclets : List Doclet) (progress : Progress) (trouble : Prop) (doclet : Doclet)
    (role : Option Node.Role) (place : Place)
    : Prop where
  placed
    : doclet.longname ∈ progress.placed → Lands doclets progress.moved trouble doclet role place
  waiting : doclet.longname ∉ progress.placed → place = .nowhere

/-- The node of a doclet itself. -/
structure Own (doclets : List Doclet) (progress : Progress) (trouble : Prop) (doclet : Doclet)
    (node : Node)
    : Prop where
  role : node.role = none
  doclet_eq
    : ∃ memberof,
        node.doclet = { doclet with memberof } ∧ Named doclets progress.moved doclet memberof
  nested_iff
    : node.nested = true ↔ doclet.longname ∈ progress.called ∧ Nests doclets doclet
  situated : Situated doclets progress trouble doclet none node.place

/-- A node helps the doclet `owner`, and there is a reason for it. -/
inductive Serves (doclets : List Doclet) (progress : Progress) (owner : Doclet) (name : String)
    (node : Node)
    : Prop
  | interface (name_eq : name = interfaceHelper owner.longname)
    (hasBegun : owner.longname ∈ progress.begun) (heritage : HasHeritage owner)
    (same : SameDoclet node (interfaceOf owner))
  | namespace (name_eq : name = namespaceHelper owner.longname)
    (asked : Asked doclets progress.begun progress.called owner) {scope : Option Doclet.Scope}
    (same : SameDoclet node (namespaceOf owner scope))

/-- The node of a helper of the doclet `owner`. -/
structure Kin (doclets : List Doclet) (progress : Progress) (trouble : Prop) (owner : Doclet)
    (name : String) (node : Node)
    : Prop where
  serves : Serves doclets progress owner name node
  nested : node.nested = false
  situated : Situated doclets progress trouble owner node.role node.place

/-- Every node of the forest is that of a doclet or of a helper of one, and stands where linking has
put it so far.
-/
structure Charted (doclets : List Doclet) (progress : Progress) (trouble : Prop) (forest : Forest)
    : Prop where
  own
    : ∀ doclet ∈ doclets,
        ∃ node,
          forest.find? doclet.longname = some node ∧ Own doclets progress trouble doclet node
  helper
    : ∀ {name node},
        forest.find? name = some node
        → name ∉ doclets.map Doclet.longname
        → ∃ owner ∈ doclets, Kin doclets progress trouble owner name node

/-- The helpers are there that there is a reason for. -/
structure Supplied (doclets : List Doclet) (progress : Progress) (forest : Forest) : Prop where
  interfaces
    : ∀ owner ∈ doclets,
        HasHeritage owner
        → owner.longname ∈ progress.begun
        → forest.has (interfaceHelper owner.longname) = true
  namespaces
    : ∀ owner ∈ doclets,
        Asked doclets progress.moved progress.called owner
        → forest.has (namespaceHelper owner.longname) = true

variable {doclets : List Doclet} {progress : Progress} {trouble later : Prop}
variable {forest next : Forest} {doclet parent owner : Doclet} {name : String} {node : Node}

theorem Asked.isClassLike {moving called : List String} (asked : Asked doclets moving called owner)
    : owner.kind.isClassLike = true := by
  cases asked with
  | static _ static _ => exact Doclet.Kind.isClassLike_of_isInterfaceLike static.2.1
  | call _ calls _ => exact calls.2.1

theorem Asked.mono {moving called moreMoving moreCalled : List String}
    (asked : Asked doclets moving called owner) (moves : moving ⊆ moreMoving)
    (calls : called ⊆ moreCalled)
    : Asked doclets moreMoving moreCalled owner := by
  cases asked with
  | static listed static isMoving => exact .static listed static (moves isMoving)
  | call listed calling hasCalled => exact .call listed calling (calls hasCalled)

theorem Serves.isClassLike (serves : Serves doclets progress owner name node)
    : owner.kind.isClassLike = true := by
  cases serves with
  | interface _ _ heritage _ => simp [heritage.1, Doclet.Kind.isClassLike]
  | «namespace» _ asked _ => exact asked.isClassLike

theorem Serves.belongs (serves : Serves doclets progress owner name node)
    : Belongs name owner.longname := by
  cases serves with
  | interface name_eq _ _ _ => exact .inr (.inl name_eq)
  | «namespace» name_eq _ _ => exact .inr (.inr name_eq)

theorem Serves.isHelper (serves : Serves doclets progress owner name node)
    : node.isHelper = true := by
  cases serves with
  | interface _ _ _ same =>
      have role : node.role = some .interface := same.1
      simp [Node.isHelper, role]
  | «namespace» _ _ same =>
      have role : node.role = some .namespace := same.1
      simp [Node.isHelper, role]

theorem Serves.mono {more : Progress} {later : Node}
    (serves : Serves doclets progress owner name node) (begun : progress.begun ⊆ more.begun)
    (called : progress.called ⊆ more.called) (same : SameDoclet later node)
    : Serves doclets more owner name later := by
  cases serves with
  | interface name_eq hasBegun heritage sameInterface =>
      exact .interface name_eq (begun hasBegun) heritage (same.trans sameInterface)
  | «namespace» name_eq asked sameNamespace =>
      exact .namespace name_eq (asked.mono begun called) (same.trans sameNamespace)

theorem Calls.joins (calls : Calls doclets doclet parent) : Joins doclets doclet parent :=
  ⟨calls.1, Doclet.isEnum_eq_false_of_isClassLike calls.2.1⟩

theorem StaticOf.joins (static : StaticOf doclets parent doclet) : Joins doclets doclet parent :=
  have classLike := Doclet.Kind.isClassLike_of_isInterfaceLike static.2.1
  ⟨static.1, Doclet.isEnum_eq_false_of_isClassLike classLike⟩

/-- The node with the longname of a helper is a helper of the doclet that the longname tells. -/
theorem Charted.kin_of (charted : Charted doclets progress trouble forest) (plain : Plain doclets)
    (distinct : (doclets.map Doclet.longname).Nodup) (member : owner ∈ doclets)
    (belongs : Belongs name owner.longname) (isHelper : name ≠ owner.longname)
    (found : forest.find? name = some node)
    : Kin doclets progress trouble owner name node := by
  have unlisted : name ∉ doclets.map Doclet.longname := by
    rcases belongs with same | rfl | rfl
    · exact absurd same isHelper
    · exact plain.interface_fresh _
    · exact plain.namespace_fresh _
  obtain ⟨other, otherMember, kin⟩ := charted.helper found unlisted
  have same : other = owner := eq_of_longname_eq distinct otherMember member
    (kin.serves.belongs.unique (plain other otherMember).1 (plain owner member).1 belongs)
  exact same ▸ kin

/-- What belongs to a doclet that has not been put to its place stands nowhere. -/
theorem Charted.waiting (charted : Charted doclets progress trouble forest) (plain : Plain doclets)
    (distinct : (doclets.map Doclet.longname).Nodup) (member : owner ∈ doclets)
    (unplaced : owner.longname ∉ progress.placed) (belongs : Belongs name owner.longname)
    (found : forest.find? name = some node)
    : node.place = .nowhere := by
  by_cases isDoclet : name = owner.longname
  · subst isDoclet
    obtain ⟨ownNode, ownFound, own⟩ := charted.own owner member
    cases ownFound.symm.trans found
    exact own.situated.waiting unplaced
  · exact (charted.kin_of plain distinct member belongs isDoclet found).situated.waiting unplaced

theorem Plain.namespaceHelper_ne (plain : Plain doclets) (member : owner ∈ doclets) (name : String)
    : namespaceHelper name ≠ owner.longname :=
  fun same => (plain owner member).1 (same ▸ reserved_namespaceHelper name)

theorem Plain.interfaceHelper_ne (plain : Plain doclets) (member : owner ∈ doclets) (name : String)
    : interfaceHelper name ≠ owner.longname :=
  fun same => (plain owner member).1 (same ▸ reserved_interfaceHelper name)

theorem Charted.namespace_of (charted : Charted doclets progress trouble forest)
    (plain : Plain doclets) (distinct : (doclets.map Doclet.longname).Nodup)
    (member : owner ∈ doclets)
    (found : forest.find? (namespaceHelper owner.longname) = some node)
    : Asked doclets progress.begun progress.called owner
      ∧ node.role = some .namespace
      ∧ node.doclet.kind = .namespace
      ∧ Situated doclets progress trouble owner (some .namespace) node.place := by
  have kin := charted.kin_of plain distinct member (.inr (.inr rfl))
    (plain.namespaceHelper_ne member _) found
  obtain ⟨serves, _, situated⟩ := kin
  cases serves with
  | interface same _ _ _ => exact absurd same.symm (interfaceHelper_ne_namespaceHelper _ _)
  | «namespace» _ asked same =>
      have role : node.role = some .namespace := same.1
      exact ⟨asked, role, same.kind_eq, role ▸ situated⟩

theorem Charted.interface_of (charted : Charted doclets progress trouble forest)
    (plain : Plain doclets) (distinct : (doclets.map Doclet.longname).Nodup)
    (member : owner ∈ doclets)
    (found : forest.find? (interfaceHelper owner.longname) = some node)
    : owner.longname ∈ progress.begun
      ∧ HasHeritage owner
      ∧ node.role = some .interface
      ∧ Situated doclets progress trouble owner (some .interface) node.place := by
  have kin := charted.kin_of plain distinct member (.inr (.inl rfl))
    (plain.interfaceHelper_ne member _) found
  obtain ⟨serves, _, situated⟩ := kin
  cases serves with
  | interface _ hasBegun heritage same =>
      have role : node.role = some .interface := same.1
      exact ⟨hasBegun, heritage, role, role ▸ situated⟩
  | «namespace» same _ _ => exact absurd same (interfaceHelper_ne_namespaceHelper _ _)

theorem Supplied.changes (supplied : Supplied doclets progress forest)
    (changes : Changes forest next)
    : Supplied doclets progress next where
  interfaces owner member heritage begun :=
    changes.has (supplied.interfaces owner member heritage begun)
  namespaces owner member asked := changes.has (supplied.namespaces owner member asked)

/-- Once a doclet has begun, only its own interface can be missing. -/
theorem Supplied.begin (supplied : Supplied doclets progress forest)
    (distinct : (doclets.map Doclet.longname).Nodup) (member : doclet ∈ doclets)
    (own : HasHeritage doclet → forest.has (interfaceHelper doclet.longname) = true)
    : Supplied doclets { progress with begun := doclet.longname :: progress.begun } forest := by
  refine ⟨?_, supplied.namespaces⟩
  intro owner ownerMember heritage hasBegun
  rcases List.mem_cons.mp hasBegun with same | early
  · cases eq_of_longname_eq distinct ownerMember member same
    exact own heritage
  · exact supplied.interfaces owner ownerMember heritage early

/-- Once the static members of a doclet move, only its own namespace can be missing. -/
theorem Supplied.move (supplied : Supplied doclets progress forest)
    (distinct : (doclets.map Doclet.longname).Nodup) (member : doclet ∈ doclets)
    (own
      : ∀ other ∈ doclets,
          StaticOf doclets doclet other → forest.has (namespaceHelper doclet.longname) = true)
    : Supplied doclets { progress with moved := doclet.longname :: progress.moved } forest := by
  refine ⟨supplied.interfaces, ?_⟩
  intro owner ownerMember asked
  cases asked with
  | @static other listed static isMoving =>
      rcases List.mem_cons.mp isMoving with same | early
      · cases eq_of_longname_eq distinct ownerMember member same
        exact own other listed static
      · exact supplied.namespaces owner ownerMember (.static listed static early)
  | call listed calls hasCalled =>
      exact supplied.namespaces owner ownerMember (.call listed calls hasCalled)

/-- Once a doclet has called, only the namespace of its parent can be missing. -/
theorem Supplied.call (supplied : Supplied doclets progress forest)
    (distinct : (doclets.map Doclet.longname).Nodup) (member : doclet ∈ doclets)
    (own
      : ∀ parent, Calls doclets doclet parent → forest.has (namespaceHelper parent.longname) = true)
    : Supplied doclets { progress with called := doclet.longname :: progress.called } forest := by
  refine ⟨supplied.interfaces, ?_⟩
  intro owner ownerMember asked
  cases asked with
  | static listed static isMoving =>
      exact supplied.namespaces owner ownerMember (.static listed static isMoving)
  | call listed calls hasCalled =>
      rcases List.mem_cons.mp hasCalled with same | early
      · cases eq_of_longname_eq distinct listed member same
        exact own owner calls
      · exact supplied.namespaces owner ownerMember (.call listed calls early)

-----------------------------------------------------------------------------------------
-- A helper more
-----------------------------------------------------------------------------------------

/-- A new helper leaves every other node as it is. -/
theorem Charted.insert (charted : Charted doclets progress trouble forest)
    (fresh : forest.find? name = none)
    (finds
      : ∀ other, next.find? other = if other = name then some node else forest.find? other)
    (member : owner ∈ doclets) (kin : Kin doclets progress trouble owner name node)
    : Charted doclets progress trouble next := by
  have keeps {other : String} {old : Node} (found : forest.find? other = some old)
      : next.find? other = some old := by
    rw [finds, if_neg, found]
    rintro rfl
    exact absurd (found.symm.trans fresh) nofun
  constructor
  · intro doclet member
    obtain ⟨ownNode, found, own⟩ := charted.own doclet member
    exact ⟨ownNode, keeps found, own⟩
  · intro other found otherFound unlisted
    rw [finds] at otherFound
    split at otherFound
    · rename_i same
      cases otherFound
      exact ⟨owner, member, same ▸ kin⟩
    · exact charted.helper otherFound unlisted

/-- The interface of a doclet may be there from now on. -/
theorem Charted.begin (charted : Charted doclets progress trouble forest) (name : String)
    : Charted doclets { progress with begun := name :: progress.begun } trouble forest := by
  constructor
  · intro doclet member
    obtain ⟨node, found, own⟩ := charted.own doclet member
    exact ⟨node, found, own.role, own.doclet_eq, own.nested_iff, own.situated.placed,
      own.situated.waiting⟩
  · intro other node found unlisted
    obtain ⟨owner, member, kin⟩ := charted.helper found unlisted
    exact ⟨owner, member,
      kin.serves.mono (List.subset_cons_self _ _) (List.Subset.refl _) (.refl node), kin.nested,
      kin.situated.placed, kin.situated.waiting⟩

/-- Adding the interface of a doclet keeps the chart, and tells whether the interface is there. -/
theorem Charted.addInterface (charted : Charted doclets progress trouble forest)
    (supplied : Supplied doclets progress forest) (plain : Plain doclets)
    (distinct : (doclets.map Doclet.longname).Nodup) (member : doclet ∈ doclets)
    (unbegun : doclet.longname ∉ progress.begun) (unplaced : doclet.longname ∉ progress.placed)
    (memberof : Option String)
    : let result := forest.addInterface { doclet with memberof }
      let begun := { progress with begun := doclet.longname :: progress.begun }
      Charted doclets begun trouble result.1
      ∧ Supplied doclets begun result.1
      ∧ result.1.warnings = forest.warnings
      ∧ result.2 = [interfaceHelper doclet.longname].filter result.1.has := by
  have fresh : forest.find? (interfaceHelper doclet.longname) = none := by
    cases found : forest.find? (interfaceHelper doclet.longname) with
    | none => rfl
    | some node => exact absurd (charted.interface_of plain distinct member found).1 unbegun
  have begun := charted.begin doclet.longname
  have supplies :=
    (supplied.changes (addInterface_changes forest { doclet with memberof })).begin distinct member
  unfold Forest.addInterface at supplies ⊢
  dsimp only at supplies ⊢
  split
  · rename_i idle
    refine ⟨begun, ?_, rfl, by simp [has, fresh]⟩
    rw [if_pos idle] at supplies
    apply supplies
    rintro ⟨isClass, heritage⟩
    refine absurd idle ?_
    have absent : forest.has (interfaceOf { doclet with memberof }).longname = false := by
      simp [has, fresh]
    have nonempty : (interfaceOf { doclet with memberof }).doclet.augments.isEmpty = false :=
      List.isEmpty_eq_false_iff.mpr heritage
    rw [nonempty, absent]
    simp [isClass]
  · rename_i needed
    rw [if_neg needed] at supplies
    simp only [Bool.or_eq_true, not_or, bne_iff_ne, ne_eq, not_not, List.isEmpty_iff] at needed
    have finds (other : String)
        : (forest.add (interfaceOf { doclet with memberof })).find? other
          = if other = interfaceHelper doclet.longname then
              some (interfaceOf { doclet with memberof })
            else forest.find? other :=
      find?_add_of_fresh fresh
    refine ⟨begun.insert fresh finds member ⟨?_, rfl, ?_⟩, supplies fun _ => has_add, rfl, ?_⟩
    · exact .interface rfl List.mem_cons_self ⟨needed.1.1, needed.1.2⟩ ⟨rfl, memberof, rfl⟩
    · exact ⟨fun placed => absurd placed unplaced, fun _ => rfl⟩
    · simp [has, finds]

/-- A namespace that there is a reason for is added where it is not there yet, and waits for its
owner.
-/
theorem Charted.addNamespace (charted : Charted doclets progress trouble forest)
    (member : owner ∈ doclets) (asked : Asked doclets progress.begun progress.called owner)
    (unplaced : owner.longname ∈ progress.placed
        → Lands doclets progress.moved trouble owner (some .namespace) .nowhere)
    (memberof : Option String) (scope : Option Doclet.Scope)
    : let next :=
        if forest.has (namespaceHelper owner.longname) then forest
        else forest.add (namespaceOf { owner with memberof } scope)
      Charted doclets progress trouble next
      ∧ next.warnings = forest.warnings
      ∧ next.has (namespaceHelper owner.longname) = true
      ∧ ∀ other,
          other ≠ namespaceHelper owner.longname → next.find? other = forest.find? other := by
  dsimp only
  split
  · rename_i known
    exact ⟨charted, rfl, known, fun _ _ => rfl⟩
  · rename_i absent
    have fresh := find?_of_not_has absent
    have finds (other : String)
        : (forest.add (namespaceOf { owner with memberof } scope)).find? other
          = if other = namespaceHelper owner.longname then
              some (namespaceOf { owner with memberof } scope)
            else forest.find? other :=
      find?_add_of_fresh fresh
    refine ⟨charted.insert fresh finds member ⟨?_, rfl, ⟨unplaced, fun _ => rfl⟩⟩, rfl, has_add,
      fun other different => by rw [finds, if_neg different]⟩
    exact .namespace rfl asked ⟨rfl, _, rfl⟩

-----------------------------------------------------------------------------------------
-- Static members come to the namespace of an interface
-----------------------------------------------------------------------------------------

/-- What has been moved matters for the place of a doclet only if it changes what holds it. -/
theorem Lands.congr {moved moving : List String} {role : Option Node.Role} {place : Place}
    (lands : Lands doclets moved trouble doclet role place)
    (same
      : ∀ parent,
          MemberOf doclets doclet parent
          → holder moving parent doclet = holder moved parent doclet)
    : Lands doclets moving trouble doclet role place := by
  cases lands with
  | root free => exact .root free
  | lost names unlisted => exact .lost names unlisted
  | dropped link enum => exact .dropped link enum
  | parked link enum awaited => exact .parked link enum awaited
  | missed link enum late => exact .missed link enum late
  | under joins => exact same _ joins.1 ▸ .under joins
  | refused circle troubled => exact .refused circle troubled
  | shut self late => exact .shut self late

theorem Situated.congr {moving : List String} {role : Option Node.Role} {place : Place}
    (situated : Situated doclets progress trouble doclet role place)
    (same
      : ∀ parent,
          MemberOf doclets doclet parent
          → holder moving parent doclet = holder progress.moved parent doclet)
    : Situated doclets { progress with moved := moving } trouble doclet role place :=
  ⟨fun placed => (situated.placed placed).congr same, situated.waiting⟩

/-- Only the static members of what is moved are renamed by that. -/
theorem renames_cons_iff {moved : List String}
    (distinct : (doclets.map Doclet.longname).Nodup) (member : owner ∈ doclets)
    (other : ¬ StaticOf doclets owner doclet) (link : MemberOf doclets doclet parent)
    : Renames (owner.longname :: moved) parent doclet ↔ Renames moved parent doclet := by
  constructor
  · rintro ⟨known, rest⟩
    rcases List.mem_cons.mp known with isOwner | earlier
    · cases eq_of_longname_eq distinct link.1 member isOwner
      exact absurd ⟨link, rest⟩ other
    · exact ⟨earlier, rest⟩
  · exact fun ⟨known, rest⟩ => ⟨List.mem_cons_of_mem _ known, rest⟩

/-- What leaves the body of a class goes to the namespace, whatever has been moved. -/
theorem holder_of_leaves {moved : List String} (parentLike : parent.kind.isClassLike = true)
    (leaves : doclet.leavesClass = true)
    : holder moved parent doclet = namespaceHelper parent.longname :=
  if_pos (.inl ⟨parentLike, leaves⟩)

theorem holder_of_renames {moved : List String} (renames : Renames moved parent doclet)
    : holder moved parent doclet = namespaceHelper parent.longname :=
  if_pos (.inr renames)

theorem holder_cases (moved : List String) (parent doclet : Doclet)
    : holder moved parent doclet = parent.longname
      ∨ holder moved parent doclet = namespaceHelper parent.longname := by
  unfold holder
  split
  · exact .inr rfl
  · exact .inl rfl

/-- A static member stands in the namespace of its parent once it has been moved there. -/
theorem Lands.inContainer {moved : List String}
    (lands : Lands doclets moved trouble doclet none node.place)
    (distinct : (doclets.map Doclet.longname).Nodup) (static : StaticOf doclets owner doclet)
    : Lands doclets (owner.longname :: moved) trouble doclet none
        (inContainer owner.longname (namespaceHelper owner.longname) node).place := by
  have renames : Renames (owner.longname :: moved) owner doclet :=
    ⟨List.mem_cons_self, static.2⟩
  have target : Lands doclets (owner.longname :: moved) trouble doclet none
      (.under (namespaceHelper owner.longname)) :=
    holder_of_renames renames ▸ .under static.joins
  simp only [Forest.inContainer]
  generalize node.place = place at lands
  cases lands with
  | root free => cases free.symm.trans static.1.2
  | lost names unlisted =>
      cases names.symm.trans static.1.2
      exact absurd (longname_mem static.1.1) unlisted
  | dropped link enum =>
      cases link.unique distinct static.1
      cases enum.symm.trans static.joins.2
  | under joins =>
      cases joins.1.unique distinct static.1
      rcases holder_cases moved owner doclet with body | container
      · rw [body, if_pos rfl]
        exact target
      · rw [container]
        split <;> exact target
  | refused circle troubled =>
      rw [if_neg (by simp)]
      exact .refused circle troubled

/-- The node of a static member, moved to the namespace of its parent. -/
theorem Own.inContainer (own : Own doclets progress trouble doclet node)
    (distinct : (doclets.map Doclet.longname).Nodup) (static : StaticOf doclets owner doclet)
    : Own doclets { progress with moved := owner.longname :: progress.moved } trouble doclet
        (inContainer owner.longname (namespaceHelper owner.longname) node) := by
  refine ⟨own.role, ?_, own.nested_iff, ?_, ?_⟩
  · obtain ⟨_, doclet_eq, _⟩ := own.doclet_eq
    refine ⟨some (namespaceHelper owner.longname), ?_,
      .moved static.1 ⟨List.mem_cons_self, static.2⟩⟩
    simp [Forest.inContainer, Node.withMemberof, doclet_eq]
  · exact fun placed => (own.situated.placed placed).inContainer distinct static
  · intro unplaced
    simp [Forest.inContainer, own.situated.waiting unplaced]

/-- A doclet that is no static member of what has been moved last is not concerned. -/
theorem Own.not_moved (own : Own doclets progress trouble doclet node)
    (distinct : (doclets.map Doclet.longname).Nodup) (member : owner ∈ doclets)
    (other : ¬ StaticOf doclets owner doclet)
    : Own doclets { progress with moved := owner.longname :: progress.moved } trouble doclet
        node := by
  obtain ⟨memberof, doclet_eq, named⟩ := own.doclet_eq
  refine ⟨own.role, ⟨memberof, doclet_eq, named.congr ?_⟩, own.nested_iff, own.situated.congr ?_⟩
  · exact fun parent link => renames_cons_iff distinct member other link
  · intro parent link
    simp only [holder, renames_cons_iff distinct member other link]

/-- Moving the static members of a doclet keeps the chart.
Witness: only these change. A static member with helpers is a class or the like and stood in the
namespace before, so its helpers stay beside it.
-/
theorem Charted.move (charted : Charted doclets progress trouble forest)
    (distinct : (doclets.map Doclet.longname).Nodup) (member : doclet ∈ doclets)
    (members : List String)
    (mem_members
      : ∀ name,
          name ∈ members
          ↔ ∃ other ∈ doclets, other.longname = name ∧ StaticOf doclets doclet other)
    (finds
      : ∀ other,
          next.find? other
          = if other ∈ members then
              (forest.find? other).map
                (inContainer doclet.longname (namespaceHelper doclet.longname))
            else forest.find? other)
    : Charted doclets { progress with moved := doclet.longname :: progress.moved } trouble
        next := by
  constructor
  · intro other otherMember
    obtain ⟨node, found, own⟩ := charted.own other otherMember
    by_cases static : StaticOf doclets doclet other
    · refine ⟨_, ?_, own.inContainer distinct static⟩
      rw [finds, if_pos ((mem_members _).mpr ⟨other, otherMember, rfl, static⟩), found,
        Option.map_some]
    · refine ⟨node, ?_, own.not_moved distinct member static⟩
      rw [finds, if_neg, found]
      intro listed
      obtain ⟨moved, movedMember, same, isStatic⟩ := (mem_members _).mp listed
      exact static (eq_of_longname_eq distinct movedMember otherMember same ▸ isStatic)
  · intro name node found unlisted
    have notMoved : name ∉ members := by
      intro listed
      obtain ⟨other, otherMember, rfl, _⟩ := (mem_members name).mp listed
      exact unlisted (longname_mem otherMember)
    rw [finds, if_neg notMoved] at found
    obtain ⟨owner, ownerMember, kin⟩ := charted.helper found unlisted
    have leaves := leavesClass_of_isClassLike kin.serves.isClassLike
    refine ⟨owner, ownerMember,
      kin.serves.mono (List.Subset.refl _) (List.Subset.refl _) (.refl node), kin.nested,
      kin.situated.congr ?_⟩
    intro parent link
    by_cases static : StaticOf doclets doclet owner
    · have parentLike := Doclet.Kind.isClassLike_of_isInterfaceLike static.2.1
      cases static.1.unique distinct link
      rw [holder_of_leaves parentLike leaves, holder_of_leaves parentLike leaves]
    · simp only [holder, renames_cons_iff distinct member static link]

/-- The static members of a doclet, as long as they have not been moved.
Witness: what has been moved names a namespace for its parent, and no doclet is named like that.
-/
theorem Charted.mem_statics (charted : Charted doclets progress trouble forest)
    (plain : Plain doclets) (distinct : (doclets.map Doclet.longname).Nodup)
    (member : doclet ∈ doclets) (unmoved : doclet.longname ∉ progress.moved) (name : String)
    : name ∈ forest.statics (doclets.map Doclet.longname) doclet.longname
      ↔ ∃ other ∈ doclets,
          other.longname = name ∧ MemberOf doclets other doclet ∧ other.isStatic = true := by
  have asked {other : Doclet} (otherMember : other ∈ doclets)
      : other.longname ∈ forest.statics (doclets.map Doclet.longname) doclet.longname
        ↔ MemberOf doclets other doclet ∧ other.isStatic = true := by
    obtain ⟨node, found, own⟩ := charted.own other otherMember
    obtain ⟨memberof, doclet_eq, named⟩ := own.doclet_eq
    have sameScope : node.doclet.isStatic = other.isStatic := by
      rw [doclet_eq]
      rfl
    have sameParent
        : node.doclet.memberof = some doclet.longname ↔ MemberOf doclets other doclet := by
      rw [doclet_eq]
      cases named with
      | own _ => exact ⟨fun names => ⟨member, names⟩, fun link => link.2⟩
      | @moved parent link renames =>
          constructor
          · intro names
            exact absurd (Option.some.inj names) (plain.namespaceHelper_ne member _)
          · intro own
            exact absurd (own.unique distinct link ▸ renames.1) unmoved
    simp [statics, found, longname_mem otherMember, sameScope, sameParent, and_comm]
  constructor
  · intro listed
    obtain ⟨other, otherMember, rfl⟩ := List.mem_map.mp (List.mem_filter.mp listed).1
    exact ⟨other, otherMember, rfl, (asked otherMember).mp listed⟩
  · rintro ⟨other, otherMember, rfl, isStatic⟩
    exact (asked otherMember).mpr isStatic

/-- Moving static members to a namespace that waits for its owner causes no warning and keeps the
chart.
-/
theorem Charted.moveAll (charted : Charted doclets progress trouble forest) (plain : Plain doclets)
    (distinct : (doclets.map Doclet.longname).Nodup) (member : doclet ∈ doclets)
    (unplaced : doclet.longname ∉ progress.placed)
    (known : forest.has (namespaceHelper doclet.longname) = true) {members : List String}
    (once : members.Nodup)
    (mem_members
      : ∀ name,
          name ∈ members
          ↔ ∃ other ∈ doclets, other.longname = name ∧ StaticOf doclets doclet other)
    : let next :=
        members.foldl (moveStatic doclet.longname (namespaceHelper doclet.longname)) forest
      Charted doclets { progress with moved := doclet.longname :: progress.moved } trouble next
      ∧ next.warnings = forest.warnings
      ∧ ∀ other, next.has other = forest.has other := by
  obtain ⟨container, found⟩ := has_iff.mp known
  obtain ⟨_, _, _, situated⟩ := charted.namespace_of plain distinct member found
  have free : forest.parent? (namespaceHelper doclet.longname) = none := by
    simp [parent?, found, situated.waiting unplaced]
  have apart : namespaceHelper doclet.longname ∉ members := by
    intro listed
    obtain ⟨other, otherMember, same, _⟩ := (mem_members _).mp listed
    exact plain.namespaceHelper_ne otherMember _ same.symm
  obtain ⟨warnings, finds⟩ := moveStatics_effect doclet.longname free once apart
  refine ⟨charted.move distinct member members mem_members finds, warnings, fun other => ?_⟩
  simp only [has, finds]
  split <;> simp

/-- Moving the static members of a doclet that has no place yet causes no warning and keeps the
chart.
-/
theorem Charted.moveStatics (charted : Charted doclets progress trouble forest)
    (supplied : Supplied doclets progress forest) (plain : Plain doclets)
    (distinct : (doclets.map Doclet.longname).Nodup) (member : doclet ∈ doclets)
    (begun : doclet.longname ∈ progress.begun) (unmoved : doclet.longname ∉ progress.moved)
    (unplaced : doclet.longname ∉ progress.placed) (memberof : Option String)
    : let next := forest.moveStatics (doclets.map Doclet.longname) { doclet with memberof }
      let moved := { progress with moved := doclet.longname :: progress.moved }
      Charted doclets moved trouble next
      ∧ Supplied doclets moved next
      ∧ next.warnings = forest.warnings
      ∧ ∀ other, other ≠ namespaceHelper doclet.longname → next.has other = forest.has other := by
  have mem_members := charted.mem_statics plain distinct member unmoved
  have changes := moveStatics_changes forest (doclets.map Doclet.longname) { doclet with memberof }
  have supplies := (supplied.changes changes).move distinct member
  unfold Forest.moveStatics at supplies ⊢
  dsimp only at supplies ⊢
  split
  · rename_i idle
    have noStatic (other : Doclet) (otherMember : other ∈ doclets)
        : ¬ StaticOf doclets doclet other := by
      rintro ⟨link, like, isStatic⟩
      have listed := (mem_members _).mpr ⟨other, otherMember, rfl, link, isStatic⟩
      rcases Bool.or_eq_true_iff.mp idle with unlike | empty
      · simp [like] at unlike
      · simp [List.isEmpty_iff.mp empty] at listed
    rw [if_pos idle] at supplies
    refine ⟨charted.move distinct member [] ?_ (by simp),
      supplies fun other otherMember static => absurd static (noStatic other otherMember), rfl,
      fun _ _ => rfl⟩
    intro name
    refine ⟨nofun, ?_⟩
    rintro ⟨other, otherMember, _, static⟩
    exact absurd static (noStatic other otherMember)
  · rename_i busy
    rw [if_neg busy] at supplies
    simp only [Bool.or_eq_true, not_or, Bool.not_eq_true', Bool.not_eq_false] at busy
    obtain ⟨like, nonempty⟩ := busy
    obtain ⟨_, listed⟩ := List.exists_mem_of_ne_nil _
      (fun empty => nonempty (List.isEmpty_iff.mpr empty))
    obtain ⟨first, firstMember, _, firstLink, firstStatic⟩ := (mem_members _).mp listed
    obtain ⟨middleCharted, middleWarnings, middleHas, middleFinds⟩ :=
      charted.addNamespace member (.static firstMember ⟨firstLink, like, firstStatic⟩ begun)
        (fun placed => absurd placed unplaced) memberof doclet.scope
    generalize (if forest.has (namespaceHelper doclet.longname) = true then forest
      else forest.add (namespaceOf { doclet with memberof } doclet.scope)) = middle at *
    have once : (forest.statics (doclets.map Doclet.longname) doclet.longname).Nodup :=
      List.filter_sublist.nodup distinct
    have static_iff (name : String)
        : name ∈ forest.statics (doclets.map Doclet.longname) doclet.longname
          ↔ ∃ other ∈ doclets, other.longname = name ∧ StaticOf doclets doclet other := by
      rw [mem_members]
      constructor
      · rintro ⟨other, otherMember, same, link, isStatic⟩
        exact ⟨other, otherMember, same, link, like, isStatic⟩
      · rintro ⟨other, otherMember, same, link, _, isStatic⟩
        exact ⟨other, otherMember, same, link, isStatic⟩
    obtain ⟨nextCharted, warnings, sameHas⟩ :=
      middleCharted.moveAll plain distinct member unplaced middleHas once static_iff
    refine ⟨nextCharted, supplies fun _ _ _ => (sameHas _).trans middleHas,
      warnings.trans middleWarnings, fun other different => ?_⟩
    rw [sameHas, has, has, middleFinds other different]

end Typings.Forest
