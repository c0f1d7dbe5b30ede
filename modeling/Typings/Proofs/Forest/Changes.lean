import Typings.Proofs.Forest.Ancestry

/-! The single changes that linking makes to a forest, each with what is known where it is made.
Linking a doclet is a line of such changes, and every one of them keeps a forest sound.
-/

namespace Typings.Forest

open Relation

/-- The nodes that linking adds. -/
inductive IsHelper : Node → Prop
  | interface (owner : Doclet) : IsHelper (interfaceOf owner)
  | namespace (owner : Doclet) (scope : Option Doclet.Scope) : IsHelper (namespaceOf owner scope)

/-- A node may stand under `parent`: what the body of a class cannot hold does not stand under a
class, interface or mixin.
-/
def Fits (forest : Forest) (parent : String) (node : Node) : Prop :=
  (∃ owner, parent = namespaceHelper owner)
  ∨ ∀ holder,
      forest.find? parent = some holder
      → holder.doclet.kind.isClassLike = true
      → node.doclet.leavesClass = false

/-- One change to a forest, under the conditions in which linking makes it. -/
inductive Change (forest : Forest) : Forest → Prop
  | warn (warning : Warning)
    (fromLinking : warning.kind = .unresolvedParent ∨ warning.kind = .cyclicMembership)
    : Change forest (forest.warn warning)
  | add {helper} (isHelper : IsHelper helper) (fresh : forest.find? helper.longname = none)
    : Change forest (forest.add helper)
  | rename (name container : String)
    : Change forest (forest.modify name fun node => node.withMemberof (some container))
  | nest (name : String)
    : Change forest (forest.modify name fun node => { node with nested := true })
  | root {name node} (found : forest.find? name = some node) (loose : node.place = .nowhere)
    : Change forest (forest.moveLast name fun node => settled node .root none)
  | attach {parent name node} (found : forest.find? name = some node)
    (loose : node.place = .nowhere) (known : forest.has parent = true)
    (apart : name ∉ forest.above parent) (fits : forest.Fits parent node)
    : Change forest (forest.moveLast name fun node => settled node (.under parent) (some parent))
  | detach (name : String) : Change forest (forest.detach name)
  | beside {owner} (found : forest.find? owner.longname = some owner)
    (classLike : owner.doclet.kind.isClassLike = true) (stands : owner.place ≠ .nowhere)
    (fresh : forest.find? (namespaceHelper owner.longname) = none)
    : Change forest (forest.addBehind owner (namespaceOf owner.doclet (some .static)))

/-- A line of changes. -/
abbrev Changes : Forest → Forest → Prop :=
  ReflTransGen Change

variable {forest next : Forest} {name parent : String} {node : Node}

theorem IsHelper.place_eq (isHelper : IsHelper node) : node.place = .nowhere := by
  cases isHelper <;> rfl

@[simp]
theorem longname_interfaceOf (owner : Doclet)
    : (interfaceOf owner).longname = interfaceHelper owner.longname := rfl

/-- A fresh namespace behind its owner is found, and all other nodes are found as before. -/
theorem find?_addBehind_namespaceOf {owner : Node} {scope : Option Doclet.Scope}
    (found : forest.find? owner.longname = some owner)
    (fresh : forest.find? (namespaceHelper owner.longname) = none)
    : (forest.addBehind owner (namespaceOf owner.doclet scope)).find? name
      = if name = namespaceHelper owner.longname then
          some (beside owner (namespaceOf owner.doclet scope))
        else forest.find? name :=
  find?_addBehind (mem_of_find? found) fresh

-----------------------------------------------------------------------------------------
-- What a change leaves of the nodes
-----------------------------------------------------------------------------------------

/-- Two nodes are there for the same, and their doclets differ in the parent named at most. -/
def SameDoclet (node old : Node) : Prop :=
  node.role = old.role ∧ ∃ memberof, node.doclet = { old.doclet with memberof }

theorem SameDoclet.refl (node : Node) : SameDoclet node node :=
  ⟨rfl, node.doclet.memberof, rfl⟩

theorem SameDoclet.trans {middle old : Node} (upper : SameDoclet node middle)
    (lower : SameDoclet middle old)
    : SameDoclet node old := by
  obtain ⟨memberof, doclet⟩ := upper.2
  obtain ⟨_, oldDoclet⟩ := lower.2
  exact ⟨upper.1.trans lower.1, memberof, by rw [doclet, oldDoclet]⟩

theorem SameDoclet.kind_eq {old : Node} (same : SameDoclet node old)
    : node.doclet.kind = old.doclet.kind := by
  obtain ⟨_, doclet⟩ := same.2
  rw [doclet]

theorem SameDoclet.leavesClass_eq {old : Node} (same : SameDoclet node old)
    : node.doclet.leavesClass = old.doclet.leavesClass := by
  obtain ⟨_, doclet⟩ := same.2
  rw [doclet]
  rfl

theorem sameDoclet_settled (node : Node) (place : Place) (memberof : Option String)
    : SameDoclet (settled node place memberof) node := by
  unfold settled
  split
  · exact ⟨rfl, memberof, rfl⟩
  · exact .refl node

/-- Every node stays, with its doclet but for the parent named there. -/
theorem Change.keeps (change : Change forest next) {old : Node}
    (found : forest.find? name = some old)
    : ∃ node, next.find? name = some node ∧ SameDoclet node old := by
  cases change with
  | warn warning _ => exact ⟨old, found, .refl old⟩
  | add isHelper fresh => exact ⟨old, by simp [find?_add, found], .refl old⟩
  | rename other container =>
      rw [find?_modify (by simp), found]
      split
      · exact ⟨_, rfl, rfl, some container, rfl⟩
      · exact ⟨old, rfl, .refl old⟩
  | nest other =>
      rw [find?_modify (by intro _; rfl), found]
      split
      · exact ⟨_, rfl, .refl old⟩
      · exact ⟨old, rfl, .refl old⟩
  | root _ _ =>
      rw [find?_moveLast (by simp), found]
      split
      · exact ⟨_, rfl, sameDoclet_settled old _ _⟩
      · exact ⟨old, rfl, .refl old⟩
  | attach _ _ _ _ _ =>
      rw [find?_moveLast (by simp), found]
      split
      · exact ⟨_, rfl, sameDoclet_settled old _ _⟩
      · exact ⟨old, rfl, .refl old⟩
  | detach other =>
      rw [Forest.detach, find?_modify (by intro _; rfl), found]
      split
      · exact ⟨_, rfl, .refl old⟩
      · exact ⟨old, rfl, .refl old⟩
  | @beside owner ownerFound _ _ fresh =>
      refine ⟨old, ?_, .refl old⟩
      rw [find?_addBehind_namespaceOf ownerFound fresh, if_neg, found]
      rintro rfl
      exact absurd (found.symm.trans fresh) (by simp)

theorem Changes.keeps (changes : Changes forest next) {old : Node}
    (found : forest.find? name = some old)
    : ∃ node, next.find? name = some node ∧ SameDoclet node old := by
  induction changes with
  | refl => exact ⟨old, found, .refl old⟩
  | tail _ last ih =>
      obtain ⟨middle, middleFound, middleSame⟩ := ih
      obtain ⟨node, nodeFound, same⟩ := last.keeps middleFound
      exact ⟨node, nodeFound, same.trans middleSame⟩

theorem Changes.has (changes : Changes forest next) (known : forest.has name = true)
    : next.has name = true := by
  obtain ⟨old, found⟩ := has_iff.mp known
  obtain ⟨node, nodeFound, _⟩ := changes.keeps found
  exact has_of_find? nodeFound

theorem Change.warnings_prefix (change : Change forest next)
    : forest.warnings <+: next.warnings := by
  cases change with
  | warn warning _ => exact List.prefix_append _ _
  | root _ _ => exact (warnings_moveLast _).symm ▸ List.prefix_rfl
  | attach _ _ _ _ _ => exact (warnings_moveLast _).symm ▸ List.prefix_rfl
  | add _ _ | rename _ _ | nest _ | detach _ | beside _ _ _ _ => exact List.prefix_rfl

theorem Changes.warnings_prefix (changes : Changes forest next)
    : forest.warnings <+: next.warnings := by
  induction changes with
  | refl => exact List.prefix_rfl
  | tail _ last ih => exact ih.trans last.warnings_prefix

-----------------------------------------------------------------------------------------
-- Every change keeps a forest sound
-----------------------------------------------------------------------------------------

/-- A forest with one link more at most stays sound if that link closes no circle.
Witness: what does not stand under the lower end has the old lines only, the upper end is such a
node, and all other lines pass through the lower end at most once.
-/
theorem Sound.of_link (sound : forest.Sound) (lower upper : String)
    (distinct : next.longnames.Nodup)
    (keeps : ∀ name, forest.has name = true → next.has name = true)
    (known : next.has upper = true)
    (links
      : ∀ {name parent},
          next.StandsUnder name parent
          → forest.StandsUnder name parent ∨ name = lower ∧ parent = upper)
    (open' : ¬ ReflTransGen forest.StandsUnder upper lower)
    : next.Sound := by
  have aside (name : String) (apart : ¬ ReflTransGen forest.StandsUnder name lower)
      : Acc (fun parent name => next.StandsUnder name parent) name := by
    induction name using sound.grounded.induction with
    | _ name ih =>
      constructor
      intro parent link
      rcases links link with old | ⟨rfl, _⟩
      · exact ih parent old (fun line => apart (.head old line))
      · exact absurd .refl apart
  refine ⟨distinct, ?_, ⟨?_⟩⟩
  · intro name parent link
    rcases links link with old | ⟨_, rfl⟩
    · exact keeps parent (sound.parents old)
    · exact known
  · intro name
    induction name using sound.grounded.induction with
    | _ name ih =>
      constructor
      intro parent link
      rcases links link with old | ⟨_, rfl⟩
      · exact ih parent old
      · exact aside parent open'

/-- A forest without a new link stays sound. -/
theorem Sound.of_links (sound : forest.Sound)
    (distinct : next.longnames.Nodup)
    (keeps : ∀ name, forest.has name = true → next.has name = true)
    (links
      : ∀ {name parent}, next.StandsUnder name parent → forest.StandsUnder name parent)
    : next.Sound where
  distinct := distinct
  parents link := keeps _ (sound.parents (links link))
  grounded := Subrelation.wf links sound.grounded

theorem standsUnder_add (fresh : forest.find? node.longname = none)
    (loose : node.place = .nowhere)
    (link : (forest.add node).StandsUnder name parent)
    : forest.StandsUnder name parent := by
  obtain ⟨other, found, place⟩ := parent?_eq_some_iff.mp link
  rw [find?_add_of_fresh fresh] at found
  split at found
  · cases found
    cases loose.symm.trans place
  · exact parent?_eq_some_iff.mpr ⟨other, found, place⟩

/-- A namespace beside its owner is linked to what the owner stands under, and nothing else is. -/
theorem standsUnder_addBehind {owner : Node} {scope : Option Doclet.Scope}
    (ownerFound : forest.find? owner.longname = some owner)
    (fresh : forest.find? (namespaceHelper owner.longname) = none)
    (link : (forest.addBehind owner (namespaceOf owner.doclet scope)).StandsUnder name parent)
    : forest.StandsUnder name parent
      ∨ name = namespaceHelper owner.longname ∧ owner.place = .under parent := by
  obtain ⟨node, found, place⟩ := parent?_eq_some_iff.mp link
  rw [find?_addBehind_namespaceOf ownerFound fresh] at found
  split at found
  · rename_i same
    cases found
    exact .inr ⟨same, place⟩
  · exact .inl (parent?_eq_some_iff.mpr ⟨node, found, place⟩)

theorem standsUnder_modify {other : String} {change : Node → Node}
    (keeps : ∀ node, (change node).longname = node.longname)
    (stays : ∀ node, (change node).place = .under parent → node.place = .under parent)
    (link : (forest.modify other change).StandsUnder name parent)
    : forest.StandsUnder name parent := by
  obtain ⟨node, found, place⟩ := parent?_eq_some_iff.mp link
  rw [find?_modify keeps] at found
  split at found
  · obtain ⟨old, oldFound, rfl⟩ := Option.map_eq_some_iff.mp found
    exact parent?_eq_some_iff.mpr ⟨old, oldFound, stays old place⟩
  · exact parent?_eq_some_iff.mpr ⟨node, found, place⟩

theorem standsUnder_moveLast {other : String} {place : Place} {memberof : Option String}
    (link
      : (forest.moveLast other fun node => settled node place memberof).StandsUnder name parent)
    : forest.StandsUnder name parent ∨ name = other ∧ place = .under parent := by
  obtain ⟨node, found, nodePlace⟩ := parent?_eq_some_iff.mp link
  rw [find?_moveLast (by simp)] at found
  split at found
  · rename_i same
    obtain ⟨old, _, rfl⟩ := Option.map_eq_some_iff.mp found
    exact .inr ⟨same, nodePlace⟩
  · exact .inl (parent?_eq_some_iff.mpr ⟨node, found, nodePlace⟩)

theorem Sound.put (sound : forest.Sound) (known : forest.has parent = true)
    (apart : ¬ ReflTransGen forest.StandsUnder parent name) (memberof : Option String)
    : (forest.moveLast name fun node => settled node (.under parent) memberof).Sound := by
  have moved
      : (forest.moveLast name fun node => settled node (.under parent) memberof).longnames.Perm
          forest.longnames :=
    longnames_moveLast sound.distinct (by simp)
  have keeps (other : String) (otherKnown : forest.has other = true)
      : (forest.moveLast name fun node => settled node (.under parent) memberof).has other
        = true :=
    has_iff_mem.mpr (moved.mem_iff.mpr (has_iff_mem.mp otherKnown))
  refine sound.of_link name parent (moved.nodup_iff.mpr sound.distinct) keeps
    (keeps parent known) ?_ apart
  intro lower upper link
  refine (standsUnder_moveLast link).imp_right fun ⟨same, place⟩ => ⟨same, ?_⟩
  exact (Place.under.inj place).symm

theorem Change.distinct (change : Change forest next) (distinct : forest.longnames.Nodup)
    : next.longnames.Nodup := by
  have fresh {helper : Node} (absent : forest.find? helper.longname = none)
      : (helper.longname :: forest.longnames).Nodup :=
    List.nodup_cons.mpr ⟨find?_eq_none_iff.mp absent, distinct⟩
  cases change with
  | warn _ _ => exact distinct
  | @add helper _ absent =>
      rw [longnames_add]
      exact (List.perm_append_singleton _ _).nodup_iff.mpr (fresh absent)
  | rename _ _ =>
      rw [longnames_modify (by simp)]
      exact distinct
  | nest name =>
      rw [longnames_modify (by intro _; rfl)]
      exact distinct
  | detach name =>
      rw [Forest.detach, longnames_modify (by intro _; rfl)]
      exact distinct
  | root _ _ | attach _ _ _ _ _ =>
      exact (longnames_moveLast distinct (by simp)).nodup_iff.mpr distinct
  | @beside owner found _ _ absent =>
      exact (longnames_addBehind (mem_of_find? found)).nodup_iff.mpr (fresh absent)

/-- Linking warns of nothing but parents. -/
theorem Change.warnings_kind (change : Change forest next)
    (known
      : ∀ warning ∈ forest.warnings,
          warning.kind = .unresolvedParent ∨ warning.kind = .cyclicMembership)
    : ∀ warning ∈ next.warnings,
        warning.kind = .unresolvedParent ∨ warning.kind = .cyclicMembership := by
  cases change with
  | warn warning fromLinking =>
      intro other listed
      rcases List.mem_append.mp listed with early | last
      · exact known other early
      · cases List.mem_singleton.mp last
        exact fromLinking
  | root _ _ => rwa [warnings_moveLast]
  | attach _ _ _ _ _ => rwa [warnings_moveLast]
  | add _ _ | rename _ _ | nest _ | detach _ | beside _ _ _ _ => exact known

theorem Changes.warnings_kind (changes : Changes forest next)
    (known
      : ∀ warning ∈ forest.warnings,
          warning.kind = .unresolvedParent ∨ warning.kind = .cyclicMembership)
    : ∀ warning ∈ next.warnings,
        warning.kind = .unresolvedParent ∨ warning.kind = .cyclicMembership := by
  induction changes with
  | refl => exact known
  | tail _ last ih => exact last.warnings_kind ih

/-- A change makes no link, or one link: to a parent that can hold the node and does not stand under
it, or from a new namespace to what its owner stands under.
-/
theorem Change.links (change : Change forest next)
    : (∀ {name parent}, next.StandsUnder name parent → forest.StandsUnder name parent)
      ∨ ∃ lower upper,
          (∀ {name parent},
            next.StandsUnder name parent
            → forest.StandsUnder name parent ∨ name = lower ∧ parent = upper)
          ∧ ((∃ node,
                forest.find? lower = some node
                ∧ forest.has upper = true
                ∧ lower ∉ forest.above upper
                ∧ forest.Fits upper node)
              ∨ ∃ owner,
                  lower = namespaceHelper owner.longname
                  ∧ forest.find? lower = none
                  ∧ forest.find? owner.longname = some owner
                  ∧ owner.doclet.kind.isClassLike = true
                  ∧ forest.StandsUnder owner.longname upper) := by
  cases change with
  | warn _ _ => exact .inl id
  | @add helper isHelper fresh =>
      exact .inl (standsUnder_add fresh isHelper.place_eq)
  | rename _ _ => exact .inl (standsUnder_modify (by simp) fun _ place => place)
  | nest _ => exact .inl (standsUnder_modify (by intro _; rfl) fun _ place => place)
  | detach _ =>
      exact .inl (standsUnder_modify (by intro _; rfl) fun _ place => by cases place)
  | root _ _ =>
      left
      intro name parent link
      exact (standsUnder_moveLast link).resolve_right fun ⟨_, place⟩ => by cases place
  | @attach upper lower node found _ known apart fits =>
      refine .inr ⟨lower, upper, ?_, .inl ⟨node, found, known, apart, fits⟩⟩
      intro name parent link
      refine (standsUnder_moveLast link).imp_right fun ⟨same, place⟩ => ⟨same, ?_⟩
      exact (Place.under.inj place).symm
  | @beside owner ownerFound classLike stands fresh =>
      cases ownerPlace : owner.place with
      | nowhere => exact absurd ownerPlace stands
      | root =>
          left
          intro name parent link
          exact (standsUnder_addBehind ownerFound fresh link).resolve_right fun ⟨_, place⟩ => by
            simp [ownerPlace] at place
      | under upper =>
          refine .inr ⟨namespaceHelper owner.longname, upper, ?_, .inr ⟨owner, rfl, fresh,
            ownerFound, classLike, parent?_eq_some_iff.mpr ⟨owner, ownerFound, ownerPlace⟩⟩⟩
          intro name parent link
          refine (standsUnder_addBehind ownerFound fresh link).imp_right
            fun ⟨same, place⟩ => ⟨same, ?_⟩
          exact (Place.under.inj (ownerPlace.symm.trans place)).symm

/-- Every change keeps a forest sound.
Witness: a link is made where the parent does not stand under the node, or from a node that nothing
can stand under yet.
-/
theorem Change.sound (change : Change forest next) (sound : forest.Sound) : next.Sound := by
  have distinct := change.distinct sound.distinct
  have keeps (name : String) (known : forest.has name = true) : next.has name = true :=
    Changes.has (.single change) known
  rcases change.links with old | ⟨lower, upper, links, made | made⟩
  · exact sound.of_links distinct keeps old
  · obtain ⟨_, _, known, apart, _⟩ := made
    refine sound.of_link lower upper distinct keeps (keeps upper known) links ?_
    exact fun line => apart ((mem_above_iff sound).mpr line)
  · obtain ⟨owner, _, fresh, _, _, under⟩ := made
    refine sound.of_link lower upper distinct keeps (keeps upper (sound.parents under)) links ?_
    have absent : ¬ forest.has lower = true := by simp [has, fresh]
    intro line
    rcases ReflTransGen.cases_tail line with same | ⟨middle, _, last⟩
    · exact absent (same ▸ sound.parents under)
    · exact absent (sound.parents last)

end Typings.Forest
