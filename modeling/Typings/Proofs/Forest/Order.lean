import Typings.Proofs.Forest.Comparing
import Typings.Proofs.Forest.Placement

/-! What is reachable, and where it stands, does not depend on the order of plain doclets with
distinct longnames, but for one thing: the namespace of a class, interface or mixin in an
enumeration is reachable only if it is called for before that is put to its place.
-/

namespace Typings.Forest

open Relation

variable {settings : Settings} {doclets others kept : List Doclet} {forest other : Forest}
variable {doclet owner member : Doclet}

-----------------------------------------------------------------------------------------
-- Forests that agree but for the order of their nodes
-----------------------------------------------------------------------------------------

/-- The same nodes are reachable in two forests, and each of them has the same parent in both. -/
structure SamePlaces (forest other : Forest) : Prop where
  reachable_iff : ∀ name, name ∈ forest.reachable ↔ name ∈ other.reachable
  parent?_eq : ∀ name ∈ forest.reachable, forest.parent? name = other.parent? name

/-- The namespace of `owner` is parked among the roots or left behind, depending on what comes
first: `owner`, which an enumeration drops, or a member that calls for the namespace.
-/
def Contested (doclets : List Doclet) (owner : Doclet) : Prop :=
  (∃ parent, MemberOf doclets owner parent ∧ parent.isEnum = true)
  ∧ (¬ ∃ member ∈ doclets, StaticOf doclets owner member)
  ∧ ∃ member ∈ doclets, Calls doclets member owner

-----------------------------------------------------------------------------------------
-- Without contest the order does not matter
-----------------------------------------------------------------------------------------

/-- An uncontested namespace in an enumeration is waited for in every order or in none. -/
theorem awaited_of_not_contested {parent : Doclet} (subset : kept ⊆ doclets)
    (uncontested : ¬ Contested kept owner) (link : MemberOf kept owner parent)
    (enum : parent.isEnum = true) (awaited : Awaited kept owner)
    : Awaited doclets owner := by
  rcases awaited with ⟨member, listed, static⟩ | ⟨member, precedes, calls⟩
  · exact .inl ⟨member, subset listed, static.mono subset⟩
  · left
    by_contra noStatic
    refine uncontested ⟨⟨parent, link, enum⟩, ?_, member, precedes.member, calls⟩
    rintro ⟨other, listed, static⟩
    exact noStatic ⟨other, subset listed, static.mono subset⟩

theorem Contested.mono (subset : doclets ⊆ kept) (back : kept ⊆ doclets)
    (contested : Contested doclets owner)
    : Contested kept owner := by
  obtain ⟨⟨parent, link, enum⟩, noStatic, member, listed, calls⟩ := contested
  refine ⟨⟨parent, link.mono subset, enum⟩, ?_, member, subset listed, calls.mono subset⟩
  rintro ⟨other, otherListed, static⟩
  exact noStatic ⟨other, back otherListed, static.mono back⟩

theorem samePlaces_linkAll (plain : Plain doclets)
    (distinct : (doclets.map Doclet.longname).Nodup) (perm : others.Perm doclets)
    (uncontested : ∀ owner ∈ doclets, ¬ Contested doclets owner)
    : SamePlaces (linkAll doclets) (linkAll others) := by
  have otherDistinct : (others.map Doclet.longname).Nodup :=
    (perm.map Doclet.longname).nodup_iff.mpr distinct
  have otherPlain : Plain others := fun doclet member => plain doclet (perm.subset member)
  have settled := settled_linkAll plain distinct
  have otherSettled := settled_linkAll otherPlain otherDistinct
  have forth := settled.reachable_subset otherSettled otherPlain otherDistinct perm.symm.subset
    distinct fun owner member _ => awaited_of_not_contested perm.symm.subset
      (uncontested owner member)
  have otherUncontested (owner : Doclet) (member : owner ∈ others) : ¬ Contested others owner :=
    fun contested => uncontested owner (perm.subset member)
      (contested.mono perm.subset perm.symm.subset)
  have back := otherSettled.reachable_subset settled plain distinct perm.subset otherDistinct
    fun owner member _ => awaited_of_not_contested perm.subset (otherUncontested owner member)
  refine ⟨fun name => ⟨fun reached => forth reached, fun reached => back reached⟩,
    fun name reached => ?_⟩
  exact (settled.parent?_of_subset otherSettled otherPlain otherDistinct perm.symm.subset
    distinct (fun owner member _ => awaited_of_not_contested perm.symm.subset
      (uncontested owner member)) reached).symm

-----------------------------------------------------------------------------------------
-- A contested namespace depends on the order
-----------------------------------------------------------------------------------------

/-- A namespace that is called for in an enumeration is reachable exactly if it is waited for. -/
theorem namespace_reachable_iff (plain : Plain doclets)
    (distinct : (doclets.map Doclet.longname).Nodup) (listed : owner ∈ doclets)
    (contested : Contested doclets owner)
    : namespaceHelper owner.longname ∈ (linkAll doclets).reachable ↔ Awaited doclets owner := by
  obtain ⟨⟨parent, link, enum⟩, _, member, memberListed, calls⟩ := contested
  have settled := settled_linkAll plain distinct
  obtain ⟨node, found⟩ := has_iff.mp (settled.supplied.namespaces owner listed
    (.call memberListed calls (longname_mem_reverse memberListed)))
  obtain ⟨_, role, _⟩ := settled.charted.namespace_of plain distinct listed found
  have lands := settled.lands plain distinct listed (.inr (.inr rfl)) found
  have apart := not_onCircle_of_enum distinct link enum
  rw [role] at lands
  generalize place_eq : node.place = place at lands
  have notMissed (stands : place ≠ .nowhere) : place = .root ∧ Awaited doclets owner := by
    cases lands with
    | root free => cases free.symm.trans link.2
    | parked _ _ awaited => exact ⟨rfl, awaited rfl⟩
    | under joins =>
        cases joins.1.unique distinct link
        cases enum.symm.trans joins.2
    | lost _ _ | missed _ _ _ | refused _ _ | shut _ _ => exact absurd rfl stands
  constructor
  · intro reached
    exact (notMissed (place_eq ▸ place_ne_nowhere settled.sound reached found)).2
  · intro awaited
    have stands : place ≠ .nowhere := by
      cases lands with
      | lost names unlisted =>
          cases names.symm.trans link.2
          exact absurd (longname_mem link.1) unlisted
      | missed _ _ late => exact absurd awaited late
      | refused circle _ => exact absurd circle apart
      | shut self _ => exact absurd (.single self) apart
      | root _ | parked _ _ _ | under _ => exact nofun
    exact (mem_reachable_iff settled.sound).mpr
      ⟨_, node, found, place_eq.trans (notMissed stands).1, .refl⟩

theorem not_awaited_of_first (distinct : ((owner :: kept).map Doclet.longname).Nodup)
    (noStatic : ¬ ∃ member ∈ owner :: kept, StaticOf (owner :: kept) owner member)
    : ¬ Awaited (owner :: kept) owner := by
  rintro (static | ⟨member, precedes, _⟩)
  · exact noStatic static
  · have split : owner :: kept = [] ++ owner :: kept := rfl
    exact absurd ((precedes_iff_mem_front split distinct).mp precedes) List.not_mem_nil

theorem awaited_of_first (listed : owner ∈ kept) (calls : Calls (member :: kept) member owner)
    : Awaited (member :: kept) owner :=
  .inr ⟨member, (List.singleton_sublist.mpr listed).cons_cons member, calls⟩

/-- In a suitable order the namespace of a contested doclet is waited for or not, as one likes. -/
theorem exists_order (distinct : (doclets.map Doclet.longname).Nodup)
    (listed : owner ∈ survivors settings doclets)
    (contested : Contested (survivors settings doclets) owner) (waits : Prop)
    : ∃ others,
        others.Perm doclets ∧ (Awaited (survivors settings others) owner ↔ waits) := by
  have reorder {others : List Doclet} (perm : others.Perm doclets)
      : survivors settings others = others.filter settings.admits :=
    survivors_of_nodup settings ((perm.map Doclet.longname).nodup_iff.mpr distinct)
  obtain ⟨_, _, member, memberListed, calls⟩ := id contested
  by_cases waits
  · -- The member that calls for the namespace comes first.
    rename_i yes
    obtain ⟨front, back, rfl⟩ := List.append_of_mem (mem_of_mem_survivors memberListed)
    have perm : (member :: (front ++ back)).Perm (front ++ member :: back) :=
      List.perm_middle.symm
    have kept := reorder perm
    have keptPerm := survivors_perm settings distinct perm
    rw [List.filter_cons_of_pos (admits_of_mem_survivors memberListed)] at kept
    have different : owner ≠ member := by
      rintro rfl
      obtain ⟨parent, link, enum⟩ := contested.1
      cases link.unique (nodup_survivors settings _) calls.1
      cases enum.symm.trans (Doclet.isEnum_eq_false_of_isClassLike calls.2.1)
    have calledThere := calls.mono keptPerm.symm.subset
    have ownerThere := keptPerm.symm.subset listed
    rw [kept] at calledThere ownerThere
    refine ⟨_, perm, iff_of_true ?_ yes⟩
    rw [kept]
    exact awaited_of_first ((List.mem_cons.mp ownerThere).resolve_left different) calledThere
  · -- The owner comes first.
    rename_i no
    obtain ⟨front, back, rfl⟩ := List.append_of_mem (mem_of_mem_survivors listed)
    have perm : (owner :: (front ++ back)).Perm (front ++ owner :: back) := List.perm_middle.symm
    have kept := reorder perm
    have keptPerm := survivors_perm settings distinct perm
    rw [List.filter_cons_of_pos (admits_of_mem_survivors listed)] at kept
    have noStatic := (contested.mono keptPerm.symm.subset keptPerm.subset).2.1
    have keptDistinct := nodup_survivors settings (owner :: (front ++ back))
    refine ⟨_, perm, iff_of_false ?_ no⟩
    rw [kept] at noStatic keptDistinct ⊢
    exact not_awaited_of_first keptDistinct noStatic

-----------------------------------------------------------------------------------------
-- When the order matters
-----------------------------------------------------------------------------------------

/-- Every order of plain doclets with distinct longnames makes the same nodes reachable, each under
the same parent, exactly if no survivor is contested.
Witness: places are read off the doclets, not their order. A contested namespace is reachable in an
order with a member that calls for it first, and not in one with its owner first.
-/
theorem samePlaces_iff_not_contested (settings : Settings) {doclets : List Doclet}
    (plain : Plain doclets) (distinct : (doclets.map Doclet.longname).Nodup)
    : (∀ others,
        others.Perm doclets → SamePlaces (ofDoclets settings doclets) (ofDoclets settings others))
      ↔ ∀ owner ∈ survivors settings doclets, ¬ Contested (survivors settings doclets) owner := by
  have keptDistinct := nodup_survivors settings doclets
  have keptPlain := plain.survivors settings
  constructor
  · intro same owner listed contested
    obtain ⟨others, perm, turned⟩ := exists_order distinct listed contested
      (¬ Awaited (survivors settings doclets) owner)
    have keptPerm := survivors_perm settings distinct perm
    have otherPlain : Plain others := fun doclet member => plain doclet (perm.subset member)
    have here := namespace_reachable_iff keptPlain keptDistinct listed contested
    have there := namespace_reachable_iff (otherPlain.survivors settings)
      (nodup_survivors settings others) (keptPerm.symm.subset listed)
      (contested.mono keptPerm.symm.subset keptPerm.subset)
    have both := (same others perm).reachable_iff (namespaceHelper owner.longname)
    rw [ofDoclets_eq, ofDoclets_eq, here, there, turned] at both
    exact (not_iff_self both.symm).elim
  · intro uncontested others perm
    rw [ofDoclets_eq, ofDoclets_eq]
    exact samePlaces_linkAll keptPlain keptDistinct (survivors_perm settings distinct perm)
      uncontested

/-- A class in an enumeration loses its type if it comes before that. -/
theorem samePlaces_iff_not_contested_enum
    : let enum : Doclet :=
        { kind := .member, name := "E", longname := "E", enumerates := true }
      let owner : Doclet :=
        { kind := .class, name := "A", longname := "E.A", memberof := some "E" }
      let inner : Doclet :=
        { kind := .typedef, name := "T", longname := "E.A.T", memberof := some "E.A" }
      let doclets := [enum, owner, inner]
      Plain doclets
      ∧ (doclets.map Doclet.longname).Nodup
      ∧ Acyclic doclets
      ∧ ¬ ∀ others,
          others.Perm doclets → SamePlaces (ofDoclets {} doclets) (ofDoclets {} others) := by
  intro enum owner inner doclets
  have kept : survivors {} doclets = doclets := by rfl
  have plain : Plain doclets := plain_of_short (by decide)
  have distinct : (doclets.map Doclet.longname).Nodup := by decide
  have ownerLink : MemberOf doclets owner enum := ⟨by simp [doclets], rfl⟩
  have innerLink : MemberOf doclets inner owner := ⟨by simp [doclets], rfl⟩
  refine ⟨plain, distinct, ?acyclic, fun same => ?differs⟩
  case acyclic =>
    apply acyclic_of_shorter
    rintro doclet member parent ⟨_, names⟩
    simp only [doclets, List.mem_cons, List.not_mem_nil, or_false] at member
    rcases member with rfl | rfl | rfl
    · cases names
    · rw [← Option.some.inj names]
      decide
    · rw [← Option.some.inj names]
      decide
  case differs =>
    have uncontested := (samePlaces_iff_not_contested {} plain distinct).mp same
    rw [kept] at uncontested
    refine uncontested owner (by simp [doclets]) ⟨⟨enum, ownerLink, rfl⟩, ?_, inner,
      by simp [doclets], innerLink, rfl, rfl⟩
    rintro ⟨_, _, _, like, _⟩
    cases like

end Typings.Forest
