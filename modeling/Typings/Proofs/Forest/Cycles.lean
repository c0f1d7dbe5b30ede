import Typings.Proofs.Forest.Located
import Typings.Proofs.Forest.Placement

/-! Circles of doclets are warned of, and nothing on one is reachable from the roots. A class,
interface or mixin in itself is reachable as little, but there may be no warning of it.
-/

namespace Typings.Forest

open Relation

variable {doclets : List Doclet} {forest : Forest} {doclet parent other : Doclet}

-----------------------------------------------------------------------------------------
-- The doclets on one circle
-----------------------------------------------------------------------------------------

/-- From every doclet on a circle the circle leads back to where it came from. -/
theorem OnCircle.back (distinct : (doclets.map Doclet.longname).Nodup)
    (circle : OnCircle doclets doclet) (line : ReflTransGen (Joins doclets) doclet other)
    : ReflTransGen (Joins doclets) other doclet := by
  induction line with
  | refl => exact .refl
  | tail _ joins ih =>
      rcases ReflTransGen.cases_head ih with rfl | ⟨next, nextJoins, rest⟩
      · obtain ⟨next, nextJoins, rest⟩ := TransGen.head'_iff.mp circle
        exact joins.1.unique distinct nextJoins.1 ▸ rest
      · exact joins.1.unique distinct nextJoins.1 ▸ rest

theorem eq_of_line_of_self (distinct : (doclets.map Doclet.longname).Nodup)
    (self : Joins doclets doclet doclet) (line : ReflTransGen (Joins doclets) doclet other)
    : other = doclet := by
  induction line with
  | refl => rfl
  | tail _ joins ih =>
      subst ih
      exact joins.1.unique distinct self.1

-----------------------------------------------------------------------------------------
-- Where they stand
-----------------------------------------------------------------------------------------

theorem Lands.ne_root {moved : List String} {trouble : Prop} {role : Option Node.Role}
    {place : Place} (lands : Lands doclets moved trouble doclet role place)
    (distinct : (doclets.map Doclet.longname).Nodup) (circle : OnCircle doclets doclet)
    : place ≠ .root := by
  rintro rfl
  cases lands with
  | root free => exact not_onCircle_of_root free circle
  | parked link enum _ => exact not_onCircle_of_enum distinct link enum circle

/-- Without a warning of a circle, what belongs to a doclet on one stands under another node, but
for the namespace of a doclet in itself that nothing has called for before.
-/
theorem Lands.under_of_circle {moved : List String} {trouble : Prop} {role : Option Node.Role}
    {place : Place} (lands : Lands doclets moved trouble doclet role place)
    (distinct : (doclets.map Doclet.longname).Nodup) (circle : OnCircle doclets doclet)
    (quiet : ¬ trouble)
    : (∃ upper, place = .under upper)
      ∨ role = some .namespace ∧ Joins doclets doclet doclet ∧ ¬ Awaited doclets doclet := by
  cases lands with
  | root free => exact absurd circle (not_onCircle_of_root free)
  | lost names unlisted =>
      obtain ⟨_, joins, _⟩ := TransGen.head'_iff.mp circle
      cases names.symm.trans joins.1.2
      exact absurd (longname_mem joins.1.1) unlisted
  | dropped link enum => exact absurd circle (not_onCircle_of_enum distinct link enum)
  | parked link enum _ => exact absurd circle (not_onCircle_of_enum distinct link enum)
  | missed link enum _ => exact absurd circle (not_onCircle_of_enum distinct link enum)
  | under joins => exact .inl ⟨_, rfl⟩
  | refused _ troubled => exact absurd troubled quiet
  | shut self late => exact .inr ⟨rfl, self, late⟩

/-- A doclet on a circle never comes under a root.
Witness: what it stands under belongs to doclets on the circle, and none of these is a root.
-/
theorem SettledUpTo.unreachable (settled : Settled doclets forest) (plain : Plain doclets)
    (distinct : (doclets.map Doclet.longname).Nodup) (circle : OnCircle doclets doclet)
    : doclet.longname ∉ forest.reachable := by
  intro reached
  obtain ⟨top, root, found, place, line⟩ := (mem_reachable_iff settled.sound).mp reached
  obtain ⟨above, aboveMember, upward, belongs⟩ :=
    settled.charted.belongs_above plain distinct circle.member (.inl rfl) line
  have lands := settled.lands plain distinct aboveMember belongs found
  have aboveCircle := circle.linked distinct upward
  exact lands.ne_root distinct aboveCircle place

/-- A doclet on a circle is warned of, unless it is silent.
Witness: the line of nodes from the doclet ends, and where it ends only a namespace can be that is
put nowhere.
-/
theorem SettledUpTo.troubled_of_circle (settled : Settled doclets forest) (plain : Plain doclets)
    (distinct : (doclets.map Doclet.longname).Nodup) (circle : OnCircle doclets doclet)
    (heard : ¬ Silent doclets doclet)
    : Troubled forest := by
  by_contra quiet
  obtain ⟨ownNode, ownFound, _⟩ := settled.charted.own doclet circle.member
  obtain ⟨top, _, free, line⟩ := exists_top settled.sound doclet.longname
  obtain ⟨above, aboveMember, upward, belongs⟩ :=
    settled.charted.belongs_above plain distinct circle.member (.inl rfl) line
  have aboveCircle := circle.linked distinct upward
  obtain ⟨node, found⟩ : ∃ node, forest.find? top = some node := by
    rcases ReflTransGen.cases_tail line with same | ⟨_, _, last⟩
    · exact same ▸ ⟨ownNode, ownFound⟩
    · exact has_iff.mp (settled.sound.parents last)
  have lands := settled.lands plain distinct aboveMember belongs found
  rcases lands.under_of_circle distinct aboveCircle quiet with ⟨upper, place⟩ | ⟨role, self, late⟩
  · simp [parent?, found, place] at free
  · have isHelper : top ≠ above.longname := by
      rintro rfl
      obtain ⟨node', found', own⟩ := settled.charted.own above aboveMember
      cases found'.symm.trans found
      cases role.symm.trans own.role
    have kin := settled.charted.kin_of plain distinct aboveMember belongs isHelper found
    have classLike := kin.serves.isClassLike
    have same := eq_of_line_of_self distinct self (circle.back distinct upward)
    subst same
    exact heard ⟨⟨self.1, classLike, leavesClass_of_isClassLike classLike⟩, late⟩

-----------------------------------------------------------------------------------------
-- Which circles are warned of
-----------------------------------------------------------------------------------------

/-- Without circles there is no warning of any, and no doclet on a circle without an enumeration
comes under a root. There is a warning exactly if there is such a circle that is more than a class,
interface or mixin in itself whose namespace was not called for before it.
Witness: the line of nodes from a doclet on a circle follows the circle and ends somewhere.
-/
theorem troubled_iff_onCircle (settings : Settings) {doclets : List Doclet} (plain : Plain doclets)
    : let kept := survivors settings doclets
      let forest := ofDoclets settings doclets
      (Acyclic kept → ¬ Troubled forest)
      ∧ (∀ doclet, OnCircle kept doclet → doclet.longname ∉ forest.reachable)
      ∧ (Troubled forest ↔ ∃ doclet ∈ kept, OnCircle kept doclet ∧ ¬ Silent kept doclet) := by
  have settled := settled_ofDoclets settings plain
  have distinct := nodup_survivors settings doclets
  have plainest := plain.survivors settings
  refine ⟨?_, fun doclet => settled.unreachable plainest distinct, settled.troubled, ?_⟩
  · intro acyclic trouble
    obtain ⟨doclet, member, circle, _⟩ := settled.troubled trouble
    exact acyclic doclet member circle.transGen
  · rintro ⟨doclet, _, circle, heard⟩
    exact settled.troubled_of_circle plainest distinct circle heard

/-- A namespace in itself is warned of, a class in itself is not. -/
theorem troubled_iff_onCircle_self
    : let space : Doclet :=
        { kind := .namespace, name := "N", longname := "N", memberof := some "N" }
      let own : Doclet := { kind := .class, name := "A", longname := "A", memberof := some "A" }
      (Plain [space]
        ∧ OnCircle (survivors {} [space]) space
        ∧ Troubled (ofDoclets {} [space]))
      ∧ Plain [own]
      ∧ OnCircle (survivors {} [own]) own
      ∧ "A" ∉ (ofDoclets {} [own]).reachable
      ∧ ¬ Troubled (ofDoclets {} [own]) := by
  intro space own
  have keptSpace : survivors {} [space] = [space] := by rfl
  have keptOwn : survivors {} [own] = [own] := by rfl
  have plainSpace : Plain [space] := plain_of_short (by decide)
  have plainOwn : Plain [own] := plain_of_short (by decide)
  have circleSpace : OnCircle (survivors {} [space]) space :=
    keptSpace ▸ .single ⟨⟨List.mem_cons_self, rfl⟩, rfl⟩
  have circleOwn : OnCircle (survivors {} [own]) own :=
    keptOwn ▸ .single ⟨⟨List.mem_cons_self, rfl⟩, rfl⟩
  refine ⟨⟨plainSpace, circleSpace, ?heard⟩, plainOwn, circleOwn, ?hidden, ?silent⟩
  case heard =>
    refine (troubled_iff_onCircle {} plainSpace).2.2.mpr
      ⟨space, circleSpace.member, circleSpace, ?_⟩
    rintro ⟨⟨_, classLike, _⟩, _⟩
    cases classLike
  case hidden => exact (troubled_iff_onCircle {} plainOwn).2.1 own circleOwn
  case silent =>
    intro troubled
    obtain ⟨doclet, member, _, heard⟩ := (troubled_iff_onCircle {} plainOwn).2.2.mp troubled
    rw [keptOwn] at member heard
    cases List.mem_singleton.mp member
    refine heard ⟨⟨⟨List.mem_cons_self, rfl⟩, rfl, rfl⟩, ?_⟩
    rintro (⟨_, _, _, like, _⟩ | ⟨_, precedes, _⟩)
    · cases like
    · simpa using precedes.length_le

end Typings.Forest
