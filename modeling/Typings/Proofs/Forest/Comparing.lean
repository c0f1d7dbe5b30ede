import Typings.Proofs.Forest.Located
import Typings.Proofs.Forest.Branches

/-! Two forests, one of them with all doclets of the other: what is reachable in the smaller one is
reachable in the larger one, at the same place.
-/

namespace Typings.Forest

open Relation

variable {few many : List Doclet} {forest larger : Forest} {doclet parent owner : Doclet}
variable {name : String} {node : Node}

-----------------------------------------------------------------------------------------
-- More doclets
-----------------------------------------------------------------------------------------

theorem MemberOf.mono (subset : few ⊆ many) (link : MemberOf few doclet parent)
    : MemberOf many doclet parent :=
  ⟨subset link.1, link.2⟩

theorem StaticOf.mono (subset : few ⊆ many) (static : StaticOf few parent doclet)
    : StaticOf many parent doclet :=
  ⟨static.1.mono subset, static.2⟩

theorem Calls.mono (subset : few ⊆ many) (calls : Calls few doclet parent)
    : Calls many doclet parent :=
  ⟨calls.1.mono subset, calls.2⟩

theorem Joins.mono (subset : few ⊆ many) (joins : Joins few doclet parent)
    : Joins many doclet parent :=
  ⟨joins.1.mono subset, joins.2⟩

/-- There is still a reason for a namespace if there are more doclets, all of which are linked. -/
theorem Asked.mono_all {moving called : List String} (subset : few ⊆ many) (member : owner ∈ few)
    (asked : Asked few moving called owner)
    : Asked many (many.map Doclet.longname).reverse (many.map Doclet.longname).reverse owner := by
  cases asked with
  | static listed static _ =>
      exact .static (subset listed) (static.mono subset) (longname_mem_reverse (subset member))
  | call listed calls _ =>
      exact .call (subset listed) (calls.mono subset) (longname_mem_reverse (subset listed))

/-- What holds a doclet is the same when its parent has been linked. -/
theorem holder_congr {moved moving : List String} (known : parent.longname ∈ moved)
    (alsoKnown : parent.longname ∈ moving)
    : holder moved parent doclet = holder moving parent doclet := by
  simp [holder, Renames, known, alsoKnown]

-----------------------------------------------------------------------------------------
-- The same places
-----------------------------------------------------------------------------------------

/-- A doclet that is on no circle is put to the same place among more doclets. -/
theorem Lands.eq_of_subset {trouble more : Prop} {role : Option Node.Role} {place other : Place}
    (lands : Lands few (few.map Doclet.longname).reverse trouble doclet role place)
    (landsThere : Lands many (many.map Doclet.longname).reverse more doclet role other)
    (subset : few ⊆ many) (distinct : (many.map Doclet.longname).Nodup)
    (apart : ¬ OnCircle many doclet)
    (awaited
      : ∀ parent,
          MemberOf few doclet parent
          → parent.isEnum = true
          → Awaited few doclet
          → Awaited many doclet)
    (stands : place ≠ .nowhere)
    : other = place := by
  have noSelf (self : Joins many doclet doclet) : False := apart (.single self)
  cases lands with
  | root free =>
      cases landsThere with
      | root _ => rfl
      | lost names _ => cases free.symm.trans names
      | dropped link _ | parked link _ _ | missed link _ _ => cases free.symm.trans link.2
      | under joins => cases free.symm.trans joins.1.2
      | refused circle _ => exact absurd circle apart
      | shut self _ => exact (noSelf self).elim
  | parked link enum isAwaited =>
      have there := link.mono subset
      cases landsThere with
      | root free => cases free.symm.trans link.2
      | lost names unlisted =>
          cases names.symm.trans link.2
          exact absurd (longname_mem there.1) unlisted
      | parked _ _ _ => rfl
      | missed _ _ late => exact absurd (awaited _ link enum (isAwaited rfl)) late
      | under joins =>
          cases joins.1.unique distinct there
          cases enum.symm.trans joins.2
      | refused circle _ => exact absurd circle apart
      | shut self _ => exact (noSelf self).elim
  | under joins =>
      have there := joins.1.mono subset
      cases landsThere with
      | root free => cases free.symm.trans there.2
      | lost names unlisted =>
          cases names.symm.trans there.2
          exact absurd (longname_mem there.1) unlisted
      | dropped link enum | parked link enum _ | missed link enum _ =>
          cases link.unique distinct there
          cases enum.symm.trans joins.2
      | under joinsThere =>
          cases joinsThere.1.unique distinct there
          rw [holder_congr (longname_mem_reverse there.1) (longname_mem_reverse joins.1.1)]
      | refused circle _ => exact absurd circle apart
      | shut self _ => exact (noSelf self).elim
  | lost _ _ | dropped _ _ | missed _ _ _ | refused _ _ | shut _ _ => exact absurd rfl stands

/-- A node among few doclets is there among more of them, for the same doclet in the same role. -/
theorem SettledUpTo.find?_of_subset (settled : Settled few forest) (there : Settled many larger)
    (plain : Plain many) (distinct : (many.map Doclet.longname).Nodup) (subset : few ⊆ many)
    (found : forest.find? name = some node)
    : ∃ owner ∈ few,
        Belongs name owner.longname
        ∧ ∃ more, larger.find? name = some more ∧ more.role = node.role := by
  by_cases listed : name ∈ few.map Doclet.longname
  · obtain ⟨doclet, member, rfl⟩ := List.mem_map.mp listed
    obtain ⟨own, ownFound, isOwn⟩ := settled.charted.own doclet member
    obtain ⟨more, moreFound, isMore⟩ := there.charted.own doclet (subset member)
    cases ownFound.symm.trans found
    exact ⟨doclet, member, .inl rfl, more, moreFound, isMore.role.trans isOwn.role.symm⟩
  · obtain ⟨owner, member, kin⟩ := settled.charted.helper found listed
    refine ⟨owner, member, kin.serves.belongs, ?_⟩
    cases kin.serves with
    | interface name_eq _ heritage same =>
        subst name_eq
        obtain ⟨more, moreFound⟩ := has_iff.mp
          (there.supplied.interfaces owner (subset member) heritage
            (longname_mem_reverse (subset member)))
        obtain ⟨_, _, role, _⟩ :=
          there.charted.interface_of plain distinct (subset member) moreFound
        exact ⟨more, moreFound, role.trans same.1.symm⟩
    | «namespace» name_eq asked same =>
        subst name_eq
        obtain ⟨more, moreFound⟩ := has_iff.mp
          (there.supplied.namespaces owner (subset member) (asked.mono_all subset member))
        obtain ⟨_, role, _⟩ :=
          there.charted.namespace_of plain distinct (subset member) moreFound
        exact ⟨more, moreFound, role.trans same.1.symm⟩

/-- What is reachable belongs to no doclet that is on a circle of a larger forest.
Witness: the line to the root follows the doclets that its nodes belong to, and a root belongs to a
member of nothing or of an enumeration.
-/
theorem SettledUpTo.apart_of_reachable (settled : Settled few forest) (plain : Plain few)
    (distinct : (many.map Doclet.longname).Nodup) (fewDistinct : (few.map Doclet.longname).Nodup)
    (subset : few ⊆ many) (member : owner ∈ few) (belongs : Belongs name owner.longname)
    (reached : name ∈ forest.reachable)
    : ¬ OnCircle many owner := by
  intro circle
  obtain ⟨top, root, found, place, line⟩ := (mem_reachable_iff settled.sound).mp reached
  obtain ⟨above, aboveMember, upward, aboveBelongs⟩ :=
    settled.charted.belongs_above plain fewDistinct member belongs line
  have upwardThere : ReflTransGen (Joins many) owner above :=
    ReflTransGen.mono (fun _ _ joins => joins.mono subset) _ _ upward
  have aboveCircle := circle.linked distinct upwardThere
  have lands := settled.lands plain fewDistinct aboveMember aboveBelongs found
  rw [place] at lands
  generalize root.role = role at lands
  cases lands with
  | root free => exact not_onCircle_of_root free aboveCircle
  | parked link enum _ => exact not_onCircle_of_enum distinct (link.mono subset) enum aboveCircle

section larger

variable (settled : Settled few forest) (there : Settled many larger) (plain : Plain many)
variable (distinct : (many.map Doclet.longname).Nodup) (subset : few ⊆ many)
variable (fewDistinct : (few.map Doclet.longname).Nodup)
variable
  (awaited
    : ∀ doclet ∈ few,
        ∀ parent,
          MemberOf few doclet parent
          → parent.isEnum = true
          → Awaited few doclet
          → Awaited many doclet)

include settled there plain distinct subset fewDistinct awaited

/-- A reachable node stands at the same place in a larger forest. -/
theorem SettledUpTo.place_of_subset (reached : name ∈ forest.reachable)
    (found : forest.find? name = some node)
    : ∃ owner ∈ few,
        Belongs name owner.longname
        ∧ ∃ more,
            larger.find? name = some more ∧ more.role = node.role ∧ more.place = node.place := by
  have fewPlain : Plain few := fun doclet member => plain doclet (subset member)
  obtain ⟨owner, member, belongs, more, moreFound, role⟩ :=
    settled.find?_of_subset there plain distinct subset found
  have apart := settled.apart_of_reachable fewPlain distinct fewDistinct subset member belongs
    reached
  have lands := settled.lands fewPlain fewDistinct member belongs found
  have landsThere := there.lands plain distinct (subset member) belongs moreFound
  rw [role] at landsThere
  exact ⟨owner, member, belongs, more, moreFound, role,
    lands.eq_of_subset landsThere subset distinct apart (awaited owner member)
      (place_ne_nowhere settled.sound reached found)⟩

theorem SettledUpTo.standsUnder_of_subset {parent : String} (reached : name ∈ forest.reachable)
    (under : forest.StandsUnder name parent)
    : larger.StandsUnder name parent := by
  obtain ⟨node, found, place⟩ := parent?_eq_some_iff.mp under
  obtain ⟨_, _, _, more, moreFound, _, morePlace⟩ :=
    settled.place_of_subset there plain distinct subset fewDistinct awaited reached found
  exact parent?_eq_some_iff.mpr ⟨more, moreFound, morePlace.trans place⟩

/-- What is reachable is reachable in a larger forest, by induction along the line to the root. -/
theorem SettledUpTo.reachable_subset : forest.reachable ⊆ larger.reachable := by
  intro name reached
  obtain ⟨top, root, found, place, line⟩ := (mem_reachable_iff settled.sound).mp reached
  have topReached : top ∈ forest.reachable :=
    (mem_reachable_iff settled.sound).mpr ⟨top, root, found, place, .refl⟩
  obtain ⟨_, _, _, more, moreFound, _, morePlace⟩ :=
    settled.place_of_subset there plain distinct subset fewDistinct awaited topReached found
  refine (mem_reachable_iff there.sound).mpr ⟨top, more, moreFound, morePlace.trans place, ?_⟩
  clear topReached found place moreFound morePlace
  induction line using ReflTransGen.head_induction_on with
  | refl => exact .refl
  | head under _ ih =>
      have upperReached := reachable_of_standsUnder settled.sound reached under
      exact .head (settled.standsUnder_of_subset there plain distinct subset fewDistinct awaited
        reached under) (ih upperReached)

/-- What is reachable has the same parent in a larger forest. -/
theorem SettledUpTo.parent?_of_subset (reached : name ∈ forest.reachable)
    : larger.parent? name = forest.parent? name := by
  obtain ⟨node, found⟩ : ∃ node, forest.find? name = some node := by
    obtain ⟨top, root, found, _, line⟩ := (mem_reachable_iff settled.sound).mp reached
    rcases ReflTransGen.cases_head line with rfl | ⟨_, first, _⟩
    · exact ⟨root, found⟩
    · exact has_iff.mp first.has
  obtain ⟨_, _, _, more, moreFound, _, morePlace⟩ :=
    settled.place_of_subset there plain distinct subset fewDistinct awaited reached found
  simp only [parent?, found, moreFound, morePlace]

end larger

end Typings.Forest
