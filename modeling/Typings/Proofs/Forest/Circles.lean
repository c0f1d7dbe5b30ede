import Typings.Proofs.Forest.Helpers

/-! Which doclets are members of themselves through others, which come before which, and which
namespaces are there before the doclets that they help are put to their places.
-/

namespace Typings.Forest

open Relation

variable {doclets : List Doclet} {doclet parent other : Doclet}

-----------------------------------------------------------------------------------------
-- Circles
-----------------------------------------------------------------------------------------

/-- The doclet is a member of `parent`, which is no enumeration and so takes the doclet. -/
def Joins (doclets : List Doclet) (doclet parent : Doclet) : Prop :=
  MemberOf doclets doclet parent ∧ parent.isEnum = false

/-- The doclet is a member of itself, directly or through others, of which none is an enumeration.
-/
def OnCircle (doclets : List Doclet) (doclet : Doclet) : Prop :=
  TransGen (Joins doclets) doclet doclet

theorem OnCircle.member (circle : OnCircle doclets doclet) : doclet ∈ doclets := by
  obtain ⟨_, _, link, _⟩ := TransGen.tail'_iff.mp circle
  exact link.1

theorem joins_le : Joins doclets ≤ MemberOf doclets :=
  fun _ _ joins => joins.1

theorem OnCircle.transGen (circle : OnCircle doclets doclet)
    : TransGen (MemberOf doclets) doclet doclet :=
  TransGen.mono joins_le _ _ circle

/-- What a doclet on a circle is a member of is on a circle too. -/
theorem OnCircle.above (distinct : (doclets.map Doclet.longname).Nodup)
    (circle : OnCircle doclets doclet) (link : MemberOf doclets doclet parent)
    : parent.isEnum = false ∧ OnCircle doclets parent := by
  obtain ⟨next, joins, rest⟩ := TransGen.head'_iff.mp circle
  cases joins.1.unique distinct link
  exact ⟨joins.2, .tail' rest joins⟩

/-- A line of members from a doclet on a circle stays on it. -/
theorem OnCircle.linked (distinct : (doclets.map Doclet.longname).Nodup)
    (circle : OnCircle doclets doclet) (line : ReflTransGen (Joins doclets) doclet other)
    : OnCircle doclets other := by
  induction line with
  | refl => exact circle
  | tail _ joins ih => exact (ih.above distinct joins.1).2

theorem not_onCircle_of_root (free : doclet.memberof = none) : ¬ OnCircle doclets doclet := by
  intro circle
  obtain ⟨_, ⟨link, _⟩, _⟩ := TransGen.head'_iff.mp circle
  cases free.symm.trans link.2

/-- A member of an enumeration is on no circle. -/
theorem not_onCircle_of_enum (distinct : (doclets.map Doclet.longname).Nodup)
    (link : MemberOf doclets doclet parent) (enum : parent.isEnum = true)
    : ¬ OnCircle doclets doclet := by
  intro circle
  cases enum.symm.trans (circle.above distinct link).1

-----------------------------------------------------------------------------------------
-- The order of the doclets
-----------------------------------------------------------------------------------------

/-- The doclet `earlier` comes before `later`. -/
def Precedes (doclets : List Doclet) (earlier later : Doclet) : Prop :=
  [earlier, later].Sublist doclets

theorem Precedes.member (precedes : Precedes doclets other doclet) : other ∈ doclets :=
  precedes.subset List.mem_cons_self

/-- What comes before a doclet are those in front of it. -/
theorem precedes_iff_mem_front {front back : List Doclet}
    (split : doclets = front ++ doclet :: back)
    (distinct : (doclets.map Doclet.longname).Nodup)
    : Precedes doclets other doclet ↔ other ∈ front := by
  have nodup : (front ++ doclet :: back).Nodup := split ▸ distinct.of_map _
  have behind : doclet ∉ back := (List.nodup_cons.mp (List.nodup_append.mp nodup).2.1).1
  rw [Precedes, split]
  constructor
  · intro pair
    obtain ⟨left, right, isPair, inFront, inBack⟩ := List.sublist_append_iff.mp pair
    cases left with
    | nil =>
        rw [List.nil_append] at isPair
        subst isPair
        cases inBack with
        | cons _ rest => exact absurd (rest.subset (by simp)) behind
        | cons_cons _ rest => exact absurd (rest.subset (by simp)) behind
    | cons first rest =>
        obtain ⟨rfl, _⟩ := List.cons.inj isPair
        exact inFront.subset List.mem_cons_self
  · intro listed
    exact (List.singleton_sublist.mpr listed).append (List.singleton_sublist.mpr List.mem_cons_self)

/-- Of two doclets one comes before the other. -/
theorem precedes_total (member : doclet ∈ doclets) (otherMember : other ∈ doclets)
    (different : doclet ≠ other)
    : Precedes doclets doclet other ∨ Precedes doclets other doclet := by
  obtain ⟨front, back, rfl⟩ := List.append_of_mem member
  rcases List.mem_append.mp otherMember with before | after
  · right
    exact (List.singleton_sublist.mpr before).append
      (List.singleton_sublist.mpr List.mem_cons_self)
  · left
    have later := (List.mem_cons.mp after).resolve_left (Ne.symm different)
    exact ((List.singleton_sublist.mpr later).cons_cons doclet).trans
      (List.sublist_append_right front _)

theorem Precedes.asymm (distinct : (doclets.map Doclet.longname).Nodup)
    (precedes : Precedes doclets doclet other)
    : ¬ Precedes doclets other doclet := by
  intro after
  obtain ⟨front, back, split⟩ := List.append_of_mem (precedes.subset (by simp) : doclet ∈ doclets)
  obtain ⟨start, rest, rfl⟩ :=
    List.append_of_mem ((precedes_iff_mem_front split distinct).mp after)
  have later : doclets = start ++ other :: (rest ++ doclet :: back) := by simp [split]
  have before := (precedes_iff_mem_front later distinct).mp precedes
  have nodup : (start ++ other :: (rest ++ doclet :: back)).Nodup := later ▸ distinct.of_map _
  exact (List.nodup_append.mp nodup).2.2 doclet before doclet (by simp) rfl

theorem Precedes.trans (distinct : (doclets.map Doclet.longname).Nodup)
    (lower : Precedes doclets other parent) (upper : Precedes doclets parent doclet)
    : Precedes doclets other doclet := by
  obtain ⟨front, back, split⟩ := List.append_of_mem (upper.subset (by simp) : doclet ∈ doclets)
  obtain ⟨start, rest, rfl⟩ :=
    List.append_of_mem ((precedes_iff_mem_front split distinct).mp upper)
  have earlier : doclets = start ++ parent :: (rest ++ doclet :: back) := by simp [split]
  have inStart := (precedes_iff_mem_front earlier distinct).mp lower
  exact (precedes_iff_mem_front split distinct).mpr (List.mem_append_left _ inStart)

end Typings.Forest
