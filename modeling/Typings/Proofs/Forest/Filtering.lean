import Typings.Proofs.Forest.Comparing

/-! Forests of doclets of which some are left out: what is still reachable is the same as among all
of them, but for the parents and scopes that doclets name.
-/

namespace Typings

theorem Settings.admits_mono {tight loose : Settings} (floor : loose.floor ≤ tight.floor)
    (keep : tight.keepPrivate = true → loose.keepPrivate = true) {doclet : Doclet}
    (admitted : tight.admits doclet = true)
    : loose.admits doclet = true := by
  simp only [admits, Bool.and_eq_true] at admitted ⊢
  refine ⟨admitted.1, ?_⟩
  have opens := admitted.2
  have lowest (isLowest : tight.floor = .private) : loose.floor = .private := by
    rw [isLowest] at floor
    cases isFloor : loose.floor <;> rw [isFloor] at floor <;> first | rfl | cases floor
  cases access : doclet.access with
  | none => rfl
  | some level =>
      rw [access] at opens
      cases level with
      | «private» =>
          simp only [opensTo, Bool.or_eq_true, beq_iff_eq] at opens ⊢
          exact opens.imp keep lowest
      | package | «protected» | «public» =>
          simp only [opensTo, decide_eq_true_eq] at opens ⊢
          exact Nat.le_trans floor opens

namespace Forest

variable {few many : List Doclet} {forest larger : Forest} {doclet parent owner : Doclet}
variable {name : String} {node more : Node}

-----------------------------------------------------------------------------------------
-- Fewer doclets in the same order
-----------------------------------------------------------------------------------------

theorem Precedes.mono (sublist : few.Sublist many) (precedes : Precedes few parent doclet)
    : Precedes many parent doclet :=
  List.Sublist.trans precedes sublist

theorem Awaited.mono (sublist : few.Sublist many) (awaited : Awaited few owner)
    : Awaited many owner := by
  rcases awaited with ⟨member, listed, static⟩ | ⟨member, precedes, calls⟩
  · exact .inl ⟨member, sublist.subset listed, static.mono sublist.subset⟩
  · exact .inr ⟨member, precedes.mono sublist, calls.mono sublist.subset⟩

/-- What comes first among all doclets comes first among those that are left. -/
theorem Precedes.of_sublist (sublist : few.Sublist many)
    (distinct : (many.map Doclet.longname).Nodup) (member : parent ∈ few)
    (otherMember : doclet ∈ few) (precedes : Precedes many parent doclet)
    : Precedes few parent doclet := by
  have different : parent ≠ doclet := by
    rintro rfl
    exact precedes.asymm distinct precedes
  rcases precedes_total member otherMember different with before | after
  · exact before
  · exact absurd (after.mono sublist) (precedes.asymm distinct)

/-- A doclet whose parent is still there is nested as it is among all. -/
theorem nests_iff (sublist : few.Sublist many) (distinct : (many.map Doclet.longname).Nodup)
    (member : doclet ∈ few)
    (linked : ∀ upper, doclet.memberof = some upper → upper ∈ few.map Doclet.longname)
    : Nests few doclet ↔ Nests many doclet := by
  refine and_congr_right fun _ => ⟨?_, ?_⟩
  · rintro ⟨parent, link, either⟩
    exact ⟨parent, link.mono sublist.subset,
      either.imp_right fun ⟨static, precedes⟩ =>
        ⟨static.mono sublist.subset, precedes.mono sublist⟩⟩
  · rintro ⟨parent, link, either⟩
    obtain ⟨known, knownMember, same⟩ := List.mem_map.mp (linked _ link.2)
    cases eq_of_longname_eq distinct (sublist.subset knownMember) link.1 same
    refine ⟨parent, ⟨knownMember, link.2⟩, either.imp_right fun ⟨static, precedes⟩ => ⟨?_, ?_⟩⟩
    · exact ⟨⟨knownMember, link.2⟩, static.2⟩
    · exact precedes.of_sublist sublist distinct knownMember member

-----------------------------------------------------------------------------------------
-- The same nodes
-----------------------------------------------------------------------------------------

/-- Two nodes for what is the same doclet, but for the parent that it names and how it belongs to
that.
-/
structure Alike (node more : Node) : Prop where
  doclet_eq : ∃ memberof scope, more.doclet = { node.doclet with memberof, scope }
  nested_eq : more.nested = node.nested

theorem Own.alike {progress later : Progress} {trouble still : Prop}
    (own : Own few progress trouble doclet node) (other : Own many later still doclet more)
    (nested : more.nested = node.nested)
    : Alike node more := by
  obtain ⟨_, isDoclet, _⟩ := own.doclet_eq
  obtain ⟨memberof, isMore, _⟩ := other.doclet_eq
  exact ⟨⟨memberof, doclet.scope, by rw [isDoclet, isMore]⟩, nested⟩

theorem Kin.alike {progress later : Progress} {trouble still : Prop}
    (kin : Kin few progress trouble owner name node) (other : Kin many later still owner name more)
    : Alike node more := by
  refine ⟨?_, other.nested.trans kin.nested.symm⟩
  cases kin.serves with
  | interface isName _ _ same =>
      obtain ⟨_, isDoclet⟩ := same.2
      cases other.serves with
      | interface _ _ _ otherSame =>
          obtain ⟨memberof, isMore⟩ := otherSame.2
          exact ⟨memberof, owner.scope, by rw [isDoclet, isMore]; rfl⟩
      | «namespace» isOther _ _ =>
          exact absurd (isName.symm.trans isOther) (interfaceHelper_ne_namespaceHelper _ _)
  | «namespace» isName _ same =>
      obtain ⟨_, isDoclet⟩ := same.2
      cases other.serves with
      | interface isOther _ _ _ =>
          exact absurd (isOther.symm.trans isName) (interfaceHelper_ne_namespaceHelper _ _)
      | @«namespace» _ _ scope otherSame =>
          obtain ⟨memberof, isMore⟩ := otherSame.2
          exact ⟨memberof, scope, by rw [isDoclet, isMore]; rfl⟩

/-- The parent of a doclet that stands somewhere is there. -/
theorem Lands.parent_listed {moved : List String} {trouble : Prop} {place : Place}
    (lands : Lands few moved trouble doclet none place) (stands : place ≠ .nowhere)
    : ∀ upper, doclet.memberof = some upper → upper ∈ few.map Doclet.longname := by
  intro upper names
  cases lands with
  | root free => cases free.symm.trans names
  | under joins =>
      cases joins.1.2.symm.trans names
      exact longname_mem joins.1.1
  | lost _ _ | dropped _ _ | refused _ _ => exact absurd rfl stands

/-- A reachable node is there among all doclets too, for the same doclet and at the same place. -/
theorem SettledUpTo.alike_of_sublist (settled : Settled few forest) (there : Settled many larger)
    (plain : Plain many) (distinct : (many.map Doclet.longname).Nodup)
    (sublist : few.Sublist many) (reached : name ∈ forest.reachable)
    (found : forest.find? name = some node)
    : ∃ more, larger.find? name = some more ∧ more.place = node.place ∧ Alike node more := by
  have fewPlain : Plain few := fun doclet member => plain doclet (sublist.subset member)
  have fewDistinct := (sublist.map Doclet.longname).nodup distinct
  obtain ⟨owner, member, belongs, more, moreFound, _, place⟩ :=
    settled.place_of_subset there plain distinct sublist.subset fewDistinct
      (fun _ _ _ _ _ awaited => awaited.mono sublist) reached found
  refine ⟨more, moreFound, place, ?_⟩
  by_cases isOwn : name = owner.longname
  · subst isOwn
    obtain ⟨own, ownFound, isOwn⟩ := settled.charted.own owner member
    obtain ⟨other, otherFound, isOther⟩ := there.charted.own owner (sublist.subset member)
    cases ownFound.symm.trans found
    cases otherFound.symm.trans moreFound
    refine isOwn.alike isOther ?_
    have stands := place_ne_nowhere settled.sound reached found
    have linked := (isOwn.situated.placed (longname_mem_reverse member)).parent_listed stands
    rw [Bool.eq_iff_iff, isOwn.nested_iff, isOther.nested_iff,
      nests_iff sublist distinct member linked]
    exact and_congr_left' (iff_of_true (longname_mem_reverse (sublist.subset member))
      (longname_mem_reverse member))
  · have kin := settled.charted.kin_of fewPlain fewDistinct member belongs isOwn found
    have other :=
      there.charted.kin_of plain distinct (sublist.subset member) belongs isOwn moreFound
    exact kin.alike other

end Forest

end Typings
