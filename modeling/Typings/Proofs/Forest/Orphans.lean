import Typings.Proofs.Forest.Branches
import Typings.Proofs.Forest.Located

/-! Doclets whose parent is not there are warned of, in their order and each once, and stand
nowhere.
-/

namespace Typings.Forest

variable {doclets : List Doclet} {done helpers : List String} {forest next : Forest}
variable {doclet parent : Doclet} {trouble : Prop} {absent : String}

/-- The warning about a doclet that names a parent which is not among `doclets`. -/
def orphanWarning? (doclets : List Doclet) (doclet : Doclet) : Option Warning :=
  match doclet.memberof with
  | none => none
  | some parent =>
    if parent ∈ doclets.map Doclet.longname then none else some (.noParent doclet.longname parent)

/-- The warnings about parents that are not there. -/
def orphanWarnings (forest : Forest) : List Warning :=
  forest.warnings.filter fun warning => warning.kind == .unresolvedParent

theorem orphanWarning?_of_memberOf (link : MemberOf doclets doclet parent)
    : orphanWarning? doclets doclet = none := by
  rw [orphanWarning?, link.2]
  exact if_pos (longname_mem link.1)

theorem orphanWarnings_congr (same : next.warnings = forest.warnings)
    : next.orphanWarnings = forest.orphanWarnings := by
  rw [orphanWarnings, same, orphanWarnings]

/-- Attaching nodes warns of no parent that is not there. -/
theorem Prepared.orphanWarnings_attachAll
    (prepared : Prepared doclets done (doclet.longname :: done) trouble doclet helpers forest)
    (plain : Plain doclets) (distinct : (doclets.map Doclet.longname).Nodup)
    (member : doclet ∈ doclets) (new : doclet.longname ∉ done) {container : String}
    (known : forest.has container = true)
    : (forest.attachAll container (helpers ++ [doclet.longname])).orphanWarnings
      = forest.orphanWarnings := by
  obtain ⟨-, warnings⟩ := attachAll_effect prepared.sound known (prepared.nodup plain member)
    (prepared.loose plain distinct member new)
  rw [orphanWarnings, warnings, List.filter_append, orphanWarnings, List.append_right_eq_self,
    List.filter_eq_nil_iff]
  intro warning listed
  obtain ⟨name, -, rfl⟩ := List.mem_map.mp listed
  exact nofun

/-- Putting a doclet to its place warns of its parent exactly if that is not there. -/
theorem Prepared.orphanWarnings_linked
    (prepared : Prepared doclets done (doclet.longname :: done) trouble doclet helpers forest)
    (plain : Plain doclets) (distinct : (doclets.map Doclet.longname).Nodup)
    (member : doclet ∈ doclets) (new : doclet.longname ∉ done)
    (linked : Linked doclets done doclet helpers forest next)
    : next.orphanWarnings = forest.orphanWarnings ++ (orphanWarning? doclets doclet).toList := by
  cases linked with
  | root free =>
      rw [orphanWarnings_congr (warnings_addRoots _ _), orphanWarning?, free]
      exact (List.append_nil _).symm
  | @lost absent names unlisted =>
      have own : orphanWarning? doclets doclet = some (.noParent doclet.longname absent) := by
        rw [orphanWarning?, names]
        exact if_neg unlisted
      rw [own]
      exact List.filter_append ..
  | dropped link _ =>
      rw [orphanWarnings_congr (warnings_addRoots _ _), orphanWarning?_of_memberOf link]
      exact (List.append_nil _).symm
  | joined joins known =>
      rw [prepared.orphanWarnings_attachAll plain distinct member new known,
        orphanWarning?_of_memberOf joins.1]
      exact (List.append_nil _).symm

/-- Linking a doclet warns of its parent exactly if that is not there. -/
theorem SettledUpTo.orphanWarnings_link (settled : SettledUpTo doclets done forest)
    (plain : Plain doclets) (distinct : (doclets.map Doclet.longname).Nodup)
    (member : doclet ∈ doclets) (upTo : UpTo doclets done doclet)
    : (Forest.link (doclets.map Doclet.longname) forest doclet.longname).orphanWarnings
      = forest.orphanWarnings ++ (orphanWarning? doclets doclet).toList := by
  obtain ⟨last, helpers, prepared, warnings, linked⟩ :=
    settled.charted.link_cases settled.supplied settled.sound plain distinct member upTo
  rw [← orphanWarnings_congr warnings]
  exact prepared.orphanWarnings_linked plain distinct member (upTo.new distinct member) linked

/-- The warning about the doclet `name`, if its parent is not there. -/
def orphanWarningOf? (doclets : List Doclet) (name : String) : Option Warning :=
  ((scattered doclets).find? name).bind fun node => orphanWarning? doclets node.doclet

theorem orphanWarningOf?_longname (distinct : (doclets.map Doclet.longname).Nodup)
    (member : doclet ∈ doclets)
    : orphanWarningOf? doclets doclet.longname = orphanWarning? doclets doclet := by
  rw [orphanWarningOf?, find?_scattered distinct member, Option.bind_some]

/-- From the first doclet to the last, each whose parent is not there is warned of in its turn. -/
theorem orphanWarnings_linkAll (plain : Plain doclets)
    (distinct : (doclets.map Doclet.longname).Nodup)
    : (linkAll doclets).orphanWarnings = doclets.filterMap (orphanWarning? doclets) := by
  have run
      : SettledUpTo doclets (doclets.map Doclet.longname).reverse (linkAll doclets)
        ∧ (linkAll doclets).orphanWarnings
          = (doclets.map Doclet.longname).reverse.reverse.filterMap (orphanWarningOf? doclets) := by
    refine linking_induction distinct
      (motive := fun done forest => SettledUpTo doclets done forest
        ∧ forest.orphanWarnings = done.reverse.filterMap (orphanWarningOf? doclets)) ?_ ?_
    · exact ⟨settled_scattered distinct, rfl⟩
    · intro done forest doclet member upTo ⟨settled, warned⟩
      refine ⟨settled.link plain distinct member upTo, ?_⟩
      rw [settled.orphanWarnings_link plain distinct member upTo, warned, List.reverse_cons,
        List.filterMap_append, ← orphanWarningOf?_longname distinct member]
      rfl
  rw [run.2, List.reverse_reverse, List.filterMap_map]
  refine List.filterMap_congr fun doclet member => ?_
  exact orphanWarningOf?_longname distinct member

/-- A doclet whose parent is not there comes under no root: linking has put it nowhere. -/
theorem SettledUpTo.unreachable_of_orphan (settled : Settled doclets forest) (plain : Plain doclets)
    (distinct : (doclets.map Doclet.longname).Nodup) (member : doclet ∈ doclets)
    (names : doclet.memberof = some absent) (unlisted : absent ∉ doclets.map Doclet.longname)
    : doclet.longname ∉ forest.reachable := by
  intro reached
  obtain ⟨node, found, -⟩ := settled.charted.own doclet member
  have lands := settled.lands plain distinct member (.inl rfl) found
  have stands := place_ne_nowhere settled.sound reached found
  have unknown {parent : Doclet} (link : MemberOf doclets doclet parent) : False := by
    cases names.symm.trans link.2
    exact unlisted (longname_mem link.1)
  generalize node.role = role, node.place = place at lands stands
  cases lands with
  | root free => cases free.symm.trans names
  | parked link _ _ => exact unknown link
  | under joins => exact unknown joins.1
  | lost | dropped | missed | refused | shut => exact stands rfl

-----------------------------------------------------------------------------------------
-- All orphans among plain doclets
-----------------------------------------------------------------------------------------

/-- Linking plain doclets warns of each survivor whose parent did not survive, once and in their
order, of no other parent, and none of these doclets comes under a root.
Witness: a doclet is looked up under the name that it gives or, once that has been changed, under
the namespace of a parent that is there; and what is there when a doclet is linked is there at first
or a helper, whose name no plain doclet gives.
-/
theorem orphans_reported (settings : Settings) {doclets : List Doclet} (plain : Plain doclets)
    : let kept := survivors settings doclets
      let forest := ofDoclets settings doclets
      forest.orphanWarnings = kept.filterMap (orphanWarning? kept)
      ∧ ∀ doclet ∈ kept,
          ∀ absent,
            doclet.memberof = some absent
            → absent ∉ kept.map Doclet.longname
            → doclet.longname ∉ forest.reachable := by
  intro kept forest
  have plainest := plain.survivors settings
  have distinct := nodup_survivors settings doclets
  have settled := settled_ofDoclets settings plain
  refine ⟨orphanWarnings_linkAll plainest distinct, ?_⟩
  intro doclet member absent names unlisted
  exact settled.unreachable_of_orphan plainest distinct member names unlisted

/-- Two orphans, between them a static member that comes to be one of a namespace. -/
theorem orphans_reported_static
    : let doclets : List Doclet :=
        [ { kind := .class, name := "C", longname := "x.C", memberof := some "x",
            implements := ["P"] },
          { kind := .interface, name := "I", longname := "I" },
          { kind := .function, name := "make", longname := "I.make", memberof := some "I",
            scope := some .static },
          { kind := .function, name := "f", longname := "y.f", memberof := some "y" } ]
      let forest := ofDoclets {} doclets
      Plain doclets
      ∧ forest.orphanWarnings = [.noParent "x.C" "x", .noParent "y.f" "y"]
      ∧ "x.C" ∉ forest.reachable := by
  intro doclets forest
  have kept : survivors {} doclets = doclets := by rfl
  have plain : Plain doclets := plain_of_short (by decide)
  obtain ⟨warned, unreachable⟩ := orphans_reported {} plain
  rw [kept] at warned unreachable
  refine ⟨plain, warned.trans (by decide), ?_⟩
  exact unreachable _ List.mem_cons_self "x" rfl (by decide)

end Typings.Forest
