import Typings.Proofs.Forest.Branches
import Typings.Proofs.Forest.Located

/-! Every plain doclet comes to its place, whatever the order of the doclets. -/

namespace Typings.Forest

open Relation

variable {doclets : List Doclet} {stage : Stage} {done : List String} {forest : Forest}
variable {doclet parent : Doclet} {name upper : String} {node : Node}

-----------------------------------------------------------------------------------------
-- Doclets without circles
-----------------------------------------------------------------------------------------

/-- Every doclet is a member of nothing or of a doclet that is there and no enumeration. -/
def Resolved (doclets : List Doclet) : Prop :=
  ∀ doclet ∈ doclets,
    ∀ name,
      doclet.memberof = some name
      → ∃ parent ∈ doclets, parent.longname = name ∧ parent.isEnum = false

/-- No doclet is a member of itself, directly or through others. -/
def Acyclic (doclets : List Doclet) : Prop :=
  ∀ doclet ∈ doclets, ¬ TransGen (MemberOf doclets) doclet doclet

/-- There is no circle where longnames get shorter from each doclet to its parent. -/
theorem acyclic_of_shorter
    (shorter
      : ∀ doclet ∈ doclets,
          ∀ parent,
            MemberOf doclets doclet parent → parent.longname.length < doclet.longname.length)
    : Acyclic doclets := by
  intro doclet member circle
  have below {upper : Doclet} (line : TransGen (MemberOf doclets) doclet upper)
      : upper ∈ doclets ∧ upper.longname.length < doclet.longname.length := by
    induction line with
    | single link => exact ⟨link.1, shorter doclet member _ link⟩
    | tail _ link ih => exact ⟨link.1, (shorter _ ih.1 _ link).trans ih.2⟩
  exact absurd (below circle).2 (Nat.lt_irrefl _)

theorem Resolved.noEnum (resolved : Resolved doclets)
    (distinct : (doclets.map Doclet.longname).Nodup) (member : doclet ∈ doclets)
    (link : MemberOf doclets doclet parent)
    : parent.isEnum = false := by
  obtain ⟨other, otherMember, same, noEnum⟩ := resolved doclet member parent.longname link.2
  exact eq_of_longname_eq distinct otherMember link.1 same ▸ noEnum

theorem Spot.unique {moved : List String} {place other : Place}
    (distinct : (doclets.map Doclet.longname).Nodup) (left : Spot doclets moved doclet place)
    (right : Spot doclets moved doclet other)
    : place = other := by
  cases left with
  | root free =>
      cases right with
      | root _ => rfl
      | under link => cases free.symm.trans link.2
  | under link =>
      cases right with
      | root free => cases free.symm.trans link.2
      | under otherLink => rw [link.unique distinct otherLink]

/-- Without trouble a doclet that its parent takes is put to its place, and so are its helpers but
for the namespace of a doclet in itself.
-/
theorem Lands.spot_or_shut {moved : List String} {trouble : Prop} {role : Option Node.Role}
    {place : Place} (lands : Lands doclets moved trouble doclet role place)
    (distinct : (doclets.map Doclet.longname).Nodup)
    (taken : doclet.memberof = none ∨ ∃ parent, Joins doclets doclet parent) (quiet : ¬ trouble)
    : Spot doclets moved doclet place
      ∨ role = some .namespace ∧ Joins doclets doclet doclet ∧ place = .nowhere := by
  have noEnum {parent : Doclet} (link : MemberOf doclets doclet parent)
      : parent.isEnum = false := by
    rcases taken with free | ⟨other, joins⟩
    · cases free.symm.trans link.2
    · exact joins.1.unique distinct link ▸ joins.2
  cases lands with
  | root free => exact .inl (.root free)
  | lost names unlisted =>
      rcases taken with free | ⟨parent, joins⟩
      · cases free.symm.trans names
      · cases names.symm.trans joins.1.2
        exact absurd (longname_mem joins.1.1) unlisted
  | dropped link enum => cases enum.symm.trans (noEnum link)
  | parked link enum _ => cases enum.symm.trans (noEnum link)
  | missed link enum _ => cases enum.symm.trans (noEnum link)
  | under joins => exact .inl (.under joins.1)
  | refused _ troubled => exact absurd troubled quiet
  | shut self _ => exact .inr ⟨rfl, self, rfl⟩

/-- A doclet and its namespace do not both stand in the doclet itself. -/
theorem SettledUpTo.not_both_in_self (settled : Settled doclets forest)
    {moved : List String} {place : Place} {ownNode : Node}
    (self : MemberOf doclets doclet doclet) (distinct : (doclets.map Doclet.longname).Nodup)
    (ownFound : forest.find? doclet.longname = some ownNode) (ownPlace : ownNode.place = place)
    (found : forest.find? (namespaceHelper doclet.longname) = some node)
    (nodePlace : node.place = place)
    : ¬ Spot doclets moved doclet place := by
  intro spot
  cases spot with
  | root free => cases free.symm.trans self.2
  | @under parent link =>
      cases self.unique distinct link
      rcases holder_cases moved doclet doclet with body | container
      · rw [body] at ownPlace
        exact settled.sound.acyclic (.single (parent?_eq_some_iff.mpr ⟨_, ownFound, ownPlace⟩))
      · rw [container] at nodePlace
        exact settled.sound.acyclic (.single (parent?_eq_some_iff.mpr ⟨_, found, nodePlace⟩))

/-- Where every doclet is taken by its parent and no circle is warned of, helpers stand where their
owners do.
-/
theorem SettledUpTo.tracked (settled : Settled doclets forest) (plain : Plain doclets)
    (distinct : (doclets.map Doclet.longname).Nodup)
    (taken : ∀ doclet ∈ doclets, doclet.memberof = none ∨ ∃ parent, Joins doclets doclet parent)
    (quiet : ¬ Troubled forest)
    : let last := (doclets.map Doclet.longname).reverse
      Tracked doclets ⟨last, last, last⟩ forest := by
  intro last
  constructor
  · intro doclet member
    obtain ⟨node, found, own⟩ := settled.charted.own doclet member
    refine ⟨node, found, own.role, own.doclet_eq, fun _ => ?_, fun unplaced =>
      absurd (longname_mem_reverse member) unplaced⟩
    have lands := settled.lands plain distinct member (.inl rfl) found
    exact (lands.spot_or_shut distinct (taken doclet member) quiet).resolve_right fun shut => by
      cases own.role.symm.trans shut.1
  · intro name node found unlisted
    obtain ⟨owner, member, kin⟩ := settled.charted.helper found unlisted
    obtain ⟨ownNode, ownFound, own⟩ := settled.charted.own owner member
    refine ⟨owner, member, kin.serves.isClassLike, ownNode, ownFound, ?_⟩
    have ownSpot := (settled.lands plain distinct member (.inl rfl) ownFound).spot_or_shut distinct
      (taken owner member) quiet
    have spot := (settled.lands plain distinct member kin.serves.belongs found).spot_or_shut
      distinct (taken owner member) quiet
    replace ownSpot := ownSpot.resolve_right fun shut => by cases own.role.symm.trans shut.1
    cases kin.serves with
    | interface name_eq begun heritage same =>
        refine .interface name_eq begun same.1 same.kind_eq ?_
        exact (spot.resolve_right fun shut => by cases same.1.symm.trans shut.1).unique distinct
          ownSpot
    | «namespace» name_eq asked same =>
        refine .namespace name_eq same.1 same.kind_eq ?_
        subst name_eq
        split
        · rename_i self
          rcases spot with spot | shut
          · refine absurd spot
              (settled.not_both_in_self ⟨member, self⟩ distinct ownFound ?_ found rfl)
            exact ownSpot.unique distinct spot
          · exact shut.2.2
        · rename_i notSelf
          exact (spot.resolve_right fun shut => notSelf shut.2.1.1.2).unique distinct ownSpot
  · intro doclet parent member link renames
    exact settled.supplied.namespaces parent link.1
      (.static member ⟨link, renames.2⟩ renames.1)

/-- Without a circle among the survivors all come to their places. -/
theorem tracked_ofDoclets (settings : Settings) {input : List Doclet} (plain : Plain input)
    (resolved : Resolved (survivors settings input)) (acyclic : Acyclic (survivors settings input))
    : ∃ last,
        (∀ doclet ∈ survivors settings input, doclet.longname ∈ last)
        ∧ Tracked (survivors settings input) ⟨last, last, last⟩ (ofDoclets settings input) := by
  have settled := settled_ofDoclets settings plain
  refine ⟨_, fun doclet => longname_mem_reverse, settled.tracked (plain.survivors settings)
    (nodup_survivors settings input) ?_ ?_⟩
  · intro doclet member
    cases names : doclet.memberof with
    | none => exact .inl rfl
    | some name =>
        obtain ⟨parent, parentMember, rfl, noEnum⟩ := resolved doclet member name names
        exact .inr ⟨parent, ⟨parentMember, names⟩, noEnum⟩
  · intro trouble
    obtain ⟨doclet, member, circle, _⟩ := settled.troubled trouble
    exact acyclic doclet member circle.transGen

-----------------------------------------------------------------------------------------
-- Every doclet at its place
-----------------------------------------------------------------------------------------

/-- The doclets of a forest stand where they belong, and their helpers beside them. -/
structure Placed (doclets : List Doclet) (forest : Forest) : Prop where
  /-- Each doclet is in the branches exactly once. -/
  once
    : ∀ doclet ∈ doclets,
        ((forest.branches.flatMap Branch.within).map Branch.longname).count doclet.longname = 1
  /-- The roots among the doclets are those that are members of nothing. -/
  root_iff
    : ∀ doclet ∈ doclets,
        doclet.longname ∈ forest.roots.map Node.longname ↔ doclet.memberof = none
  parent?_eq_none_iff
    : ∀ doclet ∈ doclets, forest.parent? doclet.longname = none ↔ doclet.memberof = none
  /-- What the body of its parent cannot hold stands in the namespace that helps that. -/
  beside
    : ∀ doclet ∈ doclets,
        ∀ parent,
          MemberOf doclets doclet parent
          → GoesBeside parent doclet
          → forest.parent? doclet.longname = some (namespaceHelper parent.longname)
            ∧ ∃ container,
                forest.find? (namespaceHelper parent.longname) = some container
                ∧ container.role = some .namespace
  /-- Any other member stands under its parent itself. -/
  inside
    : ∀ doclet ∈ doclets,
        ∀ parent,
          MemberOf doclets doclet parent
          → ¬ GoesBeside parent doclet
          → forest.parent? doclet.longname = some parent.longname
  /-- A helper stands where its owner does. -/
  helper
    : ∀ node ∈ forest.nodes,
        node.isHelper = true
        → ∃ owner ∈ doclets,
            (node.role = some .interface ∧ node.longname = interfaceHelper owner.longname
              ∨ node.role = some .namespace ∧ node.longname = namespaceHelper owner.longname)
            ∧ forest.parent? node.longname = forest.parent? owner.longname
            ∧ (node.longname ∈ forest.roots.map Node.longname
                ↔ owner.longname ∈ forest.roots.map Node.longname)

theorem holder_of_goesBeside {moved : List String} (known : parent.longname ∈ moved)
    (beside : GoesBeside parent doclet)
    : holder moved parent doclet = namespaceHelper parent.longname :=
  if_pos (beside.imp_right fun ⟨like, static⟩ => ⟨known, like, static⟩)

theorem holder_of_not_goesBeside {moved : List String} (inside : ¬ GoesBeside parent doclet)
    : holder moved parent doclet = parent.longname :=
  if_neg fun either => inside (either.imp_right And.right)

theorem Spot.ne_nowhere {moved : List String} {place : Place}
    (spot : Spot doclets moved doclet place)
    : place ≠ .nowhere := by
  cases spot <;> exact nofun

/-- A helper stands where its owner does, unless that is a member of itself. -/
theorem HelperNode.place_eq {begun : List String} {place : Place}
    (helper : HelperNode begun doclet place name node)
    (notOwn : doclet.memberof ≠ some doclet.longname)
    : node.place = place := by
  cases helper with
  | interface _ _ _ _ place_eq => exact place_eq
  | «namespace» _ _ _ place_eq => rwa [if_neg notOwn] at place_eq

section linked

variable {last : List String}

theorem Tracked.spot (tracked : Tracked doclets ⟨last, last, last⟩ forest)
    (all : ∀ doclet ∈ doclets, doclet.longname ∈ last) (member : doclet ∈ doclets)
    : ∃ node,
        forest.find? doclet.longname = some node
        ∧ node.role = none
        ∧ Spot doclets last doclet node.place := by
  obtain ⟨node, found, own⟩ := tracked.own doclet member
  exact ⟨node, found, own.role, own.placed (all doclet member)⟩

theorem Tracked.under (tracked : Tracked doclets ⟨last, last, last⟩ forest)
    (distinct : (doclets.map Doclet.longname).Nodup)
    (all : ∀ doclet ∈ doclets, doclet.longname ∈ last) (member : doclet ∈ doclets)
    (link : MemberOf doclets doclet parent)
    : forest.StandsUnder doclet.longname (holder last parent doclet) := by
  obtain ⟨node, found, _, spot⟩ := tracked.spot all member
  refine parent?_eq_some_iff.mpr ⟨node, found, ?_⟩
  generalize node.place = place at spot
  cases spot with
  | root free => cases free.symm.trans link.2
  | under otherLink => rw [otherLink.unique distinct link]

theorem Tracked.root_iff (tracked : Tracked doclets ⟨last, last, last⟩ forest)
    (all : ∀ doclet ∈ doclets, doclet.longname ∈ last) (member : doclet ∈ doclets)
    (found : forest.find? doclet.longname = some node)
    : node.place = .root ↔ doclet.memberof = none := by
  obtain ⟨ownNode, ownFound, _, spot⟩ := tracked.spot all member
  cases ownFound.symm.trans found
  generalize node.place = place at spot ⊢
  cases spot with
  | root free => exact ⟨fun _ => free, fun _ => rfl⟩
  | under link => exact ⟨nofun, fun free => by cases free.symm.trans link.2⟩

theorem Tracked.stands (tracked : Tracked doclets ⟨last, last, last⟩ forest)
    (sound : forest.Sound) (all : ∀ doclet ∈ doclets, doclet.longname ∈ last)
    (notOwn : ∀ doclet ∈ doclets, doclet.memberof ≠ some doclet.longname)
    (member : node ∈ forest.nodes)
    : node.place ≠ .nowhere := by
  have found := find?_of_mem sound.distinct member
  by_cases listed : node.longname ∈ doclets.map Doclet.longname
  · obtain ⟨doclet, docletMember, same⟩ := List.mem_map.mp listed
    obtain ⟨ownNode, ownFound, _, spot⟩ := tracked.spot all docletMember
    rw [same, found] at ownFound
    cases ownFound
    exact spot.ne_nowhere
  · obtain ⟨owner, ownerMember, _, ownerNode, ownerFound, helper⟩ := tracked.helper found listed
    obtain ⟨ownNode, ownFound, _, spot⟩ := tracked.spot all ownerMember
    cases ownFound.symm.trans ownerFound
    exact helper.place_eq (notOwn owner ownerMember) ▸ spot.ne_nowhere

/-- Nodes that are tracked to the end stand where they belong. -/
theorem Tracked.placed (tracked : Tracked doclets ⟨last, last, last⟩ forest)
    (sound : forest.Sound) (plain : Plain doclets)
    (distinct : (doclets.map Doclet.longname).Nodup)
    (all : ∀ doclet ∈ doclets, doclet.longname ∈ last)
    (notOwn : ∀ doclet ∈ doclets, doclet.memberof ≠ some doclet.longname)
    : Placed doclets forest where
  once doclet member := by
    obtain ⟨node, found, _⟩ := tracked.spot all member
    exact count_branches sound (fun _ => tracked.stands sound all notOwn) (has_of_find? found)
  root_iff doclet member := by
    obtain ⟨node, found, _⟩ := tracked.spot all member
    rw [roots, sound.mem_standingAt_iff, ← tracked.root_iff all member found]
    simp [found]
  parent?_eq_none_iff doclet member := by
    obtain ⟨node, found, _, spot⟩ := tracked.spot all member
    have stands := spot.ne_nowhere
    rw [← tracked.root_iff all member found]
    cases place : node.place with
    | nowhere => exact absurd place stands
    | root => simp [parent?, found, place]
    | under parent => simp [parent?, found, place]
  beside doclet member parent link goesBeside := by
    have under := tracked.under distinct all member link
    rw [holder_of_goesBeside (all parent link.1) goesBeside] at under
    refine ⟨under, ?_⟩
    obtain ⟨container, found⟩ := has_iff.mp (sound.parents under)
    obtain ⟨_, role, _⟩ := tracked.namespace_of plain distinct link.1 found
    exact ⟨container, found, role⟩
  inside doclet member parent link notBeside := by
    have under := tracked.under distinct all member link
    rwa [holder_of_not_goesBeside notBeside] at under
  helper node member isHelper := by
    have found := find?_of_mem sound.distinct member
    have unlisted : node.longname ∉ doclets.map Doclet.longname := by
      intro listed
      obtain ⟨doclet, docletMember, same⟩ := List.mem_map.mp listed
      obtain ⟨ownNode, ownFound, role, _⟩ := tracked.spot all docletMember
      rw [same, found] at ownFound
      cases ownFound
      simp [Node.isHelper, role] at isHelper
    obtain ⟨owner, ownerMember, _, ownerNode, ownerFound, helper⟩ := tracked.helper found unlisted
    have place := helper.place_eq (notOwn owner ownerMember)
    refine ⟨owner, ownerMember, ?_, ?_, ?_⟩
    · cases helper with
      | interface same _ role _ _ => exact .inl ⟨role, same⟩
      | «namespace» same role _ _ => exact .inr ⟨role, same⟩
    · simp only [parent?, found, ownerFound, place]
    · simp only [roots, sound.mem_standingAt_iff, found, ownerFound, Option.some.injEq,
        exists_eq_left', place]

end linked

/-- Linking puts every survivor of plain doclets to its place and its helpers beside it, in whatever
order the doclets are.
Witness: without a circle linking causes no warning, and a step without a warning puts exactly the
doclet and the helpers that wait with it under what holds them.
-/
theorem linking_places (settings : Settings) {doclets : List Doclet} (plain : Plain doclets)
    (resolved : Resolved (survivors settings doclets))
    (acyclic : Acyclic (survivors settings doclets))
    : Placed (survivors settings doclets) (ofDoclets settings doclets) := by
  obtain ⟨last, all, tracked⟩ := tracked_ofDoclets settings plain resolved acyclic
  refine tracked.placed (ofDoclets_sound settings doclets) (plain.survivors settings)
    (nodup_survivors settings doclets) all ?_
  intro doclet member self
  exact acyclic doclet member (.single ⟨member, self⟩)

/-- An interface that comes after a static function and a class of its own. -/
theorem linking_places_interface
    : let doclets : List Doclet :=
        [ { kind := .function, name := "make", longname := "I.make", memberof := some "I",
            scope := some .static },
          { kind := .class, name := "Part", longname := "I.Part", memberof := some "I",
            implements := ["P"] },
          { kind := .interface, name := "I", longname := "I" } ]
      let forest := ofDoclets {} doclets
      Plain doclets
      ∧ Resolved (survivors {} doclets)
      ∧ Acyclic (survivors {} doclets)
      ∧ Placed (survivors {} doclets) forest
      ∧ forest.roots.map Node.longname = ["I$$namespace$helper", "I"]
      ∧ (forest.children "I$$namespace$helper").map Node.longname
        = ["I.Part$$interface$helper", "I.Part", "I.make"] := by
  intro doclets forest
  have kept : survivors {} doclets = doclets := by rfl
  have plain : Plain doclets := plain_of_short (by decide)
  have resolved : Resolved (survivors {} doclets) := by
    rw [kept]
    simp [Resolved, doclets, Doclet.isEnum]
  have acyclic : Acyclic (survivors {} doclets) := by
    rw [kept]
    apply acyclic_of_shorter
    rintro doclet member parent ⟨_, names⟩
    simp only [doclets, List.mem_cons, List.not_mem_nil, or_false] at member
    rcases member with rfl | rfl | rfl
    · rw [← Option.some.inj names]
      decide
    · rw [← Option.some.inj names]
      decide
    · cases names
  exact ⟨plain, resolved, acyclic, linking_places {} plain resolved acyclic, by decide +kernel,
    by decide +kernel⟩

end Typings.Forest
