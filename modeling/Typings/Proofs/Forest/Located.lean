import Typings.Proofs.Forest.Settling

/-! Linking keeps the chart of a forest of plain doclets, from its first doclet to its last, and
warns of a circle only where a doclet on one is put to its place.
-/

namespace Typings.Forest

open Relation

variable {doclets : List Doclet} {progress : Progress} {trouble later : Prop}
variable {done helpers moving : List String} {forest next last : Forest}
variable {doclet parent owner : Doclet} {name upper : String} {node : Node}

-----------------------------------------------------------------------------------------
-- What moves with a doclet
-----------------------------------------------------------------------------------------

/-- There has been a warning of a circle. -/
def Troubled (forest : Forest) : Prop :=
  ∃ warning ∈ forest.warnings, warning.kind = .cyclicMembership

/-- A class, interface or mixin that is a member of itself, and whose namespace nothing has called
for before it. It goes to that namespace, which is put nowhere.
-/
def Silent (doclets : List Doclet) (doclet : Doclet) : Prop :=
  Calls doclets doclet doclet ∧ ¬ Awaited doclets doclet

/-- What there is of a prepared doclet: its own node, the helpers that move with it, or a
namespace that does not.
-/
inductive Retinue (doclets : List Doclet) (doclet : Doclet) (helpers : List String)
    : String → Option Node.Role → Prop
  | own : Retinue doclets doclet helpers doclet.longname none
  | interface (listed : interfaceHelper doclet.longname ∈ helpers)
    : Retinue doclets doclet helpers (interfaceHelper doclet.longname) (some .interface)
  | awaited (listed : namespaceHelper doclet.longname ∈ helpers)
    (awaited : Awaited doclets doclet)
    : Retinue doclets doclet helpers (namespaceHelper doclet.longname) (some .namespace)
  | silent (silent : Silent doclets doclet)
    (unlisted : namespaceHelper doclet.longname ∉ helpers)
    : Retinue doclets doclet helpers (namespaceHelper doclet.longname) (some .namespace)

section prepared

variable (prepared : Prepared doclets done (doclet.longname :: done) trouble doclet helpers forest)

include prepared

theorem Prepared.belongs (listed : name ∈ helpers ++ [doclet.longname])
    : Belongs name doclet.longname := by
  rcases List.mem_append.mp listed with isHelper | isDoclet
  · have either := prepared.once.subset isHelper
    simp only [List.mem_cons, List.not_mem_nil, or_false] at either
    exact .inr either
  · exact .inl (List.mem_singleton.mp isDoclet)

theorem Prepared.nodup (plain : Plain doclets) (member : doclet ∈ doclets)
    : (helpers ++ [doclet.longname]).Nodup := by
  have longest
      : [interfaceHelper doclet.longname, namespaceHelper doclet.longname,
          doclet.longname].Nodup := by
    simp only [List.nodup_cons, List.mem_cons, List.not_mem_nil, or_false, not_or]
    exact ⟨⟨interfaceHelper_ne_namespaceHelper _ _, plain.interfaceHelper_ne member _⟩,
      plain.namespaceHelper_ne member _, not_false, .nil⟩
  exact (prepared.once.append_right [doclet.longname]).nodup longest

theorem Prepared.loose (plain : Plain doclets) (distinct : (doclets.map Doclet.longname).Nodup)
    (member : doclet ∈ doclets) (new : doclet.longname ∉ done)
    : ∀ name ∈ helpers ++ [doclet.longname], forest.stands name = false := by
  intro name listed
  cases found : forest.find? name with
  | none => simp [stands, found]
  | some node =>
      exact stands_eq_false found
        (prepared.charted.waiting plain distinct member new (prepared.belongs listed) found)

/-- A node that belongs to a doclet is that of the doclet itself or one of the helpers that move
with it, but for a namespace that only the doclet itself has called for.
-/
theorem Prepared.retinue (plain : Plain doclets) (distinct : (doclets.map Doclet.longname).Nodup)
    (member : doclet ∈ doclets) (upTo : UpTo doclets done doclet)
    (belongs : Belongs name doclet.longname) (found : forest.find? name = some node)
    : Retinue doclets doclet helpers name node.role := by
  rcases belongs with rfl | rfl | rfl
  · obtain ⟨ownNode, ownFound, own⟩ := prepared.charted.own doclet member
    cases ownFound.symm.trans found
    exact own.role.symm ▸ .own
  · obtain ⟨_, heritage, role, _⟩ := prepared.charted.interface_of plain distinct member found
    exact role.symm ▸ .interface (prepared.mem_interface.mpr heritage)
  · obtain ⟨asked, role, _⟩ := prepared.charted.namespace_of plain distinct member found
    rw [role]
    by_cases awaited : Awaited doclets doclet
    · exact .awaited (prepared.mem_namespace.mpr awaited) awaited
    · refine .silent ?_ fun listed => awaited (prepared.mem_namespace.mp listed)
      cases asked with
      | static listed static _ => exact absurd (.inl ⟨_, listed, static⟩) awaited
      | call listed calls hasCalled =>
          rcases List.mem_cons.mp hasCalled with same | early
          · cases eq_of_longname_eq distinct listed member same
            exact ⟨calls, awaited⟩
          · exact absurd (.inr ⟨_, (upTo _ listed).mp early, calls⟩) awaited

end prepared

-----------------------------------------------------------------------------------------
-- Lines of nodes follow the doclets
-----------------------------------------------------------------------------------------

theorem Lands.joins_of_under {moved : List String} {role : Option Node.Role}
    (lands : Lands doclets moved trouble doclet role (.under upper))
    : ∃ parent, Joins doclets doclet parent ∧ upper = holder moved parent doclet := by
  cases lands with
  | under joins => exact ⟨_, joins, rfl⟩

/-- What belongs to a doclet stands under what belongs to the parent of that. -/
theorem Charted.belongs_upper (charted : Charted doclets progress trouble forest)
    (plain : Plain doclets) (distinct : (doclets.map Doclet.longname).Nodup)
    (member : doclet ∈ doclets) (belongs : Belongs name doclet.longname)
    (under : forest.StandsUnder name upper)
    : ∃ parent, Joins doclets doclet parent ∧ Belongs upper parent.longname := by
  obtain ⟨node, found, place⟩ := parent?_eq_some_iff.mp under
  have situated : Situated doclets progress trouble doclet node.role node.place := by
    by_cases isDoclet : name = doclet.longname
    · subst isDoclet
      obtain ⟨ownNode, ownFound, own⟩ := charted.own doclet member
      cases ownFound.symm.trans found
      exact own.role ▸ own.situated
    · exact (charted.kin_of plain distinct member belongs isDoclet found).situated
  rw [place] at situated
  have placed : doclet.longname ∈ progress.placed :=
    Decidable.by_contra fun unplaced => nomatch situated.waiting unplaced
  obtain ⟨parent, joins, rfl⟩ := (situated.placed placed).joins_of_under
  exact ⟨parent, joins, belongs_holder _ _ _⟩

/-- A line of nodes follows the doclets that they belong to, by induction along the line. -/
theorem Charted.belongs_above (charted : Charted doclets progress trouble forest)
    (plain : Plain doclets) (distinct : (doclets.map Doclet.longname).Nodup)
    (member : doclet ∈ doclets) (belongs : Belongs name doclet.longname)
    (line : ReflTransGen forest.StandsUnder name upper)
    : ∃ above ∈ doclets,
        ReflTransGen (Joins doclets) doclet above ∧ Belongs upper above.longname := by
  induction line with
  | refl => exact ⟨doclet, member, .refl, belongs⟩
  | tail _ link ih =>
      obtain ⟨middle, middleMember, lower, middleBelongs⟩ := ih
      obtain ⟨parent, joins, parentBelongs⟩ :=
        charted.belongs_upper plain distinct middleMember middleBelongs link
      exact ⟨parent, joins.1.1, lower.tail joins, parentBelongs⟩

/-- Only a doclet on a circle is above the place that it is put to. -/
theorem Prepared.onCircle
    (prepared : Prepared doclets done (doclet.longname :: done) trouble doclet helpers forest)
    (plain : Plain doclets) (distinct : (doclets.map Doclet.longname).Nodup)
    (joins : Joins doclets doclet parent) (member : doclet ∈ doclets)
    (belongs : Belongs name doclet.longname)
    (above : name ∈ forest.above (holder (doclet.longname :: done) parent doclet))
    : OnCircle doclets doclet := by
  obtain ⟨upper, upperMember, line, upperBelongs⟩ :=
    prepared.charted.belongs_above plain distinct joins.1.1 (belongs_holder _ parent doclet)
      ((mem_above_iff prepared.sound).mp above)
  have same : upper = doclet := eq_of_longname_eq distinct upperMember member
    (upperBelongs.unique (plain upper upperMember).1 (plain doclet member).1 belongs)
  exact .head' joins (same ▸ line)

-----------------------------------------------------------------------------------------
-- A doclet and its helpers come to their place
-----------------------------------------------------------------------------------------

theorem Lands.mono {moved : List String} {role : Option Node.Role} {place : Place}
    (lands : Lands doclets moved trouble doclet role place) (troubled : trouble → later)
    : Lands doclets moved later doclet role place := by
  cases lands with
  | root free => exact .root free
  | lost names unlisted => exact .lost names unlisted
  | dropped link enum => exact .dropped link enum
  | parked link enum awaited => exact .parked link enum awaited
  | missed link enum late => exact .missed link enum late
  | under joins => exact .under joins
  | refused circle trouble => exact .refused circle (troubled trouble)
  | shut self late => exact .shut self late

/-- The nodes that are listed get a place and name a parent, and nothing else changes. -/
def Settles (forest next : Forest) (moving : List String) (place : Place)
    (memberof : Option String)
    : Prop :=
  ∀ other,
    next.find? other
    = if other ∈ moving then (forest.find? other).map fun node => settled node place memberof
      else forest.find? other

/-- What is settled keeps its role and whether it is nested, and its doclet but for the parent. -/
theorem Settles.found {place : Place} {memberof : Option String} {old : Node}
    (settles : Settles forest next moving place memberof) (found : forest.find? name = some old)
    : ∃ node,
        next.find? name = some node
        ∧ SameDoclet node old
        ∧ (old.role = none → node.doclet = old.doclet)
        ∧ node.nested = old.nested
        ∧ node.place = if name ∈ moving then place else old.place := by
  rw [settles, found]
  split
  · exact ⟨_, rfl, sameDoclet_settled old _ _, fun role => doclet_settled role _ _,
      nested_settled old _ _, rfl⟩
  · exact ⟨old, rfl, .refl old, fun _ => rfl, rfl, rfl⟩

/-- What belongs to a doclet is situated by its coming to its place, all else as before. -/
theorem Prepared.situated {place : Place} {other : Doclet}
    (prepared : Prepared doclets done (doclet.longname :: done) trouble doclet helpers forest)
    (plain : Plain doclets) (distinct : (doclets.map Doclet.longname).Nodup)
    (member : doclet ∈ doclets) (upTo : UpTo doclets done doclet)
    (moves : ∀ name ∈ moving, Belongs name doclet.longname) (troubled : trouble → later)
    (lands
      : ∀ {name role},
          Retinue doclets doclet helpers name role
          → Lands doclets (doclet.longname :: done) later doclet role
              (if name ∈ moving then place else .nowhere))
    (otherMember : other ∈ doclets) (belongs : Belongs name other.longname)
    (found : forest.find? name = some node)
    (situated
      : Situated doclets
          ⟨doclet.longname :: done, doclet.longname :: done, doclet.longname :: done, done⟩
          trouble other node.role node.place)
    : Situated doclets (.upTo (doclet.longname :: done)) later other node.role
        (if name ∈ moving then place else node.place) := by
  by_cases isDoclet : other = doclet
  · subst isDoclet
    have new := upTo.new distinct member
    rw [prepared.charted.waiting plain distinct member new belongs found]
    exact ⟨fun _ => lands (prepared.retinue plain distinct member upTo belongs found),
      fun new => absurd List.mem_cons_self new⟩
  · have different : other.longname ≠ doclet.longname := fun same =>
      isDoclet (eq_of_longname_eq distinct otherMember member same)
    have stays : name ∉ moving := by
      intro listed
      exact isDoclet (eq_of_longname_eq distinct otherMember member
        (belongs.unique (plain other otherMember).1 (plain doclet member).1 (moves name listed)))
    rw [if_neg stays]
    refine ⟨fun placed => (situated.placed ?_).mono troubled, fun new => situated.waiting ?_⟩
    · exact (List.mem_cons.mp placed).resolve_left different
    · exact fun early => new (List.mem_cons_of_mem _ early)

/-- Putting what belongs to a doclet to its places keeps the chart. -/
theorem Prepared.place {place : Place} {memberof : Option String}
    (prepared : Prepared doclets done (doclet.longname :: done) trouble doclet helpers forest)
    (plain : Plain doclets) (distinct : (doclets.map Doclet.longname).Nodup)
    (member : doclet ∈ doclets) (upTo : UpTo doclets done doclet)
    (moves : ∀ name ∈ moving, Belongs name doclet.longname)
    (settles : Settles forest next moving place memberof) (troubled : trouble → later)
    (lands
      : ∀ {name role},
          Retinue doclets doclet helpers name role
          → Lands doclets (doclet.longname :: done) later doclet role
              (if name ∈ moving then place else .nowhere))
    : Charted doclets (.upTo (doclet.longname :: done)) later next := by
  constructor
  · intro other otherMember
    obtain ⟨old, found, own⟩ := prepared.charted.own other otherMember
    obtain ⟨node, nodeFound, same, sameDoclet, nested, place_eq⟩ := settles.found found
    refine ⟨node, nodeFound, same.1.trans own.role, ?_, nested ▸ own.nested_iff, ?_⟩
    · exact sameDoclet own.role ▸ own.doclet_eq
    · have situated := prepared.situated plain distinct member upTo moves troubled lands
        otherMember (.inl rfl) found (own.role.symm ▸ own.situated)
      rw [place_eq]
      exact own.role ▸ situated
  · intro name node found unlisted
    cases oldFound : forest.find? name with
    | none =>
        rw [settles, oldFound] at found
        simp at found
    | some old =>
        obtain ⟨owner, ownerMember, kin⟩ := prepared.charted.helper oldFound unlisted
        obtain ⟨sameNode, nodeFound, same, _, nested, place_eq⟩ := settles.found oldFound
        cases nodeFound.symm.trans found
        refine ⟨owner, ownerMember,
          kin.serves.mono (List.Subset.refl _) (List.Subset.refl _) same, nested.trans kin.nested,
          ?_⟩
        have situated := prepared.situated plain distinct member upTo moves troubled lands
          ownerMember kin.serves.belongs oldFound kin.situated
        rw [place_eq]
        exact same.1.symm ▸ situated

-----------------------------------------------------------------------------------------
-- A whole step
-----------------------------------------------------------------------------------------

theorem troubled_congr (same : next.warnings = forest.warnings)
    : Troubled next ↔ Troubled forest := by
  simp only [Troubled, same]

/-- Attaching a doclet with its helpers keeps the chart. What is above the place that it is put to
is refused, and only what is on a circle is that.
-/
theorem Prepared.attached
    (prepared
      : Prepared doclets done (doclet.longname :: done) (Troubled forest) doclet helpers forest)
    (plain : Plain doclets) (distinct : (doclets.map Doclet.longname).Nodup)
    (member : doclet ∈ doclets) (upTo : UpTo doclets done doclet)
    (joins : Joins doclets doclet parent)
    (known : forest.has (holder (doclet.longname :: done) parent doclet) = true)
    : let next :=
        forest.attachAll (holder (doclet.longname :: done) parent doclet)
          (helpers ++ [doclet.longname])
      Charted doclets (.upTo (doclet.longname :: done)) (Troubled next) next := by
  have loose := prepared.loose plain distinct member (upTo.new distinct member)
  obtain ⟨finds, warnings⟩ :=
    attachAll_effect prepared.sound known (prepared.nodup plain member) loose
  generalize holder_eq : holder (doclet.longname :: done) parent doclet = container at *
  generalize forest.attachAll container (helpers ++ [doclet.longname]) = next at *
  have lands {name : String} (listed : name ∈ helpers ++ [doclet.longname])
      (role : Option Node.Role)
      : Lands doclets (doclet.longname :: done) (Troubled next) doclet role
          (if name ∈ (helpers ++ [doclet.longname]).filter (· ∉ forest.above container) then
            .under container
          else .nowhere) := by
    by_cases above : name ∈ forest.above container
    · rw [if_neg (by simp [above])]
      refine .refused (prepared.onCircle plain distinct joins member (prepared.belongs listed)
        (holder_eq ▸ above)) ⟨.underItself name container, ?_, rfl⟩
      rw [warnings]
      refine List.mem_append_right _ (List.mem_map.mpr ⟨name, ?_, rfl⟩)
      exact List.mem_filter.mpr ⟨listed, by simpa using above⟩
    · rw [if_pos (List.mem_filter.mpr ⟨listed, by simpa using above⟩)]
      exact holder_eq ▸ .under joins
  have settles
      : Settles forest next ((helpers ++ [doclet.longname]).filter (· ∉ forest.above container))
          (.under container) (some container) := by
    intro other
    rw [finds]
    simp only [List.mem_filter, decide_eq_true_eq]
  refine prepared.place plain distinct member upTo
    (fun name listed => prepared.belongs (List.mem_filter.mp listed).1) settles ?_ ?_
  · rintro ⟨warning, listed, isCyclic⟩
    exact ⟨warning, warnings ▸ List.mem_append_left _ listed, isCyclic⟩
  · intro name role retinue
    cases retinue with
    | own => exact lands (List.mem_append_right _ List.mem_cons_self) none
    | interface listed => exact lands (List.mem_append_left _ listed) _
    | awaited listed _ => exact lands (List.mem_append_left _ listed) _
    | silent silent unlisted =>
        have stays : namespaceHelper doclet.longname ∉ helpers ++ [doclet.longname] := by
          simp [unlisted, plain.namespaceHelper_ne member]
        rw [if_neg fun listed => stays (List.mem_filter.mp listed).1]
        exact .shut silent.1.joins silent.2

/-- Putting a doclet to its place keeps the chart. -/
theorem Prepared.linked
    (prepared
      : Prepared doclets done (doclet.longname :: done) (Troubled forest) doclet helpers forest)
    (plain : Plain doclets) (distinct : (doclets.map Doclet.longname).Nodup)
    (member : doclet ∈ doclets) (upTo : UpTo doclets done doclet)
    (linked : Linked doclets done doclet helpers forest next)
    : Charted doclets (.upTo (doclet.longname :: done)) (Troubled next) next := by
  have new := upTo.new distinct member
  have nodup := prepared.nodup plain member
  have loose := prepared.loose plain distinct member new
  have own_moves : doclet.longname ∈ helpers ++ [doclet.longname] :=
    List.mem_append_right _ List.mem_cons_self
  cases linked with
  | root free =>
      refine prepared.place plain distinct member upTo (fun name => prepared.belongs)
        (find?_addRoots nodup loose) (troubled_congr (warnings_addRoots _ _)).mpr ?_
      intro name role retinue
      cases retinue with
      | own => exact if_pos own_moves ▸ .root free
      | interface listed => exact if_pos (List.mem_append_left _ listed) ▸ .root free
      | awaited listed _ => exact if_pos (List.mem_append_left _ listed) ▸ .root free
      | silent silent _ => cases free.symm.trans silent.1.1.2
  | @lost absent names unlisted =>
      have settles
          : Settles forest (forest.warn (.noParent doclet.longname absent)) [] .nowhere none :=
        fun _ => rfl
      refine prepared.place plain distinct member upTo
        (fun name listed => absurd listed List.not_mem_nil) settles ?_ ?_
      · rintro ⟨warning, listed, isCyclic⟩
        exact ⟨warning, List.mem_append_left _ listed, isCyclic⟩
      · intro name role _
        exact .lost names unlisted
  | @dropped parent link enum =>
      have helpersNodup : helpers.Nodup := (List.nodup_append.mp nodup).1
      refine prepared.place plain distinct member upTo
        (fun name listed => prepared.belongs (List.mem_append_left _ listed))
        (find?_addRoots helpersNodup fun name listed => loose name (List.mem_append_left _ listed))
        (troubled_congr (warnings_addRoots _ _)).mpr ?_
      intro name role retinue
      cases retinue with
      | own =>
          have stays : doclet.longname ∉ helpers := fun listed =>
            (List.nodup_append.mp nodup).2.2 _ listed _ List.mem_cons_self rfl
          exact if_neg stays ▸ .dropped link enum
      | interface listed => exact if_pos listed ▸ .parked link enum nofun
      | awaited listed awaited => exact if_pos listed ▸ .parked link enum fun _ => awaited
      | silent silent _ =>
          cases silent.1.1.unique distinct link
          cases enum.symm.trans silent.1.joins.2
  | joined joins known => exact prepared.attached plain distinct member upTo joins known

/-- A warning of a circle comes where a doclet on one is put to its place, unless that is silent.
Witness: the namespace that a silent doclet goes to stands nowhere, so nothing is above it.
-/
theorem Prepared.troubled
    (prepared : Prepared doclets done (doclet.longname :: done) trouble doclet helpers forest)
    (plain : Plain doclets) (distinct : (doclets.map Doclet.longname).Nodup)
    (member : doclet ∈ doclets) (upTo : UpTo doclets done doclet)
    (linked : Linked doclets done doclet helpers forest next) (troubled : Troubled next)
    : Troubled forest ∨ OnCircle doclets doclet ∧ ¬ Silent doclets doclet := by
  have new := upTo.new distinct member
  cases linked with
  | root free => exact .inl ((troubled_congr (warnings_addRoots _ _)).mp troubled)
  | dropped link enum => exact .inl ((troubled_congr (warnings_addRoots _ _)).mp troubled)
  | lost names unlisted =>
      obtain ⟨warning, listed, isCyclic⟩ := troubled
      rcases List.mem_append.mp listed with early | last
      · exact .inl ⟨warning, early, isCyclic⟩
      · cases List.mem_singleton.mp last
        cases isCyclic
  | @joined parent joins known =>
      obtain ⟨_, warnings⟩ := attachAll_effect prepared.sound known (prepared.nodup plain member)
        (prepared.loose plain distinct member new)
      obtain ⟨warning, listed, isCyclic⟩ := troubled
      rw [warnings] at listed
      rcases List.mem_append.mp listed with early | last
      · exact .inl ⟨warning, early, isCyclic⟩
      · obtain ⟨name, refused, rfl⟩ := List.mem_map.mp last
        obtain ⟨isMoving, above⟩ := List.mem_filter.mp refused
        have aboveHolder := of_decide_eq_true above
        refine .inr ⟨prepared.onCircle plain distinct joins member (prepared.belongs isMoving)
          aboveHolder, fun silent => ?_⟩
        cases silent.1.1.unique distinct joins.1
        rw [holder_of_leaves silent.1.2.1 silent.1.2.2] at known aboveHolder
        obtain ⟨container, found⟩ := has_iff.mp known
        have loose := prepared.charted.waiting plain distinct member new (.inr (.inr rfl)) found
        have free : forest.parent? (namespaceHelper doclet.longname) = none := by
          simp [parent?, found, loose]
        rw [above_of_free free, List.mem_singleton] at aboveHolder
        subst aboveHolder
        rcases List.mem_append.mp isMoving with isHelper | isOwn
        · exact silent.2 (prepared.mem_namespace.mp isHelper)
        · exact plain.namespaceHelper_ne member _ (List.mem_singleton.mp isOwn)

theorem Linked.has (linked : Linked doclets done doclet helpers forest next)
    (known : forest.has name = true)
    : next.has name = true := by
  cases linked with
  | root _ | dropped _ _ => exact (addRoots_changes _ _).has known
  | lost _ _ => exact known
  | joined _ _ => rwa [has_attachAll]

/-- A doclet whose parent is not there is warned of. -/
theorem Linked.reported (linked : Linked doclets done doclet helpers forest next) {absent : String}
    (names : doclet.memberof = some absent) (unlisted : absent ∉ doclets.map Doclet.longname)
    : .noParent doclet.longname absent ∈ next.warnings := by
  have unknown {parent : Doclet} (link : MemberOf doclets doclet parent) : False := by
    cases names.symm.trans link.2
    exact unlisted (longname_mem link.1)
  cases linked with
  | root free => cases free.symm.trans names
  | lost same _ =>
      cases names.symm.trans same
      exact List.mem_append_right _ List.mem_cons_self
  | dropped link _ => exact (unknown link).elim
  | joined joins _ => exact (unknown joins.1).elim

/-- What is known of a forest of which the doclets `done` have been linked. -/
structure SettledUpTo (doclets : List Doclet) (done : List String) (forest : Forest) : Prop where
  sound : forest.Sound
  charted : Charted doclets (.upTo done) (Troubled forest) forest
  supplied : Supplied doclets (.upTo done) forest
  /-- Only a doclet on a circle causes a warning of one. -/
  troubled : Troubled forest → ∃ doclet ∈ doclets, OnCircle doclets doclet ∧ ¬ Silent doclets doclet
  /-- A doclet whose parent is not there is warned of. -/
  reported
    : ∀ doclet ∈ doclets,
        doclet.longname ∈ done
        → ∀ absent,
            doclet.memberof = some absent
            → absent ∉ doclets.map Doclet.longname
            → .noParent doclet.longname absent ∈ forest.warnings

/-- What is known of a forest of which all doclets have been linked. -/
abbrev Settled (doclets : List Doclet) (forest : Forest) : Prop :=
  SettledUpTo doclets (doclets.map Doclet.longname).reverse forest

/-- Linking the next doclet puts it to its place, and all others stay where they are. -/
theorem SettledUpTo.link (settled : SettledUpTo doclets done forest) (plain : Plain doclets)
    (distinct : (doclets.map Doclet.longname).Nodup) (member : doclet ∈ doclets)
    (upTo : UpTo doclets done doclet)
    : SettledUpTo doclets (doclet.longname :: done)
        (link (doclets.map Doclet.longname) forest doclet.longname) := by
  obtain ⟨sound, charted, supplied, troubled, reported⟩ := settled
  have changes := link_changes (doclets.map Doclet.longname) forest doclet.longname
  obtain ⟨last, helpers, prepared, warnings, linked⟩ :=
    charted.link_cases supplied sound plain distinct member upTo
  rw [← troubled_congr warnings] at prepared troubled
  refine ⟨changes.sound sound, prepared.linked plain distinct member upTo linked, ⟨?_, ?_⟩, ?_, ?_⟩
  · intro owner ownerMember heritage begun
    exact linked.has (prepared.supplied.interfaces owner ownerMember heritage begun)
  · intro owner ownerMember asked
    exact linked.has (prepared.supplied.namespaces owner ownerMember asked)
  · intro trouble
    exact (prepared.troubled plain distinct member upTo linked trouble).elim troubled
      fun own => ⟨doclet, member, own⟩
  · intro other otherMember isLinked absent names unlisted
    rcases List.mem_cons.mp isLinked with same | early
    · cases eq_of_longname_eq distinct otherMember member same
      exact linked.reported names unlisted
    · exact changes.warnings_prefix.subset (reported other otherMember early absent names unlisted)

-----------------------------------------------------------------------------------------
-- From the first doclet to the last
-----------------------------------------------------------------------------------------

theorem mem_of_split {front back : List Doclet} (split : doclets = front ++ doclet :: back)
    : doclet ∈ doclets :=
  split ▸ List.mem_append_right _ List.mem_cons_self

theorem upTo_of_split {front back : List Doclet} (split : doclets = front ++ doclet :: back)
    (distinct : (doclets.map Doclet.longname).Nodup)
    : UpTo doclets (front.map Doclet.longname).reverse doclet := by
  intro other member
  rw [List.mem_reverse, precedes_iff_mem_front split distinct]
  constructor
  · intro listed
    obtain ⟨early, inFront, same⟩ := List.mem_map.mp listed
    have earlyMember : early ∈ doclets := split ▸ List.mem_append_left _ inFront
    exact eq_of_longname_eq distinct earlyMember member same ▸ inFront
  · exact List.mem_map_of_mem

/-- The forest of doclets with distinct longnames. -/
def linkAll (doclets : List Doclet) : Forest :=
  (doclets.map Doclet.longname).foldl (link (doclets.map Doclet.longname)) (scattered doclets)

theorem ofDoclets_eq (settings : Settings) (input : List Doclet)
    : ofDoclets settings input = linkAll (survivors settings input) := rfl

/-- What holds before linking, and is kept by linking the doclet behind those in front of it, holds
when all are linked, by induction on the doclets left.
-/
theorem linking_front_induction {motive : List Doclet → Forest → Prop}
    (start : motive [] (scattered doclets))
    (step
      : ∀ front doclet back forest,
          doclets = front ++ doclet :: back
          → motive front forest
          → motive (front ++ [doclet])
              (link (doclets.map Doclet.longname) forest doclet.longname))
    : motive doclets (linkAll doclets) := by
  have run (back front : List Doclet) (forest : Forest) (split : doclets = front ++ back)
      (holds : motive front forest)
      : motive doclets
          ((back.map Doclet.longname).foldl (link (doclets.map Doclet.longname)) forest) := by
    induction back generalizing front forest with
    | nil =>
        rw [List.append_nil] at split
        exact split ▸ holds
    | cons doclet back ih =>
        exact ih (front ++ [doclet]) _ (by simp [split]) (step _ _ _ _ split holds)
  exact run doclets [] _ rfl start

/-- The same for what depends on the longnames of the doclets in front only. -/
theorem linking_induction (distinct : (doclets.map Doclet.longname).Nodup)
    {motive : List String → Forest → Prop} (start : motive [] (scattered doclets))
    (step
      : ∀ done forest,
          ∀ doclet ∈ doclets,
            UpTo doclets done doclet
            → motive done forest
            → motive (doclet.longname :: done)
                (link (doclets.map Doclet.longname) forest doclet.longname))
    : motive (doclets.map Doclet.longname).reverse (linkAll doclets) := by
  refine linking_front_induction
    (motive := fun front forest => motive (front.map Doclet.longname).reverse forest) start ?_
  intro front doclet back forest split holds
  simpa using step _ forest doclet (mem_of_split split) (upTo_of_split split distinct) holds

theorem charted_scattered (distinct : (doclets.map Doclet.longname).Nodup)
    : Charted doclets (.upTo []) trouble (scattered doclets) := by
  constructor
  · intro doclet member
    refine ⟨{ doclet }, find?_scattered distinct member, rfl,
      ⟨doclet.memberof, rfl, .own fun _ _ renames => List.not_mem_nil renames.1⟩, ?_,
      nofun, fun _ => rfl⟩
    exact ⟨nofun, fun ⟨called, _⟩ => absurd called List.not_mem_nil⟩
  · intro name node found unlisted
    obtain ⟨doclet, member, rfl⟩ := mem_nodes_scattered.mp (mem_of_find? found)
    cases longname_of_find? found
    exact absurd (longname_mem member) unlisted

theorem settled_scattered (distinct : (doclets.map Doclet.longname).Nodup)
    : SettledUpTo doclets [] (scattered doclets) where
  sound := scattered_sound distinct
  charted := charted_scattered distinct
  supplied := by
    refine ⟨fun _ _ _ => nofun, ?_⟩
    rintro owner _ (⟨_, _, isMoving⟩ | ⟨_, _, hasCalled⟩)
    · exact absurd isMoving List.not_mem_nil
    · exact absurd hasCalled List.not_mem_nil
  troubled := fun ⟨_, warned, _⟩ => absurd warned List.not_mem_nil
  reported _ _ := nofun

/-- Plain doclets come to their places in whatever order they are, also on circles, under
enumerations and where their parents are not there.
-/
theorem settled_linkAll (plain : Plain doclets) (distinct : (doclets.map Doclet.longname).Nodup)
    : Settled doclets (linkAll doclets) :=
  linking_induction distinct (settled_scattered distinct) fun _ _ _ member upTo settled =>
    settled.link plain distinct member upTo

theorem settled_ofDoclets (settings : Settings) {input : List Doclet} (plain : Plain input)
    : Settled (survivors settings input) (ofDoclets settings input) :=
  settled_linkAll (plain.survivors settings) (nodup_survivors settings input)

theorem longname_mem_reverse (member : doclet ∈ doclets)
    : doclet.longname ∈ (doclets.map Doclet.longname).reverse :=
  List.mem_reverse.mpr (longname_mem member)

/-- Every node belongs to one of the doclets. -/
theorem SettledUpTo.belongs (settled : SettledUpTo doclets done forest)
    (known : forest.has name = true)
    : ∃ owner ∈ doclets, Belongs name owner.longname := by
  by_cases listed : name ∈ doclets.map Doclet.longname
  · obtain ⟨doclet, member, same⟩ := List.mem_map.mp listed
    exact ⟨doclet, member, .inl same.symm⟩
  · obtain ⟨node, found⟩ := has_iff.mp known
    obtain ⟨owner, member, kin⟩ := settled.charted.helper found listed
    exact ⟨owner, member, kin.serves.belongs⟩

/-- Whatever belongs to a doclet stands where linking that has put it. -/
theorem SettledUpTo.lands (settled : Settled doclets forest) (plain : Plain doclets)
    (distinct : (doclets.map Doclet.longname).Nodup) (member : doclet ∈ doclets)
    (belongs : Belongs name doclet.longname) (found : forest.find? name = some node)
    : Lands doclets (doclets.map Doclet.longname).reverse (Troubled forest) doclet node.role
        node.place := by
  by_cases isDoclet : name = doclet.longname
  · subst isDoclet
    obtain ⟨ownNode, ownFound, own⟩ := settled.charted.own doclet member
    cases ownFound.symm.trans found
    exact own.role.symm ▸ own.situated.placed (longname_mem_reverse member)
  · have kin := settled.charted.kin_of plain distinct member belongs isDoclet found
    exact kin.situated.placed (longname_mem_reverse member)

end Typings.Forest
