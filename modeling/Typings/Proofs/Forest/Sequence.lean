import Mathlib.Data.List.Perm.Basic
import Typings.Proofs.Forest.Rows
import Typings.Proofs.Forest.Statics

/-! The order of doclets at a place. Linking puts each one behind those that are there, so they
stand in the order of the input but in the namespaces of interfaces and mixins: those take the
static members of their owner when that is linked, behind what has come there before.
-/

namespace Typings.Forest

variable {doclets front : List Doclet} {progress : Progress} {trouble : Prop}
variable {done helpers names moved more : List String}
variable {forest middle next : Forest} {doclet owner : Doclet}
variable {name top container : String} {node : Node} {place target : Place}

-----------------------------------------------------------------------------------------
-- Doclets that come to a place
-----------------------------------------------------------------------------------------

/-- The longnames of the doclets at a place, in their order. Those of helpers are left out. -/
def lineup (doclets : List Doclet) (forest : Forest) (place : Place) : List String :=
  (forest.row place).filter (· ∈ doclets.map Doclet.longname)

/-- Nothing but the doclets `names` has come to the places, each at the end. -/
def Gains (doclets : List Doclet) (forest next : Forest) (names : Place → List String) : Prop :=
  ∀ place,
    place ≠ .nowhere
    → (lineup doclets next place).Sublist (lineup doclets forest place ++ names place)

theorem gains_of_rows (same : ∀ place, place ≠ .nowhere → next.row place = forest.row place)
    : Gains doclets forest next fun _ => [] := by
  intro place stands
  rw [lineup, same place stands, List.append_nil]
  exact .refl _

theorem Gains.trans {first second : Place → List String}
    (gains : Gains doclets forest middle first) (later : Gains doclets middle next second)
    : Gains doclets forest next fun place => first place ++ second place := by
  intro place stands
  rw [← List.append_assoc]
  exact (later place stands).trans ((gains place stands).append_right _)

theorem Gains.mono {few many : Place → List String} (gains : Gains doclets forest next few)
    (more : ∀ place, (few place).Sublist (many place))
    : Gains doclets forest next many :=
  fun place stands => (gains place stands).trans ((more place).append_left _)

theorem Extends.gains (comes : Extends forest next target names)
    (only : (names.filter (· ∈ doclets.map Doclet.longname)).Sublist more)
    : Gains doclets forest next fun _ => more := by
  obtain ⟨moved, sublist, rows⟩ := comes
  intro place stands
  rw [lineup, rows place stands, List.filter_append]
  refine List.Sublist.append_left ?_ _
  split
  · exact (sublist.filter _).trans only
  · exact List.nil_sublist _

section plain

variable (plain : Plain doclets)

include plain

theorem filter_helpers
    (once : helpers.Sublist [interfaceHelper doclet.longname, namespaceHelper doclet.longname])
    : helpers.filter (· ∈ doclets.map Doclet.longname) = [] := by
  rw [List.filter_eq_nil_iff]
  intro name listed
  have isHelper := once.subset listed
  simp only [List.mem_cons, List.not_mem_nil, or_false] at isHelper
  rw [decide_eq_true_eq]
  rcases isHelper with rfl | rfl
  · exact plain.interface_fresh _
  · exact plain.namespace_fresh _

/-- Of a doclet and its helpers only the doclet counts. -/
theorem filter_retinue
    (once : helpers.Sublist [interfaceHelper doclet.longname, namespaceHelper doclet.longname])
    : ((helpers ++ [doclet.longname]).filter
        (· ∈ doclets.map Doclet.longname)).Sublist [doclet.longname] := by
  rw [List.filter_append, filter_helpers plain once, List.nil_append]
  exact List.filter_sublist

/-- A companion comes between doclets, which stay in their order. -/
theorem gains_companion (sound : forest.Sound) (found : forest.find? node.longname = some node)
    : Gains doclets forest (forest.companion node).1 fun _ => [] := by
  rcases row_companion sound found with same | ⟨_, elsewhere, before, after, split, put⟩
  · exact gains_of_rows same
  · intro place stands
    rw [List.append_nil]
    by_cases here : place = node.place
    · subst here
      have fresh : decide (namespaceHelper node.longname ∈ doclets.map Doclet.longname) = false :=
        decide_eq_false (plain.namespace_fresh node.longname)
      rw [lineup, lineup, put, split]
      simp only [List.filter_append, List.filter_cons, fresh, Bool.false_eq_true, if_false]
      exact .refl _
    · rw [lineup, lineup, elsewhere place here]

/-- A doclet comes to the end of one row, or stays nowhere. -/
theorem gains_linkUnder (sound : forest.Sound)
    (once : helpers.Sublist [interfaceHelper doclet.longname, namespaceHelper doclet.longname])
    (found : forest.find? node.longname = some node) (memberof : Option String)
    : Gains doclets forest (forest.linkUnder node helpers { doclet with memberof })
        fun _ => [doclet.longname] := by
  have retinue := filter_retinue plain once
  unfold Forest.linkUnder
  split
  · rename_i moves
    have like := (Bool.and_eq_true_iff.mp moves).1
    have attached := (extends_attachAll ((companion_changes found like).sound sound)
      (has_companion found) (helpers ++ [doclet.longname])).gains retinue
    exact ((gains_companion plain sound found).trans attached).mono fun _ => .refl _
  · split
    · refine (extends_addRoots sound helpers).gains ?_
      rw [filter_helpers plain once]
      exact List.nil_sublist _
    · dsimp only
      split
      · have rows (place : Place)
            : (forest.modify doclet.longname fun node => { node with nested := true }).row place
              = forest.row place :=
          row_modify sound.distinct (fun _ => rfl) fun _ => rfl
        have nestedKnown := Changes.has (.single (.nest doclet.longname)) (has_of_find? found)
        have attached := (extends_attachAll (Change.sound (.nest doclet.longname) sound)
          nestedKnown (helpers ++ [doclet.longname])).gains retinue
        exact ((gains_of_rows fun place _ => rows place).trans attached).mono fun _ => .refl _
      · exact (extends_attachAll sound (has_of_find? found) _).gains retinue

end plain

-----------------------------------------------------------------------------------------
-- Static members that move
-----------------------------------------------------------------------------------------

/-- What is at a place, and nothing at another. -/
def onlyAt (target : Place) (names : List String) (place : Place) : List String :=
  if place = target then names else []

theorem gains_moveStatic (sound : forest.Sound) (apart : top ≠ container) (name : String)
    : ∃ moved,
        moved.Sublist [name]
        ∧ (∀ other ∈ moved, other ∈ forest.row (.under top))
        ∧ (moveStatic top container forest name).row (.under top) ⊆ forest.row (.under top)
        ∧ Gains doclets forest (moveStatic top container forest name)
            (onlyAt (.under container) moved) := by
  rcases row_moveStatic sound top container name with same | ⟨under, moved, sublist, rows⟩
  · refine ⟨[], List.nil_sublist _, nofun, ?_, (gains_of_rows same).mono fun _ => ?_⟩
    · rw [same (.under top) nofun]
      exact List.Subset.refl _
    · exact List.nil_sublist _
  · refine ⟨moved, sublist, fun other listed => ?_, ?_, fun place stands => ?_⟩
    · obtain ⟨node, found, place⟩ := parent?_eq_some_iff.mp under
      rw [List.mem_singleton.mp (sublist.subset listed)]
      exact sound.mem_standingAt_iff.mpr ⟨node, found, place⟩
    · rw [rows (.under top) nofun, if_neg fun same => apart (Place.under.inj same),
        List.append_nil]
      exact List.filter_sublist.subset
    · rw [lineup, rows place stands, List.filter_append]
      exact (List.filter_sublist.filter _).append List.filter_sublist

/-- Static members move one after the other, by induction on them. -/
theorem gains_foldl_moveStatic (sound : forest.Sound)
    (known : forest.has (namespaceHelper top) = true) (apart : top ≠ namespaceHelper top)
    (names : List String)
    : ∃ moved,
        moved.Sublist names
        ∧ (∀ other ∈ moved, other ∈ forest.row (.under top))
        ∧ Gains doclets forest
            (names.foldl (Forest.moveStatic top (namespaceHelper top)) forest)
            (onlyAt (.under (namespaceHelper top)) moved) := by
  induction names generalizing forest with
  | nil =>
      refine ⟨[], .refl _, nofun, (gains_of_rows fun _ _ => rfl).mono fun _ => ?_⟩
      exact List.nil_sublist _
  | cons name names ih =>
      obtain ⟨first, firstSublist, firstUnder, leaves, gains⟩ :=
        gains_moveStatic sound apart name
      obtain ⟨moved, sublist, under, later⟩ :=
        ih ((moveStatic_changes known).sound sound) (has_moveStatic _ _ known)
      refine ⟨first ++ moved, firstSublist.append sublist, ?_, (gains.trans later).mono ?_⟩
      · intro other listed
        rcases List.mem_append.mp listed with early | late
        · exact firstUnder other early
        · exact leaves (under other late)
      · intro place
        unfold onlyAt
        split <;> exact .refl _

/-- The static members of an interface or mixin that stand in its body come to its namespace. -/
theorem gains_moveStatics (plain : Plain doclets) (sound : forest.Sound)
    (member : doclet ∈ doclets) (memberof : Option String)
    : ∃ moved,
        moved.Sublist (forest.statics (doclets.map Doclet.longname) doclet.longname)
        ∧ (∀ other ∈ moved, other ∈ forest.row (.under doclet.longname))
        ∧ (moved ≠ [] → doclet.kind.isInterfaceLike = true)
        ∧ Gains doclets forest
            (forest.moveStatics (doclets.map Doclet.longname) { doclet with memberof })
            (onlyAt (.under (namespaceHelper doclet.longname)) moved) := by
  have apart : doclet.longname ≠ namespaceHelper doclet.longname :=
    (plain.namespaceHelper_ne member _).symm
  unfold Forest.moveStatics
  dsimp only
  split
  · refine ⟨[], List.nil_sublist _, nofun, fun some => absurd rfl some, ?_⟩
    exact (gains_of_rows fun _ _ => rfl).mono fun _ => List.nil_sublist _
  · rename_i busy
    simp only [Bool.or_eq_true, not_or, Bool.not_eq_true', Bool.not_eq_false] at busy
    split
    · rename_i known
      obtain ⟨moved, sublist, under, gains⟩ := gains_foldl_moveStatic sound known apart
        (forest.statics (doclets.map Doclet.longname) doclet.longname)
      exact ⟨moved, sublist, under, fun _ => busy.1, gains⟩
    · rename_i absent
      have fresh := find?_of_not_has absent
      have rows (place : Place) (stands : place ≠ .nowhere)
          : (forest.add (namespaceOf { doclet with memberof } doclet.scope)).row place
            = forest.row place :=
        row_add rfl stands
      obtain ⟨moved, sublist, under, gains⟩ := gains_foldl_moveStatic
        (Change.sound (.add (.namespace { doclet with memberof } doclet.scope) fresh) sound)
        has_add apart (forest.statics (doclets.map Doclet.longname) doclet.longname)
      refine ⟨moved, sublist, fun other listed => ?_, fun _ => busy.1, ?_⟩
      · exact rows (.under doclet.longname) nofun ▸ under other listed
      · exact ((gains_of_rows rows).trans gains).mono fun _ => .refl _

-----------------------------------------------------------------------------------------
-- A whole step
-----------------------------------------------------------------------------------------

/-- A static member that the body of its owner can hold. If it is linked before the owner, it stands
there until the owner is linked, and then shifts to the namespace.
-/
def shifts (owner doclet : Doclet) : Bool :=
  doclet.memberof == some owner.longname && doclet.isStatic && !doclet.leavesClass

/-- The doclets in the order in which the namespace of `owner` takes them: what shifts comes behind
what else is in front of the owner.
-/
def arrivals (before : List Doclet) (owner : Doclet) (after : List Doclet) : List Doclet :=
  before.filter (fun doclet => !shifts owner doclet) ++ before.filter (shifts owner)
    ++ owner :: after

/-- Part of a list without repetitions is in the order of another part that has all of it. -/
theorem sublist_of_subset {row kept whole : List String} (once : whole.Nodup)
    (part : row.Sublist whole) (other : kept.Sublist whole) (inside : row ⊆ kept)
    : row.Sublist kept := by
  have same : whole.filter (· ∈ kept) = kept := by
    refine (once.perm_iff_eq_of_sublist List.filter_sublist other).mp ?_
    refine (List.perm_ext_iff_of_nodup (once.filter _) (other.nodup once)).mpr fun name => ?_
    simpa using fun listed => other.subset listed
  have rowKept : row.filter (· ∈ kept) = row := by
    simpa using fun name listed => inside listed
  rw [← same, ← rowKept]
  exact part.filter _

/-- What is in front of a doclet has another namespace. -/
theorem namespaceHelper_ne_of_front {back : List Doclet}
    (distinct : (doclets.map Doclet.longname).Nodup) (split : doclets = front ++ doclet :: back)
    (listed : owner ∈ front)
    : namespaceHelper owner.longname ≠ namespaceHelper doclet.longname := by
  intro same
  have member := mem_of_split split
  refine (upTo_of_split split distinct).new distinct member ?_
  rw [List.mem_reverse, ← namespaceHelper_injective same]
  exact List.mem_map_of_mem listed

section step

variable (plain : Plain doclets) (distinct : (doclets.map Doclet.longname).Nodup)

include plain distinct

/-- A static member that stands in the body of a doclet, as that waits to be linked, shifts. -/
theorem Charted.shifts_of_static (charted : Charted doclets progress trouble forest)
    (sound : forest.Sound) (member : doclet ∈ doclets) (unmoved : doclet.longname ∉ progress.moved)
    (like : doclet.kind.isInterfaceLike = true)
    (static : name ∈ forest.statics (doclets.map Doclet.longname) doclet.longname)
    (under : name ∈ forest.row (.under doclet.longname))
    : ∃ other ∈ doclets,
        other.longname = name
        ∧ other.longname ∈ progress.placed
        ∧ shifts doclet other = true := by
  obtain ⟨other, otherMember, rfl, link, isStatic⟩ :=
    (charted.mem_statics plain distinct member unmoved name).mp static
  obtain ⟨node, found, place⟩ := sound.mem_standingAt_iff.mp under
  obtain ⟨placed, lands⟩ := charted.lands_under otherMember found place
  obtain ⟨_, inside, _⟩ := lands.in_body plain distinct member
  have classLike := Doclet.Kind.isClassLike_of_isInterfaceLike like
  have stays : other.leavesClass = false :=
    Bool.eq_false_iff.mpr fun leaves => inside ⟨classLike, leaves⟩
  exact ⟨other, otherMember, rfl, placed, by simp [shifts, link.2, isStatic, stays]⟩

/-- What shifts is not in the namespace before its owner is linked. -/
theorem Charted.not_shifts (charted : Charted doclets progress trouble forest)
    (sound : forest.Sound) (member : doclet ∈ doclets) (unmoved : doclet.longname ∉ progress.moved)
    {other : Doclet} (otherMember : other ∈ doclets)
    (under : other.longname ∈ forest.row (.under (namespaceHelper doclet.longname)))
    : shifts doclet other = false := by
  rw [Bool.eq_false_iff]
  intro isShifting
  simp only [shifts, Bool.and_eq_true, beq_iff_eq, Bool.not_eq_true'] at isShifting
  obtain ⟨⟨names, isStatic⟩, stays⟩ := isShifting
  obtain ⟨node, found, place⟩ := sound.mem_standingAt_iff.mp under
  obtain ⟨_, lands⟩ := charted.lands_under otherMember found place
  obtain ⟨parent, joins, held⟩ := lands.joins_of_under
  have isParent : parent = doclet := joins.1.unique distinct ⟨member, names⟩
  subst isParent
  have body : holder progress.moved parent other = parent.longname := by
    refine if_neg ?_
    rintro (⟨_, leaves⟩ | renames)
    · cases leaves.symm.trans stays
    · exact unmoved renames.1
  exact plain.namespaceHelper_ne member _ (held.trans body)

/-- What has been put under the next doclet and shifts comes to its namespace. -/
theorem SettledUpTo.gains_addHelpers {front back : List Doclet}
    (settled : SettledUpTo doclets (front.map Doclet.longname).reverse forest)
    (split : doclets = front ++ doclet :: back) (memberof : Option String)
    : ∃ moved,
        moved.Sublist ((front.filter (shifts doclet)).map Doclet.longname)
        ∧ (moved ≠ [] → doclet.kind.isInterfaceLike = true)
        ∧ Gains doclets forest
            (forest.addHelpers (doclets.map Doclet.longname) { doclet with memberof }).1
            (onlyAt (.under (namespaceHelper doclet.longname)) moved) := by
  obtain ⟨sound, charted, supplied, _, _⟩ := settled
  have member := mem_of_split split
  have new := (upTo_of_split split distinct).new distinct member
  obtain ⟨begun, _⟩ :=
    charted.addInterface supplied plain distinct member new new memberof
  have begunSound := (addInterface_changes forest { doclet with memberof }).sound sound
  obtain ⟨moved, sublist, under, moves, gains⟩ :=
    gains_moveStatics plain begunSound member memberof
  have unmoved
      : Gains doclets forest (forest.addInterface { doclet with memberof }).1 fun _ => [] :=
    gains_of_rows fun place stands => row_addInterface forest _ stands
  refine ⟨moved, ?_, moves, (unmoved.trans gains).mono fun _ => .refl _⟩
  have part : (front.filter (shifts doclet)).Sublist doclets :=
    List.filter_sublist.trans (split ▸ List.sublist_append_left _ _)
  refine sublist_of_subset distinct (sublist.trans List.filter_sublist)
    (part.map Doclet.longname) fun name listed => ?_
  have like := moves (List.ne_nil_of_mem listed)
  obtain ⟨other, otherMember, same, placed, isShifting⟩ :=
    begun.shifts_of_static plain distinct begunSound member new like (sublist.subset listed)
      (under name listed)
  obtain ⟨early, inFront, sameEarly⟩ := List.mem_map.mp (List.mem_reverse.mp placed)
  have earlyMember : early ∈ doclets := split ▸ List.mem_append_left _ inFront
  cases eq_of_longname_eq distinct earlyMember otherMember sameEarly
  exact List.mem_map.mpr ⟨other, List.mem_filter.mpr ⟨inFront, isShifting⟩, same⟩

/-- Linking the next doclet puts it behind what is at its place, and what shifts in its namespace.
-/
theorem SettledUpTo.gains_link {front back : List Doclet}
    (settled : SettledUpTo doclets (front.map Doclet.longname).reverse forest)
    (split : doclets = front ++ doclet :: back)
    : ∃ moved,
        moved.Sublist ((front.filter (shifts doclet)).map Doclet.longname)
        ∧ (moved ≠ [] → doclet.kind.isInterfaceLike = true)
        ∧ Gains doclets forest (Forest.link (doclets.map Doclet.longname) forest doclet.longname)
            fun place =>
              onlyAt (.under (namespaceHelper doclet.longname)) moved place
                ++ [doclet.longname] := by
  have member := mem_of_split split
  obtain ⟨start, startFound, own⟩ := settled.charted.own doclet member
  obtain ⟨memberof, start_eq, _⟩ := own.doclet_eq
  obtain ⟨prepared, _⟩ :=
    settled.charted.addHelpers settled.supplied settled.sound plain distinct member
      (upTo_of_split split distinct) memberof
  obtain ⟨moved, sublist, moves, gains⟩ :=
    settled.gains_addHelpers plain distinct split memberof
  refine ⟨moved, sublist, moves, gains.trans ?_⟩
  unfold Forest.link
  simp only [startFound, start_eq]
  generalize forest.addHelpers (doclets.map Doclet.longname) { doclet with memberof } = result at *
  obtain ⟨next, helpers⟩ := result
  dsimp only at prepared ⊢
  have retinue := filter_retinue plain prepared.once
  split
  · exact (extends_addRoots prepared.sound _).gains retinue
  · split
    · exact (gains_of_rows fun _ _ => rfl).mono fun _ => List.nil_sublist _
    · rename_i parent found
      have isUpper := longname_of_find? found
      subst isUpper
      exact gains_linkUnder plain prepared.sound prepared.once found memberof

-----------------------------------------------------------------------------------------
-- From the first doclet to the last
-----------------------------------------------------------------------------------------

/-- The doclets in front have come to their places in order, but for those in the namespaces of
interfaces and mixins, which have come there as `arrivals` says.
-/
structure Sequenced (doclets front : List Doclet) (forest : Forest) : Prop where
  elsewhere
    : ∀ place,
        place ≠ .nowhere
        → (∀ owner ∈ front,
            owner.kind.isInterfaceLike = true
            → place ≠ .under (namespaceHelper owner.longname))
        → (lineup doclets forest place).Sublist (front.map Doclet.longname)
  beside
    : ∀ before owner after,
        front = before ++ owner :: after
        → owner.kind.isInterfaceLike = true
        → (lineup doclets forest (.under (namespaceHelper owner.longname))).Sublist
            ((arrivals before owner after).map Doclet.longname)

/-- Before a doclet is linked, what is in its namespace does not shift. -/
theorem Sequenced.waiting {front back : List Doclet} (sequenced : Sequenced doclets front forest)
    (settled : SettledUpTo doclets (front.map Doclet.longname).reverse forest)
    (split : doclets = front ++ doclet :: back)
    : (lineup doclets forest (.under (namespaceHelper doclet.longname))).Sublist
        ((front.filter fun other => !shifts doclet other).map Doclet.longname) := by
  have member := mem_of_split split
  have new := (upTo_of_split split distinct).new distinct member
  have once : (front.map Doclet.longname).Nodup :=
    ((split ▸ List.sublist_append_left front (doclet :: back)).map Doclet.longname).nodup distinct
  have ordered
      : (lineup doclets forest (.under (namespaceHelper doclet.longname))).Sublist
          (front.map Doclet.longname) := by
    refine sequenced.elsewhere _ nofun fun owner listed _ same => ?_
    exact namespaceHelper_ne_of_front distinct split listed (Place.under.inj same).symm
  refine sublist_of_subset once ordered (List.filter_sublist.map _) fun name listed => ?_
  obtain ⟨inRow, _⟩ := List.mem_filter.mp listed
  obtain ⟨other, inFront, rfl⟩ := List.mem_map.mp (ordered.subset listed)
  have otherMember : other ∈ doclets := split ▸ List.mem_append_left _ inFront
  have stays := settled.charted.not_shifts plain distinct settled.sound member new otherMember inRow
  exact List.mem_map_of_mem (List.mem_filter.mpr ⟨inFront, by simp [stays]⟩)

/-- Linking the next doclet keeps the order. -/
theorem Sequenced.link {front back : List Doclet} (sequenced : Sequenced doclets front forest)
    (settled : SettledUpTo doclets (front.map Doclet.longname).reverse forest)
    (split : doclets = front ++ doclet :: back)
    : Sequenced doclets (front ++ [doclet])
        (link (doclets.map Doclet.longname) forest doclet.longname) := by
  obtain ⟨moved, sublist, moves, gains⟩ := settled.gains_link plain distinct split
  constructor
  · intro place stands apart
    have none : onlyAt (.under (namespaceHelper doclet.longname)) moved place = [] := by
      unfold onlyAt
      split
      · rename_i here
        by_contra some
        exact apart doclet (List.mem_append_right _ List.mem_cons_self) (moves some) here
      · rfl
    have gained := gains place stands
    simp only [none, List.nil_append] at gained
    rw [List.map_append]
    refine gained.trans (List.Sublist.append_right ?_ [doclet.longname])
    exact sequenced.elsewhere place stands fun owner listed =>
      apart owner (List.mem_append_left _ listed)
  · intro before owner after isSplit like
    have gained := gains (.under (namespaceHelper owner.longname)) nofun
    rcases List.eq_nil_or_concat after with rfl | ⟨later, last, rfl⟩
    · obtain ⟨rfl, isLast⟩ := List.append_inj' isSplit rfl
      cases isLast
      have waiting := sequenced.waiting plain distinct settled split
      simp only [onlyAt, if_true] at gained
      simp only [arrivals, List.map_append]
      rw [← List.append_assoc] at gained
      exact gained.trans ((waiting.append sublist).append_right _)
    · rw [List.concat_eq_append, ← List.cons_append, ← List.append_assoc] at isSplit
      obtain ⟨rfl, isLast⟩ := List.append_inj' isSplit rfl
      cases isLast
      have listed : owner ∈ before ++ owner :: later :=
        List.mem_append_right _ List.mem_cons_self
      have none
          : onlyAt (.under (namespaceHelper doclet.longname)) moved
              (.under (namespaceHelper owner.longname)) = [] :=
        if_neg fun same =>
          namespaceHelper_ne_of_front distinct split listed (Place.under.inj same)
      simp only [none, List.nil_append] at gained
      have arrived := sequenced.beside before owner later rfl like
      have later_eq
          : arrivals before owner (later ++ [doclet])
            = arrivals before owner later ++ [doclet] := by
        simp [arrivals]
      rw [List.concat_eq_append, later_eq, List.map_append]
      exact gained.trans (arrived.append_right _)

/-- The doclets have come to their places in order when all have been linked. -/
theorem sequenced_linkAll : Sequenced doclets doclets (linkAll doclets) := by
  have start : Sequenced doclets [] (scattered doclets) := by
    have empty (place : Place) (stands : place ≠ .nowhere)
        : lineup doclets (scattered doclets) place = [] := by
      rw [lineup, row_scattered doclets stands, List.filter_nil]
    constructor
    · intro place stands _
      rw [empty place stands, List.map_nil]
    · intro before owner after split
      cases before <;> cases split
  have run : SettledUpTo doclets (doclets.map Doclet.longname).reverse (linkAll doclets)
      ∧ Sequenced doclets doclets (linkAll doclets) := by
    refine linking_front_induction
      (motive := fun front forest =>
        SettledUpTo doclets (front.map Doclet.longname).reverse forest
        ∧ Sequenced doclets front forest)
      ⟨settled_scattered distinct, start⟩ ?_
    intro front doclet back forest split both
    obtain ⟨settled, sequenced⟩ := both
    have member := mem_of_split split
    have next := settled.link plain distinct member (upTo_of_split split distinct)
    exact ⟨by simpa using next, sequenced.link plain distinct settled split⟩
  exact run.2

end step

-----------------------------------------------------------------------------------------
-- All doclets of an input
-----------------------------------------------------------------------------------------

/-- The longnames of the nodes at a place that are no helpers, in their order. -/
def docletsAt (forest : Forest) (place : Place) : List String :=
  ((forest.standingAt place).filter fun node => !node.isHelper).map Node.longname

theorem SettledUpTo.lineup_eq (settled : SettledUpTo doclets done forest) (place : Place)
    : lineup doclets forest place = forest.docletsAt place := by
  rw [lineup, row, List.filter_map, docletsAt]
  congr 1
  refine List.filter_congr fun node listed => ?_
  have found := find?_of_mem settled.sound.distinct (mem_standingAt.mp listed).1
  by_cases isDoclet : node.longname ∈ doclets.map Doclet.longname
  · obtain ⟨doclet, member, same⟩ := List.mem_map.mp isDoclet
    obtain ⟨ownNode, ownFound, own⟩ := settled.charted.own doclet member
    rw [same, found] at ownFound
    cases ownFound
    rw [Function.comp_apply, decide_eq_true isDoclet, Node.isHelper, own.role]
    rfl
  · obtain ⟨owner, _, kin⟩ := settled.charted.helper found isDoclet
    rw [Function.comp_apply, decide_eq_false isDoclet, kin.serves.isHelper]
    rfl

/-- After linking plain doclets, those among the roots and under any node are in the order of the
input, unless that node is the namespace of an interface or mixin: there the static members that
come before their owner in the input, and that its body can hold, are behind all else that comes
before it.
-/
theorem doclets_in_order (settings : Settings) {doclets : List Doclet} (plain : Plain doclets)
    : let kept := survivors settings doclets
      let forest := ofDoclets settings doclets
      (∀ place,
        place ≠ .nowhere
        → (∀ owner ∈ kept,
            owner.kind.isInterfaceLike = true
            → place ≠ .under (namespaceHelper owner.longname))
        → (forest.docletsAt place).Sublist (kept.map Doclet.longname))
      ∧ ∀ before owner after,
          kept = before ++ owner :: after
          → owner.kind.isInterfaceLike = true
          → (forest.docletsAt (.under (namespaceHelper owner.longname))).Sublist
              ((arrivals before owner after).map Doclet.longname) := by
  intro kept forest
  have settled : SettledUpTo kept (kept.map Doclet.longname).reverse forest :=
    settled_ofDoclets settings plain
  have sequenced : Sequenced kept kept forest :=
    sequenced_linkAll (plain.survivors settings) (nodup_survivors settings doclets)
  simp only [← settled.lineup_eq]
  exact ⟨sequenced.elsewhere, sequenced.beside⟩

/-- Two static members, of which the first comes before its owner and a type of that. -/
theorem doclets_in_order_shifted
    : let make : Doclet :=
        { kind := .function, name := "make", longname := "I.make", memberof := some "I",
          scope := some .static }
      let type : Doclet :=
        { kind := .typedef, name := "T", longname := "I.T", memberof := some "I" }
      let owner : Doclet := { kind := .interface, name := "I", longname := "I" }
      let copy : Doclet :=
        { kind := .function, name := "copy", longname := "I.copy", memberof := some "I",
          scope := some .static }
      let doclets := [make, type, owner, copy]
      let forest := ofDoclets {} doclets
      Plain doclets
      ∧ survivors {} doclets = [make, type] ++ owner :: [copy]
      ∧ (forest.docletsAt .root).Sublist (doclets.map Doclet.longname)
      ∧ (forest.docletsAt (.under "I$$namespace$helper")).Sublist ["I.T", "I.make", "I", "I.copy"]
      ∧ forest.docletsAt (.under "I$$namespace$helper") = ["I.T", "I.make", "I.copy"] := by
  intro make type owner copy doclets forest
  have plain : Plain doclets := plain_of_short (by decide)
  have kept : survivors {} doclets = doclets := by rfl
  obtain ⟨elsewhere, beside⟩ := doclets_in_order {} plain
  rw [kept] at elsewhere beside
  have roots := elsewhere .root nofun fun _ _ _ => nofun
  have inNamespace := beside [make, type] owner [copy] rfl rfl
  have arrive
      : (arrivals [make, type] owner [copy]).map Doclet.longname
        = ["I.T", "I.make", "I", "I.copy"] := by
    decide +kernel
  rw [arrive] at inNamespace
  exact ⟨plain, kept, roots, inNamespace, by decide +kernel⟩

/-- The order of the input alone does not tell what is in the namespace of an interface. -/
theorem not_in_order_shifted
    : let make : Doclet :=
        { kind := .function, name := "s", longname := "I.s", memberof := some "I",
          scope := some .static }
      let type : Doclet :=
        { kind := .typedef, name := "T", longname := "I.T", memberof := some "I" }
      let owner : Doclet := { kind := .interface, name := "I", longname := "I" }
      let doclets := [make, type, owner]
      Plain doclets
      ∧ (ofDoclets {} doclets).roots.map Node.longname = ["I$$namespace$helper", "I"]
      ∧ (ofDoclets {} doclets).docletsAt (.under "I$$namespace$helper") = ["I.T", "I.s"]
      ∧ ¬ ["I.T", "I.s"].Sublist (doclets.map Doclet.longname) := by
  intro make type owner doclets
  exact ⟨plain_of_short (by decide), by decide +kernel, by decide +kernel, by decide⟩

end Typings.Forest
