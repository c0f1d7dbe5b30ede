import Typings.Proofs.Forest.Comparing
import Typings.Proofs.Forest.Frames
import Typings.Proofs.Forest.Rows
import Typings.Proofs.Forest.Statics

/-! Helpers stand next to those that they help. In every row what belongs to one doclet is one block
without a gap, and nothing that is linked later comes into it but the namespace of that doclet.
-/

namespace Typings.Forest

variable {doclets : List Doclet} {progress : Progress} {trouble : Prop}
variable {done helpers names front back block row moved : List String}
variable {forest next : Forest} {doclet owner : Doclet}
variable {name anchor top container : String} {node : Node} {place target : Place}

-----------------------------------------------------------------------------------------
-- Blocks in a row
-----------------------------------------------------------------------------------------

/-- The interface of `owner` comes first in a block, and its namespace right before `owner` or right
behind it.
-/
def Ordered (owner : String) (block : List String) : Prop :=
  block.Sublist [interfaceHelper owner, namespaceHelper owner, owner]
  ∨ block.Sublist [interfaceHelper owner, owner, namespaceHelper owner]

/-- What belongs to `owner` is one ordered block of a row. -/
def Gathered (owner : String) (row : List String) : Prop :=
  ∃ before block after,
    row = before ++ block ++ after
    ∧ Ordered owner block
    ∧ ∀ name ∈ before ++ after, ¬ Belongs name owner

theorem Ordered.sublist (ordered : Ordered top block) (fewer : moved.Sublist block)
    : Ordered top moved :=
  ordered.imp fewer.trans fewer.trans

theorem Ordered.belongs (ordered : Ordered top block) (listed : name ∈ block)
    : Belongs name top := by
  rcases ordered with sublist | sublist
  · have either := sublist.subset listed
    simp only [List.mem_cons, List.not_mem_nil, or_false] at either
    exact either.elim (fun interface => .inr (.inl interface)) fun rest => rest.symm.imp_right .inr
  · have either := sublist.subset listed
    simp only [List.mem_cons, List.not_mem_nil, or_false] at either
    exact either.elim (fun interface => .inr (.inl interface)) fun rest => rest.imp_right .inr

/-- A doclet without its namespace ends its block. -/
theorem Ordered.append_namespace (ordered : Ordered top block) (plain : ¬ Reserved top)
    (listed : top ∈ block) (absent : namespaceHelper top ∉ block)
    : ∃ first,
        block = first ++ [top] ∧ Ordered top (first ++ [top, namespaceHelper top]) := by
  have others : block.filter (· != namespaceHelper top) = block := by
    refine List.filter_eq_self.mpr fun name member => ?_
    exact bne_iff_ne.mpr fun same => absent (same ▸ member)
  have notNamespace : top ≠ namespaceHelper top :=
    fun same => plain (same.symm ▸ reserved_namespaceHelper top)
  have notInterface : top ≠ interfaceHelper top :=
    fun same => plain (same.symm ▸ reserved_interfaceHelper top)
  have different := interfaceHelper_ne_namespaceHelper top top
  have short : block.Sublist ([interfaceHelper top] ++ [top]) := by
    rw [← others]
    rcases ordered with sublist | sublist
    · simpa [different, notNamespace] using sublist.filter (· != namespaceHelper top)
    · simpa [different, notNamespace] using sublist.filter (· != namespaceHelper top)
  obtain ⟨first, last, rfl, firstSublist, lastSublist⟩ := List.sublist_append_iff.mp short
  have isLast : last = [top] := by
    rcases List.sublist_singleton.mp lastSublist with rfl | isTop
    · rw [List.append_nil] at listed
      exact absurd (List.mem_singleton.mp (firstSublist.subset listed)) notInterface
    · exact isTop
  subst isLast
  exact ⟨first, rfl, .inr (firstSublist.append_right [top, namespaceHelper top])⟩

-----------------------------------------------------------------------------------------
-- Changes of a row
-----------------------------------------------------------------------------------------

theorem Gathered.filter (gathered : Gathered top row) (test : String → Bool)
    : Gathered top (row.filter test) := by
  obtain ⟨before, block, after, rfl, ordered, apart⟩ := gathered
  refine ⟨before.filter test, block.filter test, after.filter test, by simp,
    ordered.sublist List.filter_sublist, ?_⟩
  rw [← List.filter_append]
  exact fun name listed => apart name (List.mem_filter.mp listed).1

/-- What belongs to others may come to the end of a row. -/
theorem Gathered.append_strangers (gathered : Gathered top row)
    (strangers : ∀ name ∈ moved, ¬ Belongs name top)
    : Gathered top (row ++ moved) := by
  obtain ⟨before, block, after, rfl, ordered, apart⟩ := gathered
  refine ⟨before, block, after ++ moved, by simp, ordered, ?_⟩
  rw [← List.append_assoc]
  intro name listed
  exact (List.mem_append.mp listed).elim (apart name) (strangers name)

/-- A block may come to the end of a row that has nothing of it. -/
theorem gathered_append (strangers : ∀ name ∈ row, ¬ Belongs name top)
    (ordered : Ordered top block)
    : Gathered top (row ++ block) :=
  ⟨row, block, [], by simp, ordered, by simpa using strangers⟩

theorem gathered_nil (owner : String) : Gathered owner [] :=
  ⟨[], [], [], rfl, .inl (List.nil_sublist _), nofun⟩

/-- A row is split at a longname in one way only. -/
theorem split_unique (before after : List String) (once : (front ++ anchor :: back).Nodup)
    (same : front ++ anchor :: back = before ++ anchor :: after)
    : front = before ∧ back = after := by
  have apart := List.nodup_middle.mp once
  simp only [List.nodup_cons, List.mem_append, not_or] at apart
  obtain ⟨fronts, -, backs⟩ :=
    (List.append_cons_inj_of_notMem apart.1.1 apart.1.2).mp same
  exact ⟨fronts, backs⟩

theorem mem_block {before after : List String} (listed : name ∈ before ++ block ++ after)
    (inside : name ∉ before ++ after)
    : name ∈ block := by
  rw [List.mem_append, not_or] at inside
  rcases List.mem_append.mp listed with early | late
  · exact (List.mem_append.mp early).resolve_left inside.1
  · exact absurd late inside.2

/-- What belongs to others may come right behind what belongs to others. -/
theorem Gathered.put_stranger (gathered : Gathered top (front ++ anchor :: back))
    (once : (front ++ anchor :: back).Nodup) (anchorStranger : ¬ Belongs anchor top)
    (stranger : ¬ Belongs name top)
    : Gathered top (front ++ anchor :: name :: back) := by
  obtain ⟨before, block, after, split, ordered, apart⟩ := gathered
  have outside : anchor ∈ before ++ after := by
    by_contra inside
    exact anchorStranger (ordered.belongs (mem_block (split ▸ by simp) inside))
  rcases List.mem_append.mp outside with early | late
  · obtain ⟨first, rest, rfl⟩ := List.append_of_mem early
    obtain ⟨rfl, rfl⟩ :=
      split_unique first (rest ++ block ++ after) once (by simpa using split)
    refine ⟨front ++ anchor :: name :: rest, block, after, by simp, ordered, ?_⟩
    intro other listed
    by_cases isNew : other = name
    · exact isNew ▸ stranger
    · exact apart other (by simpa [isNew] using listed)
  · obtain ⟨rest, last, rfl⟩ := List.append_of_mem late
    obtain ⟨rfl, rfl⟩ :=
      split_unique (before ++ block ++ rest) last once (by simpa using split)
    refine ⟨before, block, rest ++ anchor :: name :: back, by simp, ordered, ?_⟩
    intro other listed
    by_cases isNew : other = name
    · exact isNew ▸ stranger
    · exact apart other (by simpa [isNew] using listed)

/-- The namespace of a doclet may come right behind that. -/
theorem Gathered.put_namespace (gathered : Gathered top (front ++ top :: back))
    (once : (front ++ top :: back).Nodup) (plain : ¬ Reserved top)
    (absent : namespaceHelper top ∉ front ++ top :: back)
    : Gathered top (front ++ top :: namespaceHelper top :: back) := by
  obtain ⟨before, block, after, split, ordered, apart⟩ := gathered
  have inside : top ∈ block :=
    mem_block (split ▸ by simp) fun outside => apart top outside (.inl rfl)
  obtain ⟨first, rfl, longer⟩ := ordered.append_namespace plain inside fun listed =>
    absent (split ▸ by simp [listed])
  obtain ⟨rfl, rfl⟩ := split_unique (before ++ first) after once (by simpa using split)
  exact ⟨before, first ++ [top, namespaceHelper top], back, by simp, longer, apart⟩

-----------------------------------------------------------------------------------------
-- Changes of a forest
-----------------------------------------------------------------------------------------

/-- In every row what belongs to one doclet is one ordered block. -/
def Grouped (doclets : List Doclet) (forest : Forest) : Prop :=
  ∀ owner ∈ doclets, ∀ place, place ≠ .nowhere → Gathered owner.longname (forest.row place)

/-- Nothing that belongs to a doclet stands anywhere. -/
def Waits (doclet : Doclet) (forest : Forest) : Prop :=
  ∀ place, place ≠ .nowhere → ∀ name ∈ forest.row place, ¬ Belongs name doclet.longname

/-- Nothing that belongs to `name` stands anywhere but itself. -/
def Alone (name : String) (forest : Forest) : Prop :=
  ∀ place, place ≠ .nowhere → ∀ other ∈ forest.row place, Belongs other name → other = name

theorem Grouped.of_rows (grouped : Grouped doclets forest)
    (same : ∀ place, place ≠ .nowhere → next.row place = forest.row place)
    : Grouped doclets next := by
  intro owner member place stands
  rw [same place stands]
  exact grouped owner member place stands

theorem Waits.of_rows (waits : Waits doclet forest)
    (same : ∀ place, place ≠ .nowhere → next.row place = forest.row place)
    : Waits doclet next := by
  intro place stands
  rw [same place stands]
  exact waits place stands

theorem nodup_row (sound : forest.Sound) (place : Place) : (forest.row place).Nodup :=
  sound.nodup_standingAt place

theorem has_of_mem_row (sound : forest.Sound) (listed : name ∈ forest.row place)
    : forest.has name = true := by
  obtain ⟨node, found, _⟩ := sound.mem_standingAt_iff.mp listed
  exact has_of_find? found

theorem Charted.waits (charted : Charted doclets progress trouble forest) (sound : forest.Sound)
    (plain : Plain doclets) (distinct : (doclets.map Doclet.longname).Nodup)
    (member : doclet ∈ doclets) (unplaced : doclet.longname ∉ progress.placed)
    : Waits doclet forest := by
  intro place stands name listed belongs
  obtain ⟨node, found, place_eq⟩ := sound.mem_standingAt_iff.mp listed
  have loose := charted.waiting plain distinct member unplaced belongs found
  exact stands (place_eq.symm.trans loose)

section plain

variable (plain : Plain doclets) (distinct : (doclets.map Doclet.longname).Nodup)

include plain distinct

/-- What belongs to one doclet does not belong to another one. -/
theorem not_belongs (member : doclet ∈ doclets) (ownerMember : owner ∈ doclets)
    (other : owner ≠ doclet) (belongs : Belongs name doclet.longname)
    : ¬ Belongs name owner.longname := by
  intro toOwner
  exact other (eq_of_longname_eq distinct ownerMember member
    (toOwner.unique (plain owner ownerMember).1 (plain doclet member).1 belongs))

/-- A doclet that waits comes with its helpers to the end of a row. -/
theorem Grouped.extends (grouped : Grouped doclets forest) (member : doclet ∈ doclets)
    (waits : Waits doclet forest) (comes : Extends forest next target names)
    (ordered : Ordered doclet.longname names)
    : Grouped doclets next := by
  intro owner ownerMember place stands
  obtain ⟨moved, sublist, rows⟩ := comes
  rw [rows place stands]
  have movedOrdered : Ordered doclet.longname (if place = target then moved else []) := by
    split
    · exact ordered.sublist sublist
    · exact .inl (List.nil_sublist _)
  by_cases isDoclet : owner = doclet
  · subst isDoclet
    exact gathered_append (waits place stands) movedOrdered
  · exact (grouped owner ownerMember place stands).append_strangers fun name listed =>
      not_belongs plain distinct member ownerMember isDoclet (movedOrdered.belongs listed)

/-- A new companion comes right behind its owner, into the block of that. -/
theorem Grouped.companion (grouped : Grouped doclets forest) (sound : forest.Sound)
    (member : owner ∈ doclets) (found : forest.find? owner.longname = some node)
    : Grouped doclets (forest.companion node).1 := by
  have sameName := longname_of_find? found
  rcases row_companion sound (sameName.symm ▸ found)
    with same | ⟨absent, elsewhere, before, after, split, put⟩
  · exact grouped.of_rows same
  · rw [sameName] at absent split put
    intro other otherMember place stands
    by_cases here : place = node.place
    · subst here
      have gathered := grouped other otherMember node.place stands
      have once := nodup_row sound node.place
      have fresh : namespaceHelper owner.longname ∉ forest.row node.place := by
        intro listed
        simpa [has, absent] using has_of_mem_row sound listed
      rw [split] at gathered once fresh
      rw [put]
      by_cases isOwner : other = owner
      · subst isOwner
        exact gathered.put_namespace once (plain other member).1 fresh
      · exact gathered.put_stranger once
          (not_belongs plain distinct member otherMember isOwner (.inl rfl))
          (not_belongs plain distinct member otherMember isOwner (.inr (.inr rfl)))
    · rw [elsewhere place here]
      exact grouped other otherMember place stands

/-- A companion comes into a row only where its owner stands, so nothing comes that waits. -/
theorem Waits.companion (waits : Waits doclet forest) (sound : forest.Sound)
    (docletMember : doclet ∈ doclets) (member : owner ∈ doclets)
    (found : forest.find? owner.longname = some node)
    : Waits doclet (forest.companion node).1 := by
  have sameName := longname_of_find? found
  rcases row_companion sound (sameName.symm ▸ found)
    with same | ⟨_, elsewhere, before, after, split, put⟩
  · exact waits.of_rows same
  · rw [sameName] at split put
    intro place stands name listed
    by_cases here : place = node.place
    · subst here
      have strangers := waits node.place stands
      rw [split] at strangers
      rw [put] at listed
      have different : doclet ≠ owner := by
        rintro rfl
        exact strangers doclet.longname (by simp) (.inl rfl)
      by_cases isNew : name = namespaceHelper owner.longname
      · exact not_belongs plain distinct member docletMember different (.inr (.inr isNew))
      · exact strangers name (by simpa [isNew] using listed)
    · rw [elsewhere place here] at listed
      exact waits place stands name listed

-----------------------------------------------------------------------------------------
-- Static members that move
-----------------------------------------------------------------------------------------

/-- A member that has no helpers may move to the end of another row. -/
theorem Grouped.moveStatic (grouped : Grouped doclets forest) (sound : forest.Sound)
    (member : doclet ∈ doclets)
    (alone : forest.StandsUnder doclet.longname top → Alone doclet.longname forest)
    : Grouped doclets (moveStatic top container forest doclet.longname) := by
  rcases row_moveStatic sound top container doclet.longname
    with same | ⟨under, moved, sublist, rows⟩
  · exact grouped.of_rows same
  · intro owner ownerMember place stands
    rw [rows place stands]
    have ordered : Ordered doclet.longname (if place = .under container then moved else []) := by
      split
      · exact .inl (sublist.trans (by simp))
      · exact .inl (List.nil_sublist _)
    by_cases isDoclet : owner = doclet
    · subst isDoclet
      refine gathered_append (fun name listed belongs => ?_) ordered
      obtain ⟨inRow, different⟩ := List.mem_filter.mp listed
      exact bne_iff_ne.mp different (alone under place stands name inRow belongs)
    · exact ((grouped owner ownerMember place stands).filter _).append_strangers
        fun name listed =>
          not_belongs plain distinct member ownerMember isDoclet (ordered.belongs listed)

/-- What stands alone does so when another member has moved. -/
theorem Alone.moveStatic (alone : Alone owner.longname forest) (sound : forest.Sound)
    (ownerMember : owner ∈ doclets) (member : doclet ∈ doclets) (other : owner ≠ doclet)
    : Alone owner.longname (moveStatic top container forest doclet.longname) := by
  intro place stands name inRow belongs
  rcases row_moveStatic sound top container doclet.longname with same | ⟨_, moved, sublist, rows⟩
  · rw [same place stands] at inRow
    exact alone place stands name inRow belongs
  · rw [rows place stands] at inRow
    rcases List.mem_append.mp inRow with stayed | came
    · exact alone place stands name (List.mem_filter.mp stayed).1 belongs
    · split at came
      · have isDoclet := List.mem_singleton.mp (sublist.subset came)
        exact absurd belongs (not_belongs plain distinct member ownerMember other (.inl isDoclet))
      · cases came

/-- Members that have no helpers may move one after the other. -/
theorem Grouped.foldl_moveStatic (grouped : Grouped doclets forest) (sound : forest.Sound)
    (known : forest.has (namespaceHelper top) = true)
    (listed : names ⊆ doclets.map Doclet.longname) (once : names.Nodup)
    (alone : ∀ name ∈ names, forest.StandsUnder name top → Alone name forest)
    : Grouped doclets (names.foldl (Forest.moveStatic top (namespaceHelper top)) forest) := by
  induction names generalizing forest with
  | nil => exact grouped
  | cons name names ih =>
      obtain ⟨isListed, rest⟩ := List.cons_subset.mp listed
      obtain ⟨doclet, member, rfl⟩ := List.mem_map.mp isListed
      obtain ⟨fresh, once⟩ := List.nodup_cons.mp once
      refine ih (grouped.moveStatic plain distinct sound member (alone _ List.mem_cons_self))
        ((moveStatic_changes known).sound sound) (has_moveStatic _ _ known) rest once ?_
      intro other otherListed under
      obtain ⟨owner, ownerMember, rfl⟩ := List.mem_map.mp (rest otherListed)
      have different : owner.longname ≠ doclet.longname := fun same => fresh (same ▸ otherListed)
      have spares
          : Spares doclet [doclet.longname] forest
              (Forest.moveStatic top (namespaceHelper top) forest doclet.longname) :=
        spares_moveStatic forest top (namespaceHelper top) doclet.longname
      have same := spares.same owner.longname (by simpa using different)
        (plain owner ownerMember).1
      have underBefore := (standsUnder_congr same).mp under
      have before := alone _ (List.mem_cons_of_mem _ otherListed) underBefore
      exact before.moveStatic plain distinct sound ownerMember member fun isDoclet =>
        different (congrArg Doclet.longname isDoclet)

/-- What stands in the body of a class, interface or mixin stands there alone.
Witness: only classes and the like have helpers, and these go beside their parent.
-/
theorem Charted.alone (charted : Charted doclets progress trouble forest) (sound : forest.Sound)
    (ownerMember : owner ∈ doclets) (member : doclet ∈ doclets)
    (like : doclet.kind.isClassLike = true)
    (under : forest.StandsUnder owner.longname doclet.longname)
    : Alone owner.longname forest := by
  obtain ⟨node, found, place⟩ := parent?_eq_some_iff.mp under
  obtain ⟨_, lands⟩ := charted.lands_under ownerMember found place
  obtain ⟨_, inside, _⟩ := lands.in_body plain distinct member
  intro place stands name listed belongs
  by_contra isHelper
  obtain ⟨helper, helperFound⟩ := has_iff.mp (has_of_mem_row sound listed)
  have kin := charted.kin_of plain distinct ownerMember belongs isHelper helperFound
  exact inside ⟨like, leavesClass_of_isClassLike kin.serves.isClassLike⟩

/-- Moving the static members of a doclet leaves all blocks together. -/
theorem Grouped.moveStatics (grouped : Grouped doclets forest)
    (charted : Charted doclets progress trouble forest) (sound : forest.Sound)
    (member : doclet ∈ doclets) (memberof : Option String)
    : Grouped doclets
        (forest.moveStatics (doclets.map Doclet.longname) { doclet with memberof }) := by
  unfold Forest.moveStatics
  dsimp only
  split
  · exact grouped
  · rename_i busy
    simp only [Bool.or_eq_true, not_or, Bool.not_eq_true', Bool.not_eq_false] at busy
    have like := Doclet.Kind.isClassLike_of_isInterfaceLike busy.1
    have listed
        : forest.statics (doclets.map Doclet.longname) doclet.longname
          ⊆ doclets.map Doclet.longname :=
      fun _ isStatic => (List.mem_filter.mp isStatic).1
    have once : (forest.statics (doclets.map Doclet.longname) doclet.longname).Nodup :=
      List.filter_sublist.nodup distinct
    have alone (name : String)
        (isStatic : name ∈ forest.statics (doclets.map Doclet.longname) doclet.longname)
        (under : forest.StandsUnder name doclet.longname)
        : Alone name forest := by
      obtain ⟨owner, ownerMember, rfl⟩ := List.mem_map.mp (listed isStatic)
      exact charted.alone plain distinct sound ownerMember member like under
    split
    · rename_i known
      exact grouped.foldl_moveStatic plain distinct sound known listed once alone
    · rename_i absent
      have fresh := find?_of_not_has absent
      have rows (place : Place) (stands : place ≠ .nowhere)
          : (forest.add (namespaceOf { doclet with memberof } doclet.scope)).row place
            = forest.row place :=
        row_add rfl stands
      refine (grouped.of_rows rows).foldl_moveStatic plain distinct
        (Change.sound (.add (.namespace _ _) fresh) sound) has_add listed once ?_
      intro name isStatic under place stands
      obtain ⟨owner, ownerMember, rfl⟩ := List.mem_map.mp (listed isStatic)
      have different : owner.longname ≠ namespaceHelper doclet.longname :=
        (plain.namespaceHelper_ne ownerMember _).symm
      have same : (forest.add (namespaceOf { doclet with memberof } doclet.scope)).find?
            owner.longname = forest.find? owner.longname := by
        rw [find?_add_of_fresh fresh]
        exact if_neg different
      rw [rows place stands]
      exact alone _ isStatic ((standsUnder_congr same).mp under) place stands

-----------------------------------------------------------------------------------------
-- A whole step
-----------------------------------------------------------------------------------------

theorem Grouped.addHelpers (grouped : Grouped doclets forest)
    (charted : Charted doclets (.upTo done) trouble forest)
    (supplied : Supplied doclets (.upTo done) forest) (sound : forest.Sound)
    (member : doclet ∈ doclets) (new : doclet.longname ∉ done) (memberof : Option String)
    : Grouped doclets
        (forest.addHelpers (doclets.map Doclet.longname) { doclet with memberof }).1 := by
  obtain ⟨begun, _⟩ :=
    charted.addInterface supplied plain distinct member new new memberof
  have begunSound := (addInterface_changes forest { doclet with memberof }).sound sound
  have begunGrouped : Grouped doclets (forest.addInterface { doclet with memberof }).1 :=
    grouped.of_rows fun place stands => row_addInterface forest _ stands
  exact begunGrouped.moveStatics plain distinct begun begunSound member memberof

/-- A doclet comes to its place behind its helpers, with which it is one block. -/
theorem Grouped.linkUnder (grouped : Grouped doclets forest) (sound : forest.Sound)
    (member : doclet ∈ doclets) (waits : Waits doclet forest)
    (once : helpers.Sublist [interfaceHelper doclet.longname, namespaceHelper doclet.longname])
    (found : forest.find? node.longname = some node)
    (listed : node.doclet.kind.isClassLike = true → node.longname ∈ doclets.map Doclet.longname)
    (memberof : Option String)
    : Grouped doclets (forest.linkUnder node helpers { doclet with memberof }) := by
  have ordered : Ordered doclet.longname (helpers ++ [doclet.longname]) :=
    .inl (once.append_right [doclet.longname])
  unfold Forest.linkUnder
  split
  · rename_i moves
    have like := (Bool.and_eq_true_iff.mp moves).1
    obtain ⟨owner, ownerMember, same⟩ := List.mem_map.mp (listed like)
    have ownerFound : forest.find? owner.longname = some node := same ▸ found
    exact (grouped.companion plain distinct sound ownerMember ownerFound).extends plain distinct
      member (waits.companion plain distinct sound member ownerMember ownerFound)
      (extends_attachAll ((companion_changes found like).sound sound) (has_companion found) _)
      ordered
  · split
    · exact grouped.extends plain distinct member waits (extends_addRoots sound helpers)
        (ordered.sublist (List.sublist_append_left _ _))
    · dsimp only
      split
      · have rows (place : Place)
            : (forest.modify doclet.longname fun node => { node with nested := true }).row place
              = forest.row place :=
          row_modify sound.distinct (fun _ => rfl) fun _ => rfl
        have nestedKnown := Changes.has (.single (.nest doclet.longname)) (has_of_find? found)
        exact (grouped.of_rows fun place _ => rows place).extends plain distinct member
          (waits.of_rows fun place _ => rows place)
          (extends_attachAll (Change.sound (.nest _) sound) nestedKnown _) ordered
      · exact grouped.extends plain distinct member waits
          (extends_attachAll sound (has_of_find? found) _) ordered

/-- What a doclet names for its parent is a doclet if it is a class or the like. -/
theorem Charted.parent_listed (charted : Charted doclets progress trouble forest)
    (member : doclet ∈ doclets) {upper : String}
    (names : forest.memberof? doclet.longname = some upper)
    (found : forest.find? upper = some node) (like : node.doclet.kind.isClassLike = true)
    : upper ∈ doclets.map Doclet.longname := by
  obtain ⟨ownNode, ownFound, own⟩ := charted.own doclet member
  obtain ⟨memberof, doclet_eq, named⟩ := own.doclet_eq
  have isUpper : memberof = some upper := by
    simpa [memberof?, ownFound, doclet_eq] using names
  cases named with
  | own _ =>
      by_contra unlisted
      obtain ⟨owner, _, kin⟩ := charted.helper found unlisted
      have reserved : Reserved upper := by
        cases kin.serves with
        | interface same _ _ _ => exact ⟨_, .inl same⟩
        | «namespace» same _ _ => exact ⟨_, .inr same⟩
      exact (plain doclet member).2 upper isUpper reserved
  | moved link _ =>
      cases isUpper
      obtain ⟨_, _, kind, _⟩ := charted.namespace_of plain distinct link.1 found
      simp [kind, Doclet.Kind.isClassLike] at like

/-- Linking the next doclet leaves all blocks together. -/
theorem Grouped.link (grouped : Grouped doclets forest)
    (settled : SettledUpTo doclets done forest) (member : doclet ∈ doclets)
    (upTo : UpTo doclets done doclet)
    : Grouped doclets (link (doclets.map Doclet.longname) forest doclet.longname) := by
  obtain ⟨sound, charted, supplied, _, _⟩ := settled
  have new := upTo.new distinct member
  obtain ⟨start, startFound, own⟩ := charted.own doclet member
  obtain ⟨memberof, start_eq, _⟩ := own.doclet_eq
  obtain ⟨prepared, _⟩ :=
    charted.addHelpers supplied sound plain distinct member upTo memberof
  have helped := grouped.addHelpers plain distinct charted supplied sound member new memberof
  unfold Forest.link
  simp only [startFound, start_eq]
  generalize forest.addHelpers (doclets.map Doclet.longname) { doclet with memberof } = result at *
  obtain ⟨next, helpers⟩ := result
  dsimp only at prepared helped ⊢
  have waits := prepared.charted.waits prepared.sound plain distinct member new
  split
  · exact helped.extends plain distinct member waits (extends_addRoots prepared.sound _)
      (.inl (prepared.once.append_right [doclet.longname]))
  · rename_i upper names
    split
    · exact helped.of_rows fun _ _ => rfl
    · rename_i parent found
      have isUpper := longname_of_find? found
      subst isUpper
      exact helped.linkUnder plain distinct prepared.sound member waits prepared.once found
        (prepared.charted.parent_listed plain distinct member names found) memberof

/-- What belongs to one doclet stands together after all have been linked.
Witness: nothing stands anywhere at first, and linking a doclet leaves all blocks together.
-/
theorem grouped_linkAll : Grouped doclets (linkAll doclets) := by
  have start : Grouped doclets (scattered doclets) := by
    intro owner _ place stands
    exact row_scattered doclets stands ▸ gathered_nil owner.longname
  have run : SettledUpTo doclets (doclets.map Doclet.longname).reverse (linkAll doclets)
      ∧ Grouped doclets (linkAll doclets) := by
    refine linking_induction distinct
      (motive := fun done forest => SettledUpTo doclets done forest ∧ Grouped doclets forest)
      ⟨settled_scattered distinct, start⟩ ?_
    intro done forest doclet member upTo both
    obtain ⟨settled, grouped⟩ := both
    exact ⟨settled.link plain distinct member upTo,
      grouped.link plain distinct settled member upTo⟩
  exact run.2

end plain

-----------------------------------------------------------------------------------------
-- All helpers of plain doclets
-----------------------------------------------------------------------------------------

/-- A helper of a doclet that stands anywhere, and on no circle, stands at the same place. -/
theorem Lands.place_of_helper {role : Option Node.Role} {helperPlace : Place}
    (lands : Lands doclets moved trouble doclet none place)
    (distinct : (doclets.map Doclet.longname).Nodup) (stands : place ≠ .nowhere)
    (apart : ¬ OnCircle doclets doclet)
    (helper : Lands doclets moved trouble doclet role helperPlace)
    : helperPlace = place := by
  cases lands with
  | root free =>
      cases helper with
      | root _ => rfl
      | lost names _ => cases free.symm.trans names
      | dropped link _ | parked link _ _ | missed link _ _ => cases free.symm.trans link.2
      | under joins => cases free.symm.trans joins.1.2
      | refused circle _ => exact absurd circle apart
      | shut self _ => cases free.symm.trans self.1.2
  | under joins =>
      cases helper with
      | root free => cases free.symm.trans joins.1.2
      | lost names unlisted =>
          cases names.symm.trans joins.1.2
          exact absurd (longname_mem joins.1.1) unlisted
      | dropped link enum | parked link enum _ | missed link enum _ =>
          cases link.unique distinct joins.1
          cases enum.symm.trans joins.2
      | under otherJoins => rw [otherJoins.1.unique distinct joins.1]
      | refused circle _ => exact absurd circle apart
      | shut self _ => exact absurd (.single self) apart
  | lost _ _ | dropped _ _ | refused _ _ => exact absurd rfl stands

/-- After linking plain doclets, a doclet that is reachable and all its helpers stand at one place,
as one block without a gap. The interface is the first of the block, and the namespace is next to
the doclet.
-/
theorem helpers_adjoin (settings : Settings) {doclets : List Doclet} (plain : Plain doclets)
    : let kept := survivors settings doclets
      let forest := ofDoclets settings doclets
      ∀ owner ∈ kept,
        owner.longname ∈ forest.reachable
        → ∃ place before block after,
            place ≠ .nowhere
            ∧ (forest.standingAt place).map Node.longname = before ++ block ++ after
            ∧ (∀ name,
                name ∈ block ↔ Belongs name owner.longname ∧ forest.has name = true)
            ∧ Ordered owner.longname block := by
  intro kept forest owner member reached
  have plainest := plain.survivors settings
  have distinct := nodup_survivors settings doclets
  have settled := settled_ofDoclets settings plain
  obtain ⟨node, found, own⟩ := settled.charted.own owner member
  have stands := place_ne_nowhere settled.sound reached found
  have apart : ¬ OnCircle kept owner :=
    settled.apart_of_reachable plainest distinct distinct (List.Subset.refl _) member (.inl rfl)
      reached
  have lands := own.situated.placed (longname_mem_reverse member)
  have grouped : Grouped kept forest := grouped_linkAll plainest distinct
  obtain ⟨before, block, after, split, ordered, strangers⟩ :=
    grouped owner member node.place stands
  refine ⟨node.place, before, block, after, stands, split, fun name => ?_, ordered⟩
  constructor
  · intro listed
    have inRow : name ∈ forest.row node.place := by
      rw [split]
      exact List.mem_append_left _ (List.mem_append_right _ listed)
    exact ⟨ordered.belongs listed, has_of_mem_row settled.sound inRow⟩
  · rintro ⟨belongs, known⟩
    obtain ⟨helper, helperFound⟩ := has_iff.mp known
    have helperLands := settled.lands plainest distinct member belongs helperFound
    have samePlace := lands.place_of_helper distinct stands apart helperLands
    have inRow : name ∈ forest.row node.place :=
      settled.sound.mem_standingAt_iff.mpr ⟨helper, helperFound, samePlace⟩
    exact mem_block (split ▸ inRow) fun outside => strangers name outside belongs

/-- A class with both helpers between two other classes, one of which gets its namespace later. -/
theorem helpers_adjoin_class
    : let first : Doclet := { kind := .class, name := "A", longname := "A" }
      let owner : Doclet :=
        { kind := .class, name := "B", longname := "B", implements := ["I"] }
      let last : Doclet := { kind := .class, name := "C", longname := "C" }
      let inner : Doclet :=
        { kind := .typedef, name := "T", longname := "B.T", memberof := some "B" }
      let other : Doclet :=
        { kind := .typedef, name := "T", longname := "A.T", memberof := some "A" }
      let doclets := [first, owner, last, inner, other]
      let forest := ofDoclets {} doclets
      Plain doclets
      ∧ forest.roots.map Node.longname
        = ["A", "A$$namespace$helper", "B$$interface$helper", "B", "B$$namespace$helper", "C"]
      ∧ "B" ∈ forest.reachable
      ∧ ∃ place before block after,
          place ≠ .nowhere
          ∧ (forest.standingAt place).map Node.longname = before ++ block ++ after
          ∧ (∀ name, name ∈ block ↔ Belongs name "B" ∧ forest.has name = true)
          ∧ Ordered "B" block := by
  intro first owner last inner other doclets forest
  have plain : Plain doclets := plain_of_short (by decide)
  have kept : survivors {} doclets = doclets := by rfl
  have roots
      : forest.roots.map Node.longname
        = ["A", "A$$namespace$helper", "B$$interface$helper", "B", "B$$namespace$helper", "C"] := by
    decide +kernel
  have reached : "B" ∈ forest.reachable := by
    have isRoot : "B" ∈ forest.roots.map Node.longname := by simp [roots]
    obtain ⟨node, member, isB⟩ := List.mem_map.mp isRoot
    exact isB ▸ root_reachable (ofDoclets_sound {} doclets) member
  have listed : owner ∈ survivors {} doclets := by simp [kept, doclets]
  exact ⟨plain, roots, reached, helpers_adjoin {} plain owner listed reached⟩

end Typings.Forest
