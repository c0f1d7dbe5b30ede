import Typings.Proofs.Forest.Standing
import Typings.Proofs.Forest.Charting

/-! The second half of a step: linking a plain doclet puts it and its helpers to their places, or
refuses what would stand under itself, and nothing else moves.
-/

namespace Typings.Forest

open Relation

variable {doclets : List Doclet} {progress : Progress} {trouble later : Prop}
variable {done called helpers moving : List String} {forest next : Forest}
variable {doclet parent owner : Doclet} {name upper : String} {node : Node}

-----------------------------------------------------------------------------------------
-- What waits for its place with a doclet
-----------------------------------------------------------------------------------------

/-- The doclets that have been linked are those that come before `doclet`. -/
def UpTo (doclets : List Doclet) (done : List String) (doclet : Doclet) : Prop :=
  ∀ other ∈ doclets, other.longname ∈ done ↔ Precedes doclets other doclet

theorem UpTo.new (upTo : UpTo doclets done doclet)
    (distinct : (doclets.map Doclet.longname).Nodup) (member : doclet ∈ doclets)
    : doclet.longname ∉ done := by
  intro early
  have precedes := (upTo doclet member).mp early
  exact precedes.asymm distinct precedes

/-- What waits for a doclet is what the doclets before it have called for. -/
theorem UpTo.asked_iff (upTo : UpTo doclets done doclet)
    : Asked doclets (doclet.longname :: done) done doclet ↔ Awaited doclets doclet := by
  constructor
  · rintro (⟨listed, static, _⟩ | ⟨listed, calls, hasCalled⟩)
    · exact .inl ⟨_, listed, static⟩
    · exact .inr ⟨_, (upTo _ listed).mp hasCalled, calls⟩
  · rintro (⟨member, listed, static⟩ | ⟨member, precedes, calls⟩)
    · exact .static listed static List.mem_cons_self
    · exact .call precedes.member calls ((upTo _ precedes.member).mpr precedes)

/-- A doclet has got its helpers, those of which are to be put to their place with it are in
`helpers`, and neither they nor the doclet stand anywhere.
-/
structure Prepared (doclets : List Doclet) (done called : List String) (trouble : Prop)
    (doclet : Doclet) (helpers : List String) (forest : Forest)
    : Prop where
  charted
    : Charted doclets ⟨doclet.longname :: done, doclet.longname :: done, called, done⟩ trouble
        forest
  supplied
    : Supplied doclets ⟨doclet.longname :: done, doclet.longname :: done, called, done⟩ forest
  sound : forest.Sound
  once : helpers.Sublist [interfaceHelper doclet.longname, namespaceHelper doclet.longname]
  mem_interface : interfaceHelper doclet.longname ∈ helpers ↔ HasHeritage doclet
  mem_namespace : namespaceHelper doclet.longname ∈ helpers ↔ Awaited doclets doclet

theorem Charted.addHelpers (charted : Charted doclets (.upTo done) trouble forest)
    (supplied : Supplied doclets (.upTo done) forest) (sound : forest.Sound)
    (plain : Plain doclets) (distinct : (doclets.map Doclet.longname).Nodup)
    (member : doclet ∈ doclets) (upTo : UpTo doclets done doclet) (memberof : Option String)
    : let result := forest.addHelpers (doclets.map Doclet.longname) { doclet with memberof }
      Prepared doclets done done trouble doclet result.2 result.1
      ∧ result.1.warnings = forest.warnings := by
  have new := upTo.new distinct member
  have changes := addHelpers_changes forest (doclets.map Doclet.longname) { doclet with memberof }
  have nextSound := changes.sound sound
  obtain ⟨begunCharted, begunSupplied, begunWarnings, interfaces⟩ :=
    charted.addInterface supplied plain distinct member new new memberof
  obtain ⟨movedCharted, movedSupplied, movedWarnings, movedHas⟩ :=
    begunCharted.moveStatics begunSupplied plain distinct member List.mem_cons_self new new
      memberof
  unfold Forest.addHelpers at nextSound ⊢
  dsimp only at nextSound ⊢
  generalize (forest.addInterface { doclet with memberof }).1 = begun at *
  generalize begun.moveStatics (doclets.map Doclet.longname) { doclet with memberof } = moved at *
  have waiting
      : moved.waitingNamespace { doclet with memberof }
        = [namespaceHelper doclet.longname].filter moved.has := by
    unfold waitingNamespace
    cases known : moved.has (namespaceHelper doclet.longname) with
    | false => simp [known]
    | true =>
        obtain ⟨container, found⟩ := has_iff.mp known
        obtain ⟨asked, _, _, situated⟩ := movedCharted.namespace_of plain distinct member found
        simp [known, asked.isClassLike, stands_eq_false found (situated.waiting new)]
  have sameInterface
      : [interfaceHelper doclet.longname].filter begun.has
        = [interfaceHelper doclet.longname].filter moved.has := by
    apply List.filter_congr
    intro name member
    cases List.mem_singleton.mp member
    exact (movedHas _ (interfaceHelper_ne_namespaceHelper _ _)).symm
  have listed (name : String)
      : name ∈ [interfaceHelper doclet.longname, namespaceHelper doclet.longname].filter moved.has
        ↔ (name = interfaceHelper doclet.longname ∨ name = namespaceHelper doclet.longname)
          ∧ moved.has name = true := by
    simp
  rw [interfaces, sameInterface, waiting, ← List.filter_append, List.singleton_append]
  refine ⟨⟨movedCharted, movedSupplied, nextSound, List.filter_sublist, ?_, ?_⟩,
    movedWarnings.trans begunWarnings⟩
  · rw [listed]
    constructor
    · rintro ⟨_, known⟩
      obtain ⟨node, found⟩ := has_iff.mp known
      exact (movedCharted.interface_of plain distinct member found).2.1
    · intro heritage
      exact ⟨.inl rfl, movedSupplied.interfaces doclet member heritage List.mem_cons_self⟩
  · rw [listed, ← upTo.asked_iff]
    constructor
    · rintro ⟨_, known⟩
      obtain ⟨node, found⟩ := has_iff.mp known
      exact (movedCharted.namespace_of plain distinct member found).1
    · intro asked
      exact ⟨.inr rfl, movedSupplied.namespaces doclet member asked⟩

-----------------------------------------------------------------------------------------
-- What receives a doclet
-----------------------------------------------------------------------------------------

theorem find?_nest {nests : Bool} (other : String)
    : (if nests then forest.modify name fun node => { node with nested := true } else forest).find?
        other
      = if other = name then
          (forest.find? other).map fun node => { node with nested := nests || node.nested }
        else forest.find? other := by
  cases nests with
  | true => exact find?_modify (by intro _; rfl)
  | false => simp

/-- A module or namespace is marked as nested before it is put to its place. -/
theorem Charted.nest (charted : Charted doclets progress trouble forest)
    (distinct : (doclets.map Doclet.longname).Nodup) (member : doclet ∈ doclets)
    (uncalled : doclet.longname ∉ progress.called) (nests : Bool)
    (nests_iff : nests = true ↔ Nests doclets doclet)
    : Charted doclets { progress with called := doclet.longname :: progress.called } trouble
        (if nests then forest.modify doclet.longname fun node => { node with nested := true }
          else forest) := by
  constructor
  · intro other otherMember
    obtain ⟨node, found, own⟩ := charted.own other otherMember
    by_cases isDoclet : other = doclet
    · subst isDoclet
      have unnested : node.nested = false := by
        rw [Bool.eq_false_iff]
        exact fun nested => uncalled (own.nested_iff.mp nested).1
      refine ⟨{ node with nested := nests || node.nested }, ?_, own.role, own.doclet_eq, ?_,
        own.situated.placed, own.situated.waiting⟩
      · rw [find?_nest, if_pos rfl, found, Option.map_some]
      · simp [unnested, nests_iff]
    · have different : other.longname ≠ doclet.longname := fun same =>
        isDoclet (eq_of_longname_eq distinct otherMember member same)
      refine ⟨node, ?_, own.role, own.doclet_eq, ?_, own.situated.placed, own.situated.waiting⟩
      · rw [find?_nest, if_neg different, found]
      · simp [own.nested_iff, different]
  · intro name node found unlisted
    have different : name ≠ doclet.longname := fun same => unlisted (same ▸ longname_mem member)
    rw [find?_nest, if_neg different] at found
    obtain ⟨owner, ownerMember, kin⟩ := charted.helper found unlisted
    exact ⟨owner, ownerMember,
      kin.serves.mono (List.Subset.refl _) (List.subset_cons_self _ _) (.refl node), kin.nested,
      kin.situated.placed, kin.situated.waiting⟩

theorem Prepared.nest (prepared : Prepared doclets done done trouble doclet helpers forest)
    (distinct : (doclets.map Doclet.longname).Nodup) (member : doclet ∈ doclets)
    (new : doclet.longname ∉ done) (nests : Bool) (nests_iff : nests = true ↔ Nests doclets doclet)
    (known
      : ∀ parent, Calls doclets doclet parent → forest.has (namespaceHelper parent.longname) = true)
    : Prepared doclets done (doclet.longname :: done) trouble doclet helpers
        (if nests then forest.modify doclet.longname fun node => { node with nested := true }
          else forest) := by
  have changes
      : Changes forest
          (if nests then forest.modify doclet.longname fun node => { node with nested := true }
            else forest) := by
    split
    · exact .single (.nest _)
    · exact .refl
  have supplied := (prepared.supplied.changes changes).call distinct member
    fun parent calls => changes.has (known parent calls)
  exact ⟨prepared.charted.nest distinct member new nests nests_iff, supplied,
    changes.sound prepared.sound, prepared.once, prepared.mem_interface, prepared.mem_namespace⟩

/-- A new namespace beside a doclet stands where that does, unless it has been waited for. -/
theorem Lands.beside {moved : List String} {place : Place}
    (lands : Lands doclets moved trouble doclet none place) (late : ¬ Awaited doclets doclet)
    : Lands doclets moved trouble doclet (some .namespace) place := by
  cases lands with
  | root free => exact .root free
  | lost names unlisted => exact .lost names unlisted
  | dropped link enum => exact .missed link enum late
  | under joins => exact .under joins
  | refused circle troubled => exact .refused circle troubled

/-- The companion of a class, interface or mixin stands where that does, or waits with it. -/
theorem Charted.companion (charted : Charted doclets progress trouble forest)
    (member : owner ∈ doclets) (asked : Asked doclets progress.begun progress.called owner)
    (late
      : ¬ forest.has (namespaceHelper owner.longname) = true
        → owner.longname ∈ progress.placed
        → ¬ Awaited doclets owner)
    (found : forest.find? owner.longname = some node)
    : (forest.companion node).2 = namespaceHelper owner.longname
      ∧ Charted doclets progress trouble (forest.companion node).1
      ∧ (forest.companion node).1.warnings = forest.warnings := by
  obtain ⟨ownNode, ownFound, own⟩ := charted.own owner member
  cases ownFound.symm.trans found
  obtain ⟨memberof, doclet_eq, _⟩ := own.doclet_eq
  unfold Forest.companion
  rw [doclet_eq]
  refine ⟨rfl, ?_⟩
  dsimp only
  split
  · exact ⟨charted, rfl⟩
  · rename_i absent
    have fresh := find?_of_not_has absent
    have situated : Situated doclets progress trouble owner (some .namespace) node.place :=
      ⟨fun placed => (own.situated.placed placed).beside (late absent placed),
        own.situated.waiting⟩
    split
    · rename_i loose
      rw [loose] at situated
      have finds (other : String)
          : (forest.add (namespaceOf { owner with memberof } (some .static))).find? other
            = if other = namespaceHelper owner.longname then
                some (namespaceOf { owner with memberof } (some .static))
              else forest.find? other :=
        find?_add_of_fresh fresh
      exact ⟨charted.insert fresh finds member
        ⟨.namespace rfl asked ⟨rfl, _, rfl⟩, rfl, situated⟩, rfl⟩
    · have finds (other : String)
          : (forest.addBehind node (namespaceOf { owner with memberof } (some .static))).find? other
            = if other = namespaceHelper owner.longname then
                some (Forest.beside node (namespaceOf { owner with memberof } (some .static)))
              else forest.find? other :=
        find?_addBehind (mem_of_find? found) fresh
      exact ⟨charted.insert fresh finds member
        ⟨.namespace rfl asked ⟨rfl, _, rfl⟩, rfl, situated⟩, rfl⟩

/-- The namespace of a parent is there once a doclet calls for it. -/
theorem Prepared.companion (prepared : Prepared doclets done done trouble doclet helpers forest)
    (distinct : (doclets.map Doclet.longname).Nodup) (member : doclet ∈ doclets)
    (upTo : UpTo doclets done doclet) (calls : Calls doclets doclet parent)
    (idle : ¬ Nests doclets doclet) (found : forest.find? parent.longname = some node)
    : (forest.companion node).2 = namespaceHelper parent.longname
      ∧ Prepared doclets done (doclet.longname :: done) trouble doclet helpers
          (forest.companion node).1
      ∧ (forest.companion node).1.warnings = forest.warnings
      ∧ (forest.companion node).1.has (namespaceHelper parent.longname) = true := by
  have charted := prepared.charted.nest distinct member (upTo.new distinct member) false
    (by simpa using idle)
  rw [if_neg nofun] at charted
  -- What has called for a namespace before its owner was linked has been linked itself.
  have late (absent : ¬ forest.has (namespaceHelper parent.longname) = true)
      (placed : parent.longname ∈ done)
      : ¬ Awaited doclets parent := by
    rintro (⟨other, listed, static⟩ | ⟨other, precedes, otherCalls⟩)
    · exact absent (prepared.supplied.namespaces parent calls.1.1
        (.static listed static (List.mem_cons_of_mem _ placed)))
    · have before := precedes.trans distinct ((upTo parent calls.1.1).mp placed)
      exact absent (prepared.supplied.namespaces parent calls.1.1
        (.call precedes.member otherCalls ((upTo other precedes.member).mpr before)))
  obtain ⟨container, companionCharted, warnings⟩ :=
    charted.companion calls.1.1 (.call member calls List.mem_cons_self) late found
  obtain ⟨ownNode, ownFound, own⟩ := prepared.charted.own parent calls.1.1
  cases ownFound.symm.trans found
  obtain ⟨_, doclet_eq, _⟩ := own.doclet_eq
  have sameName := longname_of_find? found
  have nodeFound : forest.find? node.longname = some node := by rw [sameName, found]
  have changes : Changes forest (forest.companion node).1 :=
    companion_changes nodeFound (by rw [doclet_eq]; exact calls.2.1)
  have known : (forest.companion node).1.has (namespaceHelper parent.longname) = true :=
    sameName ▸ has_companion nodeFound
  have supplied := (prepared.supplied.changes changes).call distinct member
    fun other otherCalls => calls.1.unique distinct otherCalls.1 ▸ known
  exact ⟨container, ⟨companionCharted, supplied, changes.sound prepared.sound, prepared.once,
    prepared.mem_interface, prepared.mem_namespace⟩, warnings, known⟩

-----------------------------------------------------------------------------------------
-- Linking up to the point where a doclet is put to its place
-----------------------------------------------------------------------------------------

/-- What comes of a doclet with its helpers: it becomes a root, its parent is not there, its parent
is an enumeration and only its helpers become roots, or what holds it takes it.
-/
inductive Linked (doclets : List Doclet) (done : List String) (doclet : Doclet)
    (helpers : List String) (prepared : Forest)
    : Forest → Prop
  | root (free : doclet.memberof = none)
    : Linked doclets done doclet helpers prepared (prepared.addRoots (helpers ++ [doclet.longname]))
  | lost {absent : String} (names : doclet.memberof = some absent)
    (unlisted : absent ∉ doclets.map Doclet.longname)
    : Linked doclets done doclet helpers prepared (prepared.warn (.noParent doclet.longname absent))
  | dropped {parent : Doclet} (link : MemberOf doclets doclet parent) (enum : parent.isEnum = true)
    : Linked doclets done doclet helpers prepared (prepared.addRoots helpers)
  | joined {parent : Doclet} (joins : Joins doclets doclet parent)
    (known : prepared.has (holder (doclet.longname :: done) parent doclet) = true)
    : Linked doclets done doclet helpers prepared
        (prepared.attachAll (holder (doclet.longname :: done) parent doclet)
          (helpers ++ [doclet.longname]))

theorem not_nests_of_class (distinct : (doclets.map Doclet.longname).Nodup)
    (link : MemberOf doclets doclet parent) (parentLike : parent.kind.isModuleLike = false)
    (unmoved : ¬ (StaticOf doclets parent doclet ∧ Precedes doclets parent doclet))
    : ¬ Nests doclets doclet := by
  rintro ⟨_, other, otherLink, either⟩
  cases link.unique distinct otherLink
  rcases either with moduleLike | static
  · cases parentLike.symm.trans moduleLike
  · exact unmoved static

/-- A doclet goes under a node whose body can hold it, marked as nested if it is. -/
theorem Prepared.linkUnder_self
    (prepared : Prepared doclets done done trouble doclet helpers forest)
    (distinct : (doclets.map Doclet.longname).Nodup) (member : doclet ∈ doclets)
    (new : doclet.longname ∉ done) (memberof : Option String)
    (found : forest.find? name = some node)
    (room : node.doclet.kind.isClassLike = true → doclet.leavesClass = false)
    (noEnum : node.doclet.isEnum = false)
    (nests_iff
      : doclet.kind.isModuleLike = true ∧ node.doclet.kind.isModuleLike = true
        ↔ Nests doclets doclet)
    (known
      : ∀ parent, Calls doclets doclet parent → forest.has (namespaceHelper parent.longname) = true)
    : ∃ last,
        Prepared doclets done (doclet.longname :: done) trouble doclet helpers last
        ∧ last.warnings = forest.warnings
        ∧ last.has name = true
        ∧ forest.linkUnder node helpers { doclet with memberof }
          = last.attachAll name (helpers ++ [doclet.longname]) := by
  have stays
      : (node.doclet.kind.isClassLike && { doclet with memberof : Doclet }.leavesClass)
        = false := by
    cases classLike : node.doclet.kind.isClassLike with
    | false => rfl
    | true => exact room classLike
  have nested := prepared.nest distinct member new
    (doclet.kind.isModuleLike && node.doclet.kind.isModuleLike)
    (by rw [Bool.and_eq_true, nests_iff]) known
  rw [linkUnder, stays, noEnum, longname_of_find? found]
  simp only [Bool.false_eq_true, if_false]
  refine ⟨_, nested, ?_, ?_, rfl⟩
  · split <;> rfl
  · rw [has, find?_nest]
    split <;> simp [found]

/-- A doclet that no other one takes calls for nothing. -/
theorem Prepared.idle (prepared : Prepared doclets done done trouble doclet helpers forest)
    (distinct : (doclets.map Doclet.longname).Nodup) (member : doclet ∈ doclets)
    (new : doclet.longname ∉ done) (alone : ∀ parent, ¬ Joins doclets doclet parent)
    (idle : ¬ Nests doclets doclet)
    : Prepared doclets done (doclet.longname :: done) trouble doclet helpers forest := by
  have nested := prepared.nest distinct member new false (by simpa using idle)
    fun parent calls => absurd calls.joins (alone parent)
  rwa [if_neg nofun] at nested

theorem Prepared.orphan (prepared : Prepared doclets done done trouble doclet helpers forest)
    (distinct : (doclets.map Doclet.longname).Nodup) (member : doclet ∈ doclets)
    (new : doclet.longname ∉ done) (free : ∀ parent, ¬ MemberOf doclets doclet parent)
    : Prepared doclets done (doclet.longname :: done) trouble doclet helpers forest := by
  refine prepared.idle distinct member new (fun parent joins => free parent joins.1) ?_
  rintro ⟨_, parent, link, _⟩
  exact free parent link

/-- A doclet that the body of its parent cannot hold goes to the namespace beside that. -/
theorem Prepared.linkUnder_companion
    (prepared : Prepared doclets done done trouble doclet helpers forest)
    (distinct : (doclets.map Doclet.longname).Nodup) (member : doclet ∈ doclets)
    (upTo : UpTo doclets done doclet) (calls : Calls doclets doclet parent)
    (notStatic : ¬ (StaticOf doclets parent doclet ∧ Precedes doclets parent doclet))
    (memberof : Option String) (found : forest.find? parent.longname = some node)
    (sameKind : node.doclet.kind = parent.kind)
    : ∃ last,
        Prepared doclets done (doclet.longname :: done) trouble doclet helpers last
        ∧ last.warnings = forest.warnings
        ∧ Linked doclets done doclet helpers last
            (forest.linkUnder node helpers { doclet with memberof }) := by
  have noModule := Doclet.Kind.isModuleLike_eq_false_of_isClassLike calls.2.1
  obtain ⟨container, companionReady, warnings, known⟩ :=
    prepared.companion distinct member upTo calls
      (not_nests_of_class distinct calls.1 noModule notStatic) found
  refine ⟨_, companionReady, warnings, ?_⟩
  have goes
      : (node.doclet.kind.isClassLike
          && { doclet with memberof : Doclet }.leavesClass) = true := by
    rw [sameKind, Bool.and_eq_true]
    exact calls.2
  have held : holder (doclet.longname :: done) parent doclet = (forest.companion node).2 :=
    (holder_of_leaves calls.2.1 calls.2.2).trans container.symm
  rw [linkUnder, goes]
  dsimp only [if_true]
  rw [← held]
  exact .joined calls.joins ((holder_of_leaves calls.2.1 calls.2.2).symm ▸ known)

/-- A doclet that goes neither to a namespace nor to an enumeration goes under its parent. -/
theorem Prepared.linkUnder_body
    (prepared : Prepared doclets done done trouble doclet helpers forest)
    (distinct : (doclets.map Doclet.longname).Nodup) (member : doclet ∈ doclets)
    (new : doclet.longname ∉ done) (joins : Joins doclets doclet parent)
    (notStatic : ¬ (StaticOf doclets parent doclet ∧ Precedes doclets parent doclet))
    (stays : ¬ (parent.kind.isClassLike = true ∧ doclet.leavesClass = true))
    (unmoved : ¬ Renames (doclet.longname :: done) parent doclet) (memberof : Option String)
    (found : forest.find? parent.longname = some node)
    (sameKind : node.doclet.kind = parent.kind) (sameEnum : node.doclet.isEnum = parent.isEnum)
    : ∃ last,
        Prepared doclets done (doclet.longname :: done) trouble doclet helpers last
        ∧ last.warnings = forest.warnings
        ∧ Linked doclets done doclet helpers last
            (forest.linkUnder node helpers { doclet with memberof }) := by
  have inside : holder (doclet.longname :: done) parent doclet = parent.longname :=
    if_neg (not_or.mpr ⟨stays, unmoved⟩)
  have nests_iff
      : doclet.kind.isModuleLike = true ∧ node.doclet.kind.isModuleLike = true
        ↔ Nests doclets doclet := by
    rw [sameKind]
    constructor
    · rintro ⟨isModule, inModule⟩
      exact ⟨isModule, parent, joins.1, .inl inModule⟩
    · rintro ⟨isModule, other, otherLink, either⟩
      cases joins.1.unique distinct otherLink
      exact ⟨isModule, either.resolve_right notStatic⟩
  have room (classLike : node.doclet.kind.isClassLike = true) : doclet.leavesClass = false := by
    rw [Bool.eq_false_iff]
    exact fun leaves => stays ⟨sameKind ▸ classLike, leaves⟩
  have noCall (other : Doclet) : ¬ Calls doclets doclet other := by
    intro calls
    cases joins.1.unique distinct calls.1
    exact stays calls.2
  obtain ⟨last, lastReady, warnings, known, put⟩ :=
    prepared.linkUnder_self distinct member new memberof found room (sameEnum.trans joins.2)
      nests_iff fun other calls => absurd calls (noCall other)
  refine ⟨last, lastReady, warnings, ?_⟩
  rw [put, ← inside]
  exact .joined joins (inside.symm ▸ known)

/-- A doclet that has not been renamed goes under its parent, to the namespace beside that, or
nowhere if the parent is an enumeration.
-/
theorem Prepared.linkUnder_parent
    (prepared : Prepared doclets done done trouble doclet helpers forest)
    (distinct : (doclets.map Doclet.longname).Nodup) (member : doclet ∈ doclets)
    (upTo : UpTo doclets done doclet) (link : MemberOf doclets doclet parent)
    (unmoved : ¬ Renames (doclet.longname :: done) parent doclet) (memberof : Option String)
    (found : forest.find? parent.longname = some node)
    : ∃ last,
        Prepared doclets done (doclet.longname :: done) trouble doclet helpers last
        ∧ last.warnings = forest.warnings
        ∧ Linked doclets done doclet helpers last
            (forest.linkUnder node helpers { doclet with memberof }) := by
  have new := upTo.new distinct member
  obtain ⟨ownNode, ownFound, own⟩ := prepared.charted.own parent link.1
  cases ownFound.symm.trans found
  obtain ⟨parentOf, doclet_eq, _⟩ := own.doclet_eq
  have sameKind : node.doclet.kind = parent.kind := by rw [doclet_eq]
  have sameEnum : node.doclet.isEnum = parent.isEnum := by
    rw [doclet_eq]
    rfl
  have notStatic : ¬ (StaticOf doclets parent doclet ∧ Precedes doclets parent doclet) := by
    rintro ⟨static, precedes⟩
    exact unmoved ⟨List.mem_cons_of_mem _ ((upTo parent link.1).mpr precedes), static.2⟩
  by_cases leaves : parent.kind.isClassLike = true ∧ doclet.leavesClass = true
  · exact prepared.linkUnder_companion distinct member upTo ⟨link, leaves⟩ notStatic memberof found
      sameKind
  · cases enum : parent.isEnum with
    | true =>
        have noModule := Doclet.isModuleLike_eq_false_of_isEnum enum
        have noClass : parent.kind.isClassLike = false := by
          rw [Bool.eq_false_iff]
          intro classLike
          cases enum.symm.trans (Doclet.isEnum_eq_false_of_isClassLike classLike)
        have alone (other : Doclet) : ¬ Joins doclets doclet other := by
          rintro ⟨otherLink, noEnum⟩
          cases link.unique distinct otherLink
          cases enum.symm.trans noEnum
        refine ⟨forest, prepared.idle distinct member new alone
          (not_nests_of_class distinct link noModule notStatic), rfl, ?_⟩
        have linked : Linked doclets done doclet helpers forest _ := .dropped link enum
        rw [linkUnder, sameKind, noClass, sameEnum, enum]
        exact linked
    | false =>
        exact prepared.linkUnder_body distinct member new ⟨link, enum⟩ notStatic leaves unmoved
          memberof found sameKind sameEnum

/-- A doclet that has been renamed goes to the namespace that it names. -/
theorem Prepared.linkUnder_renamed
    (prepared : Prepared doclets done done trouble doclet helpers forest) (plain : Plain doclets)
    (distinct : (doclets.map Doclet.longname).Nodup) (member : doclet ∈ doclets)
    (upTo : UpTo doclets done doclet) (link : MemberOf doclets doclet parent)
    (renames : Renames (doclet.longname :: done) parent doclet) (memberof : Option String)
    : ∃ container last,
        forest.find? (namespaceHelper parent.longname) = some container
        ∧ Prepared doclets done (doclet.longname :: done) trouble doclet helpers last
        ∧ last.warnings = forest.warnings
        ∧ Linked doclets done doclet helpers last
            (forest.linkUnder container helpers { doclet with memberof }) := by
  have static : StaticOf doclets parent doclet := ⟨link, renames.2⟩
  have known := prepared.supplied.namespaces parent link.1 (.static member static renames.1)
  obtain ⟨container, found⟩ := has_iff.mp known
  obtain ⟨_, _, kind, _⟩ := prepared.charted.namespace_of plain distinct link.1 found
  have nests_iff
      : doclet.kind.isModuleLike = true ∧ container.doclet.kind.isModuleLike = true
        ↔ Nests doclets doclet := by
    rw [kind]
    constructor
    · rintro ⟨isModule, _⟩
      refine ⟨isModule, parent, link, .inr ⟨static, ?_⟩⟩
      rcases List.mem_cons.mp renames.1 with same | early
      · cases eq_of_longname_eq distinct link.1 member same
        have noModule := Doclet.Kind.isModuleLike_eq_false_of_isClassLike
          (Doclet.Kind.isClassLike_of_isInterfaceLike renames.2.1)
        cases isModule.symm.trans noModule
      · exact (upTo parent link.1).mp early
    · exact fun nests => ⟨nests.1, rfl⟩
  have knownOf (other : Doclet) (calls : Calls doclets doclet other)
      : forest.has (namespaceHelper other.longname) = true :=
    link.unique distinct calls.1 ▸ known
  obtain ⟨last, lastReady, warnings, lastKnown, put⟩ :=
    prepared.linkUnder_self distinct member (upTo.new distinct member) memberof found
      (by simp [kind, Doclet.Kind.isClassLike]) (by simp [Doclet.isEnum, kind]) nests_iff knownOf
  refine ⟨container, last, found, lastReady, warnings, ?_⟩
  rw [put, ← holder_of_renames renames]
  exact .joined static.joins (holder_of_renames renames ▸ lastKnown)

/-- Linking a doclet prepares it and then puts it where its parent tells. -/
theorem Charted.link_cases (charted : Charted doclets (.upTo done) trouble forest)
    (supplied : Supplied doclets (.upTo done) forest) (sound : forest.Sound)
    (plain : Plain doclets) (distinct : (doclets.map Doclet.longname).Nodup)
    (member : doclet ∈ doclets) (upTo : UpTo doclets done doclet)
    : ∃ last helpers,
        Prepared doclets done (doclet.longname :: done) trouble doclet helpers last
        ∧ last.warnings = forest.warnings
        ∧ Linked doclets done doclet helpers last
            (link (doclets.map Doclet.longname) forest doclet.longname) := by
  have new := upTo.new distinct member
  obtain ⟨startNode, startFound, start⟩ := charted.own doclet member
  obtain ⟨startParent, start_eq, _⟩ := start.doclet_eq
  obtain ⟨prepared, warnings⟩ :=
    charted.addHelpers supplied sound plain distinct member upTo startParent
  unfold Forest.link
  simp only [startFound, start_eq]
  generalize (forest.addHelpers (doclets.map Doclet.longname)
    { doclet with memberof := startParent }) = result at *
  obtain ⟨next, helpers⟩ := result
  dsimp only at prepared warnings ⊢
  obtain ⟨node, found, own⟩ := prepared.charted.own doclet member
  obtain ⟨memberof, doclet_eq, named⟩ := own.doclet_eq
  have asked : next.memberof? doclet.longname = memberof := by
    simp [memberof?, found, doclet_eq]
  simp only [asked]
  cases named with
  | @moved parent link renames =>
      obtain ⟨container, last, containerFound, lastReady, lastWarnings, linked⟩ :=
        prepared.linkUnder_renamed plain distinct member upTo link renames startParent
      refine ⟨last, helpers, lastReady, lastWarnings.trans warnings, ?_⟩
      simp only [containerFound]
      exact linked
  | own unmoved =>
      cases names : doclet.memberof with
      | none =>
          have free (parent : Doclet) : ¬ MemberOf doclets doclet parent := by
            intro link
            cases names.symm.trans link.2
          exact ⟨next, helpers, prepared.orphan distinct member new free, warnings, .root names⟩
      | some parentName =>
          dsimp only
          by_cases listed : parentName ∈ doclets.map Doclet.longname
          · obtain ⟨parent, parentMember, rfl⟩ := List.mem_map.mp listed
            have link : MemberOf doclets doclet parent := ⟨parentMember, names⟩
            obtain ⟨parentNode, parentFound, _⟩ := prepared.charted.own parent parentMember
            obtain ⟨last, lastReady, lastWarnings, linked⟩ :=
              prepared.linkUnder_parent distinct member upTo link (unmoved parent link) startParent
                parentFound
            refine ⟨last, helpers, lastReady, lastWarnings.trans warnings, ?_⟩
            simp only [parentFound]
            exact linked
          · have absent : next.find? parentName = none := by
              cases strange : next.find? parentName with
              | none => rfl
              | some strangeNode =>
                  obtain ⟨owner, _, kin⟩ := prepared.charted.helper strange listed
                  have reserved : Reserved parentName := by
                    cases kin.serves with
                    | interface same _ _ _ => exact ⟨_, .inl same⟩
                    | «namespace» same _ _ => exact ⟨_, .inr same⟩
                  exact absurd reserved ((plain doclet member).2 parentName names)
            have free (parent : Doclet) : ¬ MemberOf doclets doclet parent := by
              rintro ⟨parentMember, same⟩
              cases names.symm.trans same
              exact listed (longname_mem parentMember)
            refine ⟨next, helpers, prepared.orphan distinct member new free, warnings, ?_⟩
            simp only [absent]
            exact .lost names listed

end Typings.Forest
