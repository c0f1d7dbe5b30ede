import Typings.Proofs.Declarations.Parts
import Typings.Proofs.Forest.Placement

/-! Which doclets are declared where nothing is warned about. -/

namespace Typings.Forest

open Branch Noted Relation

variable {forest : Forest} {name parent : String} {node : Node} {body : Body}

/-- The parts of the declarations of a forest, with the origin of each. -/
def origins (forest : Forest) : List (Origin × Piece) :=
  partsAll .statements forest.branches

/-- There is a part that declares the doclet. -/
def Declares (forest : Forest) (name : String) : Prop :=
  .doclet name ∈ forest.origins.map Prod.fst

/-- Without a warning the parts of the declarations are those with an origin. -/
theorem map_snd_origins (quiet : forest.statements.warnings = [])
    : forest.origins.map Prod.snd = forest.statements.value.flatMap Decl.parts := by
  have each (branch : Branch) (root : branch ∈ forest.branches)
      : (branch.piece .statements).warnings = [] := by
    rw [statements, map_warnings, mapM_warnings, List.flatMap_eq_nil_iff] at quiet
    have own := quiet branch root
    rw [statementsOfRoot, bind_warnings, List.append_eq_nil_iff] at own
    exact own.1
  have fits : ∀ inner ∈ withinAll forest.branches, inner.Fits := by
    intro inner listed
    rw [withinAll_eq] at listed
    obtain ⟨branch, root, inside⟩ := List.mem_flatMap.mp listed
    exact fits_of_quiet branch .statements (each branch root) inner inside
  rw [origins, map_snd_partsAll _ _ fits, ← value_statements, List.flatMap_map]
  rfl

-----------------------------------------------------------------------------------------
-- Which nodes of a forest are declared
-----------------------------------------------------------------------------------------

/-- The node `name` stands in the body of what the node `parent` is declared as. -/
def StandsInBody (forest : Forest) (name parent : String) : Prop :=
  forest.StandsUnder name parent
  ∧ ∃ holder, forest.find? parent = some holder ∧ holder.doclet.kind.hasBody = true

theorem isDeclared_of_hasBody {kind : Doclet.Kind} (hasBody : kind.hasBody = true)
    : kind.isDeclared = true := by
  cases kind <;>
    simp_all [Doclet.Kind.hasBody, Doclet.Kind.isDeclared, Doclet.Kind.isClassLike,
      Doclet.Kind.isModuleLike]

/-- The parts of a whole branch declare its node and what is declared in the body of that. -/
theorem mem_parts_whole (sound : forest.Sound) (member : node ∈ forest.nodes)
    : .doclet name ∈ ((forest.whole node).parts body).map Prod.fst
      ↔ node.doclet.kind.isDeclared = true
        ∧ (name = node.longname
          ∨ node.doclet.kind.hasBody = true
            ∧ ∃ child ∈ forest.children node.longname,
                .doclet name
                ∈ ((forest.whole child).parts node.doclet.kind.body).map Prod.fst) := by
  have declared := Doclet.piece_isSome node.doclet node.nested body
    (pieces node.doclet.kind.body ((forest.children node.longname).map forest.whole)).value
  rw [← value_piece ⟨node, (forest.children node.longname).map forest.whole⟩ body] at declared
  rw [whole_eq sound member, parts, ← declared]
  cases (piece body ⟨node, (forest.children node.longname).map forest.whole⟩).value with
  | none => simp
  | some piece =>
      cases hasBody : node.doclet.kind.hasBody with
      | false => simp
      | true =>
          have details (added : List Piece)
              : .doclet name ∉ (added.map (Origin.detail node.longname, ·)).map Prod.fst := by
            simp
          simp only [if_true, List.map_cons, List.mem_cons, List.map_append, List.mem_append,
            details, false_or, or_false, Origin.doclet.injEq, partsAll_eq, List.flatMap_map,
            List.map_flatMap, List.mem_flatMap, Option.isSome_some, true_and]

/-- A whole branch declares what stands in the bodies of it, one in the other, if that is declared
at all.
-/
theorem mem_parts_whole_iff (sound : forest.Sound) (member : node ∈ forest.nodes) (body : Body)
    : .doclet name ∈ ((forest.whole node).parts body).map Prod.fst
      ↔ (∃ inner, forest.find? name = some inner ∧ inner.doclet.kind.isDeclared = true)
        ∧ ReflTransGen forest.StandsInBody name node.longname := by
  induction node, member using sound.children_induction generalizing body with
  | step node member ih =>
    rw [mem_parts_whole sound member]
    constructor
    · rintro ⟨declared, rfl | ⟨hasBody, child, childMember, inChild⟩⟩
      · exact ⟨⟨node, find?_of_mem sound.distinct member, declared⟩, .refl⟩
      · obtain ⟨inner, line⟩ := (ih child childMember _).mp inChild
        exact ⟨inner, line.tail ⟨standsUnder_of_mem_children sound childMember, node,
          find?_of_mem sound.distinct member, hasBody⟩⟩
    · rintro ⟨⟨inner, found, declared⟩, line⟩
      rcases ReflTransGen.cases_tail line with same | ⟨lower, rest, under, holder, held, hasBody⟩
      · subst same
        cases found.symm.trans (find?_of_mem sound.distinct member)
        exact ⟨declared, .inl rfl⟩
      · cases held.symm.trans (find?_of_mem sound.distinct member)
        obtain ⟨child, childMember, rfl⟩ := exists_child sound under
        exact ⟨isDeclared_of_hasBody hasBody, .inr ⟨hasBody, child, childMember,
          (ih child childMember _).mpr ⟨⟨inner, found, declared⟩, rest⟩⟩⟩

/-- A node is in the body of a declared one, or a root itself. -/
def Carried (forest : Forest) (name : String) : Prop :=
  ∃ root ∈ forest.roots, ReflTransGen forest.StandsInBody name root.longname

/-- Exactly the nodes that are carried up to a root are declared, apart from events, files and
packages.
-/
theorem declares_iff (sound : forest.Sound) (found : forest.find? name = some node)
    (declared : node.doclet.kind.isDeclared = true)
    : forest.Declares name ↔ forest.Carried name := by
  rw [Declares, origins, partsAll_eq, branches_eq, List.flatMap_map, List.map_flatMap,
    List.mem_flatMap]
  constructor
  · rintro ⟨root, member, inside⟩
    exact ⟨root, member, ((mem_parts_whole_iff sound (mem_roots.mp member).1 _).mp inside).2⟩
  · rintro ⟨root, member, line⟩
    exact ⟨root, member, (mem_parts_whole_iff sound (mem_roots.mp member).1 _).mpr
      ⟨⟨node, found, declared⟩, line⟩⟩

theorem carried_iff (sound : forest.Sound) (found : forest.find? name = some node)
    : forest.Carried name
      ↔ node.place = .root
        ∨ ∃ upper holder,
            node.place = .under upper
            ∧ forest.find? upper = some holder
            ∧ holder.doclet.kind.hasBody = true
            ∧ forest.Carried upper := by
  constructor
  · rintro ⟨root, member, line⟩
    rcases ReflTransGen.cases_head line with same | ⟨upper, ⟨under, holder, held, hasBody⟩, rest⟩
    · obtain ⟨known, place⟩ := mem_roots.mp member
      subst same
      cases found.symm.trans (find?_of_mem sound.distinct known)
      exact .inl place
    · obtain ⟨lower, lowerFound, place⟩ := parent?_eq_some_iff.mp under
      cases found.symm.trans lowerFound
      exact .inr ⟨upper, holder, place, held, hasBody, root, member, rest⟩
  · rintro (place | ⟨upper, holder, place, held, hasBody, root, member, rest⟩)
    · refine ⟨node, mem_roots.mpr ⟨mem_of_find? found, place⟩, ?_⟩
      rw [longname_of_find? found]
    · have under : forest.StandsUnder name upper := parent?_eq_some_iff.mpr ⟨node, found, place⟩
      exact ⟨root, member, .head ⟨under, holder, held, hasBody⟩ rest⟩

-----------------------------------------------------------------------------------------
-- Which plain doclets are declared
-----------------------------------------------------------------------------------------

/-- None of what a doclet is a member of, directly or through others, is a member of itself, and
each is declared with a body. Nor is the doclet a member of itself.
-/
structure Exposed (doclets : List Doclet) (doclet : Doclet) : Prop where
  notOwn
    : ∀ upper,
        ReflTransGen (MemberOf doclets) doclet upper → upper.memberof ≠ some upper.longname
  bodies : ∀ upper, TransGen (MemberOf doclets) doclet upper → upper.kind.hasBody = true

variable {doclets : List Doclet} {doclet parent : Doclet} {last : List String}

theorem Exposed.above (exposed : Exposed doclets doclet) (link : MemberOf doclets doclet parent)
    : Exposed doclets parent where
  notOwn upper line := exposed.notOwn upper (.head link line)
  bodies upper line := exposed.bodies upper (.head link line)

theorem exposed_of_root (root : doclet.memberof = none) : Exposed doclets doclet where
  notOwn upper line := by
    rcases ReflTransGen.cases_head line with rfl | ⟨parent, ⟨_, names⟩, _⟩
    · simp [root]
    · simp [root] at names
  bodies upper line := by
    obtain ⟨parent, ⟨_, names⟩, _⟩ := TransGen.head'_iff.mp line
    simp [root] at names

/-- A doclet is exposed if what it is a member of is another doclet, with a body and exposed itself.
-/
theorem exposed_of_above (distinct : (doclets.map Doclet.longname).Nodup)
    (link : MemberOf doclets doclet parent) (notOwn : doclet.memberof ≠ some doclet.longname)
    (hasBody : parent.kind.hasBody = true) (above : Exposed doclets parent)
    : Exposed doclets doclet := by
  have only {other : Doclet} (otherLink : MemberOf doclets doclet other) : other = parent :=
    eq_of_longname_eq distinct otherLink.1 link.1
      (Option.some.inj (otherLink.2.symm.trans link.2))
  constructor
  · intro upper line
    rcases ReflTransGen.cases_head line with rfl | ⟨other, otherLink, rest⟩
    · exact notOwn
    · cases only otherLink
      exact above.notOwn upper rest
  · intro upper line
    obtain ⟨other, otherLink, rest⟩ := TransGen.head'_iff.mp line
    cases only otherLink
    rcases reflTransGen_iff_eq_or_transGen.mp rest with rfl | beyond
    · exact hasBody
    · exact above.bodies upper beyond

/-- Without a warning every survivor comes to its place, but what is a member of itself. -/
theorem tracked_of_quiet (settings : Settings) {input : List Doclet} (plain : Plain input)
    (noEnum
      : ∀ doclet ∈ survivors settings input,
          ∀ parent, MemberOf (survivors settings input) doclet parent → parent.isEnum = false)
    (quiet : (ofDoclets settings input).warnings = [])
    : ∃ last,
        (∀ doclet ∈ survivors settings input, doclet.longname ∈ last)
        ∧ Tracked (survivors settings input) ⟨last, last, last⟩ (ofDoclets settings input) := by
  have settled := settled_ofDoclets settings plain
  refine ⟨_, fun doclet => longname_mem_reverse, settled.tracked (plain.survivors settings)
    (nodup_survivors settings input) ?_ ?_⟩
  · intro doclet member
    cases names : doclet.memberof with
    | none => exact .inl rfl
    | some name =>
        by_cases listed : name ∈ (survivors settings input).map Doclet.longname
        · obtain ⟨parent, parentMember, rfl⟩ := List.mem_map.mp listed
          have link : MemberOf (survivors settings input) doclet parent := ⟨parentMember, names⟩
          exact .inr ⟨parent, link, noEnum doclet member parent link⟩
        · have warned :=
            settled.reported doclet member (longname_mem_reverse member) name names listed
          exact absurd (quiet ▸ warned) List.not_mem_nil
  · rintro ⟨warning, listed, _⟩
    exact absurd (quiet ▸ listed) List.not_mem_nil

/-- What belongs to a doclet stands where that does, unless the doclet is a member of itself. -/
theorem Tracked.belongs_place (tracked : Tracked doclets ⟨last, last, last⟩ forest)
    (plain : Plain doclets) (distinct : (doclets.map Doclet.longname).Nodup)
    (all : ∀ doclet ∈ doclets, doclet.longname ∈ last) (member : doclet ∈ doclets)
    (notOwn : doclet.memberof ≠ some doclet.longname) (belongs : Belongs name doclet.longname)
    (found : forest.find? name = some node)
    : Spot doclets last doclet node.place := by
  obtain ⟨ownNode, ownFound, _, spot⟩ := tracked.spot all member
  by_cases isDoclet : name = doclet.longname
  · subst isDoclet
    cases ownFound.symm.trans found
    exact spot
  · obtain ⟨_, ownerNode, ownerFound, helper⟩ :=
      tracked.helper_of plain distinct member belongs isDoclet found
    cases ownFound.symm.trans ownerFound
    rw [helper.place_eq notOwn]
    exact spot

/-- What holds a member of a doclet is declared with a body if the doclet is. -/
theorem Tracked.holder_hasBody (tracked : Tracked doclets ⟨last, last, last⟩ forest)
    (plain : Plain doclets) (distinct : (doclets.map Doclet.longname).Nodup)
    (member : parent ∈ doclets) (held : forest.find? (holder last parent doclet) = some node)
    : node.doclet.kind.hasBody = true ↔ parent.kind.hasBody = true := by
  unfold holder at held
  split at held
  · obtain ⟨classLike, _, kind, _⟩ := tracked.namespace_of plain distinct member held
    simp [kind, Doclet.Kind.hasBody, classLike, Doclet.Kind.isModuleLike]
  · obtain ⟨ownNode, found, own⟩ := tracked.own parent member
    cases found.symm.trans held
    obtain ⟨_, doclet_eq, _⟩ := own.doclet_eq
    rw [doclet_eq]

/-- An exposed doclet is carried, and so are its helpers, by induction along the line of parents. -/
theorem Tracked.carried_of_exposed (tracked : Tracked doclets ⟨last, last, last⟩ forest)
    (sound : forest.Sound) (plain : Plain doclets)
    (distinct : (doclets.map Doclet.longname).Nodup)
    (all : ∀ doclet ∈ doclets, doclet.longname ∈ last) (name : String)
    : ∀ doclet ∈ doclets,
        Belongs name doclet.longname
        → forest.has name = true
        → Exposed doclets doclet
        → forest.Carried name := by
  induction name using sound.grounded.induction with
  | _ name ih =>
    intro doclet member belongs known exposed
    obtain ⟨node, found⟩ := has_iff.mp known
    have spot := tracked.belongs_place plain distinct all member (exposed.notOwn doclet .refl)
      belongs found
    rw [carried_iff sound found]
    generalize place : node.place = stood at spot
    cases spot with
    | root _ => exact .inl rfl
    | @under parent link =>
        have under := parent?_eq_some_iff.mpr ⟨node, found, place⟩
        have holderKnown := sound.parents under
        obtain ⟨holderNode, held⟩ := has_iff.mp holderKnown
        refine .inr ⟨_, holderNode, rfl, held, ?_, ?_⟩
        · exact (tracked.holder_hasBody plain distinct link.1 held).mpr
            (exposed.bodies parent (.single link))
        · exact ih _ under parent link.1 (belongs_holder _ _ _) holderKnown (exposed.above link)

/-- What holds a carried doclet is carried too, and is declared with a body. -/
theorem Tracked.carried_holder (tracked : Tracked doclets ⟨last, last, last⟩ forest)
    (sound : forest.Sound) (plain : Plain doclets)
    (distinct : (doclets.map Doclet.longname).Nodup)
    (all : ∀ doclet ∈ doclets, doclet.longname ∈ last) (member : doclet ∈ doclets)
    (link : MemberOf doclets doclet parent) (carried : forest.Carried doclet.longname)
    : forest.Carried (holder last parent doclet) ∧ parent.kind.hasBody = true := by
  obtain ⟨node, found, place⟩ :=
    parent?_eq_some_iff.mp (tracked.under distinct all member link)
  rcases (carried_iff sound found).mp carried
    with root | ⟨upper, held, under, heldFound, hasBody, higher⟩
  · cases root.symm.trans place
  · cases under.symm.trans place
    exact ⟨higher, (tracked.holder_hasBody plain distinct link.1 heldFound).mp hasBody⟩

/-- If the namespace of a doclet is carried, so is the doclet, and it is no member of itself. -/
theorem Tracked.carried_of_namespace (tracked : Tracked doclets ⟨last, last, last⟩ forest)
    (sound : forest.Sound) (plain : Plain doclets)
    (distinct : (doclets.map Doclet.longname).Nodup) (member : parent ∈ doclets)
    (known : forest.has (namespaceHelper parent.longname) = true)
    (carried : forest.Carried (namespaceHelper parent.longname))
    : forest.Carried parent.longname ∧ parent.memberof ≠ some parent.longname := by
  obtain ⟨node, found⟩ := has_iff.mp known
  obtain ⟨_, _, _, ownerNode, ownerFound, place_eq⟩ :=
    tracked.namespace_of plain distinct member found
  rw [carried_iff sound found, place_eq] at carried
  split at carried
  · rcases carried with root | ⟨_, _, under, _⟩
    · cases root
    · cases under
  · rename_i notOwn
    exact ⟨(carried_iff sound ownerFound).mpr carried, notOwn⟩

theorem Tracked.notOwn_of_carried (tracked : Tracked doclets ⟨last, last, last⟩ forest)
    (sound : forest.Sound) (plain : Plain doclets)
    (distinct : (doclets.map Doclet.longname).Nodup)
    (all : ∀ doclet ∈ doclets, doclet.longname ∈ last) (member : doclet ∈ doclets)
    (carried : forest.Carried doclet.longname)
    : doclet.memberof ≠ some doclet.longname := by
  intro self
  have under := tracked.under distinct all member ⟨member, self⟩
  obtain ⟨held, _⟩ := tracked.carried_holder sound plain distinct all member ⟨member, self⟩ carried
  unfold holder at under held
  split at under
  · rename_i beside
    rw [if_pos beside] at held
    exact (tracked.carried_of_namespace sound plain distinct member (sound.parents under) held).2
      self
  · exact sound.acyclic (.single under)

theorem Tracked.carried_above (tracked : Tracked doclets ⟨last, last, last⟩ forest)
    (sound : forest.Sound) (plain : Plain doclets)
    (distinct : (doclets.map Doclet.longname).Nodup)
    (all : ∀ doclet ∈ doclets, doclet.longname ∈ last) (member : doclet ∈ doclets)
    (link : MemberOf doclets doclet parent) (carried : forest.Carried doclet.longname)
    : forest.Carried parent.longname := by
  have under := tracked.under distinct all member link
  obtain ⟨held, _⟩ := tracked.carried_holder sound plain distinct all member link carried
  unfold holder at under held
  split at under
  · rename_i beside
    rw [if_pos beside] at held
    exact (tracked.carried_of_namespace sound plain distinct link.1 (sound.parents under) held).1
  · rename_i inside
    rwa [if_neg inside] at held

/-- A carried doclet is exposed, by induction along what it is a member of. -/
theorem Tracked.exposed_of_carried (tracked : Tracked doclets ⟨last, last, last⟩ forest)
    (sound : forest.Sound) (plain : Plain doclets)
    (distinct : (doclets.map Doclet.longname).Nodup)
    (all : ∀ doclet ∈ doclets, doclet.longname ∈ last) (member : doclet ∈ doclets)
    (carried : forest.Carried doclet.longname)
    : Exposed doclets doclet := by
  have above (upper : Doclet) (line : ReflTransGen (MemberOf doclets) doclet upper)
      : upper ∈ doclets ∧ forest.Carried upper.longname := by
    induction line with
    | refl => exact ⟨member, carried⟩
    | tail _ link ih =>
        exact ⟨link.1, tracked.carried_above sound plain distinct all ih.1 link ih.2⟩
  constructor
  · intro upper line
    obtain ⟨upperMember, upperCarried⟩ := above upper line
    exact tracked.notOwn_of_carried sound plain distinct all upperMember upperCarried
  · intro upper line
    obtain ⟨lower, rest, link⟩ := TransGen.tail'_iff.mp line
    obtain ⟨lowerMember, lowerCarried⟩ := above lower rest
    exact (tracked.carried_holder sound plain distinct all lowerMember link lowerCarried).2

-----------------------------------------------------------------------------------------
-- Nothing is lost without a warning but for what is hidden
-----------------------------------------------------------------------------------------

/-- Where nothing is warned about and no doclet is a member of an enumeration, the parts of the
declarations come from doclets, and exactly the carried ones are declared. Of plain doclets these
are the exposed ones.
Witness: without a warning a plain doclet is put to its place, and so what it is a member of is
above it in the forest.
-/
theorem declares_iff_exposed (settings : Settings) (doclets : List Doclet)
    (quiet : (declarations settings doclets).warnings = [])
    (noEnum
      : ∀ doclet ∈ survivors settings doclets,
          ∀ parent, MemberOf (survivors settings doclets) doclet parent → parent.isEnum = false)
    : let forest := ofDoclets settings doclets
      forest.origins.map Prod.snd = (declarations settings doclets).value.flatMap Decl.parts
      ∧ ∀ doclet ∈ survivors settings doclets,
          doclet.kind ≠ .event
          → doclet.kind ≠ .file
          → (forest.Declares doclet.longname ↔ forest.Carried doclet.longname)
            ∧ (Plain doclets
              → (forest.Declares doclet.longname
                  ↔ Exposed (survivors settings doclets) doclet)) := by
  intro forest
  have sound : forest.Sound := ofDoclets_sound settings doclets
  obtain ⟨linking, declaring⟩ : forest.warnings = [] ∧ forest.statements.warnings = [] :=
    List.append_eq_nil_iff.mp (warnings_declarations settings doclets ▸ quiet)
  rw [value_declarations]
  refine ⟨map_snd_origins declaring, fun doclet member notEvent notFile => ?_⟩
  have distinct := nodup_survivors settings doclets
  obtain ⟨node, found, same⟩ :=
    Changes.keeps (links_changes ((survivors settings doclets).map Doclet.longname) _ _)
      (find?_scattered distinct member)
  have kind : node.doclet.kind = doclet.kind := same.kind_eq
  have declared : node.doclet.kind.isDeclared = true := by
    rw [kind]
    exact Doclet.Kind.isDeclared_iff.mpr ⟨notEvent, notFile, kind_ne_package member⟩
  have carried := declares_iff sound found declared
  refine ⟨carried, fun plain => ?_⟩
  have plainSurvivors := plain.survivors settings
  obtain ⟨last, all, tracked⟩ := tracked_of_quiet settings plain noEnum linking
  rw [carried]
  constructor
  · exact tracked.exposed_of_carried sound plainSurvivors distinct all member
  · exact tracked.carried_of_exposed sound plainSurvivors distinct all _ doclet member (.inl rfl)
      (has_of_find? found)

/-- A member of a namespace is declared, but not a class in itself nor a function in a function. -/
theorem declares_iff_exposed_hidden
    : let own : Doclet := { kind := .class, name := "A", longname := "A", memberof := some "A" }
      let outer : Doclet := { kind := .function, name := "f", longname := "f" }
      let inner : Doclet :=
        { kind := .function, name := "g", longname := "f~g", memberof := some "f" }
      let space : Doclet := { kind := .namespace, name := "N", longname := "N" }
      let helper : Doclet :=
        { kind := .function, name := "h", longname := "N.h", memberof := some "N" }
      let doclets := [own, outer, inner, space, helper]
      let forest := ofDoclets {} doclets
      Plain doclets
      ∧ (declarations {} doclets).warnings = []
      ∧ (∀ doclet ∈ survivors {} doclets,
          ∀ parent, MemberOf (survivors {} doclets) doclet parent → parent.isEnum = false)
      ∧ forest.Declares helper.longname
      ∧ ¬forest.Declares own.longname
      ∧ ¬forest.Declares inner.longname := by
  intro own outer inner space helper doclets forest
  have kept : survivors {} doclets = doclets := by rfl
  have plain : Plain doclets := plain_of_short (by decide)
  have quiet : (declarations {} doclets).warnings = [] := by decide +kernel
  have noEnum
      : ∀ doclet ∈ survivors {} doclets,
          ∀ parent, MemberOf (survivors {} doclets) doclet parent → parent.isEnum = false := by
    have none : ∀ parent ∈ survivors {} doclets, parent.isEnum = false := by decide
    exact fun _ _ parent link => none parent link.1
  obtain ⟨_, declares⟩ := declares_iff_exposed {} doclets quiet noEnum
  rw [kept] at declares
  have distinct : (doclets.map Doclet.longname).Nodup := by decide
  refine ⟨plain, quiet, noEnum, ?declared, ?own, ?inner⟩
  case declared =>
    refine ((declares helper (by simp [doclets]) nofun nofun).2 plain).mpr ?_
    have link : MemberOf doclets helper space := ⟨by simp [doclets], rfl⟩
    exact exposed_of_above distinct link (by decide) rfl (exposed_of_root rfl)
  case own =>
    intro declared
    have exposed := ((declares own (by simp [doclets]) nofun nofun).2 plain).mp declared
    exact exposed.notOwn own .refl rfl
  case inner =>
    intro declared
    have exposed := ((declares inner (by simp [doclets]) nofun nofun).2 plain).mp declared
    have link : MemberOf doclets inner outer := ⟨by simp [doclets], rfl⟩
    cases exposed.bodies outer (.single link)

end Typings.Forest
