import Typings.Proofs.Declarations.Origins
import Typings.Proofs.Forest.Frames

/-! Modules in the bodies of declarations. A module in another one becomes a namespace, but a module
in a class, interface or mixin goes to the namespace beside that and stays a module there.
-/

namespace Typings

open Noted

-----------------------------------------------------------------------------------------
-- Pieces that are modules
-----------------------------------------------------------------------------------------

namespace Doclet

variable {doclet : Doclet} {nested : Bool} {body : Body} {pieces : List Piece}

/-- Only modules and namespaces are declared with statements in their bodies. -/
theorem decl_of_statements {decl : Decl}
    (made : (doclet.piece nested body pieces).value = some (.statement decl))
    (holds : decl.body? = some .statements)
    : doclet.kind = .module ∧ decl = (doclet.moduleDecl nested pieces).value
      ∨ doclet.kind = .namespace ∧ decl = (doclet.namespaceDecl nested pieces).value := by
  cases kind : doclet.kind
  all_goals
    simp only [Doclet.piece, kind] at made
  case «module» =>
    cases made
    exact .inl ⟨rfl, rfl⟩
  case «namespace» =>
    cases made
    exact .inr ⟨rfl, rfl⟩
  case member | constant =>
    split at made
    · cases made
      cases holds
    · cases body with
      | statements =>
          simp only [valuePiece, map_value, variableDecl] at made
          split at made
          all_goals
            cases made
            cases holds
      | «class» | interface => cases made
  case function | callback =>
    cases body with
    | statements =>
        cases made
        cases holds
    | «class» | interface => cases made
  case package | event | file => cases made
  all_goals
    cases made
    cases holds

/-- Only a module that is not nested is declared as one. -/
theorem unnested_of_piece {head : Decl.Head} {items : List Decl}
    (made : (doclet.piece nested body pieces).value = some (.statement (.module head items)))
    : doclet.kind = .module ∧ nested = false := by
  rcases decl_of_statements made rfl with ⟨isModule, same⟩ | ⟨-, same⟩
  · cases nested with
    | true => cases same
    | false => exact ⟨isModule, rfl⟩
  · cases same

theorem piece_of_unnested (isModule : doclet.kind = .module)
    : ∃ head items,
        (doclet.piece false body pieces).value = some (.statement (.module head items)) := by
  simp only [Doclet.piece, isModule]
  exact ⟨_, _, rfl⟩

end Doclet

/-- A module stands in the body of a declaration, at some depth. -/
def Decl.HoldsModule (decl : Decl) : Prop :=
  ∃ head items, .statement (.module head items) ∈ decl.entries.flatMap Piece.parts

namespace Forest

open Branch

variable {settings : Settings} {doclets : List Doclet} {forest : Forest}
variable {doclet parent : Doclet} {name upper : String} {node : Node}

-----------------------------------------------------------------------------------------
-- Where modules in bodies come from
-----------------------------------------------------------------------------------------

/-- The node of a module is that of the doclet of its longname: helpers are no modules. -/
theorem Sourced.doclet_of_module (sourced : Sourced doclets forest)
    (found : forest.find? name = some node) (isModule : node.doclet.kind = .module)
    : ∃ doclet ∈ doclets, doclet.longname = name ∧ SameDoclet node { doclet } := by
  rcases sourced.origin found with ⟨doclet, listed, same⟩ | ⟨_, _, helper, added, same⟩
  · exact ⟨doclet, listed, same.longname_eq.symm.trans (longname_of_find? found), same⟩
  · rw [same.kind_eq] at isModule
    cases added <;> cases isModule

/-- A declaration that holds a module has it from a module that is declared, not nested, and stands
in a body.
-/
theorem exists_doclet_of_holdsModule {decl : Decl}
    (declared : decl ∈ (declarations settings doclets).value) (holds : decl.HoldsModule)
    : let forest := ofDoclets settings doclets
      ∃ doclet ∈ survivors settings doclets,
        doclet.kind = .module
        ∧ forest.Declares doclet.longname
        ∧ ∃ node upper,
            forest.find? doclet.longname = some node
            ∧ node.nested = false
            ∧ forest.StandsInBody doclet.longname upper := by
  intro forest
  have sound : forest.Sound := ofDoclets_sound settings doclets
  obtain ⟨head, items, mem⟩ := holds
  obtain ⟨name, node, upper, found, ⟨body, pieces, made⟩, stands, root, isRoot, line⟩ :=
    exists_node_of_inside declared mem
  obtain ⟨isModule, unnested⟩ := Doclet.unnested_of_piece made
  have isDeclared : node.doclet.kind.isDeclared = true := by rw [isModule]; rfl
  have declares : forest.Declares name :=
    (declares_iff sound found isDeclared).mpr ⟨root, isRoot, .head stands line⟩
  obtain ⟨doclet, listed, rfl, same⟩ :=
    (sourced_ofDoclets settings doclets).doclet_of_module found isModule
  exact ⟨doclet, listed, same.kind_eq.symm.trans isModule, declares, node, upper, found, unnested,
    stands⟩

-----------------------------------------------------------------------------------------
-- Modules outside all classes
-----------------------------------------------------------------------------------------

/-- The doclet is no member of a class, interface or mixin, nor of a namespace that helps one, and
does not have the longname of such a namespace itself.
-/
structure Outside (doclets : List Doclet) (doclet : Doclet) : Prop where
  plain : ¬ Reserved doclet.longname
  parents
    : ∀ name,
        doclet.memberof = some name
        → ¬ Reserved name
          ∧ ∀ parent ∈ doclets, parent.longname = name → parent.kind.isClassLike = false

/-- The node of a module is nested, or stands in no body. -/
def KeptOut (doclets : List Doclet) (node : Node) : Prop :=
  node.nested = true
  ∨ ∀ upper,
      node.place = .under upper
      → ∃ parent ∈ doclets, parent.longname = upper ∧ parent.kind.hasBody = false

/-- The doclet has its own node, which is kept out of bodies. -/
def Guards (doclets : List Doclet) (doclet : Doclet) (forest : Forest) : Prop :=
  ∃ node,
    forest.find? doclet.longname = some node
    ∧ node.role = none
    ∧ node.doclet = doclet
    ∧ KeptOut doclets node

theorem find?_addRoot_own (found : forest.find? name = some node) (role : node.role = none)
    : ∃ place,
        (forest.addRoot name).find? name = some { node with place }
        ∧ (place = node.place ∨ place = .root) := by
  unfold addRoot
  split
  · exact ⟨node.place, found, .inl rfl⟩
  · refine ⟨.root, ?_, .inr rfl⟩
    rw [find?_moveLast (by simp), if_pos rfl, found, Option.map_some, settled_of_role role]

theorem find?_attach_own (found : forest.find? name = some node) (role : node.role = none)
    (parent : String)
    : ∃ place,
        (forest.attach parent name).find? name = some { node with place }
        ∧ (place = node.place ∨ place = .under parent) := by
  unfold attach
  split
  · exact ⟨node.place, found, .inl rfl⟩
  · split
    · exact ⟨node.place, found, .inl rfl⟩
    · refine ⟨.under parent, ?_, .inr rfl⟩
      rw [find?_moveLast (by simp), if_pos rfl, found, Option.map_some, settled_of_role role]

/-- A module that stands nowhere is guarded when it goes under what is no class, interface or mixin:
either that has no body, or it is a module or a namespace itself.
-/
theorem guards_linkUnder (found : forest.find? doclet.longname = some node)
    (role : node.role = none) (sameDoclet : node.doclet = doclet) (loose : node.place = .nowhere)
    (isModule : doclet.kind = .module) {holder : Node}
    (listed : parent ∈ doclets) (sameHolder : SameDoclet holder { doclet := parent })
    (noClass : parent.kind.isClassLike = false)
    : Guards doclets doclet (forest.linkUnder holder [] doclet) := by
  have sameKind : holder.doclet.kind = parent.kind := sameHolder.kind_eq
  unfold linkUnder
  rw [sameKind, noClass, Bool.false_and, if_neg Bool.false_ne_true]
  split
  · refine ⟨node, found, role, sameDoclet, .inr fun upper place => ?_⟩
    cases loose.symm.trans place
  · rw [isModule]
    cases moduleLike : parent.kind.isModuleLike with
    | true =>
        have nested
            : (forest.modify doclet.longname fun node => { node with nested := true }).find?
                doclet.longname
              = some { node with nested := true } := by
          rw [find?_modify (by intro _; rfl), if_pos rfl, found, Option.map_some]
        obtain ⟨place, placed, -⟩ := find?_attach_own nested role holder.longname
        exact ⟨_, placed, role, sameDoclet, .inl rfl⟩
    | false =>
        obtain ⟨place, placed, either⟩ := find?_attach_own found role holder.longname
        refine ⟨_, placed, role, sameDoclet, .inr fun upper isPlace => ?_⟩
        rcases either with same | same
        · cases (loose.symm.trans same.symm).trans isPlace
        · obtain rfl := Place.under.inj (same.symm.trans isPlace)
          exact ⟨parent, listed, sameHolder.longname_eq.symm, by
            simp [Doclet.Kind.hasBody, noClass, moduleLike]⟩

/-- A module outside all classes is guarded when it is linked. -/
theorem Outside.guards_link (outside : Outside doclets doclet) (sourced : Sourced doclets forest)
    (isModule : doclet.kind = .module) (found : forest.find? doclet.longname = some node)
    (role : node.role = none) (sameDoclet : node.doclet = doclet) (loose : node.place = .nowhere)
    (names : List String)
    : Guards doclets doclet (link names forest doclet.longname) := by
  have unplaced : KeptOut doclets node := .inr fun upper place => by
    cases loose.symm.trans place
  have noClass : doclet.kind.isClassLike = false := by simp [isModule, Doclet.Kind.isClassLike]
  have asked : forest.memberof? doclet.longname = doclet.memberof := by
    simp [memberof?, found, sameDoclet]
  unfold link
  rw [found]
  dsimp only
  rw [sameDoclet, addHelpers_bare noClass]
  simp only [asked]
  cases names : doclet.memberof with
  | none =>
      obtain ⟨place, placed, either⟩ := find?_addRoot_own found role
      refine ⟨_, placed, role, sameDoclet, .inr fun upper isPlace => ?_⟩
      rcases either with same | same
      · cases (loose.symm.trans same.symm).trans isPlace
      · cases same.symm.trans isPlace
  | some upper =>
      dsimp only
      cases upperFound : forest.find? upper with
      | none => exact ⟨node, found, role, sameDoclet, unplaced⟩
      | some holder =>
          obtain ⟨plain, noClasses⟩ := outside.parents upper names
          obtain ⟨parent, listed, same, sameHolder⟩ := sourced.doclet_of_plain upperFound plain
          exact guards_linkUnder found role sameDoclet loose isModule listed sameHolder
            (noClasses parent listed same)

/-- The node of a doclet outside all classes stays as it is while others are linked. -/
theorem Outside.find?_link (outside : Outside doclets doclet) (sourced : Sourced doclets forest)
    (found : forest.find? doclet.longname = some node) (sameDoclet : node.doclet = doclet)
    {other : Doclet} (member : other ∈ doclets) (different : doclet.longname ≠ other.longname)
    : (link (doclets.map Doclet.longname) forest other.longname).find? doclet.longname
      = some node := by
  obtain ⟨otherNode, otherFound, same⟩ := sourced.own other member
  -- Linking moves static members of interfaces and mixins only.
  have unmoved (interfaceLike : otherNode.doclet.kind.isInterfaceLike = true)
      : doclet.longname
        ∉ forest.statics (doclets.map Doclet.longname) other.longname := by
    intro static
    simp only [statics, List.mem_filter, found, sameDoclet, Bool.and_eq_true, beq_iff_eq] at static
    have noClass := (outside.parents _ static.2.2).2 other member rfl
    rw [same.kind_eq] at interfaceLike
    cases noClass.symm.trans (Doclet.Kind.isClassLike_of_isInterfaceLike interfaceLike)
  cases interfaceLike : otherNode.doclet.kind.isInterfaceLike with
  | true =>
      have spares := spares_link (doclets.map Doclet.longname) otherFound fun _ =>
        List.Subset.refl _
      rw [spares.same _ ?_ outside.plain, found]
      exact List.mem_cons.not.mpr (not_or.mpr ⟨different, unmoved interfaceLike⟩)
  | false =>
      have spares
          : Spares otherNode.doclet [other.longname] forest
              (link (doclets.map Doclet.longname) forest other.longname) :=
        spares_link _ otherFound fun isInterface => by cases interfaceLike.symm.trans isInterface
      rw [spares.same _ ?_ outside.plain, found]
      exact List.mem_singleton.not.mpr different

/-- A module outside all classes is nested in the end, or stands in no body. -/
theorem Outside.guards_linkAll (outside : Outside doclets doclet)
    (distinct : (doclets.map Doclet.longname).Nodup) (member : doclet ∈ doclets)
    (isModule : doclet.kind = .module)
    : Guards doclets doclet (linkAll doclets) := by
  have run
      : Sourced doclets (linkAll doclets)
        ∧ (doclet.longname ∉ (doclets.map Doclet.longname).reverse
          → (linkAll doclets).find? doclet.longname = some { doclet })
        ∧ (doclet.longname ∈ (doclets.map Doclet.longname).reverse
          → Guards doclets doclet (linkAll doclets)) := by
    refine linking_induction distinct
      (motive := fun done forest => Sourced doclets forest
        ∧ (doclet.longname ∉ done → forest.find? doclet.longname = some { doclet })
        ∧ (doclet.longname ∈ done → Guards doclets doclet forest)) ?_ ?_
    · exact ⟨sourced_scattered distinct, fun _ => find?_scattered distinct member, nofun⟩
    · intro done forest other otherMember upTo ⟨sourced, waits, guarded⟩
      refine ⟨sourced.link otherMember, ?_, ?_⟩
      · intro unlinked
        obtain ⟨different, early⟩ := not_or.mp (List.mem_cons.not.mp unlinked)
        exact outside.find?_link sourced (waits early) rfl otherMember different
      · intro linked
        rcases List.mem_cons.mp linked with same | early
        · rw [← same]
          have new := upTo.new distinct otherMember
          exact outside.guards_link sourced isModule (waits (same ▸ new)) rfl rfl rfl _
        · obtain ⟨node, found, role, sameDoclet, kept⟩ := guarded early
          have different : doclet.longname ≠ other.longname := fun same =>
            upTo.new distinct otherMember (same ▸ early)
          exact ⟨node, outside.find?_link sourced found sameDoclet otherMember different, role,
            sameDoclet, kept⟩
  exact run.2.2 (longname_mem_reverse member)

/-- A module outside all classes stands in no body without being nested. -/
theorem Outside.nested_of_standsInBody (outside : Outside (survivors settings doclets) doclet)
    (member : doclet ∈ survivors settings doclets) (isModule : doclet.kind = .module)
    (found : (ofDoclets settings doclets).find? doclet.longname = some node)
    (stands : (ofDoclets settings doclets).StandsInBody doclet.longname upper)
    : node.nested = true := by
  obtain ⟨own, ownFound, -, -, kept⟩ :=
    outside.guards_linkAll (nodup_survivors settings doclets) member isModule
  rw [← ofDoclets_eq] at ownFound
  cases ownFound.symm.trans found
  refine kept.resolve_right fun unplaced => ?_
  obtain ⟨under, holder, held, hasBody⟩ := stands
  obtain ⟨own, ownFound, place⟩ := parent?_eq_some_iff.mp under
  cases ownFound.symm.trans found
  obtain ⟨parent, listed, rfl, noBody⟩ := unplaced upper place
  obtain ⟨parentNode, parentFound, same⟩ := (sourced_ofDoclets settings doclets).own parent listed
  cases parentFound.symm.trans held
  rw [same.kind_eq] at hasBody
  cases noBody.symm.trans hasBody

-----------------------------------------------------------------------------------------
-- Modules of plain doclets
-----------------------------------------------------------------------------------------

/-- The doclet is a member of a class, interface or mixin, and no static one of an interface or
mixin that comes before it.
-/
def InClass (doclets : List Doclet) (doclet : Doclet) : Prop :=
  ∃ parent,
    MemberOf doclets doclet parent
    ∧ parent.kind.isClassLike = true
    ∧ ¬ (StaticOf doclets parent doclet ∧ Precedes doclets parent doclet)

/-- A module of plain doclets that is not nested and stands in a body is one in a class. -/
theorem SettledUpTo.inClass (settled : Settled doclets forest) (plain : Plain doclets)
    (distinct : (doclets.map Doclet.longname).Nodup) (member : doclet ∈ doclets)
    (isModule : doclet.kind = .module) (found : forest.find? doclet.longname = some node)
    (unnested : node.nested = false) (stands : forest.StandsInBody doclet.longname upper)
    : InClass doclets doclet := by
  obtain ⟨own, ownFound, isOwn⟩ := settled.charted.own doclet member
  cases ownFound.symm.trans found
  obtain ⟨under, holderNode, held, hasBody⟩ := stands
  obtain ⟨own, ownFound, place⟩ := parent?_eq_some_iff.mp under
  cases ownFound.symm.trans found
  have lands := settled.lands plain distinct member (.inl rfl) found
  rw [place] at lands
  obtain ⟨parent, joins, rfl⟩ := lands.joins_of_under
  have notNested {nests : Prop} (either : nests → Nests doclets doclet) : ¬ nests := by
    intro holds
    have nested := isOwn.nested_iff.mpr ⟨longname_mem_reverse member, either holds⟩
    cases unnested.symm.trans nested
  have moduleLike : doclet.kind.isModuleLike = true := by rw [isModule]; rfl
  refine ⟨parent, joins.1, ?_, notNested fun static => ⟨moduleLike, parent, joins.1, .inr static⟩⟩
  have notModule : ¬ parent.kind.isModuleLike = true :=
    notNested fun inModule => ⟨moduleLike, parent, joins.1, .inl inModule⟩
  rcases holder_cases (doclets.map Doclet.longname).reverse parent doclet with body | container
  · rw [body] at held
    obtain ⟨parentNode, parentFound, isParent⟩ := settled.charted.own parent joins.1.1
    cases parentFound.symm.trans held
    obtain ⟨memberof, parent_eq, -⟩ := isParent.doclet_eq
    rw [parent_eq, Doclet.Kind.hasBody, Bool.or_eq_true] at hasBody
    exact hasBody.resolve_right notModule
  · rw [container] at held
    exact (settled.charted.namespace_of plain distinct joins.1.1 held).1.isClassLike

/-- A module in a class is not nested, and stands in the body of a carried node if it is carried. -/
theorem SettledUpTo.unnested_of_inClass (settled : Settled doclets forest) (plain : Plain doclets)
    (distinct : (doclets.map Doclet.longname).Nodup) (member : doclet ∈ doclets)
    (inClass : InClass doclets doclet) (found : forest.find? doclet.longname = some node)
    (carried : forest.Carried doclet.longname)
    : node.nested = false
      ∧ ∃ upper, forest.StandsInBody doclet.longname upper ∧ forest.Carried upper := by
  obtain ⟨parent, link, classLike, notStatic⟩ := inClass
  obtain ⟨own, ownFound, isOwn⟩ := settled.charted.own doclet member
  cases ownFound.symm.trans found
  constructor
  · rw [Bool.eq_false_iff]
    intro nested
    obtain ⟨-, -, other, otherLink, either⟩ := isOwn.nested_iff.mp nested
    cases link.unique distinct otherLink
    refine notStatic (either.resolve_left fun moduleLike => ?_)
    cases (Doclet.Kind.isModuleLike_eq_false_of_isClassLike classLike).symm.trans moduleLike
  · rcases (carried_iff settled.sound found).mp carried
      with root | ⟨upper, holderNode, place, held, hasBody, higher⟩
    · have lands := settled.lands plain distinct member (.inl rfl) found
      rw [root, isOwn.role] at lands
      cases lands with
      | root free => cases free.symm.trans link.2
    · exact ⟨upper, ⟨parent?_eq_some_iff.mpr ⟨node, found, place⟩, holderNode, held, hasBody⟩,
        higher⟩

-----------------------------------------------------------------------------------------
-- All modules in bodies
-----------------------------------------------------------------------------------------

/-- A module stands in the body of a declaration only if some module that is declared is not outside
all classes. Of plain doclets there is one in a body exactly if a module in a class is declared.
Witness: linking marks a module as nested when it puts it under a module or a namespace, but not
when it puts it to the namespace beside a class.
-/
theorem holdsModule_iff_inClass (settings : Settings) (doclets : List Doclet)
    : let kept := survivors settings doclets
      let forest := ofDoclets settings doclets
      ((∃ decl ∈ (declarations settings doclets).value, decl.HoldsModule)
        → ∃ doclet ∈ kept,
            doclet.kind = .module ∧ forest.Declares doclet.longname ∧ ¬ Outside kept doclet)
      ∧ (Plain doclets
        → ((∃ decl ∈ (declarations settings doclets).value, decl.HoldsModule)
          ↔ ∃ doclet ∈ kept,
              doclet.kind = .module
              ∧ forest.Declares doclet.longname
              ∧ InClass kept doclet)) := by
  intro kept forest
  have distinct := nodup_survivors settings doclets
  have sound : forest.Sound := ofDoclets_sound settings doclets
  refine ⟨?_, fun plain => ⟨?_, ?_⟩⟩
  · rintro ⟨decl, declared, holds⟩
    obtain ⟨doclet, listed, isModule, declares, node, upper, found, unnested, stands⟩ :=
      exists_doclet_of_holdsModule declared holds
    refine ⟨doclet, listed, isModule, declares, fun outside => ?_⟩
    cases unnested.symm.trans (outside.nested_of_standsInBody listed isModule found stands)
  · rintro ⟨decl, declared, holds⟩
    obtain ⟨doclet, listed, isModule, declares, node, upper, found, unnested, stands⟩ :=
      exists_doclet_of_holdsModule declared holds
    exact ⟨doclet, listed, isModule, declares, (settled_ofDoclets settings plain).inClass
      (plain.survivors settings) distinct listed isModule found unnested stands⟩
  · rintro ⟨doclet, listed, isModule, declares, inClass⟩
    obtain ⟨node, found, same⟩ := (sourced_ofDoclets settings doclets).own doclet listed
    have nodeModule : node.doclet.kind = .module := same.kind_eq.trans isModule
    have isDeclared : node.doclet.kind.isDeclared = true := by rw [nodeModule]; rfl
    obtain ⟨unnested, upper, stands, carried⟩ :=
      (settled_ofDoclets settings plain).unnested_of_inClass (plain.survivors settings) distinct
        listed inClass found ((declares_iff sound found isDeclared).mp declares)
    have fits (branch : Branch) (inside : branch ∈ forest.branches.flatMap within)
        : branch.Fits :=
      fun _ => (hasRoom sound (ofDoclets_contents settings plain) inside).fits
    obtain ⟨decl, declared, piece, mem, body, pieces, made⟩ :=
      exists_inside_of_node fits found isDeclared stands carried
    obtain ⟨head, items, isPiece⟩ := Doclet.piece_of_unnested nodeModule
    rw [unnested, isPiece] at made
    cases made
    exact ⟨decl, declared, head, items, mem⟩

/-- A module in a class is held by the namespace beside that, and one in a module by nothing. -/
theorem holdsModule_iff_inClass_companion
    : let owner : Doclet := { kind := .class, name := "A", longname := "A" }
      let inner : Doclet :=
        { kind := .module, name := "m", longname := "module:m", memberof := some "A" }
      let outer : Doclet := { kind := .module, name := "n", longname := "module:n" }
      let nested : Doclet :=
        { kind := .module, name := "o", longname := "module:o", memberof := some "module:n" }
      Plain [owner, inner]
      ∧ (∃ decl ∈ (declarations {} [owner, inner]).value, decl.HoldsModule)
      ∧ ¬ Outside (survivors {} [owner, inner]) inner
      ∧ Plain [outer, nested]
      ∧ ¬ ∃ decl ∈ (declarations {} [outer, nested]).value, decl.HoldsModule := by
  intro owner inner outer nested
  have kept : survivors {} [owner, inner] = [owner, inner] := by rfl
  have otherKept : survivors {} [outer, nested] = [outer, nested] := by rfl
  have plain : Plain [owner, inner] := plain_of_short (by decide)
  have otherPlain : Plain [outer, nested] := plain_of_short (by decide)
  have holds : ∃ decl ∈ (declarations {} [owner, inner]).value, decl.HoldsModule := by
    refine ((holdsModule_iff_inClass {} [owner, inner]).2 plain).mpr ?_
    rw [kept]
    have declares : Origin.doclet inner.longname
        ∈ (ofDoclets {} [owner, inner]).origins.map Prod.fst := by
      decide +kernel
    refine ⟨inner, by simp, rfl, declares, owner, ⟨by simp, rfl⟩, rfl, ?_⟩
    rintro ⟨⟨-, interfaceLike, -⟩, -⟩
    cases interfaceLike
  refine ⟨plain, holds, ?_, otherPlain, ?_⟩
  · obtain ⟨doclet, listed, isModule, -, inside⟩ :=
      (holdsModule_iff_inClass {} [owner, inner]).1 holds
    rw [kept] at listed
    simp only [List.mem_cons, List.not_mem_nil, or_false] at listed
    rcases listed with rfl | rfl
    · cases isModule
    · exact inside
  · intro holds
    obtain ⟨doclet, listed, isModule, -, parent, link, classLike, -⟩ :=
      ((holdsModule_iff_inClass {} [outer, nested]).2 otherPlain).mp holds
    have noClass : ∀ parent ∈ survivors {} [outer, nested], parent.kind.isClassLike = false := by
      rw [otherKept]
      decide
    cases (noClass parent link.1).symm.trans classLike

end Forest

end Typings
