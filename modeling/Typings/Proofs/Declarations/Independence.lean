import Typings.Proofs.Declarations.Bodies
import Typings.Proofs.Declarations.Lines
import Typings.Proofs.Forest.Interleaving

/-! Doclets are declared as they are without others that have nothing to do with them, in whatever
way the two are interleaved.
-/

namespace Typings.Forest

open Relation

variable {side : String → Bool} {late : Prop} {whole part rest forest : Forest} {name : String}
variable {left right both : List Doclet} {settings : Settings} {doclet : Doclet}

-----------------------------------------------------------------------------------------
-- The branches on one side
-----------------------------------------------------------------------------------------

theorem Parted.mem_of_mem_part (parted : Parted side late whole part rest) {node : Node}
    (member : node ∈ part.nodes)
    : node ∈ whole.nodes ∧ side node.longname = true := by
  rw [← parted.inside] at member
  exact List.mem_filter.mp member

/-- Nothing from the other side stands under a node on this one. -/
theorem Parted.children_eq (parted : Parted side late whole part rest) (here : side name = true)
    : whole.children name = part.children name := by
  have inside : (whole.children name).filter (fun node => side node.longname)
      = part.children name :=
    parted.standingAt_eq (.under name)
  rw [← inside, eq_comm, List.filter_eq_self]
  intro node listed
  rw [← Bool.not_eq_false]
  intro elsewhere
  have known : node ∈ rest.children name := by
    rw [children, ← parted.swap.standingAt_eq]
    exact List.mem_filter.mpr ⟨listed, by simp [elsewhere]⟩
  have under := parted.restSound.parents (standsUnder_of_mem_children parted.restSound known)
  simpa [here] using parted.swap.here under

/-- The branch of a node on one side is the one in the part there, by induction on the nodes below
it.
-/
theorem Parted.branch_eq (parted : Parted side late whole part rest) {node : Node}
    (member : node ∈ part.nodes)
    : whole.whole node = part.whole node := by
  induction node, member using parted.partSound.children_induction with
  | step node member ih =>
    obtain ⟨known, here⟩ := parted.mem_of_mem_part member
    rw [whole_eq parted.sound known, whole_eq parted.partSound member, parted.children_eq here]
    congr 1
    exact List.map_congr_left ih

theorem Parted.map_roots (parted : Parted side late whole part rest)
    : part.roots.map whole.whole = part.branches :=
  List.map_congr_left fun _ listed => parted.branch_eq (mem_roots.mp listed).1

/-- The branches on one side are those of the part there. -/
theorem Parted.filter_branches (parted : Parted side late whole part rest)
    : whole.branches.filter (fun branch => side branch.longname) = part.branches := by
  rw [branches_eq, List.filter_map, ← parted.map_roots, ← parted.filter_roots]
  simp [Function.comp_def]

theorem Parted.branches_append (parted : Parted side late whole part rest)
    (roots_eq : whole.roots = part.roots ++ rest.roots)
    : whole.branches = part.branches ++ rest.branches := by
  rw [branches_eq, roots_eq, List.map_append, parted.map_roots, parted.swap.map_roots]

-----------------------------------------------------------------------------------------
-- The declarations on one side
-----------------------------------------------------------------------------------------

/-- The declarations of a forest, each with the longname of the root that it comes from. -/
def rooted (forest : Forest) : List (String × Decl) :=
  forest.branches.flatMap fun branch =>
    (statementsOfRoot branch).value.map fun decl => (branch.longname, decl)

theorem map_snd_rooted (forest : Forest)
    : forest.rooted.map Prod.snd = forest.statements.value := by
  rw [rooted, statements, Noted.map_value, Noted.mapM_value, List.map_flatMap, List.flatMap_def]
  simp [Function.comp_def]

theorem warnings_statements (forest : Forest)
    : forest.statements.warnings
      = forest.branches.flatMap fun branch => (statementsOfRoot branch).warnings := by
  rw [statements, Noted.map_warnings, Noted.mapM_warnings]

/-- A test of what is made of each item that only depends on the item can be made before. -/
theorem filter_flatMap {α β : Type} {items : List α} {f : α → List β} {test : β → Bool}
    (before : α → Bool) (same : ∀ item ∈ items, ∀ made ∈ f item, test made = before item)
    : (items.flatMap f).filter test = (items.filter before).flatMap f := by
  induction items with
  | nil => rfl
  | cons item items ih =>
      have below := ih fun other listed => same other (List.mem_cons_of_mem _ listed)
      have own := same item List.mem_cons_self
      rw [List.flatMap_cons, List.filter_append, below, List.filter_cons]
      cases passes : before item with
      | true =>
          rw [List.filter_eq_self.mpr fun made listed => (own made listed).trans passes]
          simp
      | false =>
          rw [List.filter_eq_nil_iff.mpr fun made listed => by simp [own made listed, passes]]
          simp

/-- The declarations that come from roots on one side are those of the part there. -/
theorem Parted.filter_rooted (parted : Parted side late whole part rest)
    : whole.rooted.filter (fun entry => side entry.1) = part.rooted := by
  have byRoot : ∀ branch ∈ whole.branches,
      ∀ entry ∈ (statementsOfRoot branch).value.map fun decl => (branch.longname, decl),
        side entry.1 = side branch.longname := by
    intro branch _ entry listed
    obtain ⟨decl, _, rfl⟩ := List.mem_map.mp listed
    rfl
  rw [rooted, filter_flatMap (fun branch => side branch.longname) byRoot, parted.filter_branches,
    rooted]

theorem Parted.warnings_statements_perm (parted : Parted side late whole part rest)
    : whole.statements.warnings.Perm (part.statements.warnings ++ rest.statements.warnings) := by
  have split : (part.branches ++ rest.branches).Perm whole.branches := by
    rw [← parted.filter_branches, ← parted.swap.filter_branches]
    exact List.filter_append_perm _ _
  rw [warnings_statements, warnings_statements, warnings_statements, ← List.flatMap_append]
  exact split.symm.flatMap_right _

theorem Parted.warnings_perm (parted : Parted side late whole part rest)
    : (whole.warnings ++ whole.statements.warnings).Perm
        ((part.warnings ++ part.statements.warnings)
          ++ (rest.warnings ++ rest.statements.warnings)) := by
  have linking := parted.warnings.trans List.perm_append_comm
  refine (linking.append parted.warnings_statements_perm).trans ?_
  simp only [List.append_assoc]
  refine List.Perm.append_left _ ?_
  simp only [← List.append_assoc]
  exact List.perm_append_comm.append_right _

/-- Where the roots of two parts come one after the other, so do their declarations. -/
theorem Parted.statements_append (parted : Parted side late whole part rest)
    (roots_eq : whole.roots = part.roots ++ rest.roots)
    : whole.statements.value = part.statements.value ++ rest.statements.value := by
  rw [← map_snd_rooted, ← map_snd_rooted, ← map_snd_rooted, rooted,
    parted.branches_append roots_eq, List.flatMap_append, List.map_append, rooted, rooted]

-----------------------------------------------------------------------------------------
-- A doclet whose parent is not there
-----------------------------------------------------------------------------------------

/-- A doclet alone whose parent is not there makes no root, and one warning. -/
theorem linkAll_orphan {absent : String} (plain : Plain [doclet])
    (names : doclet.memberof = some absent) (apart : absent ≠ doclet.longname)
    : (linkAll [doclet]).roots = []
      ∧ (linkAll [doclet]).warnings = [.noParent doclet.longname absent] := by
  have distinct : ([doclet].map Doclet.longname).Nodup := List.nodup_singleton _
  have member : doclet ∈ [doclet] := List.mem_cons_self
  have alone (parent : Doclet) : ¬ MemberOf [doclet] doclet parent := by
    rintro ⟨isDoclet, isParent⟩
    cases List.mem_singleton.mp isDoclet
    exact apart (Option.some.inj (names.symm.trans isParent))
  constructor
  · have settled := settled_linkAll plain distinct
    refine List.filter_eq_nil_iff.mpr fun node listed isRoot => ?_
    have found := find?_of_mem settled.sound.distinct listed
    obtain ⟨owner, ownerMember, belongs⟩ := settled.belongs (has_of_find? found)
    cases List.mem_singleton.mp ownerMember
    have lands := settled.lands plain distinct member belongs found
    rw [eq_of_beq isRoot] at lands
    generalize node.role = role at lands
    cases lands with
    | root free => cases free.symm.trans names
    | parked link _ _ => exact alone _ link
  · have start := settled_scattered distinct
    have split : [doclet] = [] ++ doclet :: [] := rfl
    obtain ⟨last, helpers, _, warnings, linked⟩ :=
      start.charted.link_cases start.supplied start.sound plain distinct member
        (upTo_of_split split distinct)
    change Linked [doclet] [] doclet helpers last (linkAll [doclet]) at linked
    generalize linkAll [doclet] = forest at linked
    cases linked with
    | root free => cases free.symm.trans names
    | lost same _ =>
        cases names.symm.trans same
        rw [warnings_warn, warnings]
        rfl
    | dropped link _ => exact (alone _ link).elim
    | joined joins _ => exact (alone _ joins.1).elim

theorem declarations_orphan (settings : Settings) {absent : String} (plain : Plain [doclet])
    (admitted : settings.admits doclet = true) (names : doclet.memberof = some absent)
    (apart : absent ≠ doclet.longname)
    : (ofDoclets settings [doclet]).roots = []
      ∧ declarations settings [doclet] = ⟨[], [.noParent doclet.longname absent]⟩ := by
  have kept : survivors settings [doclet] = [doclet] := by
    simp [survivors, firsts, admitted]
  obtain ⟨noRoots, warned⟩ := linkAll_orphan plain names apart
  rw [← kept, ← ofDoclets_eq] at noRoots warned
  have silent : (ofDoclets settings [doclet]).statements = ⟨[], []⟩ := by
    rw [statements, branches_eq, noRoots]
    rfl
  refine ⟨noRoots, ?_⟩
  rw [declarations_eq, silent, warned]
  rfl

-----------------------------------------------------------------------------------------
-- Where roots come from
-----------------------------------------------------------------------------------------

instance (name owner : String) : Decidable (Belongs name owner) :=
  inferInstanceAs (Decidable (_ ∨ _ ∨ _))

/-- Whether a longname is that of one of the doclets or of a helper of one. -/
def comesFrom (doclets : List Doclet) (name : String) : Bool :=
  doclets.any fun doclet => Belongs name doclet.longname

theorem comesFrom_iff
    : comesFrom left name = true ↔ ∃ doclet ∈ left, Belongs name doclet.longname := by
  simp [comesFrom]

theorem comesFrom_of_has (settled : Settled (survivors settings left) part)
    (known : part.has name = true)
    : comesFrom left name = true := by
  obtain ⟨owner, member, belongs⟩ := settled.belongs known
  exact comesFrom_iff.mpr ⟨owner, mem_of_mem_survivors member, belongs⟩

theorem comesFrom_unrelated (plain : Plain left) (rightPlain : Plain right)
    (unrelated : Unrelated left right) (comes : comesFrom left name = true)
    : comesFrom right name = false := by
  rw [Bool.eq_false_iff]
  intro alsoComes
  obtain ⟨doclet, member, belongs⟩ := comesFrom_iff.mp comes
  obtain ⟨other, otherMember, otherBelongs⟩ := comesFrom_iff.mp alsoComes
  exact (unrelated doclet member other otherMember).1
    (belongs.unique (plain doclet member).1 (rightPlain other otherMember).1 otherBelongs)

/-- Every declaration comes from a root of the forest. -/
theorem has_of_mem_rooted {entry : String × Decl} (listed : entry ∈ forest.rooted)
    : forest.has entry.1 = true := by
  obtain ⟨branch, branchListed, made⟩ := List.mem_flatMap.mp listed
  obtain ⟨decl, _, rfl⟩ := List.mem_map.mp made
  obtain ⟨root, rootListed, rfl⟩ := List.mem_map.mp branchListed
  have known : forest.has root.longname = true :=
    has_iff_mem.mpr (List.mem_map_of_mem (mem_roots.mp rootListed).1)
  rwa [← longname_whole forest root] at known

-----------------------------------------------------------------------------------------
-- The declarations of interleaved doclets
-----------------------------------------------------------------------------------------

/-- What the declarations of interleaved doclets have to do with those of each list. -/
structure Independent (settings : Settings) (left right both : List Doclet) : Prop where
  /-- Every declaration comes from a root, and that from one of the lists. -/
  labelled : (ofDoclets settings both).rooted.map Prod.snd = (declarations settings both).value
  either
    : ∀ entry ∈ (ofDoclets settings both).rooted,
        comesFrom left entry.1 = !comesFrom right entry.1
  fromLeft
    : ((ofDoclets settings both).rooted.filter fun entry => comesFrom left entry.1).map Prod.snd
      = (declarations settings left).value
  fromRight
    : ((ofDoclets settings both).rooted.filter fun entry => comesFrom right entry.1).map Prod.snd
      = (declarations settings right).value
  warnings
    : (declarations settings both).warnings.Perm
        ((declarations settings left).warnings ++ (declarations settings right).warnings)
  /-- Doclets that follow others are declared behind those. -/
  appended
    : both = left ++ right
      → (declarations settings both).value
          = (declarations settings left).value ++ (declarations settings right).value
        ∧ (declarationText settings both).value
          = (declarationText settings left).value ++ (declarationText settings right).value
  /-- A doclet whose parent is not there adds a warning and nothing else. -/
  orphan
    : ∀ doclet absent,
        right = [doclet]
        → settings.admits doclet = true
        → doclet.memberof = some absent
        → absent ≠ doclet.longname
        → (declarations settings both).value = (declarations settings left).value
          ∧ (declarations settings both).warnings.Perm
              ((declarations settings left).warnings ++ [.noParent doclet.longname absent])

/-- A root comes from the list on whose side it is. -/
theorem comesFrom_of_parted (plain : Plain left) (rightPlain : Plain right)
    (unrelated : Unrelated left right) (settled : Settled (survivors settings left) part)
    (restSettled : Settled (survivors settings right) rest)
    (parted : Parted side late whole part rest) (known : whole.has name = true)
    : comesFrom left name = side name ∧ comesFrom right name = !side name := by
  cases here : side name with
  | true =>
      have comes := comesFrom_of_has settled ((parted.has_eq here).symm.trans known)
      exact ⟨comes, comesFrom_unrelated plain rightPlain unrelated comes⟩
  | false =>
      have elsewhere : (!side name) = true := by rw [here]; rfl
      have comes := comesFrom_of_has restSettled ((parted.swap.has_eq elsewhere).symm.trans known)
      exact ⟨comesFrom_unrelated rightPlain plain unrelated.swap comes, comes⟩

/-- Doclets are declared as they are without others that have nothing to do with them.
Witness: linking a doclet looks at nodes on its side only, so that it does the same to the forest
of all doclets as to that of its list, and no node stands under one on the other side.
-/
theorem independent_of_unrelated (settings : Settings) (interleaves : Interleaves left right both)
    (plain : Plain left) (rightPlain : Plain right) (unrelated : Unrelated left right)
    : Independent settings left right both := by
  have parted := parted_ofDoclets settings interleaves plain rightPlain unrelated
  have label {name : String} (known : (ofDoclets settings both).has name = true) :=
    comesFrom_of_parted plain rightPlain unrelated (settled_ofDoclets settings plain)
      (settled_ofDoclets settings rightPlain) parted known
  generalize sideOf (survivors settings left) = side at parted label
  have warnings
      : (declarations settings both).warnings.Perm
          ((declarations settings left).warnings ++ (declarations settings right).warnings) := by
    simp only [warnings_declarations]
    exact parted.warnings_perm
  have values
      (roots_eq
        : (ofDoclets settings both).roots
          = (ofDoclets settings left).roots ++ (ofDoclets settings right).roots)
      : (declarations settings both).value
        = (declarations settings left).value ++ (declarations settings right).value := by
    simp only [value_declarations]
    exact parted.statements_append roots_eq
  have rooted (doclets : List Doclet)
      : (ofDoclets settings doclets).rooted.map Prod.snd
        = (declarations settings doclets).value := by
    rw [value_declarations, map_snd_rooted]
  refine ⟨rooted both, ?either, ?left, ?right, warnings, ?appended, ?orphan⟩
  case either =>
    intro entry listed
    obtain ⟨fromLeft, fromRight⟩ := label (has_of_mem_rooted listed)
    rw [fromLeft, fromRight, Bool.not_not]
  case left =>
    rw [List.filter_congr fun entry listed => (label (has_of_mem_rooted listed)).1,
      parted.filter_rooted]
    exact rooted left
  case right =>
    rw [List.filter_congr fun entry listed => (label (has_of_mem_rooted listed)).2,
      parted.swap.filter_rooted]
    exact rooted right
  case appended =>
    rintro rfl
    have joined := values (roots_ofDoclets_append settings plain rightPlain unrelated)
    refine ⟨joined, ?_⟩
    rw [declarationText, Noted.map_value, joined, Layout.renderAll_append]
    rfl
  case orphan =>
    rintro doclet absent rfl admitted names apart
    obtain ⟨noRoots, alone⟩ := declarations_orphan settings rightPlain admitted names apart
    have roots_eq
        : (ofDoclets settings both).roots
          = (ofDoclets settings left).roots ++ (ofDoclets settings [doclet]).roots := by
      rw [parted.roots_eq_part noRoots, noRoots, List.append_nil]
    have joined := values roots_eq
    rw [alone] at joined warnings
    exact ⟨joined.trans (List.append_nil _), warnings⟩

/-- A class with its type between a namespace with its function and a doclet without a parent. -/
theorem independent_of_unrelated_class
    : let owner : Doclet := { kind := .class, name := "A", longname := "A" }
      let inner : Doclet :=
        { kind := .typedef, name := "T", longname := "A.T", memberof := some "A" }
      let space : Doclet := { kind := .namespace, name := "n", longname := "n" }
      let run : Doclet :=
        { kind := .function, name := "f", longname := "n.f", memberof := some "n" }
      let lost : Doclet :=
        { kind := .function, name := "g", longname := "m.g", memberof := some "m" }
      let left := [inner, owner]
      let right := [run, lost, space]
      let both := [run, inner, lost, owner, space]
      Interleaves left right both
      ∧ Plain left
      ∧ Plain right
      ∧ Unrelated left right
      ∧ (ofDoclets {} both).rooted.map Prod.fst = ["A$$namespace$helper", "A", "n"]
      ∧ Independent {} left right both := by
  intro owner inner space run lost left right both
  have interleaves : Interleaves left right both := .right (.left (.right (.left (.right .nil))))
  have plain : Plain left := plain_of_short (by decide)
  have rightPlain : Plain right := plain_of_short (by decide)
  have unrelated : Unrelated left right := by
    intro doclet member other otherMember
    simp only [left, right, List.mem_cons, List.not_mem_nil, or_false] at member otherMember
    rcases member with rfl | rfl <;> rcases otherMember with rfl | rfl | rfl <;> decide
  exact ⟨interleaves, plain, rightPlain, unrelated, by decide,
    independent_of_unrelated {} interleaves plain rightPlain unrelated⟩

end Typings.Forest
