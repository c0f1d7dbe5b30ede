import Typings.Proofs.Declarations.Linked
import Typings.Proofs.Doclet.Pieces

/-! The bodies of declarations hold what stands under their nodes, all of it and in its order. -/

namespace Typings

open Noted

namespace Branch

variable {branch child inner : Branch} {branches : List Branch} {body : Body} {piece : Piece}

theorem piece_eq (branch : Branch) (body : Body)
    : branch.piece body
      = pieces branch.node.doclet.kind.body branch.branches >>= fun pieces =>
          branch.node.doclet.piece branch.node.nested body pieces := by
  cases branch
  rw [Branch.piece]

theorem value_piece (branch : Branch) (body : Body)
    : (branch.piece body).value
      = (branch.node.doclet.piece branch.node.nested body
          (pieces branch.node.doclet.kind.body branch.branches).value).value := by
  rw [piece_eq, bind_value]

theorem value_pieces (body : Body) (branches : List Branch)
    : (pieces body branches).value
      = branches.filterMap fun branch => (branch.piece body).value := by
  induction branches with
  | nil => rw [pieces]; rfl
  | cons branch branches ih =>
      rw [pieces, List.filterMap_cons]
      cases h : (branch.piece body).value <;> simp [h, ih]

/-- What stands right under the node of a branch can be held by the body of its declaration. -/
def HasRoom (branch : Branch) : Prop :=
  branch.node.doclet.kind.isClassLike = true
  → ∀ child ∈ branch.branches, child.node.doclet.leavesClass = false

theorem HasRoom.fits (room : branch.HasRoom)
    : ∀ piece ∈ (pieces branch.node.doclet.kind.body branch.branches).value,
        piece.body = branch.node.doclet.kind.body := by
  intro piece listed
  rw [value_pieces] at listed
  obtain ⟨child, childMember, made⟩ := List.mem_filterMap.mp listed
  rw [value_piece] at made
  rw [Doclet.piece_body made]
  cases classLike : branch.node.doclet.kind.isClassLike with
  | true => rw [room classLike child childMember]; rfl
  | false =>
      have statements : branch.node.doclet.kind.body = .statements := by
        cases kind : branch.node.doclet.kind <;>
          simp_all [Doclet.Kind.body, Doclet.Kind.isClassLike, Doclet.Kind.isInterfaceLike]
      rw [statements, ite_self]

mutual
/-- If all bodies in a branch have room, then only types are warned about. -/
theorem piece_only (branch : Branch) (body : Body) (room : ∀ inner ∈ branch.within, inner.HasRoom)
    : Only .typeSyntax (branch.piece body) := by
  obtain ⟨node, branches⟩ := branch
  rw [Branch.piece]
  have own : HasRoom ⟨node, branches⟩ := room _ (by rw [within]; exact List.mem_cons_self)
  refine (pieces_only branches _ ?_).bind_value (Doclet.piece_only own.fits)
  intro inner listed
  exact room inner (by rw [within]; exact List.mem_cons_of_mem _ listed)

theorem pieces_only (branches : List Branch) (body : Body)
    (room : ∀ inner ∈ withinAll branches, inner.HasRoom)
    : Only .typeSyntax (pieces body branches) := by
  cases branches with
  | nil =>
      rw [pieces]
      exact only_pure _
  | cons branch branches =>
      rw [pieces]
      refine (piece_only branch body ?_).bind fun _ =>
        (pieces_only branches body ?_).bind fun _ => only_pure _
      · intro inner listed
        exact room inner (by rw [withinAll]; exact List.mem_append_left _ listed)
      · intro inner listed
        exact room inner (by rw [withinAll]; exact List.mem_append_right _ listed)
end


/-- The branches whose nodes are declared make the pieces, one for each and in their order. -/
theorem pieces_forall₂ (body : Body) (branches : List Branch)
    : List.Forall₂ (fun branch piece => (branch.piece body).value = some piece)
        (branches.filter fun branch => branch.node.doclet.kind.isDeclared)
        (pieces body branches).value := by
  induction branches with
  | nil => rw [pieces]; exact .nil
  | cons branch branches ih =>
      have declared := Doclet.piece_isSome branch.node.doclet branch.node.nested body
        (pieces branch.node.doclet.kind.body branch.branches).value
      rw [← value_piece] at declared
      rw [value_pieces] at ih ⊢
      rw [List.filterMap_cons, List.filter_cons, ← declared]
      cases made : (branch.piece body).value with
      | none => exact ih
      | some piece => exact .cons made ih

end Branch

namespace Forest

open Branch

variable {forest : Forest} {branch : Branch}

theorem branches_of_inside (sound : forest.Sound)
    (inside : branch ∈ forest.branches.flatMap within)
    : branch.branches = (forest.children branch.longname).map forest.whole := by
  obtain ⟨member, isWhole⟩ := whole_of_mem_branches sound inside
  rw [isWhole, whole_eq sound member]
  rfl

theorem hasRoom (sound : forest.Sound) (contents : forest.Contents)
    (inside : branch ∈ forest.branches.flatMap within)
    : branch.HasRoom := by
  intro classLike child childMember
  obtain ⟨member, _⟩ := whole_of_mem_branches sound inside
  rw [branches_of_inside sound inside] at childMember
  obtain ⟨node, nodeMember, rfl⟩ := List.mem_map.mp childMember
  rw [node_whole]
  exact contents.fits (standsUnder_of_mem_children sound nodeMember)
    (find?_of_mem sound.distinct (mem_children.mp nodeMember).1)
    (find?_of_mem sound.distinct member) classLike

theorem body_of_root {piece : Piece} (made : piece ∈ (branch.piece .statements).value.toList)
    : piece.body = .statements := by
  rw [Option.mem_toList, value_piece] at made
  rw [Doclet.piece_body made, ite_self]

/-- What a root is declared as stands among the statements, whatever it is. -/
theorem value_statementsOfRoot (branch : Branch)
    : (statementsOfRoot branch).value.map .statement
      = (branch.piece .statements).value.toList := by
  unfold statementsOfRoot
  rw [bind_value, Doclet.statements_value, List.filter_eq_self]
  intro piece made
  simpa using body_of_root made

theorem value_statements (forest : Forest)
    : forest.statements.value.map .statement = (pieces .statements forest.branches).value := by
  unfold statements
  rw [map_value, mapM_value, List.map_flatten, List.map_map, value_pieces,
    ← List.flatMap_def, List.filterMap_eq_flatMap_toList]
  congr 1
  funext branch
  exact value_statementsOfRoot branch

theorem statements_only (room : ∀ branch ∈ forest.branches.flatMap within, branch.HasRoom)
    : Only .typeSyntax forest.statements := by
  unfold statements
  refine Only.map (only_mapM_of_mem fun branch member => ?_) _
  refine (piece_only branch .statements ?_).bind_value
    (Doclet.only_of_quiet ((Doclet.statements_quiet_iff _).mpr fun piece => body_of_root))
  intro inner inside
  exact room inner (List.mem_flatMap.mpr ⟨branch, member, inside⟩)

-----------------------------------------------------------------------------------------
-- The bodies of all declarations
-----------------------------------------------------------------------------------------

/-- Whether a branch is that of an event or a file. -/
def isSilent (branch : Branch) : Bool :=
  branch.node.doclet.kind == .event || branch.node.doclet.kind == .file

/-- What a branch of a forest makes in a body is a declaration that holds one entry for each child
of its node, in their order. Only events and files have none. The body of a class may open with a
constructor and end with the documented properties.
-/
structure BodyHolds (forest : Forest) (branch : Branch) (body : Body) : Prop where
  children : branch.branches.map Branch.node = forest.children branch.longname
  declared
    : ∃ decl entries,
        (branch.piece body).value = some (.statement decl)
        ∧ decl.body? = some branch.node.doclet.kind.body
        ∧ decl.entries
          = branch.node.doclet.leading ++ entries ++ branch.node.doclet.trailing
        ∧ List.Forall₂
            (fun child entry => (child.piece branch.node.doclet.kind.body).value = some entry)
            (branch.branches.filter fun child => !isSilent child)
            entries
  leading
    : branch.node.doclet.leading = []
      ∨ branch.node.doclet.kind = .class
        ∧ ∃ params, branch.node.doclet.leading = [.classMember (.constructor params)]
  trailing : branch.node.doclet.kind ≠ .class → branch.node.doclet.trailing = []

theorem bodyHolds (sound : forest.Sound) (contents : forest.Contents)
    (inside : branch ∈ forest.branches.flatMap within)
    (hasBody : branch.node.doclet.kind.hasBody = true) (body : Body)
    : forest.BodyHolds branch body := by
  have branches := branches_of_inside sound inside
  have room := hasRoom sound contents inside
  refine ⟨?_, ?_, Doclet.leading_eq _, fun noClass => if_neg noClass⟩
  · simp [branches, Function.comp_def]
  · obtain ⟨decl, made, ownBody, entries⟩ := Doclet.piece_value_of_hasBody hasBody
      branch.node.nested body (pieces branch.node.doclet.kind.body branch.branches).value
    rw [List.filter_eq_self.mpr fun piece listed => by simpa using room.fits piece listed]
      at entries
    refine ⟨decl, _, by rw [value_piece, made], ownBody, entries, ?_⟩
    have sameFilter
        : branch.branches.filter (fun child => !isSilent child)
          = branch.branches.filter fun child => child.node.doclet.kind.isDeclared := by
      apply List.filter_congr
      intro child childMember
      rw [branches] at childMember
      obtain ⟨node, nodeMember, rfl⟩ := List.mem_map.mp childMember
      have noPackage := contents.noPackage
        (find?_of_mem sound.distinct (mem_children.mp nodeMember).1)
      rw [isSilent, node_whole]
      cases kind : node.doclet.kind <;> simp_all [Doclet.Kind.isDeclared]
    rw [sameFilter]
    exact pieces_forall₂ _ _

/-- No piece of a plain doclet is left out of a body.
Witness: no class, interface or mixin has a node under it that such a body cannot hold, and a piece
fits the body that it is made for unless that is such a node's.
-/
theorem bodies_hold_children (settings : Settings) {doclets : List Doclet} (plain : Plain doclets)
    : let forest := ofDoclets settings doclets
      (∀ warning ∈ (declarations settings doclets).warnings, warning.kind ≠ .invalidChild)
      ∧ ∀ branch ∈ forest.branches.flatMap within,
          branch.node.doclet.kind.hasBody = true → ∀ body, forest.BodyHolds branch body := by
  intro forest
  have sound := ofDoclets_sound settings doclets
  have contents := ofDoclets_contents settings plain
  constructor
  · intro warning listed isMisfit
    rw [warnings_declarations] at listed
    rcases List.mem_append.mp listed with linking | declaring
    · have either := Changes.warnings_kind (links_changes _ _ _) (fun _ none => by cases none)
        warning linking
      rw [isMisfit] at either
      simp at either
    · have types := statements_only (fun branch => hasRoom sound contents) warning declaring
      rw [isMisfit] at types
      cases types
  · intro branch inside hasBody body
    exact bodyHolds sound contents inside hasBody body

/-- An interface after its members, of which one is static and one an event. -/
theorem bodies_hold_children_interface
    : let doclets : List Doclet :=
        [ { kind := .function, name := "make", longname := "I.make", memberof := some "I",
            scope := some .static },
          { kind := .event, name := "done", longname := "I#done", memberof := some "I" },
          { kind := .member, name := "size", longname := "I#size", memberof := some "I" },
          { kind := .interface, name := "I", longname := "I" } ]
      let forest := ofDoclets {} doclets
      Plain doclets
      ∧ (∀ warning ∈ (declarations {} doclets).warnings, warning.kind ≠ .invalidChild)
      ∧ ∃ branch ∈ forest.branches.flatMap within,
          branch.longname = "I"
          ∧ branch.node.doclet.kind.hasBody = true
          ∧ forest.BodyHolds branch .statements
          ∧ branch.branches.map Branch.longname = ["I#done", "I#size"]
          ∧ ((branch.piece .statements).value.bind Piece.statement?).map
              (fun decl => decl.entries.map Piece.interfaceMember?)
            = some [some (.property "size" (.primitive .any) false false none)] := by
  intro doclets forest
  have plain : Plain doclets := plain_of_short (by decide)
  have known : (forest.branches.flatMap within).any (fun branch =>
      branch.longname == "I" && branch.node.doclet.kind.hasBody
        && branch.branches.map Branch.longname == ["I#done", "I#size"]
        && ((branch.piece .statements).value.bind Piece.statement?).map
            (fun decl => decl.entries.map Piece.interfaceMember?)
          == some [some (.property "size" (.primitive .any) false false none)]) = true := by
    decide +kernel
  obtain ⟨branch, inside, isInterface⟩ := List.any_eq_true.mp known
  simp only [Bool.and_eq_true, beq_iff_eq] at isInterface
  obtain ⟨⟨⟨name, hasBody⟩, under⟩, entries⟩ := isInterface
  obtain ⟨quiet, holds⟩ := bodies_hold_children {} plain
  exact ⟨plain, quiet, branch, inside, name, hasBody, holds branch inside hasBody .statements,
    under, entries⟩

end Forest

end Typings
