import Typings.Declarations
import Typings.Proofs.Arena.Branches
import Typings.Proofs.Doclet.TypeWarnings
import Typings.Proofs.Forest.Branches
import Typings.Proofs.Forest.Contents

/-! The declarations for doclets are those of their forest. Declaring them never fails, as no
package comes into a forest.
-/

namespace Typings

mutual
/-- The piece that a branch without packages makes in a body. The pieces under it are made first. -/
def Branch.piece (body : Body) : Branch → Noted (Option Piece)
  | ⟨node, branches⟩ => do
    let pieces ← Branch.pieces node.doclet.kind.body branches
    node.doclet.piece node.nested body pieces

/-- The pieces that branches without packages make in a body. -/
def Branch.pieces (body : Body) : List Branch → Noted (List Piece)
  | [] => pure []
  | branch :: branches => do
    let piece ← Branch.piece body branch
    return piece.toList ++ (← Branch.pieces body branches)
end

/-- The declaration of a root without packages under it, if it makes one. -/
def Forest.statementsOfRoot (branch : Branch) : Noted (List Decl) := do
  let piece ← branch.piece .statements
  Doclet.statementsIn topLevel piece.toList

/-- The declarations of the roots of a forest. -/
def Forest.statements (forest : Forest) : Noted (List Decl) :=
  List.flatten <$> forest.branches.mapM statementsOfRoot

-----------------------------------------------------------------------------------------
-- Declaring without packages
-----------------------------------------------------------------------------------------

namespace Branch

/-- No node in a branch stands for a package. -/
def NoPackage (branch : Branch) : Prop :=
  ∀ inner ∈ branch.within, inner.node.doclet.kind ≠ .package

theorem declare_doclet {doclet : Doclet} (supported : doclet.kind ≠ .package) (nested : Bool)
    (body : Body) (pieces : List Piece)
    : doclet.declare nested body pieces = monadLift (doclet.piece nested body pieces) := by
  simp [Doclet.declare, supported]

mutual
/-- Declaring a branch fails only at a package. -/
theorem declare_eq (branch : Branch) (body : Body) (free : branch.NoPackage)
    : branch.declare body = monadLift (branch.piece body) := by
  obtain ⟨node, branches⟩ := branch
  have own : node.doclet.kind ≠ .package := free _ (by rw [within]; exact List.mem_cons_self)
  have below : ∀ inner ∈ withinAll branches, inner.node.doclet.kind ≠ .package :=
    fun inner listed => free inner (by rw [within]; exact List.mem_cons_of_mem _ listed)
  rw [declare, piece, declareAll_eq branches _ below, monadLift_bind]
  simp only [declare_doclet own]

theorem declareAll_eq (branches : List Branch) (body : Body)
    (free : ∀ inner ∈ withinAll branches, inner.node.doclet.kind ≠ .package)
    : declareAll body branches = monadLift (pieces body branches) := by
  cases branches with
  | nil =>
      rw [declareAll, pieces, monadLift_pure]
  | cons branch branches =>
      have first : branch.NoPackage := fun inner listed =>
        free inner (by rw [withinAll]; exact List.mem_append_left _ listed)
      have rest : ∀ inner ∈ withinAll branches, inner.node.doclet.kind ≠ .package :=
        fun inner listed =>
          free inner (by rw [withinAll]; exact List.mem_append_right _ listed)
      rw [declareAll, pieces, declare_eq branch body first]
      simp only [declareAll_eq branches body rest, monadLift_bind, monadLift_pure]
end

theorem statements_eq {branch : Branch} (free : branch.NoPackage)
    : branch.statements = monadLift (Forest.statementsOfRoot branch) := by
  rw [statements, Forest.statementsOfRoot, declare_eq branch _ free, monadLift_bind]

example
    : (Branch.statements ⟨⟨{ kind := .package, name := "pkg", longname := "package:pkg" },
        none, false, .root⟩, []⟩).run.value
      = .error ⟨.package, "package:pkg"⟩ := by
  rfl

theorem mapM_statements {branches : List Branch} (free : ∀ branch ∈ branches, branch.NoPackage)
    : branches.mapM statements = monadLift (branches.mapM Forest.statementsOfRoot) := by
  induction branches with
  | nil => rw [List.mapM_nil, List.mapM_nil, monadLift_pure]
  | cons branch branches ih =>
      obtain ⟨first, rest⟩ := List.forall_mem_cons.mp free
      rw [List.mapM_cons, List.mapM_cons, statements_eq first, ih rest]
      simp only [monadLift_bind, monadLift_pure]

end Branch

-----------------------------------------------------------------------------------------
-- The declarations of a forest
-----------------------------------------------------------------------------------------

/-- No branch of the forest of any doclets holds a package. -/
theorem Forest.branches_noPackage (settings : Settings) (doclets : List Doclet)
    : ∀ branch ∈ (ofDoclets settings doclets).branches, branch.NoPackage := by
  intro branch listed inner inside
  have sound := ofDoclets_sound settings doclets
  obtain ⟨member, _⟩ := whole_of_mem_branches sound (List.mem_flatMap_of_mem listed inside)
  exact ofDoclets_noPackage settings doclets (find?_of_mem sound.distinct member)

/-- Declaring the roots of the arena of any doclets never fails, and gives the declarations of their
forest.
Witness: the arena has the branches of the forest, and none of them holds a package.
-/
theorem statements_ofDoclets (settings : Settings) (doclets : List Doclet)
    : (Arena.ofDoclets settings doclets).statements.run
      = .ok <$> (Forest.ofDoclets settings doclets).statements := by
  have lifted
      : (Arena.ofDoclets settings doclets).statements
        = monadLift (Forest.ofDoclets settings doclets).statements := by
    rw [Arena.statements, (Arena.ofDoclets_branches settings doclets).1, Forest.statements,
      monadLift_map, Branch.mapM_statements (Forest.branches_noPackage settings doclets)]
  rw [lifted]
  exact ExceptT.run_lift _

/-- What is declared for doclets, and warned about, can be read off their forest. -/
theorem synthesize_eq (settings : Settings) (doclets : List Doclet)
    : (synthesize settings doclets).run
      = ⟨.ok (Forest.ofDoclets settings doclets).statements.value,
          (Forest.ofDoclets settings doclets).warnings
            ++ (Forest.ofDoclets settings doclets).statements.warnings⟩ := by
  rw [synthesize, statements_ofDoclets, (Arena.ofDoclets_branches settings doclets).2,
    Noted.map_warnings]
  rfl

theorem declarations_eq (settings : Settings) (doclets : List Doclet)
    : declarations settings doclets
      = ⟨(Forest.ofDoclets settings doclets).statements.value,
          (Forest.ofDoclets settings doclets).warnings
            ++ (Forest.ofDoclets settings doclets).statements.warnings⟩ := by
  rw [declarations, synthesize_eq]
  exact congrArg (Noted.mk _) (List.append_nil _)

theorem value_declarations (settings : Settings) (doclets : List Doclet)
    : (declarations settings doclets).value
      = (Forest.ofDoclets settings doclets).statements.value := by
  rw [declarations_eq]

theorem warnings_declarations (settings : Settings) (doclets : List Doclet)
    : (declarations settings doclets).warnings
      = (Forest.ofDoclets settings doclets).warnings
        ++ (Forest.ofDoclets settings doclets).statements.warnings := by
  rw [declarations_eq]

end Typings
