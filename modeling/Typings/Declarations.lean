import Typings.Arena.Branch
import Typings.Arena.Link
import Typings.Decl.Printer
import Typings.Doclet.Piece

/-!
The declarations for a list of doclets: the doclets are linked in an arena, and each root makes a
declaration with what stands under it.
-/

namespace Typings

open Doclet (Synthesis)

mutual
/-- Declares what a branch starts from, in a body. What stands under it is declared first. -/
def Branch.declare (body : Body) : Branch → Synthesis (Option Piece)
  | ⟨node, branches⟩ => do
    let pieces ← Branch.declareAll node.doclet.kind.body branches
    node.doclet.declare node.nested body pieces

/-- Declares what branches start from, in a body. -/
def Branch.declareAll (body : Body) : List Branch → Synthesis (List Piece)
  | [] => pure []
  | branch :: branches => do
    let piece ← Branch.declare body branch
    return piece.toList ++ (← Branch.declareAll body branches)
end

/-- What holds the declarations of the roots, as warnings call it. -/
def topLevel : String := "<top level>"

/-- The declaration of a root, if it makes one. -/
def Branch.statements (branch : Branch) : Synthesis (List Decl) := do
  let piece ← branch.declare .statements
  Doclet.statementsIn topLevel piece.toList

/-- The declarations of the roots of an arena. -/
def Arena.statements (arena : Arena) : Synthesis (List Decl) :=
  List.flatten <$> arena.branches.mapM Branch.statements

/-- Links doclets and declares them, with the warnings from linking first. -/
def synthesize (settings : Settings) (doclets : List Doclet) : Synthesis (List Decl) :=
  let arena := Arena.ofDoclets settings doclets
  let statements := arena.statements.run
  ⟨statements.value, arena.warnings ++ statements.warnings⟩

/-- The declarations for doclets. There would be none if declaring them failed; but it never does,
as no package is linked. -/
def declarations (settings : Settings) (doclets : List Doclet) : Noted (List Decl) :=
  (fun decls => decls.toOption.getD []) <$> (synthesize settings doclets).run

/-- The text of the declarations for doclets. -/
def declarationText (settings : Settings) (doclets : List Doclet) : Noted String :=
  Decl.renderAll {} <$> declarations settings doclets

end Typings
