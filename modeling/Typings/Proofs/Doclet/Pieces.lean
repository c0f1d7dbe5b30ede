import Typings.Doclet.Piece
import Typings.Proofs.Doclet.TypeWarnings

/-! What the declaration of a doclet holds, which body the piece of a doclet fits, and what the
warnings about it are.
-/

namespace Typings

-----------------------------------------------------------------------------------------
-- The bodies of declarations
-----------------------------------------------------------------------------------------

/-- The body that a declaration has, if it has one. -/
def Decl.body? : Decl → Option Body
  | .class .. => some .class
  | .interface .. => some .interface
  | .namespace .. | .module .. => some .statements
  | _ => none

/-- What stands in the body of a declaration. -/
def Decl.entries : Decl → List Piece
  | .class _ _ _ _ members => members.map .classMember
  | .interface _ _ _ members => members.map .interfaceMember
  | .namespace _ _ items | .module _ items => items.map .statement
  | _ => []

namespace Doclet

/-- Whether a doclet of this kind is declared with a body for its members. -/
def Kind.hasBody (kind : Kind) : Bool :=
  kind.isClassLike || kind.isModuleLike

/-- Whether a doclet of this kind is declared at all. -/
def Kind.isDeclared : Kind → Bool
  | .package | .event | .file => false
  | _ => true

theorem Kind.isDeclared_iff {kind : Kind}
    : kind.isDeclared = true ↔ kind ≠ .event ∧ kind ≠ .file ∧ kind ≠ .package := by
  cases kind <;> simp [Kind.isDeclared]

/-- What stands before the members in the body of a doclet: the constructor of a class. -/
def leading (doclet : Doclet) : List Piece :=
  if doclet.kind = .class then doclet.constructors.value.map .classMember else []

/-- What stands behind the members in the body of a doclet: the documented properties of a class. -/
def trailing (doclet : Doclet) : List Piece :=
  if doclet.kind = .class then
    ((Outline.ofEntries doclet.properties).mapM propertyOfItem).value.map .classMember
  else []

variable {doclet : Doclet} {nested : Bool} {body : Body} {pieces : List Piece} {piece : Piece}

/-- At most one constructor stands in front, and that in a class only. -/
theorem leading_eq (doclet : Doclet)
    : doclet.leading = []
      ∨ doclet.kind = .class ∧ ∃ params, doclet.leading = [.classMember (.constructor params)] := by
  unfold leading constructors
  split
  · rename_i isClass
    split
    · exact .inl rfl
    · exact .inr ⟨isClass, _, rfl⟩
  · exact .inl rfl

-----------------------------------------------------------------------------------------
-- Pieces that fit a body
-----------------------------------------------------------------------------------------

/-- What fits a body stays in its order, and the rest is left out, by induction on the pieces. -/
theorem fitting_value {α : Type} {owner : String} {part? : Piece → Option α} {whole : α → Piece}
    (parts : ∀ piece part, part? piece = some part ↔ piece = whole part)
    (bodies : ∀ piece, (part? piece).isSome = true ↔ piece.body = body) (pieces : List Piece)
    : (fitting body owner part? pieces).value.map whole
      = pieces.filter fun piece => piece.body == body := by
  induction pieces with
  | nil => rfl
  | cons piece pieces ih =>
      rw [fitting]
      cases h : part? piece with
      | some part =>
          have fits : piece.body = body := (bodies piece).mp (by simp [h])
          rw [List.filter_cons_of_pos (by simpa using fits), ← ih, (parts piece part).mp h]
          rfl
      | none =>
          have misfit : piece.body ≠ body := fun fits => by simpa [h] using (bodies piece).mpr fits
          simpa [misfit] using ih

theorem fitting_quiet_iff {α : Type} {owner : String} {part? : Piece → Option α}
    (bodies : ∀ piece, (part? piece).isSome = true ↔ piece.body = body)
    : (fitting body owner part? pieces).warnings = [] ↔ ∀ piece ∈ pieces, piece.body = body := by
  induction pieces with
  | nil => simp [fitting]
  | cons piece pieces ih =>
      rw [fitting, List.forall_mem_cons, ← bodies piece]
      cases part? piece with
      | none => simp [Noted.warned]
      | some part => simp [ih]

theorem statement?_isSome (piece : Piece)
    : (piece.statement?).isSome = true ↔ piece.body = .statements := by
  cases piece <;> simp [Piece.statement?, Piece.body]

theorem classMember?_isSome (piece : Piece)
    : (piece.classMember?).isSome = true ↔ piece.body = .class := by
  cases piece <;> simp [Piece.classMember?, Piece.body]

theorem interfaceMember?_isSome (piece : Piece)
    : (piece.interfaceMember?).isSome = true ↔ piece.body = .interface := by
  cases piece <;> simp [Piece.interfaceMember?, Piece.body]

theorem statements_value (owner : String) (pieces : List Piece)
    : (statementsIn owner pieces).value.map .statement
      = pieces.filter fun piece => piece.body == .statements :=
  fitting_value (by intro piece _; cases piece <;> simp [Piece.statement?, eq_comm])
    statement?_isSome pieces

theorem classMembers_value (owner : String) (pieces : List Piece)
    : (fitting .class owner Piece.classMember? pieces).value.map .classMember
      = pieces.filter fun piece => piece.body == .class :=
  fitting_value (by intro piece _; cases piece <;> simp [Piece.classMember?, eq_comm])
    classMember?_isSome pieces

theorem interfaceMembers_value (owner : String) (pieces : List Piece)
    : (fitting .interface owner Piece.interfaceMember? pieces).value.map .interfaceMember
      = pieces.filter fun piece => piece.body == .interface :=
  fitting_value (by intro piece _; cases piece <;> simp [Piece.interfaceMember?, eq_comm])
    interfaceMember?_isSome pieces

theorem statements_quiet_iff (owner : String)
    : (statementsIn owner pieces).warnings = [] ↔ ∀ piece ∈ pieces, piece.body = .statements :=
  fitting_quiet_iff statement?_isSome

-----------------------------------------------------------------------------------------
-- The piece of a doclet
-----------------------------------------------------------------------------------------

theorem entries_classDecl (isClass : doclet.kind = .class) (pieces : List Piece)
    : (doclet.classDecl pieces).value.entries
      = doclet.leading
        ++ (pieces.filter fun piece => piece.body == .class)
        ++ doclet.trailing := by
  rw [leading, trailing, if_pos isClass, if_pos isClass,
    ← classMembers_value doclet.declaredName pieces, ← List.map_append, ← List.map_append]
  rfl

theorem entries_interfaceDecl (doclet : Doclet) (pieces : List Piece)
    : (doclet.interfaceDecl pieces).value.entries
      = pieces.filter fun piece => piece.body == .interface :=
  interfaceMembers_value doclet.declaredName pieces

theorem entries_moduleDecl (doclet : Doclet) (nested : Bool) (pieces : List Piece)
    : (doclet.moduleDecl nested pieces).value.body? = some .statements
      ∧ (doclet.moduleDecl nested pieces).value.entries
        = pieces.filter fun piece => piece.body == .statements := by
  rw [← statements_value doclet.declaredName pieces]
  cases nested <;> exact ⟨rfl, rfl⟩

theorem entries_namespaceDecl (doclet : Doclet) (nested : Bool) (pieces : List Piece)
    : (doclet.namespaceDecl nested pieces).value.entries
      = pieces.filter fun piece => piece.body == .statements :=
  statements_value doclet.declaredName pieces

/-- The declaration of a doclet with a body holds the pieces that fit there, between what the
doclet itself adds.
-/
theorem piece_value_of_hasBody (hasBody : doclet.kind.hasBody = true) (nested : Bool) (body : Body)
    (pieces : List Piece)
    : ∃ decl,
        (doclet.piece nested body pieces).value = some (.statement decl)
        ∧ decl.body? = some doclet.kind.body
        ∧ decl.entries
          = doclet.leading
            ++ (pieces.filter fun piece => piece.body == doclet.kind.body)
            ++ doclet.trailing := by
  have plain (noClass : doclet.kind ≠ .class) : doclet.leading = [] ∧ doclet.trailing = [] :=
    ⟨if_neg noClass, if_neg noClass⟩
  cases kind : doclet.kind
  case «class» =>
    refine ⟨(doclet.classDecl pieces).value, by simp [piece, kind], rfl, ?_⟩
    exact entries_classDecl kind pieces
  case interface | mixin =>
    obtain ⟨noLeading, noTrailing⟩ := plain (by simp [kind])
    refine ⟨(doclet.interfaceDecl pieces).value, by simp [piece, kind], rfl, ?_⟩
    rw [noLeading, noTrailing, List.append_nil]
    exact entries_interfaceDecl doclet pieces
  case «module» =>
    obtain ⟨noLeading, noTrailing⟩ := plain (by simp [kind])
    obtain ⟨ownBody, entries⟩ := entries_moduleDecl doclet nested pieces
    refine ⟨(doclet.moduleDecl nested pieces).value, by simp [piece, kind], ownBody, ?_⟩
    rw [noLeading, noTrailing, List.append_nil]
    exact entries
  case «namespace» =>
    obtain ⟨noLeading, noTrailing⟩ := plain (by simp [kind])
    refine ⟨(doclet.namespaceDecl nested pieces).value, by simp [piece, kind], rfl, ?_⟩
    rw [noLeading, noTrailing, List.append_nil]
    exact entries_namespaceDecl doclet nested pieces
  all_goals simp [kind, Kind.hasBody, Kind.isClassLike, Kind.isModuleLike] at hasBody

theorem body_valuePiece (doclet : Doclet) (body : Body)
    : (doclet.valuePiece body).value.body = body := by
  cases body <;> rfl

theorem body_functionPiece (doclet : Doclet) (body : Body)
    : (doclet.functionPiece body).value.body = body := by
  cases body <;> rfl

theorem leavesClass_eq_false_of_value (isValue : doclet.kind = .member ∨ doclet.kind = .constant)
    : doclet.leavesClass = doclet.isEnum := by
  rcases isValue with kind | kind <;>
    simp [leavesClass, kind, Kind.isClassLike, Kind.isModuleLike]

/-- The piece of a doclet is a statement if the body of a class cannot hold the doclet, and else
fits the body that it is made for.
-/
theorem piece_body (made : (doclet.piece nested body pieces).value = some piece)
    : piece.body = if doclet.leavesClass then .statements else body := by
  cases kind : doclet.kind
  case member | constant =>
    rw [leavesClass_eq_false_of_value (by simp [kind])]
    simp only [Doclet.piece, kind] at made
    split at made
    · rename_i isEnum
      cases made
      rw [if_pos isEnum]
      rfl
    · rename_i noEnum
      cases made
      rw [if_neg noEnum]
      exact body_valuePiece doclet body
  case function | callback =>
    have stays : doclet.leavesClass = false := by
      simp [leavesClass, kind, Kind.isClassLike, Kind.isModuleLike, isEnum]
    simp only [Doclet.piece, kind] at made
    cases made
    rw [stays]
    exact body_functionPiece doclet body
  case package | event | file => simp [Doclet.piece, kind] at made
  all_goals
    have leaves : doclet.leavesClass = true := by
      simp [leavesClass, kind, Kind.isClassLike, Kind.isModuleLike]
    simp only [Doclet.piece, kind] at made
    cases made
    rw [leaves]
    rfl

theorem piece_isSome (doclet : Doclet) (nested : Bool) (body : Body) (pieces : List Piece)
    : ((doclet.piece nested body pieces).value).isSome = doclet.kind.isDeclared := by
  cases kind : doclet.kind
  all_goals simp [Doclet.piece, kind, Kind.isDeclared]
  all_goals split <;> simp

-----------------------------------------------------------------------------------------
-- Warnings about the piece of a doclet
-----------------------------------------------------------------------------------------

open Noted

theorem only_of_quiet {α : Type} {kind : Warning.Kind} {noted : Noted α}
    (quiet : noted.warnings = [])
    : Only kind noted := by
  intro warning listed
  rw [quiet] at listed
  cases listed

theorem constructors_only (doclet : Doclet) : Only .typeSyntax doclet.constructors := by
  unfold constructors
  split
  · exact only_pure _
  · exact (paramsOf_only _).bind fun _ => only_pure _

theorem propertyOfItem_only (item : Outline) : Only .typeSyntax (propertyOfItem item) :=
  (typeOfOutline_only item).bind fun _ => only_pure _

theorem variableDecl_only (doclet : Doclet) : Only .typeSyntax doclet.variableDecl := by
  unfold variableDecl
  split
  · exact only_pure _
  · exact (valueType_only doclet).bind fun _ => only_pure _

theorem valuePiece_only (doclet : Doclet) (body : Body)
    : Only .typeSyntax (doclet.valuePiece body) := by
  cases body with
  | statements => exact (variableDecl_only doclet).map _
  | «class» => exact (valueType_only doclet).bind fun _ => only_pure _
  | interface => exact (valueType_only doclet).bind fun _ => only_pure _

theorem functionPiece_only (doclet : Doclet) (body : Body)
    : Only .typeSyntax (doclet.functionPiece body) := by
  cases body <;> exact (signature_only doclet).bind fun _ => only_pure _

theorem bases_only (names : List String) : Only .typeSyntax (names.mapM baseOfName) :=
  only_mapM baseOfName_only names

theorem classDecl_only (fits : ∀ piece ∈ pieces, piece.body = .class)
    : Only .typeSyntax (doclet.classDecl pieces) :=
  (only_of_quiet ((fitting_quiet_iff classMember?_isSome).mpr fits)).bind fun _ =>
    (constructors_only doclet).bind fun _ =>
      (only_mapM propertyOfItem_only _).bind fun _ =>
        (typeParams_only doclet).bind fun _ => (bases_only _).bind fun _ => only_pure _

theorem interfaceDecl_only (fits : ∀ piece ∈ pieces, piece.body = .interface)
    : Only .typeSyntax (doclet.interfaceDecl pieces) :=
  (only_of_quiet ((fitting_quiet_iff interfaceMember?_isSome).mpr fits)).bind fun _ =>
    (typeParams_only doclet).bind fun _ => (bases_only _).bind fun _ => only_pure _

theorem moduleDecl_only (fits : ∀ piece ∈ pieces, piece.body = .statements)
    : Only .typeSyntax (doclet.moduleDecl nested pieces) := by
  refine (only_of_quiet ((statements_quiet_iff _).mpr fits)).bind fun _ => ?_
  split <;> exact only_pure _

theorem namespaceDecl_only (fits : ∀ piece ∈ pieces, piece.body = .statements)
    : Only .typeSyntax (doclet.namespaceDecl nested pieces) :=
  (only_of_quiet ((statements_quiet_iff _).mpr fits)).bind fun _ => only_pure _

theorem aliasDecl_only (doclet : Doclet) : Only .typeSyntax doclet.aliasDecl :=
  (typeParams_only doclet).bind fun _ => (valueType_only doclet).bind fun _ => only_pure _

/-- If all pieces fit the body of a doclet, then only types are warned about. -/
theorem piece_only (fits : ∀ piece ∈ pieces, piece.body = doclet.kind.body)
    : Only .typeSyntax (doclet.piece nested body pieces) := by
  cases kind : doclet.kind
  all_goals
    simp only [Doclet.piece, kind]
    rw [kind] at fits
  case «class» => exact (classDecl_only fits).map _
  case interface | mixin => exact (interfaceDecl_only fits).map _
  case «module» => exact (moduleDecl_only fits).map _
  case «namespace» => exact (namespaceDecl_only fits).map _
  case typedef => exact (aliasDecl_only doclet).map _
  case member | constant =>
    split
    · exact (only_pure _).map _
    · exact (valuePiece_only doclet body).map _
  case function | callback => exact (functionPiece_only doclet body).map _
  case package | event | file => exact only_pure _

/-- If nothing is warned about, then all pieces fit the body of a doclet. -/
theorem fits_of_quiet (hasBody : doclet.kind.hasBody = true)
    (quiet : (doclet.piece nested body pieces).warnings = [])
    : ∀ piece ∈ pieces, piece.body = doclet.kind.body := by
  cases kind : doclet.kind
  case «class» =>
    simp only [Doclet.piece, kind, map_warnings, classDecl, bind_warnings,
      List.append_eq_nil_iff] at quiet
    exact (fitting_quiet_iff classMember?_isSome).mp quiet.1
  case interface | mixin =>
    simp only [Doclet.piece, kind, map_warnings, interfaceDecl, bind_warnings,
      List.append_eq_nil_iff] at quiet
    exact (fitting_quiet_iff interfaceMember?_isSome).mp quiet.1
  case «module» =>
    simp only [Doclet.piece, kind, map_warnings, moduleDecl, bind_warnings,
      List.append_eq_nil_iff] at quiet
    exact (statements_quiet_iff _).mp quiet.1
  case «namespace» =>
    simp only [Doclet.piece, kind, map_warnings, namespaceDecl, bind_warnings,
      List.append_eq_nil_iff] at quiet
    exact (statements_quiet_iff _).mp quiet.1
  all_goals simp [kind, Kind.hasBody, Kind.isClassLike, Kind.isModuleLike] at hasBody

end Doclet

end Typings
