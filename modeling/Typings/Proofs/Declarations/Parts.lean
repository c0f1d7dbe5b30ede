import Typings.Proofs.Declarations.Bodies

/-! The parts of declarations, and the doclet that each of them comes from. -/

namespace Typings

-----------------------------------------------------------------------------------------
-- Parts of declarations
-----------------------------------------------------------------------------------------

mutual
/-- A declaration with all that stands in it, each before what stands in that. -/
def Decl.parts : Decl → List Piece
  | .namespace head nested items => .statement (.namespace head nested items) :: Decl.partsAll items
  | .module head items => .statement (.module head items) :: Decl.partsAll items
  | .class head typeParams base interfaces members =>
    .statement (.class head typeParams base interfaces members) :: members.map .classMember
  | .interface head typeParams bases members =>
    .statement (.interface head typeParams bases members) :: members.map .interfaceMember
  | decl => [.statement decl]

def Decl.partsAll : List Decl → List Piece
  | [] => []
  | decl :: decls => Decl.parts decl ++ Decl.partsAll decls
end

/-- A piece with all that stands in it. -/
def Piece.parts : Piece → List Piece
  | .statement decl => decl.parts
  | piece => [piece]

theorem Decl.partsAll_eq (decls : List Decl)
    : Decl.partsAll decls = (decls.map Piece.statement).flatMap Piece.parts := by
  induction decls with
  | nil => rfl
  | cons decl decls ih => simp [Decl.partsAll, Piece.parts, ih]

theorem Decl.parts_eq (decl : Decl)
    : decl.parts = .statement decl :: decl.entries.flatMap Piece.parts := by
  cases decl with
  | «class» _ _ _ _ members | interface _ _ _ members =>
      rw [Decl.parts, Decl.entries, List.flatMap_map, List.map_eq_flatMap]
      rfl
  | «namespace» _ _ items | «module» _ items => rw [Decl.parts, Decl.entries, Decl.partsAll_eq]
  | function | «alias» | enum | «variable» => rfl

/-- The name of a member of a class. A constructor has none. -/
def ClassMember.name? : ClassMember → Option String
  | .constructor _ => none
  | .property name .. | .method name .. => some name

/-- A piece that has a name and holds nothing else. -/
inductive Piece.Single : Piece → Prop
  | statement {decl} (empty : decl.entries = []) : Piece.Single (.statement decl)
  | classMember {member name} (named : member.name? = some name)
    : Piece.Single (.classMember member)
  | interfaceMember {member} : Piece.Single (.interfaceMember member)

theorem Piece.Single.parts {piece : Piece} (single : piece.Single) : piece.parts = [piece] := by
  cases single with
  | statement empty => rw [Piece.parts, Decl.parts_eq, empty, List.flatMap_nil]
  | classMember | interfaceMember => rfl

-----------------------------------------------------------------------------------------
-- Where parts come from
-----------------------------------------------------------------------------------------

/-- Where a part comes from: it declares a doclet, or is one that a class adds of its own. -/
inductive Origin where
  | doclet (longname : String)
  | detail (longname : String)
deriving DecidableEq

mutual
/-- What a branch makes in a body, part by part, with the origin of each. -/
def Branch.parts (body : Body) : Branch → List (Origin × Piece)
  | ⟨node, branches⟩ =>
    match (Branch.piece body ⟨node, branches⟩).value with
    | none => []
    | some piece =>
      (.doclet node.longname, piece)
      :: if node.doclet.kind.hasBody then
          node.doclet.leading.map (.detail node.longname, ·)
            ++ Branch.partsAll node.doclet.kind.body branches
            ++ node.doclet.trailing.map (.detail node.longname, ·)
        else []

def Branch.partsAll (body : Body) : List Branch → List (Origin × Piece)
  | [] => []
  | branch :: branches => Branch.parts body branch ++ Branch.partsAll body branches
end

namespace Doclet

open Noted

variable {doclet : Doclet} {nested : Bool} {body : Body} {pieces : List Piece} {piece : Piece}

theorem parts_leading (doclet : Doclet) : doclet.leading.flatMap Piece.parts = doclet.leading := by
  unfold leading
  split
  · rw [List.flatMap_map, List.map_eq_flatMap]
    rfl
  · rfl

theorem parts_trailing (doclet : Doclet)
    : doclet.trailing.flatMap Piece.parts = doclet.trailing := by
  unfold trailing
  split
  · rw [List.flatMap_map, List.map_eq_flatMap]
    rfl
  · rfl

theorem single_valuePiece (doclet : Doclet) (body : Body)
    : (doclet.valuePiece body).value.Single := by
  cases body with
  | «class» => exact .classMember rfl
  | interface => exact .interfaceMember
  | statements =>
      simp only [valuePiece, map_value, variableDecl]
      split <;> exact .statement rfl

theorem single_functionPiece (doclet : Doclet) (body : Body)
    : (doclet.functionPiece body).value.Single := by
  cases body with
  | «class» => exact .classMember rfl
  | interface => exact .interfaceMember
  | statements => exact .statement rfl

/-- Where a doclet is declared without a body, its piece holds nothing else. -/
theorem single_of_not_hasBody (made : (doclet.piece nested body pieces).value = some piece)
    (noBody : doclet.kind.hasBody = false)
    : piece.Single := by
  cases kind : doclet.kind
  case typedef =>
    simp only [Doclet.piece, kind] at made
    cases made
    exact .statement rfl
  case function | callback =>
    simp only [Doclet.piece, kind] at made
    cases made
    exact single_functionPiece doclet body
  case member | constant =>
    simp only [Doclet.piece, kind] at made
    split at made
    · cases made
      exact .statement rfl
    · cases made
      exact single_valuePiece doclet body
  case package | event | file => simp [Doclet.piece, kind] at made
  all_goals simp [kind, Kind.hasBody, Kind.isClassLike, Kind.isModuleLike] at noBody

end Doclet

namespace Branch

open Noted

theorem partsAll_eq (body : Body) (branches : List Branch)
    : partsAll body branches = branches.flatMap (parts body) := by
  induction branches with
  | nil => rfl
  | cons branch branches ih => simp [partsAll, ih]

variable {branch : Branch} {branches : List Branch} {body : Body}

/-- All that is made for the body of a branch fits there. -/
def Fits (branch : Branch) : Prop :=
  branch.node.doclet.kind.hasBody = true
  → ∀ piece ∈ (pieces branch.node.doclet.kind.body branch.branches).value,
      piece.body = branch.node.doclet.kind.body

mutual
/-- The parts of what a branch makes are those with an origin, in their order. -/
theorem map_snd_parts (branch : Branch) (body : Body)
    (fits : ∀ inner ∈ branch.within, inner.Fits)
    : (branch.parts body).map Prod.snd
      = (branch.piece body).value.toList.flatMap Piece.parts := by
  obtain ⟨node, branches⟩ := branch
  have own : Fits ⟨node, branches⟩ := fits _ (by rw [within]; exact List.mem_cons_self)
  have below := map_snd_partsAll branches node.doclet.kind.body fun inner listed =>
    fits inner (by rw [within]; exact List.mem_cons_of_mem _ listed)
  have made := value_piece ⟨node, branches⟩ body
  rw [parts]
  cases value : (piece body ⟨node, branches⟩).value with
  | none => rfl
  | some piece =>
      rw [value] at made
      cases hasBody : node.doclet.kind.hasBody with
      | false =>
          have alone := (Doclet.single_of_not_hasBody made.symm hasBody).parts
          simp [alone]
      | true =>
          obtain ⟨decl, isDecl, _, entries⟩ := Doclet.piece_value_of_hasBody hasBody
            node.nested body (pieces node.doclet.kind.body branches).value
          rw [List.filter_eq_self.mpr fun piece listed => by simpa using own hasBody piece listed]
            at entries
          cases made.trans isDecl
          simp [below, Piece.parts, Decl.parts_eq, entries, Function.comp_def,
            Doclet.parts_leading, Doclet.parts_trailing]

theorem map_snd_partsAll (branches : List Branch) (body : Body)
    (fits : ∀ inner ∈ withinAll branches, inner.Fits)
    : (partsAll body branches).map Prod.snd
      = (pieces body branches).value.flatMap Piece.parts := by
  cases branches with
  | nil =>
      rw [partsAll, pieces]
      rfl
  | cons branch branches =>
      rw [partsAll, pieces, List.map_append, map_snd_parts branch body ?_,
        map_snd_partsAll branches body ?_]
      · simp
      · intro inner listed
        exact fits inner (by rw [withinAll]; exact List.mem_append_right _ listed)
      · intro inner listed
        exact fits inner (by rw [withinAll]; exact List.mem_append_left _ listed)
end

mutual
/-- If nothing is warned about, then everything fits where it is made. -/
theorem fits_of_quiet (branch : Branch) (body : Body) (quiet : (branch.piece body).warnings = [])
    : ∀ inner ∈ branch.within, inner.Fits := by
  obtain ⟨node, branches⟩ := branch
  rw [piece_eq, bind_warnings, List.append_eq_nil_iff] at quiet
  intro inner listed
  rw [within] at listed
  rcases List.mem_cons.mp listed with rfl | below
  · exact fun hasBody => Doclet.fits_of_quiet hasBody quiet.2
  · exact fitsAll_of_quiet branches _ quiet.1 inner below

theorem fitsAll_of_quiet (branches : List Branch) (body : Body)
    (quiet : (pieces body branches).warnings = [])
    : ∀ inner ∈ withinAll branches, inner.Fits := by
  cases branches with
  | nil =>
      intro inner listed
      rw [withinAll] at listed
      cases listed
  | cons branch branches =>
      rw [pieces, bind_warnings, bind_warnings, List.append_eq_nil_iff,
        List.append_eq_nil_iff] at quiet
      intro inner listed
      rw [withinAll] at listed
      rcases List.mem_append.mp listed with first | rest
      · exact fits_of_quiet branch body quiet.1 inner first
      · exact fitsAll_of_quiet branches body quiet.2.1 inner rest
end

end Branch

end Typings
