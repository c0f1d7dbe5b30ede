import Typings.Proofs.Declarations.Parts

/-! Each part of a declaration is what a branch under it is declared as, or a detail that a class
adds of its own.
-/

namespace Typings

open Noted

/-- What stands right in a piece. -/
def Piece.entries : Piece → List Piece
  | .statement decl => decl.entries
  | .classMember _ | .interfaceMember _ => []

theorem Piece.parts_eq (piece : Piece)
    : piece.parts = piece :: piece.entries.flatMap Piece.parts := by
  cases piece with
  | statement decl => exact Decl.parts_eq decl
  | classMember | interfaceMember => rfl

/-- What a class adds of its own: its constructor and its documented properties. -/
def Doclet.details (doclet : Doclet) : List Piece :=
  doclet.leading ++ doclet.trailing

theorem Doclet.details_body {doclet : Doclet} {piece : Piece} (detail : piece ∈ doclet.details)
    : piece.body = .class := by
  rw [details, List.mem_append, leading, trailing] at detail
  split at detail
  · rcases detail with front | back
    · obtain ⟨_, -, rfl⟩ := List.mem_map.1 front
      rfl
    · obtain ⟨_, -, rfl⟩ := List.mem_map.1 back
      rfl
  · simp at detail

namespace Branch

/-- A branch makes a part of its own origin. -/
inductive Gives (branch : Branch) : Origin → Piece → Prop
  | doclet {body part} (made : (branch.piece body).value = some part)
    : Gives branch (.doclet branch.longname) part
  | detail {part} (own : part ∈ branch.node.doclet.details)
    : Gives branch (.detail branch.longname) part

variable {body : Body} {piece part : Piece} {origin : Origin}

-----------------------------------------------------------------------------------------
-- What stands below a node
-----------------------------------------------------------------------------------------

/-- The parts in the body of what the node of a branch is declared as, with the origin of each. -/
def contents (branch : Branch) : List (Origin × Piece) :=
  if branch.node.doclet.kind.hasBody then
    branch.node.doclet.leading.map (.detail branch.longname, ·)
      ++ partsAll branch.node.doclet.kind.body branch.branches
      ++ branch.node.doclet.trailing.map (.detail branch.longname, ·)
  else []

/-- The parts of a branch are its own piece and what stands below. -/
theorem parts_eq {branch : Branch} (made : (branch.piece body).value = some piece)
    : branch.parts body = (.doclet branch.longname, piece) :: branch.contents := by
  obtain ⟨node, branches⟩ := branch
  rw [parts, made]
  rfl

theorem exists_piece {branch : Branch} {entry : Origin × Piece}
    (listed : entry ∈ branch.parts body)
    : ∃ piece, (branch.piece body).value = some piece := by
  obtain ⟨node, branches⟩ := branch
  cases made : (Branch.piece body ⟨node, branches⟩).value with
  | none => simp [parts, made] at listed
  | some piece => exact ⟨piece, rfl⟩

theorem mem_contents {branch : Branch}
    : (origin, part) ∈ branch.contents
      ↔ branch.node.doclet.kind.hasBody = true
        ∧ (origin = .detail branch.longname ∧ part ∈ branch.node.doclet.details
          ∨ (origin, part) ∈ partsAll branch.node.doclet.kind.body branch.branches) := by
  unfold contents
  split
  · rename_i hasBody
    simp only [List.mem_append, List.mem_map, Prod.mk.injEq, hasBody, true_and, Doclet.details]
    grind
  · simp_all

/-- Where everything fits, what stands below a node is all that its piece holds. -/
theorem map_snd_contents {branch : Branch} (made : (branch.piece body).value = some piece)
    (fits : ∀ inner ∈ branch.within, inner.Fits)
    : branch.contents.map Prod.snd = piece.entries.flatMap Piece.parts := by
  have all := map_snd_parts branch body fits
  rw [parts_eq made, made, Option.toList_some, List.flatMap_singleton, Piece.parts_eq] at all
  exact (List.cons.inj all).2

mutual
/-- Whatever stands in the piece of a branch is listed below its node. -/
theorem exists_mem_contents (branch : Branch) {body : Body} {piece part : Piece}
    (made : (branch.piece body).value = some piece)
    (mem : part ∈ piece.entries.flatMap Piece.parts)
    : ∃ origin, (origin, part) ∈ branch.contents := by
  obtain ⟨node, branches⟩ := branch
  rw [value_piece] at made
  cases hasBody : node.doclet.kind.hasBody with
  | false =>
      have single := Doclet.single_of_not_hasBody made hasBody
      cases single with
      | statement empty => simp [Piece.entries, empty] at mem
      | classMember | interfaceMember => simp [Piece.entries] at mem
  | true =>
      obtain ⟨decl, isDecl, -, entries⟩ := Doclet.piece_value_of_hasBody hasBody
        node.nested body (pieces node.doclet.kind.body branches).value
      obtain rfl := Option.some.inj (made.symm.trans isDecl)
      rw [Piece.entries, entries, List.flatMap_append, List.flatMap_append, Doclet.parts_leading,
        Doclet.parts_trailing, List.mem_append, List.mem_append] at mem
      simp only [mem_contents]
      rcases mem with (front | inner) | back
      · exact ⟨_, hasBody, .inl ⟨rfl, List.mem_append_left _ front⟩⟩
      · obtain ⟨entry, fits, mem⟩ := List.mem_flatMap.1 inner
        obtain ⟨origin, listed⟩ := exists_mem_partsAll branches (List.mem_filter.1 fits).1 mem
        exact ⟨origin, hasBody, .inr listed⟩
      · exact ⟨_, hasBody, .inl ⟨rfl, List.mem_append_right _ back⟩⟩

theorem exists_mem_partsAll (branches : List Branch) {body : Body} {piece part : Piece}
    (made : piece ∈ (pieces body branches).value) (mem : part ∈ piece.parts)
    : ∃ origin, (origin, part) ∈ partsAll body branches := by
  cases branches with
  | nil => rw [pieces] at made; cases made
  | cons branch branches =>
      rw [pieces] at made
      rw [partsAll]
      rcases List.mem_append.1 made with first | later
      · rw [Option.mem_toList] at first
        rw [parts_eq first]
        rw [Piece.parts_eq, List.mem_cons] at mem
        rcases mem with rfl | below
        · exact ⟨_, List.mem_cons_self ..⟩
        · obtain ⟨origin, listed⟩ := exists_mem_contents branch first below
          exact ⟨origin, List.mem_append_left _ (List.mem_cons_of_mem _ listed)⟩
      · obtain ⟨origin, listed⟩ := exists_mem_partsAll branches later mem
        exact ⟨origin, List.mem_append_right _ listed⟩
end

-----------------------------------------------------------------------------------------
-- What the parts are made by
-----------------------------------------------------------------------------------------

/-- A branch makes what its node is declared as in some body, and the details of a class. -/
def Makes (branch : Branch) (part : Piece) : Prop :=
  (∃ body, (branch.piece body).value = some part) ∨ part ∈ branch.node.doclet.details

theorem Gives.makes {branch : Branch} (gives : branch.Gives origin part) : branch.Makes part := by
  cases gives with
  | doclet made => exact .inl ⟨_, made⟩
  | detail own => exact .inr own

mutual
/-- A part with an origin is made by the branch that it comes from. -/
theorem gives_of_mem_parts (branch : Branch) {body : Body} {origin : Origin} {part : Piece}
    (listed : (origin, part) ∈ branch.parts body)
    : ∃ inner ∈ branch.within, inner.Gives origin part := by
  obtain ⟨piece, made⟩ := exists_piece listed
  rw [parts_eq made, List.mem_cons, Prod.mk.injEq] at listed
  obtain ⟨node, branches⟩ := branch
  rw [within]
  rcases listed with ⟨rfl, rfl⟩ | below
  · exact ⟨_, List.mem_cons_self .., .doclet made⟩
  · rcases (mem_contents.1 below).2 with ⟨rfl, detail⟩ | inside
    · exact ⟨_, List.mem_cons_self .., .detail detail⟩
    · obtain ⟨inner, listed, gives⟩ := gives_of_mem_partsAll branches inside
      exact ⟨inner, List.mem_cons_of_mem _ listed, gives⟩

theorem gives_of_mem_partsAll (branches : List Branch) {body : Body} {origin : Origin}
    {part : Piece} (listed : (origin, part) ∈ partsAll body branches)
    : ∃ inner ∈ withinAll branches, inner.Gives origin part := by
  cases branches with
  | nil => simp [partsAll] at listed
  | cons branch branches =>
      rw [partsAll, List.mem_append] at listed
      rw [withinAll]
      rcases listed with first | later
      · obtain ⟨inner, listed, gives⟩ := gives_of_mem_parts branch first
        exact ⟨inner, List.mem_append_left _ listed, gives⟩
      · obtain ⟨inner, listed, gives⟩ := gives_of_mem_partsAll branches later
        exact ⟨inner, List.mem_append_right _ listed, gives⟩
end

/-- A statement declares a doclet: no detail is one. -/
theorem Gives.exists_name {branch : Branch} {decl : Decl}
    (gives : branch.Gives origin (.statement decl))
    : ∃ name, origin = .doclet name := by
  cases gives with
  | doclet _ => exact ⟨_, rfl⟩
  | detail own => cases Doclet.details_body own

theorem origin_of_statement {branch : Branch} {decl : Decl}
    (listed : (origin, .statement decl) ∈ branch.parts body)
    : ∃ name, origin = .doclet name := by
  obtain ⟨inner, -, gives⟩ := gives_of_mem_parts branch listed
  exact gives.exists_name

/-- What stands at some depth in the piece of a branch is a detail or comes from under it. -/
theorem makes_of_below (branch : Branch) (made : (branch.piece body).value = some piece)
    (mem : part ∈ piece.entries.flatMap Piece.parts)
    : part ∈ branch.node.doclet.details
      ∨ ∃ inner ∈ withinAll branch.branches, inner.Makes part := by
  obtain ⟨origin, listed⟩ := exists_mem_contents branch made mem
  rcases (mem_contents.1 listed).2 with ⟨-, detail⟩ | inside
  · exact .inl detail
  · obtain ⟨inner, listed, gives⟩ := gives_of_mem_partsAll _ inside
    exact .inr ⟨inner, listed, gives.makes⟩

end Branch

section declarations

variable {settings : Settings} {doclets : List Doclet}

/-- A declaration is what a root is declared as. -/
theorem exists_root_of_declared {decl : Decl}
    (declared : decl ∈ (declarations settings doclets).value)
    : ∃ branch ∈ (Forest.ofDoclets settings doclets).branches,
        (branch.piece .statements).value = some (.statement decl) := by
  have made : Piece.statement decl
      ∈ (Forest.ofDoclets settings doclets).statements.value.map Piece.statement :=
    List.mem_map_of_mem (value_declarations settings doclets ▸ declared)
  rw [Forest.value_statements, Branch.value_pieces] at made
  exact List.mem_filterMap.1 made

/-- What a root is declared as is a declaration. -/
theorem exists_declared_of_root {branch : Branch} {piece : Piece}
    (root : branch ∈ (Forest.ofDoclets settings doclets).branches)
    (made : (branch.piece .statements).value = some piece)
    : ∃ decl ∈ (declarations settings doclets).value, .statement decl = piece := by
  have listed : piece ∈ (Forest.ofDoclets settings doclets).statements.value.map .statement := by
    rw [Forest.value_statements, Branch.value_pieces]
    exact List.mem_filterMap.2 ⟨branch, root, made⟩
  rw [value_declarations]
  exact List.mem_map.1 listed

end declarations

end Typings
