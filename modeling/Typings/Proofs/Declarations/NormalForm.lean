import Typings.Proofs.Declarations.Sources
import Typings.Proofs.Doclet.NormalForm

/-! Every union in a hint that is read, and every union in a type of a declaration, is in normal
form.
-/

namespace Typings

open TsType

theorem Branch.Makes.normal {branch : Branch} {part : Piece} (makes : branch.Makes part)
    : ∀ type ∈ part.types, type.Normal := by
  rcases makes with ⟨body, made⟩ | detail
  · rw [value_piece] at made
    exact Doclet.piece_normal made
  · exact Doclet.details_normal detail

theorem declarations_normal {settings : Settings} {doclets : List Doclet} {decl : Decl}
    {part : Piece} (declared : decl ∈ (declarations settings doclets).value)
    (mem : part ∈ decl.parts)
    : ∀ type ∈ part.types, type.Normal := by
  obtain ⟨root, -, made⟩ := exists_root_of_declared declared
  rw [Decl.parts_eq, List.mem_cons] at mem
  rcases mem with rfl | below
  · exact Branch.Makes.normal (.inl ⟨_, made⟩)
  · rcases Branch.makes_of_below root made below with detail | ⟨inner, -, makes⟩
    · exact Branch.Makes.normal (.inr detail)
    · exact makes.normal

/-- Every union at any depth of a hint that is read, or of a type of a part of the declarations, has
at least two members, all different, and none of them is a union. -/
theorem unions_normal
    : (∀ source hint, Hint.parse source = .ok hint → hint.type.Normal)
      ∧ ∀ settings doclets, ∀ decl ∈ (declarations settings doclets).value,
          ∀ part ∈ decl.parts, ∀ type ∈ part.types, type.Normal :=
  ⟨fun _ _ => Hint.normal_of_parse, fun _ _ _ declared _ => declarations_normal declared⟩

/-- Witness: a nullable alternative beside null in a hint, and among the types of a typedef. -/
theorem unions_normal_nullable
    : let nullable : TsType := .union [.primitive .string, .primitive .null]
      let either : TsType := .union [.primitive .string, .primitive .null, .primitive .number]
      let doclets : List Doclet :=
        [{ kind := .typedef, name := "T", longname := "T", type := some ["?string", "number"] }]
      (Hint.parse "?string|null" = .ok ⟨nullable, false, false⟩ ∧ nullable.Normal)
      ∧ ∃ decl ∈ (declarations {} doclets).value, either ∈ decl.types ∧ either.Normal := by
  intro nullable either doclets
  have accepted : Hint.parse "?string|null" = .ok ⟨nullable, false, false⟩ := by decide +kernel
  have known : ((declarations {} doclets).value.any fun decl => decl.types.contains either)
      = true := by
    decide +kernel
  obtain ⟨decl, declared, mem⟩ := List.any_eq_true.1 known
  have mem : either ∈ decl.types := List.contains_iff_mem.1 mem
  have part : .statement decl ∈ decl.parts := by
    rw [Decl.parts_eq]
    exact List.mem_cons_self ..
  exact ⟨⟨accepted, unions_normal.1 _ _ accepted⟩, decl, declared, mem,
    unions_normal.2 {} doclets decl declared _ part either mem⟩

end Typings
