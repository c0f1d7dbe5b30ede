import Mathlib.Logic.Basic
import Typings.Proofs.TsType.NormalForm

/-! The function types inside a type, told by their parameters. What is made of types holds those
of its parts, and a union all of those of its members.
-/

namespace Typings.TsType

variable {type : TsType} {types : List TsType} {params : List (Param TsType)}

/-- A function type with these parameters stands at some depth inside a type. -/
def HoldsParams (type : TsType) (params : List (Param TsType)) : Prop :=
  ∃ result receiver, Inside (.function params result receiver) type

theorem holdsParams_iff
    : type.HoldsParams params
      ↔ (∃ result receiver, type = .function params result receiver)
        ∨ ∃ part ∈ type.parts, part.HoldsParams params := by
  constructor
  · rintro ⟨result, receiver, inside⟩
    rcases inside_iff.1 inside with rfl | ⟨part, mem, inside⟩
    · exact .inl ⟨result, receiver, rfl⟩
    · exact .inr ⟨part, mem, result, receiver, inside⟩
  · rintro (⟨result, receiver, rfl⟩ | ⟨part, mem, result, receiver, inside⟩)
    · exact ⟨result, receiver, .self⟩
    · exact ⟨result, receiver, .part mem inside⟩

theorem not_holdsParams (plain : ∀ own result receiver, type ≠ .function own result receiver)
    (single : type.parts = [])
    : ¬ type.HoldsParams params := by
  rw [holdsParams_iff]
  simp [plain, single]

@[simp]
theorem holdsParams_primitive (kind : Primitive) : ¬ HoldsParams (.primitive kind) params :=
  not_holdsParams nofun rfl

@[simp]
theorem holdsParams_any : ¬ HoldsParams .any params :=
  holdsParams_primitive .any

@[simp]
theorem holdsParams_named {name : String}
    : HoldsParams (.named name types) params ↔ ∃ type ∈ types, type.HoldsParams params := by
  rw [holdsParams_iff]
  simp [parts]

@[simp]
theorem holdsParams_reference (name : String) : ¬ HoldsParams (.reference name) params := by
  simp [reference]

@[simp]
theorem holdsParams_array : HoldsParams (.array type) params ↔ type.HoldsParams params := by
  rw [holdsParams_iff]
  simp [parts]

@[simp]
theorem holdsParams_union
    : HoldsParams (.union types) params ↔ ∃ type ∈ types, type.HoldsParams params := by
  rw [holdsParams_iff]
  simp [parts]

@[simp]
theorem holdsParams_object {members : List (Member TsType)}
    : HoldsParams (.object members) params
      ↔ ∃ type ∈ members.flatMap Member.types, type.HoldsParams params := by
  rw [holdsParams_iff]
  simp [parts]

theorem holdsParams_function {own : List (Param TsType)} {receiver : Option TsType}
    : HoldsParams (.function own type receiver) params
      ↔ own = params
        ∨ (∃ param ∈ own, param.type.HoldsParams params)
        ∨ type.HoldsParams params
        ∨ ∃ type ∈ receiver, type.HoldsParams params := by
  rw [holdsParams_iff]
  simp [parts, or_and_right, exists_or]

/-- A union keeps every function type of what it is made of. -/
theorem holdsParams_unionOf
    : (unionOf types).HoldsParams params ↔ ∃ type ∈ types, type.HoldsParams params := by
  constructor
  · rintro ⟨result, receiver, inside⟩
    obtain ⟨type, mem, inside⟩ := (inside_unionOf (by nofun)).1 inside
    exact ⟨type, mem, result, receiver, inside⟩
  · rintro ⟨type, mem, result, receiver, inside⟩
    exact ⟨result, receiver, (inside_unionOf (by nofun)).2 ⟨type, mem, inside⟩⟩

@[simp]
theorem holdsParams_orNull : type.orNull.HoldsParams params ↔ type.HoldsParams params := by
  simp [orNull, holdsParams_unionOf]

end Typings.TsType
