import Typings.TsType.Basic

/-!
Unions of types. A union is built flat and without repetition, and a single alternative is no
union.
-/

namespace Typings.TsType

/-- What a type contributes to a union: its alternatives if it is one, else itself. -/
def alternatives : TsType → List TsType
  | .union members => members
  | type => [type]

/-- The union of `types`: their alternatives in order of first appearance. -/
def unionOf (types : List TsType) : TsType :=
  match (types.flatMap alternatives).eraseDups with
  | [type] => type
  | members => .union members

/-- `type`, or null. -/
def orNull (type : TsType) : TsType :=
  unionOf [type, .primitive .null]

/-- `type`, or undefined. -/
def orUndefined (type : TsType) : TsType :=
  unionOf [type, .primitive .undefined]

theorem unionOf_singleton_of_ne {type : TsType} (h : ∀ members, type ≠ .union members)
    : unionOf [type] = type := by
  cases type <;> simp_all [unionOf, alternatives, List.eraseDups_cons]

end Typings.TsType
