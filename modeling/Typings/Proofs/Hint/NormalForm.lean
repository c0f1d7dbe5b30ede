import Typings.Hint.Template
import Typings.Proofs.Hint.Closure

/-! The types of hints and of template tags are in normal form, since that is kept by whatever
phrases make of types.
-/

namespace Typings.Hint

open TsType

theorem closed_normal : Closed (fun _ => True) TsType.Normal where
  primitive := normal_primitive
  string _ := normal_of_parts nofun nofun
  number _ := normal_of_parts nofun nofun
  boolean _ := normal_of_parts nofun nofun
  array := normal_array
  object := normal_object
  function := normal_function
  union := normal_unionOf
  functionName _ := normal_reference _
  named _ := normal_named

variable {source : String} {type : TsType}

theorem normal_of_parse {hint : Hint} (accepted : parse source = .ok hint) : hint.type.Normal :=
  closed_normal.of_parse accepted fun _ _ => trivial

theorem normal_of_parseType (accepted : parseType source = .ok type) : type.Normal := by
  obtain ⟨hint, parsed, rfl⟩ := parseType_ok_iff.1 accepted
  exact normal_of_parse parsed

/-- Marks make a type that is no union, no array and not null exactly if they are put on that type
and are exclamation marks.
-/
theorem foldl_on_eq_iff (noUnion : ∀ members, type ≠ .union members)
    (noArray : ∀ element, type ≠ .array element) (notNull : type ≠ .primitive .null)
    (marks : List Phrase.Mark) {inner : TsType} (normal : inner.Normal)
    : marks.foldl Phrase.Mark.on inner = type ↔ inner = type ∧ ∀ mark ∈ marks, mark = .bang := by
  induction marks generalizing inner with
  | nil => simp
  | cons mark marks ih =>
      cases mark with
      | brackets => simp [ih (normal_array normal), Phrase.Mark.on, (noArray _).symm]
      | question =>
          simp [ih normal.orNull, Phrase.Mark.on, orNull_ne noUnion notNull normal]
      | bang => simp [ih normal, Phrase.Mark.on]

theorem normal_of_template {text : String} {params : List TypeParam}
    (accepted : Template.params text = .ok params)
    : ∀ param ∈ params, ∀ type ∈ param.types, type.Normal := by
  have bounded {bound : Option TsType} (normal : ∀ type ∈ bound, type.Normal) (cs : List Char)
      : ∀ param ∈ Template.paramsWith bound cs, ∀ type ∈ param.types, type.Normal := by
    intro param mem
    obtain ⟨name, -, rfl⟩ := List.mem_map.1 mem
    simpa [TypeParam.types] using normal
  unfold Template.params at accepted
  split at accepted
  · split at accepted
    · cases accepted
    · split at accepted
      · cases accepted
      · rename_i read
        cases accepted
        exact bounded (by simpa using normal_of_parseType read) _
  · cases accepted
    exact bounded (by simp) _

end Typings.Hint
