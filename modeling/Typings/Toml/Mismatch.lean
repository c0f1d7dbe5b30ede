import Typings.Toml.Table

/-!
What can be wrong with a document that is well written: a value in it is not the one that is
wanted.
-/

namespace Typings.Toml

/-- What stands in a document in place of the wanted value. -/
inductive Found where
  | scalar (content : Scalar)
  | list
  | table
deriving DecidableEq

/-- The wording of what was found. -/
def Found.message : Found → String
  | scalar content => content.label
  | list => "sequence"
  | table => "map"

/-- What a value is, for messages. -/
def Value.found : Value → Found
  | .scalar _ content => .scalar content
  | .list .. | .tables _ => .list
  | .table .. => .table

/-- Why a value is not the wanted one. -/
inductive Mismatch where
  /-- A value of another kind stands there. -/
  | kind (found : Found) (wanted : String)
  /-- A list is too short to stand for a table. -/
  | tooShort (length : Nat) (wanted : String)
  /-- A table has a key that it should not have. -/
  | unknownKey (name : String) (known : List String)
  /-- A text is none of the known choices. -/
  | choice (found : String) (known : List String)
  /-- Neither a text nor a table stands where a choice is wanted. -/
  | noChoice
  /-- A table that should name a choice is empty. -/
  | emptyChoice
  /-- A table that should name a choice has more than one key. -/
  | manyChoices
  /-- What stands behind the name of a choice is a table that is not empty. -/
  | filledTable
  /-- What stands behind the name of a choice is a list that is not empty. -/
  | filledList
  /-- What stands behind the name of a choice is no table. -/
  | noTable (found : String)
deriving DecidableEq

/-- The wording of what may stand in a place. -/
def oneOf (names : List String) : String :=
  match names with
  | [name] => Text.ticked name
  | names => "one of " ++ ", ".intercalate (names.map Text.ticked)

/-- The wording of a mismatch. -/
def Mismatch.message : Mismatch → String
  | kind found wanted => "invalid type: " ++ found.message ++ ", expected " ++ wanted
  | tooShort length wanted => "invalid length " ++ toString length ++ ", expected " ++ wanted
  | unknownKey name known => "unknown field " ++ Text.ticked name ++ ", expected " ++ oneOf known
  | choice found known => "unknown variant " ++ Text.ticked found ++ ", expected " ++ oneOf known
  | noChoice => "wanted string or table"
  | emptyChoice => "wanted exactly 1 element, found 0 elements"
  | manyChoices => "wanted exactly 1 element, more than 1 element"
  | filledTable => "expected empty table"
  | filledList => "expected empty array"
  | noTable found => "expected table, found " ++ found

/-- A mismatch, and the place where it is. -/
structure Misfit where
  span : Span
  cause : Mismatch
deriving DecidableEq

/-- Where a value stands, or else the place that its key or its list has. -/
def Value.spanIn (place : Span) (value : Value) : Span :=
  value.span?.getD place

/-- A fault of a value. -/
def Value.misfit {α : Type} (value : Value) (place : Span) (cause : Mismatch) : Except Misfit α :=
  .error ⟨value.spanIn place, cause⟩

end Typings.Toml
