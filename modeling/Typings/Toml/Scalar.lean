import Typings.Text.Visible
import Typings.Toml.Moment

/-!
Values of TOML without parts: texts, truth values, numbers, and moments such as dates.
-/

namespace Typings.Toml

/-- A value without parts. Of a moment only that it is one is kept. -/
inductive Scalar where
  | text (value : String)
  | boolean (value : Bool)
  | integer (value : Int)
  | float (value : Floating)
  | moment
deriving DecidableEq

namespace Scalar

/-- The name of a kind of values. -/
def noun : Scalar → String
  | text _ => "string"
  | boolean _ => "boolean"
  | integer _ => "integer"
  | float _ => "float"
  | moment => "datetime"

/-- The wording of a value that stands in place of another. A moment counts as a table. -/
def label : Scalar → String
  | text value => "string " ++ Text.visible value
  | boolean value => "boolean " ++ Text.ticked (if value then "true" else "false")
  | integer value => "integer " ++ Text.ticked (toString value)
  | float value => "floating point " ++ Text.ticked value.text
  | moment => "map"

/-- The value of a word: a truth value, a number or a moment. -/
def ofWord? (word : List Char) : Option Scalar :=
  if word = "true".toList then some (.boolean true)
  else if word = "false".toList then some (.boolean false)
  else if isMoment word then some .moment
  else
    match readInteger? word with
    | some value => some (.integer value)
    | none => (readFloat? word).map .float

end Scalar

end Typings.Toml
