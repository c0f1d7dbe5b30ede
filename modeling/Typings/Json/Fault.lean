import Typings.Json.Number
import Typings.Text.Visible

/-!
What can be wrong with a JSON text: it is malformed, or it holds another value than the one that
is wanted.
-/

namespace Typings.Json

/-- Why a text is no JSON, or holds what no reader takes. -/
inductive Malformed where
  | endInList | endInRecord | endInText | endInValue
  | noColon | noCommaInList | noCommaInRecord | trailingComma
  | noLiteral | noValue | noKey
  | badEscape | badNumber | controlCharacter
  | loneSurrogate | openSurrogate
  | numberTooGreat | tooDeep
  | trailing
deriving DecidableEq

/-- The wording of a malformed text. -/
def Malformed.message : Malformed → String
  | endInList => "EOF while parsing a list"
  | endInRecord => "EOF while parsing an object"
  | endInText => "EOF while parsing a string"
  | endInValue => "EOF while parsing a value"
  | noColon => "expected `:`"
  | noCommaInList => "expected `,` or `]`"
  | noCommaInRecord => "expected `,` or `\x7d`"
  | trailingComma => "trailing comma"
  | noLiteral => "expected ident"
  | noValue => "expected value"
  | noKey => "key must be a string"
  | badEscape => "invalid escape"
  | badNumber => "invalid number"
  | controlCharacter => "control character (\\u0000-\\u001F) found while parsing a string"
  | loneSurrogate => "lone leading surrogate in hex escape"
  | openSurrogate => "unexpected end of hex escape"
  | numberTooGreat => "number out of range"
  | tooDeep => "recursion limit exceeded"
  | trailing => "trailing characters"

/-- What a text holds in place of the wanted value. -/
inductive Found where
  | null
  | boolean (value : Bool)
  | number (value : Number)
  | text (value : String)
  | list
  | record
deriving DecidableEq

/-- The wording of what was found. -/
def Found.message : Found → String
  | null => "null"
  | boolean value => "boolean " ++ Text.ticked (if value then "true" else "false")
  | number (.integer value) => "integer " ++ Text.ticked (toString value)
  | number (.float value) => "floating point " ++ Text.ticked (Number.floatText value)
  | text value => "string " ++ Text.visible value
  | list => "sequence"
  | record => "map"

/-- Why a JSON text does not hold the wanted value. -/
inductive Mismatch where
  /-- A value of another kind stands there. -/
  | kind (found : Found) (wanted : String)
  /-- A list is too short to stand for a record. -/
  | tooShort (length : Nat) (wanted : String)
  /-- A record lacks a field. -/
  | missing (key : String)
  /-- A record has a field twice. -/
  | duplicate (key : String)
  /-- A text is none of the known choices. -/
  | choice (found : String) (known : List String)
  /-- A text is not the name of any such thing. -/
  | unknown (noun found : String)
deriving DecidableEq

/-- The wording of a mismatch. -/
def Mismatch.message : Mismatch → String
  | kind found wanted => "invalid type: " ++ found.message ++ ", expected " ++ wanted
  | tooShort length wanted => "invalid length " ++ toString length ++ ", expected " ++ wanted
  | missing key => "missing field " ++ Text.ticked key
  | duplicate key => "duplicate field " ++ Text.ticked key
  | choice found known =>
    "unknown variant " ++ Text.ticked found ++ ", expected one of "
      ++ ", ".intercalate (known.map Text.ticked)
  | unknown noun found => "unknown " ++ noun ++ " " ++ Text.ticked found

/-- What is wrong with a JSON text. -/
inductive Fault where
  | malformed (cause : Malformed)
  | mismatch (cause : Mismatch)
deriving DecidableEq

/-- The wording of a fault. -/
def Fault.message : Fault → String
  | malformed cause => cause.message
  | mismatch cause => cause.message

end Typings.Json
