import Typings.Hint.Token

/-!
Why the text of a hint, or of a template tag, cannot be read.
-/

namespace Typings.Hint

/-- What is wrong at the place where reading stopped. -/
inductive Cause where
  /-- Another token had to stand there. -/
  | expected (wanted found : Token.Kind)
  /-- No type begins with that token. -/
  | noType (found : Token.Kind)
  /-- No field of a record is named by that token. -/
  | noFieldName (found : Token.Kind)
  /-- A token follows the whole hint. -/
  | trailing (found : Token.Kind)
  /-- The bound of a template tag is never closed. -/
  | openBound
deriving DecidableEq

/-- The wording of a cause. -/
def Cause.message : Cause → String
  | expected wanted found => "expected " ++ wanted.label ++ ", found " ++ found.label
  | noType found => "unexpected token in type position: " ++ found.label
  | noFieldName found => "expected field name, found " ++ found.label
  | trailing found => "unexpected trailing " ++ found.label
  | openBound => "unterminated `\x7b` in template tag"

/-- A cause, and the number of tokens left where reading stopped. -/
structure Fault where
  cause : Cause
  left : Nat
deriving DecidableEq

/-- A cause, and the offset in bytes where reading stopped. -/
structure Error where
  cause : Cause
  position : Nat
deriving DecidableEq

/-- The wording of an error. -/
def Error.message (error : Error) : String :=
  "parse error at " ++ toString error.position ++ ": " ++ error.cause.message

/-- The token that stands first in `ts`, or the end of the text. -/
def found (ts : List Token.Kind) : Token.Kind :=
  ts.head?.getD .finish

/-- Another token than `wanted` stands first in `ts`. -/
def Fault.expected (wanted : Token.Kind) (ts : List Token.Kind) : Fault :=
  ⟨.expected wanted (found ts), ts.length⟩

/-- No type begins with what stands first in `ts`. -/
def Fault.noType (ts : List Token.Kind) : Fault :=
  ⟨.noType (found ts), ts.length⟩

/-- The token that is no name of a field has been passed, and `rest` follows it. -/
def Fault.noFieldName (token : Token.Kind) (rest : List Token.Kind) : Fault :=
  ⟨.noFieldName token, rest.length⟩

/-- `ts` follows a whole hint. -/
def Fault.trailing (ts : List Token.Kind) : Fault :=
  ⟨.trailing (found ts), ts.length⟩

end Typings.Hint
