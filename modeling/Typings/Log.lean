import Typings.Text.Visible
import Typings.Warning

/-!
The log of a run: one record for each warning, with its message and its kind. Characters that a
terminal may take for orders stand in it by their codes.
-/

namespace Typings.Log

/-- The escape of a character by the two hexadecimal digits of its code. -/
def twoDigits (c : Char) : List Char :=
  ['\\', 'x', Nat.digitChar (c.toNat / 16), Nat.digitChar (c.toNat % 16)]

/-- How one character of a message stands in the log. -/
def escape (c : Char) : List Char :=
  match c with
  | '\x07' | '\x08' | '\x0c' | '\x1b' | '\x7f' => twoDigits c
  | c => if 0x80 ≤ c.toNat ∧ c.toNat ≤ 0x9f then Text.coded c else [c]

/-- The record of a warning. -/
def record (warning : Warning) : String :=
  "WARN " ++ String.ofList (warning.message.toList.flatMap escape) ++ " kind=" ++ warning.kind.label

end Typings.Log
