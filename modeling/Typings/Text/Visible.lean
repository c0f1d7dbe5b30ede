import Typings.Text.Hidden
import Typings.Text.Mark

/-!
Texts in messages: a name between backticks, or a text in double quotes in which every character
can be seen.
-/

namespace Typings.Text

/-- A name between backticks. -/
def ticked (name : String) : String :=
  "`" ++ name ++ "`"

/-- The escape of a character by its code point in hexadecimal. -/
def coded (c : Char) : List Char :=
  ['\\', 'u', '\x7b'] ++ Nat.toDigits 16 c.toNat ++ ['\x7d']

/-- How one character stands in a visible text: short escapes first, then marks and hidden
characters by their code points. -/
def reveal (c : Char) : List Char :=
  match c with
  | '\x00' => ['\\', '0']
  | '\t' => ['\\', 't']
  | '\r' => ['\\', 'r']
  | '\n' => ['\\', 'n']
  | '\\' => ['\\', '\\']
  | '"' => ['\\', '"']
  | c => if isMark c || isHidden c then coded c else [c]

/-- `text` in double quotes with every character visible. -/
def visible (text : String) : String :=
  String.ofList ('"' :: (text.toList.flatMap reveal ++ ['"']))

end Typings.Text
