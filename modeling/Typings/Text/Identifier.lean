import Typings.Text.Letter
import Typings.Text.Numeral

/-!
Identifiers: the names that a declaration can carry without quotes.
-/

namespace Typings.Text

/-- Letters, the underscore and the dollar sign begin a name. -/
def isNameStart (c : Char) : Bool :=
  isLetter c || c == '_' || c == '$'

/-- A name goes on with the characters that begin one and with numerals. -/
def isNameChar (c : Char) : Bool :=
  isLetter c || isNumeral c || c == '_' || c == '$'

/-- Whether `text` is one name. -/
def isIdentifier (text : String) : Bool :=
  match text.toList with
  | [] => false
  | c :: cs => isNameStart c && cs.all isNameChar

/-- A name made of `text`: what no name holds becomes an underscore, and an underscore is put
before an ASCII digit or nothing at all. -/
def nameOf (text : String) : String :=
  let body := text.toList.map fun c => if isNameChar c then c else '_'
  match body with
  | [] => "_"
  | c :: _ => if c.isDigit then String.ofList ('_' :: body) else String.ofList body

theorem isNameChar_of_isNameStart {c : Char} (h : isNameStart c = true)
    : isNameChar c = true := by
  simp only [isNameStart, Bool.or_eq_true] at h
  simp only [isNameChar, Bool.or_eq_true]
  rcases h with (h | h) | h <;> simp [h]

end Typings.Text
