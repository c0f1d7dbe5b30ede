import Typings.Text.Ranges

/-!
Blank characters are those with the Unicode property White_Space. Texts are trimmed and cut into
words at blanks.
-/

namespace Typings.Text

/-- The ranges of the property White_Space beyond ASCII. -/
def blankRanges : List (Nat × Nat) :=
  [(0x85, 0x85), (0xa0, 0xa0), (0x1680, 0x1680), (0x2000, 0x200a), (0x2028, 0x2029),
    (0x202f, 0x202f), (0x205f, 0x205f), (0x3000, 0x3000)]

/-- A blank is a space, one of the five ASCII controls from tab to return, or in the table. -/
def isBlank (c : Char) : Bool :=
  if c.toNat < 128 then c == ' ' || (decide (9 ≤ c.toNat) && decide (c.toNat ≤ 13))
  else inRanges blankRanges c.toNat

/-- `cs` without the blanks at its front. -/
def trimFront (cs : List Char) : List Char :=
  cs.dropWhile isBlank

/-- `cs` without the blanks at its end. -/
def trimEnd (cs : List Char) : List Char :=
  (cs.reverse.dropWhile isBlank).reverse

/-- `cs` without the blanks at both ends. -/
def trim (cs : List Char) : List Char :=
  trimEnd (trimFront cs)

/-- Whether a text holds nothing but blanks. -/
def isBlankText (text : String) : Bool :=
  text.toList.all isBlank

/-- The first run of characters that are not blank, if there is one. -/
def firstWord? (cs : List Char) : Option (List Char) :=
  match (trimFront cs).takeWhile fun c => !isBlank c with
  | [] => none
  | word => some word

end Typings.Text
