import Typings.Json.Number
import Typings.Text.Split
import Typings.Toml.Text

/-!
Numbers of TOML. Single underscores may set digits apart; an integer has to fit 64 bits with a sign,
and a positive floating-point number must not be too great.
-/

namespace Typings.Toml

/-! ### Digits -/

/-- Whether a character is a digit in a base. -/
def isDigitIn (base : Nat) (c : Char) : Bool :=
  (hexDigit? c).any (· < base)

/-- Whether a text is a run of digits, some of them with a single underscore between them. -/
def isRun (base : Nat) (cs : List Char) : Bool :=
  (Text.split '_' cs).all fun part => !part.isEmpty && part.all (isDigitIn base)

/-- The value of the digits in a run. -/
def runValue (base : Nat) (cs : List Char) : Nat :=
  (cs.filterMap hexDigit?).foldl (fun value digit => value * base + digit) 0

/-- Whether a text is a run of decimal digits that begins with a zero only if it is one. -/
def isWhole (cs : List Char) : Bool :=
  isRun 10 cs && (cs == ['0'] || cs.head? != some '0')

/-- Whether a minus sign stands at the front of a text, and what follows its sign. -/
def splitSign (cs : List Char) : Bool × List Char :=
  match cs with
  | '-' :: rest => (true, rest)
  | '+' :: rest => (false, rest)
  | rest => (false, rest)

/-- A text cut at its first mark: what stands before the mark, and what follows it if there is
one. -/
def cutAt (isMark : Char → Bool) (cs : List Char) : List Char × Option (List Char) :=
  (cs.takeWhile fun c => !isMark c, (cs.dropWhile fun c => !isMark c).tail?)

/-! ### Numbers -/

/-- The least natural number that is too great for an integer. Its negation is not too small. -/
def integerBound : Nat := Nat.pow 2 63

/-- The integer that a run in a base is. -/
def readIntegerIn? (base : Nat) (cs : List Char) : Option Int :=
  if isRun base cs && decide (runValue base cs < integerBound) then some (runValue base cs)
  else none

/-- The integer that a word is: in base ten with or without a sign, or else in the base that its
front tells. -/
def readInteger? (word : List Char) : Option Int :=
  match word with
  | '0' :: 'x' :: digits => readIntegerIn? 16 digits
  | '0' :: 'o' :: digits => readIntegerIn? 8 digits
  | '0' :: 'b' :: digits => readIntegerIn? 2 digits
  | word =>
    let (negative, digits) := splitSign word
    if !isWhole digits then none
    else if !negative then readIntegerIn? 10 digits
    else if runValue 10 digits ≤ integerBound then some (-(runValue 10 digits))
    else none

/-- A floating-point number. -/
inductive Floating where
  | finite (value : Json.Binary64)
  | infinite (negative : Bool)
  | undefined
deriving DecidableEq

/-- The text of a floating-point number, which never has an exponent. -/
def Floating.text : Floating → String
  | finite value => Json.Number.textOf Json.Number.positionalText value
  | infinite negative => if negative then "-inf" else "inf"
  | undefined => "NaN"

/-- `significand * 10 ^ exponent` as a floating-point number, or none where it is too great. -/
def scale? (negative : Bool) (significand : Nat) (exponent : Int) : Option Json.Binary64 :=
  let size := exponent + (Nat.toDigits 10 significand).length
  -- Only between these bounds is the power of ten formed, so a great exponent costs nothing.
  if significand = 0 || size < -323 then some (.zero negative)
  else if 309 < size then none
  else if 0 ≤ exponent then
    Json.Binary64.ofRatio negative (significand * Nat.pow 10 exponent.toNat) 1
  else Json.Binary64.ofRatio negative significand (Nat.pow 10 (-exponent).toNat)

/-- The floating-point number that a word is, with a fraction, an exponent or both. Below zero none
is too great: it counts as infinite. -/
def readFinite? (word : List Char) : Option Floating :=
  let (negative, body) := splitSign word
  let (mantissa, power) := cutAt (fun c => c == 'e' || c == 'E') body
  let (whole, fraction) := cutAt (· == '.') mantissa
  let (down, digits) := splitSign (power.getD ['0'])
  let exponent : Int := if down then -(runValue 10 digits) else runValue 10 digits
  let places := ((fraction.getD []).filterMap hexDigit?).length
  if (fraction.isSome || power.isSome) && isWhole whole && fraction.all (isRun 10)
      && isRun 10 digits then
    match scale? negative (runValue 10 (whole ++ fraction.getD [])) (exponent - places) with
    | some value => some (.finite value)
    | none => if negative then some (.infinite true) else none
  else none

/-- The floating-point number that a word is, among them infinity and what is no number. -/
def readFloat? (word : List Char) : Option Floating :=
  let (negative, name) := splitSign word
  if name = ['i', 'n', 'f'] then some (.infinite negative)
  else if name = ['n', 'a', 'n'] then some .undefined
  else readFinite? word

end Typings.Toml
