import Typings.Json.Shortest

/-!
Numbers of JSON. A number without a point or an exponent is an integer as long as 64 bits hold it;
any other is a floating-point number, scaled from at most twenty digits by rounded powers of ten.
-/

namespace Typings.Json

/-- The value of a number. -/
inductive Number where
  | integer (value : Int)
  | float (value : Binary64)
deriving DecidableEq

/-- A number as it is written, by its digits. -/
structure Numeral where
  negative : Bool
  whole : List Nat
  fraction : Option (List Nat)
  exponent : Option (Bool × List Nat)

namespace Numeral

/-- The greatest significand. -/
def maxSignificand : Nat := Nat.pow 2 64 - 1

/-- The digits of the whole part as a significand, and the number of those that it has no room
for: the first such digit and all after it. -/
def wholePart (digits : List Nat) : Nat × Nat :=
  digits.foldl
    (fun (significand, dropped) digit =>
      if dropped = 0 && decide (significand * 10 + digit ≤ maxSignificand) then
        (significand * 10 + digit, 0)
      else (significand, dropped + 1))
    (0, 0)

/-- The digits of a fraction added to a significand, and the number of those added. Digits are
left out from the first that has no room. -/
def addFraction (significand : Nat) : List Nat → Nat × Nat
  | [] => (significand, 0)
  | digit :: digits =>
    if significand * 10 + digit ≤ maxSignificand then
      let (significand, added) := addFraction (significand * 10 + digit) digits
      (significand, added + 1)
    else (significand, 0)

/-- The greatest power of ten among the floating-point numbers. -/
def maxTenPow : Nat := 308

/-- `x` divided `count` times by the greatest power of ten, or until it is zero. -/
def divideSteps (x : Binary64) : Nat → Option Binary64
  | 0 => some x
  | count + 1 =>
    if x.mantissa = 0 then some x
    else do
      let y ← x.dividedBy (← Binary64.tenPow maxTenPow)
      divideSteps y count

/-- `x` divided by ten to the power `n`, in as many steps as that takes. -/
def divideByTenPow (x : Binary64) (n : Nat) : Option Binary64 := do
  let y ← divideSteps x (n / maxTenPow)
  y.dividedBy (← Binary64.tenPow (n % maxTenPow))

/-- `significand * 10 ^ exponent` as a floating-point number, or none where it is too great. -/
def scale (negative : Bool) (significand : Nat) (exponent : Int) : Option Binary64 := do
  let x ← Binary64.ofRatio negative significand 1
  if (maxTenPow : Int) < exponent then if significand = 0 then some x else none
  else if 0 ≤ exponent then x.times (← Binary64.tenPow exponent.toNat)
  else divideByTenPow x (-exponent).toNat

/-- The value of decimal digits. -/
def ofDigits (digits : List Nat) : Nat :=
  digits.foldl (fun value digit => value * 10 + digit) 0

/-- The greatest exponent that is taken at its word. -/
def maxExponent : Nat := Nat.pow 2 31 - 1

/-- The value of a number that is written with a point or an exponent, or whose whole part is too
long. -/
def toFloat (n : Numeral) : Option Binary64 :=
  let (significand, dropped) := wholePart n.whole
  let (significand, added) := addFraction significand (n.fraction.getD [])
  let start : Int := dropped - added
  match n.exponent with
  | none => scale n.negative significand start
  | some (negative, digits) =>
    let exponent := ofDigits digits
    if maxExponent < exponent then
      if significand ≠ 0 && !negative then none else some (.zero n.negative)
    else scale n.negative significand (if negative then start - exponent else start + exponent)

/-- The value of a number, or none where it is beyond the greatest floating-point number. -/
def toNumber (n : Numeral) : Option Number :=
  let (significand, dropped) := wholePart n.whole
  if n.fraction.isSome || n.exponent.isSome || dropped ≠ 0 then n.toFloat.map .float
  else if !n.negative then some (.integer significand)
  else if significand = 0 || Nat.pow 2 63 < significand then
    (Binary64.ofRatio true significand 1).map .float
  else some (.integer (-significand))

end Numeral

namespace Number

/-- The decimal digits of a natural number. -/
def digits (n : Nat) : String :=
  String.ofList (Nat.toDigits 10 n)

/-- A run of zeros. -/
def zeros (count : Nat) : String :=
  String.ofList (List.replicate count '0')

/-- Numbers from this power of ten on are written with an exponent. -/
def exponentFrom : Int := 16

/-- Numbers below this power of ten are written with an exponent. -/
def exponentBelow : Int := -5

/-- The power of ten of the first digit of a decimal. -/
def leading (decimal : Decimal) : Int :=
  decimal.exponent + (Nat.toDigits 10 decimal.digits).length - 1

/-- The text of a decimal with one digit before the point and a signed exponent. -/
def exponentText (decimal : Decimal) : String :=
  let ds := Nat.toDigits 10 decimal.digits
  let leading := leading decimal
  let sign := if leading < 0 then "-" else "+"
  let fraction := if ds.length ≤ 1 then "" else "." ++ String.ofList (ds.drop 1)
  String.ofList (ds.take 1) ++ fraction ++ "e" ++ sign ++ digits leading.natAbs

/-- The text of a decimal without an exponent, with at least one place. -/
def positionalText (decimal : Decimal) : String :=
  let ds := Nat.toDigits 10 decimal.digits
  let leading := leading decimal
  if leading < 0 then "0." ++ zeros (leading.natAbs - 1) ++ String.ofList ds
  else if 0 ≤ decimal.exponent then String.ofList ds ++ zeros decimal.exponent.toNat ++ ".0"
  else
    let point := leading.toNat + 1
    String.ofList (ds.take point) ++ "." ++ String.ofList (ds.drop point)

/-- The text of a decimal: with an exponent where it is very great or very small. -/
def decimalText (decimal : Decimal) : String :=
  let leading := leading decimal
  if leading < exponentBelow || exponentFrom ≤ leading then exponentText decimal
  else positionalText decimal

/-- The text of a floating-point number, with its shortest decimal written as `layout` says. -/
def textOf (layout : Decimal → String) (x : Binary64) : String :=
  (if x.negative then "-" else "")
    ++ if x.mantissa = 0 then "0.0" else layout (Decimal.shortest x)

/-- The text of a floating-point number. -/
def floatText (x : Binary64) : String :=
  textOf decimalText x

/-- The text of a number. -/
def text : Number → String
  | integer value => toString value
  | float value => floatText value

end Number

end Typings.Json
