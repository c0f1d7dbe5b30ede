/-!
Finite binary floating-point numbers of 64 bits, as exact values. Every operation forms its result
as a quotient of integers and rounds it once, to the nearest number, a tie to the even one.
-/

namespace Typings.Json

/-- The number `mantissa * 2 ^ exponent`, or its negation. -/
structure Binary64 where
  negative : Bool
  mantissa : Nat
  exponent : Int
deriving DecidableEq

namespace Binary64

/-- The least exponent, which numbers near zero have. -/
def minExponent : Int := -1074

/-- The greatest exponent. -/
def maxExponent : Int := 971

/-- Zero, with its sign. -/
def zero (negative : Bool) : Binary64 :=
  ⟨negative, 0, minExponent⟩

/-- `num * 2 ^ shift / den` as a quotient of natural numbers. -/
def scaled (num den : Nat) (shift : Int) : Nat × Nat :=
  if 0 ≤ shift then (num * Nat.pow 2 shift.toNat, den) else (num, den * Nat.pow 2 (-shift).toNat)

/-- `num / den` rounded to the nearest integer, a tie to the even one. -/
def roundHalfEven (num den : Nat) : Nat :=
  let quotient := num / den
  let rest := num % den
  if 2 * rest < den then quotient
  else if den < 2 * rest then quotient + 1
  else quotient + quotient % 2

/-- The exponent for which `num / den` takes 53 bits, or the least exponent. -/
def exponentOf (num den : Nat) : Int :=
  let guess : Int := (num.log2 : Int) - (den.log2 : Int)
  let (n, d) := scaled num den (-guess)
  max minExponent ((if d ≤ n then guess else guess - 1) - 52)

/-- `num / den` rounded to the nearest number, or none where that is beyond the greatest. -/
def ofRatio (negative : Bool) (num den : Nat) : Option Binary64 :=
  if num = 0 then some (zero negative)
  else
    let exponent := exponentOf num den
    let (n, d) := scaled num den (-exponent)
    let mantissa := roundHalfEven n d
    let (mantissa, exponent) :=
      if mantissa = Nat.pow 2 53 then (Nat.pow 2 52, exponent + 1) else (mantissa, exponent)
    if maxExponent < exponent then none else some ⟨negative, mantissa, exponent⟩

/-- The magnitude of a number as a quotient of natural numbers. -/
def ratio (x : Binary64) : Nat × Nat :=
  scaled x.mantissa 1 x.exponent

/-- The rounded product of two numbers. -/
def times (x y : Binary64) : Option Binary64 :=
  let (num, den) := scaled (x.mantissa * y.mantissa) 1 (x.exponent + y.exponent)
  ofRatio (x.negative != y.negative) num den

/-- The rounded quotient of two numbers, of which the second is not zero. -/
def dividedBy (x y : Binary64) : Option Binary64 :=
  let (num, den) := scaled x.mantissa y.mantissa (x.exponent - y.exponent)
  ofRatio (x.negative != y.negative) num den

/-- Ten to the power `n`, rounded. -/
def tenPow (n : Nat) : Option Binary64 :=
  ofRatio false (Nat.pow 10 n) 1

end Binary64

end Typings.Json
