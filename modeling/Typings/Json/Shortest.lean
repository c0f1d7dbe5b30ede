import Typings.Json.Binary64

/-!
The shortest decimal of a floating-point number: the fewest digits that read back as the number
and, of those, the nearest to it.
-/

namespace Typings.Json

/-- The decimal number `digits * 10 ^ exponent`. -/
structure Decimal where
  digits : Nat
  exponent : Int
deriving DecidableEq

namespace Decimal

/-- `num * 10 ^ shift / den` as a quotient of natural numbers. -/
def scaled (num den : Nat) (shift : Int) : Nat × Nat :=
  if 0 ≤ shift then (num * Nat.pow 10 shift.toNat, den) else (num, den * Nat.pow 10 (-shift).toNat)

/-- Whether the number nearest to a decimal is `x`, signs aside. -/
def readsBack (x : Binary64) (decimal : Decimal) : Bool :=
  let (num, den) := scaled decimal.digits 1 decimal.exponent
  Binary64.ofRatio x.negative num den == some x

/-- The power of ten of the first digit of `num / den`, which is not zero. -/
def leading (num den : Nat) : Int :=
  if den ≤ num then (Nat.toDigits 10 (num / den)).length - 1
  else -(Nat.toDigits 10 ((den - 1) / num)).length

/-- The decimal one above `below * 10 ^ exponent` in its last of `count` digits. A carry out of the
first digit leaves a single one. -/
def next (below : Nat) (exponent : Int) (count : Nat) : Decimal :=
  if below + 1 = Nat.pow 10 count then ⟨1, exponent + count⟩ else ⟨below + 1, exponent⟩

/-- Whether `below * 10 ^ exponent` is nearer to `x` than the decimal one above it in its last
digit; in a tie, whether its last digit is even. -/
def belowIsNearer (x : Binary64) (below : Nat) (exponent : Int) : Bool :=
  let (num, den) := x.ratio
  let (n, d) := scaled num den (-exponent)
  let rest := 2 * (n - below * d)
  rest < d || (rest == d && below % 2 == 0)

/-- The decimal with `count` digits that reads back as `x` and is nearest to it, if there is
one. -/
def ofDigits? (x : Binary64) (count : Nat) : Option Decimal :=
  let (num, den) := x.ratio
  let exponent := leading num den + 1 - count
  let (n, d) := scaled num den (-exponent)
  let below := n / d
  let above := next below exponent count
  match readsBack x ⟨below, exponent⟩, readsBack x above with
  | true, true => some (if belowIsNearer x below exponent then ⟨below, exponent⟩ else above)
  | true, false => some ⟨below, exponent⟩
  | false, true => some above
  | false, false => none

/-- The shortest decimal of a number that is not zero. Seventeen digits are always enough. -/
def shortest (x : Binary64) : Decimal :=
  (((List.range 17).findSome? fun count => ofDigits? x (count + 1))).getD ⟨0, 0⟩

end Decimal

end Typings.Json
