import Typings.Toml.Number

/-!
Dates and times of TOML, as far as they are well written and exist in the calendar.
-/

namespace Typings.Toml

/-- The number that a text of exactly `count` decimal digits gives. -/
def fixed? (count : Nat) (cs : List Char) : Option Nat :=
  if cs.length == count && cs.all Char.isDigit then some (runValue 10 cs) else none

/-! ### Dates -/

/-- Every fourth year is a leap year, but of the full centuries only every fourth. -/
def isLeapYear (year : Nat) : Bool :=
  year % 4 == 0 && (year % 100 != 0 || year % 400 == 0)

/-- The number of days in a month, which is counted from one. -/
def daysIn (year month : Nat) : Nat :=
  match month with
  | 2 => if isLeapYear year then 29 else 28
  | 4 | 6 | 9 | 11 => 30
  | _ => 31

/-- Whether there is such a day. -/
def isDay (year month day : Nat) : Bool :=
  decide (1 ≤ month) && decide (month ≤ 12) && decide (1 ≤ day) && decide (day ≤ daysIn year month)

/-- Whether a text is a date: a year of four digits, a month and a day of two. -/
def isDate (cs : List Char) : Bool :=
  match Text.split '-' cs with
  | [year, month, day] =>
    match fixed? 4 year, fixed? 2 month, fixed? 2 day with
    | some year, some month, some day => isDay year month day
    | _, _, _ => false
  | _ => false

/-! ### Times -/

/-- Whether a text is two digits of a number that is at most `most`. -/
def isUpTo (most : Nat) (cs : List Char) : Bool :=
  (fixed? 2 cs).any (· ≤ most)

/-- Whether a text is a second, which a leap second may be, with or without a fraction. -/
def isSecond (cs : List Char) : Bool :=
  let (second, fraction) := cutAt (· == '.') cs
  isUpTo 60 second && fraction.all fun digits => !digits.isEmpty && digits.all Char.isDigit

/-- Whether a text is the hour, minute and second of a day. -/
def isClock (cs : List Char) : Bool :=
  match Text.split ':' cs with
  | [hour, minute, second] => isUpTo 23 hour && isUpTo 59 minute && isSecond second
  | _ => false

/-- Whether a text is the offset of a place from universal time. -/
def isOffset (cs : List Char) : Bool :=
  match cs with
  | ['Z'] | ['z'] => true
  | '+' :: rest | '-' :: rest =>
    match Text.split ':' rest with
    | [hour, minute] => isUpTo 23 hour && isUpTo 59 minute
    | _ => false
  | _ => false

/-- Whether an offset begins with a character. -/
def beginsOffset (c : Char) : Bool :=
  c == 'Z' || c == 'z' || c == '+' || c == '-'

/-- Whether a text is a time of day behind a date, with or without an offset. -/
def isTime (cs : List Char) : Bool :=
  let offset := cs.dropWhile fun c => !beginsOffset c
  isClock (cs.takeWhile fun c => !beginsOffset c) && (offset.isEmpty || isOffset offset)

/-- The number of characters of a date. -/
def dateLength : Nat := 10

/-- Whether a word is a date, a time of day, or both with a letter between them. -/
def isMoment (word : List Char) : Bool :=
  isClock word
    || isDate (word.take dateLength)
      && match word.drop dateLength with
        | [] => true
        | c :: time => (c == 'T' || c == 't') && isTime time

end Typings.Toml
