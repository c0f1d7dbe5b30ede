import Typings.Toml.Span

/-!
Texts of TOML: the four ways to write one, and the keys of tables. Readers take the characters from
the front of a source and give what is left, or nothing where the source fails. Each of their steps
uses up at least one character, so the length of the source bounds the steps.
-/

namespace Typings.Toml

/-- A character that may stand in a text or a comment as it is. -/
def isPlain (c : Char) : Bool :=
  c == '\t' || (decide (0x20 ≤ c.toNat) && c.toNat != 0x7f)

/-- A character that may stand between the parts of a line. -/
def isSpace (c : Char) : Bool :=
  c == ' ' || c == '\t'

/-- A source without the space at its front. -/
def skipSpace (cs : List Char) : List Char :=
  cs.dropWhile isSpace

/-- What follows the end of a line. -/
def newline? : List Char → Option (List Char)
  | '\n' :: rest => some rest
  | '\r' :: '\n' :: rest => some rest
  | _ => none

/-- A source without the space and the ends of lines at its front. -/
def skipBlank : List Char → List Char
  | '\n' :: rest => skipBlank rest
  | '\r' :: '\n' :: rest => skipBlank rest
  | c :: rest => if isSpace c then skipBlank rest else c :: rest
  | [] => []

/-- The value of a hexadecimal digit. -/
def hexDigit? (c : Char) : Option Nat :=
  if c.isDigit then some (c.toNat - '0'.toNat)
  else if 'a' ≤ c ∧ c ≤ 'f' then some (c.toNat - 'a'.toNat + 10)
  else if 'A' ≤ c ∧ c ≤ 'F' then some (c.toNat - 'A'.toNat + 10)
  else none

/-- The character with the code that the first `count` digits give. -/
def codedChar? (count : Nat) (cs : List Char) : Option (Char × List Char) := do
  let digits ← (cs.take count).mapM hexDigit?
  let code := digits.foldl (fun code digit => code * 16 + digit) 0
  if digits.length = count ∧ code.isValidChar then some (Char.ofNat code, cs.drop count)
  else none

/-- The character that an escape stands for, behind its backslash. -/
def escaped? : List Char → Option (Char × List Char)
  | 'b' :: rest => some ('\x08', rest)
  | 't' :: rest => some ('\t', rest)
  | 'n' :: rest => some ('\n', rest)
  | 'f' :: rest => some ('\x0c', rest)
  | 'r' :: rest => some ('\r', rest)
  | '"' :: rest => some ('"', rest)
  | '\\' :: rest => some ('\\', rest)
  | 'u' :: rest => codedChar? 4 rest
  | 'U' :: rest => codedChar? 8 rest
  | _ => none

/-- A text and what follows it, with characters put before the text. -/
def before (front : List Char) : Option (List Char × List Char) → Option (List Char × List Char)
  | some (text, rest) => some (front ++ text, rest)
  | none => none

/-- A text with escapes, up to its closing quote. -/
def readEscaped : Nat → List Char → Option (List Char × List Char)
  | 0, _ | _, [] => none
  | limit + 1, c :: rest =>
    if c = '"' then some ([], rest)
    else if c = '\\' then
      match escaped? rest with
      | some (c, rest) => before [c] (readEscaped limit rest)
      | none => none
    else if isPlain c then before [c] (readEscaped limit rest)
    else none

/-- A text without escapes, up to its closing apostrophe. -/
def readVerbatim : List Char → Option (List Char × List Char)
  | [] => none
  | c :: rest =>
    if c = '\'' then some ([], rest)
    else if isPlain c then before [c] (readVerbatim rest)
    else none

/-- The end of a text over several lines, at a run of `count` quotes of which the last three close
the text. At most two quotes belong to the text. -/
def closeRun (quote : Char) (count : Nat) (cs : List Char) : List Char × List Char :=
  (List.replicate (min (count - 3) 2) quote, cs.drop (min count 5))

/-- A text over several lines, up to the quotes that close it. In a text with escapes, a backslash
at the end of a line takes away all blanks behind it. -/
def readLong (quote : Char) (escapes : Bool) : Nat → List Char → Option (List Char × List Char)
  | 0, _ | _, [] => none
  | limit + 1, c :: rest =>
    if c = quote then
      let count := ((c :: rest).takeWhile (· == quote)).length
      if count < 3 then
        before (List.replicate count quote)
          (readLong quote escapes limit ((c :: rest).drop count))
      else some (closeRun quote count (c :: rest))
    else if c = '\\' && escapes then
      match newline? (skipSpace rest) with
      | some rest => readLong quote escapes limit (skipBlank rest)
      | none =>
        match escaped? rest with
        | some (c, rest) => before [c] (readLong quote escapes limit rest)
        | none => none
    else
      match newline? (c :: rest) with
      | some rest => before ['\n'] (readLong quote escapes limit rest)
      | none => if isPlain c then before [c] (readLong quote escapes limit rest) else none

/-- A text over several lines, behind the quotes that open it. It does not begin with the end of
their line. -/
def readLongFrom (quote : Char) (escapes : Bool) (cs : List Char)
    : Option (List Char × List Char) :=
  readLong quote escapes (cs.length + 1) ((newline? cs).getD cs)

/-- A text on one line, of either kind. -/
def readLineText? (cs : List Char) : Option (List Char × List Char) :=
  match cs with
  | '"' :: rest => readEscaped (rest.length + 1) rest
  | '\'' :: rest => readVerbatim rest
  | _ => none

/-- A text of any kind. -/
def readText? (cs : List Char) : Option (List Char × List Char) :=
  match cs with
  | '"' :: '"' :: '"' :: rest => readLongFrom '"' true rest
  | '\'' :: '\'' :: '\'' :: rest => readLongFrom '\'' false rest
  | cs => readLineText? cs

/-! ### Keys -/

/-- A character of a key without quotes. -/
def isKeyChar (c : Char) : Bool :=
  c.isAlphanum || c == '_' || c == '-'

/-- One part of a key, and where it stands. -/
structure Key where
  name : String
  span : Span
deriving DecidableEq

/-- One part of a key. -/
def readKeyPart? (cs : List Char) : Option (Key × List Char) :=
  match cs.takeWhile isKeyChar with
  | [] => (readLineText? cs).map fun (part, rest) => (⟨String.ofList part, .between cs rest⟩, rest)
  | part =>
    let rest := cs.dropWhile isKeyChar
    some (⟨String.ofList part, .between cs rest⟩, rest)

/-- The parts of a key with dots between them, and with space about the dots. -/
def readKey? : Nat → List Char → Option (List Key × List Char)
  | 0, _ => none
  | limit + 1, cs =>
    match readKeyPart? (skipSpace cs) with
    | none => none
    | some (part, rest) =>
      match skipSpace rest with
      | '.' :: rest => (readKey? limit rest).map fun (parts, rest) => (part :: parts, rest)
      | rest => some ([part], rest)

/-- The greatest number of parts that a key may have, and of lists and tables one inside the
other. -/
def maxDepth : Nat := 79

/-- A key that does not have too many parts. -/
def readPath? (cs : List Char) : Option (List Key × List Char) :=
  (readKey? (cs.length + 1) cs).filter fun (parts, _) => decide (parts.length ≤ maxDepth)

end Typings.Toml
