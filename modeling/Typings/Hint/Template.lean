import Typings.Hint.Grammar
import Typings.Text.Split

/-!
Template tags, which name the type parameters of what they document: names between commas, each
with a description behind it, and before them perhaps a type in braces that bounds them all.
-/

namespace Typings.Template

open Hint Text

/-- Cuts a text at the brace that closes the `depth + 1` that are open. -/
def closeBrace (depth : Nat) : List Char → Option (List Char × List Char)
  | [] => none
  | '}' :: cs =>
    match depth with
    | 0 => some ([], cs)
    | depth + 1 => (closeBrace depth cs).map fun (inside, rest) => ('}' :: inside, rest)
  | c :: cs =>
    let depth := if c == '{' then depth + 1 else depth
    (closeBrace depth cs).map fun (inside, rest) => (c :: inside, rest)

/-- The names in a list of names with descriptions. -/
def names (cs : List Char) : List String :=
  ((split ',' cs).filterMap firstWord?).map String.ofList |>.filter isIdentifier

/-- The type parameters of the names in `cs`, all with one bound. -/
def paramsWith (bound : Option TsType) (cs : List Char) : List TypeParam :=
  (names cs).map fun name => ⟨name, bound, none⟩

/-- The type parameters that the text of a template tag declares. -/
def params (text : String) : Except Error (List TypeParam) :=
  match trim text.toList with
  | '{' :: cs =>
    match closeBrace 0 cs with
    | none => .error ⟨.openBound, 0⟩
    | some (inside, rest) =>
      match parseType (String.ofList inside) with
      | .error error => .error error
      | .ok bound => .ok (paramsWith (some bound) rest)
  | cs => .ok (paramsWith none cs)

end Typings.Template
