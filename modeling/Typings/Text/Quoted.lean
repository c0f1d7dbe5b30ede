/-!
String literals: a text between double quotes, with quotes, backslashes, line feeds, carriage
returns and tabs written as escapes.
-/

namespace Typings.Text

/-- How one character stands in a string literal. -/
def escape (c : Char) : List Char :=
  match c with
  | '"' => ['\\', '"']
  | '\\' => ['\\', '\\']
  | '\n' => ['\\', 'n']
  | '\r' => ['\\', 'r']
  | '\t' => ['\\', 't']
  | c => [c]

/-- The string literal of `text`. -/
def quote (text : String) : String :=
  String.ofList ('"' :: (text.toList.flatMap escape ++ ['"']))

end Typings.Text
