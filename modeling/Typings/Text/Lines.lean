/-!
Lines of a text. A line ends at a line feed, with or without a carriage return before it; a
carriage return alone ends no line.
-/

namespace Typings.Text

/-- The lines of `cs`, without their ends. A last line without an end counts, an empty one not. -/
def lines : List Char → List (List Char)
  | [] => []
  | '\n' :: cs => [] :: lines cs
  | '\r' :: '\n' :: cs => [] :: lines cs
  | c :: cs =>
    match lines cs with
    | [] => [[c]]
    | line :: rest => (c :: line) :: rest

end Typings.Text
