/-!
Places in a source. Readers take characters from the front, so a part of a source is known by how
much of the source is left at its two ends.
-/

namespace Typings.Toml

/-- A part of a source, by the numbers of characters that are left where it begins and where it
ends. -/
structure Span where
  left : Nat
  behind : Nat
deriving DecidableEq

namespace Span

/-- The part of a source between two of its rests. -/
def between (cs rest : List Char) : Span :=
  ⟨cs.length, rest.length⟩

/-- The part of a source that begins where another does and takes in all that follows. -/
def onward (span : Span) : Span :=
  { span with behind := 0 }

/-- A character as many times as `count` says. -/
def repeated (c : Char) (count : Nat) : String :=
  String.ofList (List.replicate count c)

/-- The number of bytes that a text takes. -/
def bytes (cs : List Char) : Nat :=
  (String.ofList cs).utf8ByteSize

/-- What a message shows of a part of a source: where it begins, the line in which it begins, and a
mark under as much of it as that line holds. -/
def excerpt (span : Span) (source : String) : String :=
  let cs := source.toList
  let before := cs.take (cs.length - span.left)
  let after := cs.drop (cs.length - span.left)
  let front := (before.reverse.takeWhile (· != '\n')).reverse
  let line := front ++ after.takeWhile (· != '\n')
  let row := toString (before.count '\n' + 1)
  let margin := repeated ' ' (row.length + 1) ++ "|"
  let width := min (bytes (after.take (span.left - span.behind))) (bytes line - front.length)
  "TOML parse error at line " ++ row ++ ", column " ++ toString (front.length + 1) ++ "\n"
    ++ margin ++ "\n"
    ++ row ++ " | " ++ String.ofList line ++ "\n"
    ++ margin ++ repeated ' ' (front.length + 1) ++ repeated '^' (max 1 width) ++ "\n"

end Span

end Typings.Toml
