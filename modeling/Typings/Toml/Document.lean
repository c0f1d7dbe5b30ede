import Typings.Toml.Table

/-!
Documents of TOML: values, and the lines that give them to keys or open tables.
-/

namespace Typings.Toml

/-- A source behind the comment at its front, if it begins with one. -/
def skipComment (cs : List Char) : List Char :=
  match cs with
  | '#' :: rest => rest.dropWhile isPlain
  | cs => cs

/-- What follows the end of the line, before which only space and a comment may stand. -/
def lineEnd? (cs : List Char) : Option (List Char) :=
  match skipComment (skipSpace cs) with
  | [] => some []
  | rest => newline? rest

/-- A source without the blanks and comments at its front. A comment ends with its line. -/
def skipGap : Nat → List Char → List Char
  | 0, cs => cs
  | limit + 1, cs =>
    match skipBlank cs with
    | '#' :: rest =>
      match newline? (rest.dropWhile isPlain) with
      | some rest => skipGap limit rest
      | none => '#' :: rest
    | rest => rest

/-- A character of a number or a date. -/
def isNumberChar (c : Char) : Bool :=
  c.isAlphanum || c == '_' || c == '+' || c == '-' || c == '.' || c == ':'

/-- A date, and the time of day that one space may set apart from it. -/
def readDate? (rest : List Char) : Option (Scalar × List Char) :=
  let time := (rest.drop 1).takeWhile isNumberChar
  if rest.head? = some ' ' && time.head?.any Char.isDigit then
    if isTime time then some (.moment, (rest.drop 1).dropWhile isNumberChar) else none
  else some (.moment, rest)

/-- A value without parts. -/
def readScalar? (cs : List Char) : Option (Scalar × List Char) :=
  match cs.head? with
  | some '"' | some '\'' =>
    (readText? cs).map fun (text, rest) => (.text (String.ofList text), rest)
  | _ =>
    let word := cs.takeWhile isNumberChar
    let rest := cs.dropWhile isNumberChar
    if isDate word then readDate? rest else (Scalar.ofWord? word).map fun scalar => (scalar, rest)

/-- The sign between a key and its value, and what follows it. -/
def skipEquals? (cs : List Char) : Option (List Char) :=
  match skipSpace cs with
  | '=' :: rest => some (skipSpace rest)
  | _ => none

mutual
/-- The value at the front of a source, with at most `room` lists and tables one inside the
other. -/
def readValue? : Nat → Nat → List Char → Option (Value × List Char)
  | 0, _, _ => none
  | limit + 1, room, cs =>
    match cs, room with
    | '[' :: _, 0 | '{' :: _, 0 => none
    | '[' :: rest, room + 1 =>
      (readItems? limit room rest).map fun (items, rest) => (.list (.between cs rest) items, rest)
    | '{' :: rest, room + 1 =>
      match skipSpace rest with
      | '}' :: rest => some (.table (.inline (.between cs rest)) [], rest)
      | rest =>
        (readFields? limit room [] rest).map fun (entries, rest) =>
          (.table (.inline (.between cs rest)) entries, rest)
    | _, _ => (readScalar? cs).map fun (scalar, rest) => (.scalar (.between cs rest) scalar, rest)

/-- The items of a list and its closing bracket, before which a comma may stand. -/
def readItems? : Nat → Nat → List Char → Option (List Value × List Char)
  | 0, _, _ => none
  | limit + 1, room, cs =>
    match skipGap cs.length cs with
    | ']' :: rest => some ([], rest)
    | rest =>
      match readValue? limit room rest with
      | none => none
      | some (item, rest) =>
        match skipGap rest.length rest with
        | ']' :: rest => some ([item], rest)
        | ',' :: rest =>
          (readItems? limit room rest).map fun (items, rest) => (item :: items, rest)
        | _ => none

/-- The fields of a table in braces, behind the entries that come before them. -/
def readFields? : Nat → Nat → Entries → List Char → Option (Entries × List Char)
  | 0, _, _, _ => none
  | limit + 1, room, entries, cs =>
    match readField? limit room cs with
    | none => none
    | some (keys, value, rest) =>
      match entries.addDotted value keys, skipSpace rest with
      | some entries, '}' :: rest => some (entries, rest)
      | some entries, ',' :: rest => readFields? limit room entries rest
      | _, _ => none

/-- A key with its value. -/
def readField? : Nat → Nat → List Char → Option (List Key × Value × List Char)
  | 0, _, _ => none
  | limit + 1, room, cs => do
    let (keys, rest) ← readPath? cs
    let rest ← skipEquals? rest
    let (value, rest) ← readValue? limit room rest
    return (keys, value, rest)
end

/-- A document as far as it has been read: its entries, and the path of the table that is open. -/
structure Document where
  entries : Entries
  path : List Key

namespace Document

/-- Opens the table that a header names, or an element of the list of tables that it names. -/
def openHeader (document : Document) (header : Span) (double : Bool) (path : List Key)
    : Option Document := do
  let change := if double then Entries.openElement else Entries.openTable
  return ⟨← document.entries.changeEntry (change header) path, path⟩

/-- Reads the header of a table, at its bracket. -/
def readSingle? (document : Document) (cs : List Char) : Option (Document × List Char) := do
  let (path, rest) ← readPath? (cs.drop 1)
  match rest with
  | ']' :: rest => return (← document.openHeader (.between cs rest) false path, ← lineEnd? rest)
  | _ => none

/-- Reads the header of an element in a list of tables, at its two brackets. -/
def readDouble? (document : Document) (cs : List Char) : Option (Document × List Char) := do
  let (path, rest) ← readPath? (cs.drop 2)
  match rest with
  | ']' :: ']' :: rest =>
    return (← document.openHeader (.between cs rest) true path, ← lineEnd? rest)
  | _ => none

/-- Reads a header, at its first bracket. -/
def readHeader? (document : Document) (cs : List Char) : Option (Document × List Char) :=
  match cs with
  | '[' :: '[' :: _ => document.readDouble? cs
  | _ => document.readSingle? cs

/-- Reads a key with its value. -/
def readEntry? (document : Document) (cs : List Char) : Option (Document × List Char) := do
  let (keys, value, rest) ← readField? (2 * cs.length + 2) maxDepth cs
  let rest ← lineEnd? rest
  let entries ← document.entries.changeAt (Entries.addDotted value keys) document.path
  return ({ document with entries }, rest)

/-- Reads what is left of a document. -/
def readAll? : Nat → Document → List Char → Option Entries
  | 0, _, _ => none
  | limit + 1, document, cs =>
    match skipSpace cs with
    | [] => some document.entries
    | '[' :: rest =>
      match document.readHeader? ('[' :: rest) with
      | none => none
      | some (document, rest) => readAll? limit document rest
    | rest =>
      match lineEnd? rest with
      | some rest => readAll? limit document rest
      | none =>
        match document.readEntry? rest with
        | none => none
        | some (document, rest) => readAll? limit document rest

end Document

/-- A source without the mark of its byte order. -/
def skipMark (cs : List Char) : List Char :=
  match cs with
  | '\ufeff' :: rest => rest
  | cs => cs

/-- The entries of the document that a text holds. -/
def parse? (text : String) : Option Entries :=
  let cs := skipMark text.toList
  Document.readAll? (cs.length + 1) ⟨[], []⟩ cs

end Typings.Toml
