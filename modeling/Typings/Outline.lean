import Typings.Doclet.Basic
import Typings.Text.Split

/-!
Outlines. Parameters and properties are documented in one list, in which a dotted name means a
property of what stands before the dot; the outline of the list puts each below what it belongs
to. Brackets behind a name before a dot mean an array of what has the property.
-/

namespace Typings

/-- One name of an outline: the entry that documents it, if there is one, whether it is an array,
and the names below it. -/
structure Outline where
  name : String
  entry : Option Doclet.Entry
  array : Bool
  items : List Outline

namespace Outline

/-- One part of a dotted name, and whether brackets stand behind it. -/
structure Step where
  name : String
  brackets : Bool
deriving DecidableEq

/-- The step that a part of a dotted name makes. -/
def Step.ofPart (part : List Char) : Step :=
  if ['[', ']'].isSuffixOf part then ⟨String.ofList (part.take (part.length - 2)), true⟩
  else ⟨String.ofList part, false⟩

/-- The steps of a dotted name. -/
def steps (name : String) : List Step :=
  (Text.split '.' name.toList).map Step.ofPart

/-- A name of which nothing is known. -/
def bare (name : String) : Outline :=
  ⟨name, none, false, []⟩

/-- Makes `change` to the item with a name, which is put behind the others if it is new. -/
def update (name : String) (change : Outline → Outline) : List Outline → List Outline
  | [] => [change (bare name)]
  | item :: items =>
    if item.name = name then change item :: items else item :: update name change items

/-- Puts an entry below `items`, by the steps of its name. The first entry for a name counts. -/
def insert (entry : Doclet.Entry) : List Step → List Outline → List Outline
  | [], items => items
  | [step], items =>
    update step.name (fun item => { item with entry := item.entry.or (some entry) }) items
  | step :: steps, items =>
    update step.name
      (fun item =>
        { item with array := item.array || step.brackets, items := insert entry steps item.items })
      items

/-- The outline of a list of entries. -/
def ofEntries (entries : List Doclet.Entry) : List Outline :=
  entries.foldl (fun items entry => insert entry (steps entry.name) items) []

/-- Whether the entry of a name says that it may be left out. -/
def optional (outline : Outline) : Bool :=
  match outline.entry with
  | some entry => entry.optional
  | none => false

/-- The description in the entry of a name. -/
def description (outline : Outline) : Option String :=
  outline.entry.bind fun entry => entry.description

end Outline

end Typings
