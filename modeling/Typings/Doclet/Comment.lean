import Typings.Decl.Basic
import Typings.Doclet.Basic
import Typings.Text.Blank
import Typings.Text.Lines

/-!
The comments of declarations, made of the descriptions in a doclet and the tags that they belong
to.
-/

namespace Typings.Doclet

/-- The number of characters that a comment has at most if it says nothing. -/
def emptyCommentLength : Nat := 4

/-- A description, unless it is blank. -/
def spoken (description : Option String) : Option String :=
  description.filter fun text => !Text.isBlankText text

/-- The lines of some text, without the blanks at their ends. -/
def trimmedLines (cs : List Char) : List String :=
  (Text.lines cs).map fun line => String.ofList (Text.trimEnd line)

/-- A text as lines of a comment, with a tag before the first of them. -/
def paragraph (tag text : String) : Comment :=
  match trimmedLines (Text.trim text.toList) with
  | [] => [tag]
  | line :: lines => (tag ++ line) :: lines

/-- The lines for a description behind a tag. Without a description there are none. -/
def taggedLines (tag : String) (description : Option String) : Comment :=
  match spoken description with
  | none => []
  | some text => paragraph tag text

/-- A default value in a comment. A text stands there without quotes. -/
def defaultText : Json.Value → String
  | .text value => value
  | value => value.compact

/-- The name of an entry, in brackets and with its default value if it may be left out. -/
def Entry.label (entry : Entry) : String :=
  if !entry.optional then entry.name
  else
    match entry.defaultValue with
    | none => "[" ++ entry.name ++ "]"
    | some value => "[" ++ entry.name ++ " = " ++ defaultText value ++ "]"

/-- The lines for an entry behind a tag. -/
def Entry.lines (tag : String) (entry : Entry) : Comment :=
  taggedLines (tag ++ " " ++ entry.label ++ " - ") entry.description

/-- The lines for an example. -/
def exampleLines (text : String) : Comment :=
  "@example" :: trimmedLines text.toList

/-- The lines that a doclet has to say. The properties of an enumeration are its members and are
left out. -/
def commentLines (doclet : Doclet) : Comment :=
  let description := (spoken doclet.description).or (spoken doclet.classDescription)
  let properties := if doclet.isEnum then [] else doclet.properties
  taggedLines "" description
    ++ doclet.examples.flatMap exampleLines
    ++ properties.flatMap (Entry.lines "@property")
    ++ doclet.params.flatMap (Entry.lines "@param")
    ++ doclet.returns.flatMap fun outcome => taggedLines "@returns " outcome.description

/-- A comment with some lines, if there are any. -/
def commentOf : Comment → Option Comment
  | [] => none
  | lines => some lines

/-- The comment on what a doclet declares. A doclet without a comment of its own gets none. -/
def declComment (doclet : Doclet) : Option Comment :=
  if doclet.comment.length ≤ emptyCommentLength then none else commentOf doclet.commentLines

/-- The comment that holds a description alone. -/
def descriptionComment (description : Option String) : Option Comment :=
  commentOf (taggedLines "" description)

end Typings.Doclet
