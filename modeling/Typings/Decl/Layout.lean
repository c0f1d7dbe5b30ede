import Typings.Decl.Basic
import Typings.TsType.Render

/-!
The words of declarations: what stands on the lines of a declaration, a member or a comment. How
the lines are indented is left to the printer.
-/

namespace Typings

/-- How one level of indentation is written: by spaces, or by a tab. -/
structure Indent where
  width : Nat := 4
  tabs : Bool := false
deriving DecidableEq

/-- The text of one level of indentation. -/
def Indent.unit (indent : Indent) : String :=
  if indent.tabs then "\t" else String.ofList (List.replicate indent.width ' ')

namespace Layout

/-- The lines of a comment, or none for a comment without lines. -/
def comment : Option Comment → List String
  | none | some [] => []
  | some lines =>
    "/**" :: lines.map (fun line => if line.isEmpty then " *" else " * " ++ line) ++ [" */"]

/-- The text of a literal value. -/
def literal : Literal → String
  | .string value => Text.quote value
  | .number text => text
  | .boolean value => if value then "true" else "false"

/-- The type behind a name, if there is one. -/
def annotated (type : Option TsType) : String :=
  (type.map fun type => ": " ++ type.render).getD ""

/-- The text of a signature, behind the name of what is called. -/
def signature (s : Signature) : String :=
  TypeParam.renderList s.typeParams ++ TsType.renderParamList s.params ++ annotated s.result

/-- The word of a visibility. -/
def visibility : Visibility → String
  | .public => "public"
  | .protected => "protected"
  | .private => "private"

/-- The words before the name of a class member. -/
def modifiers (m : Modifiers) (readonly : Bool) : String :=
  (m.visibility.map fun v => visibility v ++ " ").getD ""
    ++ (if m.static then "static " else "") ++ (if readonly then "readonly " else "")

/-- The text of an enumeration member. -/
def enumMember (member : EnumMember) : String :=
  propertyKey member.name ++ (member.value.map fun value => " = " ++ literal value).getD ""

/-- A list of types behind the word that introduces it, or nothing if there are none. -/
def clause (word : String) (types : List TsType) : String :=
  if types.isEmpty then "" else word ++ ", ".intercalate (types.map TsType.render)

/-- The words that open a declaration: `declare` if it is ambient, what it declares, and its
name. -/
def opening (head : Decl.Head) (keyword : String) : String :=
  (if head.ambient then "declare " else "") ++ keyword ++ " " ++ head.name

/-- What follows the name of a variable: the value of a constant, or else its type. -/
def initial (constant : Bool) (type : Option TsType) (value : Option Literal) : String :=
  match value with
  | some value => if constant then " = " ++ literal value else annotated type
  | none => annotated type

end Layout

end Typings
