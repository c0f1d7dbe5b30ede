import Typings.Text.Identifier
import Typings.Text.Quoted
import Typings.TsType.Basic

/-!
The text of a type. Parentheses stand only around functions and unions that are array elements,
and around functions in a union.
-/

namespace Typings

/-- How a property is named: an identifier as it is, any other text as a string literal. -/
def propertyKey (name : String) : String :=
  if Text.isIdentifier name then name else Text.quote name

namespace TsType

def isFunction : TsType → Bool
  | .function .. => true
  | _ => false

def isUnion : TsType → Bool
  | .union _ => true
  | _ => false

/-- `text` in parentheses where `needed`. -/
def parenthesized (needed : Bool) (text : String) : String :=
  if needed then "(" ++ text ++ ")" else text

/-- The mark of something that may be left out. -/
def optionalMark (optional : Bool) : String :=
  if optional then "?" else ""

mutual
/-- The text of a type. -/
def render : TsType → String
  | .named name args =>
    if args.isEmpty then name else name ++ "<" ++ ", ".intercalate (renderAll args) ++ ">"
  | .primitive kind => kind.keyword
  | .stringLiteral value => Text.quote value
  | .numberLiteral text => text
  | .booleanLiteral value => if value then "true" else "false"
  | .union members => " | ".intercalate (renderAlternatives members)
  | .function params result receiver =>
    "(" ++ ", ".intercalate (renderReceiver receiver ++ renderParams params) ++ ") => "
      ++ render result
  | .object members =>
    if members.isEmpty then "\x7b\x7d" else "\x7b " ++ renderMembers members ++ "\x7d"
  | .array element =>
    parenthesized (isFunction element || isUnion element) (render element) ++ "[]"

/-- The texts of a list of types. -/
def renderAll : List TsType → List String
  | [] => []
  | type :: types => render type :: renderAll types

/-- The texts of the alternatives of a union. -/
def renderAlternatives : List TsType → List String
  | [] => []
  | type :: types =>
    parenthesized (isFunction type) (render type) :: renderAlternatives types

/-- The parameter that stands for the receiver, if it is typed. -/
def renderReceiver : Option TsType → List String
  | none => []
  | some type => ["this: " ++ render type]

/-- The texts of parameters. A rest parameter carries no mark of being optional. -/
def renderParams : List (Param TsType) → List String
  | [] => []
  | ⟨name, type, optional, rest⟩ :: params =>
    ((if rest then "..." else "") ++ name ++ optionalMark (optional && !rest) ++ ": "
      ++ render type) :: renderParams params

/-- The text of the members of an object type, each with its semicolon and a space. -/
def renderMembers : List (Member TsType) → String
  | [] => ""
  | .property name type optional :: members =>
    propertyKey name ++ optionalMark optional ++ ": " ++ render type ++ "; "
      ++ renderMembers members
  | .index key keyType valueType :: members =>
    "[" ++ key ++ ": " ++ render keyType ++ "]: " ++ render valueType ++ "; "
      ++ renderMembers members
end

theorem renderAll_eq_map (types : List TsType) : renderAll types = types.map render := by
  induction types with
  | nil => rfl
  | cons type types ih => simp [renderAll, ih]

/-- The text of a parameter list, in its parentheses. -/
def renderParamList (params : List (Param TsType)) : String :=
  "(" ++ ", ".intercalate (renderParams params) ++ ")"

end TsType

namespace TypeParam

/-- The text of a type parameter. -/
def render (param : TypeParam) : String :=
  param.name ++ (param.bound.map fun type => " extends " ++ type.render).getD ""
    ++ (param.fallback.map fun type => " = " ++ type.render).getD ""

/-- The text of a list of type parameters in angle brackets, or nothing if there are none. -/
def renderList (params : List TypeParam) : String :=
  if params.isEmpty then "" else "<" ++ ", ".intercalate (params.map render) ++ ">"

end TypeParam

end Typings
