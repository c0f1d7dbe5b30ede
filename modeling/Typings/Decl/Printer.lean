import Typings.Decl.Layout

/-!
Printing of declarations. A printer writes line after line, each behind the margin of its level. The
body of a block is written one level further in, and the level is taken back behind it.
-/

namespace Typings

/-- A printer: how it indents, how many levels it is inside, and what it has written. -/
structure Printer where
  indent : Indent
  level : Nat := 0
  output : String := ""

namespace Printer

open Layout

/-- Writes a text as it is. -/
def write (printer : Printer) (text : String) : Printer :=
  { printer with output := printer.output ++ text }

/-- Writes the margin, one unit for each level. -/
def writeMargin (printer : Printer) : Printer :=
  (List.replicate printer.level printer.indent.unit).foldl write printer

/-- Writes a text on a line of its own. -/
def line (printer : Printer) (text : String) : Printer :=
  (printer.writeMargin.write text).write "\n"

/-- The printer one level further in. -/
def deeper (printer : Printer) : Printer :=
  { printer with level := printer.level + 1 }

/-- The printer one level further out. -/
def shallower (printer : Printer) : Printer :=
  { printer with level := printer.level - 1 }

/-- Writes a comment, if there is one. -/
def comment (printer : Printer) (note : Option Comment) : Printer :=
  (Layout.comment note).foldl line printer

/-- Writes a header, what belongs into its braces, and the closing brace. -/
def block (printer : Printer) (header : String) (body : Printer → Printer) : Printer :=
  (body (printer.line (header ++ " \x7b")).deeper).shallower.line "\x7d"

/-- Writes a member of a class. -/
def classMember (printer : Printer) : ClassMember → Printer
  | .constructor params =>
    printer.line ("constructor" ++ TsType.renderParamList params ++ ";")
  | .property name type optional readonly m note =>
    (printer.comment note).line
      (modifiers m readonly ++ propertyKey name ++ TsType.optionalMark optional
        ++ annotated type ++ ";")
  | .method name s optional m note =>
    (printer.comment note).line
      (modifiers m false ++ propertyKey name ++ TsType.optionalMark optional
        ++ signature s ++ ";")

/-- Writes a member of an interface. -/
def interfaceMember (printer : Printer) : InterfaceMember → Printer
  | .property name type optional readonly note =>
    (printer.comment note).line
      ((if readonly then "readonly " else "") ++ propertyKey name
        ++ TsType.optionalMark optional ++ ": " ++ type.render ++ ";")
  | .method name s optional note =>
    (printer.comment note).line
      (propertyKey name ++ TsType.optionalMark optional ++ signature s ++ ";")

/-- Writes the members of an enumeration, with a comma behind all but the last. -/
def enumMembers (printer : Printer) : List EnumMember → Printer
  | [] => printer
  | [member] => printer.line (enumMember member)
  | member :: members => (printer.line (enumMember member ++ ",")).enumMembers members

/-- Writes a declaration that holds no others, below its comment. -/
def simple (printer : Printer) : Decl → Printer
  | .function head s => printer.line (opening head "function" ++ signature s ++ ";")
  | .interface head typeParams bases members =>
    printer.block
      (opening head "interface" ++ TypeParam.renderList typeParams ++ clause " extends " bases)
      (members.foldl interfaceMember)
  | .alias head typeParams type =>
    printer.line
      (opening head "type" ++ TypeParam.renderList typeParams ++ " = " ++ type.render ++ ";")
  | .class head typeParams base interfaces members =>
    printer.block
      (opening head "class" ++ TypeParam.renderList typeParams
        ++ clause " extends " base.toList ++ clause " implements " interfaces)
      (members.foldl classMember)
  | .enum head constant members =>
    printer.block (opening head (if constant then "const enum" else "enum"))
      (enumMembers · members)
  | .variable head constant type value =>
    printer.line
      (opening head (if constant then "const" else "var") ++ initial constant type value ++ ";")
  | .namespace .. | .module .. => printer

mutual
/-- Writes a declaration below its comment. -/
def item (printer : Printer) : Decl → Printer
  | .namespace head _ items =>
    (printer.comment head.comment).collapsed (opening head "namespace") items
  | .module head items =>
    let printer := printer.comment head.comment
    let header := opening { head with name := Text.quote head.name } "module"
    if items.isEmpty then printer.line (header ++ " \x7b \x7d")
    else printer.block header fun printer => printer.items items
  | item => (printer.comment item.head.comment).simple item

/-- Writes declarations, one after the other. -/
def items (printer : Printer) : List Decl → Printer
  | [] => printer
  | item :: items => (printer.item item).items items

/-- Writes a namespace below its comment. A nested namespace without a comment joins its name to the
header if it stands there alone. -/
def collapsed (printer : Printer) (header : String) : List Decl → Printer
  | [] => printer.line (header ++ " \x7b \x7d")
  | item :: items =>
    match item with
    | .namespace head nested inner =>
      if items.isEmpty && nested && head.comment.isNone then
        printer.collapsed (header ++ "." ++ head.name) inner
      else
        printer.block header fun printer =>
          (printer.item (.namespace head nested inner)).items items
    | item => printer.block header fun printer => (printer.item item).items items
end

/-- Writes a declaration and a blank line behind it. -/
def spaced (printer : Printer) (decl : Decl) : Printer :=
  (printer.item decl).write "\n"

end Printer

/-- The text of one declaration. -/
def Decl.render (indent : Indent) (decl : Decl) : String :=
  ({ indent : Printer }.item decl).output

/-- The text of declarations, with a blank line behind each. -/
def Decl.renderAll (indent : Indent) (decls : List Decl) : String :=
  (decls.foldl Printer.spaced { indent }).output

end Typings
