import Typings.Decl.Piece
import Typings.Doclet.Comment
import Typings.Doclet.Types
import Typings.Text.Identifier

/-!
What one doclet is declared as, given the pieces that stand in its body and the kind of body that it
stands in itself.
-/

namespace Typings.Doclet

/-! ### Names and literals -/

/-- What stands before the names of the members of a default export. -/
def exportsMark : String := "exports."

/-- The name that a doclet is declared by. -/
def declaredName (doclet : Doclet) : String :=
  if exportsMark.toList.isPrefixOf doclet.name.toList then
    String.ofList (doclet.name.toList.drop exportsMark.length)
  else doclet.name

/-- The text between square brackets, if it stands in some. -/
def bracketed? (text : String) : Option String :=
  match text.toList with
  | '[' :: rest =>
    if rest.getLast? = some ']' then some (String.ofList rest.dropLast) else none
  | _ => none

/-- The name of a member, and whether it may be left out, which brackets also say. -/
def memberName (doclet : Doclet) : String × Bool :=
  match bracketed? doclet.declaredName with
  | some name => (name, true)
  | none => (doclet.declaredName, doclet.optional)

/-- The literal that a value is. -/
def literalOf? : Json.Value → Option Literal
  | .text value => some (.string value)
  | .number value => some (.number value.text)
  | .boolean value => some (.boolean value)
  | _ => none

/-- The literal that the member of an enumeration can have for its value. -/
def enumLiteralOf? (value : Json.Value) : Option Literal :=
  match literalOf? value with
  | some (.boolean _) => none
  | literal => literal

/-- The head of the declaration of a doclet. A member of something is not ambient. -/
def head (doclet : Doclet) : Decl.Head :=
  ⟨doclet.declaredName, doclet.memberof.isNone, doclet.declComment⟩

/-- Who may use a member of a class. -/
def visibility (doclet : Doclet) : Option Visibility :=
  match doclet.access with
  | some .private => some .private
  | some .protected => some .protected
  | some .public => some .public
  | some .package | none => none

/-- How a doclet belongs to the class that it is a member of. -/
def modifiers (doclet : Doclet) : Modifiers :=
  ⟨doclet.visibility, doclet.isStatic⟩

/-! ### Bodies -/

/-- The body that the members of a doclet stand in. -/
def Kind.body (kind : Kind) : Body :=
  if kind = .class then .class else if kind.isInterfaceLike then .interface else .statements

/-- The pieces that fit a body, of which `part?` takes what the body holds. There is a warning for
each other piece. -/
def fitting {α : Type} (body : Body) (owner : String) (part? : Piece → Option α)
    : List Piece → Noted (List α)
  | [] => pure []
  | piece :: pieces =>
    match part? piece with
    | some part => do return part :: (← fitting body owner part? pieces)
    | none => do
      Noted.warned (.misfit piece.body piece.name body owner) ()
      fitting body owner part? pieces

/-- The statements in the body `owner`. -/
def statementsIn (owner : String) (pieces : List Piece) : Noted (List Decl) :=
  fitting .statements owner Piece.statement? pieces

/-! ### Declarations -/

/-- The property of a class that an item of its outline documents. -/
def propertyOfItem (item : Outline) : Noted ClassMember := do
  let type ← typeOfOutline item
  return .property item.name (some type) item.optional false ⟨none, false⟩
    (descriptionComment item.description)

/-- The constructor of a class with documented parameters. -/
def constructors (doclet : Doclet) : Noted (List ClassMember) :=
  if doclet.params.isEmpty then pure []
  else return [.constructor (← paramsOf doclet.params)]

/-- The declaration of a class. Its constructor stands first and its documented properties last. -/
def classDecl (doclet : Doclet) (pieces : List Piece) : Noted Decl := do
  let members ← fitting .class doclet.declaredName Piece.classMember? pieces
  let constructors ← doclet.constructors
  let properties ← (Outline.ofEntries doclet.properties).mapM propertyOfItem
  let typeParams ← doclet.typeParams
  let bases ← (doclet.augments.take 1).mapM baseOfName
  return .class doclet.head typeParams bases.head? [] (constructors ++ members ++ properties)

/-- The declaration of an interface or a mixin. -/
def interfaceDecl (doclet : Doclet) (pieces : List Piece) : Noted Decl := do
  let members ← fitting .interface doclet.declaredName Piece.interfaceMember? pieces
  let typeParams ← doclet.typeParams
  let bases ← doclet.augments.mapM baseOfName
  return .interface doclet.head typeParams bases members

/-- The declaration of a module. Inside another one it can only be a namespace. -/
def moduleDecl (doclet : Doclet) (nested : Bool) (pieces : List Piece) : Noted Decl := do
  let items ← statementsIn doclet.declaredName pieces
  if nested then
    return .namespace ⟨Text.nameOf doclet.declaredName, false, doclet.declComment⟩ nested items
  else return .module doclet.head items

/-- The declaration of a namespace. -/
def namespaceDecl (doclet : Doclet) (nested : Bool) (pieces : List Piece) : Noted Decl := do
  return .namespace doclet.head nested (← statementsIn doclet.declaredName pieces)

/-- The declaration of a type. -/
def aliasDecl (doclet : Doclet) : Noted Decl := do
  let typeParams ← doclet.typeParams
  return .alias doclet.head typeParams (← doclet.valueType)

/-- The declaration of an enumeration. -/
def enumDecl (doclet : Doclet) : Decl :=
  .enum doclet.head (doclet.kind == .constant)
    (doclet.properties.map fun entry => ⟨entry.name, entry.defaultValue.bind enumLiteralOf?⟩)

/-- Whether a value is never assigned to. -/
def isFixed (doclet : Doclet) : Bool :=
  doclet.kind == .constant || doclet.readonly

/-- The declaration of a variable. One that is never assigned to has its literal for a value, if it
has one, and else a type. -/
def variableDecl (doclet : Doclet) : Noted Decl :=
  match if doclet.isFixed then doclet.literal.bind literalOf? else none with
  | some value => pure (.variable doclet.head doclet.isFixed none (some value))
  | none => return .variable doclet.head doclet.isFixed (some (← doclet.valueType)) none

/-- The declaration of a value, by the body that it stands in. -/
def valuePiece (doclet : Doclet) (body : Body) : Noted Piece :=
  let (name, optional) := doclet.memberName
  match body with
  | .class =>
    return .classMember (.property name (some (← doclet.valueType)) optional doclet.isFixed
      doclet.modifiers doclet.declComment)
  | .interface =>
    return .interfaceMember (.property name (← doclet.valueType) optional doclet.isFixed
      doclet.declComment)
  | .statements => Piece.statement <$> doclet.variableDecl

/-- The declaration of a function, by the body that it stands in. -/
def functionPiece (doclet : Doclet) (body : Body) : Noted Piece :=
  let (name, optional) := doclet.memberName
  match body with
  | .class =>
    return .classMember (.method name (← doclet.signature) optional doclet.modifiers
      doclet.declComment)
  | .interface =>
    return .interfaceMember (.method name (← doclet.signature) optional doclet.declComment)
  | .statements => return .statement (.function doclet.head (← doclet.signature))

/-- A doclet of a kind that cannot be declared. -/
structure UnsupportedKind where
  kind : Kind
  longname : String
deriving DecidableEq

/-- Declaring doclets, which fails at one of a kind that cannot be declared. -/
abbrev Synthesis (α : Type) : Type :=
  ExceptT UnsupportedKind Noted α

/-- What a doclet is declared as in a body, with the given pieces in its own body. Files and events
are passed over, and so would packages be, but those have failed before (`declare`). -/
def piece (doclet : Doclet) (nested : Bool) (body : Body) (pieces : List Piece)
    : Noted (Option Piece) :=
  let statement (decl : Noted Decl) : Noted (Option Piece) :=
    (fun decl => some (.statement decl)) <$> decl
  match doclet.kind with
  | .class => statement (doclet.classDecl pieces)
  | .interface | .mixin => statement (doclet.interfaceDecl pieces)
  | .module => statement (doclet.moduleDecl nested pieces)
  | .namespace => statement (doclet.namespaceDecl nested pieces)
  | .typedef => statement doclet.aliasDecl
  | .member | .constant =>
    if doclet.isEnum then statement (pure doclet.enumDecl) else some <$> doclet.valuePiece body
  | .function | .callback => some <$> doclet.functionPiece body
  | .package | .event | .file => pure none

/-- Declares a doclet in a body. A package fails. -/
def declare (doclet : Doclet) (nested : Bool) (body : Body) (pieces : List Piece)
    : Synthesis (Option Piece) := do
  if doclet.kind = .package then throw ⟨doclet.kind, doclet.longname⟩
  doclet.piece nested body pieces

end Typings.Doclet
