import Typings.TsType.Basic

/-!
Declarations, as they stand in a declaration file: what a statement declares, the members of
classes and interfaces, and their comments.
-/

namespace Typings

/-- A documentation comment, by its lines. -/
abbrev Comment := List String

/-- A literal value. The text of a number is kept as it was written. -/
inductive Literal where
  | string (value : String)
  | number (text : String)
  | boolean (value : Bool)
deriving DecidableEq

/-- Who may use a member of a class. -/
inductive Visibility where
  | «public» | «protected» | «private»
deriving DecidableEq

/-- What can be called: type parameters, parameters and the type of the result, if it is said. -/
structure Signature where
  typeParams : List TypeParam
  params : List (Param TsType)
  result : Option TsType
deriving DecidableEq

/-- How a member belongs to its class. -/
structure Modifiers where
  visibility : Option Visibility
  static : Bool
deriving DecidableEq

/-- A member of an interface. -/
inductive InterfaceMember where
  | property (name : String) (type : TsType) (optional readonly : Bool)
    (comment : Option Comment)
  | method (name : String) (signature : Signature) (optional : Bool) (comment : Option Comment)
deriving DecidableEq

/-- A member of a class. -/
inductive ClassMember where
  | constructor (params : List (Param TsType))
  | property (name : String) (type : Option TsType) (optional readonly : Bool)
    (modifiers : Modifiers) (comment : Option Comment)
  | method (name : String) (signature : Signature) (optional : Bool) (modifiers : Modifiers)
    (comment : Option Comment)
deriving DecidableEq

/-- A member of an enumeration, with its value if one is given. -/
structure EnumMember where
  name : String
  value : Option Literal
deriving DecidableEq

/-- What every declaration has: a name, whether the word `declare` opens it, and a comment. -/
structure Decl.Head where
  name : String
  ambient : Bool
  comment : Option Comment
deriving DecidableEq

/-- A declaration. Namespaces and modules hold further declarations; a namespace is nested when
it stands inside another namespace or module. -/
inductive Decl where
  | function (head : Decl.Head) (signature : Signature)
  | interface (head : Decl.Head) (typeParams : List TypeParam) (bases : List TsType)
    (members : List InterfaceMember)
  | alias (head : Decl.Head) (typeParams : List TypeParam) (type : TsType)
  | «class» (head : Decl.Head) (typeParams : List TypeParam) (base : Option TsType)
    (interfaces : List TsType) (members : List ClassMember)
  | enum (head : Decl.Head) (constant : Bool) (members : List EnumMember)
  | «variable» (head : Decl.Head) (constant : Bool) (type : Option TsType)
    (value : Option Literal)
  | «namespace» (head : Decl.Head) (nested : Bool) (items : List Decl)
  | «module» (head : Decl.Head) (items : List Decl)

namespace Decl

/-- The head of a declaration. -/
def head : Decl → Head
  | .function head .. | .interface head .. | .alias head .. | .class head .. | .enum head ..
  | .variable head .. | .namespace head .. | .module head .. => head

/-- The declared name. -/
def name (decl : Decl) : String :=
  decl.head.name

end Decl

end Typings
