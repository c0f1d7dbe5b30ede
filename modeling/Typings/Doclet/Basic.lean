import Typings.Access
import Typings.Json.Value

/-!
Doclets, the records of a documentation generator: one for everything that is documented, with the
name of what it belongs to.
-/

namespace Typings

/-- What a doclet documents. -/
inductive Doclet.Kind where
  | package | «class» | interface | mixin | «module» | «namespace» | typedef
  | function | callback | member | constant | event | file
deriving DecidableEq

namespace Doclet.Kind

/-- The name of a kind. -/
def name : Doclet.Kind → String
  | .package => "package"
  | .class => "class"
  | .interface => "interface"
  | .mixin => "mixin"
  | .module => "module"
  | .namespace => "namespace"
  | .typedef => "typedef"
  | .function => "function"
  | .callback => "callback"
  | .member => "member"
  | .constant => "constant"
  | .event => "event"
  | .file => "file"

/-- Every kind. -/
def all : List Doclet.Kind :=
  [.package, .class, .interface, .mixin, .module, .namespace, .typedef, .function, .callback,
    .member, .constant, .event, .file]

/-- The kind with a name. -/
def ofName? (name : String) : Option Doclet.Kind :=
  all.find? fun kind => kind.name == name

/-- Interfaces and mixins, which are declared as interfaces. -/
def isInterfaceLike : Doclet.Kind → Bool
  | .interface | .mixin => true
  | _ => false

/-- Classes, interfaces and mixins. -/
def isClassLike : Doclet.Kind → Bool
  | .class | .interface | .mixin => true
  | _ => false

/-- Modules and namespaces, which hold declarations of any kind. -/
def isModuleLike : Doclet.Kind → Bool
  | .module | .namespace => true
  | _ => false

theorem isClassLike_of_isInterfaceLike {kind : Doclet.Kind} (like : kind.isInterfaceLike = true)
    : kind.isClassLike = true := by
  cases kind <;> simp_all [isInterfaceLike, isClassLike]

theorem isModuleLike_eq_false_of_isClassLike {kind : Doclet.Kind}
    (classLike : kind.isClassLike = true)
    : kind.isModuleLike = false := by
  cases kind <;> simp_all [isModuleLike, isClassLike]

end Doclet.Kind

/-- How something belongs to what it is a member of. -/
inductive Doclet.Scope where
  | static | «instance» | inner | «global»
deriving DecidableEq

/-- The name of a scope. -/
def Doclet.Scope.name : Doclet.Scope → String
  | .static => "static"
  | .instance => "instance"
  | .inner => "inner"
  | .global => "global"

/-- Every scope. -/
def Doclet.Scope.all : List Doclet.Scope :=
  [.static, .instance, .inner, .global]

/-- A documented parameter or property. Its type is a list of alternatives as they are written. -/
structure Doclet.Entry where
  name : String := ""
  type : Option (List String) := none
  description : Option String := none
  optional : Bool := false
  nullable : Option Bool := none
  variadic : Bool := false
  defaultValue : Option Json.Value := none

/-- A documented result. -/
structure Doclet.Outcome where
  type : Option (List String) := none
  description : Option String := none

/-- A tag that the documentation generator keeps as it is. -/
structure Doclet.Tag where
  title : String := ""
  value : Option String := none
  text : Option String := none

/-- What is known of the source of a doclet: the kind of its code, and the value of a literal. -/
structure Doclet.Code where
  kind : Option String := none
  value : Option Json.Value := none

/-- The origin of a doclet. -/
structure Doclet.Origin where
  code : Option Doclet.Code := none

/-- The record of one documented thing. `longname` names it among all, `memberof` is the longname
of what it belongs to. -/
structure Doclet where
  kind : Doclet.Kind
  name : String
  longname : String
  memberof : Option String := none
  scope : Option Doclet.Scope := none
  access : Option Access := none
  ignored : Bool := false
  undocumented : Bool := false
  enumerates : Bool := false
  readonly : Bool := false
  optional : Bool := false
  nullable : Option Bool := none
  variadic : Bool := false
  augments : List String := []
  implements : List String := []
  mixes : List String := []
  type : Option (List String) := none
  properties : List Doclet.Entry := []
  params : List Doclet.Entry := []
  returns : List Doclet.Outcome := []
  description : Option String := none
  classDescription : Option String := none
  comment : String := ""
  examples : List String := []
  defaultValue : Option Json.Value := none
  origin : Option Doclet.Origin := none
  tags : List Doclet.Tag := []

namespace Doclet

/-- Whether a doclet belongs to its parent itself and not to its instances. -/
def isStatic (doclet : Doclet) : Bool :=
  doclet.scope == some .static

/-- Whether a doclet documents an enumeration: a member or constant that is marked as one. -/
def isEnum (doclet : Doclet) : Bool :=
  doclet.enumerates && (doclet.kind == .member || doclet.kind == .constant)

/-- A class, interface or mixin is no enumeration. -/
theorem isEnum_eq_false_of_isClassLike {doclet : Doclet}
    (classLike : doclet.kind.isClassLike = true)
    : doclet.isEnum = false := by
  cases kind : doclet.kind <;> simp_all [isEnum, Kind.isClassLike]

/-- The body of an enumeration holds no declarations. -/
theorem isModuleLike_eq_false_of_isEnum {doclet : Doclet} (enum : doclet.isEnum = true)
    : doclet.kind.isModuleLike = false := by
  cases kind : doclet.kind <;> simp_all [isEnum, Kind.isModuleLike]

/-- Whether a doclet declares a type or a container, which the body of a class cannot hold. -/
def leavesClass (doclet : Doclet) : Bool :=
  doclet.kind.isClassLike || doclet.kind.isModuleLike || doclet.kind == .typedef || doclet.isEnum

/-- The value of a literal in the source of a doclet. -/
def literalInCode (doclet : Doclet) : Option Json.Value := do
  let origin ← doclet.origin
  let code ← origin.code
  if code.kind == some "Literal" then code.value else none

/-- The value of a constant: as documented, or else as its source has it. -/
def literal (doclet : Doclet) : Option Json.Value :=
  doclet.defaultValue.or doclet.literalInCode

/-- The texts of the template tags of a doclet. -/
def templates (doclet : Doclet) : List String :=
  (doclet.tags.filter fun tag => tag.title == "template").filterMap fun tag =>
    tag.value.or tag.text

end Doclet

end Typings
