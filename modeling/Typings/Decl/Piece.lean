import Typings.Decl.Basic

/-!
Pieces: what a doclet is declared as. A piece fits the body of one kind only, be it statements,
the members of a class or those of an interface.
-/

namespace Typings

/-- A kind of body. Namespaces, modules and whole files hold statements. -/
inductive Body where
  | statements | «class» | interface
deriving DecidableEq

namespace Body

/-- What has such a body. -/
def label : Body → String
  | .statements => "namespace"
  | .class => "class"
  | .interface => "interface"

/-- What stands in such a body. -/
def partLabel : Body → String
  | .statements => "declaration"
  | .class => "class member"
  | .interface => "interface member"

end Body

/-- One declaration, or one member of a class or an interface. -/
inductive Piece where
  | statement (decl : Decl)
  | classMember (member : ClassMember)
  | interfaceMember (member : InterfaceMember)

namespace Piece

/-- The body that a piece fits. -/
def body : Piece → Body
  | .statement _ => .statements
  | .classMember _ => .class
  | .interfaceMember _ => .interface

/-- The name that a piece declares. -/
def name : Piece → String
  | .statement decl => decl.name
  | .classMember (.constructor _) => "constructor"
  | .classMember (.property name ..) | .classMember (.method name ..) => name
  | .interfaceMember (.property name ..) | .interfaceMember (.method name ..) => name

/-- The statement that a piece is. -/
def statement? : Piece → Option Decl
  | .statement decl => some decl
  | _ => none

/-- The member of a class that a piece is. -/
def classMember? : Piece → Option ClassMember
  | .classMember member => some member
  | _ => none

/-- The member of an interface that a piece is. -/
def interfaceMember? : Piece → Option InterfaceMember
  | .interfaceMember member => some member
  | _ => none

end Piece

end Typings
