import Typings.Hint.Namepath

/-!
What a name in a hint refers to: a primitive type, a type with a form of its own such as
an array, or a declared type.
-/

namespace Typings.Hint

/-- The primitive types, with every name that documentation gives them. -/
def primitiveNames : List (String × Primitive) :=
  [("any", .any), ("mixed", .any),
    ("string", .string), ("String", .string),
    ("number", .number), ("Number", .number), ("int", .number), ("float", .number),
    ("boolean", .boolean), ("Boolean", .boolean), ("bool", .boolean),
    ("void", .void), ("object", .object),
    ("symbol", .symbol), ("Symbol", .symbol),
    ("bigint", .bigint), ("BigInt", .bigint),
    ("never", .never), ("unknown", .unknown)]

/-- The type of an object used as a dictionary. The last argument types its values; the one
before it types its keys, which are strings unless it says that they are numbers. -/
def dictionary (args : List TsType) : TsType :=
  let keyType : Primitive :=
    if args.dropLast.getLast? = some (.primitive .number) then .number else .string
  .object [.index "key" (.primitive keyType) (args.getLast?.getD .any)]

/-- The type that `name` refers to when `args` are applied to it. -/
def reference (name : String) (args : List TsType) : TsType :=
  match primitiveNames.lookup name, args with
  | some kind, [] => .primitive kind
  | _, _ =>
    match name, args with
    | "Array", _ | "array", _ => .array (args.head?.getD .any)
    | "Object", [] => .any
    | "Object", _ => dictionary args
    | "Function", _ => .reference "Function"
    | "Promise", [] => .named "Promise" [.any]
    | _, _ => .named (Namepath.entityName name) args

end Typings.Hint
