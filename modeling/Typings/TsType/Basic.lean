/-!
TypeScript types, as far as declaration files need them, and their decidable equality.
-/

namespace Typings

/-- The types that TypeScript names by a keyword. -/
inductive Primitive where
  | string | number | boolean | void | null | undefined
  | any | unknown | never | object | symbol | bigint
deriving DecidableEq

namespace Primitive

/-- The keyword of a primitive type. -/
def keyword : Primitive → String
  | string => "string"
  | number => "number"
  | boolean => "boolean"
  | void => "void"
  | null => "null"
  | undefined => "undefined"
  | any => "any"
  | unknown => "unknown"
  | never => "never"
  | object => "object"
  | symbol => "symbol"
  | bigint => "bigint"

/-- Every primitive type. -/
def all : List Primitive :=
  [string, number, boolean, void, null, undefined, any, unknown, never, object, symbol, bigint]

/-- The primitive type that a keyword names. -/
def ofKeyword? (word : String) : Option Primitive :=
  all.find? fun p => p.keyword == word

end Primitive

/-- A parameter of a function or a constructor, over the types of its model. -/
structure Param (α : Type) where
  name : String
  type : α
  optional : Bool
  rest : Bool
deriving DecidableEq

/-- A member of an object type: a property, or an index signature. -/
inductive Member (α : Type) where
  | property (name : String) (type : α) (optional : Bool)
  | index (key : String) (keyType valueType : α)
deriving DecidableEq

/-- A TypeScript type. The text of a number literal is kept as it was written. -/
inductive TsType where
  | named (name : String) (args : List TsType)
  | primitive (kind : Primitive)
  | stringLiteral (value : String)
  | numberLiteral (text : String)
  | booleanLiteral (value : Bool)
  | union (members : List TsType)
  | function (params : List (Param TsType)) (result : TsType) (receiver : Option TsType)
  | object (members : List (Member TsType))
  | array (element : TsType)

namespace TsType

/-- The type that admits everything. -/
def any : TsType :=
  .primitive .any

instance : Inhabited TsType := ⟨any⟩

/-- The type that a name stands for. -/
def reference (name : String) : TsType :=
  .named name []

mutual
/-- Structural equality of types. -/
def same : TsType → TsType → Bool
  | .named n as, .named m bs => n == m && sameAll as bs
  | .primitive p, .primitive q => p == q
  | .stringLiteral v, .stringLiteral w => v == w
  | .numberLiteral v, .numberLiteral w => v == w
  | .booleanLiteral v, .booleanLiteral w => v == w
  | .union as, .union bs => sameAll as bs
  | .function ps r t, .function qs s u => sameParams ps qs && same r s && sameOptional t u
  | .object ms, .object ns => sameMembers ms ns
  | .array a, .array b => same a b
  | _, _ => false

/-- Equality of type lists, entry by entry. -/
def sameAll : List TsType → List TsType → Bool
  | [], [] => true
  | a :: as, b :: bs => same a b && sameAll as bs
  | _, _ => false

/-- Equality of types that may be absent. -/
def sameOptional : Option TsType → Option TsType → Bool
  | none, none => true
  | some a, some b => same a b
  | _, _ => false

/-- Equality of parameter lists. -/
def sameParams : List (Param TsType) → List (Param TsType) → Bool
  | [], [] => true
  | ⟨n, a, o, r⟩ :: ps, ⟨m, b, o', r'⟩ :: qs =>
    n == m && same a b && o == o' && r == r' && sameParams ps qs
  | _, _ => false

/-- Equality of the members of object types. -/
def sameMembers : List (Member TsType) → List (Member TsType) → Bool
  | [], [] => true
  | .property n a o :: ms, .property m b o' :: ns =>
    n == m && same a b && o == o' && sameMembers ms ns
  | .index n a c :: ms, .index m b d :: ns =>
    n == m && same a b && same c d && sameMembers ms ns
  | _, _ => false
end

mutual
theorem same_iff : (s t : TsType) → (same s t = true ↔ s = t)
  | .named n as, t => by cases t <;> simp [same, sameAll_iff as]
  | .primitive p, t => by cases t <;> simp [same]
  | .stringLiteral v, t => by cases t <;> simp [same]
  | .numberLiteral v, t => by cases t <;> simp [same]
  | .booleanLiteral v, t => by cases t <;> simp [same]
  | .union as, t => by cases t <;> simp [same, sameAll_iff as]
  | .function ps r o, t => by
    cases t <;> simp [same, sameParams_iff ps, same_iff r, sameOptional_iff o, and_assoc]
  | .object ms, t => by cases t <;> simp [same, sameMembers_iff ms]
  | .array a, t => by cases t <;> simp [same, same_iff a]

theorem sameAll_iff : (as bs : List TsType) → (sameAll as bs = true ↔ as = bs)
  | [], bs => by cases bs <;> simp [sameAll]
  | a :: as, bs => by cases bs <;> simp [sameAll, same_iff a, sameAll_iff as]

theorem sameOptional_iff : (a b : Option TsType) → (sameOptional a b = true ↔ a = b)
  | none, b => by cases b <;> simp [sameOptional]
  | some a, b => by cases b <;> simp [sameOptional, same_iff a]

theorem sameParams_iff
    : (ps qs : List (Param TsType)) → (sameParams ps qs = true ↔ ps = qs)
  | [], qs => by cases qs <;> simp [sameParams]
  | ⟨n, a, o, r⟩ :: ps, qs => by
    rcases qs with _ | ⟨⟨_, _, _, _⟩, qs⟩ <;>
      simp [sameParams, same_iff a, sameParams_iff ps, and_assoc]

theorem sameMembers_iff
    : (ms ns : List (Member TsType)) → (sameMembers ms ns = true ↔ ms = ns)
  | [], ns => by cases ns <;> simp [sameMembers]
  | .property n a o :: ms, ns => by
    rcases ns with _ | ⟨_ | _, ns⟩ <;>
      simp [sameMembers, same_iff a, sameMembers_iff ms, and_assoc]
  | .index n a c :: ms, ns => by
    rcases ns with _ | ⟨_ | _, ns⟩ <;>
      simp [sameMembers, same_iff a, same_iff c, sameMembers_iff ms, and_assoc]
end

instance : DecidableEq TsType := fun s t =>
  decidable_of_iff (same s t = true) (same_iff s t)

end TsType

/-- A type parameter, with the type that bounds it and the type that it falls back to. -/
structure TypeParam where
  name : String
  bound : Option TsType
  fallback : Option TsType
deriving DecidableEq

end Typings
