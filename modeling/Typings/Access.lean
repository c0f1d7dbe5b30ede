/-!
Access levels: how far what is documented may be used.
-/

namespace Typings

/-- An access level, from the most hidden to the most open. -/
inductive Access where
  | «private» | package | «protected» | «public»
deriving DecidableEq

namespace Access

/-- The name of a level. -/
def name : Access → String
  | .private => "private"
  | .package => "package"
  | .protected => "protected"
  | .public => "public"

/-- The levels in their order. -/
def all : List Access :=
  [.private, .package, .protected, .public]

/-- The level with a name. -/
def ofName? (name : String) : Option Access :=
  all.find? fun level => level.name == name

/-- The place of a level in their order. -/
def rank : Access → Nat
  | .private => 0
  | .package => 1
  | .protected => 2
  | .public => 3

instance : LE Access := ⟨fun a b => a.rank ≤ b.rank⟩

instance : LT Access := ⟨fun a b => a.rank < b.rank⟩

instance (a b : Access) : Decidable (a ≤ b) :=
  inferInstanceAs (Decidable (a.rank ≤ b.rank))

instance (a b : Access) : Decidable (a < b) :=
  inferInstanceAs (Decidable (a.rank < b.rank))

/-- The message about a name that no level has. -/
def unknownMessage (name : String) : String :=
  "invalid access level `" ++ name ++ "` (expected private, package, protected or public)"

end Access

end Typings
