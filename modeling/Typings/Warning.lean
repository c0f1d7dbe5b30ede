import Typings.Decl.Piece
import Typings.Hint.Fault

/-!
Warnings: what went wrong in a run that went on all the same.
-/

namespace Typings

/-- The kinds of warnings. -/
inductive Warning.Kind where
  | unresolvedParent | cyclicMembership | invalidChild | typeSyntax
deriving DecidableEq

/-- The words for a kind of warnings. -/
def Warning.Kind.label : Warning.Kind → String
  | .unresolvedParent => "unresolved parent"
  | .cyclicMembership => "cyclic membership"
  | .invalidChild => "invalid child"
  | .typeSyntax => "type syntax"

/-- What a warning is about. -/
inductive Warning where
  /-- No doclet has the name that a doclet gives for its parent. -/
  | noParent (doclet parent : String)
  /-- A doclet that has its place was to be put under another one. -/
  | alreadyPlaced (doclet parent : String)
  /-- A doclet was to be put under one that is below it. -/
  | underItself (doclet parent : String)
  /-- A piece does not fit the body that it stands in. -/
  | misfit (fits : Body) (name : String) (body : Body) (owner : String)
  /-- A type cannot be read. -/
  | badType (source : String) (error : Hint.Error)
  /-- A template tag cannot be read. -/
  | badTemplate (text doclet : String) (error : Hint.Error)
  /-- The type that another one extends cannot be read. -/
  | badBase (name : String) (error : Hint.Error)
  /-- A warning in the words of a caller. -/
  | remark (kind : Warning.Kind) (text : String)
deriving DecidableEq

namespace Warning

/-- The kind of a warning. -/
def kind : Warning → Warning.Kind
  | noParent .. => .unresolvedParent
  | alreadyPlaced .. | underItself .. => .cyclicMembership
  | misfit .. => .invalidChild
  | badType .. | badTemplate .. | badBase .. => .typeSyntax
  | remark kind _ => kind

/-- A name between apostrophes. -/
def named (name : String) : String :=
  "'" ++ name ++ "'"

/-- The wording of an error in brackets. -/
def because (error : Hint.Error) : String :=
  " (" ++ error.message ++ ")"

/-- The wording of a warning. -/
def message : Warning → String
  | noParent doclet parent =>
    "Failed to find parent of doclet " ++ named doclet ++ " using memberof " ++ named parent
      ++ ", this is likely due to invalid JSDoc."
  | alreadyPlaced doclet parent =>
    "Doclet " ++ named doclet ++ " is already placed; not attaching it under " ++ named parent
      ++ "."
  | underItself doclet parent =>
    "Doclet " ++ named doclet ++ " cannot be a member of its own descendant " ++ named parent
      ++ "."
  | misfit fits name body owner =>
    "Dropping " ++ fits.partLabel ++ " " ++ named name ++ ": not valid in the body of "
      ++ body.label ++ " " ++ named owner ++ "."
  | badType source error =>
    "Unable to resolve type " ++ named source ++ because error ++ ", using 'any'."
  | badTemplate text doclet error =>
    "Unable to read @template " ++ named text ++ " on " ++ named doclet ++ because error ++ "."
  | badBase name error =>
    "Unable to resolve base type " ++ named name ++ because error ++ ", using its raw name."
  | remark _ text => text

/-- A warning on a line of its own. -/
def line (warning : Warning) : String :=
  warning.kind.label ++ ": " ++ warning.message

/-- The number of warnings of a kind. -/
def count (kind : Warning.Kind) (warnings : List Warning) : Nat :=
  warnings.countP fun warning => warning.kind == kind

end Warning

end Typings
