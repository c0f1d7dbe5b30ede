import Typings.Declarations

/-!
Sessions, in which doclets are declared again and again: the declarations are those of the last
time, and the warnings those of all times.
-/

namespace Typings

/-- The declarations and warnings of a session. -/
structure Session where
  decls : List Decl := []
  warnings : List Warning := []

namespace Session

/-- Declares doclets in place of those before. -/
def declare (session : Session) (settings : Settings) (doclets : List Doclet) : Session :=
  let decls := declarations settings doclets
  ⟨decls.value, session.warnings ++ decls.warnings⟩

/-- Takes down a warning. -/
def warn (session : Session) (warning : Warning) : Session :=
  { session with warnings := session.warnings ++ [warning] }

/-- Forgets the warnings. -/
def clear (session : Session) : Session :=
  { session with warnings := [] }

/-- The text of the declarations. -/
def text (session : Session) (indent : Indent) : String :=
  Decl.renderAll indent session.decls

end Session

end Typings
