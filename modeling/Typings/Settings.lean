import Typings.Doclet.Basic
import Typings.Text.Split

/-!
Settings of a run: which doclets it takes, and where its declarations go.
-/

namespace Typings

/-- Where declarations go. -/
inductive Destination where
  | console
  | directory (path : String)
deriving DecidableEq

/-- The word that stands for the console. -/
def Destination.consoleWord : String := "console"

/-- The destination that a text names: the console by its word, else a directory by its path. -/
def Destination.ofText (text : String) : Destination :=
  if text = consoleWord then .console else .directory text

/-- The settings of a run. Doclets below the floor are left out, but private ones are taken all
the same where `keepPrivate` is set. -/
structure Settings where
  floor : Access := .package
  keepPrivate : Bool := false
  destination : Destination := .directory "out"
  fileName : Option String := none
deriving DecidableEq

namespace Settings

/-- Whether the floor lets a level of access pass. What has no level passes. -/
def opensTo (settings : Settings) : Option Access → Bool
  | none => true
  | some .private => settings.keepPrivate || settings.floor == .private
  | some level => decide (settings.floor ≤ level)

/-- Whether a run takes a doclet. Packages and ignored doclets are never taken. -/
def admits (settings : Settings) (doclet : Doclet) : Bool :=
  doclet.kind != .package && !doclet.ignored && settings.opensTo doclet.access

/-- The file name where neither the settings nor a package give one. -/
def defaultFileName : String := "types.d.ts"

/-- The last part of the name of a package, which follows its scope. -/
def bareName (package : String) : String :=
  String.ofList ((Text.split '/' package.toList).getLastD [])

/-- The name of the file that holds the declarations: as it is set, or else after the first
package among the doclets. -/
def outputName (settings : Settings) (doclets : List Doclet) : String :=
  let name := settings.fileName.getD ""
  if name ≠ "" then name
  else
    match doclets.find? fun doclet => doclet.kind == .package with
    | none => defaultFileName
    | some package =>
      let bare := bareName package.name
      if bare = "" then defaultFileName else bare ++ ".d.ts"

end Settings

end Typings
