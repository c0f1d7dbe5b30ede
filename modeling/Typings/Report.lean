import Typings.Files.Path
import Typings.Warning

/-!
Reports, which list the warnings of a run.
-/

namespace Typings.Report

/-- One warning in the list of a report. -/
def entry (warning : Warning) : String :=
  "- **" ++ warning.kind.label ++ "**: " ++ warning.message ++ "\n"

/-- The text of the report on some warnings. -/
def text (warnings : List Warning) : String :=
  "# dtsdoc report\n\n"
    ++ if warnings.isEmpty then "No warnings.\n"
      else "## Warnings\n\n" ++ String.join (warnings.map entry)

/-- The endings that the name of a report does not take over, in the order in which they are
tried. -/
def endings : List String :=
  [".d.ts", ".ts"]

/-- A name without the first ending that it has. -/
def stem (name : List Char) : List Char :=
  match endings.find? fun ending => ending.toList.isSuffixOf name with
  | some ending => name.take (name.length - ending.length)
  | none => name

/-- The name of the report on a file. -/
def nameFor (name : List Char) : List Char :=
  stem name ++ ".dts-report.md".toList

/-- The path of the report on the file at a path: beside it. -/
def path (file : String) : String :=
  Path.mapName nameFor file

end Typings.Report
