import Typings.CommandLine
import Typings.Doclet.Decode
import Typings.Log
import Typings.Publication
import Typings.Settings.Config

/-!
The program: it reads a configuration and a list of doclets, publishes the declarations for them and
tells what came of it.
-/

namespace Typings.Program

/-- Why a run fails. -/
inductive Fault where
  | unreadableConfig (path : String) (error : FileError)
  | badConfig (path : String) (fault : Settings.ConfigFault)
  | unreadableInput (path : String) (error : FileError)
  | badInput (path : String) (fault : Json.Fault)
  | unwritable (fault : WriteFault)
  | unwritableReport (file : String) (error : FileError)

/-- The wording of a fault, without its cause. -/
def Fault.headline : Fault → String
  | unreadableConfig path _ => "failed to read config " ++ path
  | badConfig path _ => "invalid config " ++ path
  | unreadableInput path _ => "failed to read " ++ path
  | badInput path _ => "failed to read doclets from " ++ path
  | unwritable fault => fault.message
  | unwritableReport file _ => "failed to write report for " ++ file

/-- The wording of what caused a fault, and of what caused that. -/
def Fault.causes : Fault → List String
  | unreadableConfig _ error | unreadableInput _ error | unwritableReport _ error =>
    [error.message]
  | badConfig _ fault => [fault.message]
  | badInput _ fault => [Doclet.faultMessage fault, fault.message]
  | unwritable fault => [fault.error.message]

/-- The wording of a fault with its causes. -/
def Fault.message (fault : Fault) : String :=
  ": ".intercalate (fault.headline :: fault.causes)

/-- What a run leaves behind: its status, what it says on both channels, and the records that it
logs before its complaints. -/
structure Outcome where
  status : UInt32
  output : String
  log : List String
  complaints : String
deriving DecidableEq

/-- A run that says no more than that it failed. -/
def Outcome.failed (status : UInt32) (message : String) : Outcome :=
  ⟨status, "", [], "error: " ++ message ++ "\n"⟩

section

variable {m : Type → Type} [Monad m] [Files m]

/-- The settings in the configuration at a path. -/
def readConfig (path : String) : m (Except Fault Settings) := do
  match ← Files.read path with
  | .error error => return .error (.unreadableConfig path error)
  | .ok text => return (Settings.ofConfig text).mapError (.badConfig path)

/-- The settings in the configuration at a path. Where no path is given, the usual file is read if
there is one. -/
def loadConfig : Option String → m (Except Fault Settings)
  | some path => readConfig path
  | none => do
    if ← Files.exists? Settings.configFile then readConfig Settings.configFile
    else return .ok {}

/-- The name that stands for the standard input. -/
def standardInput : String := "-"

/-- The text of the input. -/
def readInput (console : m String) (path : String) : m (Except Fault String) := do
  if path = standardInput then return .ok (← console)
  else return (← Files.read path).mapError (.unreadableInput path)

/-- What a run says at its end. -/
def status (publication : Publication) (written : Option String) : String :=
  let place := (written.map fun path => " in " ++ path).getD ""
  let warnings := publication.warnings.length
  let remark := if warnings = 0 then "" else " (" ++ toString warnings ++ " warnings)"
  "Generated " ++ toString publication.count ++ " declarations" ++ place ++ remark ++ "\n"

/-- Reports the warnings of a publication: in a file beside the declarations, or in the text that
is given back where there is no such file. -/
def report (publication : Publication) (written : Option String) : m (Except Fault String) := do
  match written with
  | none => return .ok (Report.text publication.warnings)
  | some path =>
    match ← Publication.writeReport path publication.warnings with
    | .error error => return .error (.unwritableReport path error)
    | .ok _ => return .ok ""

/-- What is said at the end about a publication: the report and the status, as far as the command
line asks for them. -/
def remarks (line : CommandLine) (publication : Publication) : m (Except Fault String) :=
  ExceptT.run do
    let written ← ExceptT.mk (pure (publication.written.mapError Fault.unwritable))
    let report ← if line.report then ExceptT.mk (report publication written) else pure ""
    let closing := if line.verbose then status publication written else ""
    return report ++ closing

/-- What a publication says on both channels, and what it logs. -/
def conclude (line : CommandLine) (publication : Publication) : m Outcome := do
  let log := if line.verbose then publication.warnings.map Log.record else []
  match ← remarks line publication with
  | .ok remarks => return ⟨0, publication.console, log, remarks⟩
  | .error fault => return { Outcome.failed 1 fault.message with log }

/-- Does what the command line asks for. -/
def perform (console : m String) (line : CommandLine) (input : String)
    : m (Except Fault Outcome) :=
  ExceptT.run do
    let settings ← ExceptT.mk (loadConfig line.config)
    let text ← ExceptT.mk (readInput console input)
    let doclets ← ExceptT.mk (pure ((Doclet.listOfText text).mapError (Fault.badInput input)))
    let publication ← ExceptT.lift (Publication.publish (line.override settings) doclets)
    ExceptT.lift (conclude line publication)

/-- The name of the program and its version. -/
def versionText : String := "dtsdoc 0.1.0\n"

/-- A short help. -/
def helpText : String :=
  "Generate TypeScript declarations from JSDoc doclets\n\n"
    ++ "Usage: dtsdoc [OPTIONS] <INPUT>\n\n"
    ++ "  -d, --destination <DIR>  Output directory, or `console`\n"
    ++ "  -o, --out-file <NAME>    Output file name\n"
    ++ "  -a, --access <LEVEL>     Minimum access level: private, package, protected, public\n"
    ++ "  -p, --private            Keep private members whatever the access level\n"
    ++ "  -c, --config <FILE>      Configuration file\n"
    ++ "  -v, --verbose            Log the warnings and print a summary\n"
    ++ "      --report             Write a warnings report next to the output file\n"
    ++ "  -h, --help               Print help\n"
    ++ "  -V, --version            Print version\n"

/-- Runs the program with some arguments. -/
def run (console : m String) (arguments : List String) : m Outcome := do
  match CommandLine.parse arguments with
  | .error .help => return ⟨0, helpText, [], ""⟩
  | .error .version => return ⟨0, versionText, [], ""⟩
  | .error (.fault fault) => return .failed 2 fault.message
  | .ok (line, input) =>
    match ← perform console line input with
    | .ok outcome => return outcome
    | .error fault => return .failed 1 fault.message

end

end Typings.Program
