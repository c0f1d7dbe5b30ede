import Typings.Settings

/-!
The arguments of the command line. An option is written long or short, with its value behind an
equals sign or in the next argument; short ones may stand together behind one dash.
-/

namespace Typings

/-- What a run is asked for. -/
structure CommandLine where
  input : Option String := none
  destination : Option String := none
  fileName : Option String := none
  floor : Option Access := none
  keepPrivate : Bool := false
  config : Option String := none
  verbose : Bool := false
  report : Bool := false

namespace CommandLine

/-- An option. -/
inductive Opt where
  | destination | fileName | access | keepPrivate | config | verbose | report | help | version
deriving DecidableEq

/-- The long names of the options, without their dashes. -/
def Opt.byLong : List (String × Opt) :=
  [("destination", .destination), ("out-file", .fileName), ("access", .access),
    ("private", .keepPrivate), ("config", .config), ("verbose", .verbose), ("report", .report),
    ("help", .help), ("version", .version)]

/-- The short names of the options. The report has none. -/
def Opt.byShort : List (Char × Opt) :=
  [('d', .destination), ('o', .fileName), ('a', .access), ('p', .keepPrivate), ('c', .config),
    ('v', .verbose), ('h', .help), ('V', .version)]

/-- Whether an option has a value. -/
def Opt.takesValue : Opt → Bool
  | .destination | .fileName | .access | .config => true
  | .keepPrivate | .verbose | .report | .help | .version => false

/-- Why arguments are refused. -/
inductive Fault where
  | unknown (argument : String)
  | repeated (opt : Opt)
  | noValue (opt : Opt)
  | unwantedValue (opt : Opt)
  | badValue (opt : Opt) (value : String)
  | noInput
deriving DecidableEq

/-- The name of an option in messages. -/
def Opt.label (opt : Opt) : String :=
  match Opt.byLong.find? fun entry => entry.2 == opt with
  | some (name, _) => "--" ++ name
  | none => ""

/-- The wording of a fault. -/
def Fault.message : Fault → String
  | unknown argument => "unexpected argument '" ++ argument ++ "'"
  | repeated opt => "the argument '" ++ opt.label ++ "' cannot be used multiple times"
  | noValue opt => "a value is required for '" ++ opt.label ++ "'"
  | unwantedValue opt => "no value is expected for '" ++ opt.label ++ "'"
  | badValue opt value => "invalid value '" ++ value ++ "' for '" ++ opt.label ++ "'"
  | noInput => "the input is not given"

/-- Why reading the arguments stops before their end. -/
inductive Stop where
  | fault (fault : Fault)
  | help
  | version

/-- A field that is given for the first time. -/
def once {α : Type} (opt : Opt) (old : Option α) (value : α) : Except Stop (Option α) :=
  match old with
  | none => .ok (some value)
  | some _ => .error (.fault (.repeated opt))

/-- A mark that is set for the first time. -/
def mark (opt : Opt) (old : Bool) : Except Stop Bool :=
  if old then .error (.fault (.repeated opt)) else .ok true

/-- Sets an option without a value. -/
def setFlag (line : CommandLine) (opt : Opt) : Except Stop CommandLine :=
  match opt with
  | .keepPrivate => do return { line with keepPrivate := ← mark opt line.keepPrivate }
  | .verbose => do return { line with verbose := ← mark opt line.verbose }
  | .report => do return { line with report := ← mark opt line.report }
  | .help => .error .help
  | .version => .error .version
  | _ => .error (.fault (.noValue opt))

/-- Sets an option with a value. -/
def setValue (line : CommandLine) (opt : Opt) (value : String) : Except Stop CommandLine :=
  match opt with
  | .destination => do
    return { line with destination := ← once opt line.destination value }
  | .fileName => do return { line with fileName := ← once opt line.fileName value }
  | .access => do
    match Access.ofName? value with
    | some level => return { line with floor := ← once opt line.floor level }
    | none => throw (.fault (.badValue opt value))
  | .config => do
    if value = "" then throw (.fault (.noValue opt))
    return { line with config := ← once opt line.config value }
  | _ => .error (.fault (.unwantedValue opt))

/-- Sets the input. -/
def setInput (line : CommandLine) (argument : String) : Except Stop CommandLine :=
  match line.input with
  | none => .ok { line with input := some argument }
  | some _ => .error (.fault (.unknown argument))

/-- The options read so far, and the one whose value the next argument has to be. -/
abbrev Progress := CommandLine × Option Opt

/-- Reads a long option, without its dashes. -/
def readLong (line : CommandLine) (text : List Char) : Except Stop Progress :=
  let name := String.ofList (text.takeWhile (· != '='))
  match Opt.byLong.lookup name, text.dropWhile (· != '=') with
  | none, _ => .error (.fault (.unknown (String.ofList ('-' :: '-' :: text))))
  | some opt, '=' :: value => do return (← line.setValue opt (String.ofList value), none)
  | some opt, _ =>
    if opt.takesValue then .ok (line, some opt) else do return (← line.setFlag opt, none)

/-- Reads short options that stand together. The value of one is what stands behind it. -/
def readShort (line : CommandLine) : List Char → Except Stop Progress
  | [] => .ok (line, none)
  | c :: rest =>
    match Opt.byShort.lookup c with
    | none => .error (.fault (.unknown (String.ofList ['-', c])))
    | some opt =>
      if opt.takesValue then
        match rest with
        | [] => .ok (line, some opt)
        | '=' :: value => do return (← line.setValue opt (String.ofList value), none)
        | value => do return (← line.setValue opt (String.ofList value), none)
      else do readShort (← line.setFlag opt) rest

/-- Reads arguments. No value begins with a dash, unless it is a dash alone, and behind two dashes
all arguments are inputs. -/
def readAll : Progress → List String → Except Stop CommandLine
  | (line, none), [] => .ok line
  | (_, some opt), [] => .error (.fault (.noValue opt))
  | (line, waiting), argument :: rest =>
    match argument.toList, waiting with
    | ['-', '-'], none => rest.foldlM setInput line
    | '-' :: _ :: _, some opt => .error (.fault (.noValue opt))
    | '-' :: '-' :: text, none => do readAll (← line.readLong text) rest
    | '-' :: c :: text, none => do readAll (← line.readShort (c :: text)) rest
    | _, none => do readAll (← line.setInput argument, none) rest
    | _, some opt => do readAll (← line.setValue opt argument, none) rest

/-- What the arguments ask for, with the input that has to be among them. -/
def parse (arguments : List String) : Except Stop (CommandLine × String) := do
  let line ← readAll ({}, none) arguments
  match line.input with
  | some input => return (line, input)
  | none => throw (.fault .noInput)

/-- The settings of a configuration with the options of the command line in place of its own. -/
def override (line : CommandLine) (settings : Settings) : Settings :=
  { floor := line.floor.getD settings.floor,
    keepPrivate := settings.keepPrivate || line.keepPrivate,
    destination := (line.destination.map Destination.ofText).getD settings.destination,
    fileName := line.fileName.or settings.fileName }

end CommandLine

end Typings
