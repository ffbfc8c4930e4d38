import SchemaForge.Command.Options
import SchemaForge.Files.Delivery
import SchemaForge.Json.Reader
import SchemaForge.Module.Assembly
import SchemaForge.Module.Types
import SchemaForge.Text.ControlSequence
import SchemaForge.Text.Newlines

/-!
# `SchemaForge.Command.Run` — carrying out a command

A command reads its input files, makes the module, and delivers the outputs: the module, and the
shared type helper if it was asked for. What it does to the files is the tree that it leaves behind.

## Contents
- **Failures.** `Failure`, and `Failure.message?` for those that are reported in one line.
- **Inputs.** `readText`, `readJson`, `Inputs.read`.
- **Outputs.** `outputs`.
- **Reports.** `LogLine`, `Outcome`, `Report`, `errorLine`.
- **Running.** `carryOut`, `run`.
-/

namespace SchemaForge.Command

/-! ## Failures -/

/-- Why a command fails. -/
inductive Failure where
  /-- A directory stands where a text is to be read. -/
  | inputIsDirectory
  /-- A file is not JSON. -/
  | unreadable (fault : Json.ReadFault)
  /-- The configuration is no object. -/
  | configurationNotObject
  /-- There is no module. -/
  | generation (failure : Module.Failure)
  /-- The outputs are not written. -/
  | delivery (error : WriteError)

/-- The message about a failure that a user can do something about: a schema that is refused, or
files in the way. -/
def Failure.message? (shownRoot : String) : Failure → Option String
  | .generation (.read (.unsupported refusal)) => some refusal.message
  | .generation (.render (.unsupported refusal)) => some refusal.message
  | .delivery error => error.message? shownRoot
  | _ => none

/-! ## Inputs -/

/-- The text of a file, with every line ended by a line feed. -/
def readText (tree : FileTree) (location : Location) : Except Failure String :=
  match tree.textAt? location with
  | some text => .ok (String.ofList (Text.unifyNewlines text.toList))
  | none => .error .inputIsDirectory

/-- The value in a file. -/
def readJson (tree : FileTree) (location : Location) : Except Failure Json := do
  (Json.read (← readText tree location)).mapError .unreadable

/-- The settings in a file, or the standard ones. -/
def readSettings (tree : FileTree) : Option Location → Except Failure Settings
  | none => .ok {}
  | some location => do
    match Settings.ofJson? (← readJson tree location) with
    | some settings => return settings
    | none => throw .configurationNotObject

/-- What a command reads. -/
structure Inputs where
  /-- The schema. -/
  schema : Json
  /-- The settings. -/
  settings : Settings
  /-- The author's text. -/
  source? : Option String

/-- Reads the inputs. -/
def Inputs.read (tree : FileTree) (options : Options) : Except Failure Inputs := do
  let schema ← readJson tree options.schema
  let settings ← readSettings tree options.config?
  match options.source? with
  | none => return { schema, settings, source? := none }
  | some location => return { schema, settings, source? := some (← readText tree location) }

/-! ## Outputs -/

/-- The files that a command writes. The author's own text is not checked, nor is the type
helper. -/
def outputs (options : Options) (inputs : Inputs) (module : String) : List Output :=
  { route := options.output, text := module
    validate? := if Module.isPassedOn options.dialect inputs.source? then some false else none } ::
  match options.typesOutput? with
  | none => []
  | some location =>
    [{ route := location, text := options.dialect.typesFile, validate? := some false }]

/-! ## Reports -/

/-- A line of the log. -/
inductive LogLine where
  /-- A module is being made. -/
  | generating (d : Dialect)
  /-- Something is left out. -/
  | warning (w : Warning)

/-- The text of a line of the log. -/
def LogLine.text : LogLine → String
  | generating d =>
    "DEBUG schema_to_validator.pipeline.generator: Generating " ++ d.label ++ " schema module"
  | warning w => "WARNING schema_to_validator.pipeline.backends.arktype_backend: " ++ w.text

/-- How a command ends. -/
inductive Outcome where
  /-- The outputs are written. -/
  | delivered
  /-- Help was asked for. -/
  | helped
  /-- The command line cannot be understood. -/
  | misused
  /-- Something failed. -/
  | failed (failure : Failure)

/-- What a command has done. -/
structure Report where
  /-- The log. -/
  log : List LogLine := []
  /-- How it ended. -/
  outcome : Outcome
  /-- The files it leaves behind. -/
  tree : FileTree

/-- The status with which a command exits. -/
def Outcome.status : Outcome → UInt32
  | delivered | helped => 0
  | failed _ => 1
  | misused => 2

/-- The line about a failure. Only a terminal is shown its control sequences. -/
def errorLine (onTerminal : Bool) (message : String) : String :=
  let line := "Error: " ++ message
  if onTerminal then line else String.ofList (Text.withoutControlSequences line.toList)

/-- What a command shows of itself: its log, as it is, and the failure if it is reported in one
line. -/
def Report.shown (report : Report) (shownRoot : String) (onTerminal : Bool) : String :=
  let lines := report.log.map LogLine.text
  let error := match report.outcome with
    | .failed failure => (failure.message? shownRoot).toList.map (errorLine onTerminal)
    | .delivered | .helped | .misused => []
  String.join ((lines ++ error).map (· ++ "\n"))

/-! ## Running -/

/-- Makes the module and delivers the outputs. Making it is only logged on request, and only once
the schema has been read. -/
def carryOut (tree : FileTree) (options : Options) (inputs : Inputs) : Report :=
  let result := Module.ofSchema options.dialect inputs.settings inputs.source? inputs.schema
  let begun := match result.outcome with
    | .error (.read _) => []
    | _ => if options.verbose then [LogLine.generating options.dialect] else []
  let log := begun ++ result.warnings.map .warning
  match result.outcome with
  | .error failure => { log, outcome := .failed (.generation failure), tree }
  | .ok module =>
    let attempt := tree.deliver { overwrite := options.force } (outputs options inputs module)
    match attempt.failure? with
    | some error => { log, outcome := .failed (.delivery error), tree := attempt.tree }
    | none => { log, outcome := .delivered, tree := attempt.tree }

/-- Runs a command line. -/
def run (s : Surroundings) (words : List String) : Report :=
  match Options.ofWords? s words with
  | none => { outcome := if asksForHelp words then .helped else .misused, tree := s.tree }
  | some options =>
    match Inputs.read s.tree options with
    | .error failure => { outcome := .failed failure, tree := s.tree }
    | .ok inputs => carryOut s.tree options inputs

end SchemaForge.Command
