import SchemaForge.Command.Words
import SchemaForge.Dialect
import SchemaForge.Files.Route

/-!
# `SchemaForge.Command.Options` — what a command line asks for

A command line names a schema file and an output file. Options choose the dialect, a configuration
file, the author's TypeBox source, a further output for the shared type helper, and whether files
may be overwritten. Files that are read have to be there. A command line that asks for help asks for
nothing else, whatever stands on it beside that.

## Contents
- **Surroundings.** `Surroundings`: the files, and the directory from which routes start.
- **Help.** `usage`, `asksForHelp`.
- **Options.** `Options`, `Options.ofWords?`.
-/

namespace SchemaForge.Command

/-- Where a command is run. -/
structure Surroundings where
  /-- All the files there are. -/
  tree : FileTree
  /-- The directory from which routes start. -/
  directory : Location := []
  /-- How messages show the root of the tree. -/
  shownRoot : String := ""

/-- The location that a text names. A slash in front leads back to the root. -/
def Surroundings.locate (s : Surroundings) (text : String) : Location :=
  Route.resolve (if text.toList.head? = some '/' then [] else s.directory) (Route.ofText text)

/-- How a command line is written. -/
def usage : String := "Usage: schema_to_validator [OPTIONS] PATH OUTPUT"

/-- Whether a command line asks for help. Its words have to be understood, but neither its operands nor
the values of its parameters are looked at. -/
def asksForHelp (words : List String) : Bool :=
  (Given.read? words).any (·.switches.contains .help)

/-- What a command line asks for. -/
structure Options where
  /-- The dialect of the module. -/
  dialect : Dialect
  /-- The configuration file. -/
  config? : Option Location
  /-- The file with the author's text. -/
  source? : Option Location
  /-- Where the shared type helper goes. -/
  typesOutput? : Option Location
  /-- Whether files may be overwritten. -/
  force : Bool
  /-- Whether every step is logged. -/
  verbose : Bool
  /-- The schema file. -/
  schema : Location
  /-- Where the module goes. -/
  output : Location

/-- The location of a file that is to be read, which has to be there. -/
def Surroundings.locateInput? (s : Surroundings) (text : String) : Option Location :=
  if (s.tree.find? (s.locate text)).isSome then some (s.locate text) else none

/-- The location of a file that is to be read if one is named; the outer `none` is a failure. -/
def Surroundings.locateOptional? (s : Surroundings) (text? : Option String) :
    Option (Option Location) :=
  match text? with
  | none => some none
  | some text => (s.locateInput? text).map some

/-- The options that were given: `none` is a command line that cannot be understood. -/
def Options.ofGiven? (s : Surroundings) (given : Given) : Option Options :=
  match given.operands with
  | [schema, output] => do
    let dialect ← Dialect.ofChoice? ((given.value? .dialect).getD Dialect.zod.packageName)
    let config? ← s.locateOptional? (given.value? .config)
    let source? ← s.locateOptional? (given.value? .rawSource)
    let schema ← s.locateInput? schema
    return { dialect, config?, source?, schema
             typesOutput? := (given.value? .typesOutput).map s.locate
             force := given.switches.contains .force
             verbose := given.switches.contains .verbose
             output := s.locate output }
  | _ => none

/-- The options on a command line that does not ask for help. -/
def Options.ofWords? (s : Surroundings) (words : List String) : Option Options :=
  if asksForHelp words then none else (Given.read? words).bind (Options.ofGiven? s)

end SchemaForge.Command
