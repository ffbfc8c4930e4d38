/-!
# `SchemaForge.Command.Words` — the words of a command line

A word that starts with two dashes is a long option, one that starts with a single dash is a cluster
of short options, and the word `--` ends the options; a dash by itself and every other word is an
operand. An option that takes a value takes it from the same word, behind `=` if the option is a
long one, or else from the next word, whatever that is. Options and operands may come in any order.

## Contents
- **Options.** `Switch`, `Parameter`, `Kind`, with their long and short spellings.
- **One word.** `Word`, `cluster`, `longOption`, `Word.of`.
- **All words.** `Given`, `Given.read?`.
-/

namespace SchemaForge.Command

/-! ## Options -/

/-- An option without a value. -/
inductive Switch where
  | force
  | verbose
  | help
deriving DecidableEq, Repr

/-- An option with a value. -/
inductive Parameter where
  | dialect
  | config
  | rawSource
  | typesOutput
deriving DecidableEq, Repr

/-- An option of either kind. -/
inductive Kind where
  | switch (s : Switch)
  | parameter (p : Parameter)
deriving DecidableEq, Repr

/-- The option of a long spelling. -/
def Kind.ofLong? (spelling : String) : Option Kind :=
  if spelling = "--dialect" then some (.parameter .dialect)
  else if spelling = "--config" then some (.parameter .config)
  else if spelling = "--raw-source" then some (.parameter .rawSource)
  else if spelling = "--types-output" then some (.parameter .typesOutput)
  else if spelling = "--force" then some (.switch .force)
  else if spelling = "--verbose" then some (.switch .verbose)
  else if spelling = "--help" then some (.switch .help)
  else none

/-- The option of a short spelling, without its dash. -/
def Kind.ofShort? (spelling : Char) : Option Kind :=
  if spelling = 'd' then some (.parameter .dialect)
  else if spelling = 'c' then some (.parameter .config)
  else if spelling = 'v' then some (.switch .verbose)
  else none

/-! ## One word -/

/-- What has been given so far. -/
structure Given where
  /-- The switches. -/
  switches : List Switch := []
  /-- The parameters with their values, in order. -/
  values : List (Parameter × String) := []
  /-- The operands, in order. -/
  operands : List String := []

/-- Two parts of a command line, one after the other. -/
def Given.append (first second : Given) : Given :=
  { switches := first.switches ++ second.switches
    values := first.values ++ second.values
    operands := first.operands ++ second.operands }

/-- What one word says. -/
inductive Word where
  /-- It ends the options. -/
  | ending
  /-- It gives something. -/
  | complete (given : Given)
  /-- It gives something, and the next word is the value of a parameter. -/
  | awaiting (given : Given) (parameter : Parameter)
  /-- It is no option. -/
  | unknown

/-- What a cluster of short options gives. A parameter's value is the rest of the cluster. -/
def cluster (given : Given) : List Char → Word
  | [] => .complete given
  | c :: rest =>
    match Kind.ofShort? c with
    | none => .unknown
    | some (.switch s) => cluster (given.append { switches := [s] }) rest
    | some (.parameter p) =>
      if rest = [] then .awaiting given p
      else .complete (given.append { values := [(p, String.ofList rest)] })

/-- What a long option gives, of which the value is written in the same word if there is one. -/
def longOption (kind : Kind) (value? : Option String) : Word :=
  match kind, value? with
  | .switch s, none => .complete { switches := [s] }
  | .switch _, some _ => .unknown
  | .parameter p, none => .awaiting {} p
  | .parameter p, some value => .complete { values := [(p, value)] }

/-- What stands before the first equals sign of a word, and what stands behind it. -/
def splitValue (word : List Char) : String × Option String :=
  (String.ofList (word.takeWhile (· ≠ '=')),
    match word.dropWhile (· ≠ '=') with
    | _ :: value => some (String.ofList value)
    | [] => none)

/-- What a word says. -/
def Word.of (word : String) : Word :=
  match word.toList with
  | ['-', '-'] => .ending
  | '-' :: '-' :: rest =>
    let (spelling, value?) := splitValue ('-' :: '-' :: rest)
    match Kind.ofLong? spelling with
    | some kind => longOption kind value?
    | none => .unknown
  | '-' :: c :: rest => cluster {} (c :: rest)
  | _ => .complete { operands := [word] }

/-! ## All words -/

/-- What the words of a command line give, after what has been given and possibly up to a parameter
whose value comes next; `none` if there is an unknown option or a value is missing. -/
def Given.readFrom? (given : Given) : Option Parameter → List String → Option Given
  | none, [] => some given
  | some _, [] => none
  | some p, value :: rest => readFrom? (given.append { values := [(p, value)] }) none rest
  | none, word :: rest =>
    match Word.of word with
    | .ending => some (given.append { operands := rest })
    | .complete more => readFrom? (given.append more) none rest
    | .awaiting more p => readFrom? (given.append more) (some p) rest
    | .unknown => none

/-- What the words of a command line give. -/
def Given.read? (words : List String) : Option Given := Given.readFrom? {} none words

/-- The texts that name files. -/
def Given.places (given : Given) : List String :=
  given.operands ++ (given.values.filter (·.1 ≠ .dialect)).map Prod.snd

/-- The value of a parameter: the last one counts. -/
def Given.value? (given : Given) (p : Parameter) : Option String :=
  (given.values.reverse.find? (·.1 = p)).map Prod.snd

end SchemaForge.Command
