import SchemaForge.Json.Reader
import SchemaForge.Script.Quote

/-!
# `SchemaForge.Script.Definition` — type definitions in quotes

A definition is a type expression inside a string literal in double quotes. Code that consists of
one such literal can be read back, so that a larger definition can be made of it.

## Contents
- **Reading.** `definition?` reads the text of a definition back.
- **Recognising.** `isDefinition`.
-/

namespace SchemaForge.Script

/-- The text of the definition that a piece of code consists of, blanks around it aside. -/
def definition? (code : String) : Option String :=
  match Json.skipSpace code.toList with
  | '"' :: rest => match Json.readQuoted rest with
    | some (text, rest) => if Json.skipSpace rest = [] then some (String.ofList text) else none
    | none => none
  | _ => none

/-- Whether a piece of code is a definition. -/
def isDefinition (code : String) : Bool := (definition? code).isSome

end SchemaForge.Script
