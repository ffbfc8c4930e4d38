import SchemaForge.Json.Writer
import SchemaForge.Text.Quoted

/-!
# `SchemaForge.Json.Notation` — values as messages and code spell them

Messages spell a value on one line: `None` for null, `True` and `False`, numbers by their digits
however many there are, texts in message quotes, and brackets as in JSON. A text that is shown by
itself stands bare.

## Contents
- **Inspecting.** `inspect`, with every text quoted.
- **Displaying.** `display`, with a text by itself left bare.
- **Kinds.** `kindName`, the name by which messages call a value's kind.
-/

namespace SchemaForge.Json

/-! ## Inspecting -/

mutual

/-- The spelling of a value. -/
def inspect : Json → String
  | .null => "None"
  | .bool b => if b then "True" else "False"
  | .int n => String.ofList (intText n)
  | .float x => x.text
  | .str s => Text.quoted s
  | .arr items => "[" ++ inspectItems items ++ "]"
  | .obj members => "\x7b" ++ inspectMembers members ++ "\x7d"

/-- The spellings of items, separated. -/
def inspectItems : List Json → String
  | [] => ""
  | [item] => inspect item
  | item :: rest => inspect item ++ ", " ++ inspectItems rest

/-- The spellings of members, separated. -/
def inspectMembers : List (String × Json) → String
  | [] => ""
  | [(key, value)] => Text.quoted key ++ ": " ++ inspect value
  | (key, value) :: rest =>
    Text.quoted key ++ ": " ++ inspect value ++ ", " ++ inspectMembers rest

end

/-- The spelling of a list of names. -/
def inspectNames (names : List String) : String := inspect (.arr (names.map .str))

/-! ## Displaying -/

/-- The spelling of a value that stands by itself. -/
def display : Json → String
  | .str s => s
  | value => inspect value

/-! ## Kinds -/

/-- The name of a value's kind. -/
def kindName : Json → String
  | .null => "NoneType"
  | .bool _ => "bool"
  | .int _ => "int"
  | .float _ => "float"
  | .str _ => "str"
  | .arr _ => "list"
  | .obj _ => "dict"

end SchemaForge.Json
