import SchemaForge.Json.Notation

/-!
# `SchemaForge.Shape.Default` — what holds where a value is left out

The default of a property in a schema is a JSON value, whose texts are strings. A shape that is put
together by hand may have other defaults: a text with surrogates, or a tuple of values. They are
written as JSON all the same, a tuple like the list of its values, and a surrogate like the unit that
it is.

## Contents
- **Defaults.** `Default`, `null`.
- **Texts.** `write` for code and `inspect` for messages.
- **Equality.** `agrees`: a tuple is no list.
-/

namespace SchemaForge

/-- A default. -/
inductive Default where
  /-- A JSON value. -/
  | json (value : Json)
  /-- A text with surrogates. -/
  | surrogates (text : Text.SurrogateText)
  /-- A tuple of JSON values. -/
  | tuple (values : List Json)

namespace Default

/-- Null, which stands where there is no default. -/
abbrev null : Default := .json .null

/-- The text of a default in code. -/
def write : Default → String
  | json value => value.write
  | surrogates text => String.ofList (Json.quotePoints text.points)
  | tuple values => (Json.arr values).write

/-- The spelling of a default in messages. A tuple of one value keeps its comma. -/
def inspect : Default → String
  | json value => value.inspect
  | surrogates text => Text.quotedPoints text.points
  | tuple [value] => "(" ++ value.inspect ++ ",)"
  | tuple values => "(" ++ Json.inspectItems values ++ ")"

/-- Whether two defaults are equal. -/
def agrees : Default → Default → Bool
  | json value, json value' => value.agrees value'
  | surrogates text, surrogates text' => text = text'
  | tuple values, tuple values' => Json.agreesAll values values'
  | _, _ => false

end Default

end SchemaForge
