import SchemaForge.Json.Quote

/-!
# `SchemaForge.Script.Quote` — string literals of a script

A string literal may hold no line terminator. JSON's escapes take care of the line feed and the
carriage return; the line separator U+2028 and the paragraph separator U+2029, which a JSON string
may hold, are escaped here as well.

## Contents
- **Characters.** `isSeparator`; `escape` for double quotes, `escapeSingle` for single quotes, where the single
  quote itself is escaped too.
- **Literals.** `doubleQuoted`, `singleQuoted`.
-/

namespace SchemaForge.Script

/-- Whether a character separates lines without being a control character. -/
def isSeparator (c : Char) : Bool := c == '\u2028' || c == '\u2029'

theorem isSeparator_iff {c : Char} : isSeparator c = true ↔ c = '\u2028' ∨ c = '\u2029' := by
  rw [isSeparator, Bool.or_eq_true, beq_iff_eq, beq_iff_eq]

/-- A character inside double quotes. -/
def escape (c : Char) : List Char :=
  if isSeparator c then Json.unitEscape c.toNat else Json.escape c

/-- A character inside single quotes. -/
def escapeSingle (c : Char) : List Char :=
  if c = '\'' then ['\\', '\''] else escape c

/-- A text as a string literal in double quotes. -/
def doubleQuoted (text : String) : String :=
  String.ofList ('"' :: (text.toList.flatMap escape ++ ['"']))

/-- A text as a string literal in single quotes. -/
def singleQuoted (text : String) : String :=
  String.ofList ('\'' :: (text.toList.flatMap escapeSingle ++ ['\'']))

end SchemaForge.Script
