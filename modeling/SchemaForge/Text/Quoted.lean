import SchemaForge.Text.CodePoint
import SchemaForge.Text.Hex
import SchemaForge.Text.Printable

/-!
# `SchemaForge.Text.Quoted` — texts as messages quote them

A message that shows a text encloses it in single quotes, or in double quotes if the text holds a
single quote and no double quote. The enclosing quote, the backslash, and the unprintable
characters are escaped, everything else stands for itself.

## Contents
- **The quote.** `quoteFor` chooses it.
- **Escapes.** `escapeChar` and `quoted`; `quotedPoints` also shows texts with surrogates.
-/

namespace SchemaForge.Text

/-- The quote that encloses a text. -/
def quoteFor (text : List Char) : Char :=
  if text.contains '\'' && !text.contains '"' then '"' else '\''

/-- How one character is shown between the given quotes. -/
def escapeChar (quote c : Char) : List Char :=
  if c = quote ∨ c = '\\' then ['\\', c]
  else if c = '\n' then ['\\', 'n']
  else if c = '\r' then ['\\', 'r']
  else if c = '\t' then ['\\', 't']
  else if isPrintable c then [c]
  else if c.toNat < 0x100 then '\\' :: 'x' :: Hex.numeral 2 c.toNat
  else if c.toNat < 0x10000 then '\\' :: 'u' :: Hex.numeral 4 c.toNat
  else '\\' :: 'U' :: Hex.numeral 8 c.toNat

/-- How one code point is shown between the given quotes. No surrogate is printable. -/
def escapePoint (quote : Char) : CodePoint → List Char
  | .char c => escapeChar quote c
  | .surrogate index => '\\' :: 'u' :: Hex.numeral 4 (CodePoint.surrogateUnit index)

/-- A text of any code points between quotes. -/
def quotedPoints (points : List CodePoint) : String :=
  let quote := quoteFor (points.filterMap CodePoint.char?)
  String.ofList (quote :: points.flatMap (escapePoint quote) ++ [quote])

/-- The text between quotes. -/
def quoted (text : String) : String := quotedPoints (text.toList.map .char)

end SchemaForge.Text
