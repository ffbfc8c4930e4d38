import SchemaForge.Text.Units

/-!
# `SchemaForge.Text.CodePoint` — texts with surrogates

A text is a run of code points. All but the surrogates are characters, and a text of characters is a
`String`. A surrogate in a text stands for itself, whatever stands next to it: two of them that would
be the units of a character are not that character.

## Contents
- **Code points.** `CodePoint`, its `char?` and its `units`.
- **Texts.** `SurrogateText`, a text that is no `String`.
-/

namespace SchemaForge.Text

/-- A code point. -/
inductive CodePoint where
  /-- A character. -/
  | char (c : Char)
  /-- A surrogate, by its place among them. -/
  | surrogate (index : Fin 0x800)
deriving DecidableEq

namespace CodePoint

/-- The character, unless it is a surrogate. -/
def char? : CodePoint → Option Char
  | char c => some c
  | surrogate _ => none

/-- The unit that a surrogate is. -/
def surrogateUnit (index : Fin 0x800) : Nat := 0xD800 + index

/-- The 16-bit units of a code point. -/
def units : CodePoint → List Nat
  | char c => Text.units c
  | surrogate index => [surrogateUnit index]

end CodePoint

/-- A text that has a surrogate among its code points. -/
structure SurrogateText where
  /-- The code points. -/
  points : List CodePoint
  hasSurrogate : points.any (·.char?.isNone) = true
deriving DecidableEq

example : ([.surrogate 0x3D, .surrogate 0x600] : List CodePoint).flatMap CodePoint.units
    = Text.units '😀' := by decide

end SchemaForge.Text
