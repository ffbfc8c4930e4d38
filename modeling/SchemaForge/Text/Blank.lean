import SchemaForge.Text.Ranges

/-!
# `SchemaForge.Text.Blank` — blank characters, and trimming them

A character is blank when Unicode gives it the property White_Space, or when it is one of the four
information separators U+001C to U+001F: 29 characters in all. Padding around a dialect's name and
a module without content are recognised by this class.

## Contents
- **The class.** `isBlank`, which extends the four characters core calls whitespace.
- **Trimming.** `trim` drops the blanks at both ends; `isBlankText` holds of a text of blanks only.
-/

namespace SchemaForge.Text

/-! ## The class -/

/-- The blank characters. -/
def blankRanges : Ranges :=
  [(0x09, 0x0D), (0x1C, 0x20), (0x85, 0x85), (0xA0, 0xA0), (0x1680, 0x1680), (0x2000, 0x200A),
   (0x2028, 0x2029), (0x202F, 0x202F), (0x205F, 0x205F), (0x3000, 0x3000)]

/-- Whether a character is blank. -/
def isBlank (c : Char) : Bool := inRanges blankRanges c.toNat

/-- The table adds to core's whitespace and takes nothing away. -/
theorem isBlank_of_isWhitespace {c : Char} (h : c.isWhitespace = true) : isBlank c = true := by
  simp [Char.isWhitespace] at h
  rcases h with ((h | h) | h) | h <;> subst h <;> decide

example : (blankRanges.map fun range => range.2 + 1 - range.1).sum = 29 := by decide

/-! ## Trimming -/

/-- The text without the blanks at its two ends. -/
def trim (text : List Char) : List Char :=
  ((text.dropWhile isBlank).reverse.dropWhile isBlank).reverse

/-- Whether nothing but blanks is there. -/
def isBlankText (text : String) : Bool := text.toList.all isBlank

end SchemaForge.Text
