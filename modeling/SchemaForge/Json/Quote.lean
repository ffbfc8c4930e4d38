import SchemaForge.Text.CodePoint
import SchemaForge.Text.Hex

/-!
# `SchemaForge.Json.Quote` — JSON strings

A JSON string stands between double quotes. The quote, the backslash and the control characters
below U+0020 are escaped; an ASCII string escapes everything from U+007F on too, unit by unit.

## Contents
- **Escapes.** `letterFor?` has the one-letter escapes, `letterValue?` reads them back.
- **Writing.** `escape` leaves characters beyond ASCII as they are, `escapeAscii` does not;
  `quotePoints` also writes texts with surrogates.
- **Reading.** `readUnits` reads up to the closing quote, `readQuoted` joins what it read.
-/

namespace SchemaForge.Json

open Text

/-! ## Escapes -/

/-- The letter that stands for a character behind a backslash. -/
def letterFor? (c : Char) : Option Char :=
  if c = '"' then some '"'
  else if c = '\\' then some '\\'
  else if c = '\n' then some 'n'
  else if c = '\r' then some 'r'
  else if c = '\t' then some 't'
  else if c = '\x08' then some 'b'
  else if c = '\x0c' then some 'f'
  else none

/-- The code of the character that a letter behind a backslash stands for. -/
def letterValue? (letter : Char) : Option Nat :=
  if letter = '"' then some 0x22
  else if letter = '\\' then some 0x5C
  else if letter = '/' then some 0x2F
  else if letter = 'b' then some 0x08
  else if letter = 'f' then some 0x0C
  else if letter = 'n' then some 0x0A
  else if letter = 'r' then some 0x0D
  else if letter = 't' then some 0x09
  else none

/-- A unit as an escape of four hexadecimal digits. -/
def unitEscape (unit : Nat) : List Char := '\\' :: 'u' :: Hex.numeral 4 unit

/-! ## Writing -/

/-- A character inside a string that may hold any character. -/
def escape (c : Char) : List Char :=
  match letterFor? c with
  | some letter => ['\\', letter]
  | none => if c.toNat < 0x20 then unitEscape c.toNat else [c]

/-- A character inside a string that holds ASCII only. -/
def escapeAscii (c : Char) : List Char :=
  match letterFor? c with
  | some letter => ['\\', letter]
  | none => if 0x20 ≤ c.toNat ∧ c.toNat < 0x7F then [c] else (units c).flatMap unitEscape

/-- A code point inside a string that holds ASCII only. A surrogate is escaped as the unit it is. -/
def escapePoint : CodePoint → List Char
  | .char c => escapeAscii c
  | .surrogate index => unitEscape (CodePoint.surrogateUnit index)

/-- A text of any code points as an ASCII string. -/
def quotePoints (points : List CodePoint) : List Char :=
  '"' :: (points.flatMap escapePoint ++ ['"'])

/-- A text of characters as an ASCII string. -/
def quoteAscii (text : List Char) : List Char := quotePoints (text.map .char)

theorem quoteAscii_eq (text : List Char) :
    quoteAscii text = '"' :: (text.flatMap escapeAscii ++ ['"']) := by
  rw [quoteAscii, quotePoints, List.flatMap_map]
  rfl

/-! ## Reading -/

/-- The units up to the closing quote and the text behind it. A raw control character, an unknown
escape and a missing quote are refused. -/
def readUnits : List Char → Option (List Nat × List Char)
  | [] => none
  | '"' :: rest => some ([], rest)
  | '\\' :: 'u' :: a :: b :: c :: d :: rest => do
    let unit ← Hex.numeral? [a, b, c, d]
    let (units, rest) ← readUnits rest
    return (unit :: units, rest)
  | '\\' :: letter :: rest => do
    let code ← letterValue? letter
    let (units, rest) ← readUnits rest
    return (code :: units, rest)
  | c :: rest =>
    if c.toNat < 0x20 ∨ c = '\\' then none
    else do
      let (units, rest) ← readUnits rest
      return (c.toNat :: units, rest)

theorem length_of_readUnits {text : List Char} {units : List Nat} {rest : List Char}
    (h : readUnits text = some (units, rest)) : rest.length < text.length := by
  fun_induction readUnits text generalizing units rest with
  | case1 => simp at h
  | case2 rest' => simp at h; simp [h]
  | case3 a b c d rest' ih =>
    simp only [Option.bind_eq_bind, Option.bind_eq_some_iff] at h
    obtain ⟨unit, _, ⟨units', rest''⟩, h', h⟩ := h
    simp only [Option.pure_def, Option.some.injEq, Prod.mk.injEq] at h
    have := ih h'
    simp only [← h.2, List.length_cons]; omega
  | case4 letter rest' _ ih =>
    simp only [Option.bind_eq_bind, Option.bind_eq_some_iff] at h
    obtain ⟨code, _, ⟨units', rest''⟩, h', h⟩ := h
    simp only [Option.pure_def, Option.some.injEq, Prod.mk.injEq] at h
    have := ih h'
    simp only [← h.2, List.length_cons]; omega
  | case5 => simp at h
  | case6 c rest' _ _ _ _ ih =>
    simp only [Option.bind_eq_bind, Option.bind_eq_some_iff] at h
    obtain ⟨⟨units', rest''⟩, h', h⟩ := h
    simp only [Option.pure_def, Option.some.injEq, Prod.mk.injEq] at h
    have := ih h'
    simp only [← h.2, List.length_cons]; omega

/-- The text up to the closing quote and the text behind it. -/
def readQuoted (text : List Char) : Option (List Char × List Char) :=
  (readUnits text).map fun (units, rest) => (joinUnits units, rest)

theorem length_of_readQuoted {text content rest : List Char}
    (h : readQuoted text = some (content, rest)) : rest.length < text.length := by
  simp only [readQuoted, Option.map_eq_some_iff] at h
  obtain ⟨⟨units, rest'⟩, h, h'⟩ := h
  cases h'
  exact length_of_readUnits h

end SchemaForge.Json
