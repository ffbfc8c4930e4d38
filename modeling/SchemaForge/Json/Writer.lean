import SchemaForge.Json.Numeral
import SchemaForge.Json.Quote
import SchemaForge.Number.Notation

/-!
# `SchemaForge.Json.Writer` — writing JSON text

A value is written on one line in ASCII, with a comma and a space between items and a colon and a
space between a key and its value. The doubles that are no numbers are written `NaN`, `Infinity` and
`-Infinity`, as the reader reads them.

The length of integers may be limited, as in reading: a value with a longer integer has no text, not
even in part. Code and messages are made as with the limit turned off, so `write` and the numbers
below have none.

## Contents
- **Numbers.** `intText` and `floatText`.
- **Values.** `encode` with `encodeItems` and `encodeMembers`; `write` gives it as a string.
- **Limits.** `keepsTo` and `writeWithin` a limit, and `dump` with the one that holds for files.
-/

namespace SchemaForge.Json

/-! ## Numbers -/

/-- The digits of an integer of any length, behind a minus if it is negative. -/
def intText (n : Int) : List Char :=
  if n < 0 then '-' :: Nat.toDigits 10 n.natAbs else Nat.toDigits 10 n.natAbs

/-- The text of a double. -/
def floatText : Binary64 → List Char
  | .nan => "NaN".toList
  | .infinity negative => if negative then "-Infinity".toList else "Infinity".toList
  | x => x.text.toList

/-! ## Values -/

mutual

/-- The text of a value. -/
def encode : Json → List Char
  | .null => "null".toList
  | .bool b => if b then "true".toList else "false".toList
  | .int n => intText n
  | .float x => floatText x
  | .str s => quoteAscii s.toList
  | .arr items => '[' :: (encodeItems items ++ [']'])
  | .obj members => '\x7b' :: (encodeMembers members ++ ['\x7d'])

/-- The texts of items, separated. -/
def encodeItems : List Json → List Char
  | [] => []
  | [item] => encode item
  | item :: rest => encode item ++ ',' :: ' ' :: encodeItems rest

/-- The texts of members, separated. -/
def encodeMembers : List (String × Json) → List Char
  | [] => []
  | [(key, value)] => quoteAscii key.toList ++ ':' :: ' ' :: encode value
  | (key, value) :: rest =>
    quoteAscii key.toList ++ ':' :: ' ' :: (encode value ++ ',' :: ' ' :: encodeMembers rest)

end

/-- The text of a value, as a string. -/
def write (value : Json) : String := String.ofList (encode value)

/-! ## Limits -/

/-- Why a value was not written. -/
inductive WriteFault where
  /-- An integer has too many digits. -/
  | numeralTooLong
deriving DecidableEq, Repr

mutual

/-- Whether the integers in a value keep to a limit on their digits, if there is one. A sign is no
digit. -/
def keepsTo (limit : Option Nat) : Json → Bool
  | .int n => withinLimit limit (Nat.toDigits 10 n.natAbs)
  | .arr items => itemsKeepTo limit items
  | .obj members => membersKeepTo limit members
  | .null | .bool _ | .float _ | .str _ => true

/-- Whether those in items do. -/
def itemsKeepTo (limit : Option Nat) : List Json → Bool
  | [] => true
  | item :: rest => keepsTo limit item && itemsKeepTo limit rest

/-- Whether those in members do. -/
def membersKeepTo (limit : Option Nat) : List (String × Json) → Bool
  | [] => true
  | (_, value) :: rest => keepsTo limit value && membersKeepTo limit rest

end

/-- The text of a value whose integers keep to a limit. -/
def writeWithin (limit : Option Nat) (value : Json) : Except WriteFault String :=
  if keepsTo limit value then .ok value.write else .error .numeralTooLong

/-- The text of a value whose integers keep to the limit that holds for files. -/
def dump (value : Json) : Except WriteFault String := writeWithin (some maxIntegerDigits) value

end SchemaForge.Json
