import SchemaForge.Json.Basic

/-!
# `SchemaForge.Json.Numeral` — JSON numbers

A numeral is an optional minus, a whole part without leading zeros, an optional fraction and an
optional exponent. Without the last two it is an integer, with one of them a double. A point or an
exponent mark that no digit follows does not belong to the numeral.

## Contents
- **Parts.** `Numeral`, and `Numeral.value?`, which may limit the length of an integer.
- **Reading.** `readNumeral` takes the longest numeral off the front of a text.
-/

namespace SchemaForge.Json

/-! ## Parts -/

/-- The parts of a numeral. -/
structure Numeral where
  /-- Whether a minus stands in front. -/
  negative : Bool
  /-- The digits before the point. -/
  whole : List Char
  /-- The digits behind the point. -/
  fraction : List Char
  /-- The exponent, if one is written. -/
  exponent : Option Int

/-- The number that a run of digits denotes. -/
def digitsValue (digits : List Char) : Nat :=
  digits.foldl (fun n c => 10 * n + (c.toNat - '0'.toNat)) 0

/-- The most digits that an integer may have in a text that is read or dumped. -/
def maxIntegerDigits : Nat := 4300

/-- Whether a run of digits keeps to a limit, if there is one. -/
def withinLimit (limit : Option Nat) (digits : List Char) : Bool :=
  limit.all fun most => digits.length ≤ most

/-- The value of a numeral, or `none` if it is an integer with too many digits. -/
def Numeral.value? (limit : Option Nat) (n : Numeral) : Option Json :=
  if n.fraction.isEmpty && n.exponent.isNone then
    if withinLimit limit n.whole then
      some (.int (Binary64.signed n.negative (digitsValue n.whole)))
    else none
  else
    some (.float (.ofDecimal n.negative (digitsValue (n.whole ++ n.fraction))
      (n.exponent.getD 0 - n.fraction.length)))

/-! ## Reading -/

/-- The digits at the front of a text, and the rest. -/
def splitDigits (text : List Char) : List Char × List Char :=
  (text.takeWhile Char.isDigit, text.dropWhile Char.isDigit)

theorem length_splitDigits (text : List Char) :
    (splitDigits text).1.length + (splitDigits text).2.length = text.length := by
  rw [← List.length_append, splitDigits, List.takeWhile_append_dropWhile]

/-- The whole part: a zero, or digits that start with another one. -/
def splitWhole : List Char → List Char × List Char
  | '0' :: rest => (['0'], rest)
  | text => splitDigits text

theorem length_splitWhole (text : List Char) :
    (splitWhole text).1.length + (splitWhole text).2.length = text.length := by
  unfold splitWhole
  split
  · simp; omega
  · exact length_splitDigits text

/-- The fraction: a point and at least one digit. -/
def splitFraction (text : List Char) : List Char × List Char :=
  match text with
  | '.' :: rest =>
    let digits := splitDigits rest
    if digits.1.isEmpty then ([], text) else digits
  | _ => ([], text)

theorem length_splitFraction (text : List Char) : (splitFraction text).2.length ≤ text.length := by
  unfold splitFraction
  split
  · next rest =>
    have := length_splitDigits rest
    dsimp only
    split
    · exact Nat.le_refl _
    · simp only [List.length_cons]; omega
  · exact Nat.le_refl _

/-- The sign at the front of a text, if there is one, and the rest. -/
def splitSign : List Char → Bool × List Char
  | '-' :: rest => (true, rest)
  | '+' :: rest => (false, rest)
  | text => (false, text)

theorem length_splitSign (text : List Char) : (splitSign text).2.length ≤ text.length := by
  unfold splitSign
  split <;> simp

/-- The exponent: a mark, an optional sign and at least one digit. -/
def splitExponent (text : List Char) : Option Int × List Char :=
  match text with
  | mark :: rest =>
    let digits := splitDigits (splitSign rest).2
    if (mark = 'e' ∨ mark = 'E') ∧ digits.1 ≠ [] then
      (some (Binary64.signed (splitSign rest).1 (digitsValue digits.1)), digits.2)
    else (none, text)
  | [] => (none, [])

theorem length_splitExponent (text : List Char) : (splitExponent text).2.length ≤ text.length := by
  unfold splitExponent
  split
  · next mark rest =>
    have := length_splitDigits (splitSign rest).2
    have := length_splitSign rest
    dsimp only
    split
    · simp only [List.length_cons]; omega
    · exact Nat.le_refl _
  · exact Nat.le_refl _

/-- The minus at the front of a text, if there is one, and the rest. -/
def splitMinus : List Char → Bool × List Char
  | '-' :: rest => (true, rest)
  | text => (false, text)

theorem length_splitMinus (text : List Char) : (splitMinus text).2.length ≤ text.length := by
  unfold splitMinus
  split <;> simp

/-- The longest numeral at the front of a text, and the rest. -/
def readNumeral (text : List Char) : Option (Numeral × List Char) :=
  let minus := splitMinus text
  let whole := splitWhole minus.2
  let fraction := splitFraction whole.2
  let exponent := splitExponent fraction.2
  if whole.1 = [] then none
  else some ({ negative := minus.1, whole := whole.1, fraction := fraction.1,
               exponent := exponent.1 }, exponent.2)

theorem length_of_readNumeral {text rest : List Char} {n : Numeral}
    (h : readNumeral text = some (n, rest)) : rest.length < text.length := by
  simp only [readNumeral] at h
  split at h
  · cases h
  · next some_digit =>
    cases h
    have := length_splitMinus text
    have := length_splitWhole (splitMinus text).2
    have := length_splitFraction (splitWhole (splitMinus text).2).2
    have := length_splitExponent (splitFraction (splitWhole (splitMinus text).2).2).2
    have : (splitWhole (splitMinus text).2).1.length ≠ 0 := by simpa using some_digit
    omega

end SchemaForge.Json
