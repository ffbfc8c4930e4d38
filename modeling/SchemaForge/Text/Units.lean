/-!
# `SchemaForge.Text.Units` — characters as 16-bit units

An escape of four hexadecimal digits names one 16-bit unit. A character below U+10000 is one unit,
its code point; any other is a pair of units, a high surrogate and a low one. No character is a
surrogate, so a run of units is split into characters in one way.

## Contents
- **Splitting.** `units` gives a character's units.
- **Joining.** `joinUnits` joins each pair of surrogates; a surrogate without its partner becomes
  the replacement character U+FFFD. It undoes `units` (`joinUnits_flatMap_units`).
-/

namespace SchemaForge.Text

/-- The 16-bit units of a character. -/
def units (c : Char) : List Nat :=
  if c.toNat < 0x10000 then [c.toNat]
  else [0xD800 + (c.toNat - 0x10000) / 0x400, 0xDC00 + (c.toNat - 0x10000) % 0x400]

/-- Whether a unit opens a pair. -/
def isHighSurrogate (unit : Nat) : Bool := 0xD800 ≤ unit && unit < 0xDC00

/-- Whether a unit closes a pair. -/
def isLowSurrogate (unit : Nat) : Bool := 0xDC00 ≤ unit && unit < 0xE000

/-- The character of a unit that stands alone. -/
def unitChar (unit : Nat) : Char :=
  if isHighSurrogate unit || isLowSurrogate unit then '\ufffd' else Char.ofNat unit

/-- The characters of a run of units. A unit may also be a whole code point. -/
def joinUnits : List Nat → List Char
  | [] => []
  | [unit] => [unitChar unit]
  | high :: low :: rest =>
    if isHighSurrogate high && isLowSurrogate low then
      Char.ofNat (0x10000 + (high - 0xD800) * 0x400 + (low - 0xDC00)) :: joinUnits rest
    else unitChar high :: joinUnits (low :: rest)

/-! ## Joining undoes splitting -/

/-- A character is no surrogate. -/
theorem toNat_not_surrogate (c : Char) :
    c.toNat < 0xD800 ∨ (0xE000 ≤ c.toNat ∧ c.toNat < 0x110000) := by
  have valid := c.valid
  have code : c.val.toNat = c.toNat := rfl
  simp only [UInt32.isValidChar, Nat.isValidChar] at valid
  rw [code] at valid
  omega

/-- A unit has 16 bits. -/
theorem lt_of_mem_units {c : Char} {unit : Nat} (h : unit ∈ units c) : unit < 0x10000 := by
  have code := toNat_not_surrogate c
  unfold units at h
  split at h
  · rw [List.mem_singleton] at h
    omega
  · rw [List.mem_cons, List.mem_singleton] at h
    omega

theorem isHighSurrogate_toNat (c : Char) : isHighSurrogate c.toNat = false := by
  have := toNat_not_surrogate c
  simp only [isHighSurrogate, Bool.and_eq_false_iff, decide_eq_false_iff_not]
  omega

theorem isLowSurrogate_toNat (c : Char) : isLowSurrogate c.toNat = false := by
  have := toNat_not_surrogate c
  simp only [isLowSurrogate, Bool.and_eq_false_iff, decide_eq_false_iff_not]
  omega

theorem unitChar_toNat (c : Char) : unitChar c.toNat = c := by
  simp [unitChar, isHighSurrogate_toNat, isLowSurrogate_toNat]

theorem joinUnits_toNat_cons (c : Char) (rest : List Nat) :
    joinUnits (c.toNat :: rest) = c :: joinUnits rest := by
  cases rest with
  | nil => simp [joinUnits, unitChar_toNat]
  | cons low rest => simp [joinUnits, unitChar_toNat, isHighSurrogate_toNat]

theorem joinUnits_pair {n : Nat} (h : n < 0x100000) (rest : List Nat) :
    joinUnits ((0xD800 + n / 0x400) :: (0xDC00 + n % 0x400) :: rest)
      = Char.ofNat (0x10000 + n) :: joinUnits rest := by
  have high : isHighSurrogate (0xD800 + n / 0x400) = true := by
    simp only [isHighSurrogate, Bool.and_eq_true, decide_eq_true_eq]; omega
  have low : isLowSurrogate (0xDC00 + n % 0x400) = true := by
    simp only [isLowSurrogate, Bool.and_eq_true, decide_eq_true_eq]; omega
  have sum : 0x10000 + (0xD800 + n / 0x400 - 0xD800) * 0x400 + (0xDC00 + n % 0x400 - 0xDC00)
      = 0x10000 + n := by omega
  rw [joinUnits, high, low, sum]
  rfl

theorem joinUnits_units_append (c : Char) (rest : List Nat) :
    joinUnits (units c ++ rest) = c :: joinUnits rest := by
  have code := toNat_not_surrogate c
  unfold units
  split
  · exact joinUnits_toNat_cons c rest
  · have whole : 0x10000 + (c.toNat - 0x10000) = c.toNat := by omega
    rw [List.cons_append, List.cons_append, List.nil_append, joinUnits_pair (by omega), whole,
      Char.ofNat_toNat]

/-- Splitting every character and joining the units gives the text back. -/
theorem joinUnits_flatMap_units (text : List Char) : joinUnits (text.flatMap units) = text := by
  induction text with
  | nil => rfl
  | cons c rest ih => rw [List.flatMap_cons, joinUnits_units_append, ih]

end SchemaForge.Text
