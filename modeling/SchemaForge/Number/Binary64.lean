import SchemaForge.Number.Power

/-!
# `SchemaForge.Number.Binary64` — double-precision numbers, exactly

Every finite double is a whole multiple of the least positive one, `2^-1074`. So a finite double is
kept as its sign and its magnitude counted in that unit, a natural number, and all arithmetic on
doubles here is exact arithmetic on natural numbers.

## Contents
- **The type.** `Binary64`, with its zero kept signed; `one` is the number of units in `1.0`.
- **Whole values.** `whole?` gives the integer that a double equals.
- **Rounding.** `spacing` is the gap between neighbouring doubles; `roundRatio` rounds a ratio to
  the nearest double, a tie to the one whose last bit is zero.
- **Reading.** `ofDecimal` is the double nearest to a decimal.
-/

namespace SchemaForge

/-- A number in double precision. -/
inductive Binary64 where
  /-- The value that is no number. -/
  | nan
  /-- The value beyond every finite one. -/
  | infinity (negative : Bool)
  /-- A finite value whose magnitude is `units` times `2^-1074`. -/
  | finite (negative : Bool) (units : Nat)
deriving DecidableEq, Repr

namespace Binary64

/-- The unit is two to minus this power. -/
def unitExponent : Nat := 1074

/-- The number of units in `1.0`. -/
def one : Nat := twoPow unitExponent

theorem one_pos : 0 < one := twoPow_pos unitExponent

/-! ## Whole values -/

/-- The number with the given sign and magnitude. -/
def signed (negative : Bool) (magnitude : Nat) : Int :=
  if negative then -(magnitude : Int) else magnitude

/-- The integer that the double equals, if there is one. -/
def whole? : Binary64 → Option Int
  | .finite negative units => if units % one = 0 then some (signed negative (units / one)) else none
  | _ => none

/-! ## Rounding -/

/-- The gap between a double of this magnitude and the next larger one: a double has at most 53
significant bits, and is never finer than the unit. -/
def spacing (units : Nat) : Nat := twoPow (units.log2 - 52)

/-- The quotient rounded to the nearest whole number, a tie to the even one. -/
def roundDiv (num den : Nat) : Nat :=
  let q := num / den
  let r := num % den
  if 2 * r < den ∨ (2 * r = den ∧ q % 2 = 0) then q else q + 1

/-- The least magnitude that is out of range. -/
def overflow : Nat := twoPow 1024 * one

/-- The double nearest to `num / den` units. -/
def roundRatio (negative : Bool) (num den : Nat) : Binary64 :=
  let gap := spacing (num / den)
  let units := roundDiv num (den * gap) * gap
  if units < overflow then .finite negative units else .infinity negative

/-! ## Reading -/

/-- The number of decimal digits of a number. -/
def digitCount (n : Nat) : Nat := (Nat.toDigits 10 n).length

/-- The double nearest to `digits * 10^exponent`. A decimal below `10^-330` is nearer to zero than
to the least positive double, and one from `10^310` on is beyond the greatest, so their powers of
ten are never built. -/
def ofDecimal (negative : Bool) (digits : Nat) (exponent : Int) : Binary64 :=
  let magnitude := digitCount digits + exponent
  if digits = 0 ∨ magnitude < -330 then .finite negative 0
  else if 310 < magnitude then .infinity negative
  else roundRatio negative (digits * tenPow exponent.toNat * one) (tenPow (-exponent).toNat)

end Binary64

end SchemaForge
