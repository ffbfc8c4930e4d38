import SchemaForge.Number.Binary64

/-!
# `SchemaForge.Number.Shortest` — the fewest digits that read back

A decimal reads back to a double when it lies in the double's rounding interval: from half way to
the neighbour below to half way to the neighbour above, the ends included when the double's last
bit is zero, since a tie goes there. Of the decimals with the fewest digits in that interval the one
nearest to the double is selected.

The grid of decimals with `n` significant digits is searched for `n = 1, 2, …, 17`. If any point of
a grid lies in the interval, then so does one of the double's two neighbours on that grid, so two
tests a grid suffice; seventeen digits always read back.

## Contents
- **Decimals.** `Decimal`, a coefficient and a power of ten.
- **The interval.** `readsBack` tests a ratio of units against the rounding interval.
- **Selection.** `onGrid` tries one grid, `shortest` tries them in turn.
-/

namespace SchemaForge

/-- The number `coefficient * 10^exponent`. -/
structure Decimal where
  /-- The significant digits, as a number. -/
  coefficient : Nat
  /-- The power of ten they are multiplied by. -/
  exponent : Int
deriving DecidableEq, Repr

namespace Decimal

/-- The same number with up to `count` trailing zeros of its coefficient moved to the exponent. -/
def strip : Nat → Decimal → Decimal
  | 0, d => d
  | count + 1, d =>
    if d.coefficient % 10 = 0 ∧ d.coefficient ≠ 0 then
      strip count { coefficient := d.coefficient / 10, exponent := d.exponent + 1 }
    else d

end Decimal

namespace Binary64

/-! ## The interval -/

/-- The gap between a double of this magnitude and the next smaller one: at a power of two it is
half the gap above. -/
def spacingBelow (units : Nat) : Nat :=
  if units = twoPow 52 * spacing units then max 1 (spacing units / 2) else spacing units

/-- Whether `num / den` units lie in the rounding interval of a double, all counted in quarters of a
unit. -/
def readsBack (units num den : Nat) : Bool :=
  let lower := (4 * units - 2 * spacingBelow units) * den
  let upper := (4 * units + 2 * spacing units) * den
  if (units / spacing units) % 2 = 0 then lower ≤ 4 * num && 4 * num ≤ upper
  else lower < 4 * num && 4 * num < upper

/-! ## Selection -/

/-- The power of ten just above the double: the least `k` with `units * 2^-1074 < 10^k`. The factor
`10^400` moves every double above one, where counting the digits of the whole part finds it. -/
def scale (units : Nat) : Int := (digitCount (units * tenPow 400 / one) : Int) - 400

/-- The better of the double's two neighbours among the multiples of `10^exponent`, if one reads
back: the nearer one, and of two equally near the even one. -/
def onGrid (units : Nat) (exponent : Int) : Option Decimal :=
  let step := one * tenPow exponent.toNat
  let den := tenPow (-exponent).toNat
  let below := units * den / step
  let twice := 2 * (units * den)
  let middle := (2 * below + 1) * step
  let hit (c : Nat) : Bool := readsBack units (c * step) den
  let preferBelow := twice < middle || (twice == middle && below % 2 == 0)
  match hit below, hit (below + 1) with
  | false, false => none
  | true, false => some { coefficient := below, exponent }
  | false, true => some { coefficient := below + 1, exponent }
  | true, true => some { coefficient := if preferBelow then below else below + 1, exponent }

/-- The shortest decimal that reads back to a double of this magnitude, which is not zero. -/
def shortest (units : Nat) : Decimal :=
  let top := scale units
  let found := (List.range 17).findSome? fun n : Nat => onGrid units (top - (n + 1))
  let exact := { coefficient := units * tenPow unitExponent / one, exponent := -unitExponent }
  (found.getD exact).strip 17

end Binary64

end SchemaForge
