import SchemaForge.Number.Shortest

/-!
# `SchemaForge.Number.Notation` — the text of a double

A double is written with the fewest digits that identify it. It is written positionally, with at
least one digit on either side of the point, when its leading digit stands between the
ten-thousandth and the `10^15`; otherwise with one digit before the point and a signed exponent of
at least two digits.

## Contents
- **Decimals.** `Decimal.text` lays the selected digits out.
- **Doubles.** `Binary64.text`, with `nan`, `inf` and a signed zero.
-/

namespace SchemaForge

namespace Decimal

/-- A run of zeros. -/
def zeros (count : Nat) : List Char := List.replicate count '0'

/-- The sign and at least two digits of an exponent. -/
def exponentText (e : Int) : List Char :=
  let digits := Nat.toDigits 10 e.natAbs
  (if e < 0 then '-' else '+') :: (zeros (2 - digits.length) ++ digits)

/-- The digits of a decimal, laid out. -/
def text (d : Decimal) : List Char :=
  let digits := Nat.toDigits 10 d.coefficient
  let leading : Int := d.exponent + digits.length - 1
  if leading < -4 ∨ 16 ≤ leading then
    let fraction := if digits.length ≤ 1 then [] else '.' :: digits.drop 1
    digits.take 1 ++ fraction ++ 'e' :: exponentText leading
  else if leading < 0 then
    '0' :: '.' :: (zeros (-leading - 1).toNat ++ digits)
  else if 0 ≤ d.exponent then
    digits ++ zeros d.exponent.toNat ++ ['.', '0']
  else
    digits.take (leading + 1).toNat ++ '.' :: digits.drop (leading + 1).toNat

end Decimal

namespace Binary64

/-- The digits of a finite magnitude. -/
def magnitudeText (units : Nat) : List Char :=
  if units = 0 then ['0', '.', '0'] else (shortest units).text

/-- The text of a double. -/
def text : Binary64 → String
  | .nan => "nan"
  | .infinity negative => if negative then "-inf" else "inf"
  | .finite negative units =>
    String.ofList (if negative then '-' :: magnitudeText units else magnitudeText units)

example : text (ofDecimal false 1 16) = "1e+16" := by decide +kernel

example : text (ofDecimal true 5 (-324)) = "-5e-324" := by decide +kernel

end Binary64

end SchemaForge
