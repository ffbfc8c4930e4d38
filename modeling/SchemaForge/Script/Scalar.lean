import SchemaForge.Script.Quote
import SchemaForge.Unsupported

/-!
# `SchemaForge.Script.Scalar` — numbers and other literals of a script

A double that is a whole number below `10^16` in magnitude is written as that number, any other one
by its shortest digits. There is no literal for infinity or for what is no number.

## Contents
- **Numbers.** `double`, `number`.
- **Literals.** `literal` writes the values that a schema may name as constants.
-/

namespace SchemaForge.Script

/-- Whole doubles are written as integers below this magnitude. -/
def wholeLimit : Nat := tenPow 16

/-- A double as a numeric literal. -/
def double (x : Binary64) : Except Construct String :=
  match x with
  | .finite .. =>
    match x.whole? with
    | some n => .ok (if n.natAbs < wholeLimit then String.ofList (Json.intText n) else x.text)
    | none => .ok x.text
  | .nan | .infinity _ => .error (.nonFinite x)

/-- A bound as a numeric literal. A bound that is not a double is shown as it is. -/
def number (value : Json) : Except Construct String :=
  match value with
  | .float x => double x
  | other => .ok other.display

/-- A constant as a literal. -/
def literal (value : Json) : Except Construct String :=
  match value with
  | .bool b => .ok (if b then "true" else "false")
  | .int _ | .float _ => number value
  | .str text => .ok (singleQuoted text)
  | .null | .arr _ | .obj _ => .error (.literalValue value)

end SchemaForge.Script
