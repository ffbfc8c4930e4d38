import SchemaForge.Shape.Basic

/-!
# `SchemaForge.Shape.Equality` — when two shapes are the same

Two shapes are the same when they are of one kind and agree part by part: lists item by item, and
the values in them as JSON values agree. The order of properties matters, that of the keys of a
default does not.

## Contents
- **Equality.** `agrees`, `agreesAll`, `agreesEach`.
-/

namespace SchemaForge.Shape

mutual

/-- Whether two shapes are the same. -/
def agrees : Shape → Shape → Bool
  | .string minLength maxLength pattern, .string minLength' maxLength' pattern' =>
    minLength.agrees minLength' && maxLength.agrees maxLength' && pattern.agrees pattern'
  | .number minimum maximum, .number minimum' maximum' =>
    minimum.agrees minimum' && maximum.agrees maximum'
  | .boolean, .boolean => true
  | .literal value, .literal value' => value.agrees value'
  | .object properties, .object properties' => agreesEach properties properties'
  | .array items, .array items' => agrees items items'
  | .union members, .union members' => agreesAll members members'
  | .optional inner default hasDefault, .optional inner' default' hasDefault' =>
    agrees inner inner' && default.agrees default' && hasDefault.agrees hasDefault'
  | .foreign value, .foreign value' => value.agrees value'
  | _, _ => false

/-- Whether two lists are the same member by member. -/
def agreesAll : List Shape → List Shape → Bool
  | [], [] => true
  | s :: rest, t :: rest' => agrees s t && agreesAll rest rest'
  | _, _ => false

/-- Whether two lists are the same property by property. -/
def agreesEach : List (String × Shape) → List (String × Shape) → Bool
  | [], [] => true
  | (name, s) :: rest, (name', t) :: rest' => name == name' && agrees s t && agreesEach rest rest'
  | _, _ => false

end

end SchemaForge.Shape
