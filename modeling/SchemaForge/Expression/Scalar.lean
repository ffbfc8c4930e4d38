import SchemaForge.Expression.Demand
import SchemaForge.Expression.Emission
import SchemaForge.Json.Writer
import SchemaForge.Script.Definition
import SchemaForge.Script.Regex
import SchemaForge.Script.Scalar

/-!
# `SchemaForge.Expression.Scalar` — texts, numbers, truth values and literals in each dialect

Four dialects call a function for the base and attach the demands; ArkType writes a definition, in
which lengths and lower bounds are comparisons. ArkType has no comparison together with a pattern
and none for an upper bound on a number: the one is refused, the other is left out with a warning.

## Contents
- **Arguments.** `lengthDemands`, `patternLiteral`, `textDemands`, `numberDemands`.
- **Definitions.** `textDefinition`, `numberDefinition`.
- **Expressions.** `textType`, `numberType`, `booleanType`, `literalType`.
-/

namespace SchemaForge.Expression

/-! ## Arguments -/

/-- The demands on a text's length. A bound is shown as it was given. -/
def lengthDemands (minLength maxLength : Json) : Demands :=
  (if minLength.isNull then [] else [(.minLength, minLength.display)]) ++
    (if maxLength.isNull then [] else [(.maxLength, maxLength.display)])

/-- A pattern as a regular expression literal. -/
def patternLiteral : Json → Emission String
  | .str pattern => pure (Script.regexLiteral pattern)
  | _ => .fail .patternNotText

/-- The demands on a text. A pattern that says nothing is no demand. TypeBox takes patterns as JSON
values, the others as regular expressions. -/
def textDemands (d : Dialect) (minLength maxLength pattern : Json) : Emission Demands :=
  if pattern.isVacant then pure (lengthDemands minLength maxLength)
  else do
    let argument ← if d = .typeBox then pure pattern.write else patternLiteral pattern
    return lengthDemands minLength maxLength ++ [(.pattern, argument)]

/-- A bound on a number, unless it is null. -/
def boundDemand (d : Dialect) (demand : Demand) (bound : Json) (path : Path) : Emission Demands :=
  if bound.isNull then pure []
  else do return [(demand, ← .orRefuse d path (Script.number bound))]

/-- The demands on a number. -/
def numberDemands (d : Dialect) (minimum maximum : Json) (path : Path) : Emission Demands := do
  let lower ← boundDemand d .minimum minimum path
  let upper ← boundDemand d .maximum maximum path
  return lower ++ upper

/-! ## Definitions -/

/-- The definition of a text with bounds on its length. -/
def textDefinition (minLength maxLength : Json) : String :=
  match minLength.isNull, maxLength.isNull with
  | true, true => "string"
  | false, true => "string >= " ++ minLength.display
  | true, false => "string <= " ++ maxLength.display
  | false, false => minLength.display ++ " <= string <= " ++ maxLength.display

/-- A text in ArkType. -/
def arkTypeText (minLength maxLength pattern : Json) (path : Path) : Emission String :=
  if pattern.isVacant then pure (Script.doubleQuoted (textDefinition minLength maxLength))
  else if minLength.isNull && maxLength.isNull then patternLiteral pattern
  else .refuse .arkType .patternWithLength path

/-- A number in ArkType. -/
def arkTypeNumber (minimum maximum : Json) (path : Path) : Emission String := do
  if !maximum.isNull then .warn (.droppedMaximum maximum path)
  if minimum.isNull then return Script.doubleQuoted "number"
  else
    let bound ← .orRefuse .arkType path (Script.number minimum)
    return Script.doubleQuoted ("number >= " ++ bound)

/-! ## Expressions -/

/-- A text. -/
def textType (d : Dialect) (minLength maxLength pattern : Json) (path : Path) : Emission String :=
  match d with
  | .zod => return chained "z.string()" (← textDemands d minLength maxLength pattern)
  | .zodMini => return wrapped "z.string()" (← textDemands d minLength maxLength pattern)
  | .valibot => return piped "v.string()" (← textDemands d minLength maxLength pattern)
  | .typeBox => return call "Type.String" (options (← textDemands d minLength maxLength pattern))
  | .arkType => arkTypeText minLength maxLength pattern path

/-- A number. -/
def numberType (d : Dialect) (minimum maximum : Json) (path : Path) : Emission String :=
  match d with
  | .zod => return chained "z.number()" (← numberDemands d minimum maximum path)
  | .zodMini => return wrapped "z.number()" (← numberDemands d minimum maximum path)
  | .valibot => return piped "v.number()" (← numberDemands d minimum maximum path)
  | .typeBox => return call "Type.Number" (options (← numberDemands d minimum maximum path))
  | .arkType => arkTypeNumber minimum maximum path

/-- A truth value. -/
def booleanType : Dialect → String
  | .zod | .zodMini => "z.boolean()"
  | .valibot => "v.boolean()"
  | .typeBox => "Type.Boolean()"
  | .arkType => Script.doubleQuoted "boolean"

/-- A literal, of which the text is given. -/
def literalType (d : Dialect) (literal : String) : String :=
  match d with
  | .zod | .zodMini => call "z.literal" [literal]
  | .valibot => call "v.literal" [literal]
  | .typeBox => call "Type.Literal" [literal]
  | .arkType => Script.doubleQuoted literal

end SchemaForge.Expression
