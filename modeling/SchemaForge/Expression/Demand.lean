import SchemaForge.Dialect

/-!
# `SchemaForge.Expression.Demand` — demands on texts and numbers

A demand is a bound or a pattern, with its argument already written. The dialects that build schemas
by calling functions attach demands in four ways: as calls chained to the base, as calls wrapped
around it, as further arguments of a pipe, or as fields of an options object.

## Contents
- **Demands.** `Demand` and its name in each dialect.
- **Attaching.** `chained`, `wrapped`, `piped`, `options`.
-/

namespace SchemaForge

/-- What is demanded. -/
inductive Demand where
  | minLength
  | maxLength
  | pattern
  | minimum
  | maximum
deriving DecidableEq, Repr

/-- A demand with its argument. -/
abbrev Demands := List (Demand × String)

namespace Demand

/-- The name of a method or function of Zod and Zod Mini. Lengths and magnitudes share theirs. -/
def zodName : Demand → String
  | minLength | minimum => "min"
  | maxLength | maximum => "max"
  | pattern => "regex"

/-- The name of an action of Valibot. -/
def valibotName : Demand → String
  | minLength => "minLength"
  | maxLength => "maxLength"
  | pattern => "regex"
  | minimum => "minValue"
  | maximum => "maxValue"

/-- The name of an option of TypeBox, which is the keyword of JSON Schema. -/
def keyword : Demand → String
  | minLength => "minLength"
  | maxLength => "maxLength"
  | pattern => "pattern"
  | minimum => "minimum"
  | maximum => "maximum"

end Demand

/-! ## Attaching -/

/-- A function call. -/
def call (function : String) (arguments : List String) : String :=
  function ++ "(" ++ ", ".intercalate arguments ++ ")"

/-- A list. -/
def bracketed (items : List String) : String := "[" ++ ", ".intercalate items ++ "]"

/-- The base with a method call for each demand behind it. -/
def chained (base : String) : Demands → String
  | [] => base
  | (demand, argument) :: rest => chained (base ++ call ("." ++ demand.zodName) [argument]) rest

/-- The base with a function call for each demand around it, the first one innermost. -/
def wrapped (base : String) : Demands → String
  | [] => base
  | (demand, argument) :: rest => wrapped (call ("z." ++ demand.zodName) [base, argument]) rest

/-- A pipe from the base through an action for each demand. Without demands there is no pipe. -/
def piped (base : String) (demands : Demands) : String :=
  match demands with
  | [] => base
  | _ => call "v.pipe" (base :: demands.map fun d => call ("v." ++ d.1.valibotName) [d.2])

/-- An options object with a field for each demand. Without demands there is no object. -/
def options (demands : Demands) : List String :=
  match demands with
  | [] => []
  | _ => ["\x7b " ++ ", ".intercalate (demands.map fun d => d.1.keyword ++ ": " ++ d.2) ++ " \x7d"]

end SchemaForge
