import SchemaForge.Dialect
import SchemaForge.Path

/-!
# `SchemaForge.Unsupported` — what cannot be read from a schema or written in a dialect

A refusal says what was found, where, and which dialect refused it; what a schema's reader refuses
no dialect has seen yet.

## Contents
- **Constructs.** `Construct` lists everything that is refused, `Construct.text` describes it.
- **Refusals.** `Unsupported`, `report`, `Unsupported.message`.
-/

namespace SchemaForge

/-! ## Constructs -/

/-- Something that is refused. -/
inductive Construct where
  /-- A schema that is not an object. -/
  | schemaValue (value : Json)
  /-- A reference to another schema. -/
  | reference (target : Json)
  /-- A constant that is neither a text nor a number nor a truth value. -/
  | literalValue (value : Json)
  /-- An enumeration without values. -/
  | emptyEnumeration
  /-- A choice without variants, under the given keyword. -/
  | emptyChoice (keyword : String)
  /-- A schema whose keys, here sorted, say nothing about a type. -/
  | untyped (keys : List String)
  /-- A type that is not known. -/
  | typeName (value : Json)
  /-- An array whose items are not described by one schema. -/
  | unspecifiedItems
  /-- A schema that describes something other than an object. -/
  | rootSchema
  /-- A module whose root, of the given kind, is not an object. -/
  | root (kind : String)
  /-- A bare value of the given kind in place of a shape. -/
  | node (kind : String)
  /-- An infinite number, or what is no number. -/
  | nonFinite (number : Binary64)
  /-- A pattern together with a length bound. -/
  | patternWithLength
  /-- An optional value that is not a property. -/
  | strayOptional
  /-- An optional value that is optional once more. -/
  | nestedOptional

/-- A description of what is refused. -/
def Construct.text : Construct → String
  | schemaValue value => "schema value " ++ value.inspect
  | reference target => "reference " ++ target.inspect
  | literalValue value => "literal value " ++ value.inspect
  | emptyEnumeration => "empty enum"
  | emptyChoice keyword => "empty " ++ keyword
  | untyped keys => "schema without a type: " ++ Json.inspectNames keys
  | typeName value => "type " ++ value.inspect
  | unspecifiedItems => "array without a single item schema"
  | rootSchema => "root schema that is not an object"
  | root kind => "root " ++ kind ++ " (expected an object)"
  | node kind => "node " ++ kind
  | nonFinite number => "non-finite number " ++ number.text
  | patternWithLength => "string pattern combined with a length constraint"
  | strayOptional => "optional value outside an object property"
  | nestedOptional => "optional wrapping another optional"

/-! ## Refusals -/

/-- The message about a construct found at a place. -/
def report (dialect : Option Dialect) (construct : Construct) (place : String) : String :=
  (match dialect with
    | some d => d.label ++ ": "
    | none => "") ++ "unsupported " ++ construct.text ++ " at " ++ place

/-- A construct that was refused. -/
structure Unsupported where
  /-- What was found. -/
  construct : Construct
  /-- Where it was found. -/
  path : Path
  /-- The dialect that refused it; the reader of schemas refuses for all of them. -/
  dialect : Option Dialect := none

/-- The message about a refusal. -/
def Unsupported.message (u : Unsupported) : String := report u.dialect u.construct u.path.text

end SchemaForge
