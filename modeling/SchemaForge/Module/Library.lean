import SchemaForge.Dialect

/-!
# `SchemaForge.Module.Library` — what modules take from a dialect's package

Generated modules import a dialect's builders, the shared type helper imports its types, and code
that lists the attributes of a schema looks into its schema objects.

## Contents
- **Imports.** `builderImport`, `typesImport`, `helperImports`.
- **Types.** `schemaType`, `inferredType`.
- **Attributes.** `observedAttributes`, the code of the function that lists a schema's attributes.
-/

namespace SchemaForge.Dialect

/-! ## Imports -/

/-- The import of the dialect's builders. -/
def builderImport : Dialect → String
  | zod => "import \x7b z \x7d from \"zod\";"
  | zodMini => "import * as z from \"zod/mini\";"
  | valibot => "import * as v from \"valibot\";"
  | arkType => "import \x7b type \x7d from \"arktype\";"
  | typeBox => "import \x7b Type \x7d from \"@sinclair/typebox\";"

/-- The import of the types that the shared type helper is made of. -/
def typesImport : Dialect → String
  | zod | zodMini => "import \x7b z \x7d from \"zod\";"
  | valibot => "import \x7b type BaseSchema, type InferOutput \x7d from \"valibot\";"
  | arkType => "import \x7b type Type \x7d from \"arktype\";"
  | typeBox => "import \x7b type Static, type TSchema \x7d from \"@sinclair/typebox\";"

/-- The imports that the code of `observedAttributes` needs. -/
def helperImports : Dialect → String
  | zod | zodMini => "import \x7b z \x7d from \"zod\";"
  | valibot | arkType | typeBox => ""

/-! ## Types -/

/-- The type of the dialect's schemas. -/
def schemaType : Dialect → String
  | zod | zodMini => "z.ZodType"
  | valibot => "BaseSchema"
  | arkType => "Type"
  | typeBox => "TSchema"

/-- The type of the values that a schema of type `T` accepts. -/
def inferredType : Dialect → String
  | zod | zodMini => "z.infer<T>"
  | valibot => "InferOutput<T>"
  | arkType => "T[\"infer\"]"
  | typeBox => "Static<T>"

/-! ## Attributes -/

/-- The lines that look for the properties of a schema object. -/
def observedLines : Dialect → List String
  | zod | zodMini =>
    ["  if (schema instanceof z.ZodObject) \x7b",
     "    return Object.keys(schema.shape);"]
  | valibot =>
    ["  // Valibot ObjectSchema has 'entries' property",
     "  if (\"entries\" in schema && typeof schema.entries === \"object\") \x7b",
     "    return Object.keys(schema.entries);"]
  | arkType =>
    ["  if (\"properties\" in schema) \x7b",
     "    return Object.keys(schema.properties);"]
  | typeBox =>
    ["  // TypeBox / JSON Schema has 'properties'",
     "  if (\"properties\" in schema && typeof schema.properties === \"object\") \x7b",
     "    return Object.keys(schema.properties);"]

/-- The code of the function that lists a schema's attributes. -/
def observedAttributes (d : Dialect) : String :=
  "\n".intercalate <|
    ["export const getObservedAttributes = (schema: BehaviorSchema): string[] => \x7b",
     "  if (!schema) return [];"] ++ d.observedLines ++
    ["  \x7d",
     "  return [];",
     "\x7d;"]

end SchemaForge.Dialect
