import SchemaForge.Module.Library

/-!
# `SchemaForge.Module.Types` — the shared type helper

Every generated module names the type of its schema's values through one helper, which a project has
in a file of its own. The file depends on the dialect alone.

## Contents
- **The file.** `typesLines`, `typesFile`.
-/

namespace SchemaForge.Dialect

/-- The lines of the type helper's file. -/
def typesLines (d : Dialect) : List String :=
  ["import \x7b type StandardSchemaV1 \x7d from \"@standard-schema/spec\";",
   d.typesImport,
   "",
   "/**",
   " * Universal schema inference helper.",
   " */",
   "export type InferSchema<T> = T extends StandardSchemaV1",
   "  ? StandardSchemaV1.InferOutput<T>",
   "  : T extends " ++ d.schemaType,
   "    ? " ++ d.inferredType,
   "    : unknown;",
   "",
   "export type BehaviorSchema = StandardSchemaV1 | " ++ d.schemaType ++ " | object;"]

/-- The text of the type helper's file. Every line is ended. -/
def typesFile (d : Dialect) : String := String.join (d.typesLines.map (· ++ "\n"))

end SchemaForge.Dialect
