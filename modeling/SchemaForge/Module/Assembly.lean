import SchemaForge.Expression.Render
import SchemaForge.Module.Library
import SchemaForge.Shape.OfSchema

/-!
# `SchemaForge.Module.Assembly` — the module that exports a schema

A module imports the dialect's builders and the shared type helper, and after a blank line exports
the schema and the type of its values. A schema that its author wrote for TypeBox by hand is the
TypeBox module: that text is passed on as it is.

## Contents
- **Parts.** `header`, `body`.
- **Modules.** `ofShape` makes the module of a shape, `ofSchema` that of a JSON Schema;
  `isPassedOn` says when the author's text takes their place.
-/

namespace SchemaForge.Module

/-! ## Parts -/

/-- The imports of a module. The name of the types module is shown as it stands. -/
def header (d : Dialect) (settings : Settings) : String :=
  d.builderImport ++ "\n" ++
    "import \x7b type InferSchema \x7d from \"" ++ settings.typesModule.display ++ "\";\n"

/-- The exports of a module around the expression of its schema. -/
def body (expression : String) : String :=
  "export const schema = " ++ expression ++ ";\nexport type Schema = InferSchema<typeof schema>;\n"

/-! ## Modules -/

/-- Whether the author's text is the module. -/
def isPassedOn (d : Dialect) (source? : Option String) : Bool :=
  d = .typeBox && source?.isSome

/-- The module around a shape, which has to be an object. -/
def around (d : Dialect) (settings : Settings) (shape : Shape) : Emission String :=
  match shape with
  | .object properties => do
    let expression ← Expression.renderRoot d settings.indentation properties
    return header d settings ++ "\n" ++ body expression
  | other => .refuse d (.root other.kindName) .root

/-- The module of a shape. -/
def ofShape (d : Dialect) (settings : Settings) (source? : Option String) (shape : Shape) :
    Emission String :=
  match d, source? with
  | .typeBox, some source => pure source
  | _, _ => around d settings shape

/-- Without a text by the author, the module is made. -/
theorem ofShape_none (d : Dialect) (settings : Settings) (shape : Shape) :
    ofShape d settings none shape = around d settings shape := by
  cases d <;> rfl

/-- Why there is no module. -/
inductive Failure where
  /-- The schema cannot be read. -/
  | read (error : Shape.ReadError)
  /-- The shape cannot be written. -/
  | render (error : RenderError)

/-- A module or why there is none, with the warnings. -/
structure Result where
  /-- The warnings, in order. -/
  warnings : List Warning
  /-- The text of the module. -/
  outcome : Except Failure String

/-- The module of a JSON Schema. The schema is read even if the author's text is passed on. -/
def ofSchema (d : Dialect) (settings : Settings) (source? : Option String) (schema : Json) :
    Result :=
  match Shape.ofSchema schema with
  | .error e => { warnings := [], outcome := .error (.read e) }
  | .ok shape =>
    let emission := ofShape d settings source? shape
    { warnings := emission.warnings, outcome := emission.outcome.mapError .render }

end SchemaForge.Module
