import SchemaForge.Json.Basic

/-!
# `SchemaForge.Settings` — what a user may set about generated modules

Settings come from a configuration object and are kept as they were given, whatever their kind. The
types module is shown as it stands; the indentation must be a text, and `Indentation` says when one
that is not a text is found out.

## Contents
- **Settings.** `Settings`, `ofJson?`, `toJson`.
- **Indenting.** `Indentation`, `Settings.indentation`.
-/

namespace SchemaForge

/-- What a user may set. -/
structure Settings where
  /-- The module from which the shared type helper is imported. -/
  typesModule : Json := .str "~types"
  /-- The unit by which property maps are indented. -/
  indent : Json := .str "  "

namespace Settings

/-- The settings in a configuration object: a key that is not there keeps its default, and other
keys are not looked at. Only an object is a configuration. -/
def ofJson? : Json → Option Settings
  | .obj members =>
    let standard : Settings := {}
    some { typesModule := (Fields.get? "types_module" members).getD standard.typesModule
           indent := (Fields.get? "indent" members).getD standard.indent }
  | _ => none

/-- The settings as a configuration object. -/
def toJson (s : Settings) : Json :=
  .obj [("types_module", s.typesModule), ("indent", s.indent)]

/-- A configuration object is read back as it was. -/
theorem ofJson?_toJson (s : Settings) : ofJson? s.toJson = some s := rfl

end Settings

/-! ## Indenting -/

/-- What can be done with an indentation unit: it is repeated in front of a line, and the repeated
unit is joined to the rest of the line. -/
inductive Indentation where
  /-- A text can be repeated and joined. -/
  | unit (text : String)
  /-- A number, a truth value or a list can be repeated, but what comes of it cannot be joined to
  the closing bracket of a map. -/
  | unjoinable
  /-- Null or an object cannot even be repeated. -/
  | unrepeatable

/-- What can be done with the indentation that is set. -/
def Settings.indentation (s : Settings) : Indentation :=
  match s.indent with
  | .str text => .unit text
  | .null | .obj _ => .unrepeatable
  | .bool _ | .int _ | .float _ | .arr _ => .unjoinable

theorem Settings.indentation_of_str {s : Settings} {unit : String} (h : s.indent = .str unit) :
    s.indentation = .unit unit := by
  rw [indentation, h]

end SchemaForge
