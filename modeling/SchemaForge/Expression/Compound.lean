import SchemaForge.Expression.Scalar
import SchemaForge.Shape.Enumeration

/-!
# `SchemaForge.Expression.Compound` — objects, lists, unions and optional properties in each dialect

These expressions are made of the expressions of their parts. ArkType looks at the parts: as long as
all of them are definitions, what they make up is a definition too.

## Contents
- **Definitions.** `listDefinition` and `alternatives` extend definitions, or fall back to operators
  between expressions.
- **Expressions.** `objectType`, `listType`, `unionType`, `enumerationType`.
- **Properties.** `Entry`, `optionalEntry`.
-/

namespace SchemaForge.Expression

/-! ## Definitions -/

/-- A list of items in ArkType. A union is parenthesised, so that the whole of it is repeated. -/
def listDefinition (isUnion : Bool) (item : String) : String :=
  match Script.definition? item with
  | some definition =>
    Script.doubleQuoted ((if isUnion then "(" ++ definition ++ ")" else definition) ++ "[]")
  | none => "(" ++ item ++ ")[]"

/-- Alternatives in ArkType. -/
def alternatives (members : List String) : String :=
  match members.mapM Script.definition? with
  | some definitions => Script.doubleQuoted (" | ".intercalate definitions)
  | none => " | ".intercalate members

/-! ## Expressions -/

/-- An object with the given map of properties. -/
def objectType (d : Dialect) (map : String) : String :=
  match d with
  | .zod | .zodMini => call "z.object" [map]
  | .valibot => call "v.object" [map]
  | .typeBox => call "Type.Object" [map]
  | .arkType => call "type" [map]

/-- A list of such items. -/
def listType (d : Dialect) (isUnion : Bool) (item : String) : String :=
  match d with
  | .zod | .zodMini => call "z.array" [item]
  | .valibot => call "v.array" [item]
  | .typeBox => call "Type.Array" [item]
  | .arkType => listDefinition isUnion item

/-- Any of the members. -/
def unionType (d : Dialect) (members : List String) : String :=
  match d with
  | .zod | .zodMini => call "z.union" [bracketed members]
  | .valibot => call "v.union" [bracketed members]
  | .typeBox => call "Type.Union" [bracketed members]
  | .arkType => alternatives members

/-- Any of the literals, which are of one kind. Zod has a set of texts and a set of anything,
Valibot one of texts and numbers; where there is none, the literals make a union. -/
def enumerationType (d : Dialect) (kind : LiteralKind) (literals : List String) : String :=
  match d, kind with
  | .zod, .string | .zodMini, .string => call "z.enum" [bracketed literals]
  | .zod, _ | .zodMini, _ => call "z.literal" [bracketed literals]
  | .valibot, .boolean => unionType d (literals.map (literalType d))
  | .valibot, _ => call "v.picklist" [bracketed literals]
  | .typeBox, _ | .arkType, _ => unionType d (literals.map (literalType d))

/-! ## Properties -/

/-- A property in a map: its key and the expression of its value. -/
structure Entry where
  /-- The key, before it is quoted. -/
  key : String
  /-- The expression. -/
  code : String

/-- An optional property whose value is given without the default. ArkType marks the key, and leaves
the default out; TypeBox adds the default to the options of the value. -/
def optionalEntry (d : Dialect) (name code : String) (default? : Option Default) (path : Path) :
    Emission Entry :=
  match d, default? with
  | .zod, none => pure { key := name, code := code ++ ".optional()" }
  | .zod, some default => pure { key := name, code := code ++ call ".default" [default.write] }
  | .zodMini, none => pure { key := name, code := call "z.optional" [code] }
  | .zodMini, some default => pure { key := name, code := call "z._default" [code, default.write] }
  | .valibot, none => pure { key := name, code := call "v.optional" [code] }
  | .valibot, some default => pure { key := name, code := call "v.optional" [code, default.write] }
  | .typeBox, none => pure { key := name, code := call "Type.Optional" [code] }
  | .typeBox, some default =>
    let extended := "\x7b ..." ++ code ++ ", default: " ++ default.write ++ " \x7d"
    pure { key := name, code := call "Type.Optional" [extended] }
  | .arkType, none => pure { key := name ++ "?", code }
  | .arkType, some default => do
    .warn (.droppedDefault default path)
    return { key := name ++ "?", code }

end SchemaForge.Expression
