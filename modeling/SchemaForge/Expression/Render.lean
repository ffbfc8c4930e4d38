import SchemaForge.Expression.Compound
import SchemaForge.Settings

/-!
# `SchemaForge.Expression.Render` — a shape as an expression

The expression of a shape is made of the expressions of its parts, which are written from left to
right. Every property of an object stands on a line of its own, one level deeper than the object.

## Contents
- **Layout.** `Indentation.before?` indents a line, `layout` puts the lines of a map between braces.
- **Rendering.** `render`, with `renderMembers` for unions and `renderLines` for objects, recurses
  on the shape; `renderLines_cons` takes the lines of an object apart into those of `renderLine`,
  which `renderLine_of_not_isOptional` and `renderLine_optional` trace back to `render`.
- **Roots.** `renderRoot`: ArkType's root is a bare map of properties.
-/

namespace SchemaForge

/-! ## Layout -/

/-- A text, so many times. -/
def repeated (text : String) : Nat → String
  | 0 => ""
  | count + 1 => repeated text count ++ text

/-- The indentation in front of a property at some depth. What cannot be repeated is found out
here. -/
def Indentation.before? (i : Indentation) (depth : Nat) : Option String :=
  match i with
  | .unit text => some (repeated text depth)
  | .unjoinable => some ""
  | .unrepeatable => none

/-- The indentation in front of a closing brace. Only a text gets this far. -/
def Indentation.close? (i : Indentation) (depth : Nat) : Option String :=
  match i with
  | .unit text => some (repeated text depth)
  | .unjoinable | .unrepeatable => none

namespace Expression

/-- The line of a property at some depth. -/
def line (i : Indentation) (depth : Nat) (entry : Entry) : Emission String :=
  match i.before? depth with
  | some indent => pure (indent ++ Script.doubleQuoted entry.key ++ ": " ++ entry.code)
  | none => .fail .indentNotText

/-- A map with the given lines, at some depth. -/
def layout (i : Indentation) (depth : Nat) (lines : List String) : Emission String :=
  match lines with
  | [] => pure "\x7b\x7d"
  | _ => match i.close? depth with
    | some indent => pure ("\x7b\n" ++ ",\n".intercalate lines ++ "\n" ++ indent ++ "\x7d")
    | none => .fail .indentNotText

/-! ## Rendering -/

variable (d : Dialect) (i : Indentation)

mutual

/-- The expression of a shape. -/
def render : Shape → Path → Nat → Emission String
  | .string minLength maxLength pattern, path, _ => textType d minLength maxLength pattern path
  | .number minimum maximum, path, _ => numberType d minimum maximum path
  | .boolean, _, _ => pure (booleanType d)
  | .literal value, path, _ => do
    return literalType d (← .orRefuse d path (Script.literal value))
  | .object properties, path, depth => do
    return objectType d (← layout i depth (← renderLines properties path depth))
  | .array items, path, depth => do
    return listType d items.isUnion (← render items (path.child "items") depth)
  | .union members, path, depth =>
    match Shape.enumeration? members with
    | some (kind, values) => do
      return enumerationType d kind (← .orRefuse d path (values.mapM Script.literal))
    | none => do
      return unionType d (← renderMembers members path depth 0)
  | .optional .., path, _ => .refuse d .strayOptional path
  | .foreign value, path, _ => .refuse d (.node value.kindName) path

/-- The expressions of the members of a union, from the given number on. -/
def renderMembers : List Shape → Path → Nat → Nat → Emission (List String)
  | [], _, _, _ => pure []
  | member :: rest, path, depth, index => do
    let code ← render member (path.element "anyOf" index) depth
    return code :: (← renderMembers rest path depth (index + 1))

/-- The lines of the properties of an object at some depth. A property may be optional once. -/
def renderLines : List (String × Shape) → Path → Nat → Emission (List String)
  | [], _, _ => pure []
  | (name, .optional (.optional ..) _ _) :: _, path, _ =>
    .refuse d .nestedOptional (path.child name)
  | (name, .optional inner default hasDefault) :: rest, path, depth => do
    let code ← render inner (path.child name) (depth + 1)
    let entry ← optionalEntry d name code (if hasDefault.isVacant then none else some default)
      (path.child name)
    let first ← line i (depth + 1) entry
    return first :: (← renderLines rest path depth)
  | (name, shape) :: rest, path, depth => do
    let code ← render shape (path.child name) (depth + 1)
    let first ← line i (depth + 1) { key := name, code }
    return first :: (← renderLines rest path depth)

end

/-- The line of one property of an object at some depth. -/
def renderLine (name : String) (shape : Shape) (path : Path) (depth : Nat) : Emission String :=
  match shape with
  | .optional (.optional ..) _ _ => .refuse d .nestedOptional (path.child name)
  | .optional inner default hasDefault => do
    let code ← render d i inner (path.child name) (depth + 1)
    let entry ← optionalEntry d name code (if hasDefault.isVacant then none else some default)
      (path.child name)
    line i (depth + 1) entry
  | shape => do
    let code ← render d i shape (path.child name) (depth + 1)
    line i (depth + 1) { key := name, code }

/-- Lines are written one after another. -/
theorem renderLines_cons (name : String) (shape : Shape) (rest : List (String × Shape))
    (path : Path) (depth : Nat) :
    renderLines d i ((name, shape) :: rest) path depth = do
      let first ← renderLine d i name shape path depth
      return first :: (← renderLines d i rest path depth) := by
  cases shape with
  | optional inner default hasDefault =>
    cases inner with
    | optional => rfl
    | _ => simp only [renderLines, renderLine, bind_assoc]
  | _ => simp only [renderLines, renderLine, bind_assoc]

/-- The line of a property that is not optional is the line of its value. -/
theorem renderLine_of_not_isOptional {d : Dialect} {i : Indentation} {shape : Shape}
    (hshape : ¬ shape.IsOptional) (name : String) (path : Path) (depth : Nat) :
    renderLine d i name shape path depth
      = (render d i shape (path.child name) (depth + 1) >>= fun code =>
          line i (depth + 1) { key := name, code }) := by
  cases shape with
  | optional => exact absurd trivial hshape
  | _ => rfl

/-- The line of an optional property whose value is not optional once more. -/
theorem renderLine_optional {d : Dialect} {i : Indentation} {inner : Shape}
    (hinner : ¬ inner.IsOptional) (default : Default) (hasDefault : Json) (name : String)
    (path : Path) (depth : Nat) :
    renderLine d i name (.optional inner default hasDefault) path depth
      = (render d i inner (path.child name) (depth + 1) >>= fun code =>
          optionalEntry d name code (if hasDefault.isVacant then none else some default)
              (path.child name) >>= fun entry =>
            line i (depth + 1) entry) := by
  cases inner with
  | optional => exact absurd trivial hinner
  | _ => rfl

/-- The map of the properties of an object, at some depth. -/
def renderMap (properties : Fields Shape) (path : Path) (depth : Nat) : Emission String := do
  layout i depth (← renderLines d i properties path depth)

/-! ## Roots -/

/-- The expression of a shape by itself. -/
def renderShape (shape : Shape) : Emission String := render d i shape .root 0

/-- The expression of an object that is the root of a module. -/
def renderRoot (properties : Fields Shape) : Emission String :=
  match d with
  | .arkType => renderMap d i properties .root 0
  | .zod | .zodMini | .valibot | .typeBox => renderShape d i (.object properties)

end Expression

end SchemaForge
