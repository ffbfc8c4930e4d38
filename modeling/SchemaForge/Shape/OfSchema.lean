import SchemaForge.Shape.Basic
import SchemaForge.Text.Search
import SchemaForge.Unsupported

/-!
# `SchemaForge.Shape.OfSchema` — reading a JSON Schema

A schema is an object, and the first of these keys that it has decides how it is read: `$ref` (which
is refused), `const`, `enum`, `anyOf`, `oneOf`, `type`, `properties`. A list of types is a choice
between schemas that differ in their type alone. A choice with one variant is that variant. A
property that is not required, or that has a default, is optional.

Every part is read before the next one, and the first refusal ends the reading.

## Contents
- **Failures.** `ReadError`.
- **Keys.** `choices?` takes a list of choices apart, `requires?` looks a name up under `required`.
- **Literals.** `readLiteral`, `readEnumeration`.
- **Schemas.** `readSchema` and the functions it is made of recurse on the schema.
- **Equations.** One for each key that decides how a schema is read, and one for each type.
- **Roots.** `ofSchema`.
-/

namespace SchemaForge.Shape

/-! ## Failures -/

/-- Why a schema cannot be read. -/
inductive ReadError where
  /-- A part of it is refused. -/
  | unsupported (refusal : Unsupported)
  /-- A part of it describes a shape that cannot be made. -/
  | shape (error : ShapeError)
  /-- The properties are no object. -/
  | propertiesNotObject
  /-- No name can be looked up in what is required. -/
  | requiredNotSearchable
  /-- The choices are no list, nor anything that could stand for one. -/
  | choicesNotList

/-- Refuses a construct. -/
def refuse {α : Type} (construct : Construct) (path : Path) : Except ReadError α :=
  .error (.unsupported { construct, path })

/-- The union of the members. -/
def readUnion (members : List Shape) : Except ReadError Shape :=
  (unionOf members).mapError .shape

/-- The object with the properties. -/
def readObject (properties : Fields Shape) : Except ReadError Shape :=
  (objectOf properties).mapError .shape

/-! ## Keys -/

/-- The value of a key, or `null`. -/
def keyword (key : String) (schema : Fields Json) : Json := (Fields.get? key schema).getD .null

/-- The choices in a list, in order. A text stands for the list of its characters and an object for
the list of its keys. -/
def choices? : Json → Option (List Json)
  | .arr items => some items
  | .str text => some (text.toList.map fun c => .str c.toString)
  | .obj members => some ((Fields.names members).map .str)
  | _ => none

/-- Whether a name is required. It is looked for among the items of a list, the keys of an object,
or as a part of a text. -/
def requires? (name : String) : Json → Option Bool
  | .arr items => some (items.any (Json.str name).agrees)
  | .obj members => some (Fields.has name members)
  | .str text => some (Text.occursIn name.toList text.toList)
  | _ => none

/-- Whether a property is optional: a default makes it so, and so does not being required. -/
def isOptional (name : String) (hasDefault : Bool) (required : Json) : Except ReadError Bool :=
  if hasDefault then .ok true
  else match requires? name required with
    | some isRequired => .ok !isRequired
    | none => .error .requiredNotSearchable

/-! ## Literals -/

/-- A literal is a text, a number or a truth value. -/
def readLiteral (value : Json) (path : Path) : Except ReadError Shape :=
  match value with
  | .str _ | .int _ | .float _ | .bool _ => .ok (.literal value)
  | .null | .arr _ | .obj _ => refuse (.literalValue value) path

/-- The literals of an enumeration, from the given number on. -/
def readLiterals (path : Path) : Nat → List Json → Except ReadError (List Shape)
  | _, [] => .ok []
  | index, value :: rest => do
    let first ← readLiteral value (path.element "enum" index)
    return first :: (← readLiterals path (index + 1) rest)

/-- The shape of an enumeration. -/
def readEnumeration (values : Json) (path : Path) : Except ReadError Shape :=
  match choices? values with
  | none => .error .choicesNotList
  | some values => do
    match ← readLiterals path 0 values with
    | [] => refuse .emptyEnumeration path
    | [only] => return only
    | members => readUnion members

/-! ## Schemas -/

/-- The type of a schema: a list of one type is that type. -/
def soleType : Json → Json
  | .arr [only] => only
  | type => type

/-- The keyword of a choice between schemas. -/
def choiceKeyword (schema : Fields Json) : String :=
  if Fields.has "anyOf" schema then "anyOf" else "oneOf"

theorem sizeOf_soleType_le (type : Json) : sizeOf (soleType type) ≤ sizeOf type := by
  unfold soleType
  split
  · simp; omega
  · exact Nat.le_refl _

mutual

/-- The shape that a schema describes. -/
def readSchema (schema : Json) (path : Path) : Except ReadError Shape :=
  match schema with
  | .obj keys =>
    match Fields.get? "$ref" keys with
    | some target => refuse (.reference target) path
    | none => match Fields.get? "const" keys with
    | some value => readLiteral value path
    | none => match Fields.get? "enum" keys with
    | some values => readEnumeration values path
    | none => match found : Fields.get? (choiceKeyword keys) keys with
    | some variants => readChoice variants (choiceKeyword keys) path
    | none => match found : Fields.get? "type" keys with
    | some type => readTyped keys type path
    | none =>
      if Fields.has "properties" keys then readProperties keys path
      else refuse (.untyped ((Fields.names keys).mergeSort)) path
  | other => refuse (.schemaValue other) path
termination_by (sizeOf schema, 0)
decreasing_by
  · apply Prod.Lex.left
    have := Fields.sizeOf_lt_of_get? found
    rw [Json.obj.sizeOf_spec]
    omega
  all_goals
    apply Prod.Lex.left
    rw [Json.obj.sizeOf_spec]
    omega

/-- The shape that a choice between schemas describes. No text is a schema, so of the choices that
are texts the first one is refused. -/
def readChoice (variants : Json) (keyword : String) (path : Path) : Except ReadError Shape :=
  match variants with
  | .arr variants => do
    match ← readVariants variants keyword path 0 with
    | [] => refuse (.emptyChoice keyword) path
    | [only] => return only
    | members => readUnion members
  | other => match choices? other with
    | none => .error .choicesNotList
    | some [] => refuse (.emptyChoice keyword) path
    | some (first :: _) => refuse (.schemaValue first) (path.element keyword 0)
termination_by (sizeOf variants, 1)

/-- The shapes of the variants of a choice, from the given number on. -/
def readVariants (variants : List Json) (keyword : String) (path : Path) (index : Nat) :
    Except ReadError (List Shape) :=
  match variants with
  | [] => .ok []
  | variant :: rest => do
    let first ← readSchema variant (path.element keyword index)
    return first :: (← readVariants rest keyword path (index + 1))
termination_by (sizeOf variants, 0)

/-- The shape that a schema describes when it has the given type. -/
def readTyped (keys : Fields Json) (type : Json) (path : Path) : Except ReadError Shape :=
  match _sole : soleType type with
  | .arr types => do readUnion (← readTypes keys types path)
  | .str "string" =>
    .ok (.string (keyword "minLength" keys) (keyword "maxLength" keys) (keyword "pattern" keys))
  | .str "number" => .ok (.number (keyword "minimum" keys) (keyword "maximum" keys))
  | .str "boolean" => .ok .boolean
  | .str "object" => readProperties keys path
  | .str "array" =>
    match _found : Fields.get? "items" keys with
    | some (.obj item) => return .array (← readSchema (.obj item) (path.child "items"))
    | _ => refuse .unspecifiedItems path
  | other => refuse (.typeName other) path
termination_by (sizeOf keys, sizeOf type + 1)
decreasing_by
  · apply Prod.Lex.right
    have := sizeOf_soleType_le type
    rw [_sole, Json.arr.sizeOf_spec] at this
    omega
  · apply Prod.Lex.right
    omega
  · apply Prod.Lex.left
    exact Fields.sizeOf_lt_of_get? _found

/-- The shapes that a schema describes when it has the given types in turn. -/
def readTypes (keys : Fields Json) (types : List Json) (path : Path) :
    Except ReadError (List Shape) :=
  match types with
  | [] => .ok []
  | type :: rest => do
    let first ← readTyped keys type ((path.child "type").child type.display)
    return first :: (← readTypes keys rest path)
termination_by (sizeOf keys, sizeOf types + 1)

/-- The object that a schema describes. -/
def readProperties (keys : Fields Json) (path : Path) : Except ReadError Shape :=
  match _found : Fields.get? "properties" keys with
  | none => readObject []
  | some (.obj properties) => do
    readObject (← readEach properties ((Fields.get? "required" keys).getD (.arr [])) path)
  | some _ => .error .propertiesNotObject
termination_by (sizeOf keys, 0)
decreasing_by
  apply Prod.Lex.left
  have := Fields.sizeOf_lt_of_get? _found
  rw [Json.obj.sizeOf_spec] at this
  omega

/-- The properties of an object: each one's schema is read, and then it is made optional. -/
def readEach (properties : Fields Json) (required : Json) (path : Path) :
    Except ReadError (Fields Shape) :=
  match properties with
  | [] => .ok []
  | (name, schema) :: rest => do
    let shape ← readSchema schema ((path.child "properties").child name)
    let default? := match schema with
      | .obj keys => Fields.get? "default" keys
      | _ => none
    let isOptional ← isOptional name default?.isSome required
    let shape :=
      if isOptional then .optional shape (.json (default?.getD .null)) (.bool default?.isSome)
      else shape
    return (name, shape) :: (← readEach rest required path)
termination_by (sizeOf properties, 0)

end

/-! ## Equations

Each says what a schema is read as once it is known which of its keys decides. -/

section

variable {keys : Fields Json} {type : Json} {path : Path}

theorem readSchema_ref {target : Json} (href : Fields.get? "$ref" keys = some target) :
    readSchema (.obj keys) path = refuse (.reference target) path := by
  rw [readSchema, href]

theorem readSchema_const {value : Json} (href : Fields.get? "$ref" keys = none)
    (hconst : Fields.get? "const" keys = some value) :
    readSchema (.obj keys) path = readLiteral value path := by
  rw [readSchema, href, hconst]

theorem readSchema_enum {values : Json} (href : Fields.get? "$ref" keys = none)
    (hconst : Fields.get? "const" keys = none) (henum : Fields.get? "enum" keys = some values) :
    readSchema (.obj keys) path = readEnumeration values path := by
  rw [readSchema, href, hconst, henum]

theorem readSchema_choice {variants : Json} (href : Fields.get? "$ref" keys = none)
    (hconst : Fields.get? "const" keys = none) (henum : Fields.get? "enum" keys = none)
    (hchoice : Fields.get? (choiceKeyword keys) keys = some variants) :
    readSchema (.obj keys) path = readChoice variants (choiceKeyword keys) path := by
  rw [readSchema, href, hconst, henum]
  dsimp only
  split
  · next h => rw [hchoice] at h; cases h; rfl
  · next h => rw [hchoice] at h; cases h

theorem readSchema_type (href : Fields.get? "$ref" keys = none)
    (hconst : Fields.get? "const" keys = none) (henum : Fields.get? "enum" keys = none)
    (hchoice : Fields.get? (choiceKeyword keys) keys = none)
    (htype : Fields.get? "type" keys = some type) :
    readSchema (.obj keys) path = readTyped keys type path := by
  rw [readSchema, href, hconst, henum]
  dsimp only
  split
  · next h => rw [hchoice] at h; cases h
  · split
    · next h => rw [htype] at h; cases h; rfl
    · next h => rw [htype] at h; cases h

theorem readSchema_untyped (href : Fields.get? "$ref" keys = none)
    (hconst : Fields.get? "const" keys = none) (henum : Fields.get? "enum" keys = none)
    (hchoice : Fields.get? (choiceKeyword keys) keys = none)
    (htype : Fields.get? "type" keys = none) :
    readSchema (.obj keys) path =
      if Fields.has "properties" keys then readProperties keys path
      else refuse (.untyped ((Fields.names keys).mergeSort)) path := by
  rw [readSchema, href, hconst, henum]
  dsimp only
  split
  · next h => rw [hchoice] at h; cases h
  · split
    · next h => rw [htype] at h; cases h
    · rfl

theorem readSchema_not_object {schema : Json} (hschema : ∀ keys, schema ≠ .obj keys) :
    readSchema schema path = refuse (.schemaValue schema) path := by
  cases schema with
  | obj keys => exact absurd rfl (hschema keys)
  | _ => rw [readSchema]; exact hschema

theorem readChoice_not_list {variants : Json} {keyword : String}
    (hvariants : ∀ items, variants ≠ .arr items) :
    readChoice variants keyword path = match choices? variants with
      | none => .error .choicesNotList
      | some [] => refuse (.emptyChoice keyword) path
      | some (first :: _) => refuse (.schemaValue first) (path.element keyword 0) := by
  rw [readChoice.eq_def]
  split
  · exact absurd rfl (hvariants _)
  · rfl

theorem readTyped_types {types : List Json} (htype : soleType type = .arr types) :
    readTyped keys type path = (do readUnion (← readTypes keys types path)) := by
  rw [readTyped]
  split <;> simp_all

theorem readTyped_string (htype : soleType type = .str "string") :
    readTyped keys type path = .ok
      (.string (keyword "minLength" keys) (keyword "maxLength" keys) (keyword "pattern" keys)) := by
  rw [readTyped]
  split <;> simp_all

theorem readTyped_number (htype : soleType type = .str "number") :
    readTyped keys type path = .ok
      (.number (keyword "minimum" keys) (keyword "maximum" keys)) := by
  rw [readTyped]
  split <;> simp_all

theorem readTyped_boolean (htype : soleType type = .str "boolean") :
    readTyped keys type path = .ok .boolean := by
  rw [readTyped]
  split <;> simp_all

theorem readTyped_object (htype : soleType type = .str "object") :
    readTyped keys type path = readProperties keys path := by
  rw [readTyped]
  split <;> simp_all

theorem readTyped_array {item : Fields Json} (htype : soleType type = .str "array")
    (hitems : Fields.get? "items" keys = some (.obj item)) :
    readTyped keys type path =
      (do return .array (← readSchema (.obj item) (path.child "items"))) := by
  rw [readTyped]
  split <;> simp_all
  split <;> simp_all

theorem readTyped_unspecifiedItems (htype : soleType type = .str "array")
    (hitems : ∀ item, Fields.get? "items" keys ≠ some (.obj item)) :
    readTyped keys type path = refuse .unspecifiedItems path := by
  rw [readTyped]
  split <;> simp_all

theorem readTyped_unknown (htypes : ∀ types, soleType type ≠ .arr types)
    (hstring : soleType type ≠ .str "string") (hnumber : soleType type ≠ .str "number")
    (hboolean : soleType type ≠ .str "boolean") (hobject : soleType type ≠ .str "object")
    (harray : soleType type ≠ .str "array") :
    readTyped keys type path = refuse (.typeName (soleType type)) path := by
  rw [readTyped]
  split <;> simp_all

theorem readProperties_absent (hproperties : Fields.get? "properties" keys = none) :
    readProperties keys path = readObject [] := by
  rw [readProperties]
  split <;> simp_all

theorem readProperties_present {properties : Fields Json}
    (hproperties : Fields.get? "properties" keys = some (.obj properties)) :
    readProperties keys path = (do
      readObject (← readEach properties ((Fields.get? "required" keys).getD (.arr [])) path)) := by
  rw [readProperties]
  split <;> simp_all

theorem readProperties_malformed {value : Json}
    (hproperties : Fields.get? "properties" keys = some value)
    (hvalue : ∀ properties, value ≠ .obj properties) :
    readProperties keys path = .error .propertiesNotObject := by
  rw [readProperties]
  split
  · next h => rw [hproperties] at h; cases h
  · next h => rw [hproperties] at h; cases h; exact absurd rfl (hvalue _)
  · rfl

end

/-! ## Roots -/

/-- The object that a schema describes: at the root nothing else will do. -/
def ofSchema (schema : Json) : Except ReadError Shape := do
  match ← readSchema schema .root with
  | .object properties => return .object properties
  | _ => refuse .rootSchema .root

end SchemaForge.Shape
