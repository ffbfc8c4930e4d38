import SchemaForge.Proofs.Json.Writing
import SchemaForge.Proofs.Shape.Parts
import SchemaForge.Shape.Enumeration

/-!
# `SchemaForge.Proofs.Shape.Texts` — shapes up to the texts in them

The names of properties, the texts among the literals and the texts in defaults come from whoever
writes a schema, and any text may stand there. `withoutTexts` empties them all and leaves the rest;
two shapes differ in nothing else when they are the same without their texts. Whether a union
enumerates, and what kind of literals, does not depend on texts.

## Contents
- **Values.** `Json.withoutTexts` empties texts and keys.
- **Shapes.** `Shape.withoutTexts`.
- **Enumerations.** `enumeration?_withoutTexts`.
-/

namespace SchemaForge

/-! ## Values -/

namespace Json

mutual

/-- The value with all texts and keys in it empty. -/
def withoutTexts : Json → Json
  | .str _ => .str ""
  | .arr items => .arr (itemsWithoutTexts items)
  | .obj members => .obj (membersWithoutTexts members)
  | .null => .null
  | .bool b => .bool b
  | .int n => .int n
  | .float x => .float x

/-- The items with all texts in them empty. -/
def itemsWithoutTexts : List Json → List Json
  | [] => []
  | item :: rest => item.withoutTexts :: itemsWithoutTexts rest

/-- The members with all texts in them and their keys empty. -/
def membersWithoutTexts : List (String × Json) → List (String × Json)
  | [] => []
  | (_, value) :: rest => ("", value.withoutTexts) :: membersWithoutTexts rest

end

theorem itemsWithoutTexts_eq_map (items : List Json) :
    itemsWithoutTexts items = items.map withoutTexts := by
  induction items with
  | nil => rfl
  | cons item rest ih => rw [itemsWithoutTexts, ih, List.map_cons]

theorem membersWithoutTexts_eq_map (members : Fields Json) :
    membersWithoutTexts members = members.map fun member => ("", member.2.withoutTexts) := by
  induction members with
  | nil => rfl
  | cons member rest ih => rw [membersWithoutTexts, ih, List.map_cons]

theorem literalKind?_withoutTexts (value : Json) :
    value.withoutTexts.literalKind? = value.literalKind? := by
  cases value <;> rfl

end Json

/-- The default with all texts in it empty. A text with surrogates is a text. -/
def Default.withoutTexts : Default → Default
  | .json value => .json value.withoutTexts
  | .surrogates _ => .json (.str "")
  | .tuple values => .tuple (Json.itemsWithoutTexts values)

/-! ## Shapes -/

namespace Shape

mutual

/-- The shape with all names, all texts among its literals and all texts in its defaults empty. -/
def withoutTexts : Shape → Shape
  | .literal value => .literal value.withoutTexts
  | .object properties => .object (propertiesWithoutTexts properties)
  | .array items => .array items.withoutTexts
  | .union members => .union (membersWithoutTexts members)
  | .optional inner default hasDefault =>
    .optional inner.withoutTexts default.withoutTexts hasDefault
  | .string minLength maxLength pattern => .string minLength maxLength pattern
  | .number minimum maximum => .number minimum maximum
  | .boolean => .boolean
  | .foreign value => .foreign value

/-- The members of a union without their texts. -/
def membersWithoutTexts : List Shape → List Shape
  | [] => []
  | member :: rest => member.withoutTexts :: membersWithoutTexts rest

/-- The properties of an object without their names and texts. -/
def propertiesWithoutTexts : List (String × Shape) → List (String × Shape)
  | [] => []
  | (_, shape) :: rest => ("", shape.withoutTexts) :: propertiesWithoutTexts rest

end

theorem membersWithoutTexts_eq_map (members : List Shape) :
    membersWithoutTexts members = members.map withoutTexts := by
  induction members with
  | nil => rfl
  | cons member rest ih => rw [membersWithoutTexts, ih, List.map_cons]

theorem isUnion_withoutTexts (shape : Shape) : shape.withoutTexts.isUnion = shape.isUnion := by
  cases shape <;> rfl

theorem isOptional_withoutTexts (shape : Shape) :
    shape.withoutTexts.IsOptional ↔ shape.IsOptional := by
  cases shape <;> rfl

/-! ## Enumerations -/

theorem literals?_withoutTexts (members : List Shape) :
    literals? (members.map withoutTexts)
      = (literals? members).map (List.map Json.withoutTexts) := by
  induction members with
  | nil => rfl
  | cons member rest ih =>
    cases member with
    | literal value =>
      rw [List.map_cons, withoutTexts, literals?, literals?, ih, Option.map_map, Option.map_map]
      rfl
    | _ => rfl

theorem sharedKind?_withoutTexts (values : List Json) :
    sharedKind? (values.map Json.withoutTexts) = sharedKind? values := by
  cases values with
  | nil => rfl
  | cons value rest =>
    rw [List.map_cons, sharedKind?, sharedKind?, List.all_map, Json.literalKind?_withoutTexts]
    simp only [Function.comp_def, Json.literalKind?_withoutTexts]

/-- Whether a union enumerates does not depend on texts. -/
theorem enumeration?_withoutTexts (members : List Shape) :
    enumeration? (membersWithoutTexts members)
      = (enumeration? members).map fun enumeration =>
          (enumeration.1, enumeration.2.map Json.withoutTexts) := by
  rw [membersWithoutTexts_eq_map, enumeration?, enumeration?, literals?_withoutTexts]
  cases literals? members with
  | none => rfl
  | some values =>
    show (sharedKind? (values.map Json.withoutTexts) >>= _) = _
    rw [sharedKind?_withoutTexts]
    cases hkind : sharedKind? values with
    | none => simp [hkind]
    | some kind => simp [hkind]

end Shape

end SchemaForge
