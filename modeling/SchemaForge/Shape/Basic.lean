import SchemaForge.Shape.Default

/-!
# `SchemaForge.Shape.Basic` — what a schema says about a value

A shape describes the values that a schema accepts, whatever library checks them in the end. Bounds,
patterns, literals and defaults are kept as they were given: `null` where nothing is demanded, and
otherwise any value, since nothing checks them before they are written out.

## Contents
- **Shapes.** `Shape`, `kindName`; `isUnion` and `IsOptional` tell two kinds from the others.
- **Checked constructors.** `unionOf` and `objectOf` refuse the unions and objects that make no
  sense; `ShapeError` says why.
-/

namespace SchemaForge

/-- A description of values. -/
inductive Shape where
  /-- A text, within bounds on its length, that matches a pattern. -/
  | string (minLength maxLength pattern : Json)
  /-- A number within inclusive bounds. -/
  | number (minimum maximum : Json)
  /-- A truth value. -/
  | boolean
  /-- Exactly this value. -/
  | literal (value : Json)
  /-- An object with these properties, in this order. -/
  | object (properties : List (String × Shape))
  /-- A list of such items. -/
  | array (items : Shape)
  /-- Any of these. -/
  | union (members : List Shape)
  /-- A value that may be left out. The default holds then, unless `hasDefault` says nothing. -/
  | optional (inner : Shape) (default : Default) (hasDefault : Json)
  /-- A bare value where a shape should be. -/
  | foreign (value : Json)

namespace Shape

instance : Inhabited Shape := ⟨.boolean⟩

/-- A text without demands. -/
def anyString : Shape := .string .null .null .null

/-- The name by which messages call a kind of shape. -/
def kindName : Shape → String
  | .string .. => "StringNode"
  | .number .. => "NumberNode"
  | .boolean => "BooleanNode"
  | .literal _ => "LiteralNode"
  | .object _ => "ObjectNode"
  | .array _ => "ArrayNode"
  | .union _ => "UnionNode"
  | .optional .. => "OptionalNode"
  | .foreign value => value.kindName

/-- Whether it is a union. -/
def isUnion : Shape → Bool
  | .union _ => true
  | _ => false

/-- Whether it is an optional value. -/
def IsOptional : Shape → Prop
  | .optional .. => True
  | _ => False

end Shape

/-! ## Checked constructors -/

/-- Why a shape cannot be made. -/
inductive ShapeError where
  /-- A union of fewer than two members. -/
  | tooFewMembers (count : Nat)
  /-- Two properties of one name. -/
  | duplicateNames (names : List String)

/-- The message about a shape that cannot be made. -/
def ShapeError.message : ShapeError → String
  | tooFewMembers count => "UnionNode requires at least 2 members, got " ++ toString count
  | duplicateNames names => "Duplicate property names in object: " ++ Json.inspectNames names

namespace Shape

/-- The union of the members, of which there must be two. -/
def unionOf (members : List Shape) : Except ShapeError Shape :=
  if members.length < 2 then .error (.tooFewMembers members.length) else .ok (.union members)

/-- The object with the properties, whose names must differ. -/
def objectOf (properties : Fields Shape) : Except ShapeError Shape :=
  if (Fields.names properties).Nodup then .ok (.object properties)
  else .error (.duplicateNames (Fields.names properties))

theorem unionOf_eq_ok_iff {members : List Shape} {shape : Shape} :
    unionOf members = .ok shape ↔ 2 ≤ members.length ∧ shape = .union members := by
  by_cases few : members.length < 2
  · rw [unionOf, if_pos few]
    constructor
    · intro h
      cases h
    · rintro ⟨enough, -⟩
      omega
  · rw [unionOf, if_neg few, Except.ok.injEq]
    constructor
    · intro h
      exact ⟨by omega, h.symm⟩
    · rintro ⟨-, h⟩
      exact h.symm

theorem objectOf_eq_ok_iff {properties : Fields Shape} {shape : Shape} :
    objectOf properties = .ok shape ↔
      (Fields.names properties).Nodup ∧ shape = .object properties := by
  by_cases distinct : (Fields.names properties).Nodup
  · rw [objectOf, if_pos distinct, Except.ok.injEq]
    constructor
    · intro h
      exact ⟨distinct, h.symm⟩
    · rintro ⟨-, h⟩
      exact h.symm
  · rw [objectOf, if_neg distinct]
    constructor
    · intro h
      cases h
    · rintro ⟨h, -⟩
      exact absurd h distinct

end Shape

end SchemaForge
