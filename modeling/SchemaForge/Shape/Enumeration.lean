import SchemaForge.Shape.Basic

/-!
# `SchemaForge.Shape.Enumeration` — unions that enumerate literals

A union enumerates when all its members are literals of one primitive kind. Dialects write such a
union as a set of literals.

## Contents
- **Kinds.** `LiteralKind`, `Json.literalKind?`.
- **Enumerations.** `literals?` takes the values out of a list of literals, `sharedKind?` finds the
  kind that values share, `enumeration?` combines the two.
-/

namespace SchemaForge

/-! ## Kinds -/

/-- A kind of primitive value. -/
inductive LiteralKind where
  | string
  | number
  | boolean
deriving DecidableEq, Repr

/-- The name of a kind. -/
def LiteralKind.name : LiteralKind → String
  | string => "string"
  | number => "number"
  | boolean => "boolean"

/-- The kind of a primitive value. -/
def Json.literalKind? : Json → Option LiteralKind
  | .bool _ => some .boolean
  | .int _ | .float _ => some .number
  | .str _ => some .string
  | .null | .arr _ | .obj _ => none

/-! ## Enumerations -/

namespace Shape

/-- The values of a list of literals, if it is one. -/
def literals? : List Shape → Option (List Json)
  | [] => some []
  | .literal value :: rest => (literals? rest).map (value :: ·)
  | _ :: _ => none

/-- The kind of the first value, if it has one and all others share it. -/
def sharedKind? : List Json → Option LiteralKind
  | [] => none
  | value :: rest =>
    if rest.all fun other => other.literalKind? = value.literalKind? then value.literalKind?
    else none

/-- The kind and the values of an enumeration, if the members form one. -/
def enumeration? (members : List Shape) : Option (LiteralKind × List Json) := do
  let values ← literals? members
  let kind ← sharedKind? values
  return (kind, values)

/-- The values of a list of literals give the list back. -/
theorem literals?_map_literal (values : List Json) :
    literals? (values.map .literal) = some values := by
  induction values with
  | nil => rfl
  | cons value rest ih => simp [literals?, ih]

theorem eq_map_of_literals? {members : List Shape} {values : List Json}
    (h : literals? members = some values) : members = values.map .literal := by
  induction members generalizing values with
  | nil => cases h; rfl
  | cons member rest ih =>
    cases member with
    | literal value =>
      obtain ⟨others, found, rfl⟩ := Option.map_eq_some_iff.1 h
      rw [List.map_cons, ih found]
    | _ => cases h

/-- The members of an enumeration are its literals. -/
theorem eq_map_of_enumeration? {members : List Shape} {enumeration : LiteralKind × List Json}
    (h : enumeration? members = some enumeration) : members = enumeration.2.map .literal := by
  simp only [enumeration?, Option.bind_eq_bind, Option.bind_eq_some_iff] at h
  obtain ⟨values, found, kind, -, h⟩ := h
  cases h
  exact eq_map_of_literals? found

end Shape

end SchemaForge
