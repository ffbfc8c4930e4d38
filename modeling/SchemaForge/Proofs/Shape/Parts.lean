import Mathlib.Logic.Basic
import SchemaForge.Shape.Basic

/-!
# `SchemaForge.Proofs.Shape.Parts` — the parts of a shape and where they stand

What a dialect accepts depends on the place of a part: an optional value is fine as the value of a
property and nowhere else. So a part is always looked at together with its place, and a property of
a whole tree is one that holds of every part at its place.

## Contents
- **Induction.** `induct` assumes the claim of the parts of a shape.
- **Places.** `Place`, `parts`, and `Occurs` for a part at any depth.
- **Kinds.** `IsPrimitive`, `IsNullOrText`, `IsScalar` tell values and shapes apart.
- **Everywhere.** `Everywhere` says that a predicate holds of every part, `everywhere_iff` takes it
  apart one level at a time; `Everywhere.induct_properties` is the induction for claims about
  expressions and the lines of properties.
-/

namespace SchemaForge

/-! ## Kinds -/

/-- Whether a value is a text, a number or a truth value. -/
def Json.IsPrimitive : Json → Prop
  | .str _ | .int _ | .float _ | .bool _ => True
  | .null | .arr _ | .obj _ => False

/-- Whether a value is null or a text. -/
def Json.IsNullOrText : Json → Prop
  | .null | .str _ => True
  | .bool _ | .int _ | .float _ | .arr _ | .obj _ => False

namespace Shape

/-- Whether it is a text, a number, a truth value or a literal. -/
def IsScalar : Shape → Prop
  | .string .. | .number .. | .boolean | .literal _ => True
  | _ => False

/-- Whether a pattern, if the shape has one, is null or a text. -/
def PatternIsText : Shape → Prop
  | .string _ _ pattern => pattern.IsNullOrText
  | _ => True

/-! ## Induction -/

/-- **Induction over the parts of a shape.** A property's claim is that of its value. -/
@[elab_as_elim, induction_eliminator]
theorem induct {motive : Shape → Prop}
    (string : ∀ minLength maxLength pattern, motive (.string minLength maxLength pattern))
    (number : ∀ minimum maximum, motive (.number minimum maximum))
    (boolean : motive .boolean)
    (literal : ∀ value, motive (.literal value))
    (object : ∀ properties, (∀ property ∈ properties, motive property.2) →
      motive (.object properties))
    (array : ∀ items, motive items → motive (.array items))
    (union : ∀ members, (∀ member ∈ members, motive member) → motive (.union members))
    (optional : ∀ inner default hasDefault, motive inner →
      motive (.optional inner default hasDefault))
    (foreign : ∀ value, motive (.foreign value)) (shape : Shape) : motive shape := by
  refine @Shape.rec motive (fun properties => ∀ property ∈ properties, motive property.2)
    (fun members => ∀ member ∈ members, motive member) (fun property => motive property.2)
    string number boolean literal object array union optional foreign ?_ ?_ ?_ ?_ ?_ shape
  · intro property hproperty
    exact absurd hproperty List.not_mem_nil
  · intro first rest hfirst hrest property hproperty
    rcases List.mem_cons.mp hproperty with rfl | hproperty
    · exact hfirst
    · exact hrest property hproperty
  · intro member hmember
    exact absurd hmember List.not_mem_nil
  · intro first rest hfirst hrest member hmember
    rcases List.mem_cons.mp hmember with rfl | hmember
    · exact hfirst
    · exact hrest member hmember
  · intro name value hvalue
    exact hvalue

/-! ## Places -/

/-- Where a part of a shape stands. -/
inductive Place where
  /-- It is the whole. -/
  | root
  /-- It is the value of a property. -/
  | property
  /-- It describes the items of a list. -/
  | items
  /-- It is one of the members of a union. -/
  | member
  /-- An optional value wraps it. -/
  | inner
deriving DecidableEq, Repr

/-- The parts of a shape one level below it, each with its place. -/
def parts : Shape → List (Place × Shape)
  | .object properties => properties.map fun property => (.property, property.2)
  | .array items => [(.items, items)]
  | .union members => members.map fun member => (.member, member)
  | .optional inner _ _ => [(.inner, inner)]
  | .string .. | .number .. | .boolean | .literal _ | .foreign _ => []

/-- `Occurs place part top shape`: in a shape that stands at `top`, the part stands at `place`. -/
inductive Occurs (place : Place) (part : Shape) : Place → Shape → Prop where
  /-- A shape is a part of itself. -/
  | here : Occurs place part place part
  /-- A part of a part is a part. -/
  | within {top : Place} {shape : Shape} {child : Place × Shape} :
    child ∈ shape.parts → Occurs place part child.1 child.2 → Occurs place part top shape

theorem occurs_iff {place top : Place} {part shape : Shape} :
    Occurs place part top shape ↔
      (place = top ∧ part = shape) ∨ ∃ child ∈ shape.parts, Occurs place part child.1 child.2 := by
  constructor
  · intro h
    cases h with
    | here => exact Or.inl ⟨rfl, rfl⟩
    | within hchild h => exact Or.inr ⟨_, hchild, h⟩
  · rintro (⟨rfl, rfl⟩ | ⟨child, hchild, h⟩)
    · exact .here
    · exact .within hchild h

/-! ## Everywhere -/

/-- Whether every part of a shape that stands at `top` is as the predicate says, at its place. -/
def Everywhere (p : Place → Shape → Prop) (top : Place) (shape : Shape) : Prop :=
  ∀ place part, Occurs place part top shape → p place part

/-- What holds everywhere holds of a shape and everywhere in its parts. -/
theorem everywhere_iff {p : Place → Shape → Prop} {top : Place} {shape : Shape} :
    Everywhere p top shape ↔
      p top shape ∧ ∀ child ∈ shape.parts, Everywhere p child.1 child.2 := by
  constructor
  · intro h
    exact ⟨h top shape .here, fun child hchild place part hpart =>
      h place part (.within hchild hpart)⟩
  · rintro ⟨htop, hparts⟩ place part hpart
    rcases occurs_iff.mp hpart with ⟨rfl, rfl⟩ | ⟨child, hchild, hpart⟩
    · exact htop
    · exact hparts child hchild place part hpart

/-- A predicate that does not look at places does not look at the place of the whole. -/
theorem everywhere_congr_top {p : Shape → Prop} {top : Place} (top' : Place) {shape : Shape}
    (h : Everywhere (fun _ => p) top shape) : Everywhere (fun _ => p) top' shape :=
  everywhere_iff.mpr (everywhere_iff.mp h)

variable {p : Place → Shape → Prop} {top : Place}

theorem everywhere_leaf {shape : Shape} (hparts : shape.parts = []) :
    Everywhere p top shape ↔ p top shape := by
  rw [everywhere_iff, hparts]
  exact and_iff_left fun child hchild => absurd hchild List.not_mem_nil

@[simp] theorem everywhere_string {minLength maxLength pattern : Json} :
    Everywhere p top (.string minLength maxLength pattern) ↔
      p top (.string minLength maxLength pattern) := everywhere_leaf rfl

@[simp] theorem everywhere_number {minimum maximum : Json} :
    Everywhere p top (.number minimum maximum) ↔ p top (.number minimum maximum) :=
  everywhere_leaf rfl

@[simp] theorem everywhere_boolean : Everywhere p top .boolean ↔ p top .boolean :=
  everywhere_leaf rfl

@[simp] theorem everywhere_literal {value : Json} :
    Everywhere p top (.literal value) ↔ p top (.literal value) := everywhere_leaf rfl

@[simp] theorem everywhere_foreign {value : Json} :
    Everywhere p top (.foreign value) ↔ p top (.foreign value) := everywhere_leaf rfl

@[simp] theorem everywhere_object {properties : Fields Shape} :
    Everywhere p top (.object properties) ↔
      p top (.object properties) ∧
        ∀ property ∈ properties, Everywhere p .property property.2 := by
  rw [everywhere_iff, parts, List.forall_mem_map]

@[simp] theorem everywhere_array {items : Shape} :
    Everywhere p top (.array items) ↔ p top (.array items) ∧ Everywhere p .items items := by
  rw [everywhere_iff, parts, List.forall_mem_singleton]

@[simp] theorem everywhere_union {members : List Shape} :
    Everywhere p top (.union members) ↔
      p top (.union members) ∧ ∀ member ∈ members, Everywhere p .member member := by
  rw [everywhere_iff, parts, List.forall_mem_map]

@[simp] theorem everywhere_optional {inner : Shape} {default : Default} {hasDefault : Json} :
    Everywhere p top (.optional inner default hasDefault) ↔
      p top (.optional inner default hasDefault) ∧ Everywhere p .inner inner := by
  rw [everywhere_iff, parts, List.forall_mem_singleton]

/-- **Induction over a shape whose parts are all as `p` says**, with a claim of its own for a shape as
the value of a property: the only place where an optional value is looked into. -/
theorem Everywhere.induct_properties {p claim propertyClaim : Shape → Prop}
    (string : ∀ minLength maxLength pattern, p (.string minLength maxLength pattern) →
      claim (.string minLength maxLength pattern))
    (number : ∀ minimum maximum, p (.number minimum maximum) → claim (.number minimum maximum))
    (boolean : claim .boolean)
    (literal : ∀ value, claim (.literal value))
    (object : ∀ properties, (∀ property ∈ properties, propertyClaim property.2) →
      claim (.object properties))
    (array : ∀ items, claim items → claim (.array items))
    (union : ∀ members, (∀ member ∈ members, claim member) → claim (.union members))
    (optional : ∀ inner default hasDefault, claim (.optional inner default hasDefault))
    (foreign : ∀ value, claim (.foreign value))
    (plainProperty : ∀ shape, ¬ shape.IsOptional → claim shape → propertyClaim shape)
    (optionalProperty : ∀ inner default hasDefault, claim inner →
      propertyClaim (.optional inner default hasDefault))
    {top : Place} {shape : Shape} (h : Everywhere (fun _ => p) top shape) :
    claim shape ∧ propertyClaim shape := by
  induction shape generalizing top with
  | string minLength maxLength pattern =>
    have hclaim := string minLength maxLength pattern (everywhere_string.mp h)
    exact ⟨hclaim, plainProperty _ id hclaim⟩
  | number minimum maximum =>
    have hclaim := number minimum maximum (everywhere_number.mp h)
    exact ⟨hclaim, plainProperty _ id hclaim⟩
  | boolean => exact ⟨boolean, plainProperty _ id boolean⟩
  | literal value => exact ⟨literal value, plainProperty _ id (literal value)⟩
  | object properties ih =>
    have hproperties := (everywhere_object.mp h).2
    have hclaim := object properties fun property hproperty =>
      (ih property hproperty (hproperties property hproperty)).2
    exact ⟨hclaim, plainProperty _ id hclaim⟩
  | array items ih =>
    have hclaim := array items (ih (everywhere_array.mp h).2).1
    exact ⟨hclaim, plainProperty _ id hclaim⟩
  | union members ih =>
    have hmembers := (everywhere_union.mp h).2
    have hclaim := union members fun member hmember =>
      (ih member hmember (hmembers member hmember)).1
    exact ⟨hclaim, plainProperty _ id hclaim⟩
  | optional inner default hasDefault ih =>
    have hinner := (ih (everywhere_optional.mp h).2).1
    exact ⟨optional inner default hasDefault, optionalProperty inner default hasDefault hinner⟩
  | foreign value => exact ⟨foreign value, plainProperty _ id (foreign value)⟩

end Shape

end SchemaForge
