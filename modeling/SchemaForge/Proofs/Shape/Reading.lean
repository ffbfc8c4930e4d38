import Mathlib.Data.List.Forall2
import SchemaForge.Proofs.Shape.Parts
import SchemaForge.Shape.OfSchema

/-!
# `SchemaForge.Proofs.Shape.Reading` — what reading a schema makes sure of

Whatever is read from a schema is a shape that can be placed: an optional value is the value of a
property and is optional only once, a union has two members, the names of an object differ, and
literals are primitive. Its objects list their properties as the schema does.

The reader is a family of seven functions. `ReadFrom` is the invariant of a single shape, and a
theorem for each function says it of what the function answers. They call each other as the
functions do. A choice with one variant hands its variant on, which is why a shape that is read is
never optional by itself: only the step from a property's schema to the property makes it so.

## Contents
- **Placement.** `Placed`, the condition on a part at its place.
- **Order.** `InOrder` relates a schema to the shape that is read from it.
- **Cases.** `Decision`, which key decides how a schema is read, and `TypeCase`, what its type can be.
- **Steps.** What the checked constructors and the readers of literals let through.
- **Reading.** `readFrom_of_readSchema`, `ofSchema_eq_ok`.
-/

namespace SchemaForge.Shape

/-! ## Placement -/

/-- **What can be placed where.** -/
def Placed (place : Place) : Shape → Prop
  | .optional inner _ _ => place = .property ∧ ¬ inner.IsOptional
  | .union members => 2 ≤ members.length
  | .object properties => (Fields.names properties).Nodup
  | .literal value => value.IsPrimitive
  | .foreign _ => False
  | .string .. | .number .. | .boolean | .array _ => True

/-! ## Order -/

/-- The properties that a schema lists. -/
def listedProperties (keys : Fields Json) : Fields Json :=
  match Fields.get? "properties" keys with
  | some (.obj properties) => properties
  | _ => []

/-- **A shape follows a schema** when each of its objects, at any depth, lists its properties by the
names and in the order in which the part of the schema that it stands for lists them. -/
inductive InOrder : Json → Shape → Prop where
  /-- There is nothing to list. -/
  | scalar {schema : Json} {shape : Shape} : shape.IsScalar → InOrder schema shape
  /-- Nor is there in a union of such shapes. -/
  | enumeration {schema : Json} {members : List Shape} :
    (∀ member ∈ members, member.IsScalar) → InOrder schema (.union members)
  /-- The members of a choice stand for its variants, one for one. -/
  | choice {keys : Fields Json} {variants : List Json} {members : List Shape} :
    Fields.get? (choiceKeyword keys) keys = some (.arr variants) →
      List.Forall₂ InOrder variants members → InOrder (.obj keys) (.union members)
  /-- The only variant of a choice takes its place. -/
  | soleVariant {keys : Fields Json} {variant : Json} {shape : Shape} :
    Fields.get? (choiceKeyword keys) keys = some (.arr [variant]) → InOrder variant shape →
      InOrder (.obj keys) shape
  /-- A schema with several types stands behind each of the members. -/
  | types {keys : Fields Json} {members : List Shape} :
    Fields.get? (choiceKeyword keys) keys = none →
      (∀ member ∈ members, InOrder (.obj keys) member) → InOrder (.obj keys) (.union members)
  /-- The items of a list stand for the schema of its items. -/
  | array {keys : Fields Json} {item : Json} {items : Shape} :
    Fields.get? (choiceKeyword keys) keys = none → Fields.get? "items" keys = some item →
      InOrder item items → InOrder (.obj keys) (.array items)
  /-- The properties of an object are those that its schema lists, in that order. -/
  | object {keys : Fields Json} {properties : Fields Shape} :
    Fields.get? (choiceKeyword keys) keys = none →
      Fields.names properties = Fields.names (listedProperties keys) →
      List.Forall₂ InOrder ((listedProperties keys).map Prod.snd) (properties.map Prod.snd) →
      InOrder (.obj keys) (.object properties)
  /-- Being optional changes nothing. -/
  | optional {schema : Json} {inner : Shape} {default : Default} {hasDefault : Json} :
    InOrder schema inner → InOrder schema (.optional inner default hasDefault)

/-- **What reading a schema makes sure of** about a shape. -/
structure ReadFrom (schema : Json) (shape : Shape) : Prop where
  /-- It is not optional by itself. -/
  not_optional : ¬ shape.IsOptional
  /-- All its parts can be placed, wherever it will stand. -/
  placed : ∀ top, Everywhere Placed top shape
  /-- It follows the schema. -/
  inOrder : InOrder schema shape

/-! ## Cases -/

/-- **Which key decides** how a schema is read: the first one that it has. -/
inductive Decision (keys : Fields Json) : Prop where
  /-- It refers to another schema. -/
  | reference (target : Json) (href : Fields.get? "$ref" keys = some target)
  /-- It is a constant. -/
  | constant (value : Json) (href : Fields.get? "$ref" keys = none)
    (hconst : Fields.get? "const" keys = some value)
  /-- It lists values. -/
  | enumeration (values : Json) (href : Fields.get? "$ref" keys = none)
    (hconst : Fields.get? "const" keys = none) (henum : Fields.get? "enum" keys = some values)
  /-- It lists schemas. -/
  | choice (variants : Json) (href : Fields.get? "$ref" keys = none)
    (hconst : Fields.get? "const" keys = none) (henum : Fields.get? "enum" keys = none)
    (hchoice : Fields.get? (choiceKeyword keys) keys = some variants)
  /-- It has a type. -/
  | type (type : Json) (href : Fields.get? "$ref" keys = none)
    (hconst : Fields.get? "const" keys = none) (henum : Fields.get? "enum" keys = none)
    (hchoice : Fields.get? (choiceKeyword keys) keys = none)
    (htype : Fields.get? "type" keys = some type)
  /-- It has none of these, and is an object if it has properties. -/
  | untyped (href : Fields.get? "$ref" keys = none) (hconst : Fields.get? "const" keys = none)
    (henum : Fields.get? "enum" keys = none)
    (hchoice : Fields.get? (choiceKeyword keys) keys = none)
    (htype : Fields.get? "type" keys = none)

theorem decision (keys : Fields Json) : Decision keys := by
  cases href : Fields.get? "$ref" keys with
  | some target => exact .reference target href
  | none =>
    cases hconst : Fields.get? "const" keys with
    | some value => exact .constant value href hconst
    | none =>
      cases henum : Fields.get? "enum" keys with
      | some values => exact .enumeration values href hconst henum
      | none =>
        cases hchoice : Fields.get? (choiceKeyword keys) keys with
        | some variants => exact .choice variants href hconst henum hchoice
        | none =>
          cases htype : Fields.get? "type" keys with
          | some type => exact .type type href hconst henum hchoice htype
          | none => exact .untyped href hconst henum hchoice htype

/-- **What a type can be**, next to the keys of its schema. -/
inductive TypeCase (keys : Fields Json) (type : Json) : Prop where
  /-- It is several types. -/
  | types (types : List Json) (htypes : soleType type = .arr types)
  /-- It is that of a text. -/
  | string (hstring : soleType type = .str "string")
  /-- It is that of a number. -/
  | number (hnumber : soleType type = .str "number")
  /-- It is that of a truth value. -/
  | boolean (hboolean : soleType type = .str "boolean")
  /-- It is that of an object. -/
  | object (hobject : soleType type = .str "object")
  /-- It is that of a list, and there is a schema for its items. -/
  | array (item : Fields Json) (harray : soleType type = .str "array")
    (hitem : Fields.get? "items" keys = some (.obj item))
  /-- It is that of a list, and there is none. -/
  | bareArray (harray : soleType type = .str "array")
    (hitems : ∀ item, Fields.get? "items" keys ≠ some (.obj item))
  /-- It is not known. -/
  | unknown (htypes : ∀ types, soleType type ≠ .arr types)
    (hstring : soleType type ≠ .str "string") (hnumber : soleType type ≠ .str "number")
    (hboolean : soleType type ≠ .str "boolean") (hobject : soleType type ≠ .str "object")
    (harray : soleType type ≠ .str "array")

theorem typeCase (keys : Fields Json) (type : Json) : TypeCase keys type := by
  by_cases htypes : ∃ types, soleType type = .arr types
  · obtain ⟨types, htypes⟩ := htypes
    exact .types types htypes
  by_cases hstring : soleType type = .str "string"
  · exact .string hstring
  by_cases hnumber : soleType type = .str "number"
  · exact .number hnumber
  by_cases hboolean : soleType type = .str "boolean"
  · exact .boolean hboolean
  by_cases hobject : soleType type = .str "object"
  · exact .object hobject
  by_cases harray : soleType type = .str "array"
  · by_cases hitems : ∃ item, Fields.get? "items" keys = some (.obj item)
    · obtain ⟨item, hitem⟩ := hitems
      exact .array item harray hitem
    · exact .bareArray harray (not_exists.mp hitems)
  · exact .unknown (not_exists.mp htypes) hstring hnumber hboolean hobject harray

theorem sizeOf_lt_of_soleType {type : Json} {types : List Json} (h : soleType type = .arr types) :
    sizeOf types < sizeOf type := by
  have hsole := sizeOf_soleType_le type
  rw [h, Json.arr.sizeOf_spec] at hsole
  omega

/-! ## Steps -/

/-- A sequence of readings comes out when both of its parts do. -/
theorem bind_eq_ok_iff {ε α β : Type} {first : Except ε α} {next : α → Except ε β} {b : β} :
    first >>= next = .ok b ↔ ∃ a, first = .ok a ∧ next a = .ok b := by
  cases first with
  | error e =>
    constructor
    · intro h
      cases h
    · rintro ⟨a, h, -⟩
      cases h
  | ok a =>
    constructor
    · intro h
      exact ⟨a, rfl, h⟩
    · rintro ⟨a', ha, h⟩
      cases ha
      exact h

/-- An error by another name is still an error. -/
theorem mapError_eq_ok_iff {ε ε' α : Type} {f : ε → ε'} {result : Except ε α} {a : α} :
    result.mapError f = .ok a ↔ result = .ok a := by
  cases result with
  | error e =>
    constructor
    · intro h
      cases h
    · intro h
      cases h
  | ok b =>
    rw [Except.mapError, Except.ok.injEq, Except.ok.injEq]

theorem readUnion_eq_ok_iff {members : List Shape} {shape : Shape} :
    readUnion members = .ok shape ↔ 2 ≤ members.length ∧ shape = .union members := by
  rw [← unionOf_eq_ok_iff, readUnion, mapError_eq_ok_iff]

theorem readObject_eq_ok_iff {properties : Fields Shape} {shape : Shape} :
    readObject properties = .ok shape ↔
      (Fields.names properties).Nodup ∧ shape = .object properties := by
  rw [← objectOf_eq_ok_iff, readObject, mapError_eq_ok_iff]

theorem readLiteral_eq_ok {value : Json} {path : Path} {shape : Shape}
    (h : readLiteral value path = .ok shape) : value.IsPrimitive ∧ shape = .literal value := by
  unfold readLiteral at h
  split at h
  · cases h; exact ⟨trivial, rfl⟩
  · cases h; exact ⟨trivial, rfl⟩
  · cases h; exact ⟨trivial, rfl⟩
  · cases h; exact ⟨trivial, rfl⟩
  · cases h
  · cases h
  · cases h

/-- A scalar that can be placed at all can be read from anything. -/
theorem readFrom_scalar {schema : Json} {shape : Shape} (hscalar : shape.IsScalar)
    (hplaced : ∀ place, Placed place shape) : ReadFrom schema shape := by
  refine ⟨?_, fun top => ?_, .scalar hscalar⟩
  · cases shape with
    | optional => exact hscalar.elim
    | _ => exact id
  · cases shape with
    | string => exact everywhere_string.mpr trivial
    | number => exact everywhere_number.mpr trivial
    | boolean => exact everywhere_boolean.mpr trivial
    | literal value => exact everywhere_literal.mpr (hplaced top)
    | _ => exact hscalar.elim

theorem readFrom_of_readLiteral {schema value : Json} {path : Path} {shape : Shape}
    (h : readLiteral value path = .ok shape) : ReadFrom schema shape ∧ shape.IsScalar := by
  obtain ⟨hprimitive, rfl⟩ := readLiteral_eq_ok h
  exact ⟨readFrom_scalar trivial fun _ => hprimitive, trivial⟩

theorem readFrom_of_readLiterals {schema : Json} {path : Path} {index : Nat} {values : List Json}
    {shapes : List Shape} (h : readLiterals path index values = .ok shapes) :
    ∀ shape ∈ shapes, ReadFrom schema shape ∧ shape.IsScalar := by
  induction values generalizing index shapes with
  | nil => cases h; exact fun shape hshape => absurd hshape List.not_mem_nil
  | cons value rest ih =>
    rw [readLiterals, bind_eq_ok_iff] at h
    obtain ⟨first, hfirst, h⟩ := h
    obtain ⟨others, hothers, h⟩ := bind_eq_ok_iff.mp h
    cases h
    intro shape hshape
    rcases List.mem_cons.mp hshape with rfl | hshape
    · exact readFrom_of_readLiteral hfirst
    · exact ih hothers shape hshape

/-- A union of shapes that were read can be read, if it follows the schema. -/
theorem readFrom_union {schema : Json} {members : List Shape} (htwo : 2 ≤ members.length)
    (hmembers : ∀ member ∈ members, ∀ top, Everywhere Placed top member)
    (horder : InOrder schema (.union members)) : ReadFrom schema (.union members) :=
  ⟨id, fun _ => everywhere_union.mpr ⟨htwo, fun member hmember => hmembers member hmember _⟩,
    horder⟩

theorem readFrom_of_readEnumeration {schema values : Json} {path : Path} {shape : Shape}
    (h : readEnumeration values path = .ok shape) : ReadFrom schema shape := by
  unfold readEnumeration at h
  split at h
  · cases h
  · obtain ⟨shapes, hshapes, h⟩ := bind_eq_ok_iff.mp h
    have hread : ∀ shape ∈ shapes, ReadFrom schema shape ∧ shape.IsScalar :=
      readFrom_of_readLiterals hshapes
    split at h
    · cases h
    · cases h; exact (hread _ (List.mem_singleton.mpr rfl)).1
    · obtain ⟨htwo, rfl⟩ := readUnion_eq_ok_iff.mp h
      exact readFrom_union htwo (fun member hmember => (hread member hmember).1.placed)
        (.enumeration fun member hmember => (hread member hmember).2)

/-- The parts of a list that was read one for one can be placed. -/
theorem placed_of_forall₂ {schemas : List Json} {shapes : List Shape}
    (h : List.Forall₂ ReadFrom schemas shapes) :
    ∀ shape ∈ shapes, ∀ top, Everywhere Placed top shape := by
  induction h with
  | nil => exact fun shape hshape => absurd hshape List.not_mem_nil
  | cons hfirst _ ih =>
    intro shape hshape
    rcases List.mem_cons.mp hshape with rfl | hshape
    · exact hfirst.placed
    · exact ih shape hshape

/-! ## Reading -/

/-- What the properties that were read have to do with the schemas that list them. -/
structure PropertiesReadFrom (schemas : Fields Json) (properties : Fields Shape) : Prop where
  /-- They have the same names in the same order. -/
  names_eq : Fields.names properties = Fields.names schemas
  /-- They can be placed. -/
  placed : ∀ property ∈ properties, Everywhere Placed .property property.2
  /-- They follow the schemas, one for one. -/
  inOrder : List.Forall₂ InOrder (schemas.map Prod.snd) (properties.map Prod.snd)

/-- A shape that was read can be the value of a property, optional or not. -/
theorem placed_property {schema : Json} {shape : Shape} (h : ReadFrom schema shape)
    (isOptional : Bool) (default : Default) (hasDefault : Json) :
    Everywhere Placed .property
        (if isOptional then .optional shape default hasDefault else shape) ∧
      InOrder schema (if isOptional then .optional shape default hasDefault else shape) := by
  cases isOptional with
  | true => exact ⟨everywhere_optional.mpr ⟨⟨rfl, h.not_optional⟩, h.placed _⟩, .optional h.inOrder⟩
  | false => exact ⟨h.placed _, h.inOrder⟩

/-- **One property more.** -/
theorem propertiesReadFrom_cons {name : String} {schema required : Json} {rest : Fields Json}
    {path : Path} {properties : Fields Shape}
    (hschema : ∀ shape, readSchema schema ((path.child "properties").child name) = .ok shape →
      ReadFrom schema shape)
    (hrest : ∀ others, readEach rest required path = .ok others → PropertiesReadFrom rest others)
    (h : readEach ((name, schema) :: rest) required path = .ok properties) :
    PropertiesReadFrom ((name, schema) :: rest) properties := by
  unfold readEach at h
  obtain ⟨shape, hshape, h⟩ := bind_eq_ok_iff.mp h
  obtain ⟨isOptional, -, h⟩ := bind_eq_ok_iff.mp h
  obtain ⟨others, hothers, h⟩ := bind_eq_ok_iff.mp h
  cases h
  have hothers := hrest others hothers
  obtain ⟨hplaced, horder⟩ := placed_property (hschema shape hshape) isOptional _ _
  refine ⟨congrArg (name :: ·) hothers.names_eq, ?_, .cons horder hothers.inOrder⟩
  intro property hproperty
  rcases List.mem_cons.mp hproperty with rfl | hproperty
  · exact hplaced
  · exact hothers.placed property hproperty

/-- An object whose properties were read can be read. -/
theorem readFrom_object {keys schemas : Fields Json} {properties : Fields Shape} {shape : Shape}
    (hchoice : Fields.get? (choiceKeyword keys) keys = none)
    (hlisted : listedProperties keys = schemas) (hread : PropertiesReadFrom schemas properties)
    (h : readObject properties = .ok shape) : ReadFrom (.obj keys) shape := by
  obtain ⟨hdistinct, rfl⟩ := readObject_eq_ok_iff.mp h
  subst hlisted
  exact ⟨id, fun _ => everywhere_object.mpr ⟨hdistinct, hread.placed⟩,
    .object hchoice hread.names_eq hread.inOrder⟩

/-- The shape of a choice: its only variant, or a union of them. -/
theorem readFrom_choice {keys : Fields Json} {keyword : String} {variants : List Json}
    {shapes : List Shape} {shape : Shape} {path : Path} (hkeyword : keyword = choiceKeyword keys)
    (hfound : Fields.get? keyword keys = some (.arr variants))
    (h : (match shapes with
      | [] => refuse (.emptyChoice keyword) path
      | [only] => pure only
      | members => readUnion members : Except ReadError Shape) = .ok shape)
    (hread : List.Forall₂ ReadFrom variants shapes) :
    ReadFrom (.obj keys) shape := by
  subst hkeyword
  have hplaced := placed_of_forall₂ hread
  have horder : List.Forall₂ InOrder variants shapes := hread.imp fun _ _ h => h.inOrder
  cases shapes with
  | nil => cases h
  | cons first rest =>
    cases rest with
    | nil =>
      cases h
      cases hread with
      | cons hfirst hnil =>
        cases hnil
        exact ⟨hfirst.not_optional, hfirst.placed, .soleVariant hfound hfirst.inOrder⟩
    | cons second rest =>
      obtain ⟨htwo, rfl⟩ := readUnion_eq_ok_iff.mp h
      exact readFrom_union htwo hplaced (.choice hfound horder)

theorem sizeOf_lt_of_get?_obj {name : String} {keys members : Fields Json}
    (h : Fields.get? name keys = some (.obj members)) : 1 + sizeOf members < sizeOf keys := by
  rw [← Json.obj.sizeOf_spec]
  exact Fields.sizeOf_lt_of_get? h

-- The calls of one part of the reader by another one are the induction: each theorem below is
-- about one part, assumes what the others say of smaller schemas and has the measure of its part.
mutual

/-- **Whatever is read from a schema can be placed and follows the schema.** -/
theorem readFrom_of_readSchema {schema : Json} {path : Path} {shape : Shape}
    (h : readSchema schema path = .ok shape) : ReadFrom schema shape := by
  -- The first of its keys decides.
  cases hschema : schema with
  | obj keys =>
    rw [hschema] at h
    have hkeys : sizeOf keys < sizeOf schema := by
      rw [hschema, Json.obj.sizeOf_spec]
      omega
    cases decision keys with
    | reference target href =>
      rw [readSchema_ref href] at h
      cases h
    | constant value href hconst =>
      rw [readSchema_const href hconst] at h
      exact (readFrom_of_readLiteral h).1
    | enumeration values href hconst henum =>
      rw [readSchema_enum href hconst henum] at h
      exact readFrom_of_readEnumeration h
    | choice variants href hconst henum hchoice =>
      have hvariants := Fields.sizeOf_lt_of_get? hchoice
      rw [readSchema_choice href hconst henum hchoice] at h
      exact readFrom_of_readChoice rfl hchoice h
    | type type href hconst henum hchoice htype =>
      rw [readSchema_type href hconst henum hchoice htype] at h
      exact readFrom_of_readTyped hchoice h
    | untyped href hconst henum hchoice htype =>
      rw [readSchema_untyped href hconst henum hchoice htype] at h
      by_cases hproperties : Fields.has "properties" keys
      · rw [if_pos hproperties] at h
        exact readFrom_of_readProperties hchoice h
      · rw [if_neg hproperties] at h
        cases h
  | _ =>
    rw [hschema, readSchema_not_object fun _ h => Json.noConfusion h] at h
    cases h
termination_by (sizeOf schema, 0)

/-- A choice: its variants one for one. What is no list never comes out. -/
theorem readFrom_of_readChoice {keys : Fields Json} {variants : Json} {keyword : String}
    {path : Path} {shape : Shape} (hkeyword : keyword = choiceKeyword keys)
    (hfound : Fields.get? keyword keys = some variants)
    (h : readChoice variants keyword path = .ok shape) : ReadFrom (.obj keys) shape := by
  cases variants with
  | arr variants =>
    rw [readChoice] at h
    obtain ⟨shapes, hshapes, h⟩ := bind_eq_ok_iff.mp h
    exact readFrom_choice hkeyword hfound h (readFrom_of_readVariants hshapes)
  | _ =>
    rw [readChoice_not_list fun _ h => Json.noConfusion h] at h
    split at h <;> cases h
termination_by (sizeOf variants, 1)

theorem readFrom_of_readVariants {variants : List Json} {keyword : String} {path : Path}
    {index : Nat} {shapes : List Shape}
    (h : readVariants variants keyword path index = .ok shapes) :
    List.Forall₂ ReadFrom variants shapes := by
  cases variants with
  | nil =>
    rw [readVariants] at h
    cases h
    exact .nil
  | cons variant rest =>
    rw [readVariants] at h
    obtain ⟨first, hfirst, h⟩ := bind_eq_ok_iff.mp h
    obtain ⟨others, hothers, h⟩ := bind_eq_ok_iff.mp h
    cases h
    exact .cons (readFrom_of_readSchema hfirst) (readFrom_of_readVariants hothers)
termination_by (sizeOf variants, 0)

/-- A type: a list of types makes a union, each name its own shape. -/
theorem readFrom_of_readTyped {keys : Fields Json} {type : Json} {path : Path} {shape : Shape}
    (hchoice : Fields.get? (choiceKeyword keys) keys = none)
    (h : readTyped keys type path = .ok shape) : ReadFrom (.obj keys) shape := by
  cases typeCase keys type with
  | types types htypes =>
    have hsmaller := sizeOf_lt_of_soleType htypes
    rw [readTyped_types htypes] at h
    obtain ⟨members, hmembers, h⟩ := bind_eq_ok_iff.mp h
    obtain ⟨htwo, rfl⟩ := readUnion_eq_ok_iff.mp h
    have hread := readFrom_of_readTypes hchoice hmembers
    exact readFrom_union htwo (fun member hmember => (hread member hmember).placed)
      (.types hchoice fun member hmember => (hread member hmember).inOrder)
  | string hstring =>
    rw [readTyped_string hstring] at h
    cases h
    exact readFrom_scalar trivial fun _ => trivial
  | number hnumber =>
    rw [readTyped_number hnumber] at h
    cases h
    exact readFrom_scalar trivial fun _ => trivial
  | boolean hboolean =>
    rw [readTyped_boolean hboolean] at h
    cases h
    exact readFrom_scalar trivial fun _ => trivial
  | object hobject =>
    rw [readTyped_object hobject] at h
    exact readFrom_of_readProperties hchoice h
  | array item harray hitem =>
    have hsmaller : 1 + sizeOf item < sizeOf keys := sizeOf_lt_of_get?_obj hitem
    rw [readTyped_array harray hitem] at h
    obtain ⟨items, hread, h⟩ := bind_eq_ok_iff.mp h
    cases h
    have hread := readFrom_of_readSchema hread
    exact ⟨id, fun _ => everywhere_array.mpr ⟨trivial, hread.placed _⟩,
      .array hchoice hitem hread.inOrder⟩
  | bareArray harray hitems =>
    rw [readTyped_unspecifiedItems harray hitems] at h
    cases h
  | unknown htypes hstring hnumber hboolean hobject harray =>
    rw [readTyped_unknown htypes hstring hnumber hboolean hobject harray] at h
    cases h
termination_by (sizeOf keys, sizeOf type + 1)

theorem readFrom_of_readTypes {keys : Fields Json} {types : List Json} {path : Path}
    {shapes : List Shape} (hchoice : Fields.get? (choiceKeyword keys) keys = none)
    (h : readTypes keys types path = .ok shapes) :
    ∀ shape ∈ shapes, ReadFrom (.obj keys) shape := by
  cases types with
  | nil =>
    rw [readTypes] at h
    cases h
    exact fun _ h => absurd h List.not_mem_nil
  | cons type rest =>
    rw [readTypes] at h
    obtain ⟨first, hfirst, h⟩ := bind_eq_ok_iff.mp h
    obtain ⟨others, hothers, h⟩ := bind_eq_ok_iff.mp h
    cases h
    have htype := readFrom_of_readTyped hchoice hfirst
    have hrest := readFrom_of_readTypes hchoice hothers
    exact List.forall_mem_cons.mpr ⟨htype, hrest⟩
termination_by (sizeOf keys, sizeOf types + 1)

/-- An object: its properties, none if there is no such key. -/
theorem readFrom_of_readProperties {keys : Fields Json} {path : Path} {shape : Shape}
    (hchoice : Fields.get? (choiceKeyword keys) keys = none)
    (h : readProperties keys path = .ok shape) : ReadFrom (.obj keys) shape := by
  cases hproperties : Fields.get? "properties" keys with
  | none =>
    rw [readProperties_absent hproperties] at h
    have hlisted : listedProperties keys = [] := by rw [listedProperties, hproperties]
    exact readFrom_object hchoice hlisted ⟨rfl, fun _ h => absurd h List.not_mem_nil, .nil⟩ h
  | some value =>
    cases value with
    | obj schemas =>
      have hschemas : 1 + sizeOf schemas < sizeOf keys := sizeOf_lt_of_get?_obj hproperties
      rw [readProperties_present hproperties] at h
      obtain ⟨properties, hread, h⟩ := bind_eq_ok_iff.mp h
      have hlisted : listedProperties keys = schemas := by rw [listedProperties, hproperties]
      exact readFrom_object hchoice hlisted (propertiesReadFrom_of_readEach hread) h
    | _ =>
      rw [readProperties_malformed hproperties fun _ h => Json.noConfusion h] at h
      cases h
termination_by (sizeOf keys, 0)

theorem propertiesReadFrom_of_readEach {schemas : Fields Json} {required : Json} {path : Path}
    {properties : Fields Shape} (h : readEach schemas required path = .ok properties) :
    PropertiesReadFrom schemas properties := by
  cases hschemas : schemas with
  | nil =>
    rw [hschemas, readEach] at h
    cases h
    exact ⟨rfl, fun _ h => absurd h List.not_mem_nil, .nil⟩
  | cons property rest =>
    obtain ⟨name, schema⟩ := property
    have hsizes : sizeOf schema < sizeOf schemas ∧ sizeOf rest < sizeOf schemas := by
      rw [hschemas]
      simp
      omega
    rw [hschemas] at h
    exact propertiesReadFrom_cons (fun _ hread => readFrom_of_readSchema hread)
      (fun _ hread => propertiesReadFrom_of_readEach hread) h
termination_by (sizeOf schemas, 0)

end

/-- What is read of a whole schema is an object. -/
theorem ofSchema_eq_ok {schema : Json} {shape : Shape} (h : ofSchema schema = .ok shape) :
    ReadFrom schema shape ∧ ∃ properties, shape = .object properties := by
  obtain ⟨root, hroot, h⟩ := bind_eq_ok_iff.mp h
  split at h
  · cases h
    exact ⟨readFrom_of_readSchema hroot, _, rfl⟩
  · cases h

end SchemaForge.Shape
