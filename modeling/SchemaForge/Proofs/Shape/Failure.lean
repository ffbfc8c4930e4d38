import SchemaForge.Proofs.Shape.Reading

/-!
# `SchemaForge.Proofs.Shape.Failure` — how reading a schema can fail

Some keywords hold a list or an object of schemas, and a schema is regular when they do, in it and in
every schema below it. Reading a regular schema either gives an object or ends in a refusal, with one
exception: a list of types makes a union without a look at its length, so a list that offers fewer than
two types ends in the union's own error. Enumerations and choices of that length are refused or stand
for their only member.

As in `Reading`, there is one theorem for each function of the reader, and they call each other as the
functions do. `Explained` is what each of them says of an error.

## Contents
- **Parts.** `Subschema`, and `Regular` for schemas whose keywords hold what they should.
- **Types.** `Scant`, a list of types that is too short; `DecidedByType`.
- **Errors.** `Explained`, and what the functions without recursion can fail for.
- **Reading.** `explained_of_readSchema`, `ofSchema_answers`; `ofSchema_fails_for_no_types` is a schema
  that is neither read nor refused.

What is regular is decided key by key, so of a given schema `regular_of_parts` and `decide` show it.
-/

namespace SchemaForge

/-- Whether a value is a list. -/
def Json.IsList : Json → Prop
  | .arr _ => True
  | .null | .bool _ | .int _ | .float _ | .str _ | .obj _ => False

instance : DecidablePred Json.IsList
  | .arr _ => isTrue trivial
  | .null | .bool _ | .int _ | .float _ | .str _ | .obj _ => isFalse id

/-- Whether a value is an object. The names in it differ, as they do in one that is read. -/
def Json.IsRecord : Json → Prop
  | .obj members => (Fields.names members).Nodup
  | .null | .bool _ | .int _ | .float _ | .str _ | .arr _ => False

instance : DecidablePred Json.IsRecord
  | .obj members => inferInstanceAs (Decidable (Fields.names members).Nodup)
  | .null | .bool _ | .int _ | .float _ | .str _ | .arr _ => isFalse id

namespace Shape

/-! ## Parts -/

/-- `Subschema part schema`: the part is the schema, or stands below it as the schema of a property,
of the items of a list or of a variant. -/
inductive Subschema (part : Json) : Json → Prop where
  /-- A schema is a part of itself. -/
  | here : Subschema part part
  /-- A property has a schema. -/
  | property {keys properties : Fields Json} {property : String × Json} :
    Fields.get? "properties" keys = some (.obj properties) → property ∈ properties →
      Subschema part property.2 → Subschema part (.obj keys)
  /-- So have the items of a list. -/
  | items {keys : Fields Json} {item : Json} :
    Fields.get? "items" keys = some item → Subschema part item → Subschema part (.obj keys)
  /-- A variant is a schema. -/
  | variant {keys : Fields Json} {variants : List Json} {variant : Json} :
    Fields.get? (choiceKeyword keys) keys = some (.arr variants) → variant ∈ variants →
      Subschema part variant → Subschema part (.obj keys)

/-- **Whether the keywords of a schema hold what they should.** -/
structure WellKeyed (keys : Fields Json) : Prop where
  /-- The properties are an object. -/
  properties : ∀ value ∈ Fields.get? "properties" keys, value.IsRecord
  /-- What is required and the choices are lists. -/
  lists : ∀ keyword ∈ ["required", "enum", "anyOf", "oneOf"],
    ∀ value ∈ Fields.get? keyword keys, value.IsList

theorem wellKeyed_iff {keys : Fields Json} :
    WellKeyed keys ↔ (∀ value ∈ Fields.get? "properties" keys, value.IsRecord) ∧
      ∀ keyword ∈ ["required", "enum", "anyOf", "oneOf"],
        ∀ value ∈ Fields.get? keyword keys, value.IsList :=
  ⟨fun h => ⟨h.properties, h.lists⟩, fun h => ⟨h.1, h.2⟩⟩

instance : DecidablePred WellKeyed := fun _ => decidable_of_iff _ wellKeyed_iff.symm

/-- **Whether a schema is regular**: all its keywords, at every depth, hold what they should. -/
def Regular (schema : Json) : Prop := ∀ keys, Subschema (.obj keys) schema → WellKeyed keys

section

variable {keys : Fields Json}

theorem Regular.property (h : Regular (.obj keys)) {properties : Fields Json}
    {property : String × Json}
    (hproperties : Fields.get? "properties" keys = some (.obj properties))
    (hproperty : property ∈ properties) : Regular property.2 :=
  fun others hpart => h others (.property hproperties hproperty hpart)

theorem Regular.items (h : Regular (.obj keys)) {item : Json}
    (hitem : Fields.get? "items" keys = some item) : Regular item :=
  fun others hpart => h others (.items hitem hpart)

theorem Regular.variant (h : Regular (.obj keys)) {variants : List Json} {variant : Json}
    (hvariants : Fields.get? (choiceKeyword keys) keys = some (.arr variants))
    (hvariant : variant ∈ variants) : Regular variant :=
  fun others hpart => h others (.variant hvariants hvariant hpart)

/-- What holds of a schema's own keys, and at every depth of the schemas in it, holds at every depth. -/
theorem forall_subschema {p : Fields Json → Prop} (hkeys : p keys)
    (hproperties : ∀ properties, Fields.get? "properties" keys = some (.obj properties) →
      ∀ property ∈ properties, ∀ others, Subschema (.obj others) property.2 → p others)
    (hitems : ∀ item, Fields.get? "items" keys = some item →
      ∀ others, Subschema (.obj others) item → p others)
    (hvariants : ∀ variants, Fields.get? (choiceKeyword keys) keys = some (.arr variants) →
      ∀ variant ∈ variants, ∀ others, Subschema (.obj others) variant → p others) :
    ∀ others, Subschema (.obj others) (.obj keys) → p others := by
  intro others hpart
  cases hpart with
  | here => exact hkeys
  | property hfound hmem hpart => exact hproperties _ hfound _ hmem others hpart
  | items hfound hpart => exact hitems _ hfound others hpart
  | variant hfound hmem hpart => exact hvariants _ hfound _ hmem others hpart

/-- A schema is regular when its own keywords hold what they should and the schemas below it are. -/
theorem regular_of_parts (hkeyed : WellKeyed keys)
    (hproperties : ∀ properties, Fields.get? "properties" keys = some (.obj properties) →
      ∀ property ∈ properties, Regular property.2)
    (hitems : ∀ item, Fields.get? "items" keys = some item → Regular item)
    (hvariants : ∀ variants, Fields.get? (choiceKeyword keys) keys = some (.arr variants) →
      ∀ variant ∈ variants, Regular variant) : Regular (.obj keys) :=
  forall_subschema hkeyed hproperties hitems hvariants

theorem choiceKeyword_mem : choiceKeyword keys ∈ ["required", "enum", "anyOf", "oneOf"] := by
  unfold choiceKeyword
  split <;> decide

end

/-! ## Types -/

/-- **A type that offers too few alternatives**, or has such a type among them: `count` are left. -/
inductive Scant : Json → Nat → Prop where
  /-- The list is too short. -/
  | here {type : Json} {types : List Json} :
    soleType type = .arr types → types.length < 2 → Scant type types.length
  /-- One of the alternatives is such a type. -/
  | within {type alternative : Json} {types : List Json} {count : Nat} :
    soleType type = .arr types → alternative ∈ types → Scant alternative count → Scant type count

theorem Scant.count_lt {type : Json} {count : Nat} (h : Scant type count) : count < 2 := by
  induction h with
  | here _ hfew => exact hfew
  | within _ _ _ ih => exact ih

/-- **Whether a schema is read by its type**, since no other keyword comes before it. -/
structure DecidedByType (keys : Fields Json) (type : Json) : Prop where
  /-- It is no reference. -/
  ref : Fields.get? "$ref" keys = none
  /-- It is no constant. -/
  const : Fields.get? "const" keys = none
  /-- It is no enumeration. -/
  enum : Fields.get? "enum" keys = none
  /-- It is no choice. -/
  choice : Fields.get? (choiceKeyword keys) keys = none
  /-- It has the type. -/
  type : Fields.get? "type" keys = some type

section

variable {keys : Fields Json} {type : Json}

/-- Another type changes nothing but the type. -/
theorem get?_set_type {key : String} (hkey : key ≠ "type") (type : Json) (keys : Fields Json) :
    Fields.get? key (Fields.set "type" type keys) = Fields.get? key keys :=
  Fields.get?_set_of_ne hkey type keys

theorem choiceKeyword_set_type (type : Json) (keys : Fields Json) :
    choiceKeyword (Fields.set "type" type keys) = choiceKeyword keys := by
  rw [choiceKeyword, choiceKeyword, Fields.has, Fields.has, get?_set_type (by decide)]

theorem choiceKeyword_ne_type : choiceKeyword keys ≠ "type" := by
  unfold choiceKeyword
  split <;> decide

/-- With another type a schema is read by that type. -/
theorem DecidedByType.set_type (h : DecidedByType keys type) (other : Json) :
    DecidedByType (Fields.set "type" other keys) other where
  ref := (get?_set_type (by decide) other keys).trans h.ref
  const := (get?_set_type (by decide) other keys).trans h.const
  enum := (get?_set_type (by decide) other keys).trans h.enum
  choice := by
    rw [choiceKeyword_set_type, get?_set_type choiceKeyword_ne_type]
    exact h.choice
  type := Fields.get?_set_self "type" other keys

theorem DecidedByType.readSchema_eq (h : DecidedByType keys type) (path : Path) :
    readSchema (.obj keys) path = readTyped keys type path :=
  readSchema_type h.ref h.const h.enum h.choice h.type

end

/-! ## Errors -/

/-- **What reading a regular schema can fail for.** -/
inductive Explained (schema : Json) : ReadError → Prop where
  /-- A part is refused. -/
  | refused (refusal : Unsupported) : Explained schema (.unsupported refusal)
  /-- A part has a type that offers too few alternatives. -/
  | scantType {keys : Fields Json} {type : Json} {count : Nat} :
    Subschema (.obj keys) schema → DecidedByType keys type → Scant type count →
      Explained schema (.shape (.tooFewMembers count))

/-- What a part fails for the whole fails for. -/
theorem Explained.of_part {part schema : Json} {e : ReadError} (h : Explained part e)
    (hpart : ∀ other, Subschema other part → Subschema other schema) : Explained schema e := by
  cases h with
  | refused refusal => exact .refused refusal
  | scantType hother htype hscant => exact .scantType (hpart _ hother) htype hscant

/-- A sequence of readings fails when one of its parts does. -/
theorem bind_eq_error_iff {ε α β : Type} {first : Except ε α} {next : α → Except ε β} {e : ε} :
    first >>= next = .error e ↔ first = .error e ∨ ∃ a, first = .ok a ∧ next a = .error e := by
  cases first with
  | error e' =>
    constructor
    · intro h
      cases h
      exact Or.inl rfl
    · rintro (h | ⟨a, h, -⟩)
      · cases h
        rfl
      · cases h
  | ok a =>
    constructor
    · intro h
      exact Or.inr ⟨a, rfl, h⟩
    · rintro (h | ⟨a', ha, h⟩)
      · cases h
      · cases ha
        exact h

/-- A list that is read one by one fails for its first member or for the rest. -/
theorem eq_error_of_cons {ε α : Type} {first : Except ε α} {rest : Except ε (List α)} {e : ε}
    (h : (do return (← first) :: (← rest)) = .error e) : first = .error e ∨ rest = .error e := by
  rcases bind_eq_error_iff.mp h with h | ⟨a, -, h⟩
  · exact Or.inl h
  · rcases bind_eq_error_iff.mp h with h | ⟨others, -, h⟩
    · exact Or.inr h
    · cases h

variable {schema : Json} {path : Path} {e : ReadError}

theorem explained_of_refuse {α : Type} {construct : Construct}
    (h : (refuse construct path : Except ReadError α) = .error e) : Explained schema e := by
  cases h
  exact .refused _

theorem readUnion_eq_error {members : List Shape} (h : readUnion members = .error e) :
    members.length < 2 ∧ e = .shape (.tooFewMembers members.length) := by
  unfold readUnion unionOf at h
  split at h
  · next hfew =>
    cases h
    exact ⟨hfew, rfl⟩
  · cases h

/-- Where a list without members is refused and a sole member stands for itself, the rest makes a
union. -/
theorem explained_of_members {members : List Shape} {construct : Construct}
    (h : (match members with
      | [] => refuse construct path
      | [only] => pure only
      | members => readUnion members : Except ReadError Shape) = .error e) :
    Explained schema e := by
  match members with
  | [] => exact explained_of_refuse h
  | [only] => cases h
  | first :: second :: rest =>
    have hfew := (readUnion_eq_error h).1
    simp only [List.length_cons] at hfew
    omega

theorem readObject_ne_error {properties : Fields Shape} (h : (Fields.names properties).Nodup) :
    readObject properties ≠ .error e := by
  rw [readObject_eq_ok_iff.mpr ⟨h, rfl⟩]
  exact nofun

theorem isOptional_ne_error {name : String} {hasDefault : Bool} {required : Json}
    (h : required.IsList) : isOptional name hasDefault required ≠ .error e := by
  cases required with
  | arr items =>
    unfold isOptional
    split
    · exact nofun
    · exact nofun
  | _ => exact h.elim

theorem explained_of_readLiteral {value : Json} (h : readLiteral value path = .error e) :
    Explained schema e := by
  unfold readLiteral at h
  split at h
  · cases h
  · cases h
  · cases h
  · cases h
  · exact explained_of_refuse h
  · exact explained_of_refuse h
  · exact explained_of_refuse h

theorem explained_of_readLiterals {values : List Json} {index : Nat}
    (h : readLiterals path index values = .error e) : Explained schema e := by
  induction values generalizing index with
  | nil => cases h
  | cons value rest ih =>
    rw [readLiterals] at h
    rcases eq_error_of_cons h with h | h
    · exact explained_of_readLiteral h
    · exact ih h

theorem explained_of_readEnumeration {values : Json} (hvalues : values.IsList)
    (h : readEnumeration values path = .error e) : Explained schema e := by
  cases values with
  | arr values =>
    rw [readEnumeration, choices?] at h
    rcases bind_eq_error_iff.mp h with h | ⟨literals, -, h⟩
    · exact explained_of_readLiterals h
    · exact explained_of_members h
  | _ => exact hvalues.elim

/-! ## Reading -/

theorem length_of_readTypes {keys : Fields Json} {types : List Json} {shapes : List Shape}
    (h : readTypes keys types path = .ok shapes) : shapes.length = types.length := by
  induction types generalizing shapes with
  | nil =>
    rw [readTypes] at h
    cases h
    rfl
  | cons type rest ih =>
    rw [readTypes] at h
    obtain ⟨first, -, h⟩ := bind_eq_ok_iff.mp h
    obtain ⟨others, hothers, h⟩ := bind_eq_ok_iff.mp h
    cases h
    exact congrArg Nat.succ (ih hothers)

/-- **What reading a schema by a type can fail for**: the type, or a schema below. -/
def TypeExplained (keys : Fields Json) (type : Json) (e : ReadError) : Prop :=
  Explained (.obj keys) e ∨ ∃ count, e = .shape (.tooFewMembers count) ∧ Scant type count

/-- What an alternative fails for the type fails for. -/
theorem TypeExplained.within {keys : Fields Json} {type alternative : Json} {types : List Json}
    (h : TypeExplained keys alternative e) (htype : soleType type = .arr types)
    (halternative : alternative ∈ types) : TypeExplained keys type e := by
  rcases h with h | ⟨count, rfl, hscant⟩
  · exact Or.inl h
  · exact Or.inr ⟨count, rfl, .within htype halternative hscant⟩

-- As in `Reading`: one theorem for each part of the reader, with the measure of its part. A type is
-- explained by the schema that it decides, and one of its alternatives only by `TypeExplained`.
mutual

/-- **Whatever a regular schema fails for is explained.** -/
theorem explained_of_readSchema {schema : Json} {path : Path} {e : ReadError}
    (hregular : Regular schema) (h : readSchema schema path = .error e) : Explained schema e := by
  -- The first of its keys decides.
  cases hschema : schema with
  | obj keys =>
    rw [hschema] at h hregular
    have hkeys : sizeOf keys < sizeOf schema := by
      rw [hschema, Json.obj.sizeOf_spec]
      omega
    have hkeyed : WellKeyed keys := hregular keys .here
    cases decision keys with
    | reference target href =>
      rw [readSchema_ref href] at h
      exact explained_of_refuse h
    | constant value href hconst =>
      rw [readSchema_const href hconst] at h
      exact explained_of_readLiteral h
    | enumeration values href hconst henum =>
      rw [readSchema_enum href hconst henum] at h
      exact explained_of_readEnumeration (hkeyed.lists "enum" (by decide) values henum) h
    | choice variants href hconst henum hchoice =>
      have hvariants := Fields.sizeOf_lt_of_get? hchoice
      rw [readSchema_choice href hconst henum hchoice] at h
      exact explained_of_readChoice hregular hchoice h
    | type type href hconst henum hchoice htype =>
      rw [readSchema_type href hconst henum hchoice htype] at h
      rcases explained_of_readTyped hregular h with h | ⟨count, rfl, hscant⟩
      · exact h
      · exact .scantType .here ⟨href, hconst, henum, hchoice, htype⟩ hscant
    | untyped href hconst henum hchoice htype =>
      rw [readSchema_untyped href hconst henum hchoice htype] at h
      by_cases hproperties : Fields.has "properties" keys
      · rw [if_pos hproperties] at h
        exact explained_of_readProperties hregular h
      · rw [if_neg hproperties] at h
        exact explained_of_refuse h
  | _ =>
    rw [hschema, readSchema_not_object fun _ h => Json.noConfusion h] at h
    exact explained_of_refuse h
termination_by (sizeOf schema, 0)

/-- A choice fails for one of its variants, or is refused for having none. -/
theorem explained_of_readChoice {keys : Fields Json} {variants : Json} {path : Path} {e : ReadError}
    (hregular : Regular (.obj keys)) (hfound : Fields.get? (choiceKeyword keys) keys = some variants)
    (h : readChoice variants (choiceKeyword keys) path = .error e) : Explained (.obj keys) e := by
  cases variants with
  | arr variants =>
    rw [readChoice] at h
    rcases bind_eq_error_iff.mp h with h | ⟨shapes, -, h⟩
    · obtain ⟨variant, hvariant, hexplained⟩ :=
        explained_of_readVariants (fun _ => hregular.variant hfound) h
      exact hexplained.of_part fun _ => .variant hfound hvariant
    · exact explained_of_members h
  | _ => exact ((hregular keys .here).lists _ choiceKeyword_mem _ hfound).elim
termination_by (sizeOf variants, 1)

theorem explained_of_readVariants {variants : List Json} {keyword : String} {path : Path}
    {index : Nat} {e : ReadError} (hregular : ∀ variant ∈ variants, Regular variant)
    (h : readVariants variants keyword path index = .error e) :
    ∃ variant ∈ variants, Explained variant e := by
  cases variants with
  | nil =>
    rw [readVariants] at h
    cases h
  | cons variant rest =>
    obtain ⟨hvariant, hrest⟩ := List.forall_mem_cons.mp hregular
    rw [readVariants] at h
    rcases eq_error_of_cons h with h | h
    · exact ⟨variant, List.mem_cons_self, explained_of_readSchema hvariant h⟩
    · obtain ⟨other, hother, hexplained⟩ := explained_of_readVariants hrest h
      exact ⟨other, List.mem_cons_of_mem _ hother, hexplained⟩
termination_by (sizeOf variants, 0)

/-- A type fails for itself when it offers too few alternatives, else for a schema below. -/
theorem explained_of_readTyped {keys : Fields Json} {type : Json} {path : Path} {e : ReadError}
    (hregular : Regular (.obj keys)) (h : readTyped keys type path = .error e) :
    TypeExplained keys type e := by
  cases typeCase keys type with
  | types types htypes =>
    have hsmaller := sizeOf_lt_of_soleType htypes
    rw [readTyped_types htypes] at h
    rcases bind_eq_error_iff.mp h with h | ⟨members, hmembers, h⟩
    · obtain ⟨alternative, halternative, hexplained⟩ := explained_of_readTypes hregular h
      exact hexplained.within htypes halternative
    · -- Nobody has looked at the length of the list before the union does.
      obtain ⟨hfew, rfl⟩ := readUnion_eq_error h
      rw [length_of_readTypes hmembers] at hfew ⊢
      exact Or.inr ⟨types.length, rfl, .here htypes hfew⟩
  -- Only an object and a list have parts that can fail.
  | string hstring =>
    rw [readTyped_string hstring] at h
    cases h
  | number hnumber =>
    rw [readTyped_number hnumber] at h
    cases h
  | boolean hboolean =>
    rw [readTyped_boolean hboolean] at h
    cases h
  | object hobject =>
    rw [readTyped_object hobject] at h
    exact Or.inl (explained_of_readProperties hregular h)
  | array item harray hitem =>
    have hsmaller : 1 + sizeOf item < sizeOf keys := sizeOf_lt_of_get?_obj hitem
    rw [readTyped_array harray hitem] at h
    rcases bind_eq_error_iff.mp h with h | ⟨items, -, h⟩
    · have hexplained := explained_of_readSchema (hregular.items hitem) h
      exact Or.inl (hexplained.of_part fun _ => .items hitem)
    · cases h
  | bareArray harray hitems =>
    rw [readTyped_unspecifiedItems harray hitems] at h
    exact Or.inl (explained_of_refuse h)
  | unknown htypes hstring hnumber hboolean hobject harray =>
    rw [readTyped_unknown htypes hstring hnumber hboolean hobject harray] at h
    exact Or.inl (explained_of_refuse h)
termination_by (sizeOf keys, sizeOf type + 1)

theorem explained_of_readTypes {keys : Fields Json} {types : List Json} {path : Path}
    {e : ReadError} (hregular : Regular (.obj keys)) (h : readTypes keys types path = .error e) :
    ∃ alternative ∈ types, TypeExplained keys alternative e := by
  cases types with
  | nil =>
    rw [readTypes] at h
    cases h
  | cons type rest =>
    rw [readTypes] at h
    rcases eq_error_of_cons h with h | h
    · exact ⟨type, List.mem_cons_self, explained_of_readTyped hregular h⟩
    · obtain ⟨other, hother, hexplained⟩ := explained_of_readTypes hregular h
      exact ⟨other, List.mem_cons_of_mem _ hother, hexplained⟩
termination_by (sizeOf keys, sizeOf types + 1)

/-- An object fails for the schema of a property: its properties are an object whose names differ. -/
theorem explained_of_readProperties {keys : Fields Json} {path : Path} {e : ReadError}
    (hregular : Regular (.obj keys)) (h : readProperties keys path = .error e) :
    Explained (.obj keys) e := by
  have hkeyed : WellKeyed keys := hregular keys .here
  cases hproperties : Fields.get? "properties" keys with
  | none =>
    rw [readProperties_absent hproperties] at h
    exact absurd h (readObject_ne_error List.nodup_nil)
  | some value =>
    have hrecord := hkeyed.properties value hproperties
    cases value with
    | obj schemas =>
      have hschemas : 1 + sizeOf schemas < sizeOf keys := sizeOf_lt_of_get?_obj hproperties
      have hrequired : ((Fields.get? "required" keys).getD (.arr [])).IsList := by
        cases hfound : Fields.get? "required" keys with
        | none => trivial
        | some required => exact hkeyed.lists "required" (by decide) required hfound
      rw [readProperties_present hproperties] at h
      rcases bind_eq_error_iff.mp h with h | ⟨properties, hread, h⟩
      · obtain ⟨property, hproperty, hexplained⟩ :=
          explained_of_readEach (fun _ => hregular.property hproperties) hrequired h
        exact hexplained.of_part fun _ => .property hproperties hproperty
      · have hsame := (propertiesReadFrom_of_readEach hread).names_eq
        exact absurd h (readObject_ne_error (hsame ▸ hrecord))
    | _ => exact hrecord.elim
termination_by (sizeOf keys, 0)

theorem explained_of_readEach {schemas : Fields Json} {required : Json} {path : Path} {e : ReadError}
    (hregular : ∀ property ∈ schemas, Regular property.2) (hrequired : required.IsList)
    (h : readEach schemas required path = .error e) :
    ∃ property ∈ schemas, Explained property.2 e := by
  cases hschemas : schemas with
  | nil =>
    rw [hschemas, readEach] at h
    cases h
  | cons property rest =>
    obtain ⟨name, schema⟩ := property
    have hsizes : sizeOf schema < sizeOf schemas ∧ sizeOf rest < sizeOf schemas := by
      rw [hschemas]
      simp
      omega
    rw [hschemas] at h hregular
    obtain ⟨hproperty, hrest⟩ := List.forall_mem_cons.mp hregular
    unfold readEach at h
    rcases bind_eq_error_iff.mp h with h | ⟨shape, -, h⟩
    · exact ⟨(name, schema), List.mem_cons_self, explained_of_readSchema hproperty h⟩
    · rcases bind_eq_error_iff.mp h with h | ⟨isOptional, -, h⟩
      · exact absurd h (isOptional_ne_error hrequired)
      · rcases bind_eq_error_iff.mp h with h | ⟨others, -, h⟩
        · obtain ⟨other, hother, hexplained⟩ := explained_of_readEach hrest hrequired h
          exact ⟨other, List.mem_cons_of_mem _ hother, hexplained⟩
        · cases h
termination_by (sizeOf schemas, 0)

end

/-- **What comes of reading a regular schema**: an object, a refusal, or the error of a union that has
too few members, and then some part of the schema is read by a type that offers too few. -/
theorem ofSchema_answers {schema : Json} (hregular : Regular schema) :
    (∃ properties, ofSchema schema = .ok (.object properties)) ∨
    (∃ refusal, ofSchema schema = .error (.unsupported refusal)) ∨
    ∃ count < 2, ofSchema schema = .error (.shape (.tooFewMembers count)) ∧
      ∃ keys type, Subschema (.obj keys) schema ∧ DecidedByType keys type ∧ Scant type count := by
  have hexplained {e : ReadError} (h : ofSchema schema = .error e) : Explained schema e := by
    rcases bind_eq_error_iff.mp h with h | ⟨root, -, h⟩
    · exact explained_of_readSchema hregular h
    · split at h
      · cases h
      · exact explained_of_refuse h
  cases h : ofSchema schema with
  | ok shape =>
    obtain ⟨-, properties, rfl⟩ := ofSchema_eq_ok h
    exact Or.inl ⟨properties, rfl⟩
  | error e =>
    cases hexplained h with
    | refused refusal => exact Or.inr (Or.inl ⟨refusal, rfl⟩)
    | @scantType keys type count hpart htype hscant =>
      exact Or.inr (Or.inr ⟨count, hscant.count_lt, rfl, keys, type, hpart, htype, hscant⟩)

/-- The second variant is refused: one of its two types is unknown. -/
theorem ofSchema_answers_for_unknown_type :
    let schema : Json := .obj [("type", .arr [.str "object"]), ("required", .arr [.str "a"]),
      ("properties", .obj [("a", .obj [("anyOf", .arr [.obj [("enum", .arr [.bool true])],
        .obj [("type", .arr [.str "string", .str "date"])]])])])]
    Regular schema ∧
      ((∃ properties, ofSchema schema = .ok (.object properties)) ∨
      (∃ refusal, ofSchema schema = .error (.unsupported refusal)) ∨
      ∃ count < 2, ofSchema schema = .error (.shape (.tooFewMembers count)) ∧
        ∃ keys type, Subschema (.obj keys) schema ∧ DecidedByType keys type ∧ Scant type count) := by
  intro schema
  have henumeration : Regular (.obj [("enum", .arr [.bool true])]) :=
    regular_of_parts (by decide) nofun nofun nofun
  have htypes : Regular (.obj [("type", .arr [.str "string", .str "date"])]) :=
    regular_of_parts (by decide) nofun nofun nofun
  have hchoice : Regular (.obj [("anyOf", .arr [.obj [("enum", .arr [.bool true])],
      .obj [("type", .arr [.str "string", .str "date"])]])]) := by
    refine regular_of_parts (by decide) nofun nofun ?_
    rintro variants ⟨⟩
    exact List.forall_mem_cons.mpr ⟨henumeration, List.forall_mem_singleton.mpr htypes⟩
  have hschema : Regular schema := by
    refine regular_of_parts (by decide) ?_ nofun nofun
    rintro properties ⟨⟩
    exact List.forall_mem_singleton.mpr hchoice
  exact ⟨hschema, ofSchema_answers hschema⟩

/-- **A schema that is neither read nor refused**: a property may be of no type at all. -/
theorem ofSchema_fails_for_no_types :
    let schema : Json := .obj [("properties", .obj [("a", .obj [("type", .arr [])])])]
    Regular schema ∧ ofSchema schema = .error (.shape (.tooFewMembers 0)) := by
  intro schema
  have hproperty : Regular (.obj [("type", .arr [])]) :=
    regular_of_parts (by decide) nofun nofun nofun
  have hschema : Regular schema := by
    refine regular_of_parts (by decide) ?_ nofun nofun
    rintro properties ⟨⟩
    exact List.forall_mem_singleton.mpr hproperty
  have hhas : Fields.has "properties" [("properties", Json.obj [("a", .obj [("type", .arr [])])])] =
      true := rfl
  refine ⟨hschema, ?_⟩
  rw [ofSchema, readSchema_untyped rfl rfl rfl rfl rfl, if_pos hhas, readProperties_present rfl,
    readEach, readSchema_type rfl rfl rfl rfl rfl, readTyped_types rfl, readTypes]
  rfl

end Shape

end SchemaForge
