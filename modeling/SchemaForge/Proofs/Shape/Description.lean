import SchemaForge.Proofs.Shape.Reading

/-!
# `SchemaForge.Proofs.Shape.Description` — the schema that describes a shape

Every shape that can be placed is described by a schema, in one canonical way, and reading that
schema gives the shape back: the reader forgets nothing, and there is no shape that it cannot reach.

A property's default stands among the keys of the schema of its value, behind them. So the claim
about a shape is made for its own keys with any others behind them that the reader does not ask for
(`Recovered`), and a property that is optional is recovered through the value that is.

## Contents
- **Descriptions.** `schemaKeys` and `describe`.
- **Describable shapes.** `Describable`, the condition on a part at its place.
- **Keys.** What looking up a key of a description gives.
- **Recovery.** `recovered_content`, from one lemma for each kind of shape, and
  `ofSchema_describe`.
-/

namespace SchemaForge.Shape

/-! ## Descriptions -/

/-- The key of a demand. Null demands nothing. -/
def demanded (key : String) (value : Json) : Fields Json :=
  if value.isNull then [] else [(key, value)]

/-- The key of a default, if there is one. No key holds a default that is no JSON value. -/
def defaulted (default : Default) (hasDefault : Json) : Fields Json :=
  match default with
  | .json value => if hasDefault.isVacant then [] else [("default", value)]
  | .surrogates _ | .tuple _ => []

/-- The names of the properties that are not optional. -/
def requiredNames : Fields Shape → List String
  | [] => []
  | (_, .optional ..) :: rest => requiredNames rest
  | (name, _) :: rest => name :: requiredNames rest

mutual

/-- The keys of the schema that describes a shape. None describes what is no shape. -/
def schemaKeys : Shape → Fields Json
  | .string minLength maxLength pattern =>
    ("type", .str "string") :: (demanded "minLength" minLength ++ demanded "maxLength" maxLength ++
      demanded "pattern" pattern)
  | .number minimum maximum =>
    ("type", .str "number") :: (demanded "minimum" minimum ++ demanded "maximum" maximum)
  | .boolean => [("type", .str "boolean")]
  | .literal value => [("const", value)]
  | .object properties =>
    [("type", .str "object"), ("properties", .obj (propertySchemas properties)),
      ("required", .arr ((requiredNames properties).map .str))]
  | .array items => [("type", .str "array"), ("items", .obj (schemaKeys items))]
  | .union members => [("anyOf", .arr (memberSchemas members))]
  | .optional inner default hasDefault => schemaKeys inner ++ defaulted default hasDefault
  | .foreign _ => []

/-- The schemas of properties, in their order. -/
def propertySchemas : List (String × Shape) → Fields Json
  | [] => []
  | (name, shape) :: rest => (name, .obj (schemaKeys shape)) :: propertySchemas rest

/-- The schemas of the members of a union, in their order. -/
def memberSchemas : List Shape → List Json
  | [] => []
  | member :: rest => .obj (schemaKeys member) :: memberSchemas rest

end

/-- The schema that describes a shape. -/
def describe (shape : Shape) : Json := .obj (schemaKeys shape)

/-! ## Describable shapes -/

/-- **What a schema can describe at a place**: what can be placed there, where an optional value
either has a default, which is a JSON value as all that stands in a schema, or has none and keeps
null for it. -/
def Describable (place : Place) : Shape → Prop
  | .optional inner default hasDefault =>
    Placed place (.optional inner default hasDefault) ∧
      (hasDefault = .bool true ∧ (∃ value, default = .json value) ∨
        hasDefault = .bool false ∧ default = .null)
  | shape => Placed place shape

/-- What a shape describes apart from being optional. -/
def content : Shape → Shape
  | .optional inner _ _ => inner
  | shape => shape

theorem content_of_not_optional {shape : Shape} (h : ¬ shape.IsOptional) :
    shape.content = shape := by
  cases shape with
  | optional => exact absurd trivial h
  | _ => rfl

/-! ## Keys -/

/-- A demand is found under its own key. -/
theorem get?_demanded {key name : String} {value : Json} :
    Fields.get? key (demanded name value) =
      if name = key ∧ value.isNull = false then some value else none := by
  unfold demanded
  cases value.isNull <;> simp [Fields.get?]

/-- The keys that decide how a schema is read before its type does. -/
def decidingKeys : List String := ["$ref", "const", "enum", "anyOf", "oneOf"]

/-- A schema that says nothing else is read by its type. -/
theorem readSchema_of_type {keys : Fields Json} {type : Json} {path : Path}
    (hdeciding : ∀ key ∈ decidingKeys, Fields.get? key keys = none)
    (htype : Fields.get? "type" keys = some type) :
    readSchema (.obj keys) path = readTyped keys type path := by
  have hchoice : Fields.get? (choiceKeyword keys) keys = none := by
    unfold choiceKeyword
    split <;> exact hdeciding _ (by decide)
  exact readSchema_type (hdeciding _ (by decide)) (hdeciding _ (by decide))
    (hdeciding _ (by decide)) hchoice htype

/-- Whether fields hold at most a default. -/
def OnlyDefault (fields : Fields Json) : Prop :=
  ∀ key, key ≠ "default" → Fields.get? key fields = none

theorem onlyDefault_nil : OnlyDefault [] := fun _ _ => rfl

theorem onlyDefault_defaulted (default : Default) (hasDefault : Json) :
    OnlyDefault (defaulted default hasDefault) := by
  intro key hkey
  cases default with
  | json value =>
    rw [defaulted]
    split
    · rfl
    · rw [Fields.get?, if_neg (Ne.symm hkey)]
      rfl
  | _ => rfl

/-- Behind other keys a default changes nothing but itself. -/
theorem get?_append_of_onlyDefault {key : String} {keys extra : Fields Json}
    (hextra : OnlyDefault extra) (hkey : key ≠ "default") :
    Fields.get? key (keys ++ extra) = Fields.get? key keys := by
  rw [Fields.get?_append, hextra key hkey, Option.or_none]

/-- No shape that is not optional describes a default. -/
theorem get?_default_schemaKeys {shape : Shape} (hshape : ¬ shape.IsOptional) :
    Fields.get? "default" (schemaKeys shape) = none := by
  cases shape with
  | optional => exact absurd trivial hshape
  | string => simp [schemaKeys, Fields.get?, Fields.get?_append, get?_demanded]
  | number => simp [schemaKeys, Fields.get?, Fields.get?_append, get?_demanded]
  | _ => simp [schemaKeys, Fields.get?]

/-! ## Recovery -/

/-- **Whether reading recovers a shape** from its keys, with or without a default behind them. -/
def Recovered (shape : Shape) : Prop :=
  ∀ extra path, OnlyDefault extra → readSchema (.obj (schemaKeys shape ++ extra)) path = .ok shape

/-- A description with a type, whatever default stands behind it, is read by that type. -/
theorem readSchema_schemaKeys {shape : Shape} {type : Json} {extra : Fields Json} {path : Path}
    (hextra : OnlyDefault extra)
    (hdeciding : ∀ key ∈ decidingKeys, Fields.get? key (schemaKeys shape) = none)
    (htype : Fields.get? "type" (schemaKeys shape) = some type) :
    readSchema (.obj (schemaKeys shape ++ extra)) path
      = readTyped (schemaKeys shape ++ extra) type path := by
  refine readSchema_of_type (fun key hkey => ?_) ?_
  · have hdefault : key ≠ "default" := by
      rintro rfl
      exact absurd hkey (by decide)
    rw [get?_append_of_onlyDefault hextra hdefault, hdeciding key hkey]
  · rw [get?_append_of_onlyDefault hextra (by decide), htype]

/-- A demand is read as it was made. -/
theorem keyword_append {key : String} {keys extra : Fields Json} (value : Json)
    (hextra : OnlyDefault extra) (hkey : key ≠ "default")
    (hvalue : Fields.get? key keys = if value.isNull = false then some value else none) :
    keyword key (keys ++ extra) = value := by
  rw [keyword, get?_append_of_onlyDefault hextra hkey, hvalue]
  cases value <;> rfl

theorem recovered_string (minLength maxLength pattern : Json) :
    Recovered (.string minLength maxLength pattern) := by
  intro extra path hextra
  have hdeciding : ∀ key ∈ decidingKeys,
      Fields.get? key (schemaKeys (.string minLength maxLength pattern)) = none := by
    simp [decidingKeys, schemaKeys, Fields.get?, Fields.get?_append, get?_demanded]
  rw [readSchema_schemaKeys hextra hdeciding rfl, readTyped_string rfl,
    keyword_append minLength hextra (by decide),
    keyword_append maxLength hextra (by decide),
    keyword_append pattern hextra (by decide)]
  · simp [schemaKeys, Fields.get?, Fields.get?_append, get?_demanded]
  · simp [schemaKeys, Fields.get?, Fields.get?_append, get?_demanded]
  · simp [schemaKeys, Fields.get?, Fields.get?_append, get?_demanded]

theorem recovered_number (minimum maximum : Json) : Recovered (.number minimum maximum) := by
  intro extra path hextra
  have hdeciding : ∀ key ∈ decidingKeys,
      Fields.get? key (schemaKeys (.number minimum maximum)) = none := by
    simp [decidingKeys, schemaKeys, Fields.get?, Fields.get?_append, get?_demanded]
  rw [readSchema_schemaKeys hextra hdeciding rfl, readTyped_number rfl,
    keyword_append minimum hextra (by decide),
    keyword_append maximum hextra (by decide)]
  · simp [schemaKeys, Fields.get?, Fields.get?_append, get?_demanded]
  · simp [schemaKeys, Fields.get?, Fields.get?_append, get?_demanded]

theorem recovered_boolean : Recovered .boolean := by
  intro extra path hextra
  have hdeciding : ∀ key ∈ decidingKeys, Fields.get? key (schemaKeys .boolean) = none := by
    simp [decidingKeys, schemaKeys, Fields.get?]
  rw [readSchema_schemaKeys hextra hdeciding rfl, readTyped_boolean rfl]

theorem recovered_literal {value : Json} (hvalue : value.IsPrimitive) :
    Recovered (.literal value) := by
  intro extra path hextra
  have href : Fields.get? "$ref" (schemaKeys (.literal value) ++ extra) = none :=
    get?_append_of_onlyDefault hextra (by decide)
  have hconst : Fields.get? "const" (schemaKeys (.literal value) ++ extra) = some value :=
    get?_append_of_onlyDefault hextra (by decide)
  rw [readSchema_const href hconst]
  cases value with
  | null => exact hvalue.elim
  | arr => exact hvalue.elim
  | obj => exact hvalue.elim
  | _ => rfl

theorem recovered_array {items : Shape} (hitems : Recovered items) : Recovered (.array items) := by
  intro extra path hextra
  have hdeciding : ∀ key ∈ decidingKeys, Fields.get? key (schemaKeys (.array items)) = none := by
    simp [decidingKeys, schemaKeys, Fields.get?]
  have hfound : Fields.get? "items" (schemaKeys (.array items) ++ extra)
      = some (.obj (schemaKeys items)) := get?_append_of_onlyDefault hextra (by decide)
  have hread := hitems [] (path.child "items") onlyDefault_nil
  rw [List.append_nil] at hread
  rw [readSchema_schemaKeys hextra hdeciding rfl, readTyped_array rfl hfound, hread]
  rfl

theorem readVariants_memberSchemas {members : List Shape}
    (h : ∀ member ∈ members, Recovered member) (keyword : String) (path : Path) (index : Nat) :
    readVariants (memberSchemas members) keyword path index = .ok members := by
  induction members generalizing index with
  | nil => rw [memberSchemas, readVariants]
  | cons member rest ih =>
    have hfirst := h member List.mem_cons_self [] (path.element keyword index) onlyDefault_nil
    have hrest := ih (fun other hother => h other (List.mem_cons_of_mem _ hother)) (index + 1)
    rw [List.append_nil] at hfirst
    rw [memberSchemas, readVariants, hfirst, hrest]
    rfl

theorem recovered_union {members : List Shape} (htwo : 2 ≤ members.length)
    (h : ∀ member ∈ members, Recovered member) : Recovered (.union members) := by
  intro extra path hextra
  have hlookup (key : String) (hkey : key ≠ "default") :
      Fields.get? key (schemaKeys (.union members) ++ extra)
        = Fields.get? key (schemaKeys (.union members)) := get?_append_of_onlyDefault hextra hkey
  have hkeyword : choiceKeyword (schemaKeys (.union members) ++ extra) = "anyOf" := by
    rw [choiceKeyword, Fields.has, hlookup "anyOf" (by decide)]
    rfl
  have hfound : Fields.get? (choiceKeyword (schemaKeys (.union members) ++ extra))
      (schemaKeys (.union members) ++ extra) = some (.arr (memberSchemas members)) := by
    rw [hkeyword, hlookup "anyOf" (by decide)]
    rfl
  rw [readSchema_choice (hlookup "$ref" (by decide)) (hlookup "const" (by decide))
    (hlookup "enum" (by decide)) hfound, hkeyword, readChoice,
    readVariants_memberSchemas h]
  -- Two members are neither none nor the only one.
  cases members with
  | nil => simp at htwo
  | cons first rest =>
    cases rest with
    | nil => simp at htwo
    | cons second rest => exact readUnion_eq_ok_iff.mpr ⟨htwo, rfl⟩

/-! ### Properties -/

/-- What is listed as required is among the names. -/
theorem mem_names_of_mem_requiredNames {name : String} {properties : Fields Shape}
    (h : name ∈ requiredNames properties) : name ∈ Fields.names properties := by
  induction properties with
  | nil => exact h
  | cons property rest ih =>
    obtain ⟨key, shape⟩ := property
    cases shape with
    | optional => exact List.mem_cons_of_mem _ (ih h)
    | _ =>
      rcases List.mem_cons.mp h with rfl | h
      · exact List.mem_cons_self
      · exact List.mem_cons_of_mem _ (ih h)

/-- As the names differ, exactly the properties that are not optional are required. -/
theorem mem_requiredNames_iff {properties : Fields Shape}
    (hdistinct : (Fields.names properties).Nodup) {property : String × Shape}
    (hproperty : property ∈ properties) :
    property.1 ∈ requiredNames properties ↔ ¬ property.2.IsOptional := by
  induction properties with
  | nil => exact absurd hproperty List.not_mem_nil
  | cons first rest ih =>
    obtain ⟨key, shape⟩ := first
    obtain ⟨hnew, hrest⟩ : key ∉ Fields.names rest ∧ (Fields.names rest).Nodup :=
      List.nodup_cons.mp hdistinct
    rcases List.mem_cons.mp hproperty with rfl | hlater
    · cases shape with
      | optional =>
        refine ⟨?_, fun h => absurd trivial h⟩
        intro h
        have hlater : key ∈ requiredNames rest := h
        exact absurd (mem_names_of_mem_requiredNames hlater) hnew
      | _ => exact ⟨fun _ => id, fun _ => List.mem_cons_self⟩
    · have hother : property.1 ≠ key := by
        rintro rfl
        exact hnew (List.mem_map_of_mem hlater)
      cases shape with
      | optional => exact ih hrest hlater
      | _ => exact (List.mem_cons.trans (or_iff_right hother)).trans (ih hrest hlater)

/-- A name is looked up among the required ones as it stands. -/
theorem requires?_names (name : String) (names : List String) :
    requires? name (.arr (names.map .str)) = some (decide (name ∈ names)) := by
  have hagrees (other : String) : (Json.str name).agrees (.str other) = decide (name = other) := by
    simp [Json.agrees]
  simp [requires?, hagrees, List.any_eq]

/-- A property whose value is required says so, and one that is optional does not. -/
def Listed (required : Json) (property : String × Shape) : Prop :=
  (property.2.IsOptional → requires? property.1 required = some false) ∧
    (¬ property.2.IsOptional → requires? property.1 required = some true)

theorem listed_requiredNames {properties : Fields Shape}
    (hdistinct : (Fields.names properties).Nodup) {property : String × Shape}
    (hproperty : property ∈ properties) :
    Listed (.arr ((requiredNames properties).map .str)) property := by
  have hmem := mem_requiredNames_iff hdistinct hproperty
  rw [Listed, requires?_names]
  exact ⟨fun h => congrArg some (decide_eq_false fun hname => hmem.mp hname h),
    fun h => congrArg some (decide_eq_true (hmem.mpr h))⟩

/-- A property that is optional is read as it was: with a default it is so at once, and without one
it is not required. -/
theorem readEach_optional {name : String} {inner : Shape} {default : Default}
    {hasDefault required : Json} {path : Path}
    (hdescribable : Describable .property (.optional inner default hasDefault))
    (hlisted : Listed required (name, .optional inner default hasDefault))
    (hinner : Recovered inner) (rest : Fields Json) :
    readEach ((name, .obj (schemaKeys (.optional inner default hasDefault))) :: rest) required path
      = do
        return (name, .optional inner default hasDefault) :: (← readEach rest required path) := by
  obtain ⟨⟨-, hplain⟩, hdefault⟩ := hdescribable
  have hread := hinner (defaulted default hasDefault) ((path.child "properties").child name)
    (onlyDefault_defaulted default hasDefault)
  have hkey : Fields.get? "default" (schemaKeys inner ++ defaulted default hasDefault)
      = Fields.get? "default" (defaulted default hasDefault) := by
    rw [Fields.get?_append, get?_default_schemaKeys hplain, Option.none_or]
  rw [schemaKeys, readEach, hread]
  rcases hdefault with ⟨rfl, value, rfl⟩ | ⟨rfl, rfl⟩
  · have hfound : Fields.get? "default" (schemaKeys inner ++ defaulted (.json value) (.bool true))
      = some value := hkey
    simp only [hfound]
    rfl
  · have hfound : Fields.get? "default" (schemaKeys inner ++ defaulted .null (.bool false))
      = none := hkey
    have hnot : isOptional name false required = .ok true := by
      rw [isOptional, hlisted.1 trivial]
      rfl
    simp only [hfound, Option.isSome_none]
    rw [hnot]
    rfl

/-- So is a property that is not: it has no default and is required. -/
theorem readEach_plain {name : String} {shape : Shape} {required : Json} {path : Path}
    (hplain : ¬ shape.IsOptional) (hlisted : Listed required (name, shape))
    (hshape : Recovered shape) (rest : Fields Json) :
    readEach ((name, .obj (schemaKeys shape)) :: rest) required path
      = do return (name, shape) :: (← readEach rest required path) := by
  have hread := hshape [] ((path.child "properties").child name) onlyDefault_nil
  rw [List.append_nil] at hread
  have hfound : Fields.get? "default" (schemaKeys shape) = none := get?_default_schemaKeys hplain
  have hnot : isOptional name false required = .ok false := by
    rw [isOptional, hlisted.2 hplain]
    rfl
  rw [readEach, hread]
  simp only [hfound, Option.isSome_none]
  rw [hnot]
  rfl

/-- The properties of an object are recovered one after another. -/
theorem readEach_propertySchemas {properties : Fields Shape} {required : Json}
    (hdescribable : ∀ property ∈ properties, Describable .property property.2)
    (hlisted : ∀ property ∈ properties, Listed required property)
    (h : ∀ property ∈ properties, Recovered property.2.content) (path : Path) :
    readEach (propertySchemas properties) required path = .ok properties := by
  induction properties with
  | nil => rw [propertySchemas, readEach]
  | cons property rest ih =>
    obtain ⟨name, shape⟩ := property
    have hfirst := h (name, shape) List.mem_cons_self
    have hrest := ih (fun other hother => hdescribable other (List.mem_cons_of_mem _ hother))
      (fun other hother => hlisted other (List.mem_cons_of_mem _ hother))
      (fun other hother => h other (List.mem_cons_of_mem _ hother))
    rw [propertySchemas]
    by_cases hoptional : shape.IsOptional
    · cases shape with
      | optional inner default hasDefault =>
        rw [readEach_optional (hdescribable _ List.mem_cons_self) (hlisted _ List.mem_cons_self)
          hfirst, hrest]
        rfl
      | _ => exact hoptional.elim
    · have hshape : Recovered shape := by
        rw [← content_of_not_optional hoptional]
        exact hfirst
      rw [readEach_plain hoptional (hlisted _ List.mem_cons_self) hshape, hrest]
      rfl

theorem recovered_object {properties : Fields Shape}
    (hdistinct : (Fields.names properties).Nodup)
    (hdescribable : ∀ property ∈ properties, Describable .property property.2)
    (h : ∀ property ∈ properties, Recovered property.2.content) :
    Recovered (.object properties) := by
  intro extra path hextra
  have hlookup (key : String) (hkey : key ≠ "default") :
      Fields.get? key (schemaKeys (.object properties) ++ extra)
        = Fields.get? key (schemaKeys (.object properties)) :=
      get?_append_of_onlyDefault hextra hkey
  have hdeciding : ∀ key ∈ decidingKeys,
      Fields.get? key (schemaKeys (.object properties)) = none := by
    simp [decidingKeys, schemaKeys, Fields.get?]
  have hproperties : Fields.get? "properties" (schemaKeys (.object properties) ++ extra)
      = some (.obj (propertySchemas properties)) := hlookup "properties" (by decide)
  have hrequired : Fields.get? "required" (schemaKeys (.object properties) ++ extra)
      = some (.arr ((requiredNames properties).map .str)) := hlookup "required" (by decide)
  rw [readSchema_schemaKeys hextra hdeciding rfl, readTyped_object rfl,
    readProperties_present hproperties, hrequired, Option.getD_some,
    readEach_propertySchemas hdescribable (fun _ => listed_requiredNames hdistinct) h]
  exact readObject_eq_ok_iff.mpr ⟨hdistinct, rfl⟩

/-! ### Shapes -/

/-- Except for a property's value, what can be described is not optional. -/
theorem recovered_of_content {place : Place} {shape : Shape} (hplace : place ≠ .property)
    (h : Everywhere Describable place shape) (hcontent : Recovered shape.content) :
    Recovered shape := by
  have hdescribable := (everywhere_iff.mp h).1
  cases shape with
  | optional => exact absurd hdescribable.1.1 hplace
  | _ => exact hcontent

/-- **Reading recovers every shape that can be described**, up to its being optional. -/
theorem recovered_content {top : Place} {shape : Shape} (h : Everywhere Describable top shape) :
    Recovered shape.content := by
  induction shape generalizing top with
  | string minLength maxLength pattern => exact recovered_string minLength maxLength pattern
  | number minimum maximum => exact recovered_number minimum maximum
  | boolean => exact recovered_boolean
  | literal value => exact recovered_literal (everywhere_literal.mp h)
  | object properties ih =>
    obtain ⟨hdistinct, hparts⟩ := everywhere_object.mp h
    refine recovered_object hdistinct (fun property hproperty => ?_) fun property hproperty => ?_
    · exact (everywhere_iff.mp (hparts property hproperty)).1
    · exact ih property hproperty (hparts property hproperty)
  | array items ih =>
    have hitems := (everywhere_array.mp h).2
    exact recovered_array (recovered_of_content (by decide) hitems (ih hitems))
  | union members ih =>
    obtain ⟨htwo, hparts⟩ := everywhere_union.mp h
    apply recovered_union htwo
    intro member hmember
    exact recovered_of_content (by decide) (hparts member hmember)
      (ih member hmember (hparts member hmember))
  | optional inner default hasDefault ih =>
    have hinner := (everywhere_optional.mp h).2
    exact recovered_of_content (by decide) hinner (ih hinner)
  | foreign value => exact (everywhere_foreign.mp h).elim

/-- **Reading undoes describing.** Every object whose parts can be described is what reading its
description gives. -/
theorem ofSchema_describe {properties : Fields Shape}
    (h : Everywhere Describable .root (.object properties)) :
    ofSchema (describe (.object properties)) = .ok (.object properties) := by
  have hread := recovered_content h [] .root onlyDefault_nil
  rw [List.append_nil] at hread
  rw [ofSchema, describe]
  exact bind_eq_ok_iff.mpr ⟨_, hread, rfl⟩

/-- A default that is null is recovered, below a list and a union as well. -/
theorem ofSchema_describe_null_default :
    let properties : Fields Shape :=
      [("tags", .optional (.array (.union [.literal (.str "a"), .object
          [("n", .optional (.number (.int 0) .null) .null (.bool true)), ("b", .boolean)]]))
        .null (.bool false))]
    Everywhere Describable .root (.object properties) ∧
      ofSchema (describe (.object properties)) = .ok (.object properties) := by
  intro properties
  have h : Everywhere Describable .root (.object properties) := by
    simp [properties, Describable, Placed, IsOptional, Fields.names, Json.IsPrimitive]
  exact ⟨h, ofSchema_describe h⟩

end SchemaForge.Shape
