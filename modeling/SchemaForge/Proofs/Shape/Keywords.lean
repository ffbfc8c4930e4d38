import SchemaForge.Proofs.Shape.Reading

/-!
# `SchemaForge.Proofs.Shape.Keywords` — the reader reads its keywords and nothing else

What comes of reading a schema depends on the values of fifteen keys: it does not matter in which order
the keys stand, which other keys there are, and in which order or how often `required` names a property.
Two schemas that differ in nothing else, at any depth, are read alike.

The reader is followed for two schemas at once, and for two places at once: a refusal of the one is to
correspond to a refusal of the other, under any correspondence of places that is kept by going down.
With equal places that is the result, `ofSchema_similar`. With places that need not be related at all it
says that what is read does not depend on the place, which other results about reading build on.

## Contents
- **Endings.** `EndAlike` relates two readings, with a rule for each way to sequence them.
- **Keys.** `KeysBy` relates the keys of two schemas, given a relation of the schemas below: it says
  which keys are read, and how. `SiblingsBy` is the part that is read next to a type.
- **Steps.** `readAlike_of_keys`: schemas are read alike when their keys are alike and the schemas below
  them are read alike.
- **Schemas below.** `Below`, the schemas that a schema holds, on which a recursion can go down;
  `KeysBy.imp` and `keysBy_of_get?_eq`, how keys come to be related.
- **Reading.** `Similar`, what makes schemas similar, `readAlike_of_similar`, and the result.
-/

namespace SchemaForge.Shape

/-! ## Endings -/

/-- Whether two errors are alike: refusals at corresponding places, whatever is found there, or one and
the same other error. -/
def ReadError.Alike (places : Path → Path → Prop) : ReadError → ReadError → Prop
  | .unsupported refusal, .unsupported refusal' => places refusal.path refusal'.path
  | e, e' => e = e'

/-- **Whether two readings end alike**: with the same result, or with errors that are alike. -/
def EndAlike {α : Type} (places : Path → Path → Prop) (first second : Except ReadError α) : Prop :=
  (∃ a, first = .ok a ∧ second = .ok a) ∨
    ∃ e e', first = .error e ∧ second = .error e' ∧ e.Alike places e'

/-- Whether places that correspond have corresponding places below them. -/
def Parallel (places : Path → Path → Prop) : Prop :=
  ∀ ⦃path path' : Path⦄ (step : String), places path path' →
    places (path.child step) (path'.child step)

theorem parallel_eq : Parallel (· = ·) := fun _ _ _ h => h ▸ rfl

theorem parallel_any : Parallel fun _ _ => True := fun _ _ _ _ => trivial

section

variable {α β : Type} {places : Path → Path → Prop} {path path' : Path}

theorem Parallel.element (hplaces : Parallel places) (h : places path path') (list : String)
    (index : Nat) : places (path.element list index) (path'.element list index) :=
  hplaces _ (hplaces _ h)

theorem endAlike_ok (a : α) : EndAlike places (.ok a) (.ok a) := Or.inl ⟨a, rfl, rfl⟩

theorem endAlike_refuse (h : places path path') (construct construct' : Construct) :
    EndAlike places (refuse construct path : Except ReadError α) (refuse construct' path') :=
  Or.inr ⟨_, _, rfl, rfl, h⟩

/-- A result that refuses nothing is like itself. -/
theorem endAlike_self {result : Except ReadError α}
    (h : ∀ refusal, result ≠ .error (.unsupported refusal)) : EndAlike places result result := by
  cases result with
  | ok a => exact endAlike_ok a
  | error e =>
    refine Or.inr ⟨e, e, rfl, rfl, ?_⟩
    cases e with
    | unsupported refusal => exact absurd rfl (h refusal)
    | _ => rfl

/-- In a sequence the rest is given the same, or neither reading gets to it. -/
theorem EndAlike.bind_of_ok {first second : Except ReadError α} (h : EndAlike places first second)
    {next next' : α → Except ReadError β}
    (hnext : ∀ a, first = .ok a → EndAlike places (next a) (next' a)) :
    EndAlike places (first >>= next) (second >>= next') := by
  rcases h with ⟨a, rfl, rfl⟩ | ⟨e, e', rfl, rfl, he⟩
  · exact hnext a rfl
  · exact Or.inr ⟨e, e', rfl, rfl, he⟩

theorem EndAlike.bind {first second : Except ReadError α} (h : EndAlike places first second)
    {next next' : α → Except ReadError β} (hnext : ∀ a, EndAlike places (next a) (next' a)) :
    EndAlike places (first >>= next) (second >>= next') :=
  h.bind_of_ok fun a _ => hnext a

theorem EndAlike.bind_pure {first second : Except ReadError α} (h : EndAlike places first second)
    (f : α → β) :
    EndAlike places (first >>= fun a => pure (f a)) (second >>= fun a => pure (f a)) :=
  h.bind fun a => endAlike_ok (f a)

theorem readUnion_not_refused (members : List Shape) (refusal : Unsupported) :
    readUnion members ≠ .error (.unsupported refusal) := by
  unfold readUnion unionOf
  split
  · exact nofun
  · exact nofun

theorem readObject_not_refused (properties : Fields Shape) (refusal : Unsupported) :
    readObject properties ≠ .error (.unsupported refusal) := by
  unfold readObject objectOf
  split
  · exact nofun
  · exact nofun

theorem isOptional_not_refused {name : String} {hasDefault : Bool} {required : Json}
    (refusal : Unsupported) :
    isOptional name hasDefault required ≠ .error (.unsupported refusal) := by
  unfold isOptional
  split
  · exact nofun
  · split
    · exact nofun
    · exact nofun

theorem endAlike_readUnion (members : List Shape) :
    EndAlike places (readUnion members) (readUnion members) :=
  endAlike_self (readUnion_not_refused members)

theorem endAlike_readObject (properties : Fields Shape) :
    EndAlike places (readObject properties) (readObject properties) :=
  endAlike_self (readObject_not_refused properties)

/-- What is made of the members of an enumeration or of a choice, if the empty one is refused. -/
theorem endAlike_members (h : places path path') (construct construct' : Construct)
    (members : List Shape) :
    EndAlike places
      (match members with
        | [] => refuse construct path
        | [only] => pure only
        | members => readUnion members : Except ReadError Shape)
      (match members with
        | [] => refuse construct' path'
        | [only] => pure only
        | members => readUnion members) := by
  match members with
  | [] => exact endAlike_refuse h construct construct'
  | [only] => exact endAlike_ok only
  | first :: second :: rest => exact endAlike_readUnion (first :: second :: rest)

theorem endAlike_readLiteral (h : places path path') (value : Json) :
    EndAlike places (readLiteral value path) (readLiteral value path') := by
  cases value with
  | null | arr | obj => exact endAlike_refuse h _ _
  | _ => exact endAlike_ok _

theorem endAlike_readLiterals (hplaces : Parallel places) (h : places path path')
    (values : List Json) (index : Nat) :
    EndAlike places (readLiterals path index values) (readLiterals path' index values) := by
  induction values generalizing index with
  | nil => exact endAlike_ok []
  | cons value rest ih =>
    exact (endAlike_readLiteral (hplaces.element h "enum" index) value).bind fun first =>
      (ih (index + 1)).bind_pure (first :: ·)

theorem endAlike_readEnumeration (hplaces : Parallel places) (h : places path path')
    (values : Json) :
    EndAlike places (readEnumeration values path) (readEnumeration values path') := by
  unfold readEnumeration
  cases choices? values with
  | none => exact endAlike_self nofun
  | some values =>
    exact (endAlike_readLiterals hplaces h values 0).bind fun members =>
      endAlike_members h _ _ members

end

/-! ## Keys -/

/-- Whether two values of `required` name the same properties. -/
inductive SameEntries : Option Json → Option Json → Prop where
  /-- They are the same. -/
  | same (required : Option Json) : SameEntries required required
  /-- They are lists with the same entries, in whatever order and however often. -/
  | lists {entries entries' : List Json} : (∀ entry, entry ∈ entries ↔ entry ∈ entries') →
    SameEntries (some (.arr entries)) (some (.arr entries'))

/-- Values of `properties`, by a relation between the schemas in them. -/
inductive PropertiesBy (R : Json → Json → Prop) : Option Json → Option Json → Prop where
  /-- There are none. -/
  | absent : PropertiesBy R none none
  /-- They list the same names in the same order, with schemas that are related. -/
  | schemas {properties properties' : Fields Json} :
    Fields.names properties = Fields.names properties' →
      List.Forall₂ R (properties.map Prod.snd) (properties'.map Prod.snd) →
      PropertiesBy R (some (.obj properties)) (some (.obj properties'))
  /-- Neither is an object. -/
  | malformed {value value' : Json} : (∀ properties, value ≠ .obj properties) →
    (∀ properties, value' ≠ .obj properties) → PropertiesBy R (some value) (some value')

/-- Values of `items`, by a relation between schemas. -/
inductive ItemsBy (R : Json → Json → Prop) : Option Json → Option Json → Prop where
  /-- There is none. -/
  | absent : ItemsBy R none none
  /-- They are schemas that are related. -/
  | schema {item item' : Fields Json} :
    R (.obj item) (.obj item') → ItemsBy R (some (.obj item)) (some (.obj item'))
  /-- Neither is an object. -/
  | malformed {value value' : Json} : (∀ item, value ≠ .obj item) → (∀ item, value' ≠ .obj item) →
    ItemsBy R (some value) (some value')

/-- Values of `anyOf` or `oneOf`, by a relation between the schemas in them. -/
inductive VariantsBy (R : Json → Json → Prop) : Option Json → Option Json → Prop where
  /-- There are none. -/
  | absent : VariantsBy R none none
  /-- They are schemas that are related, one by one. -/
  | schemas {variants variants' : List Json} :
    List.Forall₂ R variants variants' → VariantsBy R (some (.arr variants)) (some (.arr variants'))
  /-- They are one value that is no list. -/
  | malformed {value : Json} : (∀ variants, value ≠ .arr variants) →
    VariantsBy R (some value) (some value)

/-- The keys of which nothing but the value is read, next to a type. -/
def boundKeywords : List String := ["minLength", "maxLength", "pattern", "minimum", "maximum"]

/-- The other keys of which nothing but the value is read. -/
def decidingKeywords : List String := ["$ref", "const", "enum", "type", "default"]

/-- The keys that are read next to a type. -/
def siblingKeywords : List String := boundKeywords ++ ["required", "properties", "items"]

/-- The keys of which anything is read. -/
def keywords : List String := decidingKeywords ++ (["anyOf", "oneOf"] ++ siblingKeywords)

-- In the two relations that follow, `keys'` is bound first so that both stay indices: with parameters
-- `Similar` could not be defined by way of them.
/-- **What is read next to a type**, by a relation between schemas. -/
inductive SiblingsBy (R : Json → Json → Prop) : Fields Json → Fields Json → Prop where
  | intro {keys' keys : Fields Json}
    (bounds : ∀ key ∈ boundKeywords, Fields.get? key keys = Fields.get? key keys')
    (required : SameEntries (Fields.get? "required" keys) (Fields.get? "required" keys'))
    (properties : PropertiesBy R (Fields.get? "properties" keys) (Fields.get? "properties" keys'))
    (items : ItemsBy R (Fields.get? "items" keys) (Fields.get? "items" keys')) :
    SiblingsBy R keys keys'

/-- **All that is read of a schema**, by a relation between schemas. -/
inductive KeysBy (R : Json → Json → Prop) : Fields Json → Fields Json → Prop where
  | intro {keys' keys : Fields Json}
    (deciding : ∀ key ∈ decidingKeywords, Fields.get? key keys = Fields.get? key keys')
    (anyOf : VariantsBy R (Fields.get? "anyOf" keys) (Fields.get? "anyOf" keys'))
    (oneOf : VariantsBy R (Fields.get? "oneOf" keys) (Fields.get? "oneOf" keys'))
    (siblings : SiblingsBy R keys keys') : KeysBy R keys keys'

section

variable {R : Json → Json → Prop} {keys keys' : Fields Json}

/-- Whether a name is required depends on the entries alone. -/
theorem SameEntries.requires? {required required' : Option Json}
    (h : SameEntries required required') (name : String) :
    requires? name (required.getD (.arr [])) = requires? name (required'.getD (.arr [])) := by
  cases h with
  | same => rfl
  | @lists entries entries' hentries =>
    have hany : entries.any (Json.str name).agrees = entries'.any (Json.str name).agrees := by
      rw [Bool.eq_iff_iff, List.any_eq_true, List.any_eq_true]
      simp only [hentries]
    exact congrArg some hany

theorem VariantsBy.isSome_eq {variants variants' : Option Json}
    (h : VariantsBy R variants variants') : variants.isSome = variants'.isSome := by
  cases h <;> rfl

theorem VariantsBy.eq_none {variants : Option Json} (h : VariantsBy R variants none) :
    variants = none := by
  cases h
  rfl

theorem PropertiesBy.isSome_eq {properties properties' : Option Json}
    (h : PropertiesBy R properties properties') : properties.isSome = properties'.isSome := by
  cases h <;> rfl

/-- Which keyword makes the choice depends on `anyOf` being there. -/
theorem choiceKeyword_eq
    (h : VariantsBy R (Fields.get? "anyOf" keys) (Fields.get? "anyOf" keys')) :
    choiceKeyword keys = choiceKeyword keys' := by
  rw [choiceKeyword, choiceKeyword, Fields.has, Fields.has, h.isSome_eq]

end

/-! ## Steps -/

/-- The default that a schema gives. -/
def givenDefault? : Json → Option Json
  | .obj keys => Fields.get? "default" keys
  | _ => none

/-- **Whether two schemas are read alike** at places that correspond. What else is read of the schema
of a property is its default. -/
structure ReadAlike (places : Path → Path → Prop) (schema schema' : Json) : Prop where
  /-- The readings end alike. -/
  endAlike : ∀ path path', places path path' →
    EndAlike places (readSchema schema path) (readSchema schema' path')
  /-- They give the same default. -/
  default_eq : givenDefault? schema = givenDefault? schema'

section

variable {places : Path → Path → Prop} {keys keys' : Fields Json} {path path' : Path}

/-- Variants are read alike one by one, under keywords at which their places correspond. -/
theorem endAlike_readVariants {variants variants' : List Json} {keyword keyword' : String}
    (h : List.Forall₂ (ReadAlike places) variants variants')
    (hplaces : ∀ index, places (path.element keyword index) (path'.element keyword' index))
    (index : Nat) :
    EndAlike places (readVariants variants keyword path index)
      (readVariants variants' keyword' path' index) := by
  induction h generalizing index with
  | nil =>
    rw [readVariants, readVariants]
    exact endAlike_ok []
  | cons hfirst _ ih =>
    rw [readVariants, readVariants]
    exact (hfirst.endAlike _ _ (hplaces index)).bind fun first =>
      (ih (index + 1)).bind_pure (first :: ·)

theorem endAlike_readChoice {variants variants' : Json} {keyword keyword' : String}
    (h : VariantsBy (ReadAlike places) (some variants) (some variants')) (hpath : places path path')
    (hplaces : ∀ index, places (path.element keyword index) (path'.element keyword' index)) :
    EndAlike places (readChoice variants keyword path) (readChoice variants' keyword' path') := by
  cases h with
  | schemas h =>
    rw [readChoice, readChoice]
    exact (endAlike_readVariants h hplaces 0).bind fun members => endAlike_members hpath _ _ members
  | malformed h =>
    rw [readChoice_not_list h, readChoice_not_list h]
    match choices? variants with
    | none => exact endAlike_self nofun
    | some [] => exact endAlike_refuse hpath _ _
    | some (first :: _) => exact endAlike_refuse (hplaces 0) _ _

/-- Whether a property is optional depends on its default and on what is required. -/
theorem endAlike_isOptional {required required' : Json} {name : String}
    (h : requires? name required = requires? name required') (hasDefault : Bool) :
    EndAlike places (isOptional name hasDefault required) (isOptional name hasDefault required') := by
  have hsame : isOptional name hasDefault required = isOptional name hasDefault required' := by
    rw [isOptional, isOptional, h]
  rw [hsame]
  exact endAlike_self isOptional_not_refused

/-- One property after another, each with the default that its schema gives. -/
theorem readEach_cons (name : String) (schema : Json) (rest : Fields Json) (required : Json)
    (path : Path) :
    readEach ((name, schema) :: rest) required path = (do
      let shape ← readSchema schema ((path.child "properties").child name)
      let optional ← isOptional name (givenDefault? schema).isSome required
      let others ← readEach rest required path
      return (name, if optional then .optional shape (.json ((givenDefault? schema).getD .null))
        (.bool (givenDefault? schema).isSome) else shape) :: others) := by
  cases schema with
  | obj keys =>
    rw [readEach]
    rfl
  | _ =>
    rw [readEach]
    · rfl
    · exact nofun

theorem endAlike_readEach (hplaces : Parallel places) {properties properties' : Fields Json}
    {required required' : Json}
    (hnames : Fields.names properties = Fields.names properties')
    (h : List.Forall₂ (ReadAlike places) (properties.map Prod.snd) (properties'.map Prod.snd))
    (hrequired : ∀ name, requires? name required = requires? name required')
    (hpath : places path path') :
    EndAlike places (readEach properties required path) (readEach properties' required' path') := by
  induction properties generalizing properties' with
  | nil =>
    cases properties' with
    | nil =>
      rw [readEach, readEach]
      exact endAlike_ok []
    | cons => cases hnames
  | cons property rest ih =>
    cases properties' with
    | nil => cases hnames
    | cons property' rest' =>
      obtain ⟨name, schema⟩ := property
      obtain ⟨name', schema'⟩ := property'
      obtain ⟨rfl, hothers⟩ := List.cons.inj hnames
      obtain ⟨hschema, hrest⟩ := List.forall₂_cons.mp h
      rw [readEach_cons, readEach_cons, hschema.default_eq]
      exact (hschema.endAlike _ _ (hplaces _ (hplaces _ hpath))).bind fun shape =>
        (endAlike_isOptional (hrequired name) _).bind fun optional =>
          (ih hothers hrest).bind_pure _

theorem endAlike_readProperties (hplaces : Parallel places)
    (h : SiblingsBy (ReadAlike places) keys keys') (hpath : places path path') :
    EndAlike places (readProperties keys path) (readProperties keys' path') := by
  obtain ⟨-, hrequired, hproperties, -⟩ := h
  generalize hleft : Fields.get? "properties" keys = left at hproperties
  generalize hright : Fields.get? "properties" keys' = right at hproperties
  cases hproperties with
  | absent =>
    rw [readProperties_absent hleft, readProperties_absent hright]
    exact endAlike_readObject []
  | schemas hnames hschemas =>
    rw [readProperties_present hleft, readProperties_present hright]
    exact (endAlike_readEach hplaces hnames hschemas hrequired.requires? hpath).bind
      fun properties => endAlike_readObject properties
  | malformed hvalue hvalue' =>
    rw [readProperties_malformed hleft hvalue, readProperties_malformed hright hvalue']
    exact endAlike_self nofun

/-- A list is read alike when its items are. -/
theorem endAlike_readTyped_array (hplaces : Parallel places) {type : Json}
    (htype : soleType type = .str "array")
    (h : ItemsBy (ReadAlike places) (Fields.get? "items" keys) (Fields.get? "items" keys'))
    (hpath : places path path') :
    EndAlike places (readTyped keys type path) (readTyped keys' type path') := by
  generalize hleft : Fields.get? "items" keys = left at h
  generalize hright : Fields.get? "items" keys' = right at h
  cases h with
  | absent =>
    rw [readTyped_unspecifiedItems htype (by simp [hleft]),
      readTyped_unspecifiedItems htype (by simp [hright])]
    exact endAlike_refuse hpath _ _
  | schema hitem =>
    rw [readTyped_array htype hleft, readTyped_array htype hright]
    exact (hitem.endAlike _ _ (hplaces _ hpath)).bind_pure Shape.array
  | malformed hvalue hvalue' =>
    rw [readTyped_unspecifiedItems htype (by simpa [hleft] using hvalue),
      readTyped_unspecifiedItems htype (by simpa [hright] using hvalue')]
    exact endAlike_refuse hpath _ _

-- The one recursion of a step: a type can be a list of types, and those can be lists of types again.
mutual

/-- A type is read alike next to keys that are alike. -/
theorem endAlike_readTyped (hplaces : Parallel places) (h : SiblingsBy (ReadAlike places) keys keys')
    {path path' : Path} (hpath : places path path') (type : Json) :
    EndAlike places (readTyped keys type path) (readTyped keys' type path') := by
  have hbound (key : String) (hkey : key ∈ boundKeywords) : keyword key keys = keyword key keys' := by
    obtain ⟨hbounds, -, -, -⟩ := h
    exact congrArg (·.getD .null) (hbounds key hkey)
  have hitems : ItemsBy (ReadAlike places) (Fields.get? "items" keys) (Fields.get? "items" keys') := by
    obtain ⟨-, -, -, hitems⟩ := h
    exact hitems
  cases typeCase keys type with
  | types types htypes =>
    have hsmaller := sizeOf_lt_of_soleType htypes
    rw [readTyped_types htypes, readTyped_types htypes]
    exact (endAlike_readTypes hplaces h hpath types).bind fun members => endAlike_readUnion members
  | string hstring =>
    rw [readTyped_string hstring, readTyped_string hstring, hbound "minLength" (by decide),
      hbound "maxLength" (by decide), hbound "pattern" (by decide)]
    exact endAlike_ok _
  | number hnumber =>
    rw [readTyped_number hnumber, readTyped_number hnumber, hbound "minimum" (by decide),
      hbound "maximum" (by decide)]
    exact endAlike_ok _
  | boolean hboolean =>
    rw [readTyped_boolean hboolean, readTyped_boolean hboolean]
    exact endAlike_ok _
  | object hobject =>
    rw [readTyped_object hobject, readTyped_object hobject]
    exact endAlike_readProperties hplaces h hpath
  | array item harray => exact endAlike_readTyped_array hplaces harray hitems hpath
  | bareArray harray => exact endAlike_readTyped_array hplaces harray hitems hpath
  | unknown htypes hstring hnumber hboolean hobject harray =>
    rw [readTyped_unknown htypes hstring hnumber hboolean hobject harray,
      readTyped_unknown htypes hstring hnumber hboolean hobject harray]
    exact endAlike_refuse hpath _ _
termination_by sizeOf type

theorem endAlike_readTypes (hplaces : Parallel places) (h : SiblingsBy (ReadAlike places) keys keys')
    {path path' : Path} (hpath : places path path') (types : List Json) :
    EndAlike places (readTypes keys types path) (readTypes keys' types path') := by
  cases types with
  | nil =>
    rw [readTypes, readTypes]
    exact endAlike_ok []
  | cons type rest =>
    rw [readTypes, readTypes]
    have hfirst := endAlike_readTyped hplaces h (hplaces type.display (hplaces "type" hpath)) type
    exact hfirst.bind fun first =>
      (endAlike_readTypes hplaces h hpath rest).bind_pure (first :: ·)
termination_by sizeOf types

end

/-- A choice is read alike when its variants are. -/
theorem endAlike_readSchema_choice (hplaces : Parallel places)
    (href : Fields.get? "$ref" keys = none) (hconst : Fields.get? "const" keys = none)
    (henum : Fields.get? "enum" keys = none) (href' : Fields.get? "$ref" keys' = none)
    (hconst' : Fields.get? "const" keys' = none) (henum' : Fields.get? "enum" keys' = none)
    {variants variants' : Json} (hkeyword : choiceKeyword keys = choiceKeyword keys')
    (hleft : Fields.get? (choiceKeyword keys) keys = some variants)
    (hright : Fields.get? (choiceKeyword keys') keys' = some variants')
    (h : VariantsBy (ReadAlike places) (some variants) (some variants')) (hpath : places path path') :
    EndAlike places (readSchema (.obj keys) path) (readSchema (.obj keys') path') := by
  rw [readSchema_choice href hconst henum hleft, readSchema_choice href' hconst' henum' hright]
  refine endAlike_readChoice h hpath fun index => ?_
  rw [hkeyword]
  exact hplaces.element hpath _ index

/-- Without a type, an object is known by its properties. -/
theorem endAlike_readSchema_untyped (hplaces : Parallel places)
    (href : Fields.get? "$ref" keys = none) (hconst : Fields.get? "const" keys = none)
    (henum : Fields.get? "enum" keys = none) (href' : Fields.get? "$ref" keys' = none)
    (hconst' : Fields.get? "const" keys' = none) (henum' : Fields.get? "enum" keys' = none)
    (hleft : Fields.get? (choiceKeyword keys) keys = none)
    (hright : Fields.get? (choiceKeyword keys') keys' = none)
    (htype : Fields.get? "type" keys = none) (htype' : Fields.get? "type" keys' = none)
    (h : SiblingsBy (ReadAlike places) keys keys') (hpath : places path path') :
    EndAlike places (readSchema (.obj keys) path) (readSchema (.obj keys') path') := by
  have hhas : Fields.has "properties" keys = Fields.has "properties" keys' := by
    obtain ⟨-, -, hproperties, -⟩ := h
    exact hproperties.isSome_eq
  rw [readSchema_untyped href hconst henum hleft htype,
    readSchema_untyped href' hconst' henum' hright htype', hhas]
  by_cases hthere : Fields.has "properties" keys'
  · rw [if_pos hthere, if_pos hthere]
    exact endAlike_readProperties hplaces h hpath
  · rw [if_neg hthere, if_neg hthere]
    exact endAlike_refuse hpath _ _

/-- **One step.** Schemas are read alike when their keys are alike and the schemas below are read
alike. -/
theorem readAlike_of_keys (hplaces : Parallel places) (h : KeysBy (ReadAlike places) keys keys') :
    ReadAlike places (.obj keys) (.obj keys') := by
  obtain ⟨hdeciding, hanyOf, honeOf, hsiblings⟩ := h
  refine ⟨fun path path' hpath => ?_, hdeciding "default" (by decide)⟩
  have hkeyword := choiceKeyword_eq hanyOf
  have hchoices : VariantsBy (ReadAlike places) (Fields.get? (choiceKeyword keys) keys)
      (Fields.get? (choiceKeyword keys') keys') := by
    rw [← hkeyword]
    unfold choiceKeyword
    split
    · exact hanyOf
    · exact honeOf
  have href := hdeciding "$ref" (by decide)
  have hconst := hdeciding "const" (by decide)
  have henum := hdeciding "enum" (by decide)
  have htype := hdeciding "type" (by decide)
  -- The key that decides is the same one on both sides.
  cases decision keys' with
  | reference target href' =>
    rw [readSchema_ref (href.trans href'), readSchema_ref href']
    exact endAlike_refuse hpath _ _
  | constant value href' hconst' =>
    rw [readSchema_const (href.trans href') (hconst.trans hconst'), readSchema_const href' hconst']
    exact endAlike_readLiteral hpath value
  | enumeration values href' hconst' henum' =>
    rw [readSchema_enum (href.trans href') (hconst.trans hconst') (henum.trans henum'),
      readSchema_enum href' hconst' henum']
    exact endAlike_readEnumeration hplaces hpath values
  | choice variants' href' hconst' henum' hchoice' =>
    rw [hchoice'] at hchoices
    obtain ⟨variants, hchoice⟩ := Option.isSome_iff_exists.mp hchoices.isSome_eq
    rw [hchoice] at hchoices
    exact endAlike_readSchema_choice hplaces (href.trans href') (hconst.trans hconst')
      (henum.trans henum') href' hconst' henum' hkeyword hchoice hchoice' hchoices hpath
  | type type href' hconst' henum' hchoice' htype' =>
    have hchoice := (hchoice' ▸ hchoices).eq_none
    rw [readSchema_type (href.trans href') (hconst.trans hconst') (henum.trans henum') hchoice
      (htype.trans htype'), readSchema_type href' hconst' henum' hchoice' htype']
    exact endAlike_readTyped hplaces hsiblings hpath type
  | untyped href' hconst' henum' hchoice' htype' =>
    have hchoice := (hchoice' ▸ hchoices).eq_none
    exact endAlike_readSchema_untyped hplaces (href.trans href') (hconst.trans hconst')
      (henum.trans henum') href' hconst' henum' hchoice hchoice' (htype.trans htype') htype'
      hsiblings hpath

end

/-! ## Schemas below -/

/-- **The schemas that a schema holds** where schemas are read. -/
inductive Below (keys : Fields Json) : Json → Prop where
  | property {properties : Fields Json} {schema : Json} :
    Fields.get? "properties" keys = some (.obj properties) →
      schema ∈ properties.map Prod.snd → Below keys schema
  | item {item : Fields Json} : Fields.get? "items" keys = some (.obj item) → Below keys (.obj item)
  | variant {keyword : String} {variants : List Json} {schema : Json} :
    Fields.get? keyword keys = some (.arr variants) → schema ∈ variants → Below keys schema

theorem sizeOf_lt_of_below {keys : Fields Json} {schema : Json} (h : Below keys schema) :
    sizeOf schema < sizeOf keys := by
  cases h with
  | @property properties _ hproperties hschema =>
    obtain ⟨⟨name, schema⟩, hmem, rfl⟩ := List.mem_map.mp hschema
    have hfields := sizeOf_lt_of_get?_obj hproperties
    have hfield : sizeOf (name, schema) < sizeOf properties := List.sizeOf_lt_of_mem hmem
    rw [Prod.mk.sizeOf_spec] at hfield
    show sizeOf schema < sizeOf keys
    omega
  | item hitem => exact Fields.sizeOf_lt_of_get? hitem
  | @variant _ variants _ hvariants hschema =>
    have hlist : sizeOf (Json.arr variants) < sizeOf keys := Fields.sizeOf_lt_of_get? hvariants
    rw [Json.arr.sizeOf_spec] at hlist
    have hmember : sizeOf schema < sizeOf variants := List.sizeOf_lt_of_mem hschema
    omega

section

variable {R R' : Json → Json → Prop} {keys keys' : Fields Json}

/-- Lists that are related one by one are also related by what follows for their members. -/
theorem forall₂_imp_of_mem {schemas schemas' : List Json} (h : List.Forall₂ R schemas schemas')
    (himp : ∀ schema ∈ schemas, ∀ schema', R schema schema' → R' schema schema') :
    List.Forall₂ R' schemas schemas' := by
  have hboth : List.Forall₂ (fun schema schema' => schema ∈ schemas ∧ R schema schema')
      schemas schemas' := (List.forall₂_and_left ..).mpr ⟨fun _ hschema => hschema, h⟩
  exact hboth.imp fun schema schema' ⟨hschema, h⟩ => himp schema hschema schema' h

/-- A weaker relation of the schemas below relates the keys as well. -/
theorem KeysBy.imp (h : KeysBy R keys keys')
    (himp : ∀ schema, Below keys schema → ∀ schema', R schema schema' → R' schema schema') :
    KeysBy R' keys keys' := by
  have hvariants (keyword : String)
      (h : VariantsBy R (Fields.get? keyword keys) (Fields.get? keyword keys')) :
      VariantsBy R' (Fields.get? keyword keys) (Fields.get? keyword keys') := by
    generalize hleft : Fields.get? keyword keys = left at h
    generalize Fields.get? keyword keys' = right at h
    cases h with
    | absent => exact .absent
    | schemas h => exact .schemas (forall₂_imp_of_mem h fun schema hschema =>
        himp schema (.variant hleft hschema))
    | malformed h => exact .malformed h
  obtain ⟨hdeciding, hanyOf, honeOf, hbounds, hrequired, hproperties, hitems⟩ := h
  refine ⟨hdeciding, hvariants "anyOf" hanyOf, hvariants "oneOf" honeOf, hbounds, hrequired, ?_, ?_⟩
  · generalize hleft : Fields.get? "properties" keys = left at hproperties
    generalize Fields.get? "properties" keys' = right at hproperties
    cases hproperties with
    | absent => exact .absent
    | schemas hnames h => exact .schemas hnames (forall₂_imp_of_mem h fun schema hschema =>
        himp schema (.property hleft hschema))
    | malformed h h' => exact .malformed h h'
  · generalize hleft : Fields.get? "items" keys = left at hitems
    generalize Fields.get? "items" keys' = right at hitems
    cases hitems with
    | absent => exact .absent
    | schema h => exact .schema (himp _ (.item hleft) _ h)
    | malformed h h' => exact .malformed h h'

theorem variantsBy_refl (hrefl : ∀ schema, Below keys schema → R schema schema) (keyword : String) :
    VariantsBy R (Fields.get? keyword keys) (Fields.get? keyword keys) := by
  cases hvalue : Fields.get? keyword keys with
  | none => exact .absent
  | some value =>
    cases value with
    | arr variants =>
      exact .schemas (List.forall₂_same.mpr fun schema hschema =>
        hrefl schema (.variant hvalue hschema))
    | _ => exact .malformed nofun

theorem propertiesBy_refl (hrefl : ∀ schema, Below keys schema → R schema schema) :
    PropertiesBy R (Fields.get? "properties" keys) (Fields.get? "properties" keys) := by
  cases hvalue : Fields.get? "properties" keys with
  | none => exact .absent
  | some value =>
    cases value with
    | obj properties =>
      exact .schemas rfl (List.forall₂_same.mpr fun schema hschema =>
        hrefl schema (.property hvalue hschema))
    | _ => exact .malformed nofun nofun

theorem itemsBy_refl (hrefl : ∀ schema, Below keys schema → R schema schema) :
    ItemsBy R (Fields.get? "items" keys) (Fields.get? "items" keys) := by
  cases hvalue : Fields.get? "items" keys with
  | none => exact .absent
  | some value =>
    cases value with
    | obj item => exact .schema (hrefl _ (.item hvalue))
    | _ => exact .malformed nofun nofun

theorem siblingsBy_of_get?_eq (hrefl : ∀ schema, Below keys schema → R schema schema)
    (h : ∀ key ∈ siblingKeywords, Fields.get? key keys' = Fields.get? key keys) :
    SiblingsBy R keys keys' := by
  refine ⟨fun key hbound => (h key (List.mem_append_left _ hbound)).symm, ?_, ?_, ?_⟩
  · rw [h "required" (by decide)]
    exact .same _
  · rw [h "properties" (by decide)]
    exact propertiesBy_refl hrefl
  · rw [h "items" (by decide)]
    exact itemsBy_refl hrefl

/-- Keys with the same values are related when the schemas below are related to themselves. -/
theorem keysBy_of_get?_eq (hrefl : ∀ schema, Below keys schema → R schema schema)
    (h : ∀ key ∈ keywords, Fields.get? key keys' = Fields.get? key keys) : KeysBy R keys keys' := by
  refine ⟨fun key hdeciding => (h key (List.mem_append_left _ hdeciding)).symm, ?_, ?_,
    siblingsBy_of_get?_eq hrefl fun key hsibling => ?_⟩
  · rw [h "anyOf" (by decide)]
    exact variantsBy_refl hrefl "anyOf"
  · rw [h "oneOf" (by decide)]
    exact variantsBy_refl hrefl "oneOf"
  · exact h key (List.mem_append_right _ (List.mem_append_right _ hsibling))

end

/-! ## Reading -/

/-- **Whether two schemas are similar**: alike in all that is read of them, at every depth. -/
inductive Similar : Json → Json → Prop where
  /-- Of a schema its keys are read. -/
  | keys {keys keys' : Fields Json} : KeysBy Similar keys keys' → Similar (.obj keys) (.obj keys')
  /-- Nothing is read of what is no object. -/
  | other {schema schema' : Json} : (∀ keys, schema ≠ .obj keys) → (∀ keys, schema' ≠ .obj keys) →
    Similar schema schema'

theorem similar_refl (schema : Json) : Similar schema schema := by
  cases schema with
  | obj keys =>
    exact .keys (keysBy_of_get?_eq (fun schema hbelow => similar_refl schema) fun _ _ => rfl)
  | _ => exact .other nofun nofun
termination_by sizeOf schema
decreasing_by
  have hsize := sizeOf_lt_of_below hbelow
  rw [Json.obj.sizeOf_spec]
  omega

/-- Schemas with the same keywords are similar, whatever else they have. -/
theorem similar_of_get?_eq {keys keys' : Fields Json}
    (h : ∀ key ∈ keywords, Fields.get? key keys' = Fields.get? key keys) :
    Similar (.obj keys) (.obj keys') :=
  .keys (keysBy_of_get?_eq (fun schema _ => similar_refl schema) h)

/-- Another key next to the keywords makes a similar schema. -/
theorem similar_cons {key : String} (h : key ∉ keywords) (value : Json) (keys : Fields Json) :
    Similar (.obj keys) (.obj ((key, value) :: keys)) := by
  refine similar_of_get?_eq fun keyword hkeyword => ?_
  have hne : key ≠ keyword := fun heq => h (heq ▸ hkeyword)
  rw [Fields.get?, if_neg hne]

/-- Keys that differ are looked up in any order. -/
theorem get?_eq_of_perm {keys keys' : Fields Json} (h : keys.Perm keys')
    (hnames : (Fields.names keys).Nodup) (name : String) :
    Fields.get? name keys' = Fields.get? name keys := by
  induction h with
  | nil => rfl
  | cons field _ ih =>
    rw [Fields.get?, Fields.get?, ih (List.nodup_cons.mp hnames).2]
  | swap first second rest =>
    have hne : second.1 ≠ first.1 := fun heq =>
      (List.nodup_cons.mp hnames).1 (heq ▸ List.mem_cons_self)
    rw [Fields.get?, Fields.get?, Fields.get?, Fields.get?]
    by_cases hfirst : first.1 = name
    · rw [if_pos hfirst, if_neg fun hsecond => hne (hsecond.trans hfirst.symm), if_pos hfirst]
    · rw [if_neg hfirst, if_neg hfirst]
  | trans hfirst _ ih ih' =>
    have hnames' := (hfirst.map Prod.fst).nodup_iff.mp hnames
    rw [ih' hnames', ih hnames]

/-- The same keys in another order make a similar schema. -/
theorem similar_of_perm {keys keys' : Fields Json} (h : keys.Perm keys')
    (hnames : (Fields.names keys).Nodup) : Similar (.obj keys) (.obj keys') :=
  similar_of_get?_eq fun key _ => get?_eq_of_perm h hnames key

/-- **Similar schemas are read alike**, at any two places that correspond. -/
theorem readAlike_of_similar {places : Path → Path → Prop} (hplaces : Parallel places)
    {schema schema' : Json} (h : Similar schema schema') : ReadAlike places schema schema' := by
  cases h with
  | @keys keys keys' h =>
    exact readAlike_of_keys hplaces (h.imp fun schema hbelow schema' h =>
      readAlike_of_similar hplaces h)
  | other h h' =>
    refine ⟨fun path path' hpath => ?_, ?_⟩
    · rw [readSchema_not_object h, readSchema_not_object h']
      exact endAlike_refuse hpath _ _
    · rw [givenDefault?.eq_2 _ h, givenDefault?.eq_2 _ h']
termination_by sizeOf schema
decreasing_by
  have hsize := sizeOf_lt_of_below hbelow
  rw [Json.obj.sizeOf_spec]
  omega

/-- What is read of whole schemas ends alike when they are read alike. -/
theorem endAlike_ofSchema {places : Path → Path → Prop} (hroot : places .root .root)
    {schema schema' : Json} (h : ReadAlike places schema schema') :
    EndAlike places (ofSchema schema) (ofSchema schema') := by
  refine (h.endAlike .root .root hroot).bind fun shape => ?_
  cases shape with
  | object properties => exact endAlike_ok _
  | _ => exact endAlike_refuse hroot _ _

/-- **The reader reads its keywords and nothing else**: from similar schemas it reads the same shape,
or fails for both, and where both are refused, at the same place. -/
theorem ofSchema_similar {schema schema' : Json} (h : Similar schema schema') :
    EndAlike (· = ·) (ofSchema schema) (ofSchema schema') :=
  endAlike_ofSchema rfl (readAlike_of_similar parallel_eq h)

/-- A list of texts that is required. -/
def textsSchema : Json :=
  .obj [("type", .str "object"),
    ("properties", .obj [("texts", .obj [("type", .str "array"),
      ("items", .obj [("type", .str "string"), ("minLength", .int 1)])])]),
    ("required", .arr [.str "texts"])]

/-- The same with its keys in another order, with annotations, and required twice. -/
def annotatedTextsSchema : Json :=
  .obj [("title", .str "Texts"), ("required", .arr [.str "texts", .str "texts"]),
    ("properties", .obj [("texts", .obj [("items", .obj [("minLength", .int 1),
      ("format", .str "uuid"), ("type", .str "string")]), ("type", .str "array")])]),
    ("type", .str "object")]

theorem ofSchema_similar_of_annotated :
    Similar textsSchema annotatedTextsSchema ∧
      EndAlike (· = ·) (ofSchema textsSchema) (ofSchema annotatedTextsSchema) := by
  have hitem : Similar (.obj [("type", .str "string"), ("minLength", .int 1)])
      (.obj [("minLength", .int 1), ("format", .str "uuid"), ("type", .str "string")]) :=
    similar_of_get?_eq (by simp [keywords, decidingKeywords, siblingKeywords, boundKeywords, Fields.get?])
  have hlist : Similar
      (.obj [("type", .str "array"),
        ("items", .obj [("type", .str "string"), ("minLength", .int 1)])])
      (.obj [("items", .obj [("minLength", .int 1), ("format", .str "uuid"), ("type", .str "string")]),
        ("type", .str "array")]) := by
    refine .keys ⟨?_, .absent, .absent, ?_, .same none, .absent, .schema hitem⟩
    · simp [decidingKeywords, Fields.get?]
    · simp [boundKeywords, Fields.get?]
  have h : Similar textsSchema annotatedTextsSchema := by
    refine .keys ⟨?_, .absent, .absent, ?_, .lists ?_, .schemas rfl (.cons hlist .nil), .absent⟩
    · simp [decidingKeywords, Fields.get?]
    · simp [boundKeywords, Fields.get?]
    · simp
  exact ⟨h, ofSchema_similar h⟩

end SchemaForge.Shape
