import SchemaForge.Module.Assembly
import SchemaForge.Proofs.Shape.Failure
import SchemaForge.Proofs.Shape.Keywords

/-!
# `SchemaForge.Proofs.Shape.Spelling` — a union can be spelled in four ways

Values can be listed under `enum`, or each be the `const` of a variant. Variants can be listed under
`oneOf` or `anyOf`. Types can be listed under `type`, or each be the type of a variant that repeats the
keys next to it. Wherever in a schema the spelling is changed, the same shape is read, and so every
dialect writes the same.

Only the places differ at which a reading is refused. Every spelling has its own list, and with it other
paths, so the two readings are compared with places that need not correspond.

## Contents
- **Spellings.** `Respelled`, the three rewritings, and `Rewritten`, one of them at some place.
- **Lists.** The three lists of members, each read like the list of variants that takes its place.
- **Rules.** `readAlike_of_respelled`.
- **Places.** `readAlike_of_rewritten`, and the result.
-/

namespace SchemaForge.Shape

/-! ## Spellings -/

/-- Whether the same keys have the same values, but for some that may have changed. -/
def SameBut (changed : List String) (keys keys' : Fields Json) : Prop :=
  ∀ key, key ∉ changed → Fields.get? key keys' = Fields.get? key keys

/-- The variants that take the place of values. -/
def constVariants (values : List Json) : List Json :=
  values.map fun value => .obj [("const", value)]

/-- The variants that take the place of types, each with all the other keys. -/
def typeVariants (keys : Fields Json) (types : List String) : List Json :=
  types.map fun type => .obj (Fields.set "type" (.str type) keys)

/-- **A union spelled with `anyOf`** in place of another keyword. -/
inductive Respelled : Fields Json → Fields Json → Prop where
  /-- The values of an enumeration become variants, whatever choice stood next to it. -/
  | enumeration {keys keys' : Fields Json} {values : List Json} :
    Fields.get? "$ref" keys = none → Fields.get? "const" keys = none →
      Fields.get? "enum" keys = some (.arr values) → SameBut ["enum", "anyOf", "oneOf"] keys keys' →
      Fields.get? "enum" keys' = none →
      Fields.get? "anyOf" keys' = some (.arr (constVariants values)) → Respelled keys keys'
  /-- The variants of the one choice become those of the other. -/
  | choice {keys keys' : Fields Json} {variants : Json} :
    Fields.get? "$ref" keys = none → Fields.get? "const" keys = none →
      Fields.get? "enum" keys = none → Fields.get? "anyOf" keys = none →
      Fields.get? "oneOf" keys = some variants → SameBut ["anyOf", "oneOf"] keys keys' →
      Fields.get? "anyOf" keys' = some variants → Respelled keys keys'
  /-- The types become variants, if there are any. -/
  | types {keys keys' : Fields Json} {types : List String} :
    Fields.get? "$ref" keys = none → Fields.get? "const" keys = none →
      Fields.get? "enum" keys = none → Fields.get? "anyOf" keys = none →
      Fields.get? "oneOf" keys = none → Fields.get? "type" keys = some (.arr (types.map .str)) →
      types ≠ [] → SameBut ["anyOf", "type"] keys keys' →
      Fields.get? "anyOf" keys' = some (.arr (typeVariants keys types)) → Respelled keys keys'

/-- **A schema rewritten at one place** by a rule, and left as it is everywhere else. -/
inductive Rewritten (rule : Fields Json → Fields Json → Prop) : Json → Json → Prop where
  /-- At the top. -/
  | here {keys keys' : Fields Json} : rule keys keys' → Rewritten rule (.obj keys) (.obj keys')
  /-- In the schema of a property. -/
  | property {keys keys' front back : Fields Json} {name : String} {schema schema' : Json} :
    Rewritten rule schema schema' → SameBut ["properties"] keys keys' →
      Fields.get? "properties" keys = some (.obj (front ++ (name, schema) :: back)) →
      Fields.get? "properties" keys' = some (.obj (front ++ (name, schema') :: back)) →
      Rewritten rule (.obj keys) (.obj keys')
  /-- In the schema of the items. -/
  | items {keys keys' : Fields Json} {schema schema' : Json} :
    Rewritten rule schema schema' → SameBut ["items"] keys keys' →
      Fields.get? "items" keys = some schema → Fields.get? "items" keys' = some schema' →
      Rewritten rule (.obj keys) (.obj keys')
  /-- In the schema of one of several items. -/
  | listedItem {keys keys' : Fields Json} {front back : List Json} {schema schema' : Json} :
    Rewritten rule schema schema' → SameBut ["items"] keys keys' →
      Fields.get? "items" keys = some (.arr (front ++ schema :: back)) →
      Fields.get? "items" keys' = some (.arr (front ++ schema' :: back)) →
      Rewritten rule (.obj keys) (.obj keys')
  /-- In a variant of a choice. -/
  | variant {keyword : String} {keys keys' : Fields Json} {front back : List Json}
    {schema schema' : Json} :
    keyword ∈ ["anyOf", "oneOf"] → Rewritten rule schema schema' → SameBut [keyword] keys keys' →
      Fields.get? keyword keys = some (.arr (front ++ schema :: back)) →
      Fields.get? keyword keys' = some (.arr (front ++ schema' :: back)) →
      Rewritten rule (.obj keys) (.obj keys')
  /-- Anywhere below a key that is no keyword of the reader. -/
  | unread {key : String} {keys keys' : Fields Json} :
    key ∉ keywords → SameBut [key] keys keys' → Rewritten rule (.obj keys) (.obj keys')

/-- Places that need not correspond. -/
abbrev anywhere : Path → Path → Prop := fun _ _ => True

theorem readAlike_refl (schema : Json) : ReadAlike anywhere schema schema :=
  readAlike_of_similar parallel_any (similar_refl schema)

section

variable {changed : List String} {keys keys' : Fields Json}

/-- What stands next to a type is the same when none of it has changed. -/
theorem SameBut.siblingsBy (h : SameBut changed keys keys')
    (hchanged : ∀ key ∈ siblingKeywords, key ∉ changed) :
    SiblingsBy (ReadAlike anywhere) keys keys' :=
  siblingsBy_of_get?_eq (fun schema _ => readAlike_refl schema) fun key hkey =>
    h key (hchanged key hkey)

/-! ## Lists -/

/-- Values are read like the variants that take their place. -/
theorem endAlike_constVariants (values : List Json) (path path' : Path) (index index' : Nat) :
    EndAlike anywhere (readLiterals path index values)
      (readVariants (constVariants values) "anyOf" path' index') := by
  induction values generalizing index index' with
  | nil =>
    rw [constVariants, List.map_nil, readVariants]
    exact endAlike_ok []
  | cons value rest ih =>
    rw [constVariants, List.map_cons, readVariants, readSchema_const rfl rfl]
    exact (endAlike_readLiteral trivial value).bind fun first =>
      (ih (index + 1) (index' + 1)).bind_pure (first :: ·)

theorem readProperties_set_type (type : Json) (keys : Fields Json) (path : Path) :
    readProperties (Fields.set "type" type keys) path = readProperties keys path := by
  have hset : Fields.get? "properties" (Fields.set "type" type keys) =
      Fields.get? "properties" keys := get?_set_type (by decide) type keys
  cases hproperties : Fields.get? "properties" keys with
  | none => rw [readProperties_absent hproperties, readProperties_absent (hset.trans hproperties)]
  | some value =>
    cases value with
    | obj properties =>
      rw [readProperties_present hproperties, readProperties_present (hset.trans hproperties),
        get?_set_type (by decide)]
    | _ =>
      rw [readProperties_malformed hproperties fun _ => nofun,
        readProperties_malformed (hset.trans hproperties) fun _ => nofun]

/-- What stands under `type` is not read again. -/
theorem readTyped_set_type (type other : Json) (keys : Fields Json) (path : Path)
    (htypes : ∀ types, soleType type ≠ .arr types) :
    readTyped (Fields.set "type" other keys) type path = readTyped keys type path := by
  have hkeyword {key : String} (hkey : key ≠ "type") :
      keyword key (Fields.set "type" other keys) = keyword key keys :=
    congrArg (·.getD .null) (get?_set_type hkey other keys)
  cases typeCase keys type with
  | types types hsole => exact absurd hsole (htypes types)
  | string hstring =>
    rw [readTyped_string hstring, readTyped_string hstring, hkeyword (by decide),
      hkeyword (by decide), hkeyword (by decide)]
  | number hnumber =>
    rw [readTyped_number hnumber, readTyped_number hnumber, hkeyword (by decide),
      hkeyword (by decide)]
  | boolean hboolean => rw [readTyped_boolean hboolean, readTyped_boolean hboolean]
  | object hobject =>
    rw [readTyped_object hobject, readTyped_object hobject, readProperties_set_type]
  | array item harray hitem =>
    have hset : Fields.get? "items" (Fields.set "type" other keys) = some (.obj item) := by
      rw [get?_set_type (by decide), hitem]
    rw [readTyped_array harray hitem, readTyped_array harray hset]
  | bareArray harray hitems =>
    rw [readTyped_unspecifiedItems harray hitems, readTyped_unspecifiedItems harray]
    rw [get?_set_type (by decide)]
    exact hitems
  | unknown htypes hstring hnumber hboolean hobject harray =>
    rw [readTyped_unknown htypes hstring hnumber hboolean hobject harray,
      readTyped_unknown htypes hstring hnumber hboolean hobject harray]

/-- **The variant of a type is read by this type.** -/
theorem readSchema_typeVariant {decided : Json} (h : DecidedByType keys decided) (type : String)
    (path : Path) :
    readSchema (.obj (Fields.set "type" (.str type) keys)) path = readTyped keys (.str type) path := by
  rw [(h.set_type (.str type)).readSchema_eq path]
  exact readTyped_set_type _ _ keys path fun _ => nofun

/-- The place at which a type is read does not matter. -/
theorem endAlike_typeVariant (type : String) (path path' : Path) :
    EndAlike anywhere (readTyped keys (.str type) path) (readTyped keys (.str type) path') := by
  have hsame : SameBut [] keys keys := fun _ _ => rfl
  exact endAlike_readTyped parallel_any (hsame.siblingsBy (by decide)) trivial (.str type)

/-- Types are read like the variants that take their place. -/
theorem endAlike_typeVariants {decided : Json} (h : DecidedByType keys decided)
    (types : List String) (path path' : Path) (index : Nat) :
    EndAlike anywhere (readTypes keys (types.map .str) path)
      (readVariants (typeVariants keys types) "anyOf" path' index) := by
  induction types generalizing index with
  | nil =>
    rw [typeVariants, List.map_nil, List.map_nil, readTypes, readVariants]
    exact endAlike_ok []
  | cons type rest ih =>
    rw [typeVariants, List.map_cons, List.map_cons, readTypes, readVariants, readSchema_typeVariant h]
    exact (endAlike_typeVariant type _ _).bind fun first =>
      (ih (index + 1)).bind_pure (first :: ·)

/-! ## Rules -/

/-- A choice under `anyOf` is made before any under `oneOf`. -/
theorem choiceKeyword_anyOf {variants : Json} (h : Fields.get? "anyOf" keys = some variants) :
    choiceKeyword keys = "anyOf" := by
  rw [choiceKeyword, Fields.has, h]
  rfl

theorem choiceKeyword_oneOf (h : Fields.get? "anyOf" keys = none) :
    choiceKeyword keys = "oneOf" := by
  rw [choiceKeyword, Fields.has, h]
  rfl

/-- What a schema is read as that makes a choice under `anyOf`. -/
theorem readSchema_anyOf {variants : Json} (href : Fields.get? "$ref" keys = none)
    (hconst : Fields.get? "const" keys = none) (henum : Fields.get? "enum" keys = none)
    (hanyOf : Fields.get? "anyOf" keys = some variants) (path : Path) :
    readSchema (.obj keys) path = readChoice variants "anyOf" path := by
  have hkeyword := choiceKeyword_anyOf hanyOf
  rw [readSchema_choice href hconst henum (hkeyword ▸ hanyOf), hkeyword]

/-- A type in a list of its own is read as that type. -/
theorem readTyped_singleton (type : String) (path : Path) :
    readTyped keys (.arr [.str type]) path = readTyped keys (.str type) path := by
  rw [readTyped, readTyped]
  rfl

/-- The types of a schema are read like the choice that takes their place. -/
theorem endAlike_types {decided : Json} (h : DecidedByType keys decided) {types : List String}
    (hsome : types ≠ []) (path path' : Path) :
    EndAlike anywhere (readTyped keys (.arr (types.map .str)) path)
      (readChoice (.arr (typeVariants keys types)) "anyOf" path') := by
  match types with
  | [] => exact absurd rfl hsome
  | [type] =>
    -- The list of one type is that type, and the choice of one variant is that variant.
    rw [List.map_singleton, readTyped_singleton, typeVariants, List.map_singleton, readChoice,
      readVariants, readVariants, readSchema_typeVariant h]
    rcases endAlike_typeVariant type path (path'.element "anyOf" 0) with
      ⟨shape, hleft, hright⟩ | ⟨e, e', hleft, hright, halike⟩
    · rw [hleft, hright]
      exact endAlike_ok shape
    · rw [hleft, hright]
      exact Or.inr ⟨e, e', rfl, rfl, halike⟩
  | first :: second :: rest =>
    rw [List.map_cons, List.map_cons, readTyped_types rfl, readChoice]
    have hvariants := endAlike_typeVariants h (first :: second :: rest) path path' 0
    refine hvariants.bind_of_ok fun members hmembers => ?_
    have hlength := length_of_readTypes hmembers
    match members with
    | [] => cases hlength
    | [only] => cases hlength
    | _ :: _ :: _ => exact endAlike_readUnion _

/-- **A union is read alike however it is spelled.** -/
theorem readAlike_of_respelled (h : Respelled keys keys') :
    ReadAlike anywhere (.obj keys) (.obj keys') := by
  cases h with
  | enumeration href hconst henum hsame henum' hanyOf' =>
    refine ⟨fun path path' _ => ?_, (hsame "default" (by decide)).symm⟩
    have href' := (hsame "$ref" (by decide)).trans href
    have hconst' := (hsame "const" (by decide)).trans hconst
    rw [readSchema_enum href hconst henum, readSchema_anyOf href' hconst' henum' hanyOf',
      readEnumeration, readChoice]
    exact (endAlike_constVariants _ path path' 0 0).bind fun members =>
      endAlike_members trivial _ _ members
  | choice href hconst henum hanyOf honeOf hsame hanyOf' =>
    refine ⟨fun path path' _ => ?_, (hsame "default" (by decide)).symm⟩
    have href' := (hsame "$ref" (by decide)).trans href
    have hconst' := (hsame "const" (by decide)).trans hconst
    have henum' := (hsame "enum" (by decide)).trans henum
    have hkeyword := choiceKeyword_oneOf hanyOf
    rw [readSchema_choice href hconst henum (hkeyword ▸ honeOf),
      readSchema_anyOf href' hconst' henum' hanyOf', hkeyword]
    have hvariants : VariantsBy (ReadAlike anywhere) (Fields.get? "oneOf" keys)
        (Fields.get? "oneOf" keys) := variantsBy_refl (fun schema _ => readAlike_refl schema) "oneOf"
    rw [honeOf] at hvariants
    exact endAlike_readChoice hvariants trivial fun _ => trivial
  | types href hconst henum hanyOf honeOf htype hsome hsame hanyOf' =>
    refine ⟨fun path path' _ => ?_, (hsame "default" (by decide)).symm⟩
    have href' := (hsame "$ref" (by decide)).trans href
    have hconst' := (hsame "const" (by decide)).trans hconst
    have henum' := (hsame "enum" (by decide)).trans henum
    have hdecided : DecidedByType keys _ :=
      ⟨href, hconst, henum, (choiceKeyword_oneOf hanyOf).symm ▸ honeOf, htype⟩
    rw [hdecided.readSchema_eq, readSchema_anyOf href' hconst' henum' hanyOf']
    exact endAlike_types hdecided hsome path path'

end

/-! ## Places -/

/-- What is rewritten is a schema with keys, before and after. -/
theorem Rewritten.objects {rule : Fields Json → Fields Json → Prop} {schema schema' : Json}
    (h : Rewritten rule schema schema') :
    ∃ keys keys', schema = .obj keys ∧ schema' = .obj keys' := by
  cases h <;> exact ⟨_, _, rfl, rfl⟩

section

variable {changed : List String} {keys keys' : Fields Json}

/-- The keys of which nothing but the value is read. -/
def plainKeywords : List String := "required" :: (decidingKeywords ++ boundKeywords)

/-- Schemas are read alike when none but the keys that hold schemas have changed, and what these hold
is read alike. -/
theorem SameBut.readAlike (hsame : SameBut changed keys keys')
    (hplain : ∀ key ∈ plainKeywords, key ∉ changed)
    (hvariants : ∀ keyword ∈ changed, keyword ∈ ["anyOf", "oneOf"] →
      VariantsBy (ReadAlike anywhere) (Fields.get? keyword keys) (Fields.get? keyword keys'))
    (hproperties : "properties" ∈ changed → PropertiesBy (ReadAlike anywhere)
      (Fields.get? "properties" keys) (Fields.get? "properties" keys'))
    (hitems : "items" ∈ changed → ItemsBy (ReadAlike anywhere)
      (Fields.get? "items" keys) (Fields.get? "items" keys')) :
    ReadAlike anywhere (.obj keys) (.obj keys') := by
  have hrefl (schema : Json) (_ : Below keys schema) : ReadAlike anywhere schema schema :=
    readAlike_refl schema
  have hvalue (key : String) (hkey : key ∈ plainKeywords) :
      Fields.get? key keys = Fields.get? key keys' := (hsame key (hplain key hkey)).symm
  have hchoice (keyword : String) (hkeyword : keyword ∈ ["anyOf", "oneOf"]) :
      VariantsBy (ReadAlike anywhere) (Fields.get? keyword keys) (Fields.get? keyword keys') := by
    by_cases hmem : keyword ∈ changed
    · exact hvariants keyword hmem hkeyword
    · rw [hsame keyword hmem]
      exact variantsBy_refl hrefl keyword
  refine readAlike_of_keys parallel_any ⟨fun key hkey => ?_, hchoice "anyOf" (by decide),
    hchoice "oneOf" (by decide), fun key hkey => ?_, ?_, ?_, ?_⟩
  · exact hvalue key (List.mem_cons_of_mem _ (List.mem_append_left _ hkey))
  · exact hvalue key (List.mem_cons_of_mem _ (List.mem_append_right _ hkey))
  · rw [hvalue "required" List.mem_cons_self]
    exact .same _
  · by_cases hmem : "properties" ∈ changed
    · exact hproperties hmem
    · rw [hsame "properties" hmem]
      exact propertiesBy_refl hrefl
  · by_cases hmem : "items" ∈ changed
    · exact hitems hmem
    · rw [hsame "items" hmem]
      exact itemsBy_refl hrefl

theorem SameBut.readAlike_items (hsame : SameBut ["items"] keys keys')
    (h : ItemsBy (ReadAlike anywhere) (Fields.get? "items" keys) (Fields.get? "items" keys')) :
    ReadAlike anywhere (.obj keys) (.obj keys') := by
  refine hsame.readAlike (by decide) (fun keyword hmem hkeyword => ?_) (fun hmem => ?_) fun _ => h
  · cases List.mem_singleton.mp hmem
    exact absurd hkeyword (by decide)
  · exact absurd hmem (by decide)

theorem SameBut.readAlike_properties (hsame : SameBut ["properties"] keys keys')
    (h : PropertiesBy (ReadAlike anywhere) (Fields.get? "properties" keys)
      (Fields.get? "properties" keys')) :
    ReadAlike anywhere (.obj keys) (.obj keys') := by
  refine hsame.readAlike (by decide) (fun keyword hmem hkeyword => ?_) (fun _ => h) fun hmem => ?_
  · cases List.mem_singleton.mp hmem
    exact absurd hkeyword (by decide)
  · exact absurd hmem (by decide)

theorem SameBut.readAlike_choice {keyword : String} (hkeyword : keyword ∈ ["anyOf", "oneOf"])
    (hsame : SameBut [keyword] keys keys')
    (h : VariantsBy (ReadAlike anywhere) (Fields.get? keyword keys) (Fields.get? keyword keys')) :
    ReadAlike anywhere (.obj keys) (.obj keys') := by
  have hapart : ∀ keyword ∈ ["anyOf", "oneOf"], ∀ key ∈ "properties" :: "items" :: plainKeywords,
      key ∉ [keyword] := by decide
  have hapart := hapart keyword hkeyword
  refine hsame.readAlike (fun key hkey => ?_) (fun other hmem _ => ?_) (fun hmem => ?_) fun hmem => ?_
  · exact hapart key (List.mem_cons_of_mem _ (List.mem_cons_of_mem _ hkey))
  · cases List.mem_singleton.mp hmem
    exact h
  · exact absurd hmem (hapart "properties" (by decide))
  · exact absurd hmem (hapart "items" (by decide))

/-- Lists that differ at one place, in what is read alike, are read alike one by one. -/
theorem forall₂_replaced {schema schema' : Json} (h : ReadAlike anywhere schema schema')
    (front back : List Json) :
    List.Forall₂ (ReadAlike anywhere) (front ++ schema :: back) (front ++ schema' :: back) :=
  List.rel_append (List.forall₂_same.mpr fun schema _ => readAlike_refl schema)
    (.cons h (List.forall₂_same.mpr fun schema _ => readAlike_refl schema))

end

/-- **A schema rewritten at one place is read alike** if the rule says so of the place. -/
theorem readAlike_of_rewritten {rule : Fields Json → Fields Json → Prop}
    (hrule : ∀ keys keys', rule keys keys' → ReadAlike anywhere (.obj keys) (.obj keys'))
    {schema schema' : Json} (h : Rewritten rule schema schema') :
    ReadAlike anywhere schema schema' := by
  induction h with
  | here h => exact hrule _ _ h
  | property _ hsame hleft hright ih =>
    apply hsame.readAlike_properties
    rw [hleft, hright]
    refine .schemas ?_ ?_
    · simp [Fields.names]
    · rw [List.map_append, List.map_append, List.map_cons, List.map_cons]
      exact forall₂_replaced ih _ _
  | items h hsame hleft hright ih =>
    apply hsame.readAlike_items
    rw [hleft, hright]
    obtain ⟨item, item', rfl, rfl⟩ := h.objects
    exact .schema ih
  | listedItem _ hsame hleft hright _ =>
    apply hsame.readAlike_items
    rw [hleft, hright]
    exact .malformed (fun _ h => Json.noConfusion h) fun _ h => Json.noConfusion h
  | variant hkeyword _ hsame hleft hright ih =>
    apply hsame.readAlike_choice hkeyword
    rw [hleft, hright]
    exact .schemas (forall₂_replaced ih _ _)
  | unread hkey hsame =>
    refine readAlike_of_similar parallel_any (similar_of_get?_eq fun key hkeyword => hsame key ?_)
    exact fun hmem => hkey (List.mem_singleton.mp hmem ▸ hkeyword)

/-- **Spellings of a union are interchangeable** anywhere in a schema: the same shape is read, and every
dialect makes the same module of it, with the same warnings. -/
theorem ofSchema_respelled {schema schema' : Json} (h : Rewritten Respelled schema schema') :
    (∀ shape, ofSchema schema' = .ok shape ↔ ofSchema schema = .ok shape) ∧
      ∀ shape, ofSchema schema = .ok shape → ∀ d settings source?,
        Module.ofSchema d settings source? schema' = Module.ofSchema d settings source? schema := by
  have hread : EndAlike anywhere (ofSchema schema) (ofSchema schema') :=
    endAlike_ofSchema trivial (readAlike_of_rewritten (fun _ _ => readAlike_of_respelled) h)
  constructor
  · intro shape
    rcases hread with ⟨shape', hleft, hright⟩ | ⟨e, e', hleft, hright, -⟩
    · rw [hleft, hright]
    · rw [hleft, hright]
      exact iff_of_false nofun nofun
  · intro shape hshape d settings source?
    rcases hread with ⟨shape', hleft, hright⟩ | ⟨e, e', hleft, -⟩
    · rw [Module.ofSchema, Module.ofSchema, hleft, hright]
    · rw [hshape] at hleft
      cases hleft

/-- The keys of a code with two types. -/
def codeKeys : Fields Json :=
  [("type", .arr [.str "string", .str "number"]), ("minLength", .int 2), ("default", .str "A1")]

/-- The same with a choice in place of the types. -/
def respelledCodeKeys : Fields Json :=
  [("default", .str "A1"), ("anyOf", .arr (typeVariants codeKeys ["string", "number"])),
    ("minLength", .int 2)]

theorem ofSchema_respelled_of_types :
    let schema := Json.obj [("properties", .obj [("code", .obj codeKeys)])]
    let schema' := Json.obj [("properties", .obj [("code", .obj respelledCodeKeys)])]
    let shape := Shape.object [("code", .optional (.union [.string (.int 2) .null .null,
      .number .null .null]) (.json (.str "A1")) (.bool true))]
    Rewritten Respelled schema schema' ∧ ofSchema schema = .ok shape ∧
      ofSchema schema' = .ok shape ∧ ∀ d settings source?,
        Module.ofSchema d settings source? schema' = Module.ofSchema d settings source? schema := by
  intro schema schema' shape
  have hsame : SameBut ["anyOf", "type"] codeKeys respelledCodeKeys := by
    intro key hkey
    have hanyOf : "anyOf" ≠ key := fun heq => hkey (heq ▸ by decide)
    have htype : "type" ≠ key := fun heq => hkey (heq ▸ by decide)
    by_cases hdefault : "default" = key
    · subst hdefault
      rfl
    · simp [codeKeys, respelledCodeKeys, Fields.get?, hanyOf, htype, hdefault]
  have hcode : Rewritten Respelled (.obj codeKeys) (.obj respelledCodeKeys) :=
    .here (.types rfl rfl rfl rfl rfl rfl (List.cons_ne_nil "string" ["number"]) hsame rfl)
  have h : Rewritten Respelled schema schema' := by
    refine @Rewritten.property Respelled _ _ [] [] "code" _ _ hcode (fun key hkey => ?_) rfl rfl
    have hproperties : "properties" ≠ key := fun heq => hkey (heq ▸ by decide)
    simp [Fields.get?, hproperties]
  have hread : ofSchema schema = .ok shape := by
    have hhas : Fields.has "properties" [("properties", Json.obj [("code", .obj codeKeys)])] =
        true := rfl
    rw [ofSchema, readSchema_untyped rfl rfl rfl rfl rfl, if_pos hhas, readProperties_present rfl,
      readEach, readEach, readSchema_type rfl rfl rfl rfl rfl, readTyped_types rfl, readTypes,
      readTypes, readTypes, readTyped_string rfl, readTyped_number rfl]
    rfl
  obtain ⟨hshapes, hmodules⟩ := ofSchema_respelled h
  exact ⟨h, hread, (hshapes shape).mpr hread, hmodules shape hread⟩

end SchemaForge.Shape
