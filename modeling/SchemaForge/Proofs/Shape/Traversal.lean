import Mathlib.Data.List.Nodup
import SchemaForge.Proofs.Shape.Failure
import SchemaForge.Proofs.Shape.Position

/-!
# `SchemaForge.Proofs.Shape.Traversal` — the parts of a schema that are read, and how paths name them

Which parts of a schema are read depends on the key that decides how it is read: the values of an
enumeration, the variants of a choice, the schema once for each of its types, the schemas of the
properties or the one of the items. They are read in order, and each has a label: the steps by which
the path of a part is longer than that of the schema. A step into a type stays at the same schema, with
this one type in place of the list.

A position counts the parts that are gone into, from the top. A path is followed label by label, and
leads to one part, as long as no two properties have the same name.

## Contents
- **Parts.** `SchemaPart`, what is read of it (`read`) and what parts it has (`parts`).
- **Paths that can be followed.** `Navigable` schemas have names without slashes; `Sound` is what is
  asked of a part, and passes on to its own parts (`Sound.child`).
- **Labels.** `WellLabelled` parts are told apart by their labels.
- **Following.** `Leads`, and `Leads.unique`.
-/

namespace SchemaForge.Shape

/-! ## Parts -/

/-- What is read at one place of a schema. -/
inductive SchemaPart where
  /-- A schema. -/
  | schema (content : Json)
  /-- A value of an enumeration. -/
  | value (content : Json)

namespace SchemaPart

/-- A part, behind the steps that lead to it. -/
abbrev Labelled := List String × SchemaPart

/-- What is read of a part at a place. -/
def read : SchemaPart → Path → Except ReadError Shape
  | .schema content => readSchema content
  | .value content => readLiteral content

/-- The parts in a list under a keyword, from the given number on. -/
def numbered (keyword : String) (part : Json → SchemaPart) (items : List Json) (index : Nat) :
    List Labelled :=
  (items.zipIdx index).map fun item => ([keyword, toString item.2], part item.1)

theorem numbered_cons (keyword : String) (part : Json → SchemaPart) (item : Json)
    (rest : List Json) (index : Nat) :
    numbered keyword part (item :: rest) index =
      ([keyword, toString index], part item) :: numbered keyword part rest (index + 1) := by
  rw [numbered, List.zipIdx_cons, List.map_cons]
  rfl

/-- The parts in a list under a keyword, if it is one. -/
def listParts (keyword : String) (part : Json → SchemaPart) : Json → List Labelled
  | .arr items => numbered keyword part items 0
  | _ => []

/-- The part that a property is. -/
def ofProperty (property : String × Json) : Labelled :=
  (["properties", property.1], .schema property.2)

/-- The part that a schema is with one of its types. -/
def ofType (keys : Fields Json) (type : Json) : Labelled :=
  (["type", type.display], .schema (.obj (Fields.set "type" type keys)))

/-- The part that the items of a list are. -/
def ofItems (item : Fields Json) : Labelled := (["items"], .schema (.obj item))

/-- The parts of an object. -/
def propertyParts (keys : Fields Json) : List Labelled :=
  match Fields.get? "properties" keys with
  | some (.obj properties) => properties.map ofProperty
  | _ => []

/-- The parts of a list. -/
def itemParts (keys : Fields Json) : List Labelled :=
  match Fields.get? "items" keys with
  | some (.obj item) => [ofItems item]
  | _ => []

/-- The parts of a schema that is read by its type. -/
def typeParts (keys : Fields Json) (type : Json) : List Labelled :=
  match soleType type with
  | .arr types => types.map (ofType keys)
  | .str "object" => propertyParts keys
  | .str "array" => itemParts keys
  | _ => []

theorem itemParts_eq_nil {keys : Fields Json}
    (hitems : ∀ item, Fields.get? "items" keys ≠ some (.obj item)) : itemParts keys = [] := by
  unfold itemParts
  split
  · next item hitem => exact absurd hitem (hitems item)
  · rfl

theorem typeParts_eq_nil {keys : Fields Json} {type : Json}
    (htypes : ∀ types, soleType type ≠ .arr types) (hobject : soleType type ≠ .str "object")
    (harray : soleType type ≠ .str "array") : typeParts keys type = [] := by
  unfold typeParts
  split
  · next hsole => exact absurd hsole (htypes _)
  · next hsole => exact absurd hsole hobject
  · next hsole => exact absurd hsole harray
  · rfl

/-- The parts of a schema, by the first of its keys that decides. -/
def keyParts (keys : Fields Json) : List Labelled :=
  match Fields.get? "$ref" keys with
  | some _ => []
  | none => match Fields.get? "const" keys with
  | some _ => []
  | none => match Fields.get? "enum" keys with
  | some values => listParts "enum" .value values
  | none => match Fields.get? (choiceKeyword keys) keys with
  | some variants => listParts (choiceKeyword keys) .schema variants
  | none => match Fields.get? "type" keys with
  | some type => typeParts keys type
  | none => propertyParts keys

/-- **The parts that are read of a part**, in the order in which they are read. -/
def parts : SchemaPart → List Labelled
  | .schema (.obj keys) => keyParts keys
  | .schema _ => []
  | .value _ => []

end SchemaPart

/-! ## Paths that can be followed -/

/-- Whether the names in a schema can be steps of a path. -/
structure Signposted (keys : Fields Json) : Prop where
  /-- No property has a slash in its name. -/
  properties : ∀ properties, Fields.get? "properties" keys = some (.obj properties) →
    ∀ name ∈ Fields.names properties, '/' ∉ name.toList
  /-- A list of types has nothing but names, without slashes. -/
  types : ∀ types, Fields.get? "type" keys = some (.arr types) →
    ∀ type ∈ types, ∃ name : String, type = .str name ∧ '/' ∉ name.toList

/-- **Whether paths into a schema can be followed**: it can at every depth. -/
def Navigable (schema : Json) : Prop := ∀ keys, Subschema (.obj keys) schema → Signposted keys

section

variable {keys : Fields Json} {type : Json}

/-- A list of types is not a list in a list. -/
theorem Signposted.type_eq (h : Signposted keys) {types : List Json}
    (htype : Fields.get? "type" keys = some type) (hsole : soleType type = .arr types) :
    type = .arr types := by
  unfold soleType at hsole
  split at hsole
  · next only =>
    obtain ⟨name, rfl, -⟩ := h.types [only] htype only List.mem_cons_self
    cases hsole
  · exact hsole

/-- To set a smaller value makes the keys smaller. -/
theorem sizeOf_set_lt {name : String} {value value' : Json}
    (h : Fields.get? name keys = some value) (hlt : sizeOf value' < sizeOf value) :
    sizeOf (Fields.set name value' keys) < sizeOf keys := by
  induction keys with
  | nil => cases h
  | cons field rest ih =>
    obtain ⟨key, found⟩ := field
    by_cases hkey : key = name
    · rw [Fields.get?, if_pos hkey] at h
      cases h
      rw [Fields.set, if_pos hkey]
      simp
      omega
    · rw [Fields.get?, if_neg hkey] at h
      have hrest := ih h
      rw [Fields.set, if_neg hkey]
      simp
      omega

/-- The schemas below are the same whatever the type is. -/
theorem subschema_of_set_type {part : Json}
    (h : Subschema part (.obj (Fields.set "type" type keys))) :
    part = .obj (Fields.set "type" type keys) ∨ Subschema part (.obj keys) := by
  cases h with
  | here => exact Or.inl rfl
  | property hproperties hmem hpart =>
    rw [get?_set_type (by decide)] at hproperties
    exact Or.inr (.property hproperties hmem hpart)
  | items hitem hpart =>
    rw [get?_set_type (by decide)] at hitem
    exact Or.inr (.items hitem hpart)
  | variant hvariants hmem hpart =>
    rw [choiceKeyword_set_type, get?_set_type choiceKeyword_ne_type] at hvariants
    exact Or.inr (.variant hvariants hmem hpart)

theorem Regular.set_type (h : Regular (.obj keys)) (type : Json) :
    Regular (.obj (Fields.set "type" type keys)) := by
  intro others hpart
  rcases subschema_of_set_type hpart with heq | hpart
  · cases heq
    have hkeyed : WellKeyed keys := h keys .here
    refine ⟨fun value hvalue => ?_, fun keyword hkeyword value hvalue => ?_⟩
    · rw [get?_set_type (by decide)] at hvalue
      exact hkeyed.properties value hvalue
    · have hne : keyword ≠ "type" := fun heq => absurd (heq ▸ hkeyword) (by decide)
      rw [get?_set_type hne] at hvalue
      exact hkeyed.lists keyword hkeyword value hvalue
  · exact h others hpart

theorem Navigable.set_type (h : Navigable (.obj keys)) (name : String) :
    Navigable (.obj (Fields.set "type" (.str name) keys)) := by
  intro others hpart
  rcases subschema_of_set_type hpart with heq | hpart
  · cases heq
    refine ⟨fun properties hproperties => ?_, fun types htypes => ?_⟩
    · rw [get?_set_type (by decide)] at hproperties
      exact (h keys .here).properties properties hproperties
    · rw [Fields.get?_set_self] at htypes
      cases htypes
  · exact h others hpart

end

namespace SchemaPart

/-- **What is asked of a part**: a schema is regular, and paths into it can be followed. -/
def Sound : SchemaPart → Prop
  | .schema content => Regular content ∧ Navigable content
  | .value _ => True

section

variable {keys : Fields Json}

/-- What is asked of a schema is asked of its own keys, and of the schemas in it. -/
theorem sound_of_parts (hkeyed : WellKeyed keys) (hsign : Signposted keys)
    (hproperties : ∀ properties, Fields.get? "properties" keys = some (.obj properties) →
      ∀ property ∈ properties, Sound (.schema property.2))
    (hitems : ∀ item, Fields.get? "items" keys = some item → Sound (.schema item))
    (hvariants : ∀ variants, Fields.get? (choiceKeyword keys) keys = some (.arr variants) →
      ∀ variant ∈ variants, Sound (.schema variant)) : Sound (.schema (.obj keys)) where
  left := regular_of_parts hkeyed
    (fun properties hfound property hmem => (hproperties properties hfound property hmem).1)
    (fun item hfound => (hitems item hfound).1)
    fun variants hfound variant hmem => (hvariants variants hfound variant hmem).1
  right := forall_subschema hsign
    (fun properties hfound property hmem => (hproperties properties hfound property hmem).2)
    (fun item hfound => (hitems item hfound).2)
    fun variants hfound variant hmem => (hvariants variants hfound variant hmem).2

theorem Sound.property (h : Sound (.schema (.obj keys))) {properties : Fields Json}
    {property : String × Json}
    (hproperties : Fields.get? "properties" keys = some (.obj properties))
    (hproperty : property ∈ properties) : Sound (.schema property.2) :=
  ⟨h.1.property hproperties hproperty, fun others hpart =>
    h.2 others (.property hproperties hproperty hpart)⟩

theorem Sound.items (h : Sound (.schema (.obj keys))) {item : Json}
    (hitem : Fields.get? "items" keys = some item) : Sound (.schema item) :=
  ⟨h.1.items hitem, fun others hpart => h.2 others (.items hitem hpart)⟩

theorem Sound.variant (h : Sound (.schema (.obj keys))) {variants : List Json} {variant : Json}
    (hvariants : Fields.get? (choiceKeyword keys) keys = some (.arr variants))
    (hvariant : variant ∈ variants) : Sound (.schema variant) :=
  ⟨h.1.variant hvariants hvariant, fun others hpart =>
    h.2 others (.variant hvariants hvariant hpart)⟩

theorem Sound.set_type (h : Sound (.schema (.obj keys))) (name : String) :
    Sound (.schema (.obj (Fields.set "type" (.str name) keys))) :=
  ⟨h.1.set_type _, h.2.set_type name⟩

/-- **What the parts of a schema can be**, if paths into it can be followed. -/
theorem keyParts_cases {motive : List Labelled → Prop} (hsign : Signposted keys) (none : motive [])
    (enum : ∀ values, Fields.get? "enum" keys = some (.arr values) →
      motive (numbered "enum" .value values 0))
    (choice : ∀ variants, Fields.get? (choiceKeyword keys) keys = some (.arr variants) →
      motive (numbered (choiceKeyword keys) .schema variants 0))
    (types : ∀ types, Fields.get? "type" keys = some (.arr types) →
      motive (types.map (ofType keys)))
    (properties : ∀ properties, Fields.get? "properties" keys = some (.obj properties) →
      motive (properties.map ofProperty))
    (items : ∀ item, Fields.get? "items" keys = some (.obj item) → motive [ofItems item]) :
    motive (keyParts keys) := by
  have hlist {keyword : String} {part : Json → SchemaPart} {value : Json}
      (h : ∀ items, value = .arr items → motive (numbered keyword part items 0)) :
      motive (listParts keyword part value) := by
    cases value with
    | arr items => exact h items rfl
    | _ => exact none
  have hproperties : motive (propertyParts keys) := by
    unfold propertyParts
    split
    · next hfound => exact properties _ hfound
    · exact none
  unfold keyParts
  split
  · exact none
  split
  · exact none
  split
  · next hfound => exact hlist fun values heq => enum values (heq ▸ hfound)
  split
  · next hfound => exact hlist fun variants heq => choice variants (heq ▸ hfound)
  split
  · next type hfound =>
    unfold typeParts
    split
    · next hsole => exact types _ (hsign.type_eq hfound hsole ▸ hfound)
    · exact hproperties
    · unfold itemParts
      split
      · next hfound => exact items _ hfound
      · exact none
    · exact none
  · exact hproperties

theorem part_of_mem_numbered {keyword : String} {part : Json → SchemaPart} {items : List Json}
    {index : Nat} {child : Labelled} (h : child ∈ numbered keyword part items index) :
    ∃ number item, item ∈ items ∧ items[number - index]? = some item ∧
      child = ([keyword, toString number], part item) := by
  obtain ⟨⟨item, number⟩, hmem, rfl⟩ := List.mem_map.mp h
  obtain ⟨hle, hget⟩ := List.mem_zipIdx_iff_le_and_getElem?_sub.mp hmem
  exact ⟨number, item, List.mem_of_getElem? hget, hget, rfl⟩

/-- **What is asked of a part passes on to its parts.** -/
theorem Sound.child {part : SchemaPart} (h : part.Sound) {child : Labelled}
    (hchild : child ∈ part.parts) : child.2.Sound := by
  match part with
  | .schema (.obj keys) =>
    suffices hall : ∀ child ∈ keyParts keys, child.2.Sound from hall child hchild
    refine keyParts_cases (motive := fun parts => ∀ child ∈ parts, child.2.Sound) (h.2 keys .here)
      nofun ?_ ?_ ?_ ?_ ?_
    · intro values _ child hchild
      obtain ⟨number, value, -, -, rfl⟩ := part_of_mem_numbered hchild
      trivial
    · intro variants hvariants child hchild
      obtain ⟨number, variant, hvariant, -, rfl⟩ := part_of_mem_numbered hchild
      exact h.variant hvariants hvariant
    · intro types htypes child hchild
      obtain ⟨type, htype, rfl⟩ := List.mem_map.mp hchild
      obtain ⟨name, rfl, -⟩ := (h.2 keys .here).types types htypes type htype
      exact h.set_type name
    · intro properties hproperties child hchild
      obtain ⟨property, hproperty, rfl⟩ := List.mem_map.mp hchild
      exact h.property hproperties hproperty
    · intro item hitem child hchild
      rw [List.mem_singleton.mp hchild]
      exact h.items hitem

/-- **The parts of a part are smaller.** -/
theorem Sound.sizeOf_child {part : SchemaPart} (h : part.Sound) {child : Labelled}
    (hchild : child ∈ part.parts) : sizeOf child.2 < sizeOf part := by
  match part with
  | .schema (.obj keys) =>
    suffices hall : ∀ child ∈ keyParts keys, sizeOf child.2 < 1 + (1 + sizeOf keys) by
      rw [SchemaPart.schema.sizeOf_spec, Json.obj.sizeOf_spec]
      exact hall child hchild
    have hitem {items : List Json} {key : String} (hkey : Fields.get? key keys = some (.arr items))
        {item : Json} (hitem : item ∈ items) : sizeOf item < sizeOf keys := by
      have hlist := Fields.sizeOf_lt_of_get? hkey
      have hmember := List.sizeOf_lt_of_mem hitem
      rw [Json.arr.sizeOf_spec] at hlist
      omega
    refine keyParts_cases (motive := fun parts => ∀ child ∈ parts, sizeOf child.2 < _)
      (h.2 keys .here) nofun ?_ ?_ ?_ ?_ ?_
    · intro values hvalues child hchild
      obtain ⟨number, value, hvalue, -, rfl⟩ := part_of_mem_numbered hchild
      have hlt := hitem hvalues hvalue
      rw [SchemaPart.value.sizeOf_spec]
      omega
    · intro variants hvariants child hchild
      obtain ⟨number, variant, hvariant, -, rfl⟩ := part_of_mem_numbered hchild
      have hlt := hitem hvariants hvariant
      rw [SchemaPart.schema.sizeOf_spec]
      omega
    · intro types htypes child hchild
      obtain ⟨type, htype, rfl⟩ := List.mem_map.mp hchild
      have hsmaller := List.sizeOf_lt_of_mem htype
      have hlt : sizeOf (Fields.set "type" type keys) < sizeOf keys :=
        sizeOf_set_lt htypes (by rw [Json.arr.sizeOf_spec]; omega)
      rw [ofType, SchemaPart.schema.sizeOf_spec, Json.obj.sizeOf_spec]
      omega
    · intro properties hproperties child hchild
      obtain ⟨⟨name, schema⟩, hproperty, rfl⟩ := List.mem_map.mp hchild
      have hfields := sizeOf_lt_of_get?_obj hproperties
      have hfield := List.sizeOf_lt_of_mem hproperty
      rw [Prod.mk.sizeOf_spec] at hfield
      rw [ofProperty, SchemaPart.schema.sizeOf_spec]
      show 1 + sizeOf schema < _
      omega
    · intro item hitem child hchild
      have hlt := Fields.sizeOf_lt_of_get? hitem
      rw [List.mem_singleton.mp hchild, ofItems, SchemaPart.schema.sizeOf_spec]
      omega

end

/-! ## Labels -/

/-- **Whether parts can be told apart by their labels**, and labels from what follows them. -/
structure WellLabelled (parts : List Labelled) : Prop where
  /-- No label is empty. -/
  ne_nil : ∀ child ∈ parts, child.1 ≠ []
  /-- All labels are of one length. -/
  length_eq : ∀ child ∈ parts, ∀ other ∈ parts, child.1.length = other.1.length
  /-- Parts with one label are one part. -/
  part_eq : ∀ child ∈ parts, ∀ other ∈ parts, child.1 = other.1 → child.2 = other.2
  /-- No label has a slash. -/
  slash : ∀ child ∈ parts, ∀ step ∈ child.1, '/' ∉ step.toList

theorem wellLabelled_nil : WellLabelled [] := ⟨nofun, nofun, nofun, nofun⟩

/-- Labels of two steps, of which the second one tells the part. -/
theorem wellLabelled_pairs {parts : List Labelled} (word : String) (hword : '/' ∉ word.toList)
    (hlabels : ∀ child ∈ parts, ∃ step : String, '/' ∉ step.toList ∧ child.1 = [word, step])
    (hparts : ∀ child ∈ parts, ∀ other ∈ parts, child.1 = other.1 → child.2 = other.2) :
    WellLabelled parts where
  ne_nil child hchild := by
    obtain ⟨step, -, hlabel⟩ := hlabels child hchild
    rw [hlabel]
    exact List.cons_ne_nil _ _
  length_eq child hchild other hother := by
    obtain ⟨step, -, hlabel⟩ := hlabels child hchild
    obtain ⟨step', -, hlabel'⟩ := hlabels other hother
    rw [hlabel, hlabel']
    rfl
  part_eq := hparts
  slash child hchild := by
    obtain ⟨step, hstep, hlabel⟩ := hlabels child hchild
    rw [hlabel]
    exact List.forall_mem_cons.mpr ⟨hword, List.forall_mem_singleton.mpr hstep⟩

theorem wellLabelled_numbered {keyword : String} (hkeyword : '/' ∉ keyword.toList)
    (part : Json → SchemaPart) (items : List Json) (index : Nat) :
    WellLabelled (numbered keyword part items index) := by
  refine wellLabelled_pairs keyword hkeyword (fun child hchild => ?_) fun child hchild other hother h => ?_
  · obtain ⟨number, item, -, -, rfl⟩ := part_of_mem_numbered hchild
    exact ⟨toString number, slash_notMem_toString number, rfl⟩
  · obtain ⟨number, item, -, hitem, rfl⟩ := part_of_mem_numbered hchild
    obtain ⟨number', item', -, hitem', rfl⟩ := part_of_mem_numbered hother
    have hnumber : toString number = toString number' := (List.cons.inj (List.cons.inj h).2).1
    cases toString_injective hnumber
    cases hitem.symm.trans hitem'
    rfl

theorem wellLabelled_types {keys : Fields Json} {types : List Json}
    (h : ∀ type ∈ types, ∃ name : String, type = .str name ∧ '/' ∉ name.toList) :
    WellLabelled (types.map (ofType keys)) := by
  refine wellLabelled_pairs "type" (by decide) (fun child hchild => ?_)
    fun child hchild other hother heq => ?_
  · obtain ⟨type, htype, rfl⟩ := List.mem_map.mp hchild
    obtain ⟨name, rfl, hslash⟩ := h type htype
    exact ⟨name, hslash, rfl⟩
  · obtain ⟨type, htype, rfl⟩ := List.mem_map.mp hchild
    obtain ⟨type', htype', rfl⟩ := List.mem_map.mp hother
    obtain ⟨name, rfl, -⟩ := h type htype
    obtain ⟨name', rfl, -⟩ := h type' htype'
    have hname : name = name' := (List.cons.inj (List.cons.inj heq).2).1
    rw [hname]

theorem wellLabelled_properties {properties : Fields Json}
    (hnames : (Fields.names properties).Nodup)
    (hslash : ∀ name ∈ Fields.names properties, '/' ∉ name.toList) :
    WellLabelled (properties.map ofProperty) := by
  refine wellLabelled_pairs "properties" (by decide) (fun child hchild => ?_)
    fun child hchild other hother heq => ?_
  · obtain ⟨property, hproperty, rfl⟩ := List.mem_map.mp hchild
    exact ⟨property.1, hslash _ (List.mem_map.mpr ⟨property, hproperty, rfl⟩), rfl⟩
  · obtain ⟨property, hproperty, rfl⟩ := List.mem_map.mp hchild
    obtain ⟨property', hproperty', rfl⟩ := List.mem_map.mp hother
    have hname : property.1 = property'.1 := (List.cons.inj (List.cons.inj heq).2).1
    rw [List.inj_on_of_nodup_map hnames hproperty hproperty' hname]

theorem wellLabelled_items (item : Fields Json) : WellLabelled [ofItems item] where
  ne_nil child hchild := by
    rw [List.mem_singleton.mp hchild]
    exact List.cons_ne_nil _ _
  length_eq child hchild other hother := by
    rw [List.mem_singleton.mp hchild, List.mem_singleton.mp hother]
  part_eq child hchild other hother _ := by
    rw [List.mem_singleton.mp hchild, List.mem_singleton.mp hother]
  slash child hchild := by
    rw [List.mem_singleton.mp hchild]
    exact List.forall_mem_singleton.mpr (by decide)

/-- **The parts of a part are told apart by their labels.** -/
theorem Sound.wellLabelled {part : SchemaPart} (h : part.Sound) : WellLabelled part.parts := by
  match part with
  | .schema (.obj keys) =>
    have hkeyword : '/' ∉ (choiceKeyword keys).toList := by
      unfold choiceKeyword
      split <;> decide
    refine keyParts_cases (motive := WellLabelled) (h.2 keys .here) wellLabelled_nil
      (fun values _ => wellLabelled_numbered (by decide) _ values 0)
      (fun variants _ => wellLabelled_numbered hkeyword _ variants 0)
      (fun types htypes => wellLabelled_types ((h.2 keys .here).types types htypes))
      (fun properties hproperties => ?_) fun item _ => wellLabelled_items item
    exact wellLabelled_properties ((h.1 keys .here).properties _ hproperties)
      ((h.2 keys .here).properties properties hproperties)
  | .schema .null | .schema (.bool _) | .schema (.int _) | .schema (.float _) | .schema (.str _)
  | .schema (.arr _) | .value _ => exact wellLabelled_nil

/-! ## Following -/

/-- `Leads steps position part top`: from the top, the steps lead to the part, which stands at the
position. -/
inductive Leads : List String → Position → SchemaPart → SchemaPart → Prop where
  /-- Without a step they stay. -/
  | here {part : SchemaPart} : Leads [] [] part part
  /-- The label of a part leads to it. -/
  | within {number : Nat} {label steps : List String} {position : Position}
    {child part top : SchemaPart} : top.parts[number]? = some (label, child) →
      Leads steps position part child → Leads (label ++ steps) (number :: position) part top

section

variable {steps : List String} {position : Position} {part top : SchemaPart}

/-- **Steps lead to one part.** -/
theorem Leads.unique (h : Leads steps position part top) (htop : top.Sound) {position' : Position}
    {part' : SchemaPart} (h' : Leads steps position' part' top) : part' = part := by
  induction h generalizing position' part' with
  | here =>
    generalize hsteps : [] = all at h'
    cases h' with
    | here => rfl
    | within hchild =>
      have hlabel := htop.wellLabelled.ne_nil _ (List.mem_of_getElem? hchild)
      exact absurd (List.append_eq_nil_iff.mp hsteps.symm).1 hlabel
  | @within number label steps position child part top hchild _ ih =>
    have hlabels := htop.wellLabelled
    have hmem := List.mem_of_getElem? hchild
    generalize hsteps : label ++ steps = all at h'
    cases h' with
    | here => exact absurd (List.append_eq_nil_iff.mp hsteps).1 (hlabels.ne_nil _ hmem)
    | @within number' label' steps' position' child' _ _ hchild' h' =>
      -- Labels are of one length, so the steps divide in one way.
      have hmem' := List.mem_of_getElem? hchild'
      obtain ⟨hlabel, rfl⟩ := List.append_inj hsteps (hlabels.length_eq _ hmem _ hmem')
      cases hlabels.part_eq _ hmem _ hmem' hlabel
      exact ih (htop.child hmem) h'

/-- No step that leads anywhere has a slash. -/
theorem Leads.slash_notMem (h : Leads steps position part top) (htop : top.Sound) :
    ∀ step ∈ steps, '/' ∉ step.toList := by
  induction h with
  | here => exact nofun
  | within hchild _ ih =>
    have hmem := List.mem_of_getElem? hchild
    exact List.forall_mem_append.mpr ⟨htop.wellLabelled.slash _ hmem, ih (htop.child hmem)⟩

end

end SchemaPart

end SchemaForge.Shape
