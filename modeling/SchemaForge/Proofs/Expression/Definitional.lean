import SchemaForge.Proofs.Expression.Layout
import SchemaForge.Proofs.Expression.Parts

/-!
# `SchemaForge.Proofs.Expression.Definitional` — which shapes are written as definitions

ArkType looks at the text of a part to see whether it is a definition, takes the quotes off, and puts
them on again around what it makes. None of this shows in the result: whether a shape is written as
a definition can be told from the shape, and the definition is the one made of those of its parts
without any quotes.

## Contents
- **Shapes.** `Shape.Definitional`, and `Shape.definition?` for what a shape is defined as.
- **Expressions.** `Told` relates a shape to what is written of it; `told_listDefinition` and
  `told_alternatives` for the two kinds that look at their parts.
- **Trees.** `gives_told` for whole trees, and `definition?_of_occurs` for their parts.
-/

namespace SchemaForge

/-! ## Shapes -/

namespace Shape

/-- **Whether there is a definition for a shape**: there is none for patterns and objects, and for
what is made of them. -/
inductive Definitional : Shape → Prop where
  | string {minLength maxLength pattern : Json} :
    pattern.isVacant = true → Definitional (.string minLength maxLength pattern)
  | number (minimum maximum : Json) : Definitional (.number minimum maximum)
  | boolean : Definitional .boolean
  | literal (value : Json) : Definitional (.literal value)
  | array {items : Shape} : Definitional items → Definitional (.array items)
  | union {members : List Shape} :
    (∀ member ∈ members, Definitional member) → Definitional (.union members)

theorem definitional_string_iff {minLength maxLength pattern : Json} :
    Definitional (.string minLength maxLength pattern) ↔ pattern.isVacant = true := by
  constructor
  · rintro ⟨⟩
    assumption
  · exact .string

theorem not_definitional_object (properties : Fields Shape) :
    ¬ Definitional (.object properties) := by
  intro h
  cases h

theorem definitional_array_iff {items : Shape} :
    Definitional (.array items) ↔ Definitional items := by
  constructor
  · rintro ⟨⟩
    assumption
  · exact .array

theorem definitional_union_iff {members : List Shape} :
    Definitional (.union members) ↔ ∀ member ∈ members, Definitional member := by
  constructor
  · rintro ⟨⟩
    assumption
  · exact .union

mutual

/-- The definition of a shape, made of those of its parts: nothing is quoted or read back. -/
def definition? : Shape → Option String
  | .string minLength maxLength pattern =>
    if pattern.isVacant then some (Expression.textDefinition minLength maxLength) else none
  | .number minimum _ =>
    if minimum.isNull then some "number"
    else (Script.number minimum).toOption.map fun bound => "number >= " ++ bound
  | .boolean => some "boolean"
  | .literal value => (Script.literal value).toOption
  | .array items => do
    let item ← definition? items
    return (if items.isUnion then "(" ++ item ++ ")" else item) ++ "[]"
  | .union members => do
    return " | ".intercalate (← definitions? members)
  | .object _ | .optional .. | .foreign _ => none

/-- The definitions of shapes in a row. -/
def definitions? : List Shape → Option (List String)
  | [] => some []
  | member :: rest => do
    let first ← definition? member
    return first :: (← definitions? rest)

end

theorem definitions?_eq_none {members : List Shape} {member : Shape} (hmember : member ∈ members)
    (h : definition? member = none) : definitions? members = none := by
  induction members with
  | nil => exact absurd hmember List.not_mem_nil
  | cons first rest ih =>
    rw [definitions?]
    rcases List.mem_cons.mp hmember with rfl | hmember
    · rw [h]
      rfl
    · rw [ih hmember]
      cases definition? first <;> rfl

/-- Where there is no definition, none is made. -/
theorem definition?_eq_none {shape : Shape} (h : ¬ shape.Definitional) :
    shape.definition? = none := by
  induction shape with
  | string minLength maxLength pattern =>
    rw [definition?, if_neg fun hpattern => h (.string hpattern)]
  | number minimum maximum => exact absurd (.number minimum maximum) h
  | boolean => exact absurd .boolean h
  | literal value => exact absurd (.literal value) h
  | object properties => rfl
  | array items ih =>
    rw [definition?, ih fun hitems => h (.array hitems)]
    rfl
  | union members ih =>
    simp only [definitional_union_iff, not_forall] at h
    obtain ⟨member, hmember, hnot⟩ := h
    rw [definition?, definitions?_eq_none hmember (ih member hmember hnot)]
    rfl
  | optional inner default hasDefault => rfl
  | foreign value => rfl

end Shape

namespace Expression

open Emission (Gives gives_pure gives_fail gives_orRefuse gives_warn_bind)
open Shape (Occurs)

/-! ## Expressions -/

/-- **What code tells of a shape**: it is the definition of the shape in quotes, or compound if the
shape has no definition. -/
def Told (shape : Shape) (code : String) : Prop :=
  (shape.Definitional ∧ ∃ text, shape.definition? = some text ∧ code = Script.doubleQuoted text) ∨
    (¬ shape.Definitional ∧ Script.IsCompound code)

variable {i : Indentation}

theorem Told.isDefinition_iff {shape : Shape} {code : String} (h : Told shape code) :
    Script.isDefinition code = true ↔ shape.Definitional := by
  rcases h with ⟨hshape, text, -, rfl⟩ | ⟨hshape, hcompound⟩
  · rw [Script.isDefinition, Script.definition?_doubleQuoted]
    exact iff_of_true rfl hshape
  · rw [Script.isDefinition, hcompound.definition?_eq_none]
    exact iff_of_false nofun hshape

theorem Told.definition?_eq {shape : Shape} {code : String} (h : Told shape code) :
    Script.definition? code = shape.definition? := by
  rcases h with ⟨-, text, htext, rfl⟩ | ⟨hshape, hcompound⟩
  · rw [Script.definition?_doubleQuoted, htext]
  · rw [hcompound.definition?_eq_none, Shape.definition?_eq_none hshape]

theorem gives_told_text (minLength maxLength pattern : Json) (path : Path) :
    Gives (Told (.string minLength maxLength pattern))
      (textType .arkType minLength maxLength pattern path) := by
  show Gives _ (arkTypeText minLength maxLength pattern path)
  unfold arkTypeText
  split
  · next hpattern =>
    refine gives_pure (Or.inl ⟨.string hpattern, _, ?_, rfl⟩)
    rw [Shape.definition?, if_pos hpattern]
  · next hpattern =>
    have hnot : ¬ (Shape.string minLength maxLength pattern).Definitional :=
      fun h => hpattern (Shape.definitional_string_iff.mp h)
    split
    · cases pattern with
      | str pattern => exact gives_pure (Or.inr ⟨hnot, isCompound_regexLiteral pattern⟩)
      | _ => exact gives_fail .patternNotText
    · exact gives_fail _

theorem gives_told_number (minimum maximum : Json) (path : Path) :
    Gives (Told (.number minimum maximum)) (numberType .arkType minimum maximum path) := by
  have hlower : Gives (Told (.number minimum maximum))
      (if minimum.isNull then pure (Script.doubleQuoted "number") else do
        let bound ← .orRefuse .arkType path (Script.number minimum)
        return Script.doubleQuoted ("number >= " ++ bound)) := by
    split
    · next hnull =>
      refine gives_pure (Or.inl ⟨.number minimum maximum, _, ?_, rfl⟩)
      rw [Shape.definition?, if_pos hnull]
    · next hnull =>
      refine (gives_orRefuse fun bound hbound => hbound).bind_pure fun bound hbound => ?_
      refine Or.inl ⟨.number minimum maximum, _, ?_, rfl⟩
      rw [Shape.definition?, if_neg hnull, hbound]
      rfl
  unfold numberType arkTypeNumber
  cases maximum.isNull with
  | true => exact hlower
  | false => exact gives_warn_bind _ hlower

theorem told_literalType {value : Json} {text : String} (hok : Script.literal value = .ok text) :
    Told (.literal value) (literalType .arkType text) := by
  refine Or.inl ⟨.literal value, text, ?_, rfl⟩
  rw [Shape.definition?, hok]
  rfl

theorem told_listDefinition {items : Shape} {item : String} (h : Told items item) :
    Told (.array items) (listDefinition items.isUnion item) := by
  unfold listDefinition
  rcases h with ⟨hitems, text, htext, rfl⟩ | ⟨hitems, hcompound⟩
  · rw [Script.definition?_doubleQuoted]
    refine Or.inl ⟨.array hitems, _, ?_, rfl⟩
    rw [Shape.definition?, htext]
    rfl
  · rw [hcompound.definition?_eq_none]
    exact Or.inr ⟨fun h => hitems (Shape.definitional_array_iff.mp h), isCompound_grouped item⟩

/-- Members all have definitions, or there is compound code among what is written of them. -/
theorem definitions_or_compound_of_told {members : List Shape} {codes : List String}
    (h : List.Forall₂ Told members codes) :
    ((∀ member ∈ members, member.Definitional) ∧
        ∃ texts, Shape.definitions? members = some texts ∧ codes = texts.map Script.doubleQuoted) ∨
      (∃ member ∈ members, ¬ member.Definitional) ∧ ∃ code ∈ codes, Script.IsCompound code := by
  induction h with
  | nil => exact Or.inl ⟨nofun, [], rfl, rfl⟩
  | @cons member code members codes hfirst _ ih =>
    rcases hfirst with ⟨hmember, text, htext, rfl⟩ | ⟨hmember, hcompound⟩
    · rcases ih with ⟨hmembers, texts, htexts, rfl⟩ | ⟨⟨other, hother, hnot⟩, code, hcode, hcompound⟩
      · refine Or.inl ⟨List.forall_mem_cons.mpr ⟨hmember, hmembers⟩, text :: texts, ?_, rfl⟩
        rw [Shape.definitions?, htext, htexts]
        rfl
      · exact Or.inr ⟨⟨other, List.mem_cons_of_mem _ hother, hnot⟩,
          code, List.mem_cons_of_mem _ hcode, hcompound⟩
    · exact Or.inr ⟨⟨member, List.mem_cons_self, hmember⟩, code, List.mem_cons_self, hcompound⟩

theorem definition_or_compound_of_told {members : List Shape} {codes : List String}
    (h : List.Forall₂ Told members codes) :
    ∀ code ∈ codes, Script.IsDefinition code ∨ Script.IsCompound code := by
  induction h with
  | nil => exact nofun
  | cons hfirst _ ih =>
    refine List.forall_mem_cons.mpr ⟨?_, ih⟩
    rcases hfirst with ⟨-, text, -, rfl⟩ | ⟨-, hcompound⟩
    · exact Or.inl (Script.isDefinition_doubleQuoted text)
    · exact Or.inr hcompound

theorem told_alternatives {members : List Shape} {codes : List String}
    (h : List.Forall₂ Told members codes) : Told (.union members) (alternatives codes) := by
  unfold alternatives
  rcases definitions_or_compound_of_told h with
    ⟨hmembers, texts, htexts, rfl⟩ | ⟨⟨member, hmember, hnot⟩, code, hcode, hcompound⟩
  · rw [Script.mapM_definition?_doubleQuoted]
    refine Or.inl ⟨.union hmembers, _, ?_, rfl⟩
    rw [Shape.definition?, htexts]
    rfl
  · rw [Script.mapM_definition?_eq_none hcode hcompound]
    refine Or.inr ⟨fun h => hnot (Shape.definitional_union_iff.mp h member hmember), ?_⟩
    exact Script.isCompound_alternatives (definition_or_compound_of_told h) hcode hcompound

/-! ## Trees -/

theorem gives_told_members {members : List Shape}
    (h : ∀ member ∈ members, ∀ path depth, Gives (Told member) (render .arkType i member path depth))
    (path : Path) (depth index : Nat) :
    Gives (List.Forall₂ Told members) (renderMembers .arkType i members path depth index) := by
  induction members generalizing index with
  | nil => exact gives_pure .nil
  | cons member rest ih =>
    obtain ⟨hfirst, hrest⟩ := List.forall_mem_cons.mp h
    rw [renderMembers]
    exact (hfirst _ depth).bind fun code hcode =>
      (ih hrest (index + 1)).bind_pure fun codes hcodes => .cons hcode hcodes

/-- **Whatever comes out tells whether the shape has a definition**, and which. -/
theorem gives_told (shape : Shape) (path : Path) (depth : Nat) :
    Gives (Told shape) (render .arkType i shape path depth) := by
  induction shape generalizing path depth with
  | string minLength maxLength pattern => exact gives_told_text minLength maxLength pattern path
  | number minimum maximum => exact gives_told_number minimum maximum path
  | boolean => exact gives_pure (Or.inl ⟨.boolean, _, rfl, rfl⟩)
  | literal value => exact (gives_orRefuse fun text => told_literalType).bind_pure fun _ => id
  | object properties ih =>
    rw [render, ← bind_assoc]
    have hany : Gives (fun _ => True)
        (renderLines .arkType i properties path depth >>= layout i depth) := fun _ _ => trivial
    exact hany.bind_pure fun map _ =>
      Or.inr ⟨Shape.not_definitional_object properties, isCompound_objectType map⟩
  | array items ih => exact (ih (path.child "items") depth).bind_pure fun _ => told_listDefinition
  | union members ih =>
    rw [render]
    cases henum : Shape.enumeration? members with
    | some enumeration =>
      -- A union of literals is written as a union of what is written of each of them.
      rw [Shape.eq_map_of_enumeration? henum]
      refine (gives_orRefuse fun texts => Script.forall₂_of_mapM_literal).bind_pure fun texts htexts => ?_
      refine told_alternatives ?_
      rw [List.forall₂_map_left_iff, List.forall₂_map_right_iff]
      exact htexts.imp fun _ _ => told_literalType
    | none => exact (gives_told_members ih path depth 0).bind_pure fun _ => told_alternatives
  | optional inner default hasDefault => exact gives_fail _
  | foreign value => exact gives_fail _

/-- A map is compound: it begins with a brace. -/
theorem gives_isCompound_layout (depth : Nat) (lines : List String) :
    Gives Script.IsCompound (layout i depth lines) := by
  have hbrace {map : String} (hhead : map.toList.head? = some '\x7b') : Script.IsCompound map :=
    Script.isCompound_of_head hhead rfl nofun
  unfold layout
  split
  · exact gives_pure (hbrace rfl)
  · split
    · refine gives_pure (hbrace ?_)
      simp only [String.append_assoc]
      rw [String.toList_append]
      rfl
    · exact gives_fail _

/-- **Definitions in a tree.** Whatever is written of a part of a tree that ArkType accepts is a
definition exactly if the part has one, and it is read back as the definition that is made from the
part. The map that stands for an object as the root of a module is none. -/
theorem definition?_of_occurs {shape : Shape} {whole : String}
    (h : (renderShape .arkType i shape).outcome = .ok whole) :
    (∀ place part, Occurs place part .root shape → ¬ part.IsOptional → ∀ path depth,
      ∃ code, (render .arkType i part path depth).outcome = .ok code ∧
        (Script.isDefinition code = true ↔ part.Definitional) ∧
        Script.definition? code = part.definition?) ∧
    ∀ properties, shape = .object properties →
      ∃ map, (renderRoot .arkType i properties).outcome = .ok map ∧
        Script.isDefinition map = false := by
  constructor
  · intro place part hpart hplain path depth
    obtain ⟨code, hcode⟩ := outcome_of_occurs h hpart hplain path depth
    have htold : Told part code := gives_told part path depth code hcode
    exact ⟨code, hcode, htold.isDefinition_iff, htold.definition?_eq⟩
  · rintro properties rfl
    rw [renderShape, render] at h
    obtain ⟨lines, hlines, h⟩ := Emission.outcome_bind_eq_ok_iff.mp h
    obtain ⟨map, hmap, -⟩ := Emission.outcome_bind_eq_ok_iff.mp h
    have hcompound : Script.IsCompound map := gives_isCompound_layout 0 lines map hmap
    refine ⟨map, Emission.outcome_bind_eq_ok_iff.mpr ⟨lines, hlines, hmap⟩, ?_⟩
    rw [Script.isDefinition, hcompound.definition?_eq_none]
    rfl

/-- A list of a union with a literal that has quotes, bars and brackets in it. -/
theorem definition?_of_occurs_array :
    let items : Shape := .union [.literal (.str "'\"] | ["), .array (.string (.int 1) .null .null)]
    let tree : Shape := .object [("a", .optional (.array items) .null .null), ("b", .object [])]
    (∃ whole, (renderShape .arkType (.unit " ") tree).outcome = .ok whole) ∧
      Occurs .inner (.array items) .root tree ∧
      ∃ code, (render .arkType (.unit " ") (.array items) .root 0).outcome = .ok code ∧
        Script.isDefinition code = true ∧
        Script.definition? code = some "('\\'\\\"] | [' | string >= 1[])[]" := by
  intro items tree
  have h : ∃ whole, (renderShape .arkType (.unit " ") tree).outcome = .ok whole := ⟨_, rfl⟩
  have hproperty : (Shape.Place.property, Shape.optional (.array items) .null .null) ∈ tree.parts := by
    simp [tree, Shape.parts]
  have hinner : (Shape.Place.inner, Shape.array items)
      ∈ (Shape.optional (.array items) .null .null).parts := by
    simp [Shape.parts]
  have hpart : Occurs .inner (.array items) .root tree := .within hproperty (.within hinner .here)
  have hitems : (Shape.array items).Definitional := by
    refine .array (.union (List.forall_mem_cons.mpr ⟨.literal _, ?_⟩))
    exact List.forall_mem_singleton.mpr (.array (.string rfl))
  obtain ⟨code, hcode, hdefinition, hread⟩ :=
    (definition?_of_occurs h.choose_spec).1 .inner (.array items) hpart id .root 0
  exact ⟨h, hpart, code, hcode, hdefinition.mpr hitems, hread.trans rfl⟩

end Expression

end SchemaForge
