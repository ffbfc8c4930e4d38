import SchemaForge.Module.Assembly
import SchemaForge.Proofs.Expression.Acceptance
import SchemaForge.Proofs.Shape.Reading

/-!
# `SchemaForge.Proofs.Module.Generation` — why a schema that was read may have no module

The reader builds only shapes that can be placed, and the writers refuse mostly what cannot be. Of
the reasons in `Expression.Offence` four are left: numbers without a numeral, as a literal or as a
bound, and in ArkType patterns next to a length. So a module of a schema that was read fails for one
of these, or not at all.

## Contents
- **Troubles.** `Troublesome`, and `contains_iff_troubled`: in a shape whose parts can all be placed
  there is no other offence.
- **Modules.** `outcome_ofSchema` and the result on reading and writing taken together.
-/

namespace SchemaForge.Module

open Expression (NonFinite Offence Contains Answers)
open Shape (Place Placed Occurs Everywhere InOrder PatternIsText)

/-! ## Troubles -/

/-- **What may be wrong with a part that can be placed**, and the construct that its refusal
names. -/
inductive Troublesome (d : Dialect) : Shape → Construct → Prop where
  /-- A literal that is no ordinary number. -/
  | literal {value : Json} {construct : Construct} :
    NonFinite value construct → Troublesome d (.literal value) construct
  /-- A lower bound that is none. -/
  | minimum {minimum maximum : Json} {construct : Construct} :
    NonFinite minimum construct → Troublesome d (.number minimum maximum) construct
  /-- An upper bound that is none, except in ArkType, which leaves it out. -/
  | maximum {minimum maximum : Json} {construct : Construct} :
    d ≠ .arkType → NonFinite maximum construct → Troublesome d (.number minimum maximum) construct
  /-- A pattern that says something next to a length, in ArkType. -/
  | pattern {minLength maxLength : Json} {pattern : String} :
    d = .arkType → pattern ≠ "" → minLength ≠ .null ∨ maxLength ≠ .null →
      Troublesome d (.string minLength maxLength (.str pattern)) .patternWithLength

/-- Whether a part of a shape, at any depth, makes the trouble that a construct names. -/
def Troubled (d : Dialect) (shape : Shape) (construct : Construct) : Prop :=
  ∃ place part, Occurs place part .root shape ∧ Troublesome d part construct

/-- A part that can be placed offends only by its numbers and patterns. -/
theorem offence_iff_troublesome {d : Dialect} {place : Place} {part : Shape}
    {construct : Construct} (hplaced : Placed place part) :
    Offence d place part construct ↔ Troublesome d part construct := by
  constructor
  · intro h
    cases h with
    | strayOptional hplace =>
      obtain ⟨rfl, -⟩ := hplaced
      simp at hplace
    | nestedOptional hinner => exact absurd hinner hplaced.2
    | foreign => exact hplaced.elim
    | literalValue hvalue => exact absurd hplaced hvalue
    | literalNumber hvalue => exact .literal hvalue
    | minimum hbound => exact .minimum hbound
    | maximum hd hbound => exact .maximum hd hbound
    | patternWithLength hd hpattern hlength => exact .pattern hd hpattern hlength
  · intro h
    cases h with
    | literal hvalue => exact .literalNumber hvalue
    | minimum hbound => exact .minimum hbound
    | maximum hd hbound => exact .maximum hd hbound
    | pattern hd hpattern hlength => exact .patternWithLength hd hpattern hlength

theorem contains_iff_troubled {d : Dialect} {shape : Shape} {construct : Construct}
    (hplaced : Everywhere Placed .root shape) :
    Contains d .root shape construct ↔ Troubled d shape construct := by
  constructor
  · rintro ⟨place, part, hpart, hoffence⟩
    exact ⟨place, part, hpart, (offence_iff_troublesome (hplaced place part hpart)).mp hoffence⟩
  · rintro ⟨place, part, hpart, htrouble⟩
    exact ⟨place, part, hpart, (offence_iff_troublesome (hplaced place part hpart)).mpr htrouble⟩

/-! ## Modules -/

/-- The author's text aside, a module comes out when the expression of its root does. -/
theorem answers_ofShape {d : Dialect} {settings : Settings} {unit : String}
    {properties : Fields Shape} (hunit : settings.indent = .str unit)
    (htexts : Everywhere (fun _ => PatternIsText) .root (.object properties)) :
    Answers d (Contains d .root (.object properties))
      (ofShape d settings none (.object properties)).outcome := by
  have hroot := Expression.answers_renderRoot d unit htexts
  rw [ofShape_none, around, Settings.indentation_of_str hunit]
  exact Expression.answers_bind_pure _ hroot

/-- With a schema that can be read, the outcome is that of writing its shape. -/
theorem outcome_ofSchema {schema : Json} {shape : Shape} (hread : Shape.ofSchema schema = .ok shape)
    (d : Dialect) (settings : Settings) (source? : Option String) :
    (ofSchema d settings source? schema).outcome
      = (ofShape d settings source? shape).outcome.mapError .render := by
  rw [ofSchema, hread]

/-- **Reading builds what writing can place.** Of a schema that can be read comes an object in which
everything can be placed, in the order of the schema. Unless a pattern in it is neither null nor a
text, a module of the schema fails for a number without a numeral or, in ArkType, for a pattern next
to a length, and it fails whenever there is one. -/
theorem ofSchema_placed_and_fails_iff {schema : Json} {shape : Shape}
    (hread : Shape.ofSchema schema = .ok shape) :
    ((∃ properties, shape = .object properties) ∧ Everywhere Placed .root shape ∧
      InOrder schema shape) ∧
    ∀ (d : Dialect) (settings : Settings) (unit : String), settings.indent = .str unit →
      Everywhere (fun _ => PatternIsText) .root shape →
      (∀ failure, (ofSchema d settings none schema).outcome = .error failure →
        ∃ refusal, failure = .render (.unsupported refusal) ∧ refusal.dialect = some d ∧
          Troubled d shape refusal.construct) ∧
      ((∃ construct, Troubled d shape construct) →
        ∃ failure, (ofSchema d settings none schema).outcome = .error failure) := by
  obtain ⟨hfrom, properties, rfl⟩ := Shape.ofSchema_eq_ok hread
  have hplaced := hfrom.placed .root
  refine ⟨⟨⟨properties, rfl⟩, hplaced, hfrom.inOrder⟩, ?_⟩
  intro d settings unit hunit htexts
  have hanswers := (answers_ofShape (d := d) hunit htexts).congr
    fun construct => contains_iff_troubled hplaced
  rw [outcome_ofSchema hread]
  cases houtcome : (ofShape d settings none (.object properties)).outcome with
  | ok text =>
    rw [houtcome] at hanswers
    constructor
    · intro failure h
      cases h
    · rintro ⟨construct, h⟩
      exact absurd h (hanswers construct)
  | error e =>
    rw [houtcome] at hanswers
    refine ⟨?_, fun _ => ⟨.render e, rfl⟩⟩
    intro failure h
    cases h
    cases e with
    | unsupported refusal => exact ⟨refusal, rfl, hanswers.2, hanswers.1⟩
    | patternNotText => exact hanswers.elim
    | indentNotText => exact hanswers.elim

/-- Zod has no numeral for the lower bound of an optional property. -/
theorem ofSchema_fails_for_minimum :
    let schema : Json := .obj [("type", .str "object"), ("properties", .obj
      [("tag", .obj [("enum", .arr [.str "a", .str "b"])]),
       ("size", .obj [("type", .str "number"), ("minimum", .float .nan)])]),
      ("required", .arr [.str "tag"])]
    let shape : Shape := .object [("tag", .union [.literal (.str "a"), .literal (.str "b")]),
      ("size", .optional (.number (.float .nan) .null) .null (.bool false))]
    Shape.ofSchema schema = .ok shape ∧ Everywhere (fun _ => PatternIsText) .root shape ∧
      ∃ failure, (ofSchema .zod {} none schema).outcome = .error failure := by
  intro schema shape
  have hread : Shape.ofSchema schema = .ok shape := by
    rw [Shape.ofSchema, Shape.readSchema_type rfl rfl rfl rfl rfl, Shape.readTyped_object rfl,
      Shape.readProperties_present rfl, Shape.readEach, Shape.readSchema_enum rfl rfl rfl,
      Shape.readEach, Shape.readSchema_type rfl rfl rfl rfl rfl, Shape.readTyped_number rfl,
      Shape.readEach]
    rfl
  have htexts : Everywhere (fun _ => PatternIsText) .root shape := by
    simp [shape, PatternIsText]
  have htrouble : Troubled .zod shape (.nonFinite .nan) :=
    ⟨.inner, .number (.float .nan) .null,
      .within (List.mem_cons_of_mem _ List.mem_cons_self)
        (.within (List.mem_singleton.mpr rfl) .here),
      .minimum ⟨.nan, rfl, id, rfl⟩⟩
  exact ⟨hread, htexts,
    ((ofSchema_placed_and_fails_iff hread).2 .zod {} "  " rfl htexts).2 ⟨_, htrouble⟩⟩

end SchemaForge.Module
