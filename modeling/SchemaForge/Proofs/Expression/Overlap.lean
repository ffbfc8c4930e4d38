import SchemaForge.Proofs.Expression.Acceptance

/-!
# `SchemaForge.Proofs.Expression.Overlap` — where Zod Mini writes what Zod writes

Zod Mini has the builders of Zod under the same names. It only attaches differently: a demand or an
optional value is a call around the base and no method behind it. A tree in which nothing is attached
is therefore the same code in both dialects. What has no place in a tree is the same for both as well,
so of a tree that neither can write they refuse the same part.

## Contents
- **Emissions.** `Emission.Coincide` is one answer of two dialects, down to the text, with a rule for
  each way to sequence emissions.
- **Trees.** `Undemanding` parts have nothing attached; `coincide_render` by induction on the shape,
  and the result, `zodMini_writes_as_zod`.
-/

namespace SchemaForge

/-! ## Emissions -/

namespace Emission

variable {α β : Type} {d d' : Dialect}

/-- **Whether the answers of two dialects coincide**: the same comes out of both emissions, or both
dialects refuse one construct at one place. -/
def Coincide (d d' : Dialect) (first second : Emission α) : Prop :=
  (∃ a, first.outcome = .ok a ∧ second.outcome = .ok a) ∨
    ∃ construct path,
      first.outcome = .error (.unsupported { construct, path, dialect := some d }) ∧
      second.outcome = .error (.unsupported { construct, path, dialect := some d' })

theorem coincide_pure (a : α) : Coincide d d' (pure a) (pure a) := Or.inl ⟨a, rfl, rfl⟩

theorem coincide_refuse (construct : Construct) (path : Path) :
    Coincide d d' (refuse d construct path : Emission α) (refuse d' construct path) :=
  Or.inr ⟨construct, path, rfl, rfl⟩

theorem coincide_orRefuse (path : Path) (result : Except Construct α) :
    Coincide d d' (orRefuse d path result) (orRefuse d' path result) := by
  cases result with
  | ok a => exact coincide_pure a
  | error construct => exact coincide_refuse construct path

/-- In a sequence the rest is given the same by both dialects, or neither gets to it. -/
theorem Coincide.bind {first second : Emission α} (h : Coincide d d' first second)
    {next next' : α → Emission β} (hnext : ∀ a, Coincide d d' (next a) (next' a)) :
    Coincide d d' (first >>= next) (second >>= next') := by
  rcases h with ⟨a, ha, ha'⟩ | ⟨construct, path, he, he'⟩
  · unfold Coincide
    rw [outcome_bind_of_ok ha, outcome_bind_of_ok ha']
    exact hnext a
  · exact Or.inr ⟨construct, path, outcome_bind_of_error he next, outcome_bind_of_error he' next'⟩

theorem Coincide.bind_pure {first second : Emission α} (h : Coincide d d' first second)
    (f : α → β) :
    Coincide d d' (first >>= fun a => pure (f a)) (second >>= fun a => pure (f a)) :=
  h.bind fun a => coincide_pure (f a)

end Emission

namespace Expression

open Emission (Coincide coincide_pure coincide_refuse coincide_orRefuse)
open Shape (Everywhere)

/-! ## Trees -/

/-- Whether nothing is attached to a part: it is not optional, and there is neither a bound nor a
pattern that says something. -/
def Undemanding : Shape → Prop
  | .string minLength maxLength pattern =>
    minLength = .null ∧ maxLength = .null ∧ pattern.isVacant = true
  | .number minimum maximum => minimum = .null ∧ maximum = .null
  | .optional .. => False
  | .boolean | .literal _ | .object _ | .array _ | .union _ | .foreign _ => True

/-- Whether Zod and Zod Mini give one answer to a shape, wherever it stands. -/
def RenderCoincides (unit : String) (shape : Shape) : Prop :=
  ∀ path depth,
    Coincide .zod .zodMini (render .zod (.unit unit) shape path depth)
      (render .zodMini (.unit unit) shape path depth)

theorem not_isOptional_of_undemanding {shape : Shape} (h : Undemanding shape) :
    ¬ shape.IsOptional := by
  cases shape with
  | optional => exact h.elim
  | _ => exact id

theorem coincide_renderMembers {unit : String} {members : List Shape}
    (h : ∀ member ∈ members, RenderCoincides unit member) (path : Path) (depth index : Nat) :
    Coincide .zod .zodMini (renderMembers .zod (.unit unit) members path depth index)
      (renderMembers .zodMini (.unit unit) members path depth index) := by
  induction members generalizing index with
  | nil => exact coincide_pure []
  | cons member rest ih =>
    obtain ⟨hfirst, hrest⟩ := List.forall_mem_cons.mp h
    rw [renderMembers, renderMembers]
    exact (hfirst _ depth).bind fun code => (ih hrest (index + 1)).bind_pure (code :: ·)

/-- The line of a property has nothing of its own but the key, which no dialect of the two marks. -/
theorem coincide_renderLines {unit : String} {properties : Fields Shape}
    (h : ∀ property ∈ properties, RenderCoincides unit property.2)
    (hplain : ∀ property ∈ properties, ¬ property.2.IsOptional) (path : Path) (depth : Nat) :
    Coincide .zod .zodMini (renderLines .zod (.unit unit) properties path depth)
      (renderLines .zodMini (.unit unit) properties path depth) := by
  induction properties with
  | nil => exact coincide_pure []
  | cons property rest ih =>
    obtain ⟨hfirst, hrest⟩ := List.forall_mem_cons.mp h
    obtain ⟨hproperty, hothers⟩ := List.forall_mem_cons.mp hplain
    have hline : Coincide .zod .zodMini
        (renderLine .zod (.unit unit) property.1 property.2 path depth)
        (renderLine .zodMini (.unit unit) property.1 property.2 path depth) := by
      rw [renderLine_of_not_isOptional hproperty, renderLine_of_not_isOptional hproperty]
      exact (hfirst _ (depth + 1)).bind fun code => coincide_pure _
    rw [renderLines_cons, renderLines_cons]
    exact hline.bind fun first => (ih hrest hothers).bind_pure (first :: ·)

/-- **Zod and Zod Mini give one answer to a shape** to no part of which anything is attached. -/
theorem coincide_render (unit : String) {top : Shape.Place} {shape : Shape}
    (h : Everywhere (fun _ => Undemanding) top shape) : RenderCoincides unit shape := by
  induction shape generalizing top with
  | string minLength maxLength pattern =>
    obtain ⟨rfl, rfl, hpattern⟩ := Shape.everywhere_string.mp h
    intro path depth
    have hdemands (d : Dialect) : textDemands d .null .null pattern = pure [] := by
      rw [textDemands, if_pos hpattern]
      rfl
    rw [render, render, textType, textType, hdemands, hdemands]
    exact coincide_pure "z.string()"
  | number minimum maximum =>
    obtain ⟨rfl, rfl⟩ := Shape.everywhere_number.mp h
    exact fun _ _ => coincide_pure "z.number()"
  | boolean => exact fun _ _ => coincide_pure "z.boolean()"
  | literal value =>
    intro path _
    exact (coincide_orRefuse path (Script.literal value)).bind_pure (literalType .zod)
  | object properties ih =>
    have hproperties := (Shape.everywhere_object.mp h).2
    have hplain : ∀ property ∈ properties, ¬ property.2.IsOptional := fun property hproperty =>
      not_isOptional_of_undemanding (Shape.everywhere_iff.mp (hproperties property hproperty)).1
    intro path depth
    have hlines := coincide_renderLines
      (fun property hproperty => ih property hproperty (hproperties property hproperty)) hplain
      path depth
    refine hlines.bind fun lines => ?_
    obtain ⟨map, hmap⟩ := layout_eq_pure unit depth lines
    rw [hmap]
    exact coincide_pure (objectType .zod map)
  | array items ih =>
    intro path depth
    exact (ih (Shape.everywhere_array.mp h).2 _ depth).bind_pure (listType .zod items.isUnion)
  | union members ih =>
    have hmembers := (Shape.everywhere_union.mp h).2
    intro path depth
    rw [render, render]
    cases Shape.enumeration? members with
    | some enumeration =>
      have hset : enumerationType .zodMini enumeration.1 = enumerationType .zod enumeration.1 := by
        cases enumeration.1 <;> rfl
      dsimp only
      rw [hset]
      exact (coincide_orRefuse path _).bind_pure (enumerationType .zod enumeration.1)
    | none =>
      have hwritten := coincide_renderMembers
        (fun member hmember => ih member hmember (hmembers member hmember)) path depth 0
      exact hwritten.bind_pure (unionType .zod)
  | optional inner default hasDefault => exact (Shape.everywhere_iff.mp h).1.elim
  | foreign value => exact fun path _ => coincide_refuse (.node value.kindName) path

/-- **Zod Mini differs from Zod in what is attached, and in nothing else.** Of a tree without optional
values, bounds and patterns, the two write the same text, whatever the indentation, or both of them
refuse the same construct at the same place. -/
theorem zodMini_writes_as_zod (unit : String) {shape : Shape}
    (h : Everywhere (fun _ => Undemanding) .root shape) :
    (∃ code, (renderShape .zod (.unit unit) shape).outcome = .ok code ∧
      (renderShape .zodMini (.unit unit) shape).outcome = .ok code) ∨
    ∃ construct path,
      (renderShape .zod (.unit unit) shape).outcome
        = .error (.unsupported { construct, path, dialect := some .zod }) ∧
      (renderShape .zodMini (.unit unit) shape).outcome
        = .error (.unsupported { construct, path, dialect := some .zodMini }) :=
  coincide_render unit h .root 0

/-- Objects in a list, an enumeration and a union of it with an empty pattern are the same code. -/
theorem zodMini_writes_as_zod_of_nested :
    let shape : Shape := .object [("a", .array (.object [("b", .union [.literal (.str "x"),
      .literal (.str "y")])])), ("c", .union [.literal (.int 1), .string .null .null (.str ""),
        .number .null .null, .boolean])]
    Everywhere (fun _ => Undemanding) .root shape ∧
      ∃ code, (renderShape .zod (.unit "\t") shape).outcome = .ok code ∧
        (renderShape .zodMini (.unit "\t") shape).outcome = .ok code := by
  intro shape
  have h : Everywhere (fun _ => Undemanding) .root shape := by
    simp [shape, Undemanding, Json.isVacant]
  refine ⟨h, ?_⟩
  rcases zodMini_writes_as_zod "\t" h with hsame | ⟨construct, path, hrefused, -⟩
  · exact hsame
  · have hwritten : ∃ code, (renderShape .zod (.unit "\t") shape).outcome = .ok code := ⟨_, rfl⟩
    obtain ⟨code, hcode⟩ := hwritten
    rw [hcode] at hrefused
    cases hrefused

end Expression

end SchemaForge
