import SchemaForge.Module.Assembly
import SchemaForge.Proofs.Expression.Injectivity

/-!
# `SchemaForge.Proofs.Module.Injectivity` — a schema is known by its module

What stands around the expression in a module depends on the dialect and the settings alone, so two
modules with the same text export the same expression, and plain shapes are known by that. Defaults
that are no JSON values are not known by their texts, which may be those of other values.

## Contents
- **Modules.** `ofShape_object` and `ofShape_eq_ok`: what a module is made of.
- **Injectivity.** `shape_eq_of_same_text`, of expressions and of modules.
- **Defaults of other kinds.** `same_text_of_distinct_defaults`: which trees are `Merged`.
-/

namespace SchemaForge.Module

open Expression (Plain renderShape)
open Shape (Everywhere)

/-! ## Modules -/

/-- The module of an object is the expression of it with the same text around it. -/
theorem ofShape_object {d : Dialect} (hd : d ≠ .arkType) (settings : Settings)
    (properties : Fields Shape) :
    ofShape d settings none (.object properties)
      = (renderShape d settings.indentation (.object properties) >>= fun expression =>
          pure (header d settings ++ "\n" ++ body expression)) := by
  rw [ofShape_none]
  cases d with
  | arkType => exact absurd rfl hd
  | _ => rfl

/-- A module that is made is that of an object, around the expression of it. -/
theorem ofShape_eq_ok {d : Dialect} (hd : d ≠ .arkType) {settings : Settings} {shape : Shape}
    {text : String} (h : (ofShape d settings none shape).outcome = .ok text) :
    ∃ expression, (renderShape d settings.indentation shape).outcome = .ok expression ∧
      text = header d settings ++ "\n" ++ body expression := by
  cases shape with
  | object properties =>
    rw [ofShape_object hd] at h
    obtain ⟨expression, hexpression, htext⟩ := Emission.outcome_bind_eq_ok_iff.mp h
    cases htext
    exact ⟨expression, hexpression, rfl⟩
  | _ =>
    rw [ofShape_none] at h
    cases h

/-- An expression is known by the module around it. -/
theorem around_injective {front expression expression' : String}
    (h : front ++ body expression = front ++ body expression') : expression = expression' := by
  have hbody : body expression = body expression' := (String.append_right_inj front).mp h
  exact (String.append_right_inj _).mp ((String.append_left_inj _).mp hbody)

/-! ## Injectivity -/

/-- **Nothing is lost or merged in writing.** In a dialect that writes scripts, two plain trees
whose expressions have the same text are the same tree, and so are two whose modules have. -/
theorem shape_eq_of_same_text {d : Dialect} (hd : d ≠ .arkType) {settings : Settings}
    {unit : String} (hunit : settings.indent = .str unit) {shape other : Shape}
    (hplain : Everywhere (fun _ => Plain d) .root shape)
    (hplain' : Everywhere (fun _ => Plain d) .root other) :
    (∀ text, (renderShape d settings.indentation shape).outcome = .ok text →
      (renderShape d settings.indentation other).outcome = .ok text → shape = other) ∧
    ∀ text, (ofShape d settings none shape).outcome = .ok text →
      (ofShape d settings none other).outcome = .ok text → shape = other := by
  have hindentation : settings.indentation = .unit unit := by rw [Settings.indentation, hunit]
  have hexpressions (text : String)
      (h : (renderShape d settings.indentation shape).outcome = .ok text)
      (h' : (renderShape d settings.indentation other).outcome = .ok text) : shape = other := by
    rw [hindentation] at h h'
    exact Expression.renderShape_text_injective hd hplain hplain' h h'
  refine ⟨hexpressions, ?_⟩
  intro text h h'
  obtain ⟨expression, hexpression, rfl⟩ := ofShape_eq_ok hd h
  obtain ⟨expression', hexpression', htext⟩ := ofShape_eq_ok hd h'
  obtain rfl : expression = expression' := around_injective htext
  exact hexpressions expression hexpression hexpression'

/-- One text that looks like two in a set of literals: both are written, and not alike. -/
theorem texts_ne_of_quotes :
    let front : Shape := .object [("a", .union [.literal (.str "x', 'y"), .literal (.str "z")])]
    let back : Shape := .object [("a", .union [.literal (.str "x"), .literal (.str "y"),
      .literal (.str "z")])]
    (∃ text, (ofShape .zod {} none front).outcome = .ok text) ∧
      (∃ text, (ofShape .zod {} none back).outcome = .ok text) ∧
      ∀ text, (ofShape .zod {} none front).outcome = .ok text →
        (ofShape .zod {} none back).outcome ≠ .ok text := by
  intro front back
  have hfront : Everywhere (fun _ => Plain .zod) .root front := by
    simp [front, Plain, Json.IsExact]
  have hback : Everywhere (fun _ => Plain .zod) .root back := by
    simp [back, Plain, Json.IsExact]
  refine ⟨⟨_, rfl⟩, ⟨_, rfl⟩, ?_⟩
  intro text h h'
  have hsame : front = back :=
    (@shape_eq_of_same_text .zod nofun {} _ rfl _ _ hfront hback).2 text h h'
  simp [front, back] at hsame

/-! ## Defaults of other kinds -/

/-- A tree with one property, a truth value that may be left out. -/
def flag (default : Default) (hasDefault : Json) : Shape :=
  .object [("a", .optional .boolean default hasDefault)]

/-- Whether two trees that differ have one text in every dialect that writes scripts, by themselves
and in modules. -/
def Merged (shape other : Shape) : Prop :=
  shape ≠ other ∧ ∀ d, d ≠ .arkType →
    (∃ text, (renderShape d ({} : Settings).indentation shape).outcome = .ok text ∧
      (renderShape d ({} : Settings).indentation other).outcome = .ok text) ∧
    ∃ text, (ofShape d {} none shape).outcome = .ok text ∧
      (ofShape d {} none other).outcome = .ok text

theorem merged_flag {default default' : Default} {hasDefault hasDefault' : Json}
    (hne : flag default hasDefault ≠ flag default' hasDefault')
    (hwrite : default.write = default'.write)
    (hshown : hasDefault.isVacant = hasDefault'.isVacant)
    (hok : ∀ d, d ≠ .arkType →
      ∃ text, (ofShape d {} none (flag default hasDefault)).outcome = .ok text) :
    Merged (flag default hasDefault) (flag default' hasDefault') := by
  refine ⟨hne, fun d hd => ?_⟩
  have hlines (i : Indentation) :
      Expression.renderLines d i [("a", .optional .boolean default hasDefault)] .root 0
        = Expression.renderLines d i [("a", .optional .boolean default' hasDefault')] .root 0 := by
    rw [Expression.renderLines_cons, Expression.renderLines_cons,
      Expression.renderLine_congr hd hwrite hshown]
  have hshape (i : Indentation) :
      renderShape d i (flag default hasDefault) = renderShape d i (flag default' hasDefault') := by
    rw [renderShape, renderShape, flag, flag, Expression.render, Expression.render, hlines]
  have hmodule : ofShape d {} none (flag default hasDefault)
      = ofShape d {} none (flag default' hasDefault') := by
    have hexpression := hshape ({} : Settings).indentation
    rw [flag, flag] at hexpression
    rw [flag, flag, ofShape_object hd, ofShape_object hd, hexpression]
  obtain ⟨text, htext⟩ := hok d hd
  obtain ⟨expression, hexpression, -⟩ := ofShape_eq_ok hd htext
  exact ⟨⟨expression, hexpression, by rwa [← hshape]⟩, text, htext, by rwa [← hmodule]⟩

/-- **Not all defaults are known by their text**: two surrogates are written like the character that
they would be as units, and a tuple like the list of its values. Nor is what says that there is a
default, if it is no truth value. -/
theorem same_text_of_distinct_defaults :
    let pair : Default := .surrogates ⟨[.surrogate 0x3D, .surrogate 0x600], rfl⟩
    Merged (flag (.json (.str "😀")) (.bool true)) (flag pair (.bool true)) ∧
      Merged (flag (.json (.arr [.int 1])) (.bool true)) (flag (.tuple [.int 1]) (.bool true)) ∧
      Merged (flag .null (.bool true)) (flag .null (.str "yes")) := by
  intro pair
  have hpair : (Default.json (.str "😀")).write = pair.write :=
    congrArg String.ofList (Script.quotePoints_eq_iff.mpr (by decide))
  have hok (default : Default) (d : Dialect) (hd : d ≠ .arkType) :
      ∃ text, (ofShape d {} none (flag default (.bool true))).outcome = .ok text := by
    cases d with
    | arkType => exact absurd rfl hd
    | _ => exact ⟨_, rfl⟩
  refine ⟨merged_flag ?_ hpair rfl (hok _), merged_flag ?_ rfl rfl (hok _),
    merged_flag ?_ rfl rfl (hok _)⟩
  · simp [flag, pair]
  · simp [flag]
  · simp [flag]

end SchemaForge.Module
