import Mathlib.Data.List.Forall2
import SchemaForge.Proofs.Expression.Acceptance

/-!
# `SchemaForge.Proofs.Expression.Renumbering` — whole doubles are written as integers

A double that is a whole number below the limit is written as the integer it equals, negative zero
as zero. So bounds and literals may be replaced by numbers of the other kind: a union stays an
enumeration of the same kind, every part is written with the same characters, and what is refused is
refused for the same construct at the same place. Only the warnings about what is left out show a
number as it was given, which is why outcomes are compared and not emissions.

## Contents
- **Numbers.** `SameNumber`, and what it means for bounds and for literals.
- **Trees.** `Renumbered` trees have the same numbers in the places where numbers are written;
  `enumeration?_of_renumbered` is about unions of literals.
- **Expressions.** `outcome_eq_of_renumbered` by induction on the shape, and the result,
  `renderShape_of_renumbered`.
-/

namespace SchemaForge

/-! ## Numbers -/

/-- Whether two values are the same, or one is a whole double below the limit and the other the
integer it equals. -/
inductive SameNumber : Json → Json → Prop where
  | same (value : Json) : SameNumber value value
  | whole {x : Binary64} {n : Int} : x.whole? = some n → n.natAbs < Script.wholeLimit →
    SameNumber (.float x) (.int n)
  | integer {x : Binary64} {n : Int} : x.whole? = some n → n.natAbs < Script.wholeLimit →
    SameNumber (.int n) (.float x)

namespace SameNumber

variable {value value' : Json}

/-- A whole double below the limit is written with the digits of the integer. -/
theorem double_eq {x : Binary64} {n : Int} (hwhole : x.whole? = some n)
    (hlimit : n.natAbs < Script.wholeLimit) : Script.double x = Script.number (.int n) := by
  cases x with
  | nan => cases hwhole
  | infinity negative => cases hwhole
  | finite negative units =>
    rw [Script.double, hwhole]
    dsimp only
    rw [if_pos hlimit]
    rfl

theorem number_eq (h : SameNumber value value') : Script.number value = Script.number value' := by
  cases h with
  | same => rfl
  | whole hwhole hlimit => exact double_eq hwhole hlimit
  | integer hwhole hlimit => exact (double_eq hwhole hlimit).symm

theorem literal_eq (h : SameNumber value value') :
    Script.literal value = Script.literal value' := by
  cases h with
  | same => rfl
  | whole hwhole hlimit => exact double_eq hwhole hlimit
  | integer hwhole hlimit => exact (double_eq hwhole hlimit).symm

theorem isNull_eq (h : SameNumber value value') : value.isNull = value'.isNull := by
  cases h <;> rfl

theorem literalKind?_eq (h : SameNumber value value') :
    value.literalKind? = value'.literalKind? := by
  cases h <;> rfl

end SameNumber

/-! ## Trees -/

namespace Shape

/-- Whether two fields have one name, and values that are related. -/
inductive SameName (R : Shape → Shape → Prop) : String × Shape → String × Shape → Prop where
  | named (name : String) {shape shape' : Shape} :
    R shape shape' → SameName R (name, shape) (name, shape')

/-- **Whether two trees differ in the kinds of their numbers only**, and this only in the bounds of
numbers and in literals. -/
inductive Renumbered : Shape → Shape → Prop where
  | same (shape : Shape) : Renumbered shape shape
  | number {minimum minimum' maximum maximum' : Json} : SameNumber minimum minimum' →
    SameNumber maximum maximum' → Renumbered (.number minimum maximum) (.number minimum' maximum')
  | literal {value value' : Json} : SameNumber value value' →
    Renumbered (.literal value) (.literal value')
  | object {properties properties' : Fields Shape} :
    List.Forall₂ (SameName Renumbered) properties properties' →
    Renumbered (.object properties) (.object properties')
  | array {items items' : Shape} : Renumbered items items' →
    Renumbered (.array items) (.array items')
  | union {members members' : List Shape} : List.Forall₂ Renumbered members members' →
    Renumbered (.union members) (.union members')
  | optional {inner inner' : Shape} (default : Default) (hasDefault : Json) :
    Renumbered inner inner' →
      Renumbered (.optional inner default hasDefault) (.optional inner' default hasDefault)

theorem Renumbered.isUnion_eq {shape shape' : Shape} (h : Renumbered shape shape') :
    shape.isUnion = shape'.isUnion := by
  cases h <;> rfl

theorem Renumbered.isOptional_iff {shape shape' : Shape} (h : Renumbered shape shape') :
    shape.IsOptional ↔ shape'.IsOptional := by
  cases h <;> rfl

/-- The kind that values share depends on their kinds only. -/
theorem sharedKind?_eq {values values' : List Json} (h : List.Forall₂ SameNumber values values') :
    sharedKind? values = sharedKind? values' := by
  cases h with
  | nil => rfl
  | cons hfirst hrest =>
    have hall (kind : Option LiteralKind) {rest rest' : List Json}
        (hrest : List.Forall₂ SameNumber rest rest') :
        rest.all (fun other => other.literalKind? = kind)
          = rest'.all (fun other => other.literalKind? = kind) := by
      induction hrest with
      | nil => rfl
      | cons hvalue _ ih => rw [List.all_cons, List.all_cons, hvalue.literalKind?_eq, ih]
    rw [sharedKind?, sharedKind?, hfirst.literalKind?_eq, hall _ hrest]

/-- Renumbered members are all literals, of the same numbers, or on neither side. -/
theorem literals?_of_renumbered {members members' : List Shape}
    (h : List.Forall₂ Renumbered members members') :
    Option.Rel (List.Forall₂ SameNumber) (literals? members) (literals? members') := by
  induction h with
  | nil => exact .some .nil
  | @cons member member' rest rest' hmember _ ih =>
    have hpush {value value' : Json} (hvalue : SameNumber value value') :
        Option.Rel (List.Forall₂ SameNumber) ((literals? rest).map (value :: ·))
          ((literals? rest').map (value' :: ·)) := by
      generalize literals? rest = first at ih
      generalize literals? rest' = second at ih
      cases ih with
      | none => exact .none
      | some hvalues => exact .some (.cons hvalue hvalues)
    cases hmember with
    | same =>
      cases member with
      | literal value => exact hpush (.same value)
      | _ => exact .none
    | literal hvalue => exact hpush hvalue
    | _ => exact .none

/-- **A union stays an enumeration of its kind**, of the same numbers, or it is none on either
side. -/
theorem enumeration?_of_renumbered {members members' : List Shape}
    (h : List.Forall₂ Renumbered members members') :
    Option.Rel (fun first second => first.1 = second.1 ∧ List.Forall₂ SameNumber first.2 second.2)
      (enumeration? members) (enumeration? members') := by
  have hliterals := literals?_of_renumbered h
  unfold enumeration?
  generalize literals? members = first at hliterals
  generalize literals? members' = second at hliterals
  cases hliterals with
  | none => exact .none
  | @some values values' hvalues =>
    show Option.Rel _ (sharedKind? values >>= fun kind => pure (kind, values))
      (sharedKind? values' >>= fun kind => pure (kind, values'))
    rw [sharedKind?_eq hvalues]
    cases sharedKind? values' with
    | none => exact .none
    | some kind => exact .some ⟨rfl, hvalues⟩

end Shape

/-! ## Expressions -/

namespace Emission

variable {α β : Type}

/-- The outcome of a sequence depends on the outcomes of its parts only. -/
theorem outcome_bind_congr {first second : Emission α} (h : first.outcome = second.outcome)
    {next next' : α → Emission β} (hnext : ∀ a, (next a).outcome = (next' a).outcome) :
    (first >>= next).outcome = (second >>= next').outcome := by
  cases hfirst : first.outcome with
  | error e =>
    rw [outcome_bind_of_error hfirst, outcome_bind_of_error (h.symm.trans hfirst)]
  | ok a =>
    rw [outcome_bind_of_ok hfirst, outcome_bind_of_ok (h.symm.trans hfirst)]
    exact hnext a

end Emission

namespace Expression

open Emission (outcome_bind_congr)
open Shape (Everywhere Renumbered SameName)

variable {d : Dialect} {i : Indentation}

theorem boundDemand_eq {bound bound' : Json} (h : SameNumber bound bound') (demand : Demand)
    (path : Path) : boundDemand d demand bound path = boundDemand d demand bound' path := by
  rw [boundDemand, boundDemand, h.isNull_eq, h.number_eq]

theorem numberDemands_eq {minimum minimum' maximum maximum' : Json}
    (hmin : SameNumber minimum minimum') (hmax : SameNumber maximum maximum') (path : Path) :
    numberDemands d minimum maximum path = numberDemands d minimum' maximum' path := by
  rw [numberDemands, numberDemands, boundDemand_eq hmin, boundDemand_eq hmax]

/-- The warning about an upper bound shows it as it was given, but it does not come out. -/
theorem arkTypeNumber_outcome_eq {minimum minimum' maximum maximum' : Json}
    (hmin : SameNumber minimum minimum') (hmax : SameNumber maximum maximum') (path : Path) :
    (arkTypeNumber minimum maximum path).outcome
      = (arkTypeNumber minimum' maximum' path).outcome := by
  rw [arkTypeNumber, arkTypeNumber, hmin.isNull_eq, hmax.isNull_eq, hmin.number_eq]
  cases maximum'.isNull with
  | true => rfl
  | false => exact outcome_bind_congr rfl fun _ => rfl

theorem numberType_outcome_eq {minimum minimum' maximum maximum' : Json}
    (hmin : SameNumber minimum minimum') (hmax : SameNumber maximum maximum') (path : Path) :
    (numberType d minimum maximum path).outcome
      = (numberType d minimum' maximum' path).outcome := by
  cases d with
  | arkType => exact arkTypeNumber_outcome_eq hmin hmax path
  | _ => rw [numberType, numberType, numberDemands_eq hmin hmax]

theorem mapM_literal_eq {values values' : List Json} (h : List.Forall₂ SameNumber values values') :
    values.mapM Script.literal = values'.mapM Script.literal := by
  induction h with
  | nil => rfl
  | cons hvalue _ ih => rw [List.mapM_cons, List.mapM_cons, hvalue.literal_eq, ih]

/-- Whether the same comes out of a shape and of every renumbering of it. -/
def RenderSame (d : Dialect) (i : Indentation) (shape : Shape) : Prop :=
  ∀ shape', Renumbered shape shape' → ∀ path depth,
    (render d i shape path depth).outcome = (render d i shape' path depth).outcome

/-- Whether the same line comes out of a property with that value. -/
def LineSame (d : Dialect) (i : Indentation) (shape : Shape) : Prop :=
  ∀ shape', Renumbered shape shape' → ∀ name path depth,
    (renderLine d i name shape path depth).outcome = (renderLine d i name shape' path depth).outcome

theorem renderMembers_outcome_eq {members members' : List Shape}
    (hsame : ∀ member ∈ members, RenderSame d i member)
    (h : List.Forall₂ Renumbered members members') (path : Path) (depth index : Nat) :
    (renderMembers d i members path depth index).outcome
      = (renderMembers d i members' path depth index).outcome := by
  induction h generalizing index with
  | nil => rfl
  | cons hmember _ ih =>
    obtain ⟨hfirst, hrest⟩ := List.forall_mem_cons.mp hsame
    rw [renderMembers, renderMembers]
    exact outcome_bind_congr (hfirst _ hmember _ _) fun code =>
      outcome_bind_congr (ih hrest (index + 1)) fun _ => rfl

theorem renderLines_outcome_eq {properties properties' : Fields Shape}
    (hsame : ∀ property ∈ properties, LineSame d i property.2)
    (h : List.Forall₂ (SameName Renumbered) properties properties') (path : Path) (depth : Nat) :
    (renderLines d i properties path depth).outcome
      = (renderLines d i properties' path depth).outcome := by
  induction h with
  | nil => rfl
  | cons hproperty _ ih =>
    obtain ⟨hfirst, hrest⟩ := List.forall_mem_cons.mp hsame
    obtain ⟨name, hvalue⟩ := hproperty
    rw [renderLines_cons, renderLines_cons]
    exact outcome_bind_congr (hfirst _ hvalue name path depth) fun first =>
      outcome_bind_congr (ih hrest) fun _ => rfl

theorem lineSame_of_renderSame {shape : Shape} (hshape : ¬ shape.IsOptional)
    (h : RenderSame d i shape) : LineSame d i shape := by
  intro shape' hrenumbered name path depth
  have hshape' : ¬ shape'.IsOptional := mt hrenumbered.isOptional_iff.mpr hshape
  rw [renderLine_of_not_isOptional hshape, renderLine_of_not_isOptional hshape']
  exact outcome_bind_congr (h shape' hrenumbered _ _) fun _ => rfl

/-- An optional value in an optional value is refused, of whatever numbers. -/
theorem lineSame_optional {inner : Shape} (default : Default) (hasDefault : Json)
    (h : RenderSame d i inner) : LineSame d i (.optional inner default hasDefault) := by
  intro shape' hrenumbered name path depth
  cases hrenumbered with
  | same => rfl
  | @optional _ inner' _ _ hinner =>
    by_cases hoptional : inner.IsOptional
    · cases hinner with
      | same => rfl
      | optional => rfl
      | _ => exact hoptional.elim
    · have hoptional' : ¬ inner'.IsOptional := mt hinner.isOptional_iff.mpr hoptional
      rw [renderLine_optional hoptional, renderLine_optional hoptional']
      exact outcome_bind_congr (h inner' hinner _ _) fun _ => rfl

theorem renderSame_union {members : List Shape} (h : ∀ member ∈ members, RenderSame d i member) :
    RenderSame d i (.union members) := by
  intro shape' hrenumbered path depth
  cases hrenumbered with
  | same => rfl
  | @union _ members' hmembers =>
    have henum := Shape.enumeration?_of_renumbered hmembers
    rw [render, render]
    generalize Shape.enumeration? members = first at henum
    generalize Shape.enumeration? members' = second at henum
    cases henum with
    | none =>
      exact outcome_bind_congr (renderMembers_outcome_eq h hmembers path depth 0) fun _ => rfl
    | @some enumeration enumeration' hsame =>
      dsimp only
      rw [hsame.1, mapM_literal_eq hsame.2]

/-- **The same comes out of renumbered shapes**, and of properties that have them as their values. -/
theorem renderSame_and_lineSame (d : Dialect) (i : Indentation) (shape : Shape) :
    RenderSame d i shape ∧ LineSame d i shape := by
  -- Nothing is asked of the parts.
  have hall : Everywhere (fun _ _ => True) .root shape := fun _ _ _ => trivial
  refine Everywhere.induct_properties ?string ?number ?boolean ?literal ?object ?array ?union
    ?optional ?foreign ?plainProperty ?optionalProperty hall
  case string =>
    intro minLength maxLength pattern _ shape' h path depth
    cases h
    rfl
  case number =>
    intro minimum maximum _ shape' h path depth
    cases h with
    | same => rfl
    | number hmin hmax => exact numberType_outcome_eq hmin hmax path
  case boolean =>
    intro shape' h path depth
    cases h
    rfl
  case literal =>
    intro value shape' h path depth
    cases h with
    | same => rfl
    | literal hvalue => rw [render, render, hvalue.literal_eq]
  case object =>
    intro properties hlines shape' h path depth
    cases h with
    | same => rfl
    | object hproperties =>
      exact outcome_bind_congr (renderLines_outcome_eq hlines hproperties path depth) fun _ => rfl
  case array =>
    intro items hitems shape' h path depth
    cases h with
    | same => rfl
    | array hsame =>
      rw [render, render, hsame.isUnion_eq]
      exact outcome_bind_congr (hitems _ hsame _ _) fun _ => rfl
  case union => exact fun members => renderSame_union
  case optional =>
    intro inner default hasDefault shape' h path depth
    cases h <;> rfl
  case foreign =>
    intro value shape' h path depth
    cases h
    rfl
  case plainProperty => exact fun shape => lineSame_of_renderSame
  case optionalProperty => exact fun inner => lineSame_optional

/-- **Whole doubles and integers are written alike.** Of two trees that differ only in that bounds of
numbers and literals are whole doubles in the one and the integers they equal in the other, a dialect
writes the same text, or it refuses the same construct at the same place in both. -/
theorem renderShape_of_renumbered (d : Dialect) (unit : String) {shape shape' : Shape}
    (h : Renumbered shape shape') (htexts : Everywhere (fun _ => Shape.PatternIsText) .root shape) :
    (∃ code, (renderShape d (.unit unit) shape).outcome = .ok code ∧
      (renderShape d (.unit unit) shape').outcome = .ok code) ∨
    ∃ construct path,
      (renderShape d (.unit unit) shape).outcome
        = .error (.unsupported { construct, path, dialect := some d }) ∧
      (renderShape d (.unit unit) shape').outcome
        = .error (.unsupported { construct, path, dialect := some d }) := by
  have hsame : (renderShape d (.unit unit) shape).outcome
      = (renderShape d (.unit unit) shape').outcome :=
    (renderSame_and_lineSame d (.unit unit) shape).1 shape' h .root 0
  have hanswers := answers_renderShape d unit htexts
  rw [← hsame]
  cases houtcome : (renderShape d (.unit unit) shape).outcome with
  | ok code => exact Or.inl ⟨code, rfl, rfl⟩
  | error e =>
    rw [houtcome] at hanswers
    cases e with
    | unsupported refusal =>
      obtain ⟨construct, path, dialect⟩ := refusal
      obtain ⟨-, rfl⟩ := hanswers
      exact Or.inr ⟨construct, path, rfl, rfl⟩
    | patternNotText => exact hanswers.elim
    | indentNotText => exact hanswers.elim

/-- Negative zero, and a one among the bounds and the literals of an enumeration, are written by
ArkType as the integers; the warning about the maximum differs. -/
theorem renderShape_of_renumbered_negative_zero :
    let one : Json := .float (.finite false Binary64.one)
    let shape : Shape := .object [("a", .number (.float (.finite true 0)) one),
      ("b", .array (.union [.literal one, .literal (.int 2)]))]
    let shape' : Shape := .object [("a", .number (.int 0) (.int 1)),
      ("b", .array (.union [.literal (.int 1), .literal (.int 2)]))]
    Renumbered shape shape' ∧ Everywhere (fun _ => Shape.PatternIsText) .root shape ∧
      ∃ code, (renderShape .arkType (.unit "  ") shape).outcome = .ok code ∧
        (renderShape .arkType (.unit "  ") shape').outcome = .ok code := by
  intro one shape shape'
  have hzero : (Binary64.finite true 0).whole? = some 0 := by
    rw [Binary64.whole?, if_pos (Nat.zero_mod _), Nat.zero_div]
    rfl
  have hwhole : (Binary64.finite false Binary64.one).whole? = some 1 := by
    rw [Binary64.whole?, if_pos (Nat.mod_self _), Nat.div_self Binary64.one_pos]
    rfl
  have hone : SameNumber one (.int 1) := .whole hwhole (by decide)
  have hrenumbered : Renumbered shape shape' :=
    .object (.cons (.named "a" (.number (.whole hzero (by decide)) hone))
      (.cons (.named "b" (.array (.union (.cons (.literal hone) (.cons (.same _) .nil))))) .nil))
  have htexts : Everywhere (fun _ => Shape.PatternIsText) .root shape := by
    simp [shape, Shape.PatternIsText]
  refine ⟨hrenumbered, htexts, ?_⟩
  rcases renderShape_of_renumbered .arkType "  " hrenumbered htexts with
    hsame | ⟨construct, path, -, hrefused⟩
  · exact hsame
  · have hwritten : ∃ code, (renderShape .arkType (.unit "  ") shape').outcome = .ok code := ⟨_, rfl⟩
    obtain ⟨code, hcode⟩ := hwritten
    rw [hcode] at hrefused
    cases hrefused

end Expression

end SchemaForge
