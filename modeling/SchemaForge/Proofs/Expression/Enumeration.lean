import SchemaForge.Expression.Render
import SchemaForge.Proofs.Script.Scalar

/-!
# `SchemaForge.Proofs.Expression.Enumeration` — unions of literals in two ways

A union that enumerates literals is written as the set of their values, without a look at its members
as shapes. It could be written member by member, like any other union. Both ways format the same
values in the same order, so that one is refused where the other is, though at another place: the
first names the union, the second the member. What comes out differs only where the dialect has a set
for literals of that kind; elsewhere it is the same text.

## Contents
- **Ways.** `renderEnumeration`, `renderUnion`, and `render_union` for which of them is taken.
- **Members.** `renderMembers_of_literals` and `renderMembers_refused` for literals in a row.
- **Agreement.** `HasLiteralSet`, and the result, `renderEnumeration_agrees`.
-/

namespace SchemaForge.Expression

variable (d : Dialect) (i : Indentation)

/-! ## Ways -/

/-- A union as the set of the literals that it enumerates. -/
def renderEnumeration (kind : LiteralKind) (values : List Json) (path : Path) : Emission String := do
  return enumerationType d kind (← .orRefuse d path (values.mapM Script.literal))

/-- A union member by member. -/
def renderUnion (members : List Shape) (path : Path) (depth : Nat) : Emission String := do
  return unionType d (← renderMembers d i members path depth 0)

/-- A union is written as a set of literals if it enumerates some, and otherwise member by member. -/
theorem render_union (members : List Shape) (path : Path) (depth : Nat) :
    render d i (.union members) path depth
      = match Shape.enumeration? members with
        | some (kind, values) => renderEnumeration d kind values path
        | none => renderUnion d i members path depth := by
  rw [render]
  cases Shape.enumeration? members with
  | some enumeration => rfl
  | none => rfl

variable {d : Dialect} {i : Indentation}

/-! ## Members -/

theorem outcome_literal {value : Json} {text : String} (h : Script.literal value = .ok text)
    (path : Path) (depth : Nat) :
    (render d i (.literal value) path depth).outcome = .ok (literalType d text) := by
  rw [render, h]
  rfl

theorem outcome_literal_refused {value : Json} {construct : Construct}
    (h : Script.literal value = .error construct) (path : Path) (depth : Nat) :
    (render d i (.literal value) path depth).outcome
      = .error (.unsupported { construct, path, dialect := some d }) := by
  rw [render, h]
  rfl

/-- Literals that can be formatted are written one after another. -/
theorem renderMembers_of_literals {values : List Json} {texts : List String}
    (h : values.mapM Script.literal = .ok texts) (path : Path) (depth index : Nat) :
    (renderMembers d i (values.map .literal) path depth index).outcome
      = .ok (texts.map (literalType d)) := by
  have hliterals := Script.forall₂_of_mapM_literal h
  clear h
  induction hliterals generalizing index with
  | nil => rfl
  | cons hfirst _ ih =>
    rw [List.map_cons, renderMembers, Emission.outcome_bind_of_ok (outcome_literal hfirst _ depth),
      Emission.outcome_bind_of_ok (ih (index + 1))]
    rfl

/-- The first literal that cannot be formatted is refused, at its own place. -/
theorem renderMembers_refused {values : List Json} {construct : Construct}
    (h : values.mapM Script.literal = .error construct) (path : Path) (depth index : Nat) :
    ∃ place, (renderMembers d i (values.map .literal) path depth index).outcome
      = .error (.unsupported { construct, path := path.element "anyOf" place, dialect := some d }) := by
  induction values generalizing index with
  | nil => cases h
  | cons value rest ih =>
    rw [List.mapM_cons] at h
    rw [List.map_cons, renderMembers]
    cases hfirst : Script.literal value with
    | error refused =>
      rw [hfirst] at h
      cases h
      exact ⟨index, Emission.outcome_bind_of_error (outcome_literal_refused hfirst _ depth) _⟩
    | ok text =>
      cases hrest : rest.mapM Script.literal with
      | error refused =>
        rw [hfirst, hrest] at h
        cases h
        obtain ⟨place, hplace⟩ := ih hrest (index + 1)
        refine ⟨place, ?_⟩
        rw [Emission.outcome_bind_of_ok (outcome_literal hfirst _ depth)]
        exact Emission.outcome_bind_of_error hplace _
      | ok texts =>
        rw [hfirst, hrest] at h
        cases h

/-! ## Agreement -/

/-- Whether a dialect has a set for literals of a kind: Zod has one for every kind, Valibot one for
texts and numbers. -/
def HasLiteralSet : Dialect → LiteralKind → Prop
  | .zod, _ | .zodMini, _ => True
  | .valibot, kind => kind ≠ .boolean
  | .typeBox, _ | .arkType, _ => False

/-- Where there is no set, the literals make a union. -/
theorem enumerationType_eq_unionType {kind : LiteralKind} (h : ¬ HasLiteralSet d kind)
    (literals : List String) :
    enumerationType d kind literals = unionType d (literals.map (literalType d)) := by
  cases d with
  | zod => exact absurd trivial h
  | zodMini => exact absurd trivial h
  | valibot =>
    obtain rfl : kind = .boolean := not_not.mp h
    rfl
  | typeBox => rfl
  | arkType => rfl

/-- **The two ways of writing an enumeration agree.** Where the dialect has no set for literals of the
kind, they write the same text; and in every dialect the one is refused exactly if the other is. -/
theorem renderEnumeration_agrees {members : List Shape} {kind : LiteralKind} {values : List Json}
    (henum : Shape.enumeration? members = some (kind, values)) (d : Dialect) (i : Indentation)
    (path : Path) (depth : Nat) :
    (¬ HasLiteralSet d kind → ∀ code, (renderEnumeration d kind values path).outcome = .ok code ↔
      (renderUnion d i members path depth).outcome = .ok code) ∧
    ((∃ e, (renderEnumeration d kind values path).outcome = .error e) ↔
      ∃ e, (renderUnion d i members path depth).outcome = .error e) := by
  obtain rfl : members = values.map .literal := Shape.eq_map_of_enumeration? henum
  cases hvalues : values.mapM Script.literal with
  | ok texts =>
    have hset : (renderEnumeration d kind values path).outcome
        = .ok (enumerationType d kind texts) := by
      rw [renderEnumeration, hvalues]
      rfl
    have hunion : (renderUnion d i (values.map .literal) path depth).outcome
        = .ok (unionType d (texts.map (literalType d))) := by
      rw [renderUnion, Emission.outcome_bind_of_ok (renderMembers_of_literals hvalues path depth 0)]
      rfl
    rw [hset, hunion]
    refine ⟨fun hkind code => ?_, iff_of_false nofun nofun⟩
    rw [enumerationType_eq_unionType hkind]
  | error construct =>
    have hset : (renderEnumeration d kind values path).outcome
        = .error (.unsupported { construct, path, dialect := some d }) := by
      rw [renderEnumeration, hvalues]
      rfl
    obtain ⟨place, hplace⟩ := renderMembers_refused (d := d) (i := i) hvalues path depth 0
    have hunion : (renderUnion d i (values.map .literal) path depth).outcome
        = .error (.unsupported
            { construct, path := path.element "anyOf" place, dialect := some d }) :=
      Emission.outcome_bind_of_error hplace _
    rw [hset, hunion]
    exact ⟨fun _ code => iff_of_false nofun nofun, iff_of_true ⟨_, rfl⟩ ⟨_, rfl⟩⟩

/-- Valibot has no set of truth values. -/
theorem renderEnumeration_agrees_of_truths :
    Shape.enumeration? [.literal (.bool true), .literal (.bool false)]
        = some (.boolean, [.bool true, .bool false]) ∧
      ¬ HasLiteralSet .valibot .boolean ∧
      (renderUnion .valibot (.unit "  ") [.literal (.bool true), .literal (.bool false)]
        (Path.root.child "flag") 1).outcome = .ok "v.union([v.literal(true), v.literal(false)])" := by
  have henum : Shape.enumeration? [.literal (.bool true), .literal (.bool false)]
      = some (.boolean, [.bool true, .bool false]) := by rfl
  have hkind : ¬ HasLiteralSet .valibot .boolean := fun h => h rfl
  refine ⟨henum, hkind, ?_⟩
  exact ((renderEnumeration_agrees henum .valibot (.unit "  ") (Path.root.child "flag") 1).1
    hkind _).mp (by rfl)

end SchemaForge.Expression
