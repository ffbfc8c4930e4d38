import SchemaForge.Module.Assembly
import SchemaForge.Proofs.Expression.Acceptance

/-!
# `SchemaForge.Proofs.Module.Agreement` — four dialects give one answer

Zod, Zod Mini, Valibot and TypeBox write different code, but they go through a shape in the same
order and ask the same of its parts. So they stop at the same part for the same construct, however
many parts there are to be refused, and their refusals differ in nothing but who refuses. ArkType is
apart: it leaves upper bounds out, and it has no place for a pattern next to a length.

## Contents
- **Emissions.** `Emission.Concur` is the same answer of two dialects, with a rule for each way to
  sequence emissions; `Emission.shared_of_concur` goes from two dialects to all of them.
- **Scalars.** `concur_numberType` and `concur_textType`.
- **Shapes.** `concur_render_and_renderLine` by induction on the shape.
- **Modules.** `concur_ofShape`, and the result for expressions and modules, `answered_alike`.
-/

namespace SchemaForge

/-! ## Emissions -/

namespace Emission

variable {α β γ δ : Type} {d d' : Dialect}

/-- **Whether two dialects give the same answer**: something comes out of both emissions, or both
dialects refuse one construct at one place. -/
def Concur (d d' : Dialect) (first : Emission α) (second : Emission β) : Prop :=
  (∃ a b, first.outcome = .ok a ∧ second.outcome = .ok b) ∨
    ∃ construct path,
      first.outcome = .error (.unsupported { construct, path, dialect := some d }) ∧
      second.outcome = .error (.unsupported { construct, path, dialect := some d' })

theorem concur_of_ok {first : Emission α} {second : Emission β} {a : α} {b : β}
    (ha : first.outcome = .ok a) (hb : second.outcome = .ok b) : Concur d d' first second :=
  Or.inl ⟨a, b, ha, hb⟩

theorem concur_refuse (construct : Construct) (path : Path) :
    Concur d d' (refuse d construct path : Emission α) (refuse d' construct path : Emission β) :=
  Or.inr ⟨construct, path, rfl, rfl⟩

/-- Both dialects look at one result. -/
theorem concur_orRefuse (path : Path) (result : Except Construct α) :
    Concur d d' (orRefuse d path result) (orRefuse d' path result) := by
  cases result with
  | ok a => exact concur_of_ok rfl rfl
  | error construct => exact concur_refuse construct path

/-- Sequences are answered part by part: the rest is looked at by both dialects or by none. -/
theorem Concur.bind {first : Emission α} {second : Emission β} (h : Concur d d' first second)
    {next : α → Emission γ} {next' : β → Emission δ}
    (hnext : ∀ a b, Concur d d' (next a) (next' b)) :
    Concur d d' (first >>= next) (second >>= next') := by
  rcases h with ⟨a, b, ha, hb⟩ | ⟨construct, path, he, he'⟩
  · unfold Concur
    rw [outcome_bind_of_ok ha, outcome_bind_of_ok hb]
    exact hnext a b
  · exact Or.inr ⟨construct, path, outcome_bind_of_error he next, outcome_bind_of_error he' next'⟩

/-- What is made of something written changes no answer. -/
theorem Concur.bind_pure {first : Emission α} {second : Emission β} (h : Concur d d' first second)
    (f : α → γ) (g : β → δ) :
    Concur d d' (first >>= fun a => pure (f a)) (second >>= fun b => pure (g b)) :=
  h.bind fun _ _ => concur_of_ok rfl rfl

/-- **From two dialects to all.** When any two answer the same, whatever else they are given, one
answer is that of all. -/
theorem shared_of_concur {ι : Type} (given : ι → Prop) (emission : Dialect → ι → Emission α)
    (h : ∀ d d', d ≠ .arkType → d' ≠ .arkType → ∀ i i', given i → given i' →
      Concur d d' (emission d i) (emission d' i'))
    (i₀ : ι) (hi₀ : given i₀) :
    (∀ d, d ≠ .arkType → ∀ i, given i → ∃ a, (emission d i).outcome = .ok a) ∨
      ∃ construct path, ∀ d, d ≠ .arkType → ∀ i, given i →
        (emission d i).outcome
          = .error (.unsupported { construct, path, dialect := some d }) := by
  have hzod : Dialect.zod ≠ .arkType := by decide
  rcases h .zod .zod hzod hzod i₀ i₀ hi₀ hi₀ with ⟨a, -, ha, -⟩ | ⟨construct, path, he, -⟩
  · refine Or.inl fun d hd i hi => ?_
    rcases h .zod d hzod hd i₀ i hi₀ hi with ⟨-, b, -, hb⟩ | ⟨construct, path, he, -⟩
    · exact ⟨b, hb⟩
    · rw [ha] at he
      cases he
  · refine Or.inr ⟨construct, path, fun d hd i hi => ?_⟩
    rcases h .zod d hzod hd i₀ i hi₀ hi with ⟨a, -, ha, -⟩ | ⟨construct', path', he', hother⟩
    · rw [ha] at he
      cases he
    · rw [he] at he'
      cases he'
      exact hother

end Emission

namespace Expression

open Emission (Concur concur_of_ok concur_refuse concur_orRefuse)
open Shape (Everywhere)

variable {d d' : Dialect}

/-! ## Scalars -/

theorem concur_boundDemand (demand : Demand) (bound : Json) (path : Path) :
    Concur d d' (boundDemand d demand bound path) (boundDemand d' demand bound path) := by
  unfold boundDemand
  split
  · exact concur_of_ok rfl rfl
  · exact (concur_orRefuse path _).bind_pure _ _

/-- The lower bound is looked at before the upper one. -/
theorem concur_numberDemands (minimum maximum : Json) (path : Path) :
    Concur d d' (numberDemands d minimum maximum path) (numberDemands d' minimum maximum path) :=
  (concur_boundDemand .minimum minimum path).bind fun _ _ =>
    (concur_boundDemand .maximum maximum path).bind_pure _ _

/-- Outside of ArkType a number is its demands, attached in one way or another. -/
theorem exists_attach (hd : d ≠ .arkType) (minimum maximum : Json) (path : Path) :
    ∃ attach : Demands → String, numberType d minimum maximum path
      = (numberDemands d minimum maximum path >>= fun demands => pure (attach demands)) := by
  cases d with
  | arkType => exact absurd rfl hd
  | _ => exact ⟨_, rfl⟩

theorem concur_numberType (hd : d ≠ .arkType) (hd' : d' ≠ .arkType) (minimum maximum : Json)
    (path : Path) :
    Concur d d' (numberType d minimum maximum path) (numberType d' minimum maximum path) := by
  obtain ⟨attach, hattach⟩ := exists_attach hd minimum maximum path
  obtain ⟨attach', hattach'⟩ := exists_attach hd' minimum maximum path
  rw [hattach, hattach']
  exact (concur_numberDemands minimum maximum path).bind_pure attach attach'

/-- Outside of ArkType a text can be written whatever is demanded of it. -/
theorem exists_textType (hd : d ≠ .arkType) {pattern : Json} (hpattern : pattern.IsNullOrText)
    (minLength maxLength : Json) (path : Path) :
    ∃ code, (textType d minLength maxLength pattern path).outcome = .ok code := by
  obtain ⟨demands, hdemands⟩ := textDemands_eq_pure (d := d) hpattern minLength maxLength
  cases d with
  | arkType => exact absurd rfl hd
  | _ => simp [textType, hdemands]

theorem concur_textType (hd : d ≠ .arkType) (hd' : d' ≠ .arkType) {pattern : Json}
    (hpattern : pattern.IsNullOrText) (minLength maxLength : Json) (path : Path) :
    Concur d d' (textType d minLength maxLength pattern path)
      (textType d' minLength maxLength pattern path) := by
  obtain ⟨code, hcode⟩ := exists_textType hd hpattern minLength maxLength path
  obtain ⟨code', hcode'⟩ := exists_textType hd' hpattern minLength maxLength path
  exact concur_of_ok hcode hcode'

/-! ## Shapes -/

variable {unit unit' : String}

/-- Whether two dialects give the same answer to a shape, each with its indentation. -/
def RenderConcurs (d d' : Dialect) (unit unit' : String) (shape : Shape) : Prop :=
  ∀ path depth,
    Concur d d' (render d (.unit unit) shape path depth) (render d' (.unit unit') shape path depth)

/-- Whether they give the same answer to a property with the shape as its value. -/
def LineConcurs (d d' : Dialect) (unit unit' : String) (shape : Shape) : Prop :=
  ∀ name path depth,
    Concur d d' (renderLine d (.unit unit) name shape path depth)
      (renderLine d' (.unit unit') name shape path depth)

theorem concur_renderMembers {members : List Shape}
    (h : ∀ member ∈ members, RenderConcurs d d' unit unit' member) (path : Path)
    (depth index : Nat) :
    Concur d d' (renderMembers d (.unit unit) members path depth index)
      (renderMembers d' (.unit unit') members path depth index) := by
  induction members generalizing index with
  | nil => exact concur_of_ok rfl rfl
  | cons member rest ih =>
    obtain ⟨hfirst, hrest⟩ := List.forall_mem_cons.mp h
    rw [renderMembers, renderMembers]
    exact (hfirst _ depth).bind fun _ _ => (ih hrest (index + 1)).bind_pure _ _

theorem concur_renderLines {properties : Fields Shape}
    (h : ∀ property ∈ properties, LineConcurs d d' unit unit' property.2) (path : Path)
    (depth : Nat) :
    Concur d d' (renderLines d (.unit unit) properties path depth)
      (renderLines d' (.unit unit') properties path depth) := by
  induction properties with
  | nil => exact concur_of_ok rfl rfl
  | cons property rest ih =>
    obtain ⟨hfirst, hrest⟩ := List.forall_mem_cons.mp h
    rw [renderLines_cons, renderLines_cons]
    exact (hfirst _ path depth).bind fun _ _ => (ih hrest).bind_pure _ _

/-- What encloses the lines can always be written. -/
theorem concur_layout (depth : Nat) (lines lines' : List String) :
    Concur d d' (layout (.unit unit) depth lines) (layout (.unit unit') depth lines') := by
  obtain ⟨map, hmap⟩ := layout_eq_pure unit depth lines
  obtain ⟨map', hmap'⟩ := layout_eq_pure unit' depth lines'
  rw [hmap, hmap']
  exact concur_of_ok rfl rfl

theorem lineConcurs_of_renderConcurs {shape : Shape} (hshape : ¬ shape.IsOptional)
    (h : RenderConcurs d d' unit unit' shape) : LineConcurs d d' unit unit' shape := by
  intro name path depth
  rw [renderLine_of_not_isOptional hshape, renderLine_of_not_isOptional hshape]
  exact (h _ (depth + 1)).bind fun _ _ => concur_of_ok rfl rfl

theorem lineConcurs_optional {inner : Shape} (default : Default) (hasDefault : Json)
    (h : RenderConcurs d d' unit unit' inner) :
    LineConcurs d d' unit unit' (.optional inner default hasDefault) := by
  intro name path depth
  by_cases hinner : inner.IsOptional
  · cases inner with
    | optional => exact concur_refuse .nestedOptional (path.child name)
    | _ => exact hinner.elim
  · rw [renderLine_optional hinner, renderLine_optional hinner]
    refine (h _ (depth + 1)).bind fun code code' => ?_
    obtain ⟨entry, hentry⟩ := optionalEntry_outcome d name code
      (if hasDefault.isVacant then none else some default) (path.child name)
    obtain ⟨entry', hentry'⟩ := optionalEntry_outcome d' name code'
      (if hasDefault.isVacant then none else some default) (path.child name)
    exact (concur_of_ok hentry hentry').bind fun _ _ => concur_of_ok rfl rfl

/-- **Two dialects give the same answer to a shape**, by itself and as the value of a property. -/
theorem concur_render_and_renderLine (hd : d ≠ .arkType) (hd' : d' ≠ .arkType)
    (unit unit' : String) {shape : Shape}
    (htexts : Everywhere (fun _ => Shape.PatternIsText) .root shape) :
    RenderConcurs d d' unit unit' shape ∧ LineConcurs d d' unit unit' shape := by
  refine Everywhere.induct_properties ?string ?number ?boolean ?literal ?object ?array ?union
    ?optional ?foreign ?plainProperty ?optionalProperty htexts
  case string =>
    intro minLength maxLength pattern hpattern path _
    exact concur_textType hd hd' hpattern minLength maxLength path
  case number =>
    intro minimum maximum _ path _
    exact concur_numberType hd hd' minimum maximum path
  case boolean =>
    intro _ _
    exact concur_of_ok rfl rfl
  case literal =>
    intro value path _
    exact (concur_orRefuse path _).bind_pure _ _
  case object =>
    intro properties hlines path depth
    exact (concur_renderLines hlines path depth).bind fun lines lines' =>
      (concur_layout depth lines lines').bind_pure _ _
  case array =>
    intro items hitems path depth
    exact (hitems _ depth).bind_pure _ _
  case union =>
    intro members hmembers path depth
    rw [render, render]
    -- The dialects have sets of different literals, but all of them write the literals first.
    cases Shape.enumeration? members with
    | some enumeration => exact (concur_orRefuse path _).bind_pure _ _
    | none => exact (concur_renderMembers hmembers path depth 0).bind_pure _ _
  case optional =>
    intro inner default hasDefault path _
    exact concur_refuse .strayOptional path
  case foreign =>
    intro value path _
    exact concur_refuse (.node value.kindName) path
  case plainProperty => exact fun shape => lineConcurs_of_renderConcurs
  case optionalProperty => exact fun inner => lineConcurs_optional

theorem concur_renderShape (hd : d ≠ .arkType) (hd' : d' ≠ .arkType) (unit unit' : String)
    {shape : Shape} (htexts : Everywhere (fun _ => Shape.PatternIsText) .root shape) :
    Concur d d' (renderShape d (.unit unit) shape) (renderShape d' (.unit unit') shape) :=
  (concur_render_and_renderLine hd hd' unit unit' htexts).1 .root 0

end Expression

/-! ## Modules -/

namespace Module

open Emission (Concur concur_refuse)
open Expression (renderShape renderRoot)
open Shape (Everywhere)

/-- Outside of ArkType the root of a module is written like any other object. -/
theorem around_object {d : Dialect} (hd : d ≠ .arkType) {settings : Settings} {unit : String}
    (hunit : settings.indent = .str unit) (properties : Fields Shape) :
    around d settings (.object properties)
      = (renderShape d (.unit unit) (.object properties) >>= fun expression =>
          pure (header d settings ++ "\n" ++ body expression)) := by
  rw [around, Settings.indentation_of_str hunit]
  cases d with
  | arkType => exact absurd rfl hd
  | _ => rfl

theorem concur_ofShape {d d' : Dialect} (hd : d ≠ .arkType) (hd' : d' ≠ .arkType)
    {settings settings' : Settings} {unit unit' : String} (hunit : settings.indent = .str unit)
    (hunit' : settings'.indent = .str unit') {shape : Shape}
    (htexts : Everywhere (fun _ => Shape.PatternIsText) .root shape) :
    Concur d d' (ofShape d settings none shape) (ofShape d' settings' none shape) := by
  rw [ofShape_none, ofShape_none]
  cases shape with
  | object properties =>
    rw [around_object hd hunit, around_object hd' hunit']
    exact (Expression.concur_renderShape hd hd' unit unit' htexts).bind_pure _ _
  | _ => exact concur_refuse _ .root

/-- **One answer for four dialects.** To a tree whose patterns are null or texts, all dialects but
ArkType give one answer, whatever the indentation: all of them write it, or all of them refuse the
same construct at the same place, each under its own name. So they do for the module of the tree. -/
theorem answered_alike {shape : Shape}
    (htexts : Everywhere (fun _ => Shape.PatternIsText) .root shape) :
    ((∀ d, d ≠ .arkType → ∀ unit, ∃ code,
        (renderShape d (.unit unit) shape).outcome = .ok code) ∨
      ∃ construct path, ∀ d, d ≠ .arkType → ∀ unit,
        (renderShape d (.unit unit) shape).outcome
          = .error (.unsupported { construct, path, dialect := some d })) ∧
    ((∀ d, d ≠ .arkType → ∀ settings : Settings, (∃ unit, settings.indent = .str unit) →
        ∃ code, (ofShape d settings none shape).outcome = .ok code) ∨
      ∃ construct path, ∀ d, d ≠ .arkType → ∀ settings : Settings,
        (∃ unit, settings.indent = .str unit) →
          (ofShape d settings none shape).outcome
            = .error (.unsupported { construct, path, dialect := some d })) := by
  constructor
  · have hshared := Emission.shared_of_concur (fun _ => True)
      (fun d unit => renderShape d (.unit unit) shape)
      (fun d d' hd hd' unit unit' _ _ => Expression.concur_renderShape hd hd' unit unit' htexts)
      "" trivial
    simpa using hshared
  · refine Emission.shared_of_concur _ (fun d settings => ofShape d settings none shape) ?_ {}
      ⟨_, rfl⟩
    rintro d d' hd hd' settings settings' ⟨unit, hunit⟩ ⟨unit', hunit'⟩
    exact concur_ofShape hd hd' hunit hunit' htexts

/-- Of two bounds without a numeral and an optional item, every dialect names the lower bound. -/
theorem answered_alike_of_many_offences :
    let shape : Shape := .object [("a", .optional (.number (.float .nan)
      (.float (.infinity false))) .null .null), ("b", .array (.optional .boolean .null .null))]
    Everywhere (fun _ => Shape.PatternIsText) .root shape ∧
      ∀ d, d ≠ .arkType → (renderShape d (.unit "\t") shape).outcome
        = .error (.unsupported
            { construct := .nonFinite .nan, path := Path.root.child "a", dialect := some d }) := by
  intro shape
  have htexts : Everywhere (fun _ => Shape.PatternIsText) .root shape := by
    simp [shape, Shape.PatternIsText]
  refine ⟨htexts, fun d hd => ?_⟩
  have hzod : (renderShape .zod (.unit "\t") shape).outcome
      = .error (.unsupported
          { construct := .nonFinite .nan, path := Path.root.child "a", dialect := some .zod }) := rfl
  rcases (answered_alike htexts).1 with hall | ⟨construct, path, hall⟩
  · obtain ⟨code, hcode⟩ := hall .zod (by decide) "\t"
    rw [hzod] at hcode
    cases hcode
  · have hsame := hall .zod (by decide) "\t"
    rw [hzod] at hsame
    cases hsame
    exact hall d hd "\t"

end Module

end SchemaForge
