import SchemaForge.Expression.Render
import SchemaForge.Proofs.Shape.Parts

/-!
# `SchemaForge.Proofs.Expression.Acceptance` — which shapes a dialect accepts

A dialect refuses a shape because of one of its parts. `Offence` lists what a part can be refused
for, each with the construct that the refusal names; `Contains` looks for it at every depth. The
writer visits parts from left to right and stops at the first refusal, so what it answers is stated
for both outcomes at once: `Answers` says that a refusal names an offence that is there, and that
what comes out has none. That form composes along a sequence whatever its order, and every lemma
below is an instance of it.

## Contents
- **Offences.** `Offence`, `Contains`.
- **Answers.** `Answers`, with one lemma for each way in which emissions are combined.
- **Scalars.** `answers_textType`, `answers_numberType`, `answers_literal`.
- **Shapes.** `renderAnswers_and_lineAnswers`, from `answers_renderMembers` and
  `answers_renderLines`.
- **Acceptance.** `renderShape_refused_iff`; `answers_renderRoot` for the root of a module.
-/

namespace SchemaForge

/-- Whether a double is an ordinary number. -/
def Binary64.IsFinite : Binary64 → Prop
  | .finite .. => True
  | .nan | .infinity _ => False

namespace Expression

open Shape (Place Occurs Everywhere)

/-! ## Offences -/

/-- Whether a value is a double without a numeric literal, which the construct then names. -/
def NonFinite (value : Json) (construct : Construct) : Prop :=
  ∃ x : Binary64, value = .float x ∧ ¬ x.IsFinite ∧ construct = .nonFinite x

/-- **What a dialect refuses**, at which place, and the construct that its refusal names. -/
inductive Offence (d : Dialect) : Place → Shape → Construct → Prop where
  /-- An optional value that is no property's. -/
  | strayOptional {place : Place} {inner : Shape} {default : Default} {hasDefault : Json} :
    place = .root ∨ place = .items ∨ place = .member →
      Offence d place (.optional inner default hasDefault) .strayOptional
  /-- A property's optional value that is optional once more. -/
  | nestedOptional {inner : Shape} {default : Default} {hasDefault : Json} :
    inner.IsOptional → Offence d .property (.optional inner default hasDefault) .nestedOptional
  /-- A bare value where a shape should be. -/
  | foreign {place : Place} {value : Json} :
    Offence d place (.foreign value) (.node value.kindName)
  /-- A literal that is neither a text nor a number nor a truth value. -/
  | literalValue {place : Place} {value : Json} :
    ¬ value.IsPrimitive → Offence d place (.literal value) (.literalValue value)
  /-- A literal that is no ordinary number. -/
  | literalNumber {place : Place} {value : Json} {construct : Construct} :
    NonFinite value construct → Offence d place (.literal value) construct
  /-- A lower bound that is no ordinary number. -/
  | minimum {place : Place} {minimum maximum : Json} {construct : Construct} :
    NonFinite minimum construct → Offence d place (.number minimum maximum) construct
  /-- An upper bound that is no ordinary number, where upper bounds are written. -/
  | maximum {place : Place} {minimum maximum : Json} {construct : Construct} :
    d ≠ .arkType → NonFinite maximum construct → Offence d place (.number minimum maximum) construct
  /-- A pattern that says something together with a length bound, in ArkType. -/
  | patternWithLength {place : Place} {minLength maxLength : Json} {pattern : String} :
    d = .arkType → pattern ≠ "" → minLength ≠ .null ∨ maxLength ≠ .null →
      Offence d place (.string minLength maxLength (.str pattern)) .patternWithLength

/-- Whether a shape that stands at `top` holds an offence that the construct names, at any depth. -/
def Contains (d : Dialect) (top : Place) (shape : Shape) (construct : Construct) : Prop :=
  ∃ place part, Occurs place part top shape ∧ Offence d place part construct

/-- An offence is that of the shape itself or is in one of its parts. -/
theorem contains_iff {d : Dialect} {top : Place} {shape : Shape} {construct : Construct} :
    Contains d top shape construct ↔
      Offence d top shape construct ∨
        ∃ child ∈ shape.parts, Contains d child.1 child.2 construct := by
  constructor
  · rintro ⟨place, part, hpart, hoffence⟩
    rcases Shape.occurs_iff.mp hpart with ⟨rfl, rfl⟩ | ⟨child, hchild, hpart⟩
    · exact Or.inl hoffence
    · exact Or.inr ⟨child, hchild, place, part, hpart, hoffence⟩
  · rintro (hoffence | ⟨child, hchild, place, part, hpart, hoffence⟩)
    · exact ⟨top, shape, .here, hoffence⟩
    · exact ⟨place, part, .within hchild hpart, hoffence⟩

/-! ## Answers -/

/-- **What an outcome says about offences.** A refusal is the dialect's own and names one of them;
when something comes out there are none. No other failure is an answer. -/
def Answers (d : Dialect) (offends : Construct → Prop) {α : Type} : Except RenderError α → Prop
  | .ok _ => ∀ construct, ¬ offends construct
  | .error (.unsupported refusal) => offends refusal.construct ∧ refusal.dialect = some d
  | .error .patternNotText | .error .indentNotText => False

variable {d : Dialect} {α β : Type} {p q : Construct → Prop}

theorem Answers.congr {outcome : Except RenderError α} (h : Answers d p outcome)
    (hiff : ∀ construct, p construct ↔ q construct) : Answers d q outcome := by
  have hpq : p = q := funext fun construct => propext (hiff construct)
  exact hpq ▸ h

theorem answers_pure (a : α) : Answers d (fun _ => False) (pure a : Emission α).outcome :=
  fun _ h => h

theorem answers_orRefuse (path : Path) (result : Except Construct α) :
    Answers d (fun construct => result = .error construct)
      (Emission.orRefuse d path result).outcome := by
  cases result with
  | ok a =>
    intro construct h
    cases h
  | error construct => exact ⟨rfl, rfl⟩

/-- The offences of a sequence are those of its parts. -/
theorem answers_bind {first : Emission α} {next : α → Emission β}
    (hfirst : Answers d p first.outcome)
    (hnext : ∀ a, first.outcome = .ok a → Answers d q (next a).outcome) :
    Answers d (fun construct => p construct ∨ q construct) (first >>= next).outcome := by
  cases hfirstOutcome : first.outcome with
  | error e =>
    rw [hfirstOutcome] at hfirst
    rw [Emission.outcome_bind_of_error hfirstOutcome]
    cases e with
    | unsupported refusal => exact ⟨Or.inl hfirst.1, hfirst.2⟩
    | patternNotText => exact hfirst
    | indentNotText => exact hfirst
  | ok a =>
    rw [hfirstOutcome] at hfirst
    rw [Emission.outcome_bind_of_ok hfirstOutcome]
    have hlast := hnext a hfirstOutcome
    cases hb : (next a).outcome with
    | ok b =>
      rw [hb] at hlast
      exact fun construct h => h.elim (hfirst construct) (hlast construct)
    | error e =>
      rw [hb] at hlast
      -- What is written first has no offences, so those of the rest are all there are.
      cases e with
      | unsupported refusal => exact ⟨Or.inr hlast.1, hlast.2⟩
      | patternNotText => exact hlast
      | indentNotText => exact hlast

/-- What is made of something written has no offences of its own. -/
theorem answers_bind_pure {first : Emission α} (f : α → β) (h : Answers d p first.outcome) :
    Answers d p (first >>= fun a => pure (f a)).outcome :=
  (answers_bind h fun a _ => answers_pure (f a)).congr fun _ => iff_of_eq (or_false _)

/-- When nothing can go wrong before, the offences of a sequence are those of its rest. -/
theorem answers_of_ok {first : Emission α} {next : α → Emission β} {a : α}
    (hfirst : first.outcome = .ok a) (hnext : Answers d p (next a).outcome) :
    Answers d p (first >>= next).outcome := by
  rw [Emission.outcome_bind_of_ok hfirst]
  exact hnext

/-! ## Scalars -/

theorem number_eq_error_iff {value : Json} {construct : Construct} :
    Script.number value = .error construct ↔ NonFinite value construct := by
  cases value with
  | float x =>
    cases x with
    | finite negative units =>
      have hwritten : ∃ text, Script.double (.finite negative units) = .ok text := by
        unfold Script.double
        dsimp only
        split <;> exact ⟨_, rfl⟩
      obtain ⟨text, htext⟩ := hwritten
      rw [Script.number, htext]
      simp [NonFinite, Binary64.IsFinite]
    | nan => simp [Script.number, Script.double, NonFinite, Binary64.IsFinite, eq_comm]
    | infinity negative =>
      simp [Script.number, Script.double, NonFinite, Binary64.IsFinite, eq_comm]
  | _ => simp [Script.number, NonFinite]

theorem literal_eq_error_iff {place : Place} {value : Json} {construct : Construct} :
    Script.literal value = .error construct ↔ Offence d place (.literal value) construct := by
  have hiff : Offence d place (.literal value) construct ↔
      (¬ value.IsPrimitive ∧ construct = .literalValue value) ∨ NonFinite value construct := by
    constructor
    · intro h
      cases h with
      | literalValue hvalue => exact Or.inl ⟨hvalue, rfl⟩
      | literalNumber hvalue => exact Or.inr hvalue
    · rintro (⟨hvalue, rfl⟩ | hvalue)
      · exact .literalValue hvalue
      · exact .literalNumber hvalue
  rw [hiff]
  cases value with
  | float x =>
    rw [Script.literal, number_eq_error_iff]
    simp [Json.IsPrimitive]
  | int n => simp [Script.literal, Script.number, Json.IsPrimitive, NonFinite]
  | _ => simp [Script.literal, Json.IsPrimitive, NonFinite, eq_comm]

/-- Literals in a row are refused for one of them, or written when all of them can be. -/
theorem answers_literals (path : Path) (values : List Json) :
    Answers d (fun construct => ∃ value ∈ values, Script.literal value = .error construct)
      (Emission.orRefuse d path (values.mapM Script.literal)).outcome := by
  induction values with
  | nil => exact fun construct ⟨value, hvalue, _⟩ => absurd hvalue List.not_mem_nil
  | cons value rest ih =>
    rw [List.mapM_cons]
    cases hvalue : Script.literal value with
    | error construct => exact ⟨⟨value, List.mem_cons_self, hvalue⟩, rfl⟩
    | ok text =>
      -- The first literal is no offence, so the others decide.
      show Answers d _ (Emission.orRefuse d path
        (List.mapM Script.literal rest >>= fun texts => pure (text :: texts))).outcome
      cases hrest : List.mapM Script.literal rest with
      | error construct =>
        rw [hrest] at ih
        obtain ⟨⟨other, hother, herror⟩, _⟩ := ih
        exact ⟨⟨other, List.mem_cons_of_mem _ hother, herror⟩, rfl⟩
      | ok texts =>
        rw [hrest] at ih
        rintro construct ⟨other, hother, herror⟩
        rcases List.mem_cons.mp hother with rfl | hother
        · rw [hvalue] at herror
          cases herror
        · exact ih construct ⟨other, hother, herror⟩

theorem answers_boundDemand (demand : Demand) (bound : Json) (path : Path) :
    Answers d (NonFinite bound) (boundDemand d demand bound path).outcome := by
  unfold boundDemand
  split
  · next hnull =>
    rintro construct ⟨x, rfl, _⟩
    cases hnull
  · refine answers_bind_pure _ ((answers_orRefuse path _).congr ?_)
    intro construct
    exact number_eq_error_iff

theorem answers_numberDemands (minimum maximum : Json) (path : Path) :
    Answers d (fun construct => NonFinite minimum construct ∨ NonFinite maximum construct)
      (numberDemands d minimum maximum path).outcome :=
  answers_bind (answers_boundDemand .minimum minimum path) fun _ _ =>
    answers_bind_pure _ (answers_boundDemand .maximum maximum path)

/-- What a number is refused for: a bound that is written. -/
theorem offence_number_iff {place : Place} {minimum maximum : Json} {construct : Construct} :
    Offence d place (.number minimum maximum) construct ↔
      NonFinite minimum construct ∨ (d ≠ .arkType ∧ NonFinite maximum construct) := by
  constructor
  · intro h
    cases h with
    | minimum h => exact Or.inl h
    | maximum hd h => exact Or.inr ⟨hd, h⟩
  · rintro (h | ⟨hd, h⟩)
    · exact .minimum h
    · exact .maximum hd h

/-- The lower bound of a number in ArkType is refused when it has no literal. -/
theorem answers_lowerBound (minimum : Json) (path : Path) :
    Answers .arkType (NonFinite minimum)
      (if minimum.isNull then pure (Script.doubleQuoted "number")
        else do
          let bound ← .orRefuse .arkType path (Script.number minimum)
          return Script.doubleQuoted ("number >= " ++ bound) : Emission String).outcome := by
  split
  · next hnull =>
    rintro construct ⟨x, rfl, _⟩
    cases hnull
  · refine answers_bind_pure _ ((answers_orRefuse path _).congr ?_)
    intro construct
    exact number_eq_error_iff

theorem answers_numberType (place : Place) (minimum maximum : Json) (path : Path) :
    Answers d (Offence d place (.number minimum maximum))
      (numberType d minimum maximum path).outcome := by
  have hdemands := answers_numberDemands (d := d) minimum maximum path
  have hwritten (hd : d ≠ .arkType) (construct : Construct) :
      NonFinite minimum construct ∨ NonFinite maximum construct ↔
        Offence d place (.number minimum maximum) construct := by
    rw [offence_number_iff, and_iff_right hd]
  cases d with
  | arkType =>
    refine Answers.congr (p := NonFinite minimum) ?_ fun construct => ?_
    · show Answers .arkType _ (arkTypeNumber minimum maximum path).outcome
      unfold arkTypeNumber
      dsimp only
      split
      · exact answers_of_ok rfl (answers_lowerBound minimum path)
      · exact answers_lowerBound minimum path
    · rw [offence_number_iff]
      simp
  | zod => exact (answers_bind_pure _ hdemands).congr (hwritten nofun)
  | zodMini => exact (answers_bind_pure _ hdemands).congr (hwritten nofun)
  | valibot => exact (answers_bind_pure _ hdemands).congr (hwritten nofun)
  | typeBox => exact (answers_bind_pure _ hdemands).congr (hwritten nofun)

/-- With a pattern that is null or a text, the demands on a text can be written. -/
theorem textDemands_eq_pure {pattern : Json} (hpattern : pattern.IsNullOrText)
    (minLength maxLength : Json) :
    ∃ demands, textDemands d minLength maxLength pattern = pure demands := by
  unfold textDemands
  split
  · exact ⟨_, rfl⟩
  · cases pattern with
    | str text =>
      dsimp only
      split
      · exact ⟨_, pure_bind _ _⟩
      · exact ⟨_, pure_bind _ _⟩
    | null => exact absurd rfl ‹_›
    | _ => exact hpattern.elim

/-- What a text is refused for: a pattern that says something and a length bound, in ArkType. -/
theorem offence_string_iff {place : Place} {minLength maxLength pattern : Json}
    {construct : Construct} (hpattern : pattern.IsNullOrText) :
    Offence d place (.string minLength maxLength pattern) construct ↔
      d = .arkType ∧ pattern.isVacant = false ∧ (minLength ≠ .null ∨ maxLength ≠ .null) ∧
        construct = .patternWithLength := by
  constructor
  · intro h
    cases h with
    | patternWithLength hd htext hlength =>
      exact ⟨hd, by simpa [Json.isVacant] using htext, hlength, rfl⟩
  · rintro ⟨hd, hvacant, hlength, rfl⟩
    cases pattern with
    | str text => exact .patternWithLength hd (by simpa [Json.isVacant] using hvacant) hlength
    | null => cases hvacant
    | _ => exact hpattern.elim

theorem isNull_eq_true_iff {value : Json} : value.isNull = true ↔ value = .null := by
  cases value <;> simp [Json.isNull]

theorem answers_arkTypeText (place : Place) {pattern : Json} (hpattern : pattern.IsNullOrText)
    (minLength maxLength : Json) (path : Path) :
    Answers .arkType (Offence .arkType place (.string minLength maxLength pattern))
      (arkTypeText minLength maxLength pattern path).outcome := by
  unfold arkTypeText
  split
  · next hvacant =>
    intro construct hoffence
    have := (offence_string_iff hpattern).mp hoffence
    rw [hvacant] at this
    exact nomatch this.2.1
  · next hsays =>
    split
    · next hnull =>
      rw [Bool.and_eq_true, isNull_eq_true_iff, isNull_eq_true_iff] at hnull
      cases pattern with
      | str text =>
        intro construct hoffence
        obtain ⟨-, -, hlength, -⟩ := (offence_string_iff hpattern).mp hoffence
        exact hlength.elim (absurd hnull.1) (absurd hnull.2)
      | null => exact absurd rfl hsays
      | _ => exact hpattern.elim
    · next hlength =>
      refine ⟨(offence_string_iff hpattern).mpr ⟨rfl, by simpa using hsays, ?_, rfl⟩, rfl⟩
      rw [Bool.and_eq_true, isNull_eq_true_iff, isNull_eq_true_iff] at hlength
      exact Classical.not_and_iff_not_or_not.mp hlength

theorem answers_textType (place : Place) {pattern : Json} (hpattern : pattern.IsNullOrText)
    (minLength maxLength : Json) (path : Path) :
    Answers d (Offence d place (.string minLength maxLength pattern))
      (textType d minLength maxLength pattern path).outcome := by
  obtain ⟨demands, hdemands⟩ := textDemands_eq_pure (d := d) hpattern minLength maxLength
  have hnone (hd : d ≠ .arkType) (construct : Construct) :
      ¬ Offence d place (.string minLength maxLength pattern) construct := fun h =>
    hd ((offence_string_iff hpattern).mp h).1
  cases d with
  | arkType => exact answers_arkTypeText place hpattern minLength maxLength path
  | zod => simp only [textType, hdemands, pure_bind]; exact hnone nofun
  | zodMini => simp only [textType, hdemands, pure_bind]; exact hnone nofun
  | valibot => simp only [textType, hdemands, pure_bind]; exact hnone nofun
  | typeBox => simp only [textType, hdemands, pure_bind]; exact hnone nofun

/-! ## Shapes -/

/-- The places where an optional value is refused as such. -/
def RefusesOptional (place : Place) : Prop := place = .root ∨ place = .items ∨ place = .member

/-- What is written of a shape answers for the offences in it, at every place where `render` is
asked for it: a property's optional value is never given to it. -/
def RenderAnswers (d : Dialect) (unit : String) (shape : Shape) : Prop :=
  ∀ top path depth, (shape.IsOptional → RefusesOptional top) →
    Answers d (Contains d top shape) (render d (.unit unit) shape path depth).outcome

/-- So does the line of a property with that value. -/
def LineAnswers (d : Dialect) (unit : String) (shape : Shape) : Prop :=
  ∀ name path depth,
    Answers d (Contains d .property shape) (renderLine d (.unit unit) name shape path depth).outcome

theorem contains_of_no_parts {top : Place} {shape : Shape} (hparts : shape.parts = [])
    (construct : Construct) : Offence d top shape construct ↔ Contains d top shape construct := by
  rw [contains_iff, hparts]
  simp

theorem not_offence_array {top : Place} {items : Shape} {construct : Construct} :
    ¬ Offence d top (.array items) construct := nofun

theorem not_offence_object {top : Place} {properties : Fields Shape} {construct : Construct} :
    ¬ Offence d top (.object properties) construct := nofun

theorem not_offence_union {top : Place} {members : List Shape} {construct : Construct} :
    ¬ Offence d top (.union members) construct := nofun

theorem contains_array_iff {top : Place} {items : Shape} {construct : Construct} :
    Contains d top (.array items) construct ↔ Contains d .items items construct := by
  rw [contains_iff, Shape.parts]
  simp [not_offence_array]

theorem contains_object_iff {top : Place} {properties : Fields Shape} {construct : Construct} :
    Contains d top (.object properties) construct ↔
      ∃ property ∈ properties, Contains d .property property.2 construct := by
  rw [contains_iff, Shape.parts, or_iff_right not_offence_object]
  simp only [List.mem_map, exists_exists_and_eq_and]

theorem contains_union_iff {top : Place} {members : List Shape} {construct : Construct} :
    Contains d top (.union members) construct ↔
      ∃ member ∈ members, Contains d .member member construct := by
  rw [contains_iff, Shape.parts, or_iff_right not_offence_union]
  simp only [List.mem_map, exists_exists_and_eq_and]

/-- A property's optional value offends as its inner value does, unless that is optional too. -/
theorem contains_optional_iff {inner : Shape} {default : Default} {hasDefault : Json}
    {construct : Construct} (hinner : ¬ inner.IsOptional) :
    Contains d .property (.optional inner default hasDefault) construct ↔
      Contains d .inner inner construct := by
  rw [contains_iff, Shape.parts]
  have hnone : ¬ Offence d .property (.optional inner default hasDefault) construct := by
    intro h
    cases h with
    | strayOptional hplace => simp at hplace
    | nestedOptional h => exact hinner h
  simp [hnone]

theorem layout_eq_pure (unit : String) (depth : Nat) (lines : List String) :
    ∃ map, layout (.unit unit) depth lines = pure map := by
  cases lines <;> exact ⟨_, rfl⟩

theorem optionalEntry_outcome (d : Dialect) (name code : String) (default? : Option Default)
    (path : Path) : ∃ entry, (optionalEntry d name code default? path).outcome = .ok entry := by
  cases d <;> cases default? <;> exact ⟨_, rfl⟩

/-- The members of a union are written one after another. -/
theorem answers_renderMembers {unit : String} {members : List Shape}
    (h : ∀ member ∈ members, RenderAnswers d unit member) (path : Path) (depth index : Nat) :
    Answers d (fun construct => ∃ member ∈ members, Contains d .member member construct)
      (renderMembers d (.unit unit) members path depth index).outcome := by
  induction members generalizing index with
  | nil => exact fun construct ⟨member, hmember, _⟩ => absurd hmember List.not_mem_nil
  | cons member rest ih =>
    have hfirst := h member List.mem_cons_self .member (path.element "anyOf" index) depth
      fun _ => Or.inr (Or.inr rfl)
    have hrest := ih (fun other hother => h other (List.mem_cons_of_mem _ hother)) (index + 1)
    rw [renderMembers]
    apply (answers_bind hfirst fun _ _ => answers_bind_pure _ hrest).congr
    intro construct
    simp only [List.mem_cons, exists_eq_or_imp]

/-- The lines of an object are written one after another. -/
theorem answers_renderLines {unit : String} {properties : Fields Shape}
    (h : ∀ property ∈ properties, LineAnswers d unit property.2) (path : Path) (depth : Nat) :
    Answers d (fun construct => ∃ property ∈ properties, Contains d .property property.2 construct)
      (renderLines d (.unit unit) properties path depth).outcome := by
  induction properties with
  | nil => exact fun construct ⟨property, hproperty, _⟩ => absurd hproperty List.not_mem_nil
  | cons property rest ih =>
    have hfirst := h property List.mem_cons_self property.1 path depth
    have hrest := ih fun other hother => h other (List.mem_cons_of_mem _ hother)
    rw [renderLines_cons]
    apply (answers_bind hfirst fun _ _ => answers_bind_pure _ hrest).congr
    intro construct
    simp only [List.mem_cons, exists_eq_or_imp]

/-- What encloses the lines can always be written. -/
theorem answers_renderMap {unit : String} {properties : Fields Shape} {top : Place}
    (h : ∀ property ∈ properties, LineAnswers d unit property.2) (path : Path) (depth : Nat) :
    Answers d (Contains d top (.object properties))
      (renderMap d (.unit unit) properties path depth).outcome := by
  refine (answers_bind (q := fun _ => False) (answers_renderLines h path depth)
    fun lines _ => ?_).congr fun construct => ?_
  · obtain ⟨map, hmap⟩ := layout_eq_pure unit depth lines
    rw [hmap]
    exact answers_pure map
  · rw [or_false, contains_object_iff]

/-- The line of a property that is not optional answers for its value. -/
theorem lineAnswers_of_renderAnswers {unit : String} {shape : Shape} (hshape : ¬ shape.IsOptional)
    (h : RenderAnswers d unit shape) : LineAnswers d unit shape := by
  intro name path depth
  have hcode := h .property (path.child name) (depth + 1) (absurd · hshape)
  rw [renderLine_of_not_isOptional hshape]
  refine (answers_bind hcode ?_).congr fun construct => iff_of_eq (or_false _)
  exact fun code _ => answers_pure _

/-- The line of an optional property answers for the value that is optional. -/
theorem lineAnswers_optional {unit : String} {inner : Shape} (default : Default) (hasDefault : Json)
    (h : RenderAnswers d unit inner) : LineAnswers d unit (.optional inner default hasDefault) := by
  intro name path depth
  by_cases hinner : inner.IsOptional
  · cases inner with
    | optional innermost default' hasDefault' =>
      have hoffence : Offence d .property
          (.optional (.optional innermost default' hasDefault') default hasDefault)
          .nestedOptional := .nestedOptional trivial
      exact ⟨contains_iff.mpr (Or.inl hoffence), rfl⟩
    | _ => exact hinner.elim
  · have hcode := h .inner (path.child name) (depth + 1) (absurd · hinner)
    refine Answers.congr ?_ fun construct => (contains_optional_iff hinner).symm
    rw [renderLine_optional hinner]
    refine (answers_bind hcode ?_).congr fun construct => iff_of_eq (or_false _)
    intro code _
    obtain ⟨entry, hentry⟩ := optionalEntry_outcome d name code
      (if hasDefault.isVacant then none else some default) (path.child name)
    exact answers_of_ok hentry (answers_pure _)

/-- A union that enumerates answers for its literals. -/
theorem answers_enumeration {unit : String} {members : List Shape} {kind : LiteralKind}
    {values : List Json} (henum : Shape.enumeration? members = some (kind, values)) (top : Place)
    (path : Path) (depth : Nat) :
    Answers d (Contains d top (.union members))
      (render d (.unit unit) (.union members) path depth).outcome := by
  have hmembers : members = values.map .literal := Shape.eq_map_of_enumeration? henum
  rw [render, henum]
  apply (answers_bind_pure _ (answers_literals path values)).congr
  intro construct
  have hliteral (value : Json) : Script.literal value = .error construct ↔
      Contains d .member (.literal value) construct :=
    literal_eq_error_iff.trans (contains_of_no_parts rfl construct)
  rw [contains_union_iff, hmembers]
  simp only [List.mem_map, exists_exists_and_eq_and, hliteral]

/-- **What is written of a shape answers for the offences in it**, and so does the line of a
property that has it as its value. -/
theorem renderAnswers_and_lineAnswers (d : Dialect) (unit : String) (shape : Shape)
    (htexts : Everywhere (fun _ => Shape.PatternIsText) .root shape) :
    RenderAnswers d unit shape ∧ LineAnswers d unit shape := by
  refine Everywhere.induct_properties ?string ?number ?boolean ?literal ?object ?array ?union
    ?optional ?foreign ?plainProperty ?optionalProperty htexts
  case string =>
    exact fun minLength maxLength pattern hpattern top path _ _ =>
      (answers_textType top hpattern minLength maxLength path).congr (contains_of_no_parts rfl)
  case number =>
    exact fun minimum maximum _ top path _ _ =>
      (answers_numberType top minimum maximum path).congr (contains_of_no_parts rfl)
  case boolean =>
    refine fun top path _ _ => (answers_pure _).congr fun construct => ?_
    rw [← contains_of_no_parts rfl]
    exact ⟨False.elim, nofun⟩
  case literal =>
    exact fun value top path _ _ => (answers_bind_pure _ (answers_orRefuse path _)).congr
      fun construct => literal_eq_error_iff.trans (contains_of_no_parts rfl construct)
  case object =>
    intro properties hlines top path depth _
    rw [render, ← bind_assoc]
    exact answers_bind_pure _ (answers_renderMap hlines path depth)
  case array =>
    exact fun items hitems top path depth _ =>
      (answers_bind_pure _ (hitems .items _ depth fun _ => Or.inr (Or.inl rfl))).congr
        fun construct => contains_array_iff.symm
  case union =>
    intro members hmembers top path depth _
    cases henum : Shape.enumeration? members with
    | some enumeration => exact answers_enumeration henum top path depth
    | none =>
      rw [render, henum]
      exact (answers_bind_pure _ (answers_renderMembers hmembers path depth 0)).congr
        fun construct => contains_union_iff.symm
  case optional =>
    -- `render` is given an optional value only where it has to refuse it.
    intro inner default hasDefault top path depth htop
    have hoffence : Offence d top (.optional inner default hasDefault) .strayOptional :=
      .strayOptional (htop trivial)
    exact ⟨contains_iff.mpr (Or.inl hoffence), rfl⟩
  case foreign => exact fun value top path _ _ => ⟨contains_iff.mpr (Or.inl .foreign), rfl⟩
  case plainProperty => exact fun shape => lineAnswers_of_renderAnswers
  case optionalProperty => exact fun inner => lineAnswers_optional

/-! ## Acceptance -/

/-- What is written of a whole tree answers for the offences in it. -/
theorem answers_renderShape (d : Dialect) (unit : String) {shape : Shape}
    (htexts : Everywhere (fun _ => Shape.PatternIsText) .root shape) :
    Answers d (Contains d .root shape) (renderShape d (.unit unit) shape).outcome :=
  (renderAnswers_and_lineAnswers d unit shape htexts).1 .root .root 0 fun _ => Or.inl rfl

/-- What is written of the root of a module answers for the same offences. -/
theorem answers_renderRoot (d : Dialect) (unit : String) {properties : Fields Shape}
    (htexts : Everywhere (fun _ => Shape.PatternIsText) .root (.object properties)) :
    Answers d (Contains d .root (.object properties))
      (renderRoot d (.unit unit) properties).outcome := by
  cases d with
  | arkType =>
    -- Only here the map stands by itself, without the call around it.
    have hlines : ∀ property ∈ properties, LineAnswers .arkType unit property.2 :=
      fun property hproperty => (renderAnswers_and_lineAnswers .arkType unit property.2
        (Shape.everywhere_congr_top _
          ((Shape.everywhere_object.mp htexts).2 property hproperty))).2
    exact answers_renderMap hlines .root 0
  | zod => exact answers_renderShape .zod unit htexts
  | zodMini => exact answers_renderShape .zodMini unit htexts
  | valibot => exact answers_renderShape .valibot unit htexts
  | typeBox => exact answers_renderShape .typeBox unit htexts

/-- **Exact acceptance.** A dialect refuses a tree whose patterns are null or texts if and only if
the tree contains an offence, at any depth, and writes every other tree. -/
theorem renderShape_refused_iff (d : Dialect) (unit : String) (shape : Shape)
    (htexts : Everywhere (fun _ => Shape.PatternIsText) .root shape) :
    ((∃ refusal, (renderShape d (.unit unit) shape).outcome = .error (.unsupported refusal)) ↔
      ∃ construct, Contains d .root shape construct) ∧
    ((¬ ∃ construct, Contains d .root shape construct) →
      ∃ text, (renderShape d (.unit unit) shape).outcome = .ok text) := by
  have hanswers := answers_renderShape d unit htexts
  cases houtcome : (renderShape d (.unit unit) shape).outcome with
  | ok text =>
    rw [houtcome] at hanswers
    have hnone : ¬ ∃ construct, Contains d .root shape construct := by
      rintro ⟨construct, h⟩
      exact hanswers construct h
    refine ⟨?_, fun _ => ⟨text, rfl⟩⟩
    constructor
    · rintro ⟨refusal, h⟩
      cases h
    · intro h
      exact absurd h hnone
  | error e =>
    rw [houtcome] at hanswers
    cases e with
    | unsupported refusal =>
      have hcontains : ∃ construct, Contains d .root shape construct := ⟨_, hanswers.1⟩
      refine ⟨?_, fun hnone => absurd hcontains hnone⟩
      constructor
      · intro _
        exact hcontains
      · intro _
        exact ⟨refusal, rfl⟩
    | patternNotText => exact hanswers.elim
    | indentNotText => exact hanswers.elim

/-- ArkType refuses a bounded text with a pattern among the items of a property's list. -/
theorem renderShape_refused_bounded_pattern :
    Everywhere (fun _ => Shape.PatternIsText) .root
      (.object [("tags", .optional (.array (.union [.literal (.str "a"),
        .string (.int 1) .null (.str "x")])) .null (.bool false))]) ∧
    ∃ refusal, (renderShape .arkType (.unit "  ")
      (.object [("tags", .optional (.array (.union [.literal (.str "a"),
        .string (.int 1) .null (.str "x")])) .null (.bool false))])).outcome
          = .error (.unsupported refusal) := by
  have htexts : Everywhere (fun _ => Shape.PatternIsText) .root
      (.object [("tags", .optional (.array (.union [.literal (.str "a"),
        .string (.int 1) .null (.str "x")])) .null (.bool false))]) := by
    simp [Shape.PatternIsText, Json.IsNullOrText]
  refine ⟨htexts, (renderShape_refused_iff .arkType "  " _ htexts).1.mpr ⟨.patternWithLength,
    .member, .string (.int 1) .null (.str "x"), ?_, .patternWithLength rfl (by decide)
      (Or.inl nofun)⟩⟩
  exact .within (List.mem_singleton.mpr rfl) (.within (List.mem_singleton.mpr rfl)
    (.within (List.mem_singleton.mpr rfl) (.within (List.mem_cons_of_mem _ List.mem_cons_self)
      .here)))

end Expression

end SchemaForge
