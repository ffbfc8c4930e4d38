import SchemaForge.Proofs.Expression.Likeness

/-!
# `SchemaForge.Proofs.Expression.Outline` — texts do not change the structure of an expression

Whatever texts a shape has for names, literals and defaults, the expression of the shape is alike to
that of the shape without these texts. Two things follow. Shapes that differ only in their texts
have expressions with the same outline; and the outline of an expression, which does not depend on
the texts, leaves no literal and no bracket open. Bounds and patterns are written as they are, so
bounds have to be numbers here and patterns have to say nothing.

## Contents
- **Lines.** `relates_optionalEntry`, `relates_line` and `relates_layout`.
- **Shapes.** `RenderAlike` and `LineAlike`; `renderAlike_and_lineAlike` by induction on the shape.
- **Structure.** `outline_eq_of_withoutTexts_eq` and `isClosed_rendered`.
-/

namespace SchemaForge

/-- Whether the bounds of a shape are numbers, where there are any, and its pattern says nothing. -/
def Shape.PlainDemands : Shape → Prop
  | .string minLength maxLength pattern =>
    minLength.IsNullOrNumber ∧ maxLength.IsNullOrNumber ∧ pattern.isVacant = true
  | .number minimum maximum => minimum.IsNullOrNumber ∧ maximum.IsNullOrNumber
  | .boolean | .literal _ | .object _ | .array _ | .union _ | .optional .. | .foreign _ => True

namespace Expression

open Emission (Relates relates_pure relates_orRefuse relates_refuse relates_warn_bind)
open Script (Mode closer? outline)
open Shape (Everywhere)

/-! ## Lines -/

/-- Whether an indentation that is a text is alike to itself. -/
def Indents (strict : Bool) (i : Indentation) : Prop :=
  ∀ unit, i = .unit unit → AlikeCode strict unit unit

variable {strict : Bool} {d : Dialect} {i : Indentation}

theorem alikeCode_empty : AlikeCode strict "" "" := .same (by decide)

theorem alikeCode_repeated {unit : String} (h : AlikeCode strict unit unit) (count : Nat) :
    AlikeCode strict (repeated unit count) (repeated unit count) := by
  induction count with
  | zero => exact alikeCode_empty
  | succ count ih => exact ih.append h

/-- An optional property is written alike with another name and default. -/
theorem relates_optionalEntry (d : Dialect) {code other : String} (h : AlikeCode strict code other)
    (name name' : String) (default? : Option Default) (path path' : Path) :
    Relates (fun entry entry' : Entry => AlikeCode strict entry.code entry'.code)
      (optionalEntry d name code default? path)
      (optionalEntry d name' other (default?.map Default.withoutTexts) path') := by
  have hwritten (default : Default) :
      List.Forall₂ (AlikeCode strict) [default.write] [default.withoutTexts.write] :=
    .cons (alikeCode_default default) .nil
  cases default? with
  | none =>
    cases d with
    | zod => exact relates_pure (h.append (.same (by decide)))
    | arkType => exact relates_pure h
    | _ => exact relates_pure (alikeCode_call (.same (by decide)) (.cons h .nil))
  | some default =>
    cases d with
    | zod =>
      exact relates_pure (h.append (alikeCode_call (.same (by decide)) (hwritten default)))
    | arkType => exact relates_warn_bind _ _ (relates_pure h)
    | typeBox =>
      have hspread : AlikeCode strict " ..." " ..." := .same (by decide)
      have hlabel : AlikeCode strict ", default: " ", default: " := .same (by decide)
      have hinner := ((hspread.append h).append hlabel).append (alikeCode_default default)
      have hblank : AlikeCode strict " " " " := .same (by decide)
      refine relates_pure (alikeCode_call (.same (by decide)) (.cons ?_ .nil))
      refine (hinner.append hblank).enclose (show closer? '\x7b' = some '\x7d' from rfl) ?_ ?_
      · simp [String.toList_append]
      · simp [String.toList_append]
    | _ => exact relates_pure (alikeCode_call (.same (by decide))
        (.cons h (hwritten default)))

/-- A line is written alike with another key. -/
theorem relates_line (hindent : Indents strict i) (depth : Nat) {entry entry' : Entry}
    (h : AlikeCode strict entry.code entry'.code) :
    Relates (AlikeCode strict) (line i depth entry) (line i depth entry') := by
  have hbefore (indent : String) (hi : i.before? depth = some indent) :
      AlikeCode strict indent indent := by
    cases i with
    | unit text =>
      cases hi
      exact alikeCode_repeated (hindent text rfl) depth
    | unjoinable =>
      cases hi
      exact alikeCode_empty
    | unrepeatable => cases hi
  unfold line
  cases hi : i.before? depth with
  | none => exact fun code hcode => nomatch hcode
  | some indent =>
    have hcolon : AlikeCode strict ": " ": " := .same (by decide)
    exact relates_pure ((((hbefore indent hi).append (alikeCode_doubleQuoted entry.key
      entry'.key)).append hcolon).append h)

/-- Alike lines are laid out alike. -/
theorem relates_layout (hindent : Indents strict i) (depth : Nat) {lines others : List String}
    (h : List.Forall₂ (AlikeCode strict) lines others) :
    Relates (AlikeCode strict) (layout i depth lines) (layout i depth others) := by
  cases hlines : h with
  | nil => exact relates_pure (.same (by decide))
  | cons hfirst hrest =>
    cases i with
    | unit text =>
      have hfeed : AlikeCode strict "\n" "\n" := .same (by decide)
      have hcomma : AlikeCode strict ",\n" ",\n" := .same (by decide)
      have hinner := ((hfeed.append (hcomma.intercalate h)).append hfeed).append
        (alikeCode_repeated (hindent text rfl) depth)
      refine relates_pure (hinner.enclose (show closer? '\x7b' = some '\x7d' from rfl) ?_ ?_)
      · simp [String.toList_append]
      · simp [String.toList_append]
    | unjoinable => exact fun code hcode => nomatch hcode
    | unrepeatable => exact fun code hcode => nomatch hcode

/-! ## Shapes -/

/-- Whether the expression of a shape matches that of the shape without its texts. -/
def RenderAlike (strict : Bool) (d : Dialect) (i : Indentation) (shape : Shape) : Prop :=
  ∀ path path' depth,
    Relates (Matches strict d) (render d i shape path depth) (render d i shape.withoutTexts path' depth)

/-- Whether the line of a property with the shape as its value is alike to that of the shape without
its texts, whatever the names. -/
def LineAlike (strict : Bool) (d : Dialect) (i : Indentation) (shape : Shape) : Prop :=
  ∀ name name' path path' depth,
    Relates (AlikeCode strict) (renderLine d i name shape path depth)
      (renderLine d i name' shape.withoutTexts path' depth)

theorem relates_renderMembers {members : List Shape}
    (h : ∀ member ∈ members, RenderAlike strict d i member) (path path' : Path)
    (depth index : Nat) :
    Relates (List.Forall₂ (Matches strict d)) (renderMembers d i members path depth index)
      (renderMembers d i (Shape.membersWithoutTexts members) path' depth index) := by
  induction members generalizing index with
  | nil => exact relates_pure .nil
  | cons member rest ih =>
    obtain ⟨hfirst, hrest⟩ := List.forall_mem_cons.mp h
    rw [Shape.membersWithoutTexts, renderMembers, renderMembers]
    refine (hfirst _ _ depth).bind fun code other hcode => ?_
    exact (ih hrest (index + 1)).bind_pure fun codes others hcodes => .cons hcode hcodes

theorem relates_renderMap (hindent : Indents strict i) {properties : Fields Shape}
    (h : ∀ property ∈ properties, LineAlike strict d i property.2) (path path' : Path)
    (depth : Nat) :
    Relates (AlikeCode strict) (renderMap d i properties path depth)
      (renderMap d i (Shape.propertiesWithoutTexts properties) path' depth) := by
  have hlines : Relates (List.Forall₂ (AlikeCode strict)) (renderLines d i properties path depth)
      (renderLines d i (Shape.propertiesWithoutTexts properties) path' depth) := by
    induction properties with
    | nil => exact relates_pure .nil
    | cons property rest ih =>
      obtain ⟨hfirst, hrest⟩ := List.forall_mem_cons.mp h
      rw [Shape.propertiesWithoutTexts, renderLines_cons, renderLines_cons]
      refine (hfirst _ _ path path' depth).bind fun code other hcode => ?_
      exact (ih hrest).bind_pure fun codes others hcodes => .cons hcode hcodes
  exact hlines.bind fun lines others => relates_layout hindent depth

theorem lineAlike_of_renderAlike (hindent : Indents strict i) {shape : Shape}
    (hshape : ¬ shape.IsOptional) (h : RenderAlike strict d i shape) :
    LineAlike strict d i shape := by
  intro name name' path path' depth
  rw [renderLine_of_not_isOptional hshape,
    renderLine_of_not_isOptional (mt (Shape.isOptional_withoutTexts shape).mp hshape)]
  exact (h _ _ (depth + 1)).bind fun code other hcode => relates_line hindent (depth + 1) hcode.1

theorem lineAlike_optional (hindent : Indents strict i) {inner : Shape} (default : Default)
    (hasDefault : Json) (h : RenderAlike strict d i inner) :
    LineAlike strict d i (.optional inner default hasDefault) := by
  intro name name' path path' depth
  by_cases hinner : inner.IsOptional
  · cases inner with
    | optional => exact relates_refuse d .nestedOptional (path.child name) _
    | _ => exact hinner.elim
  · rw [Shape.withoutTexts, renderLine_optional hinner,
      renderLine_optional (mt (Shape.isOptional_withoutTexts inner).mp hinner)]
    refine (h _ _ (depth + 1)).bind fun code other hcode => ?_
    have hdefault : (if hasDefault.isVacant then none else some default.withoutTexts)
        = (if hasDefault.isVacant then none else some default).map Default.withoutTexts := by
      cases hasDefault.isVacant <;> rfl
    rw [hdefault]
    exact (relates_optionalEntry d hcode.1 name name' _ _ _).bind fun entry entry' hentry =>
      relates_line hindent (depth + 1) hentry

/-- **The expression of a shape is alike to that of the shape without its texts**, and so is the
line of a property that has it as its value. -/
theorem renderAlike_and_lineAlike (d : Dialect) (hindent : Indents strict i) (shape : Shape)
    (hplain : Everywhere (fun _ => Shape.PlainDemands) .root shape) :
    RenderAlike strict d i shape ∧ LineAlike strict d i shape := by
  refine Everywhere.induct_properties ?string ?number ?boolean ?literal ?object ?array ?union
    ?optional ?foreign ?plainProperty ?optionalProperty hplain
  case string =>
    rintro minLength maxLength pattern ⟨hmin, hmax, hpattern⟩ path path' _
    exact relates_textType d hmin hmax hpattern path path'
  case number =>
    rintro minimum maximum ⟨hmin, hmax⟩ path path' _
    exact relates_numberType d hmin hmax path path'
  case boolean => exact fun _ _ _ => relates_pure (matches_booleanType d)
  case literal =>
    exact fun value path path' _ =>
      (relates_orRefuse fun _ => alikeCode_literal).bind_pure fun _ _ => matches_literalType d
  case object =>
    intro properties hlines path path' depth
    rw [Shape.withoutTexts, render, render, ← bind_assoc, ← bind_assoc]
    exact (relates_renderMap hindent hlines path path' depth).bind_pure fun _ _ =>
      matches_objectType d
  case array =>
    intro items hitems path path' depth
    rw [Shape.withoutTexts, render, render, Shape.isUnion_withoutTexts]
    exact (hitems _ _ depth).bind_pure fun _ _ => matches_listType d items.isUnion
  case union =>
    intro members hmembers path path' depth
    rw [Shape.withoutTexts, render, render, Shape.enumeration?_withoutTexts]
    cases Shape.enumeration? members with
    | some enumeration =>
      exact (relates_orRefuse fun _ => alikeCode_literals).bind_pure fun _ _ =>
        matches_enumerationType d enumeration.1
    | none =>
      exact (relates_renderMembers hmembers path path' depth 0).bind_pure fun _ _ =>
        matches_unionType d
  -- By itself an optional value is refused; only its line is written.
  case optional =>
    exact fun inner default hasDefault path _ _ => relates_refuse d .strayOptional path _
  case foreign => exact fun value path _ _ => relates_refuse d (.node value.kindName) path _
  case plainProperty => exact fun shape => lineAlike_of_renderAlike hindent
  case optionalProperty => exact fun inner => lineAlike_optional hindent

theorem relates_renderShape (d : Dialect) (hindent : Indents strict i) {shape : Shape}
    (hplain : Everywhere (fun _ => Shape.PlainDemands) .root shape) :
    Relates (AlikeCode strict) (renderShape d i shape) (renderShape d i shape.withoutTexts) := by
  intro code hcode
  obtain ⟨other, hother, hmatches⟩ :=
    (renderAlike_and_lineAlike d hindent shape hplain).1 .root .root 0 code hcode
  exact ⟨other, hother, hmatches.1⟩

theorem relates_renderRoot (d : Dialect) (hindent : Indents strict i) {properties : Fields Shape}
    (hplain : Everywhere (fun _ => Shape.PlainDemands) .root (.object properties)) :
    Relates (AlikeCode strict) (renderRoot d i properties)
      (renderRoot d i (Shape.propertiesWithoutTexts properties)) := by
  cases d with
  | arkType =>
    -- Only here the map stands by itself, without the call around it.
    have hlines : ∀ property ∈ properties, LineAlike strict .arkType i property.2 :=
      fun property hproperty => (renderAlike_and_lineAlike .arkType hindent property.2
        (Shape.everywhere_congr_top _
          ((Shape.everywhere_object.mp hplain).2 property hproperty))).2
    exact relates_renderMap hindent hlines .root .root 0
  | zod => exact relates_renderShape .zod hindent hplain
  | zodMini => exact relates_renderShape .zodMini hindent hplain
  | valibot => exact relates_renderShape .valibot hindent hplain
  | typeBox => exact relates_renderShape .typeBox hindent hplain

/-! ## Structure -/

/-- Two pieces of code that are alike to the same third have the same outline. -/
theorem outline_eq_of_relates {first second third : Emission String}
    (h : Relates (AlikeCode strict) first third) (h' : Relates (AlikeCode strict) second third)
    {code code' : String} (hcode : first.outcome = .ok code) (hcode' : second.outcome = .ok code') :
    outline .code code.toList = outline .code code'.toList := by
  obtain ⟨other, hother, halike⟩ := h code hcode
  obtain ⟨other', hother', halike'⟩ := h' code' hcode'
  rw [hother] at hother'
  cases hother'
  exact halike.outline_eq.trans halike'.outline_eq.symm

/-- **Texts do not change the structure of an expression.** Shapes that differ only in the names of
properties, in the texts among their literals and in the texts and keys in their defaults have
expressions with the same outline, by themselves and as roots of modules. The indentation may be any
text that leaves no literal open. -/
theorem outline_eq_of_withoutTexts_eq (d : Dialect) {unit : String}
    (hunit : Mode.code.after unit.toList = .code) {shape other : Shape}
    (hplain : Everywhere (fun _ => Shape.PlainDemands) .root shape)
    (hplain' : Everywhere (fun _ => Shape.PlainDemands) .root other)
    (hsame : shape.withoutTexts = other.withoutTexts) :
    (∀ code code', (renderShape d (.unit unit) shape).outcome = .ok code →
      (renderShape d (.unit unit) other).outcome = .ok code' →
        outline .code code.toList = outline .code code'.toList) ∧
    ∀ properties properties', shape = .object properties → other = .object properties' →
      ∀ code code', (renderRoot d (.unit unit) properties).outcome = .ok code →
        (renderRoot d (.unit unit) properties').outcome = .ok code' →
          outline .code code.toList = outline .code code'.toList := by
  -- Nothing is said about brackets here, so the indentation may have any.
  have hindent : Indents false (.unit unit) := by
    rintro _ ⟨⟩
    exact ⟨hunit, hunit, rfl, nofun⟩
  constructor
  · intro code code' hcode hcode'
    have h' := relates_renderShape d hindent hplain'
    rw [← hsame] at h'
    exact outline_eq_of_relates (relates_renderShape d hindent hplain) h' hcode hcode'
  · rintro properties properties' rfl rfl code code' hcode hcode'
    have hproperties : Shape.propertiesWithoutTexts properties
        = Shape.propertiesWithoutTexts properties' := Shape.object.inj hsame
    have h' := relates_renderRoot d hindent hplain'
    rw [← hproperties] at h'
    exact outline_eq_of_relates (relates_renderRoot d hindent hplain) h' hcode hcode'

/-- Quotes, backslashes, brackets and a line separator in place of letters. -/
theorem outline_eq_of_hostile_texts :
    Mode.code.after "  ".toList = .code ∧
    ∃ code code',
      (renderShape .arkType (.unit "  ") (.object [("a", .union [.literal (.str "b"),
        .array (.object [("c", .optional (.literal (.str "d")) .null .null)])])])).outcome
          = .ok code ∧
      (renderShape .arkType (.unit "  ") (.object [("\"]\\", .union [.literal (.str "'\\\""),
        .array (.object [("\u2028", .optional (.literal (.str "\\')")) .null .null)])])])).outcome
          = .ok code' ∧
      outline .code code.toList = outline .code code'.toList := by
  have hunit : Mode.code.after "  ".toList = .code := by decide
  have hplain : Everywhere (fun _ => Shape.PlainDemands) .root
      (.object [("a", .union [.literal (.str "b"),
        .array (.object [("c", .optional (.literal (.str "d")) .null .null)])])]) := by
    simp [Shape.PlainDemands]
  have hplain' : Everywhere (fun _ => Shape.PlainDemands) .root
      (.object [("\"]\\", .union [.literal (.str "'\\\""),
        .array (.object [("\u2028", .optional (.literal (.str "\\')")) .null .null)])])]) := by
    simp [Shape.PlainDemands]
  exact ⟨hunit, _, _, rfl, rfl,
    (outline_eq_of_withoutTexts_eq .arkType hunit hplain hplain' rfl).1 _ _ rfl rfl⟩

/-- **An expression leaves nothing open.** Every string literal in it is closed, and outside the
literals its brackets are nested and matched, whatever the texts in its shape. -/
theorem isClosed_rendered (d : Dialect) {unit : String}
    (hunit : ∀ c ∈ unit.toList, c = ' ' ∨ c = '\t') {shape : Shape}
    (hplain : Everywhere (fun _ => Shape.PlainDemands) .root shape) :
    (∀ code, (renderShape d (.unit unit) shape).outcome = .ok code →
      Script.IsClosed code.toList) ∧
    ∀ properties, shape = .object properties →
      ∀ code, (renderRoot d (.unit unit) properties).outcome = .ok code →
        Script.IsClosed code.toList := by
  have hindent : Indents true (.unit unit) := by
    rintro _ ⟨⟩
    apply Script.alike_of_bare
    intro c hc
    rcases hunit c hc with rfl | rfl
    · exact ⟨rfl, rfl, rfl⟩
    · exact ⟨rfl, rfl, rfl⟩
  constructor
  · intro code hcode
    obtain ⟨_, _, halike⟩ := relates_renderShape d hindent hplain code hcode
    exact halike.isClosed
  · rintro properties rfl code hcode
    obtain ⟨_, _, halike⟩ := relates_renderRoot d hindent hplain code hcode
    exact halike.isClosed

/-- Brackets and quotes in a name, in a literal and in a default of TypeBox. -/
theorem isClosed_of_brackets :
    (∀ c ∈ "\t".toList, c = ' ' ∨ c = '\t') ∧
    ∃ code, (renderRoot .typeBox (.unit "\t") [("(\"[", .optional (.union [.literal (.str "\x7b'"),
        .number (.int (-1)) .null, .object []])
        (.json (.obj [("\"", .arr [.str "\x7d\\", .float (.infinity true)])])) (.bool true))]).outcome
          = .ok code ∧
      Script.IsClosed code.toList := by
  have hblank : ∀ c ∈ "\t".toList, c = ' ' ∨ c = '\t' := by simp
  have hplain : Everywhere (fun _ => Shape.PlainDemands) .root
      (.object [("(\"[", .optional (.union [.literal (.str "\x7b'"),
        .number (.int (-1)) .null, .object []])
        (.json (.obj [("\"", .arr [.str "\x7d\\", .float (.infinity true)])])) (.bool true))]) := by
    simp [Shape.PlainDemands, Json.IsNullOrNumber]
  exact ⟨hblank, _, rfl, (isClosed_rendered .typeBox hblank hplain).2 _ rfl _ rfl⟩

end Expression

end SchemaForge
