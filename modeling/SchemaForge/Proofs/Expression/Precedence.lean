import SchemaForge.Proofs.Expression.Definitional
import SchemaForge.Proofs.Script.Operators

/-!
# `SchemaForge.Proofs.Expression.Precedence` — what the brackets of a list apply to

ArkType makes the definition of a list by writing brackets behind that of the items, which are
parenthesised if they are a union. Unions are not the only definitions with operators: bounds are
written with comparisons. So the brackets apply to the items as a whole except where the items are
bounded, or lists of bounded items; there they apply to what stands last.

## Contents
- **Bounds.** `Shape.Bounded`.
- **Definitions.** `alikeCode_definition?`: definitions leave no literal and no bracket open.
- **Surfaces.** `ne_of_mem_surface` for definitions without bounds, `isLoose_of_bounded` for others.
- **Lists.** `parenthesised_iff`.
-/

namespace SchemaForge

/-! ## Bounds -/

/-- **Whether there is a comparison in the definition of a shape**, with no parentheses around it. -/
def Shape.Bounded : Shape → Prop
  | .string minLength maxLength _ => minLength.isNull = false ∨ maxLength.isNull = false
  | .number minimum _ => minimum.isNull = false
  | .array items => items.Bounded
  | _ => False

namespace Expression

open Script (surface HasOperator IsEnclosed IsLoose)
open Shape (Everywhere everywhere_string everywhere_number everywhere_array everywhere_union)

variable {i : Indentation}

/-! ## Definitions -/

theorem alikeCode_display {value : Json} (h : value.IsNullOrNumber) :
    AlikeCode true value.display value.display :=
  alike_of_isNumeralText (Script.isNumeralText_display h)

theorem alikeCode_textDefinition {minLength maxLength : Json} (hmin : minLength.IsNullOrNumber)
    (hmax : maxLength.IsNullOrNumber) :
    AlikeCode true (textDefinition minLength maxLength) (textDefinition minLength maxLength) := by
  unfold textDefinition
  split
  · exact .same (by decide)
  · exact .append (.same (by decide)) (alikeCode_display hmin)
  · exact .append (.same (by decide)) (alikeCode_display hmax)
  · exact .append (.append (alikeCode_display hmin) (.same (by decide))) (alikeCode_display hmax)

theorem alikeCode_number {value : Json} {text : String} (h : value.IsNullOrNumber)
    (hok : Script.number value = .ok text) : AlikeCode true text text :=
  alike_of_isNumeralText (Script.isNumeralText_number h hok)

/-- What is in parentheses. -/
theorem AlikeCode.parenthesised {text : String} (h : AlikeCode true text text) :
    AlikeCode true ("(" ++ text ++ ")") ("(" ++ text ++ ")") := by
  refine h.enclose (show Script.closer? '(' = some ')' from rfl) ?_ ?_
  · simp [String.toList_append]
  · simp [String.toList_append]

theorem exists_of_mem_definitions? {members : List Shape} {texts : List String}
    (h : Shape.definitions? members = some texts) {text : String} (htext : text ∈ texts) :
    ∃ member ∈ members, member.definition? = some text := by
  induction members generalizing texts with
  | nil =>
    cases h
    exact absurd htext List.not_mem_nil
  | cons member rest ih =>
    rw [Shape.definitions?] at h
    obtain ⟨first, hfirst, h⟩ := Option.bind_eq_some_iff.mp h
    obtain ⟨others, hothers, h⟩ := Option.bind_eq_some_iff.mp h
    cases h
    rcases List.mem_cons.mp htext with rfl | htext
    · exact ⟨member, List.mem_cons_self, hfirst⟩
    · obtain ⟨other, hother, hdefinition⟩ := ih hothers htext
      exact ⟨other, List.mem_cons_of_mem _ hother, hdefinition⟩

/-- The definition of a list, taken apart. -/
theorem definition?_array_eq_some_iff {items : Shape} {text : String} :
    (Shape.array items).definition? = some text ↔
      ∃ item, items.definition? = some item ∧
        text = (if items.isUnion then "(" ++ item ++ ")" else item) ++ "[]" := by
  rw [Shape.definition?, Option.bind_eq_bind, Option.bind_eq_some_iff]
  constructor
  · rintro ⟨item, hitem, h⟩
    cases h
    exact ⟨item, hitem, rfl⟩
  · rintro ⟨item, hitem, rfl⟩
    exact ⟨item, hitem, rfl⟩

theorem definition?_number_eq_some_iff {minimum maximum : Json} {text : String} :
    (Shape.number minimum maximum).definition? = some text ↔
      (minimum.isNull = true ∧ text = "number") ∨
        (minimum.isNull = false ∧ ∃ bound, Script.number minimum = .ok bound ∧
          text = "number >= " ++ bound) := by
  rw [Shape.definition?]
  cases minimum.isNull with
  | true => simp [eq_comm]
  | false =>
    cases Script.number minimum with
    | ok bound => simp [Except.toOption, eq_comm]
    | error construct => simp [Except.toOption]

theorem literal_of_definition? {value : Json} {text : String}
    (h : (Shape.literal value).definition? = some text) : Script.literal value = .ok text := by
  rw [Shape.definition?] at h
  cases hliteral : Script.literal value with
  | ok other =>
    rw [hliteral] at h
    cases h
    rfl
  | error construct =>
    rw [hliteral] at h
    cases h

/-- **Definitions leave nothing open**, neither a literal nor a bracket. -/
theorem alikeCode_definition? {top : Shape.Place} {shape : Shape} {text : String}
    (hbounds : Everywhere (fun _ => Shape.NumericBounds) top shape)
    (h : shape.definition? = some text) : AlikeCode true text text := by
  induction shape generalizing top text with
  | string minLength maxLength pattern =>
    obtain ⟨hmin, hmax⟩ := everywhere_string.mp hbounds
    rw [Shape.definition?] at h
    split at h
    · cases h
      exact alikeCode_textDefinition hmin hmax
    · cases h
  | number minimum maximum =>
    obtain ⟨hmin, -⟩ := everywhere_number.mp hbounds
    rcases definition?_number_eq_some_iff.mp h with ⟨-, rfl⟩ | ⟨-, bound, hbound, rfl⟩
    · exact .same (by decide)
    · exact .append (.same (by decide)) (alikeCode_number hmin hbound)
  | boolean =>
    cases h
    exact .same (by decide)
  | literal value =>
    obtain ⟨other, -, halike⟩ : ∃ other, Script.literal value.withoutTexts = .ok other ∧
        AlikeCode true text other := alikeCode_literal (literal_of_definition? h)
    exact .same halike.isClosed
  | object properties => cases h
  | array items ih =>
    obtain ⟨item, hitem, rfl⟩ := definition?_array_eq_some_iff.mp h
    have hclosed : AlikeCode true item item := ih (everywhere_array.mp hbounds).2 hitem
    refine AlikeCode.append ?_ (.same (by decide))
    split
    · exact hclosed.parenthesised
    · exact hclosed
  | union members ih =>
    rw [Shape.definition?] at h
    obtain ⟨texts, htexts, h⟩ := Option.bind_eq_some_iff.mp h
    cases h
    refine AlikeCode.intercalate (.same (by decide)) (List.forall₂_same.mpr fun text htext => ?_)
    obtain ⟨member, hmember, hdefinition⟩ := exists_of_mem_definitions? htexts htext
    exact ih member hmember ((everywhere_union.mp hbounds).2 member hmember) hdefinition
  | optional inner default hasDefault => cases h
  | foreign value => cases h

/-! ## Surfaces -/

/-- The text of a number is no operator. -/
theorem ne_of_mem_numeral {text : String} (h : IsNumeralText text.toList) {c : Char}
    (hc : c ∈ surface text) : c ≠ '|' ∧ c ≠ '=' := by
  have hnumeral : isNumeralChar c = true := h c (Script.mem_of_mem_surface hc)
  constructor
  · rintro rfl
    cases hnumeral
  · rintro rfl
    cases hnumeral

theorem ne_of_mem_literal {value : Json} {text : String} (hok : Script.literal value = .ok text)
    {c : Char} (hc : c ∈ surface text) : c ≠ '|' ∧ c ≠ '=' := by
  rcases Script.numeral_or_quoted hok with ⟨-, hnumeral⟩ | ⟨s, -, rfl⟩
  · exact ne_of_mem_numeral hnumeral hc
  · -- Whatever the text is, only the quotes around it are on the surface.
    have halike : AlikeCode true (Script.singleQuoted s) (Script.singleQuoted "") :=
      alikeCode_singleQuoted s ""
    rw [surface, halike.outline_eq] at hc
    have hquote : c = '\'' := by simpa using (show c ∈ ['\'', '\''] from hc)
    subst hquote
    decide

/-- **No operator is on the surface** of a definition without bounds that is not that of a union. -/
theorem ne_of_mem_surface {top : Shape.Place} {shape : Shape} {text : String}
    (hbounds : Everywhere (fun _ => Shape.NumericBounds) top shape)
    (h : shape.definition? = some text) (hunion : shape.isUnion = false) (hfree : ¬ shape.Bounded) :
    ∀ c ∈ surface text, c ≠ '|' ∧ c ≠ '=' := by
  induction shape generalizing top text with
  | string minLength maxLength pattern =>
    simp only [Shape.Bounded, not_or, Bool.not_eq_false] at hfree
    have htext : textDefinition minLength maxLength = "string" := by
      rw [textDefinition, hfree.1, hfree.2]
    rw [Shape.definition?, htext] at h
    split at h
    · cases h
      exact fun c => ne_of_mem_numeral (by decide)
    · cases h
  | number minimum maximum =>
    rcases definition?_number_eq_some_iff.mp h with ⟨-, rfl⟩ | ⟨hnull, -⟩
    · exact fun c => ne_of_mem_numeral (by decide)
    · exact absurd hnull hfree
  | boolean =>
    cases h
    exact fun c => ne_of_mem_numeral (by decide)
  | literal value => exact fun c => ne_of_mem_literal (literal_of_definition? h)
  | object properties => cases h
  | array items ih =>
    obtain ⟨item, hitem, rfl⟩ := definition?_array_eq_some_iff.mp h
    have hitems := (everywhere_array.mp hbounds).2
    have hclosed : AlikeCode true item item := alikeCode_definition? hitems hitem
    have hbrackets : ∀ c ∈ surface "[]", c ≠ '|' ∧ c ≠ '=' := by
      rw [show surface "[]" = ['[', ']'] from rfl]
      simp
    cases hkind : items.isUnion with
    | true =>
      rw [if_pos rfl, Script.surface_append hclosed.parenthesised.isClosed]
      refine List.forall_mem_append.mpr ⟨fun c hc => ?_, hbrackets⟩
      rcases Script.isParen_of_mem_surface hclosed.isClosed hc with rfl | rfl <;> decide
    | false =>
      rw [if_neg Bool.false_ne_true, Script.surface_append hclosed.isClosed]
      exact List.forall_mem_append.mpr ⟨ih hitems hitem hkind hfree, hbrackets⟩
  | union members ih => cases hunion
  | optional inner default hasDefault => cases h
  | foreign value => cases h

theorem isLoose_textDefinition {minLength maxLength : Json} (hmin : minLength.IsNullOrNumber)
    (h : minLength.isNull = false ∨ maxLength.isNull = false) :
    IsLoose (textDefinition minLength maxLength) := by
  have hlower : IsLoose "string >= " := ⟨by decide, 's', rfl, by decide⟩
  have hupper : IsLoose "string <= " := ⟨by decide, 's', rfl, by decide⟩
  have hclosed : AlikeCode true minLength.display minLength.display := alikeCode_display hmin
  have hboth : IsLoose (minLength.display ++ " <= string <= ") := by
    refine ⟨.append_left hclosed.isClosed (by decide), ?_⟩
    rw [String.toList_append]
    cases hdisplay : minLength.display.toList with
    | nil => exact ⟨' ', rfl, by decide⟩
    | cons c rest =>
      refine ⟨c, rfl, ?_⟩
      rintro rfl
      have hnumeral := Script.isNumeralText_display hmin '(' (by rw [hdisplay]; exact List.mem_cons_self)
      cases hnumeral
  unfold textDefinition
  split
  · next hnone hnone' =>
    rw [hnone, hnone'] at h
    rcases h with h | h <;> cases h
  · exact hlower.append_right (by decide) _
  · exact hupper.append_right (by decide) _
  · have halike : AlikeCode true (minLength.display ++ " <= string <= ")
        (minLength.display ++ " <= string <= ") := hclosed.append (.same (by decide))
    exact hboth.append_right halike.isClosed _

/-- **A comparison is on the surface** of a definition with bounds, and nothing encloses it. -/
theorem isLoose_of_bounded {top : Shape.Place} {shape : Shape} {text : String}
    (hbounds : Everywhere (fun _ => Shape.NumericBounds) top shape)
    (h : shape.definition? = some text) (hbounded : shape.Bounded) : IsLoose text := by
  induction shape generalizing top text with
  | string minLength maxLength pattern =>
    rw [Shape.definition?] at h
    split at h
    · cases h
      exact isLoose_textDefinition (everywhere_string.mp hbounds).1 hbounded
    · cases h
  | number minimum maximum =>
    rcases definition?_number_eq_some_iff.mp h with ⟨hnull, -⟩ | ⟨-, bound, -, rfl⟩
    · rw [Shape.Bounded, hnull] at hbounded
      cases hbounded
    · have hlower : IsLoose "number >= " := ⟨by decide, 'n', rfl, by decide⟩
      exact hlower.append_right (by decide) _
  | array items ih =>
    obtain ⟨item, hitem, rfl⟩ := definition?_array_eq_some_iff.mp h
    have hitems := (everywhere_array.mp hbounds).2
    -- A union would be no bounded shape, so there are no parentheses.
    have hkind : items.isUnion = false := by
      cases items with
      | union members => exact hbounded.elim
      | _ => rfl
    rw [hkind, if_neg Bool.false_ne_true]
    exact (ih hitems hitem hbounded).append_right (alikeCode_definition? hitems hitem).isClosed _
  | _ => exact hbounded.elim

/-! ## Lists -/

/-- **What the brackets of a list apply to.** In the definition of a list, what stands in front of the
brackets has no operator on the surface or is enclosed as a whole, except for lists of items that are
bounded: ArkType parenthesises unions and nothing else. -/
theorem parenthesised_iff {items : Shape} {path : Path} {depth : Nat} {code text : String}
    (hbounds : Everywhere (fun _ => Shape.NumericBounds) .root (.array items))
    (hcode : (render .arkType i (.array items) path depth).outcome = .ok code)
    (htext : Script.definition? code = some text) :
    ∃ front, text = front ++ "[]" ∧
      ((¬ HasOperator front ∨ IsEnclosed front) ↔ ¬ items.Bounded) := by
  have htold : Told (.array items) code := gives_told (.array items) path depth code hcode
  have hdefinition : (Shape.array items).definition? = some text :=
    htold.definition?_eq.symm.trans htext
  obtain ⟨item, hitem, rfl⟩ := definition?_array_eq_some_iff.mp hdefinition
  have hitems := (everywhere_array.mp hbounds).2
  have hclosed : AlikeCode true item item := alikeCode_definition? hitems hitem
  refine ⟨_, rfl, ?_⟩
  cases hkind : items.isUnion with
  | true =>
    have hfree : ¬ items.Bounded := by
      cases items with
      | union members => exact id
      | _ => cases hkind
    rw [if_pos rfl]
    exact iff_of_true (Or.inr ⟨item, rfl, hclosed.isClosed⟩) hfree
  | false =>
    rw [if_neg Bool.false_ne_true]
    by_cases hbounded : items.Bounded
    · have hloose : IsLoose item := isLoose_of_bounded hitems hitem hbounded
      exact iff_of_false (not_or_intro (not_not_intro hloose.1) hloose.not_isEnclosed)
        (not_not_intro hbounded)
    · have hnone := Script.not_hasOperator (ne_of_mem_surface hitems hitem hkind hbounded)
      exact iff_of_true (Or.inl hnone) hbounded

/-- Items that are a union, of which one member is bounded. -/
theorem parenthesised_of_union :
    let items : Shape := .union [.literal (.str "a | b"), .number (.int 1) .null]
    (Everywhere (fun _ => Shape.NumericBounds) .root (.array items)) ∧
      ∃ code text, (render .arkType (.unit " ") (.array items) .root 0).outcome = .ok code ∧
        Script.definition? code = some text ∧
        ∃ front, text = front ++ "[]" ∧ (¬ HasOperator front ∨ IsEnclosed front) := by
  intro items
  have hbounds : Everywhere (fun _ => Shape.NumericBounds) .root (.array items) := by
    simp [items, Shape.NumericBounds, Json.IsNullOrNumber]
  have hcode : (render .arkType (.unit " ") (.array items) .root 0).outcome
      = .ok (Script.doubleQuoted "('a | b' | number >= 1)[]") := rfl
  obtain ⟨front, hfront, hiff⟩ :=
    parenthesised_iff hbounds hcode (Script.definition?_doubleQuoted _)
  exact ⟨hbounds, _, _, hcode, Script.definition?_doubleQuoted _, front, hfront, hiff.mpr id⟩

/-- **A list whose brackets apply to a bound**: one of texts that are not empty. -/
theorem brackets_of_bounded_items :
    (render .arkType (.unit " ") (.array (.string (.int 1) .null .null)) .root 0).outcome
        = .ok (Script.doubleQuoted ("string >= 1" ++ "[]")) ∧
      Script.definition? (Script.doubleQuoted ("string >= 1" ++ "[]"))
        = some ("string >= 1" ++ "[]") ∧
      HasOperator "string >= 1" ∧ ¬ IsEnclosed "string >= 1" := by
  have hloose : IsLoose "string >= 1" := ⟨by decide, 's', rfl, by decide⟩
  exact ⟨rfl, Script.definition?_doubleQuoted _, hloose.1, hloose.not_isEnclosed⟩

end Expression

end SchemaForge
