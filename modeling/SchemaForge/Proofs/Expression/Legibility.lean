import SchemaForge.Proofs.Expression.Tree
import SchemaForge.Proofs.Script.Readability

/-!
# `SchemaForge.Proofs.Expression.Legibility` — whose trees are known by their texts

Some values share a text: a number may be given as an integer or as a double, and a regular
expression with a slash that is escaped or not. `Plain` shapes hold none of these. Those of them
that are not refused have legible trees: all names are names, all labels are known, and every word
is that of an integer, a truth value or null.

## Contents
- **Plain shapes.** `Plain`, and `Writable` for those that are not refused.
- **Words and calls.** `legible_ofJson`, `legible_literalTerm`, `legible_call`, `legible_attach`.
- **Trees.** `legible_tree`.
-/

namespace SchemaForge

/-- Whether a value is null or an integer. -/
def Json.IsNullOrInt : Json → Prop
  | .null | .int _ => True
  | .bool _ | .float _ | .str _ | .arr _ | .obj _ => False

/-- Whether a default is a JSON value without doubles. -/
def Default.IsExact : Default → Prop
  | .json value => value.FloatFree
  | .surrogates _ | .tuple _ => False

/-- Whether a value is a text, an integer or a truth value. -/
def Json.IsExact : Json → Prop
  | .str _ | .int _ | .bool _ => True
  | .null | .float _ | .arr _ | .obj _ => False

namespace Expression

open Script (Term Braces IsName)
open Shape (Place Everywhere)

/-! ## Plain shapes -/

/-- **Whether the values in a shape are written in a way of their own**: bounds and literals without
doubles, patterns only where they are JSON values, defaults that are JSON values without doubles, and
null for a default that there is not. -/
def Plain (d : Dialect) : Shape → Prop
  | .string minLength maxLength pattern =>
    minLength.IsNullOrInt ∧ maxLength.IsNullOrInt ∧
      (pattern = .null ∨ d = .typeBox ∧ ∃ text, text ≠ "" ∧ pattern = .str text)
  | .number minimum maximum => minimum.IsNullOrInt ∧ maximum.IsNullOrInt
  | .literal value => value.IsExact
  | .optional _ default hasDefault =>
    hasDefault = .bool true ∧ default.IsExact ∨ hasDefault = .bool false ∧ default = .null
  | .boolean | .object _ | .array _ | .union _ | .foreign _ => True

/-- Whether a plain shape can be written at a place. -/
def Writable (d : Dialect) (place : Place) (shape : Shape) : Prop :=
  Plain d shape ∧ match shape with
    | .optional inner _ _ => place = .property ∧ ¬ inner.IsOptional
    | .foreign _ => False
    | _ => True

variable {d : Dialect}

/-! ## Words and calls -/

theorem isName_integer (n : Int) : IsName (Term.integer n) := by
  refine ⟨?_, List.all_eq_true.mpr fun c hc => ?_⟩
  · rw [Term.integer, String.toList_ofList]
    exact Json.intText_ne_nil n
  · rw [Term.integer, String.toList_ofList] at hc
    rcases Json.isDigit_or_minus_of_mem_intText hc with hdigit | rfl
    · simp [Script.isNameChar, Char.isAlphanum, hdigit]
    · decide

theorem isName_truth (b : Bool) : IsName (Term.truth b) := by
  cases b <;> decide

theorem isName_null : IsName "null" := by decide

theorem legible_ofJson {value : Json} (h : value.FloatFree) : (Term.ofJson value).Legible := by
  induction h with
  | null => exact .word isName_null
  | bool b => exact .word (isName_truth b)
  | int n => exact .word (isName_integer n)
  | str text => exact .ascii text
  | @arr items _ ih =>
    rw [Term.ofJson, Term.ofItems_eq_map]
    exact .list (List.forall_mem_map.mpr ih)
  | @obj members _ ih =>
    rw [Term.ofJson, Term.ofMembers_eq_map]
    exact .braces (Script.Braces.fits_json _) (List.forall_mem_map.mpr ih)

theorem legible_literalTerm {value : Json} (h : value.IsExact) : (literalTerm value).Legible := by
  cases value with
  | str text => exact .single text
  | int n => exact .word (isName_integer n)
  | bool b => exact .word (isName_truth b)
  | _ => exact h.elim

/-- A call of a named function is legible when its arguments are. -/
theorem legible_call {function : String} {arguments : List Term} (hname : IsName function)
    (h : ∀ argument ∈ arguments, argument.Legible) : (Term.call function arguments []).Legible :=
  .call hname h (fun _ h => absurd h List.not_mem_nil) (fun _ h => absurd h List.not_mem_nil)

theorem isName_function (d : Dialect) (kind : Kind) : IsName (kind.function d) := by
  cases d <;> cases kind <;> decide

theorem isName_zodName (demand : Demand) : IsName ("z." ++ demand.zodName) := by
  cases demand <;> decide

theorem isName_dot_zodName (demand : Demand) : IsName ("." ++ demand.zodName) := by
  cases demand <;> decide

theorem isName_valibotName (demand : Demand) : IsName ("v." ++ demand.valibotName) := by
  cases demand <;> decide

theorem mem_optionLabels (demand : Demand) : demand.keyword ++ ": " ∈ Script.optionLabels := by
  cases demand <;> decide

theorem legible_attach {function : String} {demands : DemandTerms} (hname : IsName function)
    (h : ∀ demand ∈ demands, demand.2.Legible) : (attach d function demands).Legible := by
  have hbase : (Term.call function [] []).Legible :=
    legible_call hname fun _ h => absurd h List.not_mem_nil
  cases d with
  | zod =>
    refine .call hname (fun _ h => absurd h List.not_mem_nil) ?_ ?_
    · exact List.forall_mem_map.mpr fun demand _ => isName_dot_zodName demand.1
    · refine List.forall_mem_map.mpr ?_
      intro demand hdemand
      exact List.forall_mem_singleton.mpr (h demand hdemand)
  | zodMini =>
    -- Each call around a legible term is legible.
    have hfold (base : Term) (hbase : base.Legible) : (demands.foldl wrap base).Legible := by
      induction demands generalizing base with
      | nil => exact hbase
      | cons demand rest ih =>
        apply ih (fun other hother => h other (List.mem_cons_of_mem _ hother)) _
        refine legible_call (isName_zodName demand.1) (List.forall_mem_cons.mpr ⟨hbase, ?_⟩)
        exact List.forall_mem_singleton.mpr (h demand List.mem_cons_self)
    exact hfold _ hbase
  | valibot =>
    cases demands with
    | nil => exact hbase
    | cons demand rest =>
      refine legible_call (by decide) (List.forall_mem_cons.mpr ⟨hbase, ?_⟩)
      refine List.forall_mem_map.mpr ?_
      intro other hother
      exact legible_call (isName_valibotName other.1)
        (List.forall_mem_singleton.mpr (h other hother))
  | typeBox =>
    apply legible_call hname
    cases demands with
    | nil => exact fun _ h => absurd h List.not_mem_nil
    | cons demand rest =>
      refine List.forall_mem_singleton.mpr
        (.braces (Script.Braces.fits_options (List.cons_ne_nil _ _) ?_) ?_)
      · exact List.forall_mem_map.mpr fun other _ => mem_optionLabels other.1
      · exact List.forall_mem_map.mpr h
  | arkType => exact hbase

/-- A demand for a bound that is null or an integer is legible. -/
theorem legible_bound {demand : Demand} {bound : Json} {word : Json → String}
    (hword : ∀ n, word (.int n) = Term.integer n) (h : bound.IsNullOrInt) :
    ∀ x ∈ (if bound.isNull then [] else [(demand, Term.word (word bound))] : DemandTerms),
      x.2.Legible := by
  cases bound with
  | null => exact fun _ h => absurd h List.not_mem_nil
  | int n =>
    refine List.forall_mem_singleton.mpr ?_
    rw [hword]
    exact .word (isName_integer n)
  | _ => exact h.elim

theorem legible_textTerms {minLength maxLength pattern : Json}
    (h : Plain d (.string minLength maxLength pattern)) :
    ∀ demand ∈ textTerms d minLength maxLength pattern, demand.2.Legible := by
  obtain ⟨hmin, hmax, hpattern⟩ := h
  refine List.forall_mem_append.mpr ⟨legible_bound (fun _ => rfl) hmin,
    List.forall_mem_append.mpr ⟨legible_bound (fun _ => rfl) hmax, ?_⟩⟩
  rcases hpattern with rfl | ⟨rfl, text, hne, rfl⟩
  · exact fun _ h => absurd h List.not_mem_nil
  · split
    · exact fun _ h => absurd h List.not_mem_nil
    · exact List.forall_mem_singleton.mpr (.ascii text)

theorem legible_numberTerms {minimum maximum : Json} (h : Plain d (.number minimum maximum)) :
    ∀ demand ∈ numberTerms minimum maximum, demand.2.Legible :=
  List.forall_mem_append.mpr ⟨legible_bound (fun _ => rfl) h.1, legible_bound (fun _ => rfl) h.2⟩

theorem legible_mapTerm {fields : List (String × Term)} (h : ∀ field ∈ fields, field.2.Legible) :
    (mapTerm fields).Legible := by
  cases fields with
  | nil => exact .braces (Script.Braces.fits_json _) h
  | cons field rest => exact .braces (Script.Braces.fits_lines (List.cons_ne_nil _ _)) h

theorem legible_enumerationTerm {kind : LiteralKind} {literals : List Term}
    (h : ∀ literal ∈ literals, literal.Legible) : (enumerationTerm d kind literals).Legible := by
  have hset {function : String} (hname : IsName function) :
      (Term.call function [.list literals] []).Legible :=
    legible_call hname (List.forall_mem_singleton.mpr (.list h))
  have hunion : (unionTerm d (literals.map fun literal =>
      .call (Kind.literal.function d) [literal] [])).Legible := by
    refine legible_call (isName_function d .union) (List.forall_mem_singleton.mpr (.list ?_))
    refine List.forall_mem_map.mpr ?_
    intro literal hliteral
    exact legible_call (isName_function d .literal) (List.forall_mem_singleton.mpr
      (h literal hliteral))
  cases d with
  | zod => cases kind <;> exact hset (by decide)
  | zodMini => cases kind <;> exact hset (by decide)
  | valibot =>
    cases kind with
    | boolean => exact hunion
    | _ => exact hset (by decide)
  | typeBox => exact hunion
  | arkType => exact hunion

theorem legible_chain {method : String} {arguments : List Term} {t : Term}
    (hmethod : IsName method) (harguments : ∀ argument ∈ arguments, argument.Legible)
    (h : t.Legible) : (chain method arguments t).Legible := by
  cases h with
  | call hfunction hothers hnames hmethods =>
    refine .call hfunction hothers (List.forall_mem_append.mpr ⟨hnames, ?_⟩)
      (List.forall_mem_append.mpr ⟨hmethods, ?_⟩)
    · exact List.forall_mem_singleton.mpr hmethod
    · exact List.forall_mem_singleton.mpr harguments
  | word hword => exact .word hword
  | single text => exact .single text
  | ascii text => exact .ascii text
  | list hitems => exact .list hitems
  | braces hfits hfields => exact .braces hfits hfields

theorem legible_defaultTerm {default : Default} (h : default.IsExact) :
    (defaultTerm default).Legible := by
  cases default with
  | json value => exact legible_ofJson h
  | _ => exact h.elim

theorem legible_optionalTerm {default? : Option Default} {value : Term}
    (hdefault : ∀ default ∈ default?, default.IsExact) (h : value.Legible) :
    (optionalTerm d default? value).Legible := by
  have hnone : ∀ argument ∈ ([] : List Term), argument.Legible :=
    fun _ h => absurd h List.not_mem_nil
  have hvalue : ∀ argument ∈ [value], argument.Legible := List.forall_mem_singleton.mpr h
  cases default? with
  | none =>
    cases d with
    | zod => exact legible_chain (by decide) hnone h
    | zodMini => exact legible_call (by decide) hvalue
    | valibot => exact legible_call (by decide) hvalue
    | typeBox => exact legible_call (by decide) hvalue
    | arkType => exact h
  | some default =>
    have hjson := legible_defaultTerm (hdefault default rfl)
    have hboth : ∀ argument ∈ [value, defaultTerm default], argument.Legible :=
      List.forall_mem_cons.mpr ⟨h, List.forall_mem_singleton.mpr hjson⟩
    cases d with
    | zod =>
      exact legible_chain (by decide) (List.forall_mem_singleton.mpr hjson) h
    | zodMini => exact legible_call (by decide) hboth
    | valibot => exact legible_call (by decide) hboth
    | typeBox =>
      -- The options object spreads the value and adds the default.
      refine legible_call (by decide) (List.forall_mem_singleton.mpr ?_)
      have hspread : "..." ∈ Script.optionLabels := by decide
      have hlabel : "default: " ∈ Script.optionLabels := by decide
      refine .braces (Script.Braces.fits_options (List.cons_ne_nil _ _) ?_) ?_
      · exact List.forall_mem_cons.mpr ⟨hspread, List.forall_mem_singleton.mpr hlabel⟩
      · exact List.forall_mem_cons.mpr ⟨h, List.forall_mem_singleton.mpr hjson⟩
    | arkType => exact h

/-! ## Trees -/

/-- The default of a plain shape, if it is shown, is a JSON value without doubles. -/
theorem isExact_shownDefault {inner : Shape} {default : Default} {hasDefault : Json}
    (h : Plain d (.optional inner default hasDefault)) :
    ∀ value ∈ shownDefault default hasDefault, value.IsExact := by
  rcases h with ⟨rfl, hdefault⟩ | ⟨rfl, rfl⟩
  · intro value hvalue
    cases hvalue
    exact hdefault
  · intro value hvalue
    cases hvalue

/-- **The tree of a shape that can be written is legible**, and so is that of a property. -/
theorem legible_tree {top : Place} {shape : Shape} (h : Everywhere (Writable d) top shape) :
    (tree d shape).Legible ∧ (propertyTree d shape).Legible := by
  induction shape generalizing top with
  | string minLength maxLength pattern =>
    have htree : (tree d (.string minLength maxLength pattern)).Legible :=
      legible_attach (isName_function d .string)
        (legible_textTerms (Shape.everywhere_string.mp h).1)
    exact ⟨htree, htree⟩
  | number minimum maximum =>
    have htree : (tree d (.number minimum maximum)).Legible :=
      legible_attach (isName_function d .number)
        (legible_numberTerms (Shape.everywhere_number.mp h).1)
    exact ⟨htree, htree⟩
  | boolean =>
    have htree : (tree d .boolean).Legible :=
      legible_call (isName_function d .boolean) fun _ h => absurd h List.not_mem_nil
    exact ⟨htree, htree⟩
  | literal value =>
    have hvalue : value.IsExact := (Shape.everywhere_literal.mp h).1
    have htree : (tree d (.literal value)).Legible := legible_call (isName_function d .literal)
      (List.forall_mem_singleton.mpr (legible_literalTerm hvalue))
    exact ⟨htree, htree⟩
  | object properties ih =>
    have hfields : ∀ field ∈ propertyTrees d properties, field.2.Legible := by
      rw [propertyTrees_eq_map]
      exact List.forall_mem_map.mpr fun property hproperty =>
        (ih property hproperty ((Shape.everywhere_object.mp h).2 property hproperty)).2
    have htree : (tree d (.object properties)).Legible := legible_call (isName_function d .object)
      (List.forall_mem_singleton.mpr (legible_mapTerm hfields))
    exact ⟨htree, htree⟩
  | array items ih =>
    have hitems := (ih (Shape.everywhere_array.mp h).2).1
    have htree : (tree d (.array items)).Legible :=
      legible_call (isName_function d .array) (List.forall_mem_singleton.mpr hitems)
    exact ⟨htree, htree⟩
  | union members ih =>
    have hmembers := (Shape.everywhere_union.mp h).2
    have htree : (tree d (.union members)).Legible := by
      rw [tree]
      cases henum : Shape.enumeration? members with
      | some enumeration =>
        refine legible_enumerationTerm (List.forall_mem_map.mpr ?_)
        intro value hvalue
        -- The values of an enumeration are those of literals among the members.
        have hmember : Shape.literal value ∈ members := by
          rw [Shape.eq_map_of_enumeration? henum]
          exact List.mem_map_of_mem hvalue
        exact legible_literalTerm (Shape.everywhere_literal.mp (hmembers _ hmember)).1
      | none =>
        refine legible_call (isName_function d .union) (List.forall_mem_singleton.mpr (.list ?_))
        rw [trees_eq_map]
        exact List.forall_mem_map.mpr fun member hmember =>
          (ih member hmember (hmembers member hmember)).1
    exact ⟨htree, htree⟩
  | optional inner default hasDefault ih =>
    have hinner := (ih (Shape.everywhere_optional.mp h).2).1
    have hplain := (Shape.everywhere_optional.mp h).1.1
    exact ⟨hinner, legible_optionalTerm (isExact_shownDefault hplain) hinner⟩
  | foreign value => exact (Shape.everywhere_foreign.mp h).2.elim

end Expression

end SchemaForge
