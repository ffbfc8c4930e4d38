import SchemaForge.Proofs.Expression.Tree
import SchemaForge.Proofs.Script.Scalar

/-!
# `SchemaForge.Proofs.Expression.Printing` — expressions are the texts of trees

The writers put texts together where `tree` puts terms together. Each lemma below takes one of the
ways to put texts together and says that it prints the term that is put together in the same way; so
whenever an expression comes out, it is the text of the tree.

## Contents
- **Pieces.** `text` is the text of a term. `call_text`, `attached_text`, `layout_text` and so on.
- **Printing.** `PrintsTree` and `PrintsLine` for shapes and lines of properties, and
  `text_of_renderShape`.
-/

namespace SchemaForge.Expression

open Script (Term Braces)

/-! ## Pieces -/

section

variable (unit : String) (depth : Nat)

/-- What stands in front of a line at some depth. -/
def indentation (level : Nat) : List Char := (repeated unit level).toList

/-- The text of a term at some depth. -/
def text (t : Term) : String := String.ofList (t.print (indentation unit) depth)

/-- Demands with the texts of their arguments. -/
def shown (demands : DemandTerms) : Demands :=
  demands.map fun demand => (demand.1, text unit depth demand.2)

end

variable {unit : String} {depth : Nat}

theorem toList_text (t : Term) :
    (text unit depth t).toList = t.print (indentation unit) depth := String.toList_ofList

/-- The texts of terms, separated. -/
theorem toList_intercalate_text (terms : List Term) :
    (", ".intercalate (terms.map (text unit depth))).toList
      = [',', ' '].intercalate (Term.printAll (indentation unit) depth terms) := by
  have htexts : (terms.map (text unit depth)).map String.toList
      = Term.printAll (indentation unit) depth terms := by
    rw [Term.printAll_eq_map, List.map_map]
    exact List.map_congr_left fun t _ => toList_text t
  rw [String.toList_intercalate, htexts]
  rfl

theorem bracketed_text (terms : List Term) :
    bracketed (terms.map (text unit depth)) = text unit depth (.list terms) := by
  apply String.toList_inj.mp
  rw [bracketed, String.toList_append, String.toList_append, toList_intercalate_text, toList_text,
    Term.print]
  rfl

theorem call_text (function : String) (arguments : List Term) :
    call function (arguments.map (text unit depth))
      = text unit depth (.call function arguments []) := by
  apply String.toList_inj.mp
  rw [call, String.toList_append, String.toList_append, String.toList_append,
    toList_intercalate_text, toList_text, Term.print, Term.printMethods, List.append_assoc,
    List.append_assoc]
  rfl

theorem printMethods_append (indent : Nat → List Char)
    (methods others : List (String × List Term)) :
    Term.printMethods indent depth (methods ++ others)
      = Term.printMethods indent depth methods ++ Term.printMethods indent depth others := by
  induction methods with
  | nil => rfl
  | cons method rest ih =>
    obtain ⟨name, arguments⟩ := method
    simp only [List.cons_append, Term.printMethods, ih, List.append_assoc]

/-- Behind a call stands the call that is chained to it. -/
theorem chain_text (method function : String) (arguments others : List Term)
    (methods : List (String × List Term)) :
    text unit depth (.call function others methods) ++ call method (arguments.map (text unit depth))
      = text unit depth (chain method arguments (.call function others methods)) := by
  apply String.toList_inj.mp
  rw [call_text, String.toList_append, toList_text, toList_text, toList_text, chain]
  simp only [Term.print, printMethods_append, Term.printMethods, List.append_assoc,
    List.cons_append]

theorem chained_text (demands : DemandTerms) (function : String) (others : List Term)
    (methods : List (String × List Term)) :
    chained (text unit depth (.call function others methods)) (shown unit depth demands)
      = text unit depth (.call function others
          (methods ++ demands.map fun demand => ("." ++ demand.1.zodName, [demand.2]))) := by
  induction demands generalizing methods with
  | nil => rw [List.map_nil, List.append_nil, shown, List.map_nil, chained]
  | cons demand rest ih =>
    have hfirst := @chain_text unit depth ("." ++ demand.1.zodName) function [demand.2] others
      methods
    rw [List.map_singleton] at hfirst
    show chained (text unit depth (.call function others methods) ++
      call ("." ++ demand.1.zodName) [text unit depth demand.2]) (shown unit depth rest) = _
    rw [hfirst, chain, ih, List.map_cons, List.append_assoc, List.singleton_append]

theorem wrapped_text (demands : DemandTerms) (base : Term) :
    wrapped (text unit depth base) (shown unit depth demands)
      = text unit depth (demands.foldl wrap base) := by
  induction demands generalizing base with
  | nil => rw [List.foldl_nil, shown, List.map_nil, wrapped]
  | cons demand rest ih =>
    have hfirst := @call_text unit depth ("z." ++ demand.1.zodName) [base, demand.2]
    rw [List.foldl_cons, ← ih, wrap, ← hfirst]
    rfl

/-- Fields with labels, on one line. -/
theorem labelled_text (fields : List (String × Term)) :
    "\x7b " ++ ", ".intercalate (fields.map fun field => field.1 ++ text unit depth field.2)
        ++ " \x7d"
      = text unit depth (.braces .options fields) := by
  have hfields : (fields.map fun field => field.1 ++ text unit depth field.2).map String.toList
      = Term.printFields (indentation unit) .options depth fields := by
    rw [Term.printFields_eq_map, List.map_map]
    apply List.map_congr_left
    intro field _
    show (field.1 ++ text unit depth field.2).toList = _
    rw [String.toList_append, toList_text]
    rfl
  apply String.toList_inj.mp
  rw [String.toList_append, String.toList_append, String.toList_intercalate, hfields, toList_text,
    Term.print, List.append_assoc]
  rfl

theorem options_text (demands : DemandTerms) :
    options (shown unit depth demands) = (optionTerms demands).map (text unit depth) := by
  cases demands with
  | nil => rfl
  | cons demand rest =>
    rw [optionTerms, List.map_singleton, ← labelled_text, List.map_map]
    · show ["\x7b " ++ ", ".intercalate ((shown unit depth (demand :: rest)).map
          fun d => d.1.keyword ++ ": " ++ d.2) ++ " \x7d"] = _
      rw [shown, List.map_map]
      rfl
    · exact List.cons_ne_nil demand rest

theorem piped_text (demands : DemandTerms) (function : String) :
    piped (text unit depth (.call function [] [])) (shown unit depth demands)
      = text unit depth (attach .valibot function demands) := by
  cases demands with
  | nil => rfl
  | cons demand rest =>
    have hactions : (shown unit depth (demand :: rest)).map
          (fun d => call ("v." ++ d.1.valibotName) [d.2])
        = ((demand :: rest).map fun d => Term.call ("v." ++ d.1.valibotName) [d.2] []).map
          (text unit depth) := by
      rw [shown, List.map_map, List.map_map]
      exact List.map_congr_left fun d _ => call_text _ [d.2]
    show call "v.pipe" (text unit depth (.call function [] []) ::
      (shown unit depth (demand :: rest)).map fun d => call ("v." ++ d.1.valibotName) [d.2]) = _
    rw [hactions, ← List.map_cons, call_text]
    rfl

/-! ### Maps -/

/-- What stands in front of every item may as well be part of what separates them. -/
theorem intercalate_map_append (sep front : List Char) {items : List (List Char)}
    (h : items ≠ []) :
    sep.intercalate (items.map (front ++ ·)) = front ++ (sep ++ front).intercalate items := by
  induction items with
  | nil => exact absurd rfl h
  | cons item rest ih =>
    cases rest with
    | nil => simp
    | cons next rest =>
      have hrest := ih (List.cons_ne_nil next rest)
      rw [List.map_cons, List.map_cons, List.intercalate_cons_cons, ← List.map_cons, hrest,
        List.intercalate_cons_cons]
      simp only [List.append_assoc]

/-- The line of a field with a quoted key. -/
def fieldLine (unit : String) (depth : Nat) (field : String × Term) : String :=
  repeated unit (depth + 1) ++ Script.doubleQuoted field.1 ++ ": " ++ text unit (depth + 1) field.2

theorem toList_fieldLine (field : String × Term) :
    (fieldLine unit depth field).toList
      = indentation unit (depth + 1) ++ Term.printField (indentation unit) .lines depth field := by
  rw [fieldLine, String.toList_append, String.toList_append, String.toList_append, toList_text,
    Term.printField, Braces.label]
  simp only [List.append_assoc]
  rfl

/-- A map encloses the lines of its fields. -/
theorem layout_text {fields : List (String × Term)} {map : String}
    (h : (layout (.unit unit) depth (fields.map (fieldLine unit depth))).outcome = .ok map) :
    map = text unit depth (mapTerm fields) := by
  apply String.toList_inj.mp
  rw [toList_text]
  cases fields with
  | nil =>
    cases h
    rfl
  | cons field rest =>
    have hlines : ((field :: rest).map (fieldLine unit depth)).map String.toList
        = (Term.printFields (indentation unit) .lines depth (field :: rest)).map
          (indentation unit (depth + 1) ++ ·) := by
      rw [Term.printFields_eq_map, List.map_map, List.map_map]
      exact List.map_congr_left fun other _ => toList_fieldLine other
    cases h
    rw [mapTerm, Term.print, String.toList_append, String.toList_append, String.toList_append,
      String.toList_append, String.toList_intercalate, hlines, intercalate_map_append]
    · simp only [List.append_assoc]
      rfl
    · rw [Term.printFields_eq_map]
      exact List.cons_ne_nil _ _
    · exact List.cons_ne_nil field rest

/-! ### Scalars -/

theorem text_word (word : String) : text unit depth (.word word) = word := String.ofList_toList

theorem text_ofJson (value : Json) : text unit depth (.ofJson value) = value.write := by
  rw [text, Term.print_ofJson, Json.write]

theorem text_defaultTerm (default : Default) :
    text unit depth (defaultTerm default) = default.write := by
  cases default with
  | json value => exact text_ofJson value
  | surrogates points => exact text_word _
  | tuple values => exact text_ofJson (.arr values)

/-- A regular expression literal is the text of its tree. -/
theorem patternLiteral_text {d : Dialect} (hd : d ≠ .typeBox) {pattern : Json} {argument : String}
    (h : (patternLiteral pattern).outcome = .ok argument) :
    argument = text unit depth (patternTerm d pattern) := by
  cases pattern with
  | str pattern =>
    cases h
    have hterm : patternTerm d (.str pattern) = .regex pattern := by
      cases d with
      | typeBox => exact absurd rfl hd
      | _ => rfl
    rw [hterm]
    exact String.ofList_toList.symm
  | _ => cases h

theorem lengthDemands_text (minLength maxLength : Json) :
    lengthDemands minLength maxLength = shown unit depth
      ((if minLength.isNull then [] else [(.minLength, .word minLength.display)]) ++
        (if maxLength.isNull then [] else [(.maxLength, .word maxLength.display)])) := by
  by_cases hmin : minLength.isNull
  · by_cases hmax : maxLength.isNull
    · simp [lengthDemands, shown, hmin, hmax]
    · simp [lengthDemands, shown, text_word, hmin, hmax]
  · by_cases hmax : maxLength.isNull
    · simp [lengthDemands, shown, text_word, hmin, hmax]
    · simp [lengthDemands, shown, text_word, hmin, hmax]

theorem textDemands_text {d : Dialect} {minLength maxLength pattern : Json} {demands : Demands}
    (h : (textDemands d minLength maxLength pattern).outcome = .ok demands) :
    demands = shown unit depth (textTerms d minLength maxLength pattern) := by
  by_cases hvacant : pattern.isVacant
  · rw [textDemands, if_pos hvacant] at h
    cases h
    rw [textTerms, if_pos hvacant, List.append_nil, lengthDemands_text]
  · have hpattern : demands = lengthDemands minLength maxLength
        ++ [(.pattern, text unit depth (patternTerm d pattern))] := by
      rw [textDemands, if_neg hvacant] at h
      by_cases hd : d = .typeBox
      · subst hd
        cases h
        rw [patternTerm, text_ofJson]
      · rw [if_neg hd] at h
        obtain ⟨argument, hargument, h⟩ := Emission.outcome_bind_eq_ok_iff.mp h
        cases h
        rw [patternLiteral_text hd hargument]
    rw [hpattern, textTerms, if_neg hvacant, ← List.append_assoc, shown, List.map_append,
      lengthDemands_text]
    rfl

theorem boundDemand_text {d : Dialect} {demand : Demand} {bound : Json} {path : Path}
    {demands : Demands} (h : (boundDemand d demand bound path).outcome = .ok demands) :
    demands = shown unit depth
      (if bound.isNull then [] else [(demand, .word (numeral bound))]) := by
  unfold boundDemand at h
  split at h
  · next hnull =>
    cases h
    rw [if_pos hnull]
    rfl
  · next hsays =>
    obtain ⟨argument, hargument, h⟩ := Emission.outcome_bind_eq_ok_iff.mp h
    cases h
    have hnumeral : numeral bound = argument := by
      rw [numeral, Emission.outcome_orRefuse_eq_ok_iff.mp hargument]
      rfl
    rw [if_neg hsays, hnumeral, shown, List.map_singleton, text_word]

theorem numberDemands_text {d : Dialect} {minimum maximum : Json} {path : Path}
    {demands : Demands} (h : (numberDemands d minimum maximum path).outcome = .ok demands) :
    demands = shown unit depth (numberTerms minimum maximum) := by
  obtain ⟨lower, hlower, h⟩ := Emission.outcome_bind_eq_ok_iff.mp h
  obtain ⟨upper, hupper, h⟩ := Emission.outcome_bind_eq_ok_iff.mp h
  cases h
  rw [boundDemand_text hlower, boundDemand_text hupper, numberTerms, shown, shown, shown,
    List.map_append]

/-- Demands attached to a function, in the dialects that call one. -/
def attached (d : Dialect) (function : String) (demands : Demands) : String :=
  match d with
  | .zod => chained (call function []) demands
  | .zodMini => wrapped (call function []) demands
  | .valibot => piped (call function []) demands
  | .typeBox => call function (options demands)
  | .arkType => call function []

theorem attached_text (d : Dialect) (function : String) (demands : DemandTerms) :
    attached d function (shown unit depth demands)
      = text unit depth (attach d function demands) := by
  have hbase : call function [] = text unit depth (.call function [] []) := call_text function []
  cases d with
  | zod =>
    rw [attached, hbase]
    exact chained_text demands function [] []
  | zodMini =>
    rw [attached, hbase]
    exact wrapped_text demands (.call function [] [])
  | valibot =>
    rw [attached, hbase]
    exact piped_text demands function
  | typeBox =>
    rw [attached, options_text]
    exact call_text function (optionTerms demands)
  | arkType => exact hbase

theorem textType_text {d : Dialect} (hd : d ≠ .arkType) {minLength maxLength pattern : Json}
    {path : Path} {code : String}
    (h : (textType d minLength maxLength pattern path).outcome = .ok code) :
    code = text unit depth (tree d (.string minLength maxLength pattern)) := by
  have hattached : textType d minLength maxLength pattern path = do
      return attached d (Kind.string.function d) (← textDemands d minLength maxLength pattern) := by
    cases d with
    | arkType => exact absurd rfl hd
    | _ => rfl
  rw [hattached] at h
  obtain ⟨demands, hdemands, h⟩ := Emission.outcome_bind_eq_ok_iff.mp h
  cases h
  rw [textDemands_text hdemands]
  exact attached_text d _ _

theorem numberType_text {d : Dialect} (hd : d ≠ .arkType) {minimum maximum : Json}
    {path : Path} {code : String}
    (h : (numberType d minimum maximum path).outcome = .ok code) :
    code = text unit depth (tree d (.number minimum maximum)) := by
  have hattached : numberType d minimum maximum path = do
      return attached d (Kind.number.function d) (← numberDemands d minimum maximum path) := by
    cases d with
    | arkType => exact absurd rfl hd
    | _ => rfl
  rw [hattached] at h
  obtain ⟨demands, hdemands, h⟩ := Emission.outcome_bind_eq_ok_iff.mp h
  cases h
  rw [numberDemands_text hdemands]
  exact attached_text d _ _

theorem literal_text {value : Json} {code : String} (h : Script.literal value = .ok code) :
    code = text unit depth (literalTerm value) := by
  cases value with
  | str string =>
    cases h
    exact String.ofList_toList.symm
  | bool b =>
    cases h
    rw [literalTerm, text_word]
    rfl
  | int n =>
    cases h
    rw [literalTerm, text_word]
    · rfl
    · exact nofun
    · exact nofun
  | float x =>
    have hnumber : Script.number (.float x) = .ok code := h
    rw [literalTerm, text_word, numeral, hnumber]
    · rfl
    · exact nofun
    · exact nofun
  | _ => cases h

theorem literals_text {values : List Json} {codes : List String}
    (h : values.mapM Script.literal = .ok codes) :
    codes = (values.map literalTerm).map (text unit depth) := by
  have hliterals := Script.forall₂_of_mapM_literal h
  clear h
  induction hliterals with
  | nil => rfl
  | cons hvalue _ ih => rw [List.map_cons, List.map_cons, ← ih, ← literal_text hvalue]

/-! ### Compounds -/

theorem literalType_text {d : Dialect} (hd : d ≠ .arkType) (literal : Term) :
    literalType d (text unit depth literal)
      = text unit depth (.call (Kind.literal.function d) [literal] []) := by
  have hcall := @call_text unit depth (Kind.literal.function d) [literal]
  cases d with
  | arkType => exact absurd rfl hd
  | _ => exact hcall

theorem unionType_text {d : Dialect} (hd : d ≠ .arkType) (members : List Term) :
    unionType d (members.map (text unit depth)) = text unit depth (unionTerm d members) := by
  have hcall := @call_text unit depth (Kind.union.function d) [.list members]
  rw [List.map_singleton, ← bracketed_text] at hcall
  cases d with
  | arkType => exact absurd rfl hd
  | _ => exact hcall

theorem enumerationType_text {d : Dialect} (hd : d ≠ .arkType) (kind : LiteralKind)
    (literals : List Term) :
    enumerationType d kind (literals.map (text unit depth))
      = text unit depth (enumerationTerm d kind literals) := by
  have hset (function : String) : call function [bracketed (literals.map (text unit depth))]
      = text unit depth (.call function [.list literals] []) := by
    rw [bracketed_text, ← call_text]
    rfl
  have hunion : unionType d ((literals.map (text unit depth)).map (literalType d))
      = text unit depth (unionTerm d
          (literals.map fun literal => .call (Kind.literal.function d) [literal] [])) := by
    rw [← unionType_text hd, List.map_map, List.map_map]
    exact congrArg _ (List.map_congr_left fun literal _ => literalType_text hd literal)
  cases d with
  | arkType => exact absurd rfl hd
  | typeBox => exact hunion
  | valibot =>
    cases kind with
    | boolean => exact hunion
    | _ => exact hset _
  | zod => cases kind <;> exact hset _
  | zodMini => cases kind <;> exact hset _

/-! ### Properties -/

theorem optionalEntry_text {d : Dialect} (hd : d ≠ .arkType) {name : String} {value : Term}
    (hvalue : IsCall value) {default? : Option Default} {path : Path} {entry : Entry}
    (h : (optionalEntry d name (text unit depth value) default? path).outcome = .ok entry) :
    entry = { key := name, code := text unit depth (optionalTerm d default? value) } := by
  have hcall (function : String) (arguments : List Term) :
      call function (arguments.map (text unit depth))
        = text unit depth (.call function arguments []) := call_text function arguments
  cases d with
  | arkType => exact absurd rfl hd
  | zod =>
    obtain ⟨function, others, methods, rfl⟩ := hvalue
    cases default? with
    | none =>
      cases h
      exact congrArg _ (chain_text ".optional" function [] others methods)
    | some default =>
      cases h
      have hchain := @chain_text unit depth ".default" function [defaultTerm default] others methods
      rw [List.map_singleton, text_defaultTerm] at hchain
      exact congrArg _ hchain
  | zodMini =>
    cases default? with
    | none =>
      cases h
      exact congrArg _ (hcall "z.optional" [value])
    | some default =>
      cases h
      have hentry := hcall "z._default" [value, defaultTerm default]
      rw [List.map_cons, List.map_singleton, text_defaultTerm] at hentry
      exact congrArg _ hentry
  | valibot =>
    cases default? with
    | none =>
      cases h
      exact congrArg _ (hcall "v.optional" [value])
    | some default =>
      cases h
      have hentry := hcall "v.optional" [value, defaultTerm default]
      rw [List.map_cons, List.map_singleton, text_defaultTerm] at hentry
      exact congrArg _ hentry
  | typeBox =>
    cases default? with
    | none =>
      cases h
      exact congrArg _ (hcall "Type.Optional" [value])
    | some default =>
      cases h
      have hextended : "\x7b ..." ++ text unit depth value ++ ", default: " ++ default.write
            ++ " \x7d"
          = text unit depth
            (.braces .options [("...", value), ("default: ", defaultTerm default)]) := by
        rw [← labelled_text, List.map_cons, List.map_singleton, text_defaultTerm]
        apply String.toList_inj.mp
        simp only [String.toList_append, String.toList_intercalate, List.map_cons, List.map_nil,
          List.intercalate_cons_cons, List.intercalate_singleton, List.append_assoc]
        rfl
      have hentry := hcall "Type.Optional"
        [.braces .options [("...", value), ("default: ", defaultTerm default)]]
      rw [List.map_singleton, ← hextended] at hentry
      exact congrArg _ hentry

/-! ## Printing -/

/-- **Whether what is written of a shape is the text of its tree**, whenever it is written. -/
def PrintsTree (d : Dialect) (unit : String) (shape : Shape) : Prop :=
  ∀ path depth code, (render d (.unit unit) shape path depth).outcome = .ok code →
    code = text unit depth (tree d shape)

/-- Whether the line of a property with that value is the line of a field. -/
def PrintsLine (d : Dialect) (unit : String) (shape : Shape) : Prop :=
  ∀ name path depth code, (renderLine d (.unit unit) name shape path depth).outcome = .ok code →
    code = fieldLine unit depth (name, propertyTree d shape)

variable {d : Dialect}

/-- The line of a property that is not optional. -/
theorem printsLine_plain {shape : Shape} (hshape : ¬ shape.IsOptional)
    (h : PrintsTree d unit shape) : PrintsLine d unit shape := by
  intro name path depth code hcode
  have htree : propertyTree d shape = tree d shape := by
    cases shape with
    | optional => exact absurd trivial hshape
    | _ => rfl
  -- The value is written one level deeper than the line stands.
  rw [renderLine_of_not_isOptional hshape] at hcode
  obtain ⟨value, hvalue, hcode⟩ := Emission.outcome_bind_eq_ok_iff.mp hcode
  cases hcode
  rw [h _ _ _ hvalue, htree]
  rfl

/-- The line of an optional property. -/
theorem printsLine_optional (hd : d ≠ .arkType) {inner : Shape} (default : Default)
    (hasDefault : Json) (h : PrintsTree d unit inner) :
    PrintsLine d unit (.optional inner default hasDefault) := by
  intro name path depth code hcode
  by_cases hinner : inner.IsOptional
  · -- An optional value of an optional value is refused.
    cases inner with
    | optional => cases hcode
    | _ => exact hinner.elim
  · rw [renderLine_optional hinner] at hcode
    obtain ⟨value, hvalue, hcode⟩ := Emission.outcome_bind_eq_ok_iff.mp hcode
    obtain ⟨entry, hentry, hcode⟩ := Emission.outcome_bind_eq_ok_iff.mp hcode
    rw [h _ _ _ hvalue] at hentry
    rw [optionalEntry_text hd (isCall_tree d inner) hentry] at hcode
    cases hcode
    rfl

theorem renderMembers_text {members : List Shape}
    (h : ∀ member ∈ members, PrintsTree d unit member) {path : Path} {depth index : Nat}
    {codes : List String}
    (hcodes : (renderMembers d (.unit unit) members path depth index).outcome = .ok codes) :
    codes = (trees d members).map (text unit depth) := by
  induction members generalizing index codes with
  | nil =>
    cases hcodes
    rfl
  | cons member rest ih =>
    rw [renderMembers] at hcodes
    obtain ⟨first, hfirst, hcodes⟩ := Emission.outcome_bind_eq_ok_iff.mp hcodes
    obtain ⟨others, hothers, hcodes⟩ := Emission.outcome_bind_eq_ok_iff.mp hcodes
    cases hcodes
    rw [h member List.mem_cons_self _ _ _ hfirst,
      ih (fun other hother => h other (List.mem_cons_of_mem _ hother)) hothers]
    rfl

theorem renderLines_text {properties : Fields Shape}
    (h : ∀ property ∈ properties, PrintsLine d unit property.2) {path : Path} {depth : Nat}
    {lines : List String}
    (hlines : (renderLines d (.unit unit) properties path depth).outcome = .ok lines) :
    lines = (propertyTrees d properties).map (fieldLine unit depth) := by
  induction properties generalizing lines with
  | nil =>
    cases hlines
    rfl
  | cons property rest ih =>
    obtain ⟨name, shape⟩ := property
    rw [renderLines_cons] at hlines
    obtain ⟨first, hfirst, hlines⟩ := Emission.outcome_bind_eq_ok_iff.mp hlines
    obtain ⟨others, hothers, hlines⟩ := Emission.outcome_bind_eq_ok_iff.mp hlines
    cases hlines
    have hrest := ih (fun other hother => h other (List.mem_cons_of_mem _ hother)) hothers
    rw [h _ List.mem_cons_self _ _ _ _ hfirst, hrest, propertyTrees_eq_map, propertyTrees_eq_map]
    rfl

theorem objectType_text (hd : d ≠ .arkType) (map : Term) :
    objectType d (text unit depth map)
      = text unit depth (.call (Kind.object.function d) [map] []) := by
  have hcall := @call_text unit depth (Kind.object.function d) [map]
  cases d with
  | arkType => exact absurd rfl hd
  | _ => exact hcall

theorem listType_text (hd : d ≠ .arkType) (isUnion : Bool) (items : Term) :
    listType d isUnion (text unit depth items)
      = text unit depth (.call (Kind.array.function d) [items] []) := by
  have hcall := @call_text unit depth (Kind.array.function d) [items]
  cases d with
  | arkType => exact absurd rfl hd
  | _ => exact hcall

/-- **What is written of a shape is the text of its tree**, and so is the line of a property. -/
theorem printsTree_and_printsLine (hd : d ≠ .arkType) (unit : String) (shape : Shape) :
    PrintsTree d unit shape ∧ PrintsLine d unit shape := by
  have hall : Shape.Everywhere (fun _ _ => True) .root shape := fun _ _ _ => trivial
  refine Shape.Everywhere.induct_properties ?string ?number ?boolean ?literal ?object ?array ?union
    ?optional ?foreign ?plainProperty ?optionalProperty hall
  case string => exact fun minLength maxLength pattern _ path depth code => textType_text hd
  case number => exact fun minimum maximum _ path depth code => numberType_text hd
  case boolean =>
    intro path depth code hcode
    cases hcode
    rw [tree, ← call_text]
    cases d with
    | arkType => exact absurd rfl hd
    | _ => rfl
  case literal =>
    intro value path depth code hcode
    obtain ⟨literal, hliteral, hcode⟩ := Emission.outcome_bind_eq_ok_iff.mp hcode
    cases hcode
    rw [literal_text (Emission.outcome_orRefuse_eq_ok_iff.mp hliteral)]
    exact literalType_text hd (literalTerm value)
  case object =>
    intro properties hproperties path depth code hcode
    rw [render] at hcode
    obtain ⟨lines, hlines, hcode⟩ := Emission.outcome_bind_eq_ok_iff.mp hcode
    obtain ⟨map, hmap, hcode⟩ := Emission.outcome_bind_eq_ok_iff.mp hcode
    cases hcode
    rw [renderLines_text hproperties hlines] at hmap
    rw [layout_text hmap]
    exact objectType_text hd _
  case array =>
    intro items hitems path depth code hcode
    rw [render] at hcode
    obtain ⟨item, hitem, hcode⟩ := Emission.outcome_bind_eq_ok_iff.mp hcode
    cases hcode
    rw [hitems _ _ _ hitem]
    exact listType_text hd items.isUnion _
  case union =>
    intro members hmembers path depth code hcode
    rw [render] at hcode
    rw [tree]
    cases henum : Shape.enumeration? members with
    | some enumeration =>
      -- Only the literals are written, not the members one by one.
      rw [henum] at hcode
      obtain ⟨literals, hliterals, hcode⟩ := Emission.outcome_bind_eq_ok_iff.mp hcode
      cases hcode
      rw [literals_text (Emission.outcome_orRefuse_eq_ok_iff.mp hliterals)]
      exact enumerationType_text hd enumeration.1 _
    | none =>
      rw [henum] at hcode
      obtain ⟨codes, hcodes, hcode⟩ := Emission.outcome_bind_eq_ok_iff.mp hcode
      cases hcode
      rw [renderMembers_text hmembers hcodes]
      exact unionType_text hd _
  case optional =>
    intro inner default hasDefault path depth code hcode
    cases hcode
  case foreign =>
    intro value path depth code hcode
    cases hcode
  case plainProperty => exact fun shape => printsLine_plain
  case optionalProperty => exact fun inner => printsLine_optional hd

/-- What is written of a whole shape is the text of its tree. -/
theorem text_of_renderShape (hd : d ≠ .arkType) {unit code : String} {shape : Shape}
    (h : (renderShape d (.unit unit) shape).outcome = .ok code) :
    code = text unit 0 (tree d shape) :=
  (printsTree_and_printsLine hd unit shape).1 .root 0 code h

end SchemaForge.Expression
