import SchemaForge.Proofs.Expression.Tree

/-!
# `SchemaForge.Proofs.Expression.Kinds` — the kind of schema that a tree makes

The name of the function tells it, once the calls around it are taken off. Only a list as the single
argument needs a look, since Zod writes sets of literals with the function for a single one. What
makes a schema optional has no kind of its own, so that no other tree is taken for it.

## Contents
- **Kinds.** `kind?` of a shape, `kindOf` of a tree.
- **Calls.** `kindOf_call`, `kindOf_wrapper`, `kindOf_attach`.
- **Trees.** `kindOf_tree` says that the two agree; `kindOf_optionalTerm`.
-/

namespace SchemaForge.Expression

open Script (Term)

variable {d : Dialect}

/-! ## Kinds -/

/-- The kind of schema that a shape makes. An optional value makes that of what is optional. -/
def kind? : Shape → Option Kind
  | .string .. => some .string
  | .number .. => some .number
  | .boolean => some .boolean
  | .literal _ => some .literal
  | .object _ => some .object
  | .array _ => some .array
  | .union _ => some .union
  | .optional inner _ _ => kind? inner
  | .foreign _ => none

/-- The kind of schema that a function makes, if it makes one of its own. -/
def functionKind? (function : String) : Option Kind :=
  if function ∈ ["z.string", "v.string", "Type.String"] then some .string
  else if function ∈ ["z.number", "v.number", "Type.Number"] then some .number
  else if function ∈ ["z.boolean", "v.boolean", "Type.Boolean"] then some .boolean
  else if function ∈ ["z.literal", "v.literal", "Type.Literal"] then some .literal
  else if function ∈ ["z.object", "v.object", "Type.Object"] then some .object
  else if function ∈ ["z.array", "v.array", "Type.Array"] then some .array
  else if function ∈ ["z.union", "v.union", "Type.Union", "z.enum", "v.picklist"] then some .union
  else none

/-- The functions that add demands to the schema that is their first argument. -/
def wrappers : List String := ["z.min", "z.max", "z.regex", "v.pipe"]

/-- Whether a chained call makes a schema optional. -/
def MakesOptional (method : String × List Term) : Prop :=
  method.1 = ".optional" ∨ method.1 = ".default"

instance : DecidablePred MakesOptional := fun method =>
  inferInstanceAs (Decidable (method.1 = ".optional" ∨ method.1 = ".default"))

/-- **The kind of schema that a tree makes.** There is none when the schema is optional. -/
def kindOf : Term → Option Kind
  | .call function arguments methods =>
    if ∃ method ∈ methods, MakesOptional method then none
    else match arguments with
      | [.list _] =>
        if functionKind? function = some .literal then some .union else functionKind? function
      | inner :: _ => if function ∈ wrappers then kindOf inner else functionKind? function
      | [] => functionKind? function
  | _ => none

/-! ## Calls -/

theorem kindOf_optional {function : String} {arguments : List Term}
    {methods : List (String × List Term)} (h : ∃ method ∈ methods, MakesOptional method) :
    kindOf (.call function arguments methods) = none := by
  unfold kindOf
  exact if_pos h

theorem functionKind?_function (hd : d ≠ .arkType) (kind : Kind) :
    functionKind? (kind.function d) = some kind := by
  cases d with
  | arkType => exact absurd rfl hd
  | _ => cases kind <;> rfl

theorem function_notMem_wrappers (d : Dialect) (kind : Kind) : kind.function d ∉ wrappers := by
  cases d <;> cases kind <;> decide

/-- A call whose first argument is no list makes what its function makes. -/
theorem kindOf_call {function : String} {arguments : List Term}
    (hwrapper : function ∉ wrappers) (hlist : ∀ items, arguments ≠ [.list items]) :
    kindOf (.call function arguments []) = functionKind? function := by
  cases arguments with
  | nil => rfl
  | cons argument rest =>
    -- Nothing is chained to the call, and its first argument decides the rest.
    unfold kindOf
    rw [if_neg (by simp)]
    split
    · next items heq =>
      cases heq
      exact absurd rfl (hlist items)
    · next heq =>
      cases heq
      exact if_neg hwrapper
    · next heq => cases heq

/-- A call of a wrapper makes what its first argument makes. -/
theorem kindOf_wrapper {function : String} {inner : Term} {rest : List Term}
    (hwrapper : function ∈ wrappers) (hinner : IsCall inner) :
    kindOf (.call function (inner :: rest) []) = kindOf inner := by
  obtain ⟨other, arguments, methods, rfl⟩ := hinner
  rw [kindOf.eq_def]
  show (if _ then none else _) = _
  rw [if_neg (by simp)]
  exact if_pos hwrapper

theorem zodName_mem_wrappers (demand : Demand) : "z." ++ demand.zodName ∈ wrappers := by
  cases demand <;> decide

theorem dot_zodName_ne (demand : Demand) :
    "." ++ demand.zodName ≠ ".optional" ∧ "." ++ demand.zodName ≠ ".default" := by
  cases demand <;> decide

/-- Demands do not change the kind of what they are attached to. -/
theorem kindOf_attach (hd : d ≠ .arkType) (kind : Kind) (demands : DemandTerms) :
    kindOf (attach d (kind.function d) demands) = some kind := by
  have hfunction := functionKind?_function hd kind
  have hwrapper := function_notMem_wrappers d kind
  have hnil : ∀ items, ([] : List Term) ≠ [.list items] := fun _ => nofun
  have hbase : kindOf (.call (kind.function d) [] []) = some kind :=
    (kindOf_call hwrapper hnil).trans hfunction
  cases d with
  | zod =>
    -- Demands are chained, but none of them makes anything optional.
    have hnone : ¬ ∃ method ∈ demands.map fun demand : Demand × Term =>
        ("." ++ demand.1.zodName, [demand.2]), MakesOptional method := by
      rintro ⟨method, hmethod, hoptional⟩
      obtain ⟨demand, -, rfl⟩ := List.mem_map.mp hmethod
      exact hoptional.elim (dot_zodName_ne demand.1).1 (dot_zodName_ne demand.1).2
    rw [attach, kindOf.eq_def]
    show (if _ then none else _) = _
    rw [if_neg hnone]
    exact hfunction
  | zodMini =>
    -- Each demand is wrapped around a call that makes a schema of the kind already.
    have hfold (base : Term) (hcall : IsCall base) (hkind : kindOf base = some kind) :
        kindOf (demands.foldl wrap base) = some kind := by
      induction demands generalizing base with
      | nil => exact hkind
      | cons demand rest ih =>
        apply ih (wrap base demand) ⟨_, _, _, rfl⟩
        exact (kindOf_wrapper (zodName_mem_wrappers demand.1) hcall).trans hkind
    exact hfold _ ⟨_, _, _, rfl⟩ hbase
  | valibot =>
    cases demands with
    | nil => exact hbase
    | cons demand rest => exact (kindOf_wrapper (by decide) ⟨_, _, _, rfl⟩).trans hbase
  | typeBox =>
    cases demands with
    | nil => exact hbase
    | cons demand rest =>
      have hlist : ∀ items, optionTerms (demand :: rest) ≠ [.list items] := fun _ => nofun
      exact (kindOf_call hwrapper hlist).trans hfunction
  | arkType => exact absurd rfl hd

/-! ## Trees -/

/-- A tree that is a call is no list. -/
theorem call_ne_list {t : Term} (h : IsCall t) (items : List Term) :
    [t] ≠ [.list items] := by
  obtain ⟨function, arguments, methods, rfl⟩ := h
  exact nofun

theorem literalTerm_ne_list (value : Json) (items : List Term) :
    [literalTerm value] ≠ [.list items] := by
  cases value <;> exact nofun

theorem mapTerm_ne_list (fields : List (String × Term)) (items : List Term) :
    [mapTerm fields] ≠ [.list items] := by
  cases fields <;> exact nofun

/-- Sets of literals and lists of members stand for unions. -/
theorem kindOf_enumerationTerm (hd : d ≠ .arkType) (kind : LiteralKind) (literals : List Term) :
    kindOf (enumerationTerm d kind literals) = some .union := by
  cases d with
  | arkType => exact absurd rfl hd
  | _ => cases kind <;> rfl

theorem kindOf_unionTerm (hd : d ≠ .arkType) (members : List Term) :
    kindOf (unionTerm d members) = some .union := by
  cases d with
  | arkType => exact absurd rfl hd
  | _ => rfl

/-- **The kind of a shape is that of its tree.** -/
theorem kindOf_tree (hd : d ≠ .arkType) (shape : Shape) : kindOf (tree d shape) = kind? shape := by
  induction shape with
  | string minLength maxLength pattern => exact kindOf_attach hd .string _
  | number minimum maximum => exact kindOf_attach hd .number _
  | boolean =>
    have hcall := @kindOf_call _ [] (function_notMem_wrappers d .boolean) fun _ => nofun
    exact hcall.trans (functionKind?_function hd .boolean)
  | literal value =>
    have hcall := kindOf_call (function_notMem_wrappers d .literal) (literalTerm_ne_list value)
    exact hcall.trans (functionKind?_function hd .literal)
  | object properties =>
    have hcall := kindOf_call (function_notMem_wrappers d .object)
      (mapTerm_ne_list (propertyTrees d properties))
    exact hcall.trans (functionKind?_function hd .object)
  | array items =>
    have hcall := kindOf_call (function_notMem_wrappers d .array)
      (call_ne_list (isCall_tree d items))
    exact hcall.trans (functionKind?_function hd .array)
  | union members =>
    rw [tree]
    split
    · exact kindOf_enumerationTerm hd _ _
    · exact kindOf_unionTerm hd _
  | optional inner default hasDefault ih => exact ih
  | foreign value => rfl

/-- What is made optional makes no schema by itself. -/
theorem kindOf_optionalTerm (hd : d ≠ .arkType) (default? : Option Default) {value : Term}
    (hvalue : IsCall value) : kindOf (optionalTerm d default? value) = none := by
  obtain ⟨function, arguments, methods, rfl⟩ := hvalue
  cases d with
  | zod =>
    cases default? with
    | none => exact kindOf_optional ⟨_, List.mem_append_right _ List.mem_cons_self, Or.inl rfl⟩
    | some default =>
      exact kindOf_optional ⟨_, List.mem_append_right _ List.mem_cons_self, Or.inr rfl⟩
  | arkType => exact absurd rfl hd
  | _ => cases default? <;> rfl

end SchemaForge.Expression
