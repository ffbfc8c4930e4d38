import SchemaForge.Expression.Render
import SchemaForge.Proofs.Script.Term
import SchemaForge.Proofs.Shape.Parts

/-!
# `SchemaForge.Proofs.Expression.Tree` — expressions as trees

The dialects other than ArkType write scripts, so what they write of a shape is the text of a tree.
`tree` makes the tree without regard to layout or to what may go wrong. Zod chains calls, Zod Mini
wraps them around each other, Valibot pipes them and TypeBox collects options; all else is common.

## Contents
- **Demands.** `textTerms` and `numberTerms`, and `attach` for the four ways to attach them.
- **Trees.** `tree`; `propertyTree` for what stands behind the key of a property.
- **Calls.** `isCall_tree`: every tree is a call, to which another one can be chained.
-/

namespace SchemaForge.Expression

open Script (Term Braces)

/-! ## Demands -/

/-- A demand with the tree of its argument. -/
abbrev DemandTerms := List (Demand × Term)

/-- The kinds of functions that make schemas. -/
inductive Kind where
  | string
  | number
  | boolean
  | literal
  | object
  | array
  | union
deriving DecidableEq, Repr

/-- The function that a dialect has for a kind of schema. ArkType has none. -/
def Kind.function (d : Dialect) (kind : Kind) : String :=
  match d, kind with
  | .zod, .string | .zodMini, .string => "z.string"
  | .zod, .number | .zodMini, .number => "z.number"
  | .zod, .boolean | .zodMini, .boolean => "z.boolean"
  | .zod, .literal | .zodMini, .literal => "z.literal"
  | .zod, .object | .zodMini, .object => "z.object"
  | .zod, .array | .zodMini, .array => "z.array"
  | .zod, .union | .zodMini, .union => "z.union"
  | .valibot, .string => "v.string"
  | .valibot, .number => "v.number"
  | .valibot, .boolean => "v.boolean"
  | .valibot, .literal => "v.literal"
  | .valibot, .object => "v.object"
  | .valibot, .array => "v.array"
  | .valibot, .union => "v.union"
  | .typeBox, .string => "Type.String"
  | .typeBox, .number => "Type.Number"
  | .typeBox, .boolean => "Type.Boolean"
  | .typeBox, .literal => "Type.Literal"
  | .typeBox, .object => "Type.Object"
  | .typeBox, .array => "Type.Array"
  | .typeBox, .union => "Type.Union"
  | .arkType, _ => "type"

/-- The tree of a pattern: a JSON value in TypeBox, a regular expression elsewhere. -/
def patternTerm (d : Dialect) (pattern : Json) : Term :=
  match d, pattern with
  | .typeBox, value => .ofJson value
  | _, .str pattern => .regex pattern
  | _, value => .ofJson value

/-- The demands on a text. -/
def textTerms (d : Dialect) (minLength maxLength pattern : Json) : DemandTerms :=
  (if minLength.isNull then [] else [(.minLength, .word minLength.display)]) ++
    ((if maxLength.isNull then [] else [(.maxLength, .word maxLength.display)]) ++
      (if pattern.isVacant then [] else [(.pattern, patternTerm d pattern)]))

/-- The numeral of a number, if it has one. -/
def numeral (value : Json) : String := (Script.number value).toOption.getD ""

/-- The demands on a number. -/
def numberTerms (minimum maximum : Json) : DemandTerms :=
  (if minimum.isNull then [] else [(.minimum, .word (numeral minimum))]) ++
    (if maximum.isNull then [] else [(.maximum, .word (numeral maximum))])

/-- The options object with a field for each demand, if there are any. -/
def optionTerms : DemandTerms → List Term
  | [] => []
  | demands => [.braces .options (demands.map fun demand => (demand.1.keyword ++ ": ", demand.2))]

/-- The call of a function of Zod Mini around the schema that a demand is made of. -/
def wrap (base : Term) (demand : Demand × Term) : Term :=
  .call ("z." ++ demand.1.zodName) [base, demand.2] []

/-- The call of a function with demands attached to it. -/
def attach (d : Dialect) (function : String) (demands : DemandTerms) : Term :=
  match d, demands with
  | .zod, demands =>
    .call function [] (demands.map fun demand => ("." ++ demand.1.zodName, [demand.2]))
  | .zodMini, demands => demands.foldl wrap (.call function [] [])
  | .valibot, [] => .call function [] []
  | .valibot, demands =>
    .call "v.pipe" (.call function [] [] ::
      demands.map fun demand => .call ("v." ++ demand.1.valibotName) [demand.2] []) []
  | .typeBox, demands => .call function (optionTerms demands) []
  | .arkType, _ => .call function [] []

/-! ## Trees -/

/-- The tree of a literal. -/
def literalTerm : Json → Term
  | .str text => .single text
  | .bool b => .word (Term.truth b)
  | value => .word (numeral value)

/-- The tree of a map of properties. -/
def mapTerm : List (String × Term) → Term
  | [] => .braces .json []
  | fields => .braces .lines fields

/-- The tree of a union. -/
def unionTerm (d : Dialect) (members : List Term) : Term :=
  .call (Kind.union.function d) [.list members] []

/-- The tree of an enumeration. -/
def enumerationTerm (d : Dialect) (kind : LiteralKind) (literals : List Term) : Term :=
  match d, kind with
  | .zod, .string | .zodMini, .string => .call "z.enum" [.list literals] []
  | .zod, _ | .zodMini, _ => .call "z.literal" [.list literals] []
  | .valibot, .string | .valibot, .number => .call "v.picklist" [.list literals] []
  | d, _ => unionTerm d (literals.map fun literal => .call (Kind.literal.function d) [literal] [])

/-- A call with one more call chained to it. -/
def chain (method : String) (arguments : List Term) : Term → Term
  | .call function others methods => .call function others (methods ++ [(method, arguments)])
  | other => other

/-- The tree of a default: that of a JSON value, for a tuple that of the list of its values. A text
with surrogates is no string, so it is taken as a word. -/
def defaultTerm : Default → Term
  | .json value => .ofJson value
  | .surrogates text => .word (Default.surrogates text).write
  | .tuple values => .ofJson (.arr values)

/-- The tree of an optional value. -/
def optionalTerm (d : Dialect) (default? : Option Default) (value : Term) : Term :=
  match d, default? with
  | .zod, none => chain ".optional" [] value
  | .zod, some default => chain ".default" [defaultTerm default] value
  | .zodMini, none => .call "z.optional" [value] []
  | .zodMini, some default => .call "z._default" [value, defaultTerm default] []
  | .valibot, none => .call "v.optional" [value] []
  | .valibot, some default => .call "v.optional" [value, defaultTerm default] []
  | .typeBox, none => .call "Type.Optional" [value] []
  | .typeBox, some default =>
    .call "Type.Optional" [.braces .options [("...", value), ("default: ", defaultTerm default)]] []
  | .arkType, _ => value

/-- The default that is written of an optional value, if one is. -/
def shownDefault (default : Default) (hasDefault : Json) : Option Default :=
  if hasDefault.isVacant then none else some default

mutual

/-- The tree of a shape. That of a shape which is refused does not matter. -/
def tree (d : Dialect) : Shape → Term
  | .string minLength maxLength pattern =>
    attach d (Kind.string.function d) (textTerms d minLength maxLength pattern)
  | .number minimum maximum => attach d (Kind.number.function d) (numberTerms minimum maximum)
  | .boolean => .call (Kind.boolean.function d) [] []
  | .literal value => .call (Kind.literal.function d) [literalTerm value] []
  | .object properties => .call (Kind.object.function d) [mapTerm (propertyTrees d properties)] []
  | .array items => .call (Kind.array.function d) [tree d items] []
  | .union members =>
    match Shape.enumeration? members with
    | some (kind, values) => enumerationTerm d kind (values.map literalTerm)
    | none => unionTerm d (trees d members)
  | .optional inner _ _ => tree d inner
  | .foreign _ => .call "" [] []

/-- The trees of the members of a union. -/
def trees (d : Dialect) : List Shape → List Term
  | [] => []
  | member :: rest => tree d member :: trees d rest

/-- The trees of properties, with their names. -/
def propertyTrees (d : Dialect) : List (String × Shape) → List (String × Term)
  | [] => []
  | (name, .optional inner default hasDefault) :: rest =>
    (name, optionalTerm d (shownDefault default hasDefault) (tree d inner)) :: propertyTrees d rest
  | (name, shape) :: rest => (name, tree d shape) :: propertyTrees d rest

end

/-- The tree of the value of a property. -/
def propertyTree (d : Dialect) : Shape → Term
  | .optional inner default hasDefault =>
    optionalTerm d (shownDefault default hasDefault) (tree d inner)
  | shape => tree d shape

theorem trees_eq_map (d : Dialect) (members : List Shape) :
    trees d members = members.map (tree d) := by
  induction members with
  | nil => rfl
  | cons member rest ih => rw [trees, List.map_cons, ih]

theorem propertyTrees_eq_map (d : Dialect) (properties : Fields Shape) :
    propertyTrees d properties
      = properties.map fun property => (property.1, propertyTree d property.2) := by
  induction properties with
  | nil => rfl
  | cons property rest ih =>
    obtain ⟨name, shape⟩ := property
    rw [List.map_cons, ← ih]
    cases shape <;> rfl

/-! ## Calls -/

/-- Whether a term is a call, so that another call can be chained to it. -/
def IsCall (t : Term) : Prop :=
  ∃ function arguments methods, t = .call function arguments methods

theorem isCall_attach (d : Dialect) (function : String) (demands : DemandTerms) :
    IsCall (attach d function demands) := by
  cases d with
  | zodMini =>
    have hfold (base : Term) (hbase : IsCall base) : IsCall (demands.foldl wrap base) := by
      induction demands generalizing base with
      | nil => exact hbase
      | cons demand rest ih => exact ih _ ⟨_, _, _, rfl⟩
    exact hfold _ ⟨_, _, _, rfl⟩
  | valibot => cases demands <;> exact ⟨_, _, _, rfl⟩
  | _ => exact ⟨_, _, _, rfl⟩

theorem isCall_tree (d : Dialect) (shape : Shape) : IsCall (tree d shape) := by
  induction shape with
  | string minLength maxLength pattern => exact isCall_attach d _ _
  | number minimum maximum => exact isCall_attach d _ _
  | union members ih =>
    rw [tree]
    split
    · next kind values _ => cases d <;> cases kind <;> exact ⟨_, _, _, rfl⟩
    · exact ⟨_, _, _, rfl⟩
  | optional inner default hasDefault ih => exact ih
  | _ => exact ⟨_, _, _, rfl⟩

end SchemaForge.Expression
