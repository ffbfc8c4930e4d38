import Mathlib.Data.List.Induction
import SchemaForge.Proofs.Expression.Acceptance
import SchemaForge.Proofs.Expression.Kinds
import SchemaForge.Proofs.Expression.Legibility
import SchemaForge.Proofs.Expression.Printing

/-!
# `SchemaForge.Proofs.Expression.Injectivity` — a shape is known by its text

Trees of different kinds differ, and within a kind the arguments tell shapes apart: two plain shapes
that can be written have different trees. Optional values are known by what is put around them,
which no other tree has. A legible tree is known by its text, and what comes out of the writer is
the text of a tree that is legible; so a plain shape is known by its text.

## Contents
- **Parts.** Demands, literals and optional values are known by the trees made with them:
  `attach_injective`, `literalTerm_injective`, `optionalTerm_injective`.
- **Shapes.** `known_and_knownAsProperty`, by induction over one of the shapes.
- **Acceptance.** `writable_of_ok`: what is written holds only what can be written.
- **Texts.** `renderShape_text_injective`.
- **Defaults.** `renderLine_congr`: what is not known of a default by its text.
-/

namespace SchemaForge.Expression

open Script (Term)
open Shape (Place Everywhere)

variable {d : Dialect}

/-! ## Parts -/

theorem valibotName_injective {demand demand' : Demand}
    (h : "v." ++ demand.valibotName = "v." ++ demand'.valibotName) : demand = demand' := by
  cases demand <;> cases demand' <;> first | rfl | exact absurd h (by decide)

theorem keyword_injective {demand demand' : Demand}
    (h : demand.keyword ++ ": " = demand'.keyword ++ ": ") : demand = demand' := by
  cases demand <;> cases demand' <;> first | rfl | exact absurd h (by decide)

/-- **Whether no two of some demands go by one name in Zod**, except those that are the same. -/
def Distinguished (demands demands' : DemandTerms) : Prop :=
  ∀ demand ∈ demands, ∀ demand' ∈ demands',
    demand.1.zodName = demand'.1.zodName → demand.1 = demand'.1

theorem foldl_wrap_concat (base : Term) (others : DemandTerms) (demand : Demand × Term) :
    (others ++ [demand]).foldl wrap base = wrap (others.foldl wrap base) demand := by
  rw [List.foldl_append]
  rfl

/-- The calls wrapped around a schema are known, from the outermost one on. -/
theorem foldl_wrap_injective {function : String} {demands demands' : DemandTerms}
    (hnames : Distinguished demands demands')
    (h : demands.foldl wrap (.call function [] []) = demands'.foldl wrap (.call function [] [])) :
    demands = demands' := by
  induction demands using List.reverseRecOn generalizing demands' with
  | nil =>
    rcases List.eq_nil_or_concat demands' with rfl | ⟨rest, demand, rfl⟩
    · rfl
    · rw [List.concat_eq_append, foldl_wrap_concat] at h
      cases h
  | append_singleton others demand ih =>
    -- The last demand is the outermost call: its name and argument are known, and so is the rest.
    rw [foldl_wrap_concat] at h
    rcases List.eq_nil_or_concat demands' with rfl | ⟨others', demand', rfl⟩
    · cases h
    · rw [List.concat_eq_append] at h hnames ⊢
      rw [foldl_wrap_concat] at h
      obtain ⟨hname, harguments, -⟩ := Term.call.inj h
      obtain ⟨hinner, hlast⟩ := List.cons.inj harguments
      have hothers : others = others' := by
        refine ih ?_ hinner
        intro x hx y hy
        exact hnames x (List.mem_append_left _ hx) y (List.mem_append_left _ hy)
      have hdemand : demand.1 = demand'.1 := by
        refine hnames demand ?_ demand' ?_ ((String.append_right_inj _).mp hname)
        · exact List.mem_append_right _ List.mem_cons_self
        · exact List.mem_append_right _ List.mem_cons_self
      rw [hothers, Prod.ext hdemand (List.cons.inj hlast).1]

/-- **Demands are known by what they are attached to**, when their names tell them apart. -/
theorem attach_injective (hd : d ≠ .arkType) {function : String} {demands demands' : DemandTerms}
    (hnames : Distinguished demands demands')
    (h : attach d function demands = attach d function demands') : demands = demands' := by
  cases d with
  | zod =>
    -- The demands are the chained calls, one for one.
    obtain ⟨-, -, hmethods⟩ := Term.call.inj h
    refine eq_of_map_eq ?_ hmethods
    intro demand hdemand demand' hdemand' heq
    obtain ⟨hname, hargument⟩ := Prod.mk.inj heq
    have hsame := hnames demand hdemand demand' hdemand' ((String.append_right_inj _).mp hname)
    exact Prod.ext hsame (List.cons.inj hargument).1
  | zodMini => exact foldl_wrap_injective hnames h
  | valibot =>
    -- Without demands there is no pipe.
    cases demands with
    | nil =>
      cases demands' with
      | nil => rfl
      | cons demand' others' => cases h
    | cons demand others =>
      cases demands' with
      | nil => cases h
      | cons demand' others' =>
        obtain ⟨-, harguments, -⟩ := Term.call.inj h
        obtain ⟨-, hactions⟩ := List.cons.inj harguments
        refine eq_of_map_eq ?_ hactions
        intro x _ y _ heq
        obtain ⟨hname, hargument, -⟩ := Term.call.inj heq
        exact Prod.ext (valibotName_injective hname) (List.cons.inj hargument).1
  | typeBox =>
    -- Without demands there are no options.
    cases demands with
    | nil =>
      cases demands' with
      | nil => rfl
      | cons demand' others' => cases h
    | cons demand others =>
      cases demands' with
      | nil => cases h
      | cons demand' others' =>
        obtain ⟨-, harguments, -⟩ := Term.call.inj h
        obtain ⟨-, hfields⟩ := Term.braces.inj (List.cons.inj harguments).1
        refine eq_of_map_eq ?_ hfields
        intro x _ y _ heq
        obtain ⟨hlabel, hargument⟩ := Prod.mk.inj heq
        exact Prod.ext (keyword_injective hlabel) hargument
  | arkType => exact absurd rfl hd

/-- What may be demanded of texts. -/
def demandsOnText : List Demand := [.minLength, .maxLength, .pattern]

/-- What may be demanded of numbers. -/
def demandsOnNumber : List Demand := [.minimum, .maximum]

/-- Demands that are all on texts, or all on numbers, have names that tell them apart. -/
theorem distinguished_of_mem {allowed : List Demand} {demands demands' : DemandTerms}
    (hallowed : allowed = demandsOnText ∨ allowed = demandsOnNumber)
    (h : ∀ demand ∈ demands, demand.1 ∈ allowed) (h' : ∀ demand ∈ demands', demand.1 ∈ allowed) :
    Distinguished demands demands' := by
  have hnames : ∀ x ∈ allowed, ∀ y ∈ allowed, x.zodName = y.zodName → x = y := by
    rcases hallowed with rfl | rfl
    · decide
    · decide
  intro x hx y hy hname
  exact hnames x.1 (h x hx) y.1 (h' y hy) hname

/-- A demand that may be left out is an allowed one if it is there. -/
theorem part_mem {allowed : List Demand} {demand : Demand} (h : demand ∈ allowed) (absent : Bool)
    (argument : Term) :
    ∀ x ∈ (if absent then [] else [(demand, argument)] : DemandTerms), x.1 ∈ allowed := by
  cases absent with
  | true => exact fun _ h => absurd h List.not_mem_nil
  | false => exact List.forall_mem_singleton.mpr h

theorem textTerms_mem (d : Dialect) (minLength maxLength pattern : Json) :
    ∀ demand ∈ textTerms d minLength maxLength pattern, demand.1 ∈ demandsOnText :=
  List.forall_mem_append.mpr ⟨part_mem (by decide) _ _,
    List.forall_mem_append.mpr ⟨part_mem (by decide) _ _, part_mem (by decide) _ _⟩⟩

theorem numberTerms_mem (minimum maximum : Json) :
    ∀ demand ∈ numberTerms minimum maximum, demand.1 ∈ demandsOnNumber :=
  List.forall_mem_append.mpr ⟨part_mem (by decide) _ _, part_mem (by decide) _ _⟩

/-- The argument of a demand that may be left out. -/
def argument? (absent : Bool) (argument : Term) : Option Term :=
  if absent then none else some argument

theorem lookup_textTerms (d : Dialect) (minLength maxLength pattern : Json) :
    let demands := textTerms d minLength maxLength pattern
    demands.lookup .minLength = argument? minLength.isNull (.word minLength.display) ∧
      demands.lookup .maxLength = argument? maxLength.isNull (.word maxLength.display) ∧
      demands.lookup .pattern = argument? pattern.isVacant (patternTerm d pattern) := by
  unfold textTerms
  cases minLength.isNull <;> cases maxLength.isNull <;> cases pattern.isVacant <;>
    exact ⟨rfl, rfl, rfl⟩

theorem lookup_numberTerms (minimum maximum : Json) :
    let demands := numberTerms minimum maximum
    demands.lookup .minimum = argument? minimum.isNull (.word (numeral minimum)) ∧
      demands.lookup .maximum = argument? maximum.isNull (.word (numeral maximum)) := by
  unfold numberTerms
  cases minimum.isNull <;> cases maximum.isNull <;> exact ⟨rfl, rfl⟩

/-- A bound that is null or an integer is known by the argument written for it. -/
theorem bound_injective {word : Json → String} (hword : ∀ n, word (.int n) = Term.integer n)
    {bound bound' : Json} (h : bound.IsNullOrInt) (h' : bound'.IsNullOrInt)
    (heq : argument? bound.isNull (.word (word bound))
      = argument? bound'.isNull (.word (word bound'))) : bound = bound' := by
  cases bound with
  | null =>
    cases bound' with
    | null => rfl
    | int n => cases heq
    | _ => exact h'.elim
  | int m =>
    cases bound' with
    | null => cases heq
    | int n =>
      have hintegers := Term.word.inj (Option.some.inj heq)
      rw [hword, hword] at hintegers
      rw [Term.integer_injective hintegers]
    | _ => exact h'.elim
  | _ => exact h.elim

/-- The pattern of a plain text is known by the argument written for it. -/
theorem pattern_injective {minLength maxLength pattern minLength' maxLength' pattern' : Json}
    (h : Plain d (.string minLength maxLength pattern))
    (h' : Plain d (.string minLength' maxLength' pattern'))
    (heq : argument? pattern.isVacant (patternTerm d pattern)
      = argument? pattern'.isVacant (patternTerm d pattern')) : pattern = pattern' := by
  have hshown {text : String} (hne : text ≠ "") :
      argument? (Json.str text).isVacant (patternTerm .typeBox (.str text))
        = some (.ascii text) := by
    have hvacant : (Json.str text).isVacant = false := by simpa [Json.isVacant] using hne
    rw [hvacant]
    rfl
  rcases h.2.2 with rfl | ⟨rfl, text, hne, rfl⟩
  · rcases h'.2.2 with rfl | ⟨rfl, text', hne', rfl⟩
    · rfl
    · rw [hshown hne'] at heq
      cases heq
  · rw [hshown hne] at heq
    rcases h'.2.2 with rfl | ⟨-, text', hne', rfl⟩
    · cases heq
    · rw [hshown hne'] at heq
      rw [Term.ascii.inj (Option.some.inj heq)]

/-- **A plain text is known by its tree.** -/
theorem string_injective (hd : d ≠ .arkType)
    {minLength maxLength pattern minLength' maxLength' pattern' : Json}
    (hplain : Plain d (.string minLength maxLength pattern))
    (hplain' : Plain d (.string minLength' maxLength' pattern'))
    (h : tree d (.string minLength maxLength pattern)
      = tree d (.string minLength' maxLength' pattern')) :
    Shape.string minLength maxLength pattern = .string minLength' maxLength' pattern' := by
  have hnames := distinguished_of_mem (Or.inl rfl) (textTerms_mem d minLength maxLength pattern)
    (textTerms_mem d minLength' maxLength' pattern')
  have hdemands := attach_injective hd hnames h
  -- The same demands, so the same arguments for each of them.
  obtain ⟨hmin, hmax, hpattern⟩ := lookup_textTerms d minLength maxLength pattern
  obtain ⟨hmin', hmax', hpattern'⟩ := lookup_textTerms d minLength' maxLength' pattern'
  rw [hdemands] at hmin hmax hpattern
  rw [bound_injective (fun _ => rfl) hplain.1 hplain'.1 (hmin.symm.trans hmin'),
    bound_injective (fun _ => rfl) hplain.2.1 hplain'.2.1 (hmax.symm.trans hmax'),
    pattern_injective hplain hplain' (hpattern.symm.trans hpattern')]

/-- So is a plain number. -/
theorem number_injective (hd : d ≠ .arkType) {minimum maximum minimum' maximum' : Json}
    (hplain : Plain d (.number minimum maximum)) (hplain' : Plain d (.number minimum' maximum'))
    (h : tree d (.number minimum maximum) = tree d (.number minimum' maximum')) :
    Shape.number minimum maximum = .number minimum' maximum' := by
  have hnames := distinguished_of_mem (Or.inr rfl) (numberTerms_mem minimum maximum)
    (numberTerms_mem minimum' maximum')
  have hdemands := attach_injective hd hnames h
  obtain ⟨hmin, hmax⟩ := lookup_numberTerms minimum maximum
  obtain ⟨hmin', hmax'⟩ := lookup_numberTerms minimum' maximum'
  rw [hdemands] at hmin hmax
  rw [bound_injective (fun _ => rfl) hplain.1 hplain'.1 (hmin.symm.trans hmin'),
    bound_injective (fun _ => rfl) hplain.2 hplain'.2 (hmax.symm.trans hmax')]

/-- **The value of a literal is known by its tree.** -/
theorem literalTerm_injective {value value' : Json} (h : value.IsExact) (h' : value'.IsExact)
    (heq : literalTerm value = literalTerm value') : value = value' := by
  cases value with
  | str text =>
    cases value' with
    | str text' => rw [Term.single.inj heq]
    | int n => cases heq
    | bool b => cases heq
    | _ => exact h'.elim
  | int m =>
    cases value' with
    | str text => cases heq
    | int n => rw [Term.integer_injective (Term.word.inj heq)]
    | bool b => exact absurd (Term.word.inj heq) (Term.integer_ne_truth m b)
    | _ => exact h'.elim
  | bool b =>
    cases value' with
    | str text => cases heq
    | int n => exact absurd (Term.word.inj heq).symm (Term.integer_ne_truth n b)
    | bool b' => rw [Term.truth_injective (Term.word.inj heq)]
    | _ => exact h'.elim
  | _ => exact h.elim

theorem mapTerm_injective {fields fields' : List (String × Term)}
    (h : mapTerm fields = mapTerm fields') : fields = fields' := by
  cases fields with
  | nil =>
    cases fields' with
    | nil => rfl
    | cons field rest => cases h
  | cons field rest =>
    cases fields' with
    | nil => cases h
    | cons field' rest' => exact (Term.braces.inj h).2

/-- The last of the chained calls is known, and so is what it is chained to. -/
theorem chain_injective {method method' : String} {arguments arguments' : List Term} {t t' : Term}
    (ht : IsCall t) (ht' : IsCall t') (h : chain method arguments t = chain method' arguments' t') :
    method = method' ∧ arguments = arguments' ∧ t = t' := by
  obtain ⟨function, others, methods, rfl⟩ := ht
  obtain ⟨function', others', methods', rfl⟩ := ht'
  obtain ⟨hfunction, hothers, hmethods⟩ := Term.call.inj h
  obtain ⟨hfront, hlast⟩ := List.append_inj' hmethods rfl
  obtain ⟨hmethod, harguments⟩ := Prod.mk.inj (List.cons.inj hlast).1
  exact ⟨hmethod, harguments, by rw [hfunction, hothers, hfront]⟩

theorem defaultTerm_injective {default default' : Default} (h : default.IsExact)
    (h' : default'.IsExact) (heq : defaultTerm default = defaultTerm default') :
    default = default' := by
  cases default with
  | json value =>
    cases default' with
    | json value' => rw [Term.ofJson_injective h h' heq]
    | _ => exact h'.elim
  | _ => exact h.elim

/-- **An optional value is known by its tree**, and so is its default. -/
theorem optionalTerm_injective (hd : d ≠ .arkType) {default? default?' : Option Default}
    {value value' : Term} (hcall : IsCall value) (hcall' : IsCall value')
    (hexact : ∀ default ∈ default?, default.IsExact)
    (hexact' : ∀ default ∈ default?', default.IsExact)
    (h : optionalTerm d default? value = optionalTerm d default?' value') :
    default? = default?' ∧ value = value' := by
  have hdefault {default default' : Default} (hshown : default? = some default)
      (hshown' : default?' = some default') (heq : defaultTerm default = defaultTerm default') :
      default? = default?' := by
    have hsame := defaultTerm_injective (hexact default hshown) (hexact' default' hshown') heq
    rw [hshown, hshown', hsame]
  cases d with
  | zod =>
    cases default? with
    | none =>
      cases default?' with
      | none => exact ⟨rfl, (chain_injective hcall hcall' h).2.2⟩
      | some default' => exact absurd (chain_injective hcall hcall' h).1 (by decide)
    | some default =>
      cases default?' with
      | none => exact absurd (chain_injective hcall hcall' h).1 (by decide)
      | some default' =>
        obtain ⟨-, harguments, hvalue⟩ := chain_injective hcall hcall' h
        exact ⟨hdefault rfl rfl (List.cons.inj harguments).1, hvalue⟩
  | zodMini =>
    cases default? with
    | none =>
      cases default?' with
      | none => exact ⟨rfl, (List.cons.inj (Term.call.inj h).2.1).1⟩
      | some default' => exact absurd (Term.call.inj h).1 (by decide)
    | some default =>
      cases default?' with
      | none => exact absurd (Term.call.inj h).1 (by decide)
      | some default' =>
        obtain ⟨hvalue, hrest⟩ := List.cons.inj (Term.call.inj h).2.1
        exact ⟨hdefault rfl rfl (List.cons.inj hrest).1, hvalue⟩
  | valibot =>
    cases default? with
    | none =>
      cases default?' with
      | none => exact ⟨rfl, (List.cons.inj (Term.call.inj h).2.1).1⟩
      | some default' => cases h
    | some default =>
      cases default?' with
      | none => cases h
      | some default' =>
        obtain ⟨hvalue, hrest⟩ := List.cons.inj (Term.call.inj h).2.1
        exact ⟨hdefault rfl rfl (List.cons.inj hrest).1, hvalue⟩
  | typeBox =>
    -- With a default the value stands in an options object, and no value is one.
    cases default? with
    | none =>
      obtain ⟨function, arguments, methods, rfl⟩ := hcall
      cases default?' with
      | none => exact ⟨rfl, (List.cons.inj (Term.call.inj h).2.1).1⟩
      | some default' => cases h
    | some default =>
      obtain ⟨function, arguments, methods, rfl⟩ := hcall'
      cases default?' with
      | none => cases h
      | some default' =>
        have hoptions := (List.cons.inj (Term.call.inj h).2.1).1
        obtain ⟨hspread, hrest⟩ := List.cons.inj (Term.braces.inj hoptions).2
        have hshown := (Prod.mk.inj (List.cons.inj hrest).1).2
        exact ⟨hdefault rfl rfl hshown, (Prod.mk.inj hspread).2⟩
  | arkType => exact absurd rfl hd

/-- What is shown of the default of a plain shape says all about it. -/
theorem shownDefault_injective {inner inner' : Shape}
    {default default' : Default} {hasDefault hasDefault' : Json}
    (h : Plain d (.optional inner default hasDefault))
    (h' : Plain d (.optional inner' default' hasDefault'))
    (heq : shownDefault default hasDefault = shownDefault default' hasDefault') :
    default = default' ∧ hasDefault = hasDefault' := by
  rcases h with ⟨rfl, -⟩ | ⟨rfl, rfl⟩
  · rcases h' with ⟨rfl, -⟩ | ⟨rfl, rfl⟩
    · exact ⟨Option.some.inj heq, rfl⟩
    · cases heq
  · rcases h' with ⟨rfl, -⟩ | ⟨rfl, rfl⟩
    · cases heq
    · exact ⟨rfl, rfl⟩

/-! ## Shapes -/

/-- The tree of a union is a list of the trees of its members, or else it is a set of literals,
under the name of another function. -/
theorem tree_union (hd : d ≠ .arkType) (members : List Shape) :
    tree d (.union members) = unionTerm d (members.map (tree d)) ∨
      ∃ (function : String) (values : List Json), function ≠ Kind.union.function d ∧
        members = values.map .literal ∧
          tree d (.union members) = .call function [.list (values.map literalTerm)] [] := by
  rw [tree]
  cases henum : Shape.enumeration? members with
  | none =>
    rw [trees_eq_map]
    exact Or.inl rfl
  | some enumeration =>
    obtain ⟨kind, values⟩ := enumeration
    have hmembers : members = values.map .literal := Shape.eq_map_of_enumeration? henum
    have hlist : unionTerm d ((values.map literalTerm).map fun literal =>
        .call (Kind.literal.function d) [literal] []) = unionTerm d (members.map (tree d)) := by
      rw [hmembers, List.map_map, List.map_map]
      rfl
    -- TypeBox has no sets of literals, and Valibot none of truth values.
    cases d with
    | zod => cases kind <;> exact Or.inr ⟨_, values, by decide, hmembers, rfl⟩
    | zodMini => cases kind <;> exact Or.inr ⟨_, values, by decide, hmembers, rfl⟩
    | valibot =>
      cases kind with
      | boolean => exact Or.inl hlist
      | _ => exact Or.inr ⟨_, values, by decide, hmembers, rfl⟩
    | typeBox => exact Or.inl hlist
    | arkType => exact absurd rfl hd

/-- Where no property stands, nothing that can be written is optional. -/
theorem not_isOptional {place : Place} {shape : Shape}
    (h : Everywhere (Writable d) place shape) (hplace : place ≠ .property) :
    ¬ shape.IsOptional := by
  have hwritable := (Shape.everywhere_iff.mp h).1
  cases shape with
  | optional inner default hasDefault => exact absurd hwritable.2.1 hplace
  | _ => exact id

/-- **Whether a shape is known by its tree** among the shapes that can be written. -/
def Known (d : Dialect) (shape : Shape) : Prop :=
  ∀ ⦃top top' : Place⦄ ⦃other : Shape⦄, ¬ shape.IsOptional → ¬ other.IsOptional →
    Everywhere (Writable d) top shape → Everywhere (Writable d) top' other →
    tree d shape = tree d other → shape = other

/-- Whether a shape is known by the tree of a property that has it as its value. -/
def KnownAsProperty (d : Dialect) (shape : Shape) : Prop :=
  ∀ ⦃other : Shape⦄, Everywhere (Writable d) .property shape →
    Everywhere (Writable d) .property other → propertyTree d shape = propertyTree d other →
    shape = other

/-- The tree of what is not optional is that of no optional value. -/
theorem optionalTerm_ne_tree (hd : d ≠ .arkType) {inner shape : Shape} {place : Place}
    (default? : Option Default) (hshape : ¬ shape.IsOptional)
    (h : Everywhere (Writable d) place shape) :
    optionalTerm d default? (tree d inner) ≠ tree d shape := by
  intro heq
  have hkind := congrArg kindOf heq
  rw [kindOf_optionalTerm hd default? (isCall_tree d inner), kindOf_tree hd] at hkind
  have hwritable := (Shape.everywhere_iff.mp h).1
  cases shape with
  | optional => exact hshape trivial
  | foreign => exact hwritable.2
  | _ => cases hkind

theorem propertyTree_of_not_isOptional {shape : Shape} (h : ¬ shape.IsOptional) :
    propertyTree d shape = tree d shape := by
  cases shape with
  | optional => exact absurd trivial h
  | _ => rfl

/-- What is not optional is known as a property when it is known at all. -/
theorem knownAsProperty_of_known (hd : d ≠ .arkType) {shape : Shape} (hshape : ¬ shape.IsOptional)
    (h : Known d shape) : KnownAsProperty d shape := by
  intro other hwritable hwritable' heq
  rw [propertyTree_of_not_isOptional hshape] at heq
  by_cases hother : other.IsOptional
  · cases other with
    | optional inner default hasDefault =>
      exact absurd heq.symm (optionalTerm_ne_tree hd _ hshape hwritable)
    | _ => exact hother.elim
  · rw [propertyTree_of_not_isOptional hother] at heq
    exact h hshape hother hwritable hwritable' heq

/-- Shapes that are not optional and have the same tree are of the same kind. -/
theorem kind?_eq (hd : d ≠ .arkType) {shape other : Shape} (h : tree d shape = tree d other) :
    kind? shape = kind? other := by
  rw [← kindOf_tree hd shape, h, kindOf_tree hd]

theorem known_object (hd : d ≠ .arkType) {properties : Fields Shape}
    (h : ∀ property ∈ properties, KnownAsProperty d property.2) : Known d (.object properties) := by
  intro top top' other _ hother hwritable hwritable' heq
  -- Nothing of another kind has such a tree.
  have hkind := kind?_eq hd heq
  cases other with
  | object others =>
    have harguments := (Term.call.inj heq).2.1
    have hfields := mapTerm_injective (List.cons.inj harguments).1
    rw [propertyTrees_eq_map, propertyTrees_eq_map] at hfields
    refine congrArg Shape.object (eq_of_map_eq ?_ hfields)
    intro x hx y hy hxy
    obtain ⟨hname, htree⟩ := Prod.mk.inj hxy
    have hvalue := h x hx ((Shape.everywhere_object.mp hwritable).2 x hx)
      ((Shape.everywhere_object.mp hwritable').2 y hy) htree
    exact Prod.ext hname hvalue
  | optional => exact absurd trivial hother
  | _ => cases hkind

theorem known_array (hd : d ≠ .arkType) {items : Shape} (h : Known d items) :
    Known d (.array items) := by
  intro top top' other _ hother hwritable hwritable' heq
  have hkind := kind?_eq hd heq
  cases other with
  | array items' =>
    have hitems := (Shape.everywhere_array.mp hwritable).2
    have hitems' := (Shape.everywhere_array.mp hwritable').2
    have htree := (List.cons.inj (Term.call.inj heq).2.1).1
    rw [h (not_isOptional hitems nofun) (not_isOptional hitems' nofun) hitems hitems' htree]
  | optional => exact absurd trivial hother
  | _ => cases hkind

/-- A list of members tells them all; a set of literals tells their values. -/
theorem known_union (hd : d ≠ .arkType) {members : List Shape}
    (h : ∀ member ∈ members, Known d member) : Known d (.union members) := by
  intro top top' other _ hother hwritable hwritable' heq
  have hkind := kind?_eq hd heq
  cases other with
  | union others =>
    have hmembers := (Shape.everywhere_union.mp hwritable).2
    have hothers := (Shape.everywhere_union.mp hwritable').2
    rcases tree_union hd members with htree | ⟨function, values, hfunction, rfl, htree⟩
    · rcases tree_union hd others with htree' | ⟨function', values', hfunction', rfl, htree'⟩
      · rw [htree, htree'] at heq
        have hlists := Term.list.inj (List.cons.inj (Term.call.inj heq).2.1).1
        refine congrArg Shape.union (eq_of_map_eq ?_ hlists)
        intro x hx y hy hxy
        exact h x hx (not_isOptional (hmembers x hx) nofun) (not_isOptional (hothers y hy) nofun)
          (hmembers x hx) (hothers y hy) hxy
      · -- A list of members against a set of literals: the functions differ.
        rw [htree, htree'] at heq
        exact absurd (Term.call.inj heq).1.symm hfunction'
    · rcases tree_union hd others with htree' | ⟨function', values', hfunction', rfl, htree'⟩
      · rw [htree, htree'] at heq
        exact absurd (Term.call.inj heq).1 hfunction
      · rw [htree, htree'] at heq
        have hlists := Term.list.inj (List.cons.inj (Term.call.inj heq).2.1).1
        have hexact {values : List Json}
            (hall : ∀ member ∈ values.map Shape.literal, Everywhere (Writable d) .member member)
            {value : Json} (hvalue : value ∈ values) : value.IsExact :=
          (Shape.everywhere_literal.mp (hall _ (List.mem_map_of_mem hvalue))).1
        rw [eq_of_map_eq (fun x hx y hy hxy =>
          literalTerm_injective (hexact hmembers hx) (hexact hothers hy) hxy) hlists]
  | optional => exact absurd trivial hother
  | _ => cases hkind

/-- Inside an optional value stands one that is known. -/
theorem knownAsProperty_optional (hd : d ≠ .arkType) {inner : Shape} (default : Default)
    (hasDefault : Json) (h : Known d inner) :
    KnownAsProperty d (.optional inner default hasDefault) := by
  intro other hwritable hwritable' heq
  by_cases hother : other.IsOptional
  · cases other with
    | optional inner' default' hasDefault' =>
      -- The default first, then what is optional.
      obtain ⟨⟨hplain, -, hinner⟩, hwithin⟩ := Shape.everywhere_optional.mp hwritable
      obtain ⟨⟨hplain', -, hinner'⟩, hwithin'⟩ := Shape.everywhere_optional.mp hwritable'
      obtain ⟨hshown, htree⟩ := optionalTerm_injective hd (isCall_tree d inner)
        (isCall_tree d inner') (isExact_shownDefault hplain) (isExact_shownDefault hplain') heq
      obtain ⟨rfl, rfl⟩ := shownDefault_injective hplain hplain' hshown
      rw [h hinner hinner' hwithin hwithin' htree]
    | _ => exact hother.elim
  · rw [propertyTree_of_not_isOptional hother] at heq
    exact absurd heq (optionalTerm_ne_tree hd _ hother hwritable')

/-- **Shapes that can be written are known by their trees**, and so are properties. -/
theorem known_and_knownAsProperty (hd : d ≠ .arkType) (shape : Shape) :
    Known d shape ∧ KnownAsProperty d shape := by
  induction shape with
  | string minLength maxLength pattern =>
    have h : Known d (.string minLength maxLength pattern) := by
      intro top top' other _ hother hwritable hwritable' heq
      have hkind := kind?_eq hd heq
      cases other with
      | string minLength' maxLength' pattern' =>
        exact string_injective hd (Shape.everywhere_string.mp hwritable).1
          (Shape.everywhere_string.mp hwritable').1 heq
      | optional => exact absurd trivial hother
      | _ => cases hkind
    exact ⟨h, knownAsProperty_of_known hd id h⟩
  | number minimum maximum =>
    have h : Known d (.number minimum maximum) := by
      intro top top' other _ hother hwritable hwritable' heq
      have hkind := kind?_eq hd heq
      cases other with
      | number minimum' maximum' =>
        exact number_injective hd (Shape.everywhere_number.mp hwritable).1
          (Shape.everywhere_number.mp hwritable').1 heq
      | optional => exact absurd trivial hother
      | _ => cases hkind
    exact ⟨h, knownAsProperty_of_known hd id h⟩
  | boolean =>
    have h : Known d .boolean := by
      intro top top' other _ hother _ _ heq
      have hkind := kind?_eq hd heq
      cases other with
      | boolean => rfl
      | optional => exact absurd trivial hother
      | _ => cases hkind
    exact ⟨h, knownAsProperty_of_known hd id h⟩
  | literal value =>
    have h : Known d (.literal value) := by
      intro top top' other _ hother hwritable hwritable' heq
      have hkind := kind?_eq hd heq
      cases other with
      | literal value' =>
        have hvalue : value.IsExact := (Shape.everywhere_literal.mp hwritable).1
        have hvalue' : value'.IsExact := (Shape.everywhere_literal.mp hwritable').1
        have hterm := (List.cons.inj (Term.call.inj heq).2.1).1
        rw [literalTerm_injective hvalue hvalue' hterm]
      | optional => exact absurd trivial hother
      | _ => cases hkind
    exact ⟨h, knownAsProperty_of_known hd id h⟩
  | object properties ih =>
    have h := known_object hd fun property hproperty => (ih property hproperty).2
    exact ⟨h, knownAsProperty_of_known hd id h⟩
  | array items ih =>
    have h := known_array hd ih.1
    exact ⟨h, knownAsProperty_of_known hd id h⟩
  | union members ih =>
    have h := known_union hd fun member hmember => (ih member hmember).1
    exact ⟨h, knownAsProperty_of_known hd id h⟩
  | optional inner default hasDefault ih =>
    have h : Known d (.optional inner default hasDefault) :=
      fun _ _ _ hshape => absurd trivial hshape
    exact ⟨h, knownAsProperty_optional hd default hasDefault ih.1⟩
  | foreign value =>
    have h : Known d (.foreign value) := by
      intro top top' other _ _ hwritable
      exact (Shape.everywhere_foreign.mp hwritable).2.elim
    exact ⟨h, knownAsProperty_of_known hd id h⟩

/-! ## Acceptance -/

theorem patternIsText_of_plain {shape : Shape} (h : Plain d shape) : shape.PatternIsText := by
  cases shape with
  | string minLength maxLength pattern =>
    rcases h.2.2 with rfl | ⟨-, text, -, rfl⟩ <;> trivial
  | _ => trivial

theorem not_offence {top : Place} {shape : Shape} {construct : Construct}
    (h : ∀ construct, ¬ Contains d top shape construct) : ¬ Offence d top shape construct :=
  fun hoffence => h construct (contains_iff.mpr (Or.inl hoffence))

theorem part_not_contains {top : Place} {shape : Shape} {child : Place × Shape}
    (h : ∀ construct, ¬ Contains d top shape construct) (hchild : child ∈ shape.parts) :
    ∀ construct, ¬ Contains d child.1 child.2 construct :=
  fun construct hcontains => h construct (contains_iff.mpr (Or.inr ⟨child, hchild, hcontains⟩))

/-- What stands at a place where something optional may stand, and offends nowhere, can be
written. Right inside an optional value there may be no other one. -/
theorem writable_of_not_contains {top : Place} {shape : Shape}
    (hplain : Everywhere (fun _ => Plain d) top shape)
    (hnone : ∀ construct, ¬ Contains d top shape construct)
    (htop : top = .inner → ¬ shape.IsOptional) : Everywhere (Writable d) top shape := by
  induction shape generalizing top with
  | string minLength maxLength pattern =>
    exact Shape.everywhere_string.mpr ⟨Shape.everywhere_string.mp hplain, trivial⟩
  | number minimum maximum =>
    exact Shape.everywhere_number.mpr ⟨Shape.everywhere_number.mp hplain, trivial⟩
  | boolean => exact Shape.everywhere_boolean.mpr ⟨trivial, trivial⟩
  | literal value =>
    exact Shape.everywhere_literal.mpr ⟨Shape.everywhere_literal.mp hplain, trivial⟩
  | object properties ih =>
    refine Shape.everywhere_object.mpr ⟨⟨trivial, trivial⟩, ?_⟩
    intro property hproperty
    exact ih property hproperty ((Shape.everywhere_object.mp hplain).2 property hproperty)
      (part_not_contains hnone (List.mem_map_of_mem hproperty)) nofun
  | array items ih =>
    refine Shape.everywhere_array.mpr ⟨⟨trivial, trivial⟩, ?_⟩
    exact ih (Shape.everywhere_array.mp hplain).2 (part_not_contains hnone List.mem_cons_self) nofun
  | union members ih =>
    refine Shape.everywhere_union.mpr ⟨⟨trivial, trivial⟩, ?_⟩
    intro member hmember
    exact ih member hmember ((Shape.everywhere_union.mp hplain).2 member hmember)
      (part_not_contains hnone (List.mem_map_of_mem hmember)) nofun
  | optional inner default hasDefault ih =>
    obtain ⟨hvalues, hinner⟩ := Shape.everywhere_optional.mp hplain
    -- At every other place it would be an offence.
    have hproperty : top = .property := by
      cases top with
      | root => exact absurd (.strayOptional (Or.inl rfl)) (not_offence hnone)
      | property => rfl
      | items => exact absurd (.strayOptional (Or.inr (Or.inl rfl))) (not_offence hnone)
      | member => exact absurd (.strayOptional (Or.inr (Or.inr rfl))) (not_offence hnone)
      | inner => exact absurd trivial (htop rfl)
    subst hproperty
    have honce : ¬ inner.IsOptional := fun h => not_offence hnone (.nestedOptional h)
    refine Shape.everywhere_optional.mpr ⟨⟨hvalues, rfl, honce⟩, ?_⟩
    exact ih hinner (part_not_contains hnone List.mem_cons_self) fun _ => honce
  | foreign value => exact absurd .foreign (not_offence hnone)

/-- **What is written holds only what can be written.** -/
theorem writable_of_ok {unit code : String} {shape : Shape}
    (hplain : Everywhere (fun _ => Plain d) .root shape)
    (h : (renderShape d (.unit unit) shape).outcome = .ok code) :
    Everywhere (Writable d) .root shape := by
  have hanswers := answers_renderShape d unit
    fun place part hpart => patternIsText_of_plain (hplain place part hpart)
  rw [h] at hanswers
  exact writable_of_not_contains hplain hanswers nofun

/-! ## Texts -/

/-- **Plain shapes with the same text are the same.** -/
theorem renderShape_text_injective (hd : d ≠ .arkType) {unit code : String} {shape other : Shape}
    (hplain : Everywhere (fun _ => Plain d) .root shape)
    (hplain' : Everywhere (fun _ => Plain d) .root other)
    (h : (renderShape d (.unit unit) shape).outcome = .ok code)
    (h' : (renderShape d (.unit unit) other).outcome = .ok code) : shape = other := by
  have hwritable := writable_of_ok hplain h
  have hwritable' := writable_of_ok hplain' h'
  -- From texts to trees, and from trees to shapes.
  have htexts : text unit 0 (tree d shape) = text unit 0 (tree d other) :=
    (text_of_renderShape hd h).symm.trans (text_of_renderShape hd h')
  have hprinted := congrArg String.toList htexts
  rw [toList_text, toList_text] at hprinted
  have htrees : tree d shape = tree d other :=
    Script.print_injective (legible_tree hwritable).1 (legible_tree hwritable').1 hprinted
  exact (known_and_knownAsProperty hd shape).1 (not_isOptional hwritable nofun)
    (not_isOptional hwritable' nofun) hwritable hwritable' htrees

/-! ## Defaults -/

theorem optionalEntry_congr (hd : d ≠ .arkType) {default default' : Default}
    (h : default.write = default'.write) (name code : String) (path : Path) :
    optionalEntry d name code (some default) path
      = optionalEntry d name code (some default') path := by
  cases d with
  | arkType => exact absurd rfl hd
  | _ => simp only [optionalEntry, h]

/-- **Of a default no more is written than its text**, and nothing of what says that there is one. -/
theorem renderLine_congr (hd : d ≠ .arkType) {default default' : Default}
    {hasDefault hasDefault' : Json} (hwrite : default.write = default'.write)
    (hshown : hasDefault.isVacant = hasDefault'.isVacant) (i : Indentation) (name : String)
    (inner : Shape) (path : Path) (depth : Nat) :
    renderLine d i name (.optional inner default hasDefault) path depth
      = renderLine d i name (.optional inner default' hasDefault') path depth := by
  by_cases hinner : inner.IsOptional
  · cases inner with
    | optional => rfl
    | _ => exact hinner.elim
  · rw [renderLine_optional hinner, renderLine_optional hinner, hshown]
    cases hasDefault'.isVacant with
    | true => rfl
    | false =>
      have hentry (code : String) := optionalEntry_congr hd hwrite name code (path.child name)
      simp only [Bool.false_eq_true, if_false, hentry]

end SchemaForge.Expression
