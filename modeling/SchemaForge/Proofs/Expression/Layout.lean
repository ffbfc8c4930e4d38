import SchemaForge.Proofs.Expression.Likeness
import SchemaForge.Proofs.Expression.Lines
import SchemaForge.Proofs.Shape.Parts

/-!
# `SchemaForge.Proofs.Expression.Layout` — laying expressions out

What is written for one unit of indentation is written for every unit. Each way in which expressions
are put together is followed here for all units at once: names, literals and defaults are escaped,
patterns are escaped as far as line terminators go, and bounds are numerals, so that the only line
breaks are those between the lines of maps.

ArkType looks at the text of a part to see whether it is a definition. Parts that are definitions are
so for every unit, and stand on one line; parts that are not are compound for every unit.

## Contents
- **Emissions.** `Emission.Gives` for whatever comes out, `Emission.Uniform` for what comes out for
  every unit, with a rule for each way to sequence emissions.
- **Demands.** `Shape.Fits` bounds the characters that a part brings along.
- **Scalars.** `Written` adds ArkType's sorts; `gives_textType` and `gives_numberType`.
- **Expressions.** `written_objectType`, `written_listType`, `written_unionType` and
  `written_enumerationType`.
- **Properties.** `uniform_optionalEntry`, `uniform_line` and `uniform_layout`.
-/

namespace SchemaForge

open Script (isPlain isTerminator IsPlainText)

/-! ## Emissions -/

namespace Emission

variable {α β : Type}

/-- Whether whatever comes out is as the predicate says. -/
def Gives (P : α → Prop) (emission : Emission α) : Prop := ∀ a, emission.outcome = .ok a → P a

theorem gives_pure {P : α → Prop} {a : α} (h : P a) : Gives P (pure a) := by
  intro a' ha
  cases ha
  exact h

theorem gives_fail {P : α → Prop} (e : RenderError) : Gives P (fail e) := by
  intro a ha
  cases ha

theorem gives_orRefuse {P : α → Prop} {d : Dialect} {path : Path} {result : Except Construct α}
    (h : ∀ a, result = .ok a → P a) : Gives P (orRefuse d path result) :=
  fun a ha => h a (outcome_orRefuse_eq_ok_iff.mp ha)

theorem Gives.bind {P : α → Prop} {Q : β → Prop} {first : Emission α} (h : Gives P first)
    {next : α → Emission β} (hnext : ∀ a, P a → Gives Q (next a)) : Gives Q (first >>= next) := by
  intro b hb
  obtain ⟨a, ha, hb⟩ := outcome_bind_eq_ok_iff.mp hb
  exact hnext a (h a ha) b hb

theorem Gives.bind_pure {P : α → Prop} {Q : β → Prop} {first : Emission α} (h : Gives P first)
    {f : α → β} (hf : ∀ a, P a → Q (f a)) : Gives Q (first >>= fun a => pure (f a)) :=
  h.bind fun a ha => gives_pure (hf a ha)

/-- A warning changes nothing of what comes out. -/
theorem gives_warn_bind {P : α → Prop} (w : Warning) {next : Unit → Emission α}
    (h : Gives P (next ())) : Gives P (warn w >>= next) := by
  have hwarn : Gives (fun _ => True) (warn w) := fun _ _ => trivial
  exact hwarn.bind fun _ _ => h

/-- **What comes out for one unit of indentation comes out for every unit**, and as a function of the
unit it is as the predicate says. -/
def Uniform (P : (String → α) → Prop) (emission : String → Emission α) : Prop :=
  ∀ unit a, (emission unit).outcome = .ok a →
    ∃ f, P f ∧ ∀ unit, (emission unit).outcome = .ok (f unit)

/-- What has nothing to do with the unit. -/
theorem uniform_of_gives {P : (String → α) → Prop} {emission : Emission α}
    (h : Gives (fun a => P fun _ => a) emission) : Uniform P fun _ => emission :=
  fun _ a ha => ⟨fun _ => a, h a ha, fun _ => ha⟩

theorem uniform_pure {P : (String → α) → Prop} {f : String → α} (h : P f) :
    Uniform P fun unit => pure (f unit) :=
  fun _ _ _ => ⟨f, h, fun _ => rfl⟩

/-- Nothing comes out of a refusal. -/
theorem uniform_refuse {P : (String → α) → Prop} (d : Dialect) (construct : Construct)
    (path : Path) : Uniform P fun _ => (refuse d construct path : Emission α) := by
  intro unit a ha
  cases ha

theorem Uniform.bind {P : (String → α) → Prop} {Q : (String → β) → Prop}
    {first : String → Emission α} (h : Uniform P first) {next : String → α → Emission β}
    (hnext : ∀ f, P f → Uniform Q fun unit => next unit (f unit)) :
    Uniform Q fun unit => first unit >>= next unit := by
  intro unit b hb
  obtain ⟨a, ha, hb⟩ := outcome_bind_eq_ok_iff.mp hb
  obtain ⟨f, hf, hfirst⟩ := h unit a ha
  -- For this unit the function gives what has come out.
  have hfa : f unit = a := Except.ok.inj ((hfirst unit).symm.trans ha)
  rw [← hfa] at hb
  obtain ⟨g, hg, hlast⟩ := hnext f hf unit b hb
  exact ⟨g, hg, fun unit => outcome_bind_eq_ok_iff.mpr ⟨f unit, hfirst unit, hlast unit⟩⟩

theorem Uniform.bind_pure {P : (String → α) → Prop} {Q : (String → β) → Prop}
    {first : String → Emission α} (h : Uniform P first) {g : String → α → β}
    (hg : ∀ f, P f → Q fun unit => g unit (f unit)) :
    Uniform Q fun unit => first unit >>= fun a => pure (g unit a) :=
  h.bind fun f hf => uniform_pure (hg f hf)

end Emission

/-! ## Demands -/

/-- Whether bounds are null or numbers. -/
def Shape.NumericBounds : Shape → Prop
  | .string minLength maxLength _ => minLength.IsNullOrNumber ∧ maxLength.IsNullOrNumber
  | .number minimum maximum => minimum.IsNullOrNumber ∧ maximum.IsNullOrNumber
  | .boolean | .literal _ | .object _ | .array _ | .union _ | .optional .. | .foreign _ => True

/-- Whether the characters of a pattern are among the raw ones, if they do not end a line. -/
def Shape.PatternWithin (raw : Char → Prop) : Shape → Prop
  | .string _ _ (.str pattern) => ∀ c ∈ pattern.toList, isTerminator c = false → raw c
  | _ => True

/-- Whether bounds are numbers and a pattern is of raw characters. TypeBox's patterns are JSON, so
there they are escaped. -/
def Shape.Fits (d : Dialect) (raw : Char → Prop) (shape : Shape) : Prop :=
  shape.NumericBounds ∧ (d ≠ .typeBox → shape.PatternWithin raw)

namespace Expression

open Emission (Gives Uniform gives_pure gives_fail gives_orRefuse gives_warn_bind uniform_of_gives
  uniform_pure)

variable {d : Dialect} {raw : Char → Prop} {n : Nat} {code : String → String}

theorem laidOut_write (value : Json) : LaidOut raw 0 fun _ => value.write := by
  refine .plain ?_
  rw [Json.write, String.toList_ofList]
  exact Script.isPlainText_encode value

theorem laidOut_default (default : Default) : LaidOut raw 0 fun _ => default.write := by
  cases default with
  | json value => exact laidOut_write value
  | surrogates text =>
    refine .plain ?_
    rw [Default.write, String.toList_ofList]
    exact Script.isPlainText_of_isPrintableText (Json.isPrintableText_quotePoints text.points)
  | tuple values => exact laidOut_write (.arr values)

theorem laidOut_doubleQuoted (text : String) : LaidOut raw 0 fun _ => Script.doubleQuoted text :=
  .plain (Script.isPlainText_doubleQuoted text)

/-- Whether the arguments of demands are laid out, each on one line. -/
def Arguments (raw : Char → Prop) (demands : Demands) : Prop :=
  ∀ demand ∈ demands, LaidOut raw 0 fun _ => demand.2

theorem arguments_lengthDemands {minLength maxLength : Json} (hmin : minLength.IsNullOrNumber)
    (hmax : maxLength.IsNullOrNumber) : Arguments raw (lengthDemands minLength maxLength) := by
  have hbound {demand : Demand} {bound : Json} (hbound : bound.IsNullOrNumber) :
      Arguments raw (if bound.isNull then [] else [(demand, bound.display)]) := by
    split
    · exact nofun
    · exact List.forall_mem_singleton.mpr
        (.plain (Script.isPlainText_of_isNumeralText (Script.isNumeralText_display hbound)))
  exact List.forall_mem_append.mpr ⟨hbound hmin, hbound hmax⟩

/-- A regular expression is compound: it begins with a slash. -/
theorem isCompound_regexLiteral (pattern : String) :
    Script.IsCompound (Script.regexLiteral pattern) :=
  Script.isCompound_of_head (c := '/') (by rw [Script.regexLiteral, String.toList_ofList]; rfl) rfl
    (by decide)

/-- A regular expression is laid out when its pattern is of raw characters. -/
theorem gives_patternLiteral {minLength maxLength pattern : Json}
    (h : (Shape.string minLength maxLength pattern).PatternWithin raw) :
    Gives (fun code => (LaidOut raw 0 fun _ => code) ∧ Script.IsCompound code)
      (patternLiteral pattern) := by
  cases pattern with
  | str pattern =>
    refine gives_pure ⟨.text fun c hc => ?_, isCompound_regexLiteral pattern⟩
    exact (Script.mem_regexLiteral hc).imp_right fun hc => h c hc.2 hc.1
  | _ => exact gives_fail .patternNotText

theorem gives_textDemands {minLength maxLength pattern : Json}
    (h : (Shape.string minLength maxLength pattern).Fits d raw) :
    Gives (Arguments raw) (textDemands d minLength maxLength pattern) := by
  have hlengths : Arguments raw (lengthDemands minLength maxLength) :=
    arguments_lengthDemands h.1.1 h.1.2
  have hwith (argument : String) (hargument : LaidOut raw 0 fun _ => argument) :
      Arguments raw (lengthDemands minLength maxLength ++ [(.pattern, argument)]) :=
    List.forall_mem_append.mpr ⟨hlengths, List.forall_mem_singleton.mpr hargument⟩
  unfold textDemands
  split
  · exact gives_pure hlengths
  · dsimp only
    split
    · have hjson : Gives (fun argument => LaidOut raw 0 fun _ => argument)
          (pure pattern.write : Emission String) := gives_pure (laidOut_write pattern)
      exact hjson.bind_pure hwith
    · next hd =>
      exact (gives_patternLiteral (h.2 hd)).bind_pure fun argument hargument =>
        hwith argument hargument.1

theorem gives_boundDemand {bound : Json} (hbound : bound.IsNullOrNumber) (demand : Demand)
    (path : Path) : Gives (Arguments raw) (boundDemand d demand bound path) := by
  unfold boundDemand
  split
  · exact gives_pure nofun
  · refine (gives_orRefuse fun text hok => Script.isNumeralText_number hbound hok).bind_pure
      fun text htext => ?_
    exact List.forall_mem_singleton.mpr (.plain (Script.isPlainText_of_isNumeralText htext))

theorem gives_numberDemands {minimum maximum : Json}
    (h : (Shape.number minimum maximum).NumericBounds) (path : Path) :
    Gives (Arguments raw) (numberDemands d minimum maximum path) :=
  (gives_boundDemand h.1 .minimum path).bind fun _ hlower =>
    (gives_boundDemand h.2 .maximum path).bind_pure fun _ hupper =>
      List.forall_mem_append.mpr ⟨hlower, hupper⟩

section

variable {base : String} {demands : Demands}

theorem laidOut_chained (hbase : LaidOut raw 0 fun _ => base) (h : Arguments raw demands) :
    LaidOut raw 0 fun _ => chained base demands := by
  induction demands generalizing base with
  | nil => exact hbase
  | cons demand rest ih =>
    obtain ⟨hfirst, hrest⟩ := List.forall_mem_cons.mp h
    have hname : IsPlainText ("." ++ demand.1.zodName).toList := by cases demand.1 <;> decide
    exact ih (hbase.append (.call_one hname hfirst)) hrest

theorem laidOut_wrapped (hbase : LaidOut raw 0 fun _ => base) (h : Arguments raw demands) :
    LaidOut raw 0 fun _ => wrapped base demands := by
  induction demands generalizing base with
  | nil => exact hbase
  | cons demand rest ih =>
    obtain ⟨hfirst, hrest⟩ := List.forall_mem_cons.mp h
    have hname : IsPlainText ("z." ++ demand.1.zodName).toList := by cases demand.1 <;> decide
    exact ih (.call_two hname hbase hfirst) hrest

theorem laidOut_piped (hbase : LaidOut raw 0 fun _ => base) (h : Arguments raw demands) :
    LaidOut raw 0 fun _ => piped base demands := by
  unfold piped
  split
  · exact hbase
  · refine .call (by decide) (Pieces.of_texts ?_)
    refine List.forall_mem_cons.mpr ⟨hbase, List.forall_mem_map.mpr fun demand hdemand => ?_⟩
    have hname : IsPlainText ("v." ++ demand.1.valibotName).toList := by cases demand.1 <;> decide
    exact .call_one hname (h demand hdemand)

theorem pieces_options (h : Arguments raw demands) :
    Pieces (LaidOut raw) 0 fun _ => options demands := by
  unfold options
  split
  · exact .nil
  · refine Pieces.of_texts (List.forall_mem_singleton.mpr ?_)
    have hfields : Pieces (LaidOut raw) 0
        fun _ => demands.map fun demand => demand.1.keyword ++ ": " ++ demand.2 := by
      refine Pieces.of_texts (List.forall_mem_map.mpr fun demand hdemand => ?_)
      have hname : IsPlainText (demand.1.keyword ++ ": ").toList := by cases demand.1 <;> decide
      exact (h demand hdemand).behind hname
    exact ((LaidOut.intercalate (by decide) hfields).behind (by decide)).before (by decide)

end

/-! ## Scalars -/

/-- Whether code is a definition, on one line and the same for every unit, or compound for every
unit. -/
def OneSort (n : Nat) (code : String → String) : Prop :=
  (n = 0 ∧ ∃ text, ∀ unit, code unit = Script.doubleQuoted text) ∨
    ∀ unit, Script.IsCompound (code unit)

/-- **Layout of expressions**: in ArkType they are also of one sort. -/
def Written (d : Dialect) (raw : Char → Prop) (n : Nat) (code : String → String) : Prop :=
  LaidOut raw n code ∧ (d = .arkType → OneSort n code)

theorem written_of_ne (hd : d ≠ .arkType) (h : LaidOut raw n code) : Written d raw n code :=
  ⟨h, fun heq => absurd heq hd⟩

/-- A definition is laid out, whatever it says. -/
theorem written_doubleQuoted (text : String) :
    Written d raw 0 fun _ => Script.doubleQuoted text :=
  ⟨laidOut_doubleQuoted text, fun _ => Or.inl ⟨rfl, text, fun _ => rfl⟩⟩

theorem written_of_isCompound (h : LaidOut raw n code)
    (hcompound : ∀ unit, Script.IsCompound (code unit)) : Written d raw n code :=
  ⟨h, fun _ => Or.inr hcompound⟩

/-- Outside of ArkType, demands are attached in some way. -/
theorem gives_attached (hd : d ≠ .arkType) {demands : Emission Demands}
    (h : Gives (Arguments raw) demands) (attach : Demands → String)
    (hattach : ∀ demands, Arguments raw demands → LaidOut raw 0 fun _ => attach demands) :
    Gives (fun code => Written d raw 0 fun _ => code)
      (demands >>= fun demands => pure (attach demands)) :=
  h.bind_pure fun demands hdemands => written_of_ne hd (hattach demands hdemands)

theorem gives_textType {minLength maxLength pattern : Json}
    (h : (Shape.string minLength maxLength pattern).Fits d raw) (path : Path) :
    Gives (fun code => Written d raw 0 fun _ => code)
      (textType d minLength maxLength pattern path) := by
  have hdemands : Gives (Arguments raw) (textDemands d minLength maxLength pattern) :=
    gives_textDemands h
  cases d with
  | zod =>
    exact gives_attached (by decide) hdemands (chained "z.string()") fun _ =>
      laidOut_chained (.plain (by decide))
  | zodMini =>
    exact gives_attached (by decide) hdemands (wrapped "z.string()") fun _ =>
      laidOut_wrapped (.plain (by decide))
  | valibot =>
    exact gives_attached (by decide) hdemands (piped "v.string()") fun _ =>
      laidOut_piped (.plain (by decide))
  | typeBox =>
    exact gives_attached (by decide) hdemands (fun demands => call "Type.String" (options demands))
      fun _ h => .call (by decide) (pieces_options h)
  | arkType =>
    show Gives _ (arkTypeText minLength maxLength pattern path)
    unfold arkTypeText
    split
    · exact gives_pure (written_doubleQuoted _)
    · split
      · intro code hcode
        obtain ⟨hlaid, hcompound⟩ := gives_patternLiteral (h.2 (by decide)) code hcode
        exact written_of_isCompound hlaid fun _ => hcompound
      · exact gives_fail _

theorem gives_numberType {minimum maximum : Json}
    (h : (Shape.number minimum maximum).NumericBounds) (path : Path) :
    Gives (fun code => Written d raw 0 fun _ => code) (numberType d minimum maximum path) := by
  have hdemands : Gives (Arguments raw) (numberDemands d minimum maximum path) :=
    gives_numberDemands h path
  cases d with
  | zod =>
    exact gives_attached (by decide) hdemands (chained "z.number()") fun _ =>
      laidOut_chained (.plain (by decide))
  | zodMini =>
    exact gives_attached (by decide) hdemands (wrapped "z.number()") fun _ =>
      laidOut_wrapped (.plain (by decide))
  | valibot =>
    exact gives_attached (by decide) hdemands (piped "v.number()") fun _ =>
      laidOut_piped (.plain (by decide))
  | typeBox =>
    exact gives_attached (by decide) hdemands (fun demands => call "Type.Number" (options demands))
      fun _ h => .call (by decide) (pieces_options h)
  | arkType =>
    have hlower : Gives (fun code => Written .arkType raw 0 fun _ => code)
        (if minimum.isNull then pure (Script.doubleQuoted "number") else do
          let bound ← .orRefuse .arkType path (Script.number minimum)
          return Script.doubleQuoted ("number >= " ++ bound)) := by
      split
      · exact gives_pure (written_doubleQuoted _)
      · have hany : Gives (fun _ => True) (.orRefuse .arkType path (Script.number minimum)) :=
          fun _ _ => trivial
        exact hany.bind_pure fun bound _ => written_doubleQuoted _
    unfold numberType arkTypeNumber
    cases maximum.isNull with
    | true => exact hlower
    | false => exact gives_warn_bind _ hlower

theorem written_booleanType (d : Dialect) : Written d raw 0 fun _ => booleanType d := by
  cases d with
  | arkType => exact written_doubleQuoted _
  | _ => exact written_of_ne (by decide) (.plain (by decide))

/-- A literal is plain: only texts could be anything else, and they are escaped. -/
theorem isPlainText_literal {value : Json} {text : String} (hok : Script.literal value = .ok text) :
    IsPlainText text.toList := by
  rcases Script.numeral_or_quoted hok with ⟨-, hnumeral⟩ | ⟨s, -, rfl⟩
  · exact Script.isPlainText_of_isNumeralText hnumeral
  · exact Script.isPlainText_singleQuoted s

theorem isPlainText_literals {values : List Json} {texts : List String}
    (hok : values.mapM Script.literal = .ok texts) : ∀ text ∈ texts, IsPlainText text.toList := by
  have hliterals := Script.forall₂_of_mapM_literal hok
  clear hok
  induction hliterals with
  | nil => exact nofun
  | cons hfirst _ ih => exact List.forall_mem_cons.mpr ⟨isPlainText_literal hfirst, ih⟩

theorem written_literalType {text : String} (h : IsPlainText text.toList) :
    Written d raw 0 fun _ => literalType d text := by
  cases d with
  | arkType => exact written_doubleQuoted _
  | _ => exact written_of_ne (by decide) (.call_one (by decide) (.plain h))

/-! ## Expressions -/

theorem written_objectType (d : Dialect) (h : LaidOut raw n code) :
    Written d raw n fun unit => objectType d (code unit) := by
  cases d with
  | arkType =>
    exact written_of_isCompound (.call_one (by decide) h) fun unit =>
      isCompound_objectType (code unit)
  | _ => exact written_of_ne (by decide) (.call_one (by decide) h)

theorem written_listType (d : Dialect) (isUnion : Bool) (h : Written d raw n code) :
    Written d raw n fun unit => listType d isUnion (code unit) := by
  cases d with
  | arkType =>
    show Written .arkType raw n fun unit => listDefinition isUnion (code unit)
    unfold listDefinition
    -- A definition is extended inside its quotes, anything else is grouped.
    rcases h.2 rfl with ⟨rfl, text, hcode⟩ | hcode
    · simp only [hcode, Script.definition?_doubleQuoted]
      exact written_doubleQuoted _
    · simp only [(hcode _).definition?_eq_none]
      exact written_of_isCompound ((h.1.behind (by decide)).before (by decide))
        fun unit => isCompound_grouped (code unit)
  | _ => exact written_of_ne (by decide) (.call_one (by decide) h.1)

/-- Members are all definitions, or there is a compound one among them. -/
theorem Pieces.definitions_or_compound {members : String → List String}
    (h : Pieces OneSort n members) :
    (n = 0 ∧ ∃ texts : List String, ∀ unit, members unit = texts.map Script.doubleQuoted) ∨
      ∀ unit, (∀ member ∈ members unit, Script.IsDefinition member ∨ Script.IsCompound member) ∧
        ∃ member ∈ members unit, Script.IsCompound member := by
  induction h with
  | nil => exact Or.inl ⟨rfl, [], fun _ => rfl⟩
  | @cons _ _ code pieces hfirst _ ih =>
    have hrest (unit : String) :
        ∀ member ∈ pieces unit, Script.IsDefinition member ∨ Script.IsCompound member := by
      rcases ih with ⟨-, texts, htexts⟩ | hsorts
      · rw [htexts]
        exact List.forall_mem_map.mpr fun text _ => Or.inl (Script.isDefinition_doubleQuoted text)
      · exact (hsorts unit).1
    rcases hfirst with ⟨rfl, text, htext⟩ | hcompound
    · rcases ih with ⟨rfl, texts, htexts⟩ | hsorts
      · refine Or.inl ⟨rfl, text :: texts, fun unit => ?_⟩
        rw [List.map_cons, ← htext unit, ← htexts unit]
      · refine Or.inr fun unit => ⟨?_, ?_⟩
        · exact List.forall_mem_cons.mpr ⟨Or.inl ⟨text, htext unit⟩, hrest unit⟩
        obtain ⟨member, hmember, hcompound⟩ := (hsorts unit).2
        exact ⟨member, List.mem_cons_of_mem _ hmember, hcompound⟩
    · exact Or.inr fun unit =>
        ⟨List.forall_mem_cons.mpr ⟨Or.inr (hcompound unit), hrest unit⟩,
          code unit, List.mem_cons_self, hcompound unit⟩

theorem written_unionType (d : Dialect) {members : String → List String}
    (h : Pieces (Written d raw) n members) :
    Written d raw n fun unit => unionType d (members unit) := by
  have hlaid : Pieces (LaidOut raw) n members := h.imp fun _ _ hmember => hmember.1
  cases d with
  | arkType =>
    show Written .arkType raw n fun unit => alternatives (members unit)
    unfold alternatives
    -- One compound member is enough for the bars to be operators, for every unit.
    rcases (h.imp fun _ _ hmember => hmember.2 rfl).definitions_or_compound with
      ⟨rfl, texts, htexts⟩ | hsorts
    · simp only [htexts, Script.mapM_definition?_doubleQuoted]
      exact written_doubleQuoted _
    · have hnone (unit : String) : (members unit).mapM Script.definition? = none := by
        obtain ⟨member, hmember, hcompound⟩ := (hsorts unit).2
        exact Script.mapM_definition?_eq_none hmember hcompound
      simp only [hnone]
      refine written_of_isCompound (.intercalate (by decide) hlaid) fun unit => ?_
      obtain ⟨hsort, member, hmember, hcompound⟩ := hsorts unit
      exact Script.isCompound_alternatives hsort hmember hcompound
  | _ => exact written_of_ne (by decide) (.call_one (by decide) (.bracketed hlaid))

theorem written_enumerationType (d : Dialect) (kind : LiteralKind) {literals : List String}
    (h : ∀ literal ∈ literals, IsPlainText literal.toList) :
    Written d raw 0 fun _ => enumerationType d kind literals := by
  have hunion (d : Dialect) :
      Written d raw 0 fun _ => unionType d (literals.map (literalType d)) :=
    written_unionType d (Pieces.of_texts (List.forall_mem_map.mpr fun literal hliteral =>
      written_literalType (h literal hliteral)))
  have hset {function : String} (hfunction : IsPlainText function.toList) :
      LaidOut raw 0 fun _ => call function [bracketed literals] :=
    .call_one hfunction (.bracketed (Pieces.of_texts fun literal hliteral =>
      .plain (h literal hliteral)))
  cases d with
  | zod => cases kind <;> exact written_of_ne (by decide) (hset (by decide))
  | zodMini => cases kind <;> exact written_of_ne (by decide) (hset (by decide))
  | valibot =>
    cases kind with
    | boolean => exact hunion .valibot
    | string => exact written_of_ne (by decide) (hset (by decide))
    | number => exact written_of_ne (by decide) (hset (by decide))
  | typeBox => exact hunion .typeBox
  | arkType => exact hunion .arkType

/-! ## Properties -/

/-- Whether the code of a property is laid out, and its key is the same for every unit. -/
def EntryLaidOut (raw : Char → Prop) (n : Nat) (entry : String → Entry) : Prop :=
  (∃ key, ∀ unit, (entry unit).key = key) ∧ LaidOut raw n fun unit => (entry unit).code

theorem uniform_optionalEntry (d : Dialect) (h : LaidOut raw n code) (name : String)
    (default? : Option Default) (path : Path) :
    Uniform (EntryLaidOut raw n) fun unit => optionalEntry d name (code unit) default? path := by
  have hkeyed (key : String) {code : String → String} (h : LaidOut raw n code) :
      Uniform (EntryLaidOut raw n) fun unit => pure { key, code := code unit } :=
    uniform_pure ⟨⟨key, fun _ => rfl⟩, h⟩
  cases default? with
  | none =>
    cases d with
    | zod => exact hkeyed name (h.before (by decide))
    | arkType => exact hkeyed (name ++ "?") h
    | _ => exact hkeyed name (.call_one (by decide) h)
  | some default =>
    have hvalue : LaidOut raw 0 fun _ => default.write := laidOut_default default
    cases d with
    | zod => exact hkeyed name (h.append (.call_one (by decide) hvalue))
    | zodMini => exact hkeyed name (.call_two (by decide) h hvalue)
    | valibot => exact hkeyed name (.call_two (by decide) h hvalue)
    | typeBox =>
      have hextended := (((h.behind (by decide : IsPlainText "\x7b ...".toList)).before
        (by decide : IsPlainText ", default: ".toList)).append hvalue).before
          (by decide : IsPlainText " \x7d".toList)
      exact hkeyed name (.call_one (by decide) hextended)
    | arkType =>
      have hwarn : Uniform (fun _ => True)
          fun _ => Emission.warn (.droppedDefault default path) := fun _ _ _ =>
        ⟨fun _ => (), trivial, fun _ => rfl⟩
      exact hwarn.bind fun _ _ => hkeyed (name ++ "?") h

theorem uniform_line (depth : Nat) {entry : String → Entry} (h : EntryLaidOut raw n entry) :
    Uniform (LaidOut.AsLine raw (n + 1)) fun unit => line (.unit unit) depth (entry unit) := by
  obtain ⟨⟨key, hkey⟩, hcode⟩ := h
  have hquoted : IsPlainText (Script.doubleQuoted key ++ ": ").toList := by
    rw [String.toList_append]
    exact Script.isPlainText_append (Script.isPlainText_doubleQuoted key) (by decide)
  refine uniform_pure ((LaidOut.asLine depth (hcode.behind hquoted)).congr rfl fun unit => ?_)
  simp only [hkey, String.append_assoc]

theorem uniform_layout (depth : Nat) {lines : String → List String}
    (h : Pieces (LaidOut.AsLine raw) n lines) (hne : ∀ unit, lines unit ≠ []) :
    Uniform (LaidOut raw (n + 1)) fun unit => layout (.unit unit) depth (lines unit) := by
  have hlayout (unit : String) : layout (.unit unit) depth (lines unit)
      = pure ("\x7b\n" ++ ",\n".intercalate (lines unit) ++ "\n" ++ repeated unit depth ++ "\x7d") := by
    unfold layout
    split
    · next hnil => exact absurd hnil (hne unit)
    · rfl
  simp only [hlayout]
  exact uniform_pure (.map depth h hne)

end Expression

end SchemaForge
