import SchemaForge.Expression.Render
import SchemaForge.Proofs.Script.Definition
import SchemaForge.Proofs.Script.Lexing
import SchemaForge.Proofs.Script.Scalar
import SchemaForge.Proofs.Shape.Texts

/-!
# `SchemaForge.Proofs.Expression.Likeness` — writing the same with other texts

Each way in which expressions are put together is followed here for two runs at once, of which the
second one may be given other texts: likeness of the parts makes for likeness of the whole. ArkType
also looks at whether parts are definitions, so its parts have to be of the same sort, too.

## Contents
- **Emissions.** `Emission.Relates` relates what comes out of two emissions, with a rule for each way
  to sequence them.
- **Code.** `AlikeCode`, for code as strings, and its rules for calls, lists and brackets.
- **Values.** `alike_encode` for JSON, `alikeCode_default` for defaults, `alikeCode_literal` and
  `alikeCode_literals` for literals.
- **Scalars.** `relates_textType` and `relates_numberType`.
- **Expressions.** `Matches` adds the sort; `matches_objectType`, `matches_listType`,
  `matches_unionType` and `matches_enumerationType`.
-/

namespace SchemaForge

/-! ## Emissions -/

namespace Emission

variable {α β γ δ : Type} {R : α → γ → Prop}

/-- **Whatever comes out of the first emission is related to what comes out of the second**, which
then is not refused. -/
def Relates (R : α → γ → Prop) (first : Emission α) (second : Emission γ) : Prop :=
  ∀ a, first.outcome = .ok a → ∃ c, second.outcome = .ok c ∧ R a c

theorem relates_pure {a : α} {c : γ} (h : R a c) : Relates R (pure a) (pure c) := by
  intro a' ha
  cases ha
  exact ⟨c, rfl, h⟩

/-- Nothing comes out of a refusal. -/
theorem relates_refuse (d : Dialect) (construct : Construct) (path : Path) (second : Emission γ) :
    Relates R (refuse d construct path) second := by
  intro a ha
  cases ha

theorem relates_orRefuse {d : Dialect} {path path' : Path} {result : Except Construct α}
    {result' : Except Construct γ} (h : ∀ a, result = .ok a → ∃ c, result' = .ok c ∧ R a c) :
    Relates R (orRefuse d path result) (orRefuse d path' result') := by
  intro a ha
  obtain ⟨c, hc, hR⟩ := h a (outcome_orRefuse_eq_ok_iff.mp ha)
  exact ⟨c, outcome_orRefuse_eq_ok_iff.mpr hc, hR⟩

/-- Sequences are related part by part. -/
theorem Relates.bind {S : β → δ → Prop} {first : Emission α} {second : Emission γ}
    (h : Relates R first second) {next : α → Emission β} {next' : γ → Emission δ}
    (hnext : ∀ a c, R a c → Relates S (next a) (next' c)) :
    Relates S (first >>= next) (second >>= next') := by
  intro b hb
  obtain ⟨a, ha, hb⟩ := outcome_bind_eq_ok_iff.mp hb
  obtain ⟨c, hc, hR⟩ := h a ha
  obtain ⟨e, he, hS⟩ := hnext a c hR b hb
  exact ⟨e, outcome_bind_eq_ok_iff.mpr ⟨c, hc, he⟩, hS⟩

/-- What comes out is changed on both sides. -/
theorem Relates.bind_pure {S : β → δ → Prop} {first : Emission α} {second : Emission γ}
    (h : Relates R first second) {f : α → β} {g : γ → δ} (hfg : ∀ a c, R a c → S (f a) (g c)) :
    Relates S (first >>= fun a => pure (f a)) (second >>= fun c => pure (g c)) :=
  h.bind fun a c hR => relates_pure (hfg a c hR)

/-- A warning changes nothing of what comes out. -/
theorem relates_warn_bind (w w' : Warning) {next : Unit → Emission α} {next' : Unit → Emission γ}
    (h : Relates R (next ()) (next' ())) : Relates R (warn w >>= next) (warn w' >>= next') := by
  have hwarn : Relates (fun _ _ => True) (warn w) (warn w') := by
    intro u _
    exact ⟨u, rfl, trivial⟩
  exact hwarn.bind fun _ _ _ => h

end Emission

namespace Expression

open Emission (Relates relates_pure relates_orRefuse relates_warn_bind)
open Script (Alike SameSort closer?)

/-! ## Code -/

/-- Likeness of code. -/
def AlikeCode (strict : Bool) (code other : String) : Prop := Alike strict code.toList other.toList

variable {strict : Bool} {code code' other other' : String}

/-- A piece of code that is on both sides. -/
theorem AlikeCode.same (h : Script.IsClosed code.toList) : AlikeCode strict code code :=
  Alike.same h

theorem AlikeCode.append (h : AlikeCode strict code other) (h' : AlikeCode strict code' other') :
    AlikeCode strict (code ++ code') (other ++ other') := by
  rw [AlikeCode, String.toList_append, String.toList_append]
  exact Alike.append h h'

/-- Code in brackets, whatever else makes up the text around it. -/
theorem AlikeCode.enclose {opener closer : Char} (hpair : closer? opener = some closer)
    (h : AlikeCode strict code other) (hcode : code'.toList = opener :: (code.toList ++ [closer]))
    (hother : other'.toList = opener :: (other.toList ++ [closer])) :
    AlikeCode strict code' other' := by
  rw [AlikeCode, hcode, hother]
  exact Alike.enclose hpair h

theorem AlikeCode.intercalate {sep : String} (hsep : AlikeCode strict sep sep)
    {pieces others : List String} (h : List.Forall₂ (AlikeCode strict) pieces others) :
    AlikeCode strict (sep.intercalate pieces) (sep.intercalate others) := by
  rw [AlikeCode, String.toList_intercalate, String.toList_intercalate]
  refine Alike.intercalate hsep ?_
  rw [List.forall₂_map_left_iff, List.forall₂_map_right_iff]
  exact h

theorem alikeCode_comma : AlikeCode strict ", " ", " := .same (by decide)

/-- A call of a function that is on both sides. -/
theorem alikeCode_call {function : String} (hfunction : AlikeCode strict function function)
    {arguments others : List String} (h : List.Forall₂ (AlikeCode strict) arguments others) :
    AlikeCode strict (call function arguments) (call function others) := by
  rw [call, call, String.append_assoc, String.append_assoc, String.append_assoc,
    String.append_assoc]
  refine hfunction.append ((alikeCode_comma.intercalate h).enclose
    (show closer? '(' = some ')' from rfl) ?_ ?_)
  · simp [String.toList_append]
  · simp [String.toList_append]

theorem alikeCode_bracketed {items others : List String}
    (h : List.Forall₂ (AlikeCode strict) items others) :
    AlikeCode strict (bracketed items) (bracketed others) := by
  refine (alikeCode_comma.intercalate h).enclose (show closer? '[' = some ']' from rfl) ?_ ?_
  · simp [bracketed, String.toList_append]
  · simp [bracketed, String.toList_append]

theorem alikeCode_doubleQuoted (text text' : String) :
    AlikeCode strict (Script.doubleQuoted text) (Script.doubleQuoted text') := by
  have hreads (c : Char) : Script.Reads '"' (Script.escape c) [c.toNat] :=
    Script.reads_escape (Or.inr rfl)
  rw [AlikeCode, Script.doubleQuoted, Script.doubleQuoted, String.toList_ofList,
    String.toList_ofList]
  exact Script.alike_literal rfl (Script.hidden_flatMap rfl hreads text.toList)
    (Script.hidden_flatMap rfl hreads text'.toList)

theorem alikeCode_singleQuoted (text text' : String) :
    AlikeCode strict (Script.singleQuoted text) (Script.singleQuoted text') := by
  rw [AlikeCode, Script.singleQuoted, Script.singleQuoted, String.toList_ofList,
    String.toList_ofList]
  exact Script.alike_literal rfl (Script.hidden_flatMap rfl Script.reads_escapeSingle text.toList)
    (Script.hidden_flatMap rfl Script.reads_escapeSingle text'.toList)

/-! ## Values -/

theorem isBare_of_isNumeralChar {c : Char} (h : isNumeralChar c = true) : Script.IsBare c := by
  have hne (other : Char) (hother : isNumeralChar other = false) : c ≠ other := by
    rintro rfl
    exact absurd h (by simp [hother])
  simp [Script.IsBare, Script.isQuote, closer?, Script.isEnd, hne '"' rfl, hne '\'' rfl,
    hne '(' rfl, hne ')' rfl, hne '[' rfl, hne ']' rfl, hne '\x7b' rfl, hne '\x7d' rfl]

/-- The text of a number is on both sides. -/
theorem alike_of_isNumeralText {text : List Char} (h : IsNumeralText text) :
    Alike strict text text :=
  Script.alike_of_bare fun c hc => isBare_of_isNumeralChar (h c hc)

theorem alike_quotePoints (points points' : List Text.CodePoint) :
    Alike strict (Json.quotePoints points) (Json.quotePoints points') :=
  Script.alike_literal rfl (Script.hidden_flatMap rfl Script.reads_escapePoint points)
    (Script.hidden_flatMap rfl Script.reads_escapePoint points')

theorem alike_quoteAscii (text text' : List Char) :
    Alike strict (Json.quoteAscii text) (Json.quoteAscii text') :=
  alike_quotePoints _ _

/-- **JSON text without its texts.** -/
theorem alike_encode (value : Json) :
    Alike strict value.encode value.withoutTexts.encode := by
  have hcomma : Alike strict [',', ' '] [',', ' '] := .same (by decide)
  induction value with
  | null => exact alike_of_isNumeralText (by decide)
  | bool b => cases b <;> exact alike_of_isNumeralText (by decide)
  | int n => exact alike_of_isNumeralText (Script.isNumeralText_intText n)
  | float x => exact alike_of_isNumeralText (Script.isNumeralText_floatText x)
  | str s => exact alike_quoteAscii s.toList "".toList
  | arr items ih =>
    rw [Json.withoutTexts, Json.itemsWithoutTexts_eq_map, Json.encode, Json.encode,
      Json.encodeItems_eq_intercalate, Json.encodeItems_eq_intercalate]
    refine Alike.enclose rfl (hcomma.intercalate ?_)
    rw [List.map_map, List.forall₂_map_left_iff, List.forall₂_map_right_iff, List.forall₂_same]
    exact ih
  | obj members ih =>
    rw [Json.withoutTexts, Json.membersWithoutTexts_eq_map, Json.encode, Json.encode,
      Json.encodeMembers_eq_intercalate, Json.encodeMembers_eq_intercalate]
    refine Alike.enclose rfl (hcomma.intercalate ?_)
    rw [List.map_map, List.forall₂_map_left_iff, List.forall₂_map_right_iff, List.forall₂_same]
    intro member hmember
    have hcolon : Alike strict [':', ' '] [':', ' '] := .same (by decide)
    exact (alike_quoteAscii member.1.toList "".toList).append (hcolon.append (ih member hmember))

theorem alikeCode_write (value : Json) :
    AlikeCode strict value.write value.withoutTexts.write := by
  rw [AlikeCode, Json.write, Json.write, String.toList_ofList, String.toList_ofList]
  exact alike_encode value

/-- A default is written with any texts in their places. -/
theorem alikeCode_default (default : Default) :
    AlikeCode strict default.write default.withoutTexts.write := by
  cases default with
  | json value => exact alikeCode_write value
  | surrogates text =>
    show Alike strict (String.ofList _).toList (String.ofList _).toList
    rw [String.toList_ofList, String.toList_ofList]
    exact alike_quotePoints text.points _
  | tuple values => exact alikeCode_write (.arr values)

/-- There is no text in a number to be taken out. -/
theorem withoutTexts_of_isNullOrNumber {value : Json} (h : value.IsNullOrNumber) :
    value.withoutTexts = value := by
  cases value with
  | str s => exact h.elim
  | arr items => exact h.elim
  | obj members => exact h.elim
  | _ => rfl

/-- A literal is written with any text in its place. -/
theorem alikeCode_literal {value : Json} {text : String} (hok : Script.literal value = .ok text) :
    ∃ other, Script.literal value.withoutTexts = .ok other ∧ AlikeCode strict text other := by
  rcases Script.numeral_or_quoted hok with ⟨hvalue, hnumeral⟩ | ⟨s, rfl, rfl⟩
  · refine ⟨text, ?_, alike_of_isNumeralText hnumeral⟩
    rwa [withoutTexts_of_isNullOrNumber hvalue]
  · exact ⟨_, rfl, alikeCode_singleQuoted s ""⟩

/-- The literals of an enumeration, likewise. -/
theorem alikeCode_literals {values : List Json} {texts : List String}
    (hok : values.mapM Script.literal = .ok texts) :
    ∃ others, (values.map Json.withoutTexts).mapM Script.literal = .ok others ∧
      List.Forall₂ (AlikeCode strict) texts others := by
  have hliterals := Script.forall₂_of_mapM_literal hok
  clear hok
  induction hliterals with
  | nil => exact ⟨[], rfl, .nil⟩
  | cons hfirst _ ih =>
    obtain ⟨other, hother, halike⟩ := alikeCode_literal hfirst
    obtain ⟨others, hothers, halikes⟩ := ih
    refine ⟨other :: others, ?_, .cons halike halikes⟩
    rw [List.map_cons, List.mapM_cons, hother, hothers]
    rfl

/-! ## Demands -/

/-- Demands that are on both sides. -/
def SameDemands (strict : Bool) (demands others : Demands) : Prop :=
  demands = others ∧ ∀ demand ∈ demands, AlikeCode strict demand.2 demand.2

theorem sameDemands_lengthDemands {minLength maxLength : Json} (hmin : minLength.IsNullOrNumber)
    (hmax : maxLength.IsNullOrNumber) :
    SameDemands strict (lengthDemands minLength maxLength) (lengthDemands minLength maxLength) := by
  refine ⟨rfl, fun demand hdemand => ?_⟩
  rw [lengthDemands, List.mem_append] at hdemand
  rcases hdemand with hdemand | hdemand
  · split at hdemand
    · exact absurd hdemand List.not_mem_nil
    · rw [List.mem_singleton.mp hdemand]
      exact alike_of_isNumeralText (Script.isNumeralText_display hmin)
  · split at hdemand
    · exact absurd hdemand List.not_mem_nil
    · rw [List.mem_singleton.mp hdemand]
      exact alike_of_isNumeralText (Script.isNumeralText_display hmax)

theorem relates_boundDemand (d : Dialect) (demand : Demand) {bound : Json}
    (hbound : bound.IsNullOrNumber) (path path' : Path) :
    Relates (SameDemands strict) (boundDemand d demand bound path)
      (boundDemand d demand bound path') := by
  unfold boundDemand
  split
  · exact relates_pure ⟨rfl, nofun⟩
  · have hnumber : Relates (fun text other => text = other ∧ AlikeCode strict text text)
        (.orRefuse d path (Script.number bound)) (.orRefuse d path' (Script.number bound)) :=
      relates_orRefuse fun text hok =>
        ⟨text, hok, rfl, alike_of_isNumeralText (Script.isNumeralText_number hbound hok)⟩
    refine hnumber.bind_pure fun text other h => ?_
    obtain ⟨rfl, halike⟩ := h
    exact ⟨rfl, List.forall_mem_singleton.mpr halike⟩

theorem relates_numberDemands (d : Dialect) {minimum maximum : Json}
    (hmin : minimum.IsNullOrNumber) (hmax : maximum.IsNullOrNumber) (path path' : Path) :
    Relates (SameDemands strict) (numberDemands d minimum maximum path)
      (numberDemands d minimum maximum path') := by
  have hlower : Relates (SameDemands strict) (boundDemand d .minimum minimum path)
      (boundDemand d .minimum minimum path') := relates_boundDemand d .minimum hmin path path'
  have hupper : Relates (SameDemands strict) (boundDemand d .maximum maximum path)
      (boundDemand d .maximum maximum path') := relates_boundDemand d .maximum hmax path path'
  refine hlower.bind fun lower lower' hlower => hupper.bind_pure fun upper upper' hupper => ?_
  obtain ⟨rfl, hlower⟩ := hlower
  obtain ⟨rfl, hupper⟩ := hupper
  exact ⟨rfl, List.forall_mem_append.mpr ⟨hlower, hupper⟩⟩

theorem alikeCode_chained {base : String} (hbase : AlikeCode strict base base) {demands : Demands}
    (h : ∀ demand ∈ demands, AlikeCode strict demand.2 demand.2) :
    AlikeCode strict (chained base demands) (chained base demands) := by
  induction demands generalizing base with
  | nil => exact hbase
  | cons demand rest ih =>
    obtain ⟨hfirst, hrest⟩ := List.forall_mem_cons.mp h
    have hname : AlikeCode strict ("." ++ demand.1.zodName) ("." ++ demand.1.zodName) := by
      cases demand.1 <;> exact .same (by decide)
    exact ih (hbase.append (alikeCode_call hname (.cons hfirst .nil))) hrest

theorem alikeCode_wrapped {base : String} (hbase : AlikeCode strict base base) {demands : Demands}
    (h : ∀ demand ∈ demands, AlikeCode strict demand.2 demand.2) :
    AlikeCode strict (wrapped base demands) (wrapped base demands) := by
  induction demands generalizing base with
  | nil => exact hbase
  | cons demand rest ih =>
    obtain ⟨hfirst, hrest⟩ := List.forall_mem_cons.mp h
    have hname : AlikeCode strict ("z." ++ demand.1.zodName) ("z." ++ demand.1.zodName) := by
      cases demand.1 <;> exact .same (by decide)
    exact ih (alikeCode_call hname (.cons hbase (.cons hfirst .nil))) hrest

theorem alikeCode_piped {base : String} (hbase : AlikeCode strict base base) {demands : Demands}
    (h : ∀ demand ∈ demands, AlikeCode strict demand.2 demand.2) :
    AlikeCode strict (piped base demands) (piped base demands) := by
  unfold piped
  split
  · exact hbase
  · refine alikeCode_call (.same (by decide)) (.cons hbase ?_)
    rw [List.forall₂_map_left_iff, List.forall₂_map_right_iff, List.forall₂_same]
    intro demand hdemand
    have hname : AlikeCode strict ("v." ++ demand.1.valibotName) ("v." ++ demand.1.valibotName) := by
      cases demand.1 <;> exact .same (by decide)
    exact alikeCode_call hname (.cons (h demand hdemand) .nil)

theorem alikeCode_options {demands : Demands}
    (h : ∀ demand ∈ demands, AlikeCode strict demand.2 demand.2) :
    List.Forall₂ (AlikeCode strict) (options demands) (options demands) := by
  unfold options
  split
  · exact .nil
  · have hfields : List.Forall₂ (AlikeCode strict)
        (demands.map fun d => d.1.keyword ++ ": " ++ d.2)
        (demands.map fun d => d.1.keyword ++ ": " ++ d.2) := by
      rw [List.forall₂_map_left_iff, List.forall₂_map_right_iff, List.forall₂_same]
      intro demand hdemand
      have hname : AlikeCode strict (demand.1.keyword ++ ": ") (demand.1.keyword ++ ": ") := by
        cases demand.1 <;> exact .same (by decide)
      exact hname.append (h demand hdemand)
    have hblank : AlikeCode strict " " " " := .same (by decide)
    have hinner := (hblank.append (alikeCode_comma.intercalate hfields)).append hblank
    refine .cons (hinner.enclose (show closer? '\x7b' = some '\x7d' from rfl) ?_ ?_) .nil
    · simp [String.toList_append]
    · simp [String.toList_append]

/-! ## Scalars -/

/-- **Likeness of expressions**: in ArkType they are of the same sort, too. -/
def Matches (strict : Bool) (d : Dialect) (code other : String) : Prop :=
  AlikeCode strict code other ∧ (d = .arkType → SameSort code other)

variable {d : Dialect}

theorem matches_of_ne (hd : d ≠ .arkType) (h : AlikeCode strict code other) :
    Matches strict d code other :=
  ⟨h, fun heq => absurd heq hd⟩

/-- Definitions match, whatever they say. -/
theorem matches_doubleQuoted (text text' : String) :
    Matches strict d (Script.doubleQuoted text) (Script.doubleQuoted text') :=
  ⟨alikeCode_doubleQuoted text text', fun _ => Script.sameSort_doubleQuoted text text'⟩

/-- Outside of ArkType, demands that are on both sides are attached on both sides. -/
theorem relates_attached (hd : d ≠ .arkType) {demands others : Emission Demands}
    (h : Relates (SameDemands strict) demands others) (attach : Demands → String)
    (hattach : ∀ demands : Demands, (∀ demand ∈ demands, AlikeCode strict demand.2 demand.2) →
      AlikeCode strict (attach demands) (attach demands)) :
    Relates (Matches strict d) (demands >>= fun demands => pure (attach demands))
      (others >>= fun demands => pure (attach demands)) := by
  refine h.bind_pure fun demands others hsame => matches_of_ne hd ?_
  obtain ⟨rfl, hdemands⟩ := hsame
  exact hattach demands hdemands

theorem relates_textType (d : Dialect) {minLength maxLength pattern : Json}
    (hmin : minLength.IsNullOrNumber) (hmax : maxLength.IsNullOrNumber)
    (hpattern : pattern.isVacant = true) (path path' : Path) :
    Relates (Matches strict d) (textType d minLength maxLength pattern path)
      (textType d minLength maxLength pattern path') := by
  have hdemands : Relates (SameDemands strict) (textDemands d minLength maxLength pattern)
      (textDemands d minLength maxLength pattern) := by
    rw [textDemands, if_pos hpattern]
    exact relates_pure (sameDemands_lengthDemands hmin hmax)
  cases d with
  | zod =>
    exact relates_attached (by decide) hdemands (chained "z.string()") fun _ =>
      alikeCode_chained (.same (by decide))
  | zodMini =>
    exact relates_attached (by decide) hdemands (wrapped "z.string()") fun _ =>
      alikeCode_wrapped (.same (by decide))
  | valibot =>
    exact relates_attached (by decide) hdemands (piped "v.string()") fun _ =>
      alikeCode_piped (.same (by decide))
  | typeBox =>
    exact relates_attached (by decide) hdemands (fun demands => call "Type.String" (options demands))
      fun _ h => alikeCode_call (.same (by decide)) (alikeCode_options h)
  | arkType =>
    rw [textType, textType, arkTypeText, arkTypeText, if_pos hpattern, if_pos hpattern]
    exact relates_pure (matches_doubleQuoted _ _)

theorem relates_numberType (d : Dialect) {minimum maximum : Json}
    (hmin : minimum.IsNullOrNumber) (hmax : maximum.IsNullOrNumber) (path path' : Path) :
    Relates (Matches strict d) (numberType d minimum maximum path)
      (numberType d minimum maximum path') := by
  have hdemands : Relates (SameDemands strict) (numberDemands d minimum maximum path)
      (numberDemands d minimum maximum path') := relates_numberDemands d hmin hmax path path'
  cases d with
  | zod =>
    exact relates_attached (by decide) hdemands (chained "z.number()") fun _ =>
      alikeCode_chained (.same (by decide))
  | zodMini =>
    exact relates_attached (by decide) hdemands (wrapped "z.number()") fun _ =>
      alikeCode_wrapped (.same (by decide))
  | valibot =>
    exact relates_attached (by decide) hdemands (piped "v.number()") fun _ =>
      alikeCode_piped (.same (by decide))
  | typeBox =>
    exact relates_attached (by decide) hdemands (fun demands => call "Type.Number" (options demands))
      fun _ h => alikeCode_call (.same (by decide)) (alikeCode_options h)
  | arkType =>
    have hlower : Relates (Matches strict .arkType)
        (if minimum.isNull then pure (Script.doubleQuoted "number") else do
          let bound ← .orRefuse .arkType path (Script.number minimum)
          return Script.doubleQuoted ("number >= " ++ bound))
        (if minimum.isNull then pure (Script.doubleQuoted "number") else do
          let bound ← .orRefuse .arkType path' (Script.number minimum)
          return Script.doubleQuoted ("number >= " ++ bound)) := by
      split
      · exact relates_pure (matches_doubleQuoted _ _)
      · have hnumber : Relates (fun _ _ => True)
            (.orRefuse .arkType path (Script.number minimum))
            (.orRefuse .arkType path' (Script.number minimum)) :=
          relates_orRefuse fun text hok => ⟨text, hok, trivial⟩
        exact hnumber.bind_pure fun _ _ _ => matches_doubleQuoted _ _
    unfold numberType arkTypeNumber
    cases maximum.isNull with
    | true => exact hlower
    | false => exact relates_warn_bind _ _ hlower

theorem matches_booleanType (d : Dialect) :
    Matches strict d (booleanType d) (booleanType d) := by
  cases d with
  | arkType => exact matches_doubleQuoted _ _
  | _ => exact matches_of_ne nofun (.same (by decide))

theorem matches_literalType (d : Dialect) (h : AlikeCode strict code other) :
    Matches strict d (literalType d code) (literalType d other) := by
  cases d with
  | arkType => exact matches_doubleQuoted _ _
  | _ => exact matches_of_ne nofun (alikeCode_call (.same (by decide)) (.cons h .nil))

/-! ## Expressions -/

/-- The call around the map of an object makes compound code. -/
theorem isCompound_objectType (map : String) : Script.IsCompound (objectType .arkType map) :=
  Script.isCompound_of_head (c := 't') (by simp [objectType, call, String.toList_append]) rfl nofun

/-- So do the brackets around items that are no definition. -/
theorem isCompound_grouped (item : String) : Script.IsCompound ("(" ++ item ++ ")[]") :=
  Script.isCompound_of_head (c := '(') (by simp [String.toList_append]) rfl nofun

theorem matches_objectType (d : Dialect) (h : AlikeCode strict code other) :
    Matches strict d (objectType d code) (objectType d other) := by
  cases d with
  | arkType =>
    exact ⟨alikeCode_call (.same (by decide)) (.cons h .nil), fun _ => Or.inr
      ⟨isCompound_objectType code, isCompound_objectType other⟩⟩
  | _ => exact matches_of_ne nofun (alikeCode_call (.same (by decide)) (.cons h .nil))

theorem matches_listType (d : Dialect) (isUnion : Bool) (h : Matches strict d code other) :
    Matches strict d (listType d isUnion code) (listType d isUnion other) := by
  cases d with
  | arkType =>
    show Matches strict .arkType (listDefinition isUnion code) (listDefinition isUnion other)
    unfold listDefinition
    -- A definition is extended inside its quotes, anything else is grouped: both sides go one way.
    rcases h.2 rfl with ⟨⟨text, rfl⟩, text', rfl⟩ | ⟨hcode, hother⟩
    · rw [Script.definition?_doubleQuoted, Script.definition?_doubleQuoted]
      exact matches_doubleQuoted _ _
    · rw [hcode.definition?_eq_none, hother.definition?_eq_none]
      refine ⟨?_, fun _ => Or.inr ⟨isCompound_grouped code, isCompound_grouped other⟩⟩
      have hgroup : AlikeCode strict ("(" ++ code ++ ")") ("(" ++ other ++ ")") := by
        refine h.1.enclose (show closer? '(' = some ')' from rfl) ?_ ?_
        · simp [String.toList_append]
        · simp [String.toList_append]
      have hbrackets : AlikeCode strict "[]" "[]" := .same (by decide)
      have hshift (code : String) : "(" ++ code ++ ")" ++ "[]" = "(" ++ code ++ ")[]" :=
        String.append_assoc
      rw [← hshift, ← hshift]
      exact hgroup.append hbrackets
  | _ =>
    exact matches_of_ne nofun (alikeCode_call (.same (by decide)) (.cons h.1 .nil))

theorem matches_unionType (d : Dialect) {members others : List String}
    (h : List.Forall₂ (Matches strict d) members others) :
    Matches strict d (unionType d members) (unionType d others) := by
  have halike : List.Forall₂ (AlikeCode strict) members others := h.imp fun _ _ hm => hm.1
  cases d with
  | arkType =>
    have hsort : List.Forall₂ SameSort members others := h.imp fun _ _ hm => hm.2 rfl
    show Matches strict .arkType (alternatives members) (alternatives others)
    unfold alternatives
    -- One compound member on either side is enough for the bars to be operators on both.
    rcases Script.definitions_or_compound hsort with
      ⟨hdef, hdef'⟩ | ⟨⟨member, hmember, hcomp⟩, member', hmember', hcomp'⟩
    · obtain ⟨texts, rfl⟩ := Script.exists_eq_map_doubleQuoted hdef
      obtain ⟨texts', rfl⟩ := Script.exists_eq_map_doubleQuoted hdef'
      rw [Script.mapM_definition?_doubleQuoted, Script.mapM_definition?_doubleQuoted]
      exact matches_doubleQuoted _ _
    · rw [Script.mapM_definition?_eq_none hmember hcomp,
        Script.mapM_definition?_eq_none hmember' hcomp']
      have hbar : AlikeCode strict " | " " | " := .same (by decide)
      obtain ⟨hone, hother⟩ := Script.definition_or_compound hsort
      exact ⟨hbar.intercalate halike, fun _ => Or.inr
        ⟨Script.isCompound_alternatives hone hmember hcomp,
          Script.isCompound_alternatives hother hmember' hcomp'⟩⟩
  | _ =>
    exact matches_of_ne nofun (alikeCode_call (.same (by decide))
      (.cons (alikeCode_bracketed halike) .nil))

theorem matches_enumerationType (d : Dialect) (kind : LiteralKind) {literals others : List String}
    (h : List.Forall₂ (AlikeCode strict) literals others) :
    Matches strict d (enumerationType d kind literals) (enumerationType d kind others) := by
  have hunion (d : Dialect) : Matches strict d (unionType d (literals.map (literalType d)))
      (unionType d (others.map (literalType d))) := by
    apply matches_unionType
    rw [List.forall₂_map_left_iff, List.forall₂_map_right_iff]
    exact h.imp fun _ _ hliteral => matches_literalType d hliteral
  have hset {function : String} (hfunction : AlikeCode strict function function) :
      AlikeCode strict (call function [bracketed literals]) (call function [bracketed others]) :=
    alikeCode_call hfunction (.cons (alikeCode_bracketed h) .nil)
  cases d with
  | zod => cases kind <;> exact matches_of_ne nofun (hset (.same (by decide)))
  | zodMini => cases kind <;> exact matches_of_ne nofun (hset (.same (by decide)))
  | valibot =>
    cases kind with
    | boolean => exact hunion .valibot
    | string => exact matches_of_ne nofun (hset (.same (by decide)))
    | number => exact matches_of_ne nofun (hset (.same (by decide)))
  | typeBox => exact hunion .typeBox
  | arkType => exact hunion .arkType

end Expression

end SchemaForge
