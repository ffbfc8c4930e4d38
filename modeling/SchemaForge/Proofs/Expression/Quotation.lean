import SchemaForge.Expression.Compound
import SchemaForge.Proofs.Json.RoundTrip
import SchemaForge.Proofs.Script.Definition
import SchemaForge.Proofs.Script.Evaluation
import SchemaForge.Proofs.Script.Plain

/-!
# `SchemaForge.Proofs.Expression.Quotation` — texts in quotes

A text in double quotes is read back in three ways: as a definition, as a JSON string, and by the script
that it becomes a part of. All of them come to the text that was quoted. The first two are one: code is
a definition of a text exactly if it is JSON for that text.

ArkType puts definitions together by reading its parts back and quoting what it makes of them. However
often that is done, it comes to the same as quoting once at the end.

## Contents
- **JSON.** `takes_str_iff` for the reader of values, and `definition?_eq_some_iff_read`.
- **Assembled definitions.** `Assembled`, with `code_eq` by induction.
- **Quotation.** `doubleQuoted_undone`.
-/

namespace SchemaForge

/-! ## JSON -/

namespace Json

variable {limit : Option Nat} {text rest : List Char}

/-- No word stands for a text. -/
theorem ne_str_of_readWord {value : Json} (h : readWord text = some (value, rest)) (s : String) :
    value ≠ .str s := by
  unfold readWord at h
  split at h <;> cases h <;> nofun

theorem ne_str_of_value? {numeral : Numeral} {value : Json} (h : numeral.value? limit = some value)
    (s : String) : value ≠ .str s := by
  unfold Numeral.value? at h
  split at h
  · split at h
    · cases h
      nofun
    · cases h
  · cases h
    nofun

theorem not_takes_readAtom_str {s : String} : ¬ Takes (readAtom limit text) (.str s) rest := by
  rintro ⟨shorter, h⟩
  unfold readAtom at h
  split at h
  · next hword =>
    cases h
    exact ne_str_of_readWord hword s rfl
  · unfold readNumber at h
    split at h
    · cases h
    · split at h
      · cases h
      · next hvalue =>
        cases h
        exact ne_str_of_value? hvalue s rfl

theorem readQuoted_of_takes {s : String} (h : Takes (readString text) s rest) :
    readQuoted text = some (s.toList, rest) := by
  obtain ⟨shorter, h⟩ := h
  unfold readString at h
  split at h
  · cases h
  · next content _ hread =>
    cases h
    rw [hread, String.toList_ofList]

/-- The reader of values finds a text only behind a quote. -/
theorem takes_str_iff {s : String} : Takes (readValue limit text) (.str s) rest ↔
    ∃ behind, skipSpace text = '"' :: behind ∧ readQuoted behind = some (s.toList, rest) := by
  constructor
  · intro h
    rw [readValue] at h
    split at h
    case h_1 behind hquote =>
      obtain ⟨front, hread, _, h⟩ := h.exists_of_bind
      cases h
      exact ⟨behind, hquote, readQuoted_of_takes ⟨_, hread⟩⟩
    case h_2 | h_3 =>
      -- Whatever stands in brackets is a list, and in braces an object.
      dsimp only at h
      split at h
      · obtain ⟨_, h⟩ := h
        cases h
      · obtain ⟨front, -, _, h⟩ := h.exists_of_bind
        cases h
    case h_4 =>
      obtain ⟨⟨value, rest', _⟩, hatom, _, h⟩ := h.exists_of_bind
      cases h
      exact absurd ⟨_, hatom⟩ not_takes_readAtom_str
  · rintro ⟨behind, hquote, hread⟩
    have htakes : Takes (readValue limit text) _ rest := takes_readValue_str hquote hread
    rwa [String.ofList_toList] at htakes

/-- A file holds a text if the reader of values takes the text and leaves nothing but blanks. -/
theorem read_eq_str_iff {code s : String} : read code = .ok (.str s) ↔
    ∃ rest, Takes (readValue (some maxIntegerDigits) code.toList) (.str s) rest ∧
      skipSpace rest = [] := by
  constructor
  · intro h
    rw [read, readWithin] at h
    cases hvalue : readValue (some maxIntegerDigits) code.toList with
    | error fault =>
      rw [hvalue] at h
      cases h
    | ok front =>
      obtain ⟨value, rest, shorter⟩ := front
      have hall : (if skipSpace rest = [] then .ok value else .error .malformed :
          Except ReadFault Json) = .ok (.str s) := by
        rwa [hvalue] at h
      split at hall
      · next hblank =>
        cases hall
        exact ⟨rest, ⟨shorter, rfl⟩, hblank⟩
      · cases hall
  · rintro ⟨rest, ⟨shorter, htakes⟩, hblank⟩
    rw [read, readWithin, htakes]
    exact if_pos hblank

end Json

namespace Script

/-- **Code is a definition exactly if it is JSON for a text**, and the definition is that text. -/
theorem definition?_eq_some_iff_read {code text : String} :
    definition? code = some text ↔ Json.read code = .ok (.str text) := by
  rw [Json.read_eq_str_iff]
  simp only [Json.takes_str_iff]
  constructor
  · intro h
    unfold definition? at h
    split at h
    · next behind hquote =>
      split at h
      · next content rest hread =>
        split at h
        · next hblank =>
          cases h
          exact ⟨rest, ⟨behind, hquote, by rw [hread, String.toList_ofList]⟩, hblank⟩
        · cases h
      · cases h
    · cases h
  · rintro ⟨rest, ⟨behind, hquote, hread⟩, hblank⟩
    rw [definition?, hquote]
    simp only [hread, if_pos hblank, String.ofList_toList]

end Script

/-! ## Assembled definitions -/

namespace Expression

open Script (doubleQuoted definition?)

/-- **How a definition is assembled**: from a text, as a list of what another one defines, or from
alternatives. -/
inductive Assembled where
  /-- A definition that is written as it is. -/
  | text (definition : String)
  /-- A list of items, which may be a union. -/
  | list (isUnion : Bool) (items : Assembled)
  /-- Any of the members. -/
  | union (members : List Assembled)

namespace Assembled

mutual

/-- The code of a definition. Each step reads the code of its parts back. -/
def code : Assembled → String
  | text definition => doubleQuoted definition
  | list isUnion items => listDefinition isUnion (code items)
  | union members => alternatives (codes members)

/-- The codes of definitions. -/
def codes : List Assembled → List String
  | [] => []
  | member :: rest => code member :: codes rest

end

mutual

/-- The text of a definition, put together without any quotes. -/
def plain : Assembled → String
  | text definition => definition
  | list isUnion items => (if isUnion then "(" ++ plain items ++ ")" else plain items) ++ "[]"
  | union members => " | ".intercalate (plains members)

/-- The texts of definitions. -/
def plains : List Assembled → List String
  | [] => []
  | member :: rest => plain member :: plains rest

end

mutual

/-- **Quoting at every step is quoting at the end.** -/
theorem code_eq (definition : Assembled) : definition.code = doubleQuoted definition.plain :=
  match definition with
  | text _ => by rw [code, plain]
  | list isUnion items => by
    rw [code, code_eq items, listDefinition, Script.definition?_doubleQuoted, plain]
  | union members => by
    rw [code, codes_eq members, alternatives, Script.mapM_definition?_doubleQuoted, plain]

theorem codes_eq (members : List Assembled) : codes members = (plains members).map doubleQuoted :=
  match members with
  | [] => by rw [codes, plains, List.map_nil]
  | member :: rest => by rw [codes, plains, List.map_cons, code_eq member, codes_eq rest]

end

end Assembled

/-! ## Quotation -/

/-- **Quoting is undone by reading.** A text in double quotes is a definition, it is JSON for the text,
and a script sees a literal with the value of the text, which is closed by its last character; it has
neither control characters nor separators of lines. So different texts are quoted differently, and a
definition that is assembled in any number of steps is read back as the text that was meant. -/
theorem doubleQuoted_undone :
    (∀ text : String, Script.isDefinition (doubleQuoted text) = true ∧
      Json.read (doubleQuoted text) = .ok (.str text) ∧
      (∀ separators, Script.Evaluates separators '"' (doubleQuoted text) text) ∧
      Script.IsPlainText (doubleQuoted text).toList) ∧
    Function.Injective doubleQuoted ∧
    ∀ definition : Assembled, definition.code = doubleQuoted definition.plain ∧
      definition? definition.code = some definition.plain := by
  refine ⟨fun text => ⟨?_, ?_, fun separators => ?_, ?_⟩, fun text other h => ?_,
    fun definition => ⟨definition.code_eq, ?_⟩⟩
  · rw [Script.isDefinition, Script.definition?_doubleQuoted]
    rfl
  · exact Script.definition?_eq_some_iff_read.mp (Script.definition?_doubleQuoted text)
  · exact Script.evaluates_doubleQuoted separators text
  · exact Script.isPlainText_doubleQuoted text
  · have hread := Script.definition?_doubleQuoted text
    rw [h, Script.definition?_doubleQuoted] at hread
    exact (Option.some.inj hread).symm
  · rw [definition.code_eq, Script.definition?_doubleQuoted]

end Expression

end SchemaForge
