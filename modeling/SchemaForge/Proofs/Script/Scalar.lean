import Mathlib.Data.List.Forall2
import SchemaForge.Proofs.Json.Writing
import SchemaForge.Proofs.Number.Notation
import SchemaForge.Script.Scalar

/-!
# `SchemaForge.Proofs.Script.Scalar` — the characters of numbers and literals

A bound is meant to be a number, and a number has no other characters than those of numerals. A
literal is a text in quotes or, like a bound, made of these characters alone.

## Contents
- **Values.** `Json.IsNullOrNumber`.
- **Numerals.** `isNumeralText_display` for values as they are shown, `isNumeralText_number` for
  bounds.
- **Literals.** `numeral_or_quoted`, and `forall₂_of_mapM_literal` for literals in a row.
-/

namespace SchemaForge

/-! ## Values -/

/-- Whether a value is null, a truth value or a number. -/
def Json.IsNullOrNumber : Json → Prop
  | .null | .bool _ | .int _ | .float _ => True
  | .str _ | .arr _ | .obj _ => False

namespace Script

/-! ## Numerals -/

theorem isNumeralText_intText (n : Int) : IsNumeralText (Json.intText n) := by
  intro c hc
  rcases Json.isDigit_or_minus_of_mem_intText hc with hdigit | rfl
  · simp [isNumeralChar, Char.isAlphanum, hdigit]
  · decide

theorem isNumeralText_floatText (x : Binary64) : IsNumeralText (Json.floatText x) := by
  cases x with
  | nan => decide
  | infinity negative => cases negative <;> decide
  | finite negative units => exact Binary64.isNumeralText_text _

theorem isNumeralText_display {value : Json} (h : value.IsNullOrNumber) :
    IsNumeralText value.display.toList := by
  cases value with
  | null => decide
  | bool b => cases b <;> decide
  | int n =>
    rw [Json.display, Json.inspect, String.toList_ofList]
    · exact isNumeralText_intText n
    · nofun
  | float x => exact Binary64.isNumeralText_text x
  | str s => exact h.elim
  | arr items => exact h.elim
  | obj members => exact h.elim

theorem isNumeralText_number {value : Json} (h : value.IsNullOrNumber) {text : String}
    (hok : number value = .ok text) : IsNumeralText text.toList := by
  cases value with
  | float x =>
    cases x with
    | nan => cases hok
    | infinity negative => cases hok
    | finite negative units =>
      rw [number, double] at hok
      split at hok
      · next n _ =>
        cases hok
        split
        · rw [String.toList_ofList]
          exact isNumeralText_intText n
        · exact Binary64.isNumeralText_text _
      · cases hok
        exact Binary64.isNumeralText_text _
  | null => cases hok; exact isNumeralText_display h
  | bool b => cases hok; exact isNumeralText_display h
  | int n => cases hok; exact isNumeralText_display h
  | str s => exact h.elim
  | arr items => exact h.elim
  | obj members => exact h.elim

/-! ## Literals -/

/-- **A literal is a numeral or a text in quotes.** Truth values have the characters of numerals. -/
theorem numeral_or_quoted {value : Json} {text : String} (hok : literal value = .ok text) :
    (value.IsNullOrNumber ∧ IsNumeralText text.toList) ∨
      ∃ s, value = .str s ∧ text = singleQuoted s := by
  cases value with
  | bool b => cases b <;> cases hok <;> exact Or.inl ⟨trivial, by decide⟩
  | int n =>
    have hnumber : (Json.int n).IsNullOrNumber := trivial
    exact Or.inl ⟨hnumber, isNumeralText_number hnumber hok⟩
  | float x =>
    have hnumber : (Json.float x).IsNullOrNumber := trivial
    exact Or.inl ⟨hnumber, isNumeralText_number hnumber hok⟩
  | str s =>
    cases hok
    exact Or.inr ⟨s, rfl, rfl⟩
  | null => cases hok
  | arr items => cases hok
  | obj members => cases hok

/-- Literals that are written in a row are written one by one. -/
theorem forall₂_of_mapM_literal {values : List Json} {texts : List String}
    (hok : values.mapM literal = .ok texts) :
    List.Forall₂ (fun value text => literal value = .ok text) values texts := by
  induction values generalizing texts with
  | nil =>
    cases hok
    exact .nil
  | cons value rest ih =>
    rw [List.mapM_cons] at hok
    cases hfirst : literal value with
    | error construct =>
      rw [hfirst] at hok
      cases hok
    | ok text =>
      cases hrest : rest.mapM literal with
      | error construct =>
        rw [hfirst, hrest] at hok
        cases hok
      | ok behind =>
        rw [hfirst, hrest] at hok
        cases hok
        exact .cons hfirst (ih hrest)

end Script

end SchemaForge
