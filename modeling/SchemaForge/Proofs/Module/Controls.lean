import SchemaForge.Module.Assembly
import SchemaForge.Proofs.Expression.Indentation

/-!
# `SchemaForge.Proofs.Module.Controls` — where control characters of a module come from

A module consists of lines, as the expression in it does. Their text is plain but for patterns: of
these only line terminators are escaped, so that any other control character in a pattern is in the
module as well. TypeBox takes patterns as JSON strings, where all of them are escaped.

## Contents
- **Modules.** `laidOut_module` adds the lines around an expression.
- **Patterns.** `RawIn` says which characters patterns bring along.
- **Characters.** `ofShape_lines`, and `ofShape_writes_tab` for a tab that is not escaped.
-/

namespace SchemaForge.Module

open Expression (LaidOut Line breaksAlong)
open Script (isPlain isTerminator IsPlainText)
open Shape (Everywhere Occurs walk)

/-! ## Modules -/

section

variable {raw : Char → Prop}

theorem laidOut_newline : LaidOut raw 1 fun _ => "\n" := .newline 0

/-- With the types module that is set by default, the imports and the blank line are three lines. -/
theorem laidOut_header (d : Dialect) : LaidOut raw 3 fun _ => header d {} ++ "\n" := by
  have hbuilder : LaidOut raw 0 fun _ => d.builderImport := .plain (by cases d <;> decide)
  have hhelper : LaidOut raw 0
      fun _ => "import \x7b type InferSchema \x7d from \"~types\";" := .plain (by decide)
  have hlines := ((hbuilder.append laidOut_newline).append hhelper).append
    (laidOut_newline.append laidOut_newline)
  exact hlines.congr rfl fun _ => by cases d <;> rfl

/-- The exports have a line break at the end of either of them. -/
theorem laidOut_body {n : Nat} {code : String → String} (h : LaidOut raw n code) :
    LaidOut raw (n + 2) fun unit => body (code unit) := by
  have hend : LaidOut raw 2
      fun _ => ";\nexport type Schema = InferSchema<typeof schema>;\n" :=
    (((LaidOut.plain (by decide : IsPlainText ";".toList)).append laidOut_newline).append
      (laidOut_newline.behind
        (by decide : IsPlainText "export type Schema = InferSchema<typeof schema>;".toList))).congr
      rfl fun _ => rfl
  exact (h.behind (by decide)).append hend

end

/-! ## Patterns -/

/-- **The characters that patterns bring along**, unless the dialect is TypeBox: those of the patterns
in a shape, but for line terminators. -/
def RawIn (d : Dialect) (shape : Shape) (c : Char) : Prop :=
  d ≠ .typeBox ∧ isTerminator c = false ∧
    ∃ place minLength maxLength pattern,
      Occurs place (.string minLength maxLength (.str pattern)) .root shape ∧ c ∈ pattern.toList

theorem fits_rawIn (d : Dialect) {shape : Shape}
    (hbounds : Everywhere (fun _ => Shape.NumericBounds) .root shape) :
    Everywhere (fun _ => Shape.Fits d (RawIn d shape)) .root shape := by
  intro place part hpart
  refine ⟨hbounds place part hpart, fun hd => ?_⟩
  cases part with
  | string minLength maxLength pattern =>
    cases pattern with
    | str pattern =>
      exact fun c hc hline => ⟨hd, hline, place, minLength, maxLength, pattern, hpart, hc⟩
    | _ => trivial
  | _ => trivial

/-! ## Characters -/

/-- **The characters of a module.** With the standard settings, the module of a shape whose bounds are
numbers is made of lines with plain text, in which patterns alone may have other characters; these
end no line. There are six lines, of which the last one is empty, and one more for each line break
of a part. -/
theorem ofShape_lines (d : Dialect) {shape : Shape}
    (hbounds : Everywhere (fun _ => Shape.NumericBounds) .root shape) {code : String}
    (hcode : (ofShape d {} none shape).outcome = .ok code) :
    ∃ lines : List Line, code = Line.printAll "  " lines ∧
      lines.length = breaksAlong (walk shape .root) + 6 ∧
      ∀ line ∈ lines, ∀ c ∈ line.text.toList, isPlain c = true ∨ RawIn d shape c := by
  rw [ofShape_none] at hcode
  cases shape with
  | object properties =>
    rw [around, Settings.indentation_of_str rfl] at hcode
    obtain ⟨expression, hexpression, hcode⟩ := Emission.outcome_bind_eq_ok_iff.mp hcode
    cases hcode
    obtain ⟨f, hf, hall⟩ :=
      Expression.uniform_renderRoot (fits_rawIn d hbounds) "  " expression hexpression
    -- The expression is what the function gives for two blanks.
    obtain rfl : f "  " = expression := Except.ok.inj ((hall "  ").symm.trans hexpression)
    obtain ⟨lines, hlength, hconsist, hprint⟩ :=
      ((laidOut_header d).append (laidOut_body hf)).exists_lines
    have hcount : lines.length = breaksAlong (walk (.object properties) .root) + 6 := by omega
    exact ⟨lines, hprint "  ", hcount, hconsist⟩
  | _ => cases hcode

/-- A default and a name with control characters are escaped, and so is the line feed in a pattern;
the tab next to it may remain. -/
theorem ofShape_lines_of_controls :
    let shape : Shape := .object [("\x00", .optional (.string .null (.int 3) (.str "\t\n"))
      (.json (.str "\u2028")) (.bool true))]
    Everywhere (fun _ => Shape.NumericBounds) .root shape ∧
      ∃ code, (ofShape .valibot {} none shape).outcome = .ok code ∧
        ∃ lines : List Line, code = Line.printAll "  " lines ∧ lines.length = 8 ∧
          ∀ line ∈ lines, ∀ c ∈ line.text.toList, isPlain c = true ∨ RawIn .valibot shape c := by
  intro shape
  have hbounds : Everywhere (fun _ => Shape.NumericBounds) .root shape := by
    simp [shape, Shape.NumericBounds, Json.IsNullOrNumber]
  exact ⟨hbounds, _, rfl, ofShape_lines .valibot hbounds rfl⟩

/-- A pattern brings a tab into the module. -/
theorem ofShape_writes_tab :
    let shape : Shape := .object [("a", .string .null .null (.str "\t"))]
    Everywhere (fun _ => Shape.NumericBounds) .root shape ∧
      ∃ code, (ofShape .zod {} none shape).outcome = .ok code ∧
        ∃ c ∈ code.toList, c.toNat < 0x20 ∧ c ≠ '\n' := by
  intro shape
  have hbounds : Everywhere (fun _ => Shape.NumericBounds) .root shape := by
    simp [shape, Shape.NumericBounds, Json.IsNullOrNumber]
  exact ⟨hbounds, _, rfl, '\t', by decide +kernel, by decide, by decide⟩

end SchemaForge.Module
