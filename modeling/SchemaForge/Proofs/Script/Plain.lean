import SchemaForge.Proofs.Json.Ascii
import SchemaForge.Proofs.Script.Literal
import SchemaForge.Script.Regex

/-!
# `SchemaForge.Proofs.Script.Plain` — the characters that code is written with

A plain character is no control character below U+0020 and no separator of lines. String literals of
every kind are plain, whatever their text: what is not plain is escaped, and escapes are printable
ASCII. A regular expression literal is different. Only line terminators
are escaped there, so that it has the other control characters of its pattern as they are.

## Contents
- **Characters.** `isPlain`, and `IsPlainText` for texts. What is printable ASCII is plain, the text
  of a value (`isPlainText_encode`) and of a number among it.
- **String literals.** `isPlainText_doubleQuoted` and `isPlainText_singleQuoted`.
- **Regular expressions.** `mem_regexLiteral` says where the characters of a literal come from.
-/

namespace SchemaForge.Script

open Text

/-! ## Characters -/

/-- Whether a character is neither a control character below U+0020 nor a separator of lines. -/
def isPlain (c : Char) : Bool := decide (0x20 ≤ c.toNat) && !isSeparator c

/-- Whether all characters of a text are plain. -/
def IsPlainText (text : List Char) : Prop := ∀ c ∈ text, isPlain c = true

instance (text : List Char) : Decidable (IsPlainText text) :=
  decidable_of_iff (text.all isPlain = true) List.all_eq_true

theorem isPlain_iff {c : Char} : isPlain c = true ↔ 0x20 ≤ c.toNat ∧ isSeparator c = false := by
  simp [isPlain]

/-- No plain character ends a line. -/
theorem isTerminator_of_isPlain {c : Char} (h : isPlain c = true) : isTerminator c = false := by
  obtain ⟨hcontrol, hseparator⟩ := isPlain_iff.mp h
  exact isTerminator_eq_false hcontrol hseparator

theorem isPlain_of_isPrintable {c : Char} (h : Json.isPrintable c = true) : isPlain c = true := by
  obtain ⟨hcontrol, hascii⟩ := Json.isPrintable_iff.mp h
  exact isPlain_iff.mpr ⟨hcontrol, isSeparator_eq_false (by omega)⟩

theorem isPlainText_of_isPrintableText {text : List Char} (h : Json.IsPrintableText text) :
    IsPlainText text := fun c hc => isPlain_of_isPrintable (h c hc)

theorem isPlainText_of_isNumeralText {text : List Char} (h : IsNumeralText text) :
    IsPlainText text := isPlainText_of_isPrintableText (Json.isPrintableText_of_isNumeralText h)

theorem isPlainText_encode (value : Json) : IsPlainText value.encode :=
  isPlainText_of_isPrintableText (Json.isPrintableText_encode value)

theorem isPlainText_append {text rest : List Char} (htext : IsPlainText text)
    (hrest : IsPlainText rest) : IsPlainText (text ++ rest) :=
  List.forall_mem_append.mpr ⟨htext, hrest⟩

theorem isPlainText_flatMap {α : Type} {items : List α} {f : α → List Char}
    (h : ∀ item ∈ items, IsPlainText (f item)) : IsPlainText (items.flatMap f) :=
  List.forall_mem_flatMap.mpr h

/-! ## String literals -/

theorem isPlainText_escape (c : Char) : IsPlainText (escape c) := by
  unfold escape
  split
  · exact isPlainText_of_isPrintableText (Json.isPrintableText_unitEscape c.toNat)
  · next hseparator =>
    unfold Json.escape
    split
    · next letter hletter =>
      exact isPlainText_of_isPrintableText (Json.isPrintableText_letter hletter)
    · split
      · exact isPlainText_of_isPrintableText (Json.isPrintableText_unitEscape c.toNat)
      · next hcontrol =>
        have hplain : isPlain c = true :=
          isPlain_iff.mpr ⟨Nat.le_of_not_lt hcontrol, by simpa using hseparator⟩
        exact List.forall_mem_singleton.mpr hplain

theorem isPlainText_escapeSingle (c : Char) : IsPlainText (escapeSingle c) := by
  unfold escapeSingle
  split
  · decide
  · exact isPlainText_escape c

/-- **A literal in double quotes is plain**, whatever its text. -/
theorem isPlainText_doubleQuoted (text : String) : IsPlainText (doubleQuoted text).toList := by
  rw [doubleQuoted, String.toList_ofList]
  exact forall_mem_enclose (by decide) (by decide)
    (isPlainText_flatMap fun c _ => isPlainText_escape c)

/-- **A literal in single quotes is plain**, whatever its text. -/
theorem isPlainText_singleQuoted (text : String) : IsPlainText (singleQuoted text).toList := by
  rw [singleQuoted, String.toList_ofList]
  exact forall_mem_enclose (by decide) (by decide)
    (isPlainText_flatMap fun c _ => isPlainText_escapeSingle c)

/-! ## Regular expressions -/

/-- What has no escape of its own in a regular expression ends no line. -/
theorem isTerminator_of_escapeTerminator? {c : Char} (h : escapeTerminator? c = none) :
    isTerminator c = false := by
  unfold escapeTerminator? at h
  split at h
  · cases h
  · next hfeed =>
    split at h
    · cases h
    · next hreturn =>
      split at h
      · cases h
      · next hseparator => simp [isTerminator, hfeed, hreturn, hseparator]

theorem isPlainText_of_escapeTerminator? {c : Char} {escape : List Char}
    (h : escapeTerminator? c = some escape) : IsPlainText escape := by
  rcases escapeTerminator?_eq_some h with ⟨-, rfl⟩ | ⟨-, rfl⟩ | ⟨-, rfl⟩ | ⟨-, rfl⟩ <;> decide

theorem mem_regexBody {c : Char} {escaped : Bool} {pattern : List Char}
    (h : c ∈ regexBody escaped pattern) :
    isPlain c = true ∨ isTerminator c = false ∧ c ∈ pattern := by
  induction pattern generalizing escaped with
  | nil => exact absurd h List.not_mem_nil
  | cons first rest ih =>
    rw [regexBody, List.mem_append] at h
    rcases h with h | h
    · split at h
      · exact Or.inl ((by decide : IsPlainText ['\\', '/']) c h)
      · cases hescape : escapeTerminator? first with
        | some escape =>
          rw [hescape] at h
          exact Or.inl (isPlainText_of_escapeTerminator? hescape c h)
        | none =>
          rw [hescape] at h
          rw [List.mem_singleton.mp h]
          exact Or.inr ⟨isTerminator_of_escapeTerminator? hescape, List.mem_cons_self⟩
    · exact (ih h).imp_right fun hc => ⟨hc.1, List.mem_cons_of_mem _ hc.2⟩

/-- **What is not plain in a regular expression literal is in the pattern**, and ends no line. -/
theorem mem_regexLiteral {c : Char} {pattern : String} (h : c ∈ (regexLiteral pattern).toList) :
    isPlain c = true ∨ isTerminator c = false ∧ c ∈ pattern.toList := by
  rw [regexLiteral, String.toList_ofList, List.mem_cons, List.mem_append, List.mem_singleton] at h
  rcases h with rfl | h | rfl
  · exact Or.inl (by decide)
  · exact mem_regexBody h
  · exact Or.inl (by decide)

end SchemaForge.Script
