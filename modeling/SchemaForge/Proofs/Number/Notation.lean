import SchemaForge.Number.Notation

/-!
# `SchemaForge.Proofs.Number.Notation` — the characters of a double's text

However the digits of a double are laid out, its text has no other characters than digits, signs, a
point and letters.

## Contents
- **Characters.** `IsNumeralText`.
- **Texts.** `isNumeralText_text` for decimals, `Binary64.isNumeralText_text` for doubles.
-/

namespace SchemaForge

/-- Whether a character may stand in the text of a number. -/
def isNumeralChar (c : Char) : Bool := c.isAlphanum || c == '-' || c == '+' || c == '.'

/-- Whether a text has only characters that may stand in the text of a number. -/
def IsNumeralText (text : List Char) : Prop := ∀ c ∈ text, isNumeralChar c = true

instance (text : List Char) : Decidable (IsNumeralText text) :=
  decidable_of_iff (text.all isNumeralChar = true) List.all_eq_true

theorem isNumeralText_append {text rest : List Char} (htext : IsNumeralText text)
    (hrest : IsNumeralText rest) : IsNumeralText (text ++ rest) :=
  List.forall_mem_append.mpr ⟨htext, hrest⟩

theorem isNumeralText_cons {c : Char} {rest : List Char} (hc : isNumeralChar c = true)
    (hrest : IsNumeralText rest) : IsNumeralText (c :: rest) :=
  List.forall_mem_cons.mpr ⟨hc, hrest⟩

theorem isNumeralText_of_subset {text others : List Char} (hsub : text ⊆ others)
    (h : IsNumeralText others) : IsNumeralText text := fun c hc => h c (hsub hc)

theorem isNumeralText_toDigits (n : Nat) : IsNumeralText (Nat.toDigits 10 n) := by
  intro c hc
  have hdigit := Nat.isDigit_of_mem_toDigits (by decide) (by decide) hc
  simp [isNumeralChar, Char.isAlphanum, hdigit]

namespace Decimal

theorem isNumeralText_zeros (count : Nat) : IsNumeralText (zeros count) := by
  intro c hc
  rw [List.eq_of_mem_replicate hc]
  decide

theorem isNumeralText_exponentText (e : Int) : IsNumeralText (exponentText e) := by
  refine isNumeralText_cons ?_ (isNumeralText_append (isNumeralText_zeros _)
    (isNumeralText_toDigits _))
  split <;> decide

/-- In every layout there are only digits, taken in turn, and the characters around them. -/
theorem isNumeralText_text (d : Decimal) : IsNumeralText d.text := by
  have hdigits := isNumeralText_toDigits d.coefficient
  have htake (count : Nat) : IsNumeralText ((Nat.toDigits 10 d.coefficient).take count) :=
    isNumeralText_of_subset (List.take_subset _ _) hdigits
  have hdrop (count : Nat) : IsNumeralText ((Nat.toDigits 10 d.coefficient).drop count) :=
    isNumeralText_of_subset (List.drop_subset _ _) hdigits
  unfold text
  dsimp only
  split
  · refine isNumeralText_append (isNumeralText_append (htake 1) ?_)
      (isNumeralText_cons (by decide) (isNumeralText_exponentText _))
    split
    · exact fun c hc => absurd hc List.not_mem_nil
    · exact isNumeralText_cons (by decide) (hdrop 1)
  · split
    · exact isNumeralText_cons (by decide) (isNumeralText_cons (by decide)
        (isNumeralText_append (isNumeralText_zeros _) hdigits))
    · split
      · exact isNumeralText_append (isNumeralText_append hdigits (isNumeralText_zeros _))
          (by decide)
      · exact isNumeralText_append (htake _) (isNumeralText_cons (by decide) (hdrop _))

end Decimal

namespace Binary64

theorem isNumeralText_magnitudeText (units : Nat) : IsNumeralText (magnitudeText units) := by
  unfold magnitudeText
  split
  · decide
  · exact Decimal.isNumeralText_text _

theorem isNumeralText_text (x : Binary64) : IsNumeralText x.text.toList := by
  cases x with
  | nan => decide
  | infinity negative => cases negative <;> decide
  | finite negative units =>
    rw [text, String.toList_ofList]
    split
    · exact isNumeralText_cons (by decide) (isNumeralText_magnitudeText units)
    · exact isNumeralText_magnitudeText units

end Binary64

end SchemaForge
