import Mathlib.Data.List.TakeWhile
import SchemaForge.Json.Numeral
import SchemaForge.Json.Writer

/-!
# `SchemaForge.Proofs.Json.Numerals` — reading integers back

The digits of an integer are a numeral, and the longest one at the front of a text whenever what
stands behind them could not go on with it. No fraction and no exponent is read then, the whole part
has no leading zero, and its digits denote the integer.

## Contents
- **Ends.** `EndsNumeral`, and what the parts of a numeral are where it ends.
- **Digits.** `splitWhole_toDigits`: all digits of a number are taken, zero's included.
- **Integers.** `readNumeral_intText` and `value?_toDigits`.
-/

namespace SchemaForge.Json

/-! ## Ends -/

/-- Whether a character could go on with the numeral in front of it. -/
def continuesNumeral (c : Char) : Bool := c.isDigit || c == '.' || c == 'e' || c == 'E'

/-- Whether the numeral in front of a text ends there. -/
def EndsNumeral (rest : List Char) : Prop := ∀ c ∈ rest.head?, continuesNumeral c = false

theorem endsNumeral_nil : EndsNumeral [] := nofun

theorem endsNumeral_cons {c : Char} (h : continuesNumeral c = false) (rest : List Char) :
    EndsNumeral (c :: rest) := by
  intro d hd
  rwa [← Option.some.inj hd]

theorem splitDigits_append {digits rest : List Char} (hdigits : ∀ c ∈ digits, c.isDigit = true)
    (hrest : EndsNumeral rest) : splitDigits (digits ++ rest) = (digits, rest) := by
  rw [splitDigits, List.takeWhile_append_of_pos hdigits, List.dropWhile_append_of_pos hdigits]
  cases rest with
  | nil => simp
  | cons c rest =>
    have hc : c.isDigit = false := by
      have hends := hrest c rfl
      simp only [continuesNumeral, Bool.or_eq_false_iff] at hends
      exact hends.1.1.1
    simp [hc]

theorem splitFraction_of_endsNumeral {rest : List Char} (h : EndsNumeral rest) :
    splitFraction rest = ([], rest) := by
  unfold splitFraction
  split
  · exact absurd (h '.' rfl) (by decide)
  · rfl

theorem splitExponent_of_endsNumeral {rest : List Char} (h : EndsNumeral rest) :
    splitExponent rest = (none, rest) := by
  unfold splitExponent
  split
  · next mark rest =>
    refine if_neg fun hmark => ?_
    rcases hmark.1 with rfl | rfl
    · exact absurd (h 'e' rfl) (by decide)
    · exact absurd (h 'E' rfl) (by decide)
  · rfl

/-! ## Digits -/

/-- Only the digits of zero begin with a zero. -/
theorem exists_toDigits_eq_cons {n : Nat} (h : n ≠ 0) :
    ∃ c digits, Nat.toDigits 10 n = c :: digits ∧ c ≠ '0' := by
  induction n using Nat.strongRecOn with
  | ind n ih =>
    by_cases hsmall : n < 10
    · have hdigit : ∀ k ∈ List.range 10, k ≠ 0 → Nat.digitChar k ≠ '0' := by decide
      exact ⟨_, [], Nat.toDigits_of_lt_base hsmall, hdigit n (List.mem_range.mpr hsmall) h⟩
    · obtain ⟨c, digits, hdigits, hc⟩ := ih (n / 10) (by omega) (by omega)
      rw [Nat.toDigits_of_base_le (by decide) (Nat.not_lt.mp hsmall), hdigits]
      exact ⟨c, _, rfl, hc⟩

theorem splitWhole_toDigits (n : Nat) {rest : List Char} (hrest : EndsNumeral rest) :
    splitWhole (Nat.toDigits 10 n ++ rest) = (Nat.toDigits 10 n, rest) := by
  by_cases hn : n = 0
  · subst hn
    rfl
  · obtain ⟨c, digits, hdigits, hc⟩ := exists_toDigits_eq_cons hn
    have hsplit : splitWhole (Nat.toDigits 10 n ++ rest)
        = splitDigits (Nat.toDigits 10 n ++ rest) := by
      rw [hdigits, List.cons_append]
      unfold splitWhole
      split
      · next heq =>
        cases heq
        exact absurd rfl hc
      · rfl
    rw [hsplit]
    exact splitDigits_append
      (fun c hc => Nat.isDigit_of_mem_toDigits (by decide) (by decide) hc) hrest

/-! ## Integers -/

theorem exists_toDigits_eq_digit_cons (n : Nat) :
    ∃ c digits, Nat.toDigits 10 n = c :: digits ∧ c.isDigit = true := by
  obtain ⟨c, digits, hdigits⟩ := List.exists_cons_of_ne_nil (Nat.toDigits_ne_nil (n := n) (b := 10))
  refine ⟨c, digits, hdigits, Nat.isDigit_of_mem_toDigits (n := n) (b := 10) (by decide) (by decide) ?_⟩
  rw [hdigits]
  exact List.mem_cons_self

theorem splitMinus_intText (n : Int) (rest : List Char) :
    splitMinus (intText n ++ rest) = (decide (n < 0), Nat.toDigits 10 n.natAbs ++ rest) := by
  unfold intText
  by_cases hn : n < 0
  · rw [if_pos hn, decide_eq_true hn]
    rfl
  · rw [if_neg hn, decide_eq_false hn]
    obtain ⟨c, digits, hdigits, hc⟩ := exists_toDigits_eq_digit_cons n.natAbs
    rw [hdigits, List.cons_append]
    unfold splitMinus
    split
    · next heq =>
      cases heq
      exact absurd hc (by decide)
    · rfl

/-- The numeral at the front of a text that an integer was written into. -/
theorem readNumeral_intText (n : Int) {rest : List Char} (hrest : EndsNumeral rest) :
    readNumeral (intText n ++ rest)
      = some ({ negative := decide (n < 0), whole := Nat.toDigits 10 n.natAbs, fraction := [],
                exponent := none }, rest) := by
  rw [readNumeral, splitMinus_intText]
  simp only [splitWhole_toDigits n.natAbs hrest, splitFraction_of_endsNumeral hrest,
    splitExponent_of_endsNumeral hrest]
  exact if_neg Nat.toDigits_ne_nil

/-- **The digits of an integer denote it**, if there are not too many. -/
theorem value?_toDigits {limit : Option Nat} {n : Int}
    (h : withinLimit limit (Nat.toDigits 10 n.natAbs) = true) :
    Numeral.value? limit { negative := decide (n < 0), whole := Nat.toDigits 10 n.natAbs,
                           fraction := [], exponent := none } = some (.int n) := by
  have hvalue : digitsValue (Nat.toDigits 10 n.natAbs) = n.natAbs := Nat.ofDigitChars_ten_toDigits
  have hsigned : Binary64.signed (decide (n < 0)) n.natAbs = n := by
    unfold Binary64.signed
    split
    · next hn =>
      have := of_decide_eq_true hn
      omega
    · next hn =>
      have := of_decide_eq_false (eq_false_of_ne_true hn)
      omega
  rw [Numeral.value?]
  simp only [List.isEmpty_nil, Option.isNone_none, Bool.and_self, if_true, h, hvalue, hsigned]

end SchemaForge.Json
