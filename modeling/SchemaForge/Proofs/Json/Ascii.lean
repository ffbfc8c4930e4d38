import SchemaForge.Proofs.Script.Scalar

/-!
# `SchemaForge.Proofs.Json.Ascii` — the characters that values are written with

The text of a value is printable ASCII, whatever texts the value holds: beyond the characters of
numbers, brackets and separators there are only strings in quotes, and what is not printable ASCII in
a string is escaped with a backslash, letters and digits. So no line ends within the text of a value.

## Contents
- **Characters.** `isPrintable`, and `IsPrintableText` for texts.
- **Strings.** `isPrintableText_quoteAscii`, from the two kinds of escapes.
- **Values.** `isPrintableText_encode`.
-/

namespace SchemaForge.Json

open Text

/-! ## Characters -/

/-- Whether a character is printable ASCII. -/
def isPrintable (c : Char) : Bool := decide (0x20 ≤ c.toNat) && decide (c.toNat < 0x7F)

/-- Whether all characters of a text are printable ASCII. -/
def IsPrintableText (text : List Char) : Prop := ∀ c ∈ text, isPrintable c = true

instance (text : List Char) : Decidable (IsPrintableText text) :=
  decidable_of_iff (text.all isPrintable = true) List.all_eq_true

theorem isPrintable_iff {c : Char} : isPrintable c = true ↔ 0x20 ≤ c.toNat ∧ c.toNat < 0x7F := by
  simp [isPrintable]

/-- The letters, digits and signs of numbers are ASCII. -/
theorem isPrintable_of_isNumeralChar {c : Char} (h : isNumeralChar c = true) :
    isPrintable c = true := by
  -- What letters and digits are, with the bounds of their three ranges.
  have hranges : c.isAlphanum = ((decide ('A'.val ≤ c.val ∧ c.val ≤ 'Z'.val) ||
      (decide ('a'.val ≤ c.val) && decide (c.val ≤ 'z'.val))) ||
        (decide ('0'.val ≤ c.val) && decide (c.val ≤ '9'.val))) := rfl
  simp only [isNumeralChar, hranges, Bool.or_eq_true, Bool.and_eq_true, decide_eq_true_eq,
    beq_iff_eq, UInt32.le_iff_toNat_le, Char.toNat_val] at h
  rcases h with ((h | rfl) | rfl) | rfl
  · have hA : 'A'.toNat = 65 := rfl
    have hZ : 'Z'.toNat = 90 := rfl
    have ha : 'a'.toNat = 97 := rfl
    have hz : 'z'.toNat = 122 := rfl
    have h0 : '0'.toNat = 48 := rfl
    have h9 : '9'.toNat = 57 := rfl
    exact isPrintable_iff.mpr ⟨by omega, by omega⟩
  all_goals decide

theorem isPrintableText_of_isNumeralText {text : List Char} (h : IsNumeralText text) :
    IsPrintableText text := fun c hc => isPrintable_of_isNumeralChar (h c hc)

/-! ## Strings -/

theorem isPrintableText_numeral (width n : Nat) : IsPrintableText (Hex.numeral width n) := by
  have hdigit : ∀ k ∈ List.range 16, isPrintable (Hex.digit k) = true := by decide
  induction width generalizing n with
  | zero => exact fun c hc => absurd hc List.not_mem_nil
  | succ width ih =>
    have hlast : n % 16 < 16 := Nat.mod_lt n (by decide)
    exact List.forall_mem_append.mpr ⟨ih (n / 16),
      List.forall_mem_singleton.mpr (hdigit (n % 16) (List.mem_range.mpr hlast))⟩

theorem isPrintableText_unitEscape (unit : Nat) : IsPrintableText (unitEscape unit) :=
  List.forall_mem_cons.mpr ⟨by decide,
    List.forall_mem_cons.mpr ⟨by decide, isPrintableText_numeral 4 unit⟩⟩

theorem isPrintableText_letter {c letter : Char} (h : letterFor? c = some letter) :
    IsPrintableText ['\\', letter] := by
  unfold letterFor? at h
  repeat' split at h
  all_goals first
    | cases h; decide
    | cases h

theorem isPrintableText_escapeAscii (c : Char) : IsPrintableText (escapeAscii c) := by
  unfold escapeAscii
  split
  · next letter hletter => exact isPrintableText_letter hletter
  · split
    · next hascii => exact List.forall_mem_singleton.mpr (isPrintable_iff.mpr hascii)
    · exact List.forall_mem_flatMap.mpr fun unit _ => isPrintableText_unitEscape unit

theorem isPrintableText_escapePoint (point : Text.CodePoint) :
    IsPrintableText (escapePoint point) := by
  cases point with
  | char c => exact isPrintableText_escapeAscii c
  | surrogate index => exact isPrintableText_unitEscape _

theorem isPrintableText_quotePoints (points : List Text.CodePoint) :
    IsPrintableText (quotePoints points) :=
  forall_mem_enclose (by decide) (by decide)
    (List.forall_mem_flatMap.mpr fun point _ => isPrintableText_escapePoint point)

theorem isPrintableText_quoteAscii (text : List Char) : IsPrintableText (quoteAscii text) :=
  isPrintableText_quotePoints _

/-! ## Values -/

theorem isPrintableText_encodeMember {member : String × Json}
    (h : IsPrintableText (encode member.2)) : IsPrintableText (encodeMember member) := by
  have hcolon : IsPrintableText [':', ' '] := by decide
  exact List.forall_mem_append.mpr ⟨isPrintableText_quoteAscii member.1.toList,
    List.forall_mem_append.mpr ⟨hcolon, h⟩⟩

/-- **The text of a value is printable ASCII**, whatever texts it holds. -/
theorem isPrintableText_encode (value : Json) : IsPrintableText (encode value) := by
  have hcomma : IsPrintableText [',', ' '] := by decide
  induction value with
  | null => decide
  | bool b => cases b <;> decide
  | int n => exact isPrintableText_of_isNumeralText (Script.isNumeralText_intText n)
  | float x => exact isPrintableText_of_isNumeralText (Script.isNumeralText_floatText x)
  | str s => exact isPrintableText_quoteAscii s.toList
  | arr items ih =>
    rw [encode, encodeItems_eq_intercalate]
    exact forall_mem_enclose (by decide) (by decide)
      (forall_mem_intercalate hcomma (List.forall_mem_map.mpr ih))
  | obj members ih =>
    rw [encode, encodeMembers_eq_intercalate]
    exact forall_mem_enclose (by decide) (by decide) (forall_mem_intercalate hcomma
      (List.forall_mem_map.mpr fun member hmember =>
        isPrintableText_encodeMember (ih member hmember)))

end SchemaForge.Json
