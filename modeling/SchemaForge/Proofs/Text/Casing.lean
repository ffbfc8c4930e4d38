import Mathlib.Data.List.TakeWhile
import SchemaForge.Text.Blank
import SchemaForge.Text.Letters

/-!
# `SchemaForge.Proofs.Text.Casing` — lower case in full

A name is put into lower case letter by letter, and only where an ASCII letter comes of it. Lower case
in full knows more: a character may become several ones, and one of them, the Greek sigma, becomes
another one at the end of a word. None of this makes a difference to a comparison with an ASCII text,
whatever the rules for such characters are, as long as they do not make ASCII of them.

## Contents
- **Letters.** `forall_upper` goes through the capital letters; no other character but the Kelvin sign
  changes (`lowerLetter_eq_self`).
- **Casings.** `LowerCasing`, `lowered_eq_iff` for comparisons with ASCII texts, and `withSigma` as a
  casing that looks at the characters around.
- **Blanks.** `trim_lowerName`, and `trim_padded` for blanks at the ends.
- **Spellings.** `Variant` spellings of a name have one form, `lowerName_trim_of_variant`.
-/

namespace SchemaForge.Text

/-! ## Letters -/

/-- What holds of `A` to `Z` holds of every capital letter. -/
theorem forall_upper {P : Char → Prop} (h : ∀ n ∈ List.range 26, P (Char.ofNat (0x41 + n)))
    {c : Char} (hc : c.isUpper = true) : P c := by
  obtain ⟨hlow, hhigh⟩ := of_decide_eq_true hc
  have hlow : 0x41 ≤ c.toNat := UInt32.le_iff_toNat_le.mp hlow
  have hhigh : c.toNat ≤ 0x5A := UInt32.le_iff_toNat_le.mp hhigh
  have hletter := h (c.toNat - 0x41) (List.mem_range.mpr (by omega))
  rwa [Nat.add_sub_cancel' hlow, Char.ofNat_toNat] at hletter

theorem isUpper_eq_false {c : Char} (h : 0x80 ≤ c.toNat) : c.isUpper = false := by
  refine decide_eq_false ?_
  rintro ⟨-, hhigh⟩
  have hhigh : c.toNat ≤ 0x5A := UInt32.le_iff_toNat_le.mp hhigh
  omega

theorem toLower_eq_self {c : Char} (h : c.isUpper = false) : c.toLower = c :=
  dif_neg (of_decide_eq_false h)

theorem lowerLetter_eq_self {c : Char} (h : c.isUpper = false) (hkelvin : c ≠ '\u212a') :
    lowerLetter c = c := by
  rw [lowerLetter, if_neg hkelvin, toLower_eq_self h]

/-- The case of an ASCII letter does not matter to its lower-case form. -/
theorem lowerLetter_toLower (c : Char) : lowerLetter c.toLower = lowerLetter c := by
  cases hc : c.isUpper with
  | true => exact forall_upper (P := fun c => lowerLetter c.toLower = lowerLetter c) (by decide) hc
  | false => rw [toLower_eq_self hc]

theorem isBlank_lowerLetter (c : Char) : isBlank (lowerLetter c) = isBlank c := by
  cases hc : c.isUpper with
  | true => exact forall_upper (P := fun c => isBlank (lowerLetter c) = isBlank c) (by decide) hc
  | false =>
    by_cases hkelvin : c = '\u212a'
    · subst hkelvin
      decide
    · rw [lowerLetter_eq_self hc hkelvin]

/-! ## Casings -/

/-- **A way to put texts into lower case.** What a character becomes may depend on the characters in
front of it and behind it. For ASCII characters and for the Kelvin sign it does not, and any other
character becomes something that is not ASCII throughout. -/
structure LowerCasing where
  /-- What a character becomes between two texts. -/
  form : List Char → Char → List Char → List Char
  form_ascii : ∀ {c : Char}, c.toNat < 0x80 ∨ c = '\u212a' → ∀ front behind,
    form front c behind = [lowerLetter c]
  form_foreign : ∀ {c : Char}, 0x80 ≤ c.toNat → c ≠ '\u212a' → ∀ front behind,
    ∃ x ∈ form front c behind, 0x80 ≤ x.toNat

namespace LowerCasing

variable (casing : LowerCasing)

/-- A text in lower case, behind another one. -/
def loweredFrom (front : List Char) : List Char → List Char
  | [] => []
  | c :: rest => casing.form front c rest ++ loweredFrom (front ++ [c]) rest

/-- A text in lower case. -/
def lowered (text : List Char) : List Char := casing.loweredFrom [] text

theorem loweredFrom_eq_iff {name : List Char} (hname : ∀ c ∈ name, c.toNat < 0x80)
    (front text : List Char) : casing.loweredFrom front text = name ↔ lowerName text = name := by
  induction text generalizing front name with
  | nil => rfl
  | cons c rest ih =>
    rw [loweredFrom, lowerName, List.map_cons]
    by_cases hc : c.toNat < 0x80 ∨ c = '\u212a'
    · rw [casing.form_ascii hc, List.singleton_append]
      cases name with
      | nil => simp
      | cons d name =>
        rw [List.cons.injEq, List.cons.injEq, ih (List.forall_mem_cons.mp hname).2]
        rfl
    · -- On either side there is a character that no ASCII text has.
      obtain ⟨hascii, hkelvin⟩ := not_or.mp hc
      have hforeign : 0x80 ≤ c.toNat := Nat.le_of_not_lt hascii
      constructor
      · rintro rfl
        obtain ⟨x, hx, hlarge⟩ := casing.form_foreign hforeign hkelvin front rest
        exact absurd (hname x (List.mem_append_left _ hx)) (Nat.not_lt.mpr hlarge)
      · rintro rfl
        rw [lowerLetter_eq_self (isUpper_eq_false hforeign) hkelvin] at hname
        exact absurd (hname c List.mem_cons_self) hascii

/-- **In a comparison with an ASCII text, all casings agree.** -/
theorem lowered_eq_iff {name : List Char} (hname : ∀ c ∈ name, c.toNat < 0x80)
    (text : List Char) : casing.lowered text = name ↔ lowerName text = name :=
  casing.loweredFrom_eq_iff hname [] text

/-- Lower case with two of the rules for other characters: a capital sigma becomes the final one at the
end of a text, and a capital I with a dot keeps its dot as a character of its own. -/
def withSigma : LowerCasing where
  form _ c behind :=
    if c = 'Σ' then if behind = [] then ['ς'] else ['σ']
    else if c = 'İ' then ['i', '\u0307']
    else [lowerLetter c]
  form_ascii := by
    intro c hc front behind
    rw [if_neg, if_neg]
    · rintro rfl
      exact absurd hc (by decide)
    · rintro rfl
      exact absurd hc (by decide)
  form_foreign := by
    intro c hforeign hkelvin front behind
    split
    · split
      · exact ⟨'ς', List.mem_cons_self, by decide⟩
      · exact ⟨'σ', List.mem_cons_self, by decide⟩
    · split
      · exact ⟨'\u0307', by decide, by decide⟩
      · rw [lowerLetter_eq_self (isUpper_eq_false hforeign) hkelvin]
        exact ⟨c, List.mem_cons_self, hforeign⟩

end LowerCasing

/-! ## Blanks -/

theorem trim_lowerName (text : List Char) : trim (lowerName text) = lowerName (trim text) := by
  have hblank : isBlank ∘ lowerLetter = isBlank := funext isBlank_lowerLetter
  simp only [trim, lowerName, List.dropWhile_map, hblank, ← List.map_reverse]

/-- Blanks in front of a text and behind it are trimmed with those of the text. -/
theorem trim_padded {front behind : List Char} (hfront : ∀ c ∈ front, isBlank c = true)
    (hbehind : ∀ c ∈ behind, isBlank c = true) (text : List Char) :
    trim (front ++ text ++ behind) = trim text := by
  rw [trim, List.append_assoc, List.dropWhile_append_of_pos hfront, List.dropWhile_append, trim]
  split
  · next hempty =>
    -- The text is nothing but blanks, and so is what stands behind it.
    rw [List.isEmpty_iff.mp hempty, List.dropWhile_eq_nil_iff.mpr hbehind]
  · rw [List.reverse_append, List.dropWhile_append_of_pos]
    exact fun c hc => hbehind c (List.mem_reverse.mp hc)

/-! ## Spellings -/

/-- **Whether a text is another spelling of a name**: it has the same characters, but for the case of
ASCII letters, and blanks around them. -/
def Variant (name other : List Char) : Prop :=
  ∃ front middle behind, other = front ++ middle ++ behind ∧
    (∀ c ∈ front, isBlank c = true) ∧ (∀ c ∈ behind, isBlank c = true) ∧
    middle.map Char.toLower = name.map Char.toLower

theorem lowerName_map_toLower (text : List Char) :
    lowerName (text.map Char.toLower) = lowerName text := by
  rw [lowerName, lowerName, List.map_map]
  exact List.map_congr_left fun c _ => lowerLetter_toLower c

/-- All spellings of a name are looked up in one form. -/
theorem lowerName_trim_of_variant {name other : List Char} (h : Variant name other) :
    lowerName (trim other) = lowerName (trim name) := by
  obtain ⟨front, middle, behind, rfl, hfront, hbehind, hletters⟩ := h
  have hmiddle : lowerName middle = lowerName name := by
    rw [← lowerName_map_toLower middle, hletters, lowerName_map_toLower]
  rw [trim_padded hfront hbehind, ← trim_lowerName, hmiddle, trim_lowerName]

end SchemaForge.Text
