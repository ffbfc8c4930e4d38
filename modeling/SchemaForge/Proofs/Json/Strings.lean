import SchemaForge.Json.Quote

/-!
# `SchemaForge.Proofs.Json.Strings` — reading strings back

The reader of a string takes one escape, or one character that stands for itself, at a time. So
whatever a character was written as is read back as its units, in front of any text; and the units
of a whole text are joined to the text again.

## Contents
- **Characters.** `readUnits_letter` and `readUnits_unitEscape` for the two kinds of escapes,
  `readUnits_plain` for what is not escaped.
- **Texts.** `readQuoted_escapeAscii`, for strings that hold ASCII only.
-/

namespace SchemaForge.Json

open Text

/-! ## Characters -/

theorem letterValue?_letterFor? {c letter : Char} (h : letterFor? c = some letter) :
    letterValue? letter = some c.toNat ∧ letter ≠ 'u' := by
  unfold letterFor? at h
  repeat' split at h
  all_goals first
    | cases h; subst_vars; decide
    | cases h

/-- A character that has a letter is no more than one unit. -/
theorem units_of_letterFor? {c letter : Char} (h : letterFor? c = some letter) :
    units c = [c.toNat] := by
  unfold letterFor? at h
  repeat' split at h
  all_goals first
    | subst_vars; rfl
    | cases h

/-- An escape by a letter is read back. -/
theorem readUnits_letter {c letter : Char} (h : letterFor? c = some letter) (rest : List Char) :
    readUnits (['\\', letter] ++ rest)
      = (readUnits rest).map fun (units, behind) => (c.toNat :: units, behind) := by
  obtain ⟨hvalue, hne⟩ := letterValue?_letterFor? h
  rw [List.cons_append, List.singleton_append, readUnits, hvalue]
  · cases readUnits rest <;> rfl
  · rintro a b c d rest' rfl
    exact absurd rfl hne

/-- An escape of a unit is read back. -/
theorem readUnits_unitEscape {unit : Nat} (h : unit < 0x10000) (rest : List Char) :
    readUnits (unitEscape unit ++ rest)
      = (readUnits rest).map fun (units, behind) => (unit :: units, behind) := by
  obtain ⟨a, b, c, d, hdigits, hread⟩ := Hex.exists_numeral_four h
  rw [unitEscape, hdigits]
  simp only [List.cons_append, List.nil_append]
  rw [readUnits, hread]
  cases readUnits rest <;> rfl

/-- What is not escaped is read as it stands. -/
theorem readUnits_plain {c : Char} (hletter : letterFor? c = none) (hcontrol : 0x20 ≤ c.toNat)
    (rest : List Char) :
    readUnits ([c] ++ rest)
      = (readUnits rest).map fun (units, behind) => (c.toNat :: units, behind) := by
  have hslash : c ≠ '\\' := by
    rintro rfl
    cases hletter
  rw [List.singleton_append, readUnits, if_neg (by simp [Nat.not_lt.mpr hcontrol, hslash])]
  · cases readUnits rest <;> rfl
  · rintro rfl
    cases hletter
  · rintro a b c d rest' rfl
    exact absurd rfl hslash
  · rintro letter rest' rfl
    exact absurd rfl hslash

/-- Escapes of units are read back one by one. -/
theorem readUnits_flatMap_unitEscape {run : List Nat} (h : ∀ unit ∈ run, unit < 0x10000)
    (rest : List Char) :
    readUnits (run.flatMap unitEscape ++ rest)
      = (readUnits rest).map fun (units, behind) => (run ++ units, behind) := by
  induction run with
  | nil =>
    rw [List.flatMap_nil, List.nil_append]
    cases readUnits rest <;> rfl
  | cons unit more ih =>
    obtain ⟨hunit, hmore⟩ := List.forall_mem_cons.mp h
    rw [List.flatMap_cons, List.append_assoc, readUnits_unitEscape hunit, ih hmore]
    cases readUnits rest <;> rfl

/-- A character that is written in ASCII is read back as its units. -/
theorem readUnits_escapeAscii (c : Char) (rest : List Char) :
    readUnits (escapeAscii c ++ rest)
      = (readUnits rest).map fun (run, behind) => (units c ++ run, behind) := by
  unfold escapeAscii
  split
  · next letter hletter =>
    rw [readUnits_letter hletter, units_of_letterFor? hletter]
    rfl
  · next hletter =>
    split
    · next hascii =>
      have hunits : units c = [c.toNat] := if_pos (by omega)
      rw [readUnits_plain hletter hascii.1, hunits]
      rfl
    · exact readUnits_flatMap_unitEscape (fun _ => lt_of_mem_units) rest

/-! ## Texts -/

/-- **An ASCII string is read back**, up to its closing quote. -/
theorem readQuoted_escapeAscii (text rest : List Char) :
    readQuoted (text.flatMap escapeAscii ++ '"' :: rest) = some (text, rest) := by
  have hread : readUnits (text.flatMap escapeAscii ++ '"' :: rest)
      = some (text.flatMap units, rest) := by
    induction text with
    | nil => rfl
    | cons c text ih =>
      rw [List.flatMap_cons, List.append_assoc, readUnits_escapeAscii, ih]
      rfl
  rw [readQuoted, hread]
  exact congrArg (fun text => some (text, rest)) (joinUnits_flatMap_units text)

end SchemaForge.Json
