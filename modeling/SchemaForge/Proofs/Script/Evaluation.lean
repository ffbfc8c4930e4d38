import SchemaForge.Proofs.Script.Literal

/-!
# `SchemaForge.Proofs.Script.Evaluation` — the value of a string literal

What a script sees of a string literal is a run of 16-bit units. Its reader knows more than the
literals that are written here make use of: escapes of two digits and of whole code points, characters
that a backslash does not change, and line ends that a backslash removes. It refuses the octal escapes,
which modules do not have. Whether a separator of lines may stand raw in a literal depends on the age
of the reader, so that is a parameter throughout.

Every escape is longer than its value. So a text that is put between quotes as it is keeps its value
only if it has no escape in it.

## Contents
- **Escapes.** `readEscape`, and `exists_spelled_of_readEscape` on the length of escapes.
- **Reading.** `evaluate`, and `Evaluates` for whole literals.
- **Written literals.** `evaluate_of_scan`: what the reader of written literals accepts has the value
  that it finds. Hence `evaluates_doubleQuoted`.
- **Verbatim texts.** `IsVerbatim`, and `evaluate_eq_self_iff`.
-/

namespace SchemaForge.Script

open Text

/-! ## Escapes -/

/-- The units of a code point. -/
def codeUnits (code : Nat) : List Nat :=
  if code < 0x10000 then [code]
  else [0xD800 + (code - 0x10000) / 0x400, 0xDC00 + (code - 0x10000) % 0x400]

theorem codeUnits_toNat (c : Char) : codeUnits c.toNat = units c := rfl

/-- The units of a character behind a backslash that begins no longer escape: those of the character
itself, unless it is one of the letters that stand for another one. -/
def escapedUnits (c : Char) : List Nat :=
  if c = 'v' then [0x0B]
  else match letterValue? c with
    | some code => [code]
    | none => units c

/-- The units of the code point whose digits stand in front of a closing brace, and the text behind
the brace. -/
def readCodePoint (text : List Char) : Option (List Nat × List Char) :=
  match text.dropWhile (· != '\x7d') with
  | [] => none
  | _ :: rest =>
    match text.takeWhile (· != '\x7d') with
    | [] => none
    | digits => do
      let code ← Hex.numeral? digits
      if code ≤ 0x10FFFF then return (codeUnits code, rest) else none

/-- The units of the escape behind a backslash, and the text behind the escape. -/
def readEscape : List Char → Option (List Nat × List Char)
  | [] => none
  | 'u' :: '\x7b' :: rest => readCodePoint rest
  | 'u' :: a :: b :: c :: d :: rest => (Hex.numeral? [a, b, c, d]).map fun unit => ([unit], rest)
  | 'x' :: a :: b :: rest => (Hex.numeral? [a, b]).map fun unit => ([unit], rest)
  | '\r' :: '\n' :: rest => some ([], rest)
  | c :: rest =>
    if isTerminator c then some ([], rest)
    else if c = '0' then if rest.head?.any Char.isDigit then none else some ([0], rest)
    else if c.isDigit ∨ c = 'u' ∨ c = 'x' then none
    else some (escapedUnits c, rest)

example : readEscape "u\x7b1F600\x7d!".toList = some ([0xD83D, 0xDE00], ['!']) := by decide

theorem one_le_length_units (c : Char) : 1 ≤ (units c).length := by
  unfold units
  split
  · exact Nat.le_refl 1
  · exact Nat.le_succ 1

theorem length_le_length_flatMap_units (text : List Char) :
    text.length ≤ (text.flatMap units).length := by
  induction text with
  | nil => exact Nat.le_refl 0
  | cons c rest ih =>
    have hfirst := one_le_length_units c
    rw [List.flatMap_cons, List.length_append, List.length_cons]
    omega

theorem length_codeUnits_le (code : Nat) : (codeUnits code).length ≤ 2 := by
  unfold codeUnits
  split
  · exact Nat.le_succ 1
  · exact Nat.le_refl 2

theorem length_escapedUnits_le (c : Char) : (escapedUnits c).length ≤ (units c).length := by
  unfold escapedUnits
  split
  · exact one_le_length_units c
  · split
    · exact one_le_length_units c
    · exact Nat.le_refl _

/-- The digits of a code point stand in front of the closing brace, and there is at least one. -/
theorem exists_digits_of_readCodePoint {text rest : List Char} {run : List Nat}
    (h : readCodePoint text = some (run, rest)) :
    ∃ digit digits, text = digit :: digits ++ '\x7d' :: rest ∧ run.length ≤ 2 := by
  unfold readCodePoint at h
  split at h
  · cases h
  · next close behind hclose =>
    obtain rfl : close = '\x7d' := by
      have hhead := List.head?_dropWhile_not (· != '\x7d') text
      simpa [hclose] using hhead
    split at h
    · cases h
    · next digits hne =>
      obtain ⟨code, -, h⟩ := Option.bind_eq_some_iff.mp h
      split at h
      · cases h
        obtain ⟨digit, more, hdigits⟩ := List.exists_cons_of_ne_nil hne
        refine ⟨digit, more, ?_, length_codeUnits_le code⟩
        rw [← hdigits, ← hclose, List.takeWhile_append_dropWhile]
      · cases h

/-- **No escape has more units than its spelling**, the backslash aside. -/
theorem exists_spelled_of_readEscape {text rest : List Char} {run : List Nat}
    (h : readEscape text = some (run, rest)) :
    ∃ spelled, text = spelled ++ rest ∧ run.length ≤ (spelled.flatMap units).length := by
  -- All escapes but one have no more units than characters.
  have hshort (spelled : List Char) (htext : text = spelled ++ rest)
      (hlength : run.length ≤ spelled.length) :
      ∃ spelled, text = spelled ++ rest ∧ run.length ≤ (spelled.flatMap units).length :=
    ⟨spelled, htext, Nat.le_trans hlength (length_le_length_flatMap_units spelled)⟩
  unfold readEscape at h
  split at h
  · cases h
  · next behind =>
    obtain ⟨digit, digits, rfl, hlength⟩ := exists_digits_of_readCodePoint h
    refine hshort ('u' :: '\x7b' :: digit :: digits ++ ['\x7d']) (by simp) ?_
    simp only [List.length_append, List.length_cons]
    omega
  · next a b c d behind _ =>
    obtain ⟨unit, -, h⟩ := Option.map_eq_some_iff.mp h
    cases h
    exact hshort ['u', a, b, c, d] rfl (Nat.le_add_left 1 4)
  · next a b behind =>
    obtain ⟨unit, -, h⟩ := Option.map_eq_some_iff.mp h
    cases h
    exact hshort ['x', a, b] rfl (Nat.le_add_left 1 2)
  · next behind =>
    cases h
    exact hshort ['\r', '\n'] rfl (by decide)
  · next c behind _ _ _ _ =>
    split at h
    · cases h
      exact hshort [c] rfl (Nat.zero_le 1)
    · split at h
      · split at h
        · cases h
        · cases h
          exact hshort [c] rfl (Nat.le_refl 1)
      · split at h
        · cases h
        · cases h
          refine ⟨[c], rfl, ?_⟩
          rw [List.flatMap_singleton]
          exact length_escapedUnits_le c

theorem length_of_readEscape {text rest : List Char} {run : List Nat}
    (h : readEscape text = some (run, rest)) : rest.length ≤ text.length := by
  obtain ⟨spelled, rfl, -⟩ := exists_spelled_of_readEscape h
  rw [List.length_append]
  exact Nat.le_add_left _ _

/-! ## Reading -/

/-- Whether a character must not stand in a literal as it is: it ends a line, and is no separator of
lines or one that may not stand there either. -/
def breaksLiteral (separators : Bool) (c : Char) : Bool :=
  isTerminator c && !(separators && isSeparator c)

/-- The units of a string literal up to the closing quote, and the text behind it. -/
def evaluate (separators : Bool) (quote : Char) (text : List Char) :
    Option (List Nat × List Char) :=
  match text with
  | [] => none
  | c :: rest =>
    if c = quote then some ([], rest)
    else if c = '\\' then
      match h : readEscape rest with
      | none => none
      | some (run, behind) =>
        have : behind.length ≤ rest.length := length_of_readEscape h
        (evaluate separators quote behind).map fun (others, behind) => (run ++ others, behind)
    else if breaksLiteral separators c then none
    else (evaluate separators quote rest).map fun (others, behind) => (units c ++ others, behind)
termination_by text.length

/-- **Whether code is a string literal with the value of a text**: it is opened by its first character
and closed by its last one, and the units in between are those of the text. -/
def Evaluates (separators : Bool) (quote : Char) (code text : String) : Prop :=
  ∃ body, code.toList = quote :: body ∧
    evaluate separators quote body = some (text.toList.flatMap units, [])

section

variable {separators : Bool} {quote : Char} {text rest : List Char} {run : List Nat}

theorem evaluate_close : evaluate separators quote (quote :: rest) = some ([], rest) := by
  rw [evaluate, if_pos rfl]

theorem evaluate_escape (hquote : quote ≠ '\\') (h : readEscape text = some (run, rest)) :
    evaluate separators quote ('\\' :: text)
      = (evaluate separators quote rest).map fun (others, behind) => (run ++ others, behind) := by
  rw [evaluate, if_neg hquote.symm, if_pos rfl]
  split
  · next hnone => cases hnone.symm.trans h
  · next hsome =>
    cases hsome.symm.trans h
    rfl

theorem evaluate_raw {c : Char} (hquote : c ≠ quote) (hslash : c ≠ '\\')
    (hline : breaksLiteral separators c = false) :
    evaluate separators quote (c :: rest)
      = (evaluate separators quote rest).map fun (others, behind) => (units c ++ others, behind) := by
  rw [evaluate, if_neg hquote, if_neg hslash, if_neg (by simp [hline])]

/-! ## Written literals -/

theorem readEscape_unit {a b c d : Char} {unit : Nat}
    (h : Hex.numeral? [a, b, c, d] = some unit) :
    readEscape ('u' :: a :: b :: c :: d :: rest) = some (codeUnits unit, rest) := by
  have hlength : unit < Nat.pow 16 4 := Hex.numeral?_lt h
  have hunit : unit < 0x10000 := hlength
  have hbrace : a ≠ '\x7b' := by
    rintro rfl
    cases h
  rw [readEscape, h, codeUnits, if_pos hunit]
  · rfl
  · exact hbrace

theorem readEscape_letter {letter : Char} {code : Nat} (h : letterValue? letter = some code) :
    readEscape (letter :: rest) = some (codeUnits code, rest) := by
  unfold letterValue? Json.letterValue? at h
  repeat' split at h
  all_goals first
    | cases h; subst_vars; rfl
    | cases h

/-- **What the reader of written literals reads is what a script reads.** It also takes a whole code
point for a unit. -/
theorem evaluate_of_scan (hquote : quote ≠ '\\') (h : scan quote text = some (run, rest)) :
    evaluate separators quote text = some (run.flatMap codeUnits, rest) := by
  have hscans := scans_of_scan h
  clear h
  induction hscans with
  | close behind => exact evaluate_close
  | unit hunit _ ih =>
    rw [evaluate_escape hquote (readEscape_unit hunit), ih]
    rfl
  | letter hcode _ ih =>
    rw [evaluate_escape hquote (readEscape_letter hcode), ih]
    rfl
  | raw hne hline hslash _ ih =>
    rw [evaluate_raw hne hslash (by simp [breaksLiteral, hline]), ih]
    rfl

/-- **A text in double quotes is a literal with the value of the text**, for old readers and new. -/
theorem evaluates_doubleQuoted (separators : Bool) (text : String) :
    Evaluates separators '"' (doubleQuoted text) text := by
  have hscan : scan '"' (text.toList.flatMap escape ++ ['"'])
      = some (text.toList.flatMap fun c => [c.toNat], []) :=
    scan_flatMap (by decide) (fun _ => reads_escape (Or.inr rfl)) text.toList []
  refine ⟨_, String.toList_ofList, ?_⟩
  rw [evaluate_of_scan (by decide) hscan]
  simp only [List.flatMap_assoc, List.flatMap_singleton, codeUnits_toNat]

/-! ## Verbatim texts -/

/-- **Whether a text may stand between quotes as it is**: it has neither the quote nor a backslash, nor
a character that breaks a literal. -/
def IsVerbatim (separators : Bool) (quote : Char) (text : List Char) : Prop :=
  ∀ c ∈ text, c ≠ quote ∧ c ≠ '\\' ∧ breaksLiteral separators c = false

instance : Decidable (IsVerbatim separators quote text) :=
  decidable_of_iff (text.all fun c =>
      decide (c ≠ quote ∧ c ≠ '\\' ∧ breaksLiteral separators c = false)) (by simp [IsVerbatim])

/-- Such a text between quotes is read as it stands. -/
theorem evaluate_of_isVerbatim (h : IsVerbatim separators quote text) :
    evaluate separators quote (text ++ quote :: rest) = some (text.flatMap units, rest) := by
  induction text with
  | nil => exact evaluate_close
  | cons c text ih =>
    obtain ⟨⟨hquote, hslash, hline⟩, htext⟩ := List.forall_mem_cons.mp h
    rw [List.cons_append, evaluate_raw hquote hslash hline, ih htext]
    rfl

/-- A literal is read from its content, and has no more units than that. With as many, the content
stands there as it is. -/
theorem exists_content_of_evaluate (h : evaluate separators quote text = some (run, rest)) :
    ∃ content, text = content ++ quote :: rest ∧ run.length ≤ (content.flatMap units).length ∧
      (run.length = (content.flatMap units).length → IsVerbatim separators quote content) := by
  fun_induction evaluate separators quote text generalizing run rest with
  | case1 => cases h
  | case2 behind =>
    cases h
    exact ⟨[], rfl, Nat.le_refl 0, fun _ => nofun⟩
  | case3 => cases h
  | case4 text run' behind hescape _ _ ih =>
    obtain ⟨⟨others, behind'⟩, hothers, h⟩ := Option.map_eq_some_iff.mp h
    cases h
    obtain ⟨content, rfl, hlength, -⟩ := ih hothers
    obtain ⟨spelled, rfl, hspelled⟩ := exists_spelled_of_readEscape hescape
    -- The backslash is a unit more than the value of the escape can have.
    have hmore : (run' ++ others).length
        < (('\\' :: spelled ++ content).flatMap units).length := by
      have hslash := one_le_length_units '\\'
      rw [List.cons_append, List.flatMap_cons, List.flatMap_append, List.length_append,
        List.length_append, List.length_append]
      omega
    refine ⟨'\\' :: spelled ++ content, ?_, Nat.le_of_lt hmore, fun heq => absurd heq (Nat.ne_of_lt hmore)⟩
    rw [List.append_assoc]
    rfl
  | case5 => cases h
  | case6 c text hquote hslash hline ih =>
    obtain ⟨⟨others, behind'⟩, hothers, h⟩ := Option.map_eq_some_iff.mp h
    cases h
    obtain ⟨content, rfl, hlength, hverbatim⟩ := ih hothers
    refine ⟨c :: content, rfl, ?_, fun heq => List.forall_mem_cons.mpr ⟨?_, hverbatim ?_⟩⟩
    · rw [List.flatMap_cons, List.length_append, List.length_append]
      omega
    · exact ⟨hquote, hslash, by simpa using hline⟩
    · rw [List.flatMap_cons, List.length_append, List.length_append] at heq
      omega

/-- **A text that is put between quotes as it is keeps its value exactly if it may stand
there.** -/
theorem evaluate_eq_self_iff :
    evaluate separators quote (text ++ quote :: rest) = some (text.flatMap units, rest) ↔
      IsVerbatim separators quote text := by
  constructor
  · intro h
    obtain ⟨content, hcontent, -, hverbatim⟩ := exists_content_of_evaluate h
    obtain rfl := List.append_cancel_right hcontent
    exact hverbatim rfl
  · exact evaluate_of_isVerbatim

end

end SchemaForge.Script
