import Mathlib.Data.List.Basic
import SchemaForge.Script.Quote

/-!
# `SchemaForge.Proofs.Script.Literal` — reading string literals back

Three kinds of string literals are written: in double quotes, in single quotes, and in double quotes
with ASCII characters only. They differ in how a character is escaped and agree in how an escape is
read, so one reader does for all: it goes through a literal up to the quote that closes it. A text
is read back from its literal, and hence the literal and whatever follows it determine the text and
what follows.

## Contents
- **Reading.** `scan` reads the units of a literal, as `Scans` says step by step.
- **Pieces.** `Reads` says what a piece of a literal contributes; the pieces are characters that
  stand for themselves, letters behind a backslash, and escapes of units.
- **Literals.** `scan_flatMap`; `doubleQuoted_append_inj`, `singleQuoted_append_inj` and
  `quoteAscii_append_inj`.
- **Surrogates.** `quotePoints_eq_iff`: which texts with surrogates have one literal.
-/

namespace SchemaForge.Script

open Text

/-! ## Reading -/

/-- The code of the character that a letter behind a backslash stands for. -/
def letterValue? (letter : Char) : Option Nat :=
  if letter = '\'' then some 0x27 else Json.letterValue? letter

/-- Whether a character ends a line. -/
def isTerminator (c : Char) : Bool := c == '\n' || c == '\r' || isSeparator c

/-- The units of a string literal up to the closing quote, and the text behind it. A line
terminator, an unknown escape and a missing quote are refused. -/
def scan (quote : Char) : List Char → Option (List Nat × List Char)
  | [] => none
  | '\\' :: 'u' :: a :: b :: c :: d :: rest => do
    let unit ← Hex.numeral? [a, b, c, d]
    let (units, rest) ← scan quote rest
    return (unit :: units, rest)
  | '\\' :: letter :: rest => do
    let code ← letterValue? letter
    let (units, rest) ← scan quote rest
    return (code :: units, rest)
  | c :: rest =>
    if c = quote then some ([], rest)
    else if isTerminator c ∨ c = '\\' then none
    else do
      let (units, rest) ← scan quote rest
      return (c.toNat :: units, rest)

/-- **How a literal is read**: one escape, or one character that stands for itself, at a time, up to the
closing quote. -/
inductive Scans (quote : Char) : List Char → List Nat → List Char → Prop where
  | close (rest : List Char) : Scans quote (quote :: rest) [] rest
  | unit {a b c d : Char} {unit : Nat} {text rest : List Char} {units : List Nat} :
    Hex.numeral? [a, b, c, d] = some unit → Scans quote text units rest →
      Scans quote ('\\' :: 'u' :: a :: b :: c :: d :: text) (unit :: units) rest
  | letter {letter : Char} {code : Nat} {text rest : List Char} {units : List Nat} :
    letterValue? letter = some code → Scans quote text units rest →
      Scans quote ('\\' :: letter :: text) (code :: units) rest
  | raw {c : Char} {text rest : List Char} {units : List Nat} :
    c ≠ quote → isTerminator c = false → c ≠ '\\' → Scans quote text units rest →
      Scans quote (c :: text) (c.toNat :: units) rest

theorem scans_of_scan {quote : Char} {text rest : List Char} {units : List Nat}
    (h : scan quote text = some (units, rest)) : Scans quote text units rest := by
  fun_induction scan quote text generalizing units rest with
  | case1 => cases h
  | case2 a b c d behind ih =>
    obtain ⟨unit, hunit, h⟩ := Option.bind_eq_some_iff.mp h
    obtain ⟨⟨others, rest'⟩, hothers, h⟩ := Option.bind_eq_some_iff.mp h
    cases h
    exact .unit hunit (ih hothers)
  | case3 letter behind _ ih =>
    obtain ⟨code, hcode, h⟩ := Option.bind_eq_some_iff.mp h
    obtain ⟨⟨others, rest'⟩, hothers, h⟩ := Option.bind_eq_some_iff.mp h
    cases h
    exact .letter hcode (ih hothers)
  | case4 behind =>
    cases h
    exact .close _
  | case5 => cases h
  | case6 c behind _ _ hquote hplain ih =>
    obtain ⟨⟨others, rest'⟩, hothers, h⟩ := Option.bind_eq_some_iff.mp h
    cases h
    obtain ⟨hline, hslash⟩ := not_or.mp hplain
    exact .raw hquote (by simpa using hline) hslash (ih hothers)

/-! ## Pieces -/

/-- Whether a piece of a literal reads as the given units, whatever follows. -/
def Reads (quote : Char) (piece : List Char) (units : List Nat) : Prop :=
  ∀ rest, scan quote (piece ++ rest)
    = (scan quote rest).map fun (others, behind) => (units ++ others, behind)

variable {quote : Char}

theorem reads_nil : Reads quote [] [] := by
  intro rest
  show scan quote rest = _
  cases scan quote rest <;> rfl

theorem Reads.append {first second : List Char} {units others : List Nat}
    (hfirst : Reads quote first units) (hsecond : Reads quote second others) :
    Reads quote (first ++ second) (units ++ others) := by
  intro rest
  rw [List.append_assoc, hfirst, hsecond]
  cases scan quote rest with
  | none => rfl
  | some result => simp

/-- Piece after piece is read. -/
theorem reads_flatMap {α : Type} {items : List α} {f : α → List Char} {g : α → List Nat}
    (h : ∀ item ∈ items, Reads quote (f item) (g item)) :
    Reads quote (items.flatMap f) (items.flatMap g) := by
  induction items with
  | nil => exact reads_nil
  | cons item rest ih =>
    rw [List.flatMap_cons, List.flatMap_cons]
    exact (h item List.mem_cons_self).append (ih fun other hother => h other
      (List.mem_cons_of_mem _ hother))

/-- A character that is neither the quote nor a backslash and ends no line stands for itself. -/
theorem reads_raw {c : Char} (hquote : c ≠ quote) (hline : isTerminator c = false)
    (hslash : c ≠ '\\') : Reads quote [c] [c.toNat] := by
  intro rest
  rw [List.singleton_append, scan, if_neg hquote, if_neg (by simp [hline, hslash])]
  · cases scan quote rest <;> rfl
  · rintro a b c d rest' rfl
    exact absurd rfl hslash
  · rintro letter rest' rfl
    exact absurd rfl hslash

/-- A letter behind a backslash stands for its character. -/
theorem reads_letter {letter : Char} {code : Nat} (h : letterValue? letter = some code) :
    Reads quote ['\\', letter] [code] := by
  intro rest
  rw [List.cons_append, List.singleton_append, scan, h]
  · cases scan quote rest <;> rfl
  · rintro a b c d rest' rfl
    cases h

/-- An escape stands for its unit. -/
theorem reads_unitEscape {unit : Nat} (h : unit < 0x10000) :
    Reads quote (Json.unitEscape unit) [unit] := by
  intro rest
  obtain ⟨a, b, c, d, hdigits, hread⟩ := Hex.exists_numeral_four h
  rw [Json.unitEscape, hdigits]
  simp only [List.cons_append, List.nil_append]
  rw [scan, hread]
  cases scan quote rest <;> rfl

/-- The one-letter escapes of JSON are read as they were written, and stand for ASCII. -/
theorem letterValue?_of_letterFor? {c letter : Char} (h : Json.letterFor? c = some letter) :
    letterValue? letter = some c.toNat ∧ c.toNat < 0x80 := by
  unfold Json.letterFor? at h
  repeat' split at h
  all_goals first
    | cases h; subst_vars; decide
    | cases h

theorem isSeparator_eq_false {c : Char} (h : c.toNat < 0x80) : isSeparator c = false := by
  have hline : c ≠ '\u2028' := by
    rintro rfl
    exact absurd h (by decide)
  have hparagraph : c ≠ '\u2029' := by
    rintro rfl
    exact absurd h (by decide)
  simp [isSeparator, hline, hparagraph]

theorem isTerminator_eq_false {c : Char} (hcontrol : 0x20 ≤ c.toNat)
    (hseparator : isSeparator c = false) : isTerminator c = false := by
  have hfeed : c ≠ '\n' := by
    rintro rfl
    exact absurd hcontrol (by decide)
  have hreturn : c ≠ '\r' := by
    rintro rfl
    exact absurd hcontrol (by decide)
  simp [isTerminator, hfeed, hreturn, hseparator]

/-- An escaped character reads as its code point; a quote that escaping leaves alone does not
occur. -/
theorem reads_escape {c : Char} (hquote : c ≠ quote ∨ quote = '"') :
    Reads quote (escape c) [c.toNat] := by
  unfold escape
  split
  · next hseparator =>
    apply reads_unitEscape
    rcases isSeparator_iff.mp hseparator with rfl | rfl <;> decide
  · next hseparator =>
    unfold Json.escape
    split
    · next letter hletter => exact reads_letter (letterValue?_of_letterFor? hletter).1
    · next hletter =>
      split
      · next hcontrol => exact reads_unitEscape (by omega)
      · next hcontrol =>
        have hline : isTerminator c = false :=
          isTerminator_eq_false (by omega) (by simpa using hseparator)
        refine reads_raw ?_ hline ?_
        · rcases hquote with hquote | rfl
          · exact hquote
          · rintro rfl
            cases hletter
        · rintro rfl
          cases hletter

theorem reads_escapeSingle (c : Char) : Reads '\'' (escapeSingle c) [c.toNat] := by
  unfold escapeSingle
  split
  · next hquote =>
    subst hquote
    exact reads_letter (by decide)
  · next hquote => exact reads_escape (Or.inl hquote)

/-- In an ASCII string a character reads as its units. -/
theorem reads_escapeAscii (c : Char) : Reads '"' (Json.escapeAscii c) (units c) := by
  have hunit : c.toNat < 0x80 → units c = [c.toNat] := by
    intro h
    rw [units, if_pos (by omega)]
  unfold Json.escapeAscii
  split
  · next letter hletter =>
    obtain ⟨hvalue, hascii⟩ := letterValue?_of_letterFor? hletter
    rw [hunit hascii]
    exact reads_letter hvalue
  · next hletter =>
    split
    · next hplain =>
      rw [hunit (by omega)]
      have hline : isTerminator c = false :=
        isTerminator_eq_false hplain.1 (isSeparator_eq_false (by omega))
      refine reads_raw ?_ hline ?_
      · rintro rfl
        cases hletter
      · rintro rfl
        cases hletter
    · have hreads : Reads '"' ((units c).flatMap Json.unitEscape)
          ((units c).flatMap fun unit => [unit]) :=
        reads_flatMap fun unit hmem => reads_unitEscape (lt_of_mem_units hmem)
      rwa [List.flatMap_singleton'] at hreads

/-- So does any code point. -/
theorem reads_escapePoint (point : CodePoint) : Reads '"' (Json.escapePoint point) point.units := by
  cases point with
  | char c => exact reads_escapeAscii c
  | surrogate index =>
    have hunit : CodePoint.surrogateUnit index < 0x10000 := by
      have hindex := index.isLt
      rw [CodePoint.surrogateUnit]
      omega
    exact reads_unitEscape hunit

/-! ## Literals -/

/-- A literal ends at its quote. -/
theorem scan_close {content : List Char} {units : List Nat} (h : Reads quote content units)
    (hquote : quote ≠ '\\') (rest : List Char) :
    scan quote (content ++ quote :: rest) = some (units, rest) := by
  have hclose : scan quote (quote :: rest) = some ([], rest) := by
    rw [scan, if_pos rfl]
    · rintro a b c d rest' rfl
      exact absurd rfl hquote
    · rintro letter rest' rfl
      exact absurd rfl hquote
  rw [h, hclose]
  simp

/-- The escaped characters of a text are read up to the quote behind them. -/
theorem scan_flatMap {α : Type} {f : α → List Char} {g : α → List Nat} (hquote : quote ≠ '\\')
    (hreads : ∀ c, Reads quote (f c) (g c)) (text : List α) (rest : List Char) :
    scan quote (text.flatMap f ++ quote :: rest) = some (text.flatMap g, rest) :=
  scan_close (reads_flatMap fun c _ => hreads c) hquote rest

/-- A literal and what follows it determine the units of the literal and what follows. -/
theorem units_eq_of_literal {α : Type} {f : α → List Char} {g : α → List Nat} {text text' : List α}
    {r r' : List Char} (hquote : quote ≠ '\\') (hreads : ∀ c, Reads quote (f c) (g c))
    (h : text.flatMap f ++ quote :: r = text'.flatMap f ++ quote :: r') :
    text.flatMap g = text'.flatMap g ∧ r = r' := by
  have heq : some (text.flatMap g, r) = some (text'.flatMap g, r') := by
    rw [← scan_flatMap hquote hreads, ← scan_flatMap hquote hreads, h]
  exact Prod.mk.inj (Option.some.inj heq)

/-- The units of a text of characters determine the text. -/
theorem literal_append_inj {f : Char → List Char} {g : Char → List Nat} {text text' : List Char}
    {r r' : List Char} (hquote : quote ≠ '\\') (hreads : ∀ c, Reads quote (f c) (g c))
    (hjoin : ∀ text : List Char, joinUnits (text.flatMap g) = text)
    (h : text.flatMap f ++ quote :: r = text'.flatMap f ++ quote :: r') :
    text = text' ∧ r = r' := by
  obtain ⟨hunits, hrest⟩ := units_eq_of_literal hquote hreads h
  have htext : joinUnits (text.flatMap g) = joinUnits (text'.flatMap g) := congrArg joinUnits hunits
  rw [hjoin, hjoin] at htext
  exact ⟨htext, hrest⟩

theorem joinUnits_flatMap_toNat (text : List Char) :
    joinUnits (text.flatMap fun c => [c.toNat]) = text := by
  induction text with
  | nil => rfl
  | cons c rest ih => rw [List.flatMap_cons, List.singleton_append, joinUnits_toNat_cons, ih]

theorem doubleQuoted_append_inj {s t : String} {r r' : List Char}
    (h : (doubleQuoted s).toList ++ r = (doubleQuoted t).toList ++ r') : s = t ∧ r = r' := by
  simp only [doubleQuoted, String.toList_ofList, List.cons_append, List.append_assoc,
    List.nil_append, List.cons.injEq, true_and] at h
  have hreads (c : Char) : Reads '"' (escape c) [c.toNat] := reads_escape (Or.inr rfl)
  obtain ⟨htext, hrest⟩ := literal_append_inj (by decide) hreads joinUnits_flatMap_toNat h
  exact ⟨String.toList_inj.mp htext, hrest⟩

theorem singleQuoted_append_inj {s t : String} {r r' : List Char}
    (h : (singleQuoted s).toList ++ r = (singleQuoted t).toList ++ r') : s = t ∧ r = r' := by
  simp only [singleQuoted, String.toList_ofList, List.cons_append, List.append_assoc,
    List.nil_append, List.cons.injEq, true_and] at h
  obtain ⟨htext, hrest⟩ :=
    literal_append_inj (by decide) reads_escapeSingle joinUnits_flatMap_toNat h
  exact ⟨String.toList_inj.mp htext, hrest⟩

theorem quoteAscii_append_inj {s t : String} {r r' : List Char}
    (h : Json.quoteAscii s.toList ++ r = Json.quoteAscii t.toList ++ r') : s = t ∧ r = r' := by
  simp only [Json.quoteAscii_eq, List.cons_append, List.append_assoc, List.nil_append,
    List.cons.injEq, true_and] at h
  obtain ⟨htext, hrest⟩ :=
    literal_append_inj (by decide) reads_escapeAscii joinUnits_flatMap_units h
  exact ⟨String.toList_inj.mp htext, hrest⟩

/-! ## Surrogates -/

/-- How an ASCII string holds a unit. -/
def escapeUnit (unit : Nat) : List Char :=
  if unit < 0x80 then Json.escapeAscii (Char.ofNat unit) else Json.unitEscape unit

theorem le_of_mem_units {c : Char} {unit : Nat} (hc : 0x80 ≤ c.toNat) (h : unit ∈ units c) :
    0x80 ≤ unit := by
  unfold units at h
  split at h
  · rwa [List.mem_singleton.mp h]
  · rw [List.mem_cons, List.mem_singleton] at h
    omega

theorem escapeAscii_eq_flatMap (c : Char) :
    Json.escapeAscii c = (units c).flatMap escapeUnit := by
  by_cases hc : c.toNat < 0x80
  · rw [units, if_pos (by omega), List.flatMap_singleton, escapeUnit, if_pos hc, Char.ofNat_toNat]
  · have hletter : Json.letterFor? c = none :=
      Option.eq_none_iff_forall_ne_some.mpr fun _ h => hc (letterValue?_of_letterFor? h).2
    have hunits : ∀ unit ∈ units c, Json.unitEscape unit = escapeUnit unit := fun unit hunit =>
      (if_neg (Nat.not_lt.mpr (le_of_mem_units (Nat.not_lt.mp hc) hunit))).symm
    rw [Json.escapeAscii, hletter]
    dsimp only
    rw [if_neg (by omega)]
    exact List.flatMap_congr hunits

theorem escapePoint_eq_flatMap (point : CodePoint) :
    Json.escapePoint point = point.units.flatMap escapeUnit := by
  cases point with
  | char c => exact escapeAscii_eq_flatMap c
  | surrogate index =>
    have hunit : ¬ CodePoint.surrogateUnit index < 0x80 := by
      rw [CodePoint.surrogateUnit]
      omega
    rw [CodePoint.units, List.flatMap_singleton, escapeUnit, if_neg hunit]
    rfl

/-- **An ASCII string holds the units of a text and nothing else**: two surrogates in a row are
written like the character whose units they are. -/
theorem quotePoints_eq_iff {points points' : List CodePoint} :
    Json.quotePoints points = Json.quotePoints points' ↔
      points.flatMap CodePoint.units = points'.flatMap CodePoint.units := by
  constructor
  · intro h
    exact (units_eq_of_literal (by decide) reads_escapePoint (List.cons.inj h).2).1
  · intro h
    have hbody (points : List CodePoint) : points.flatMap Json.escapePoint
        = (points.flatMap CodePoint.units).flatMap escapeUnit := by
      rw [List.flatMap_assoc]
      exact List.flatMap_congr fun point _ => escapePoint_eq_flatMap point
    rw [Json.quotePoints, Json.quotePoints, hbody, hbody, h]

end SchemaForge.Script
