import Mathlib.Data.List.Basic
import SchemaForge.Script.Regex

/-!
# `SchemaForge.Proofs.Script.Passes` — escaping in passes

Literals are written character by character. They can be had in passes over the whole text as well,
each of which replaces one character wherever it occurs: a literal in double quotes from a JSON
string, one in single quotes from one in double quotes, and a regular expression literal from its
pattern. The passes do not get in each other's way, since no pass writes a character that a later
one replaces.

## Contents
- **Passes.** `replaced`, and `foldl_replaced_flatMap`, by which it is enough to look at characters.
- **String literals.** `doubleQuoted_eq_passes`, `singleQuoted_eq_passes`.
- **Regular expressions.** `escapeSlashes` is the pass over slashes, `regexLiteral_eq_passes`.
-/

namespace SchemaForge.Script

open Text

/-! ## Passes -/

/-- A text in which each occurrence of one character is replaced. -/
def replaced (text : List Char) (pass : Char × List Char) : List Char :=
  text.flatMap fun c => if c = pass.1 then pass.2 else [c]

theorem foldl_replaced_append (passes : List (Char × List Char)) (text rest : List Char) :
    passes.foldl replaced (text ++ rest)
      = passes.foldl replaced text ++ passes.foldl replaced rest := by
  induction passes generalizing text rest with
  | nil => rfl
  | cons pass passes ih =>
    have hpass : replaced (text ++ rest) pass = replaced text pass ++ replaced rest pass :=
      List.flatMap_append
    rw [List.foldl_cons, hpass, ih, List.foldl_cons, List.foldl_cons]

theorem foldl_replaced_nil (passes : List (Char × List Char)) : passes.foldl replaced [] = [] := by
  induction passes with
  | nil => rfl
  | cons pass passes ih => exact ih

/-- Passes over a text do what they do to each of its characters. -/
theorem foldl_replaced_flatMap {passes : List (Char × List Char)} {f g : Char → List Char}
    (h : ∀ c, passes.foldl replaced (f c) = g c) (text : List Char) :
    passes.foldl replaced (text.flatMap f) = text.flatMap g := by
  induction text with
  | nil => exact foldl_replaced_nil passes
  | cons c text ih => rw [List.flatMap_cons, foldl_replaced_append, h, ih, List.flatMap_cons]

/-- A text without the characters that are replaced stays as it is. -/
theorem foldl_replaced_of_notMem {passes : List (Char × List Char)} {text : List Char}
    (h : ∀ pass ∈ passes, pass.1 ∉ text) : passes.foldl replaced text = text := by
  induction passes with
  | nil => rfl
  | cons pass passes ih =>
    obtain ⟨hfirst, hrest⟩ := List.forall_mem_cons.mp h
    have hpass : replaced text pass = text := by
      rw [replaced, List.flatMap_congr (g := fun c => [c])]
      · exact List.flatMap_singleton' text
      · intro c hc
        rw [if_neg]
        rintro rfl
        exact hfirst hc
    rw [List.foldl_cons, hpass, ih hrest]

/-! ## String literals -/

/-- The escapes of the two separators of lines. -/
def separatorEscapes : List (Char × List Char) :=
  [('\u2028', "\\u2028".toList), ('\u2029', "\\u2029".toList)]

/-- The characters with which escapes are written, hexadecimal digits aside. -/
def escapeSigns : List Char := ['\\', 'u', '"', 'n', 'r', 't', 'b', 'f']

theorem notMem_numeral {x : Char} (h : Hex.value? x = none) (width n : Nat) :
    x ∉ Hex.numeral width n := by
  induction width generalizing n with
  | zero => exact List.not_mem_nil
  | succ width ih =>
    have hlast : n % 16 < 16 := Nat.mod_lt n (by decide)
    rw [Hex.numeral, List.mem_append, List.mem_singleton]
    rintro (hfront | rfl)
    · exact ih (n / 16) hfront
    · rw [Hex.value?_digit hlast] at h
      cases h

theorem notMem_unitEscape {x : Char} (hvalue : Hex.value? x = none) (hsign : x ∉ escapeSigns)
    (unit : Nat) : x ∉ Json.unitEscape unit := by
  rw [Json.unitEscape, List.mem_cons, List.mem_cons]
  rintro (rfl | rfl | hdigit)
  · exact hsign (by decide)
  · exact hsign (by decide)
  · exact notMem_numeral hvalue 4 unit hdigit

theorem mem_escapeSigns {c letter : Char} (h : Json.letterFor? c = some letter) :
    letter ∈ escapeSigns := by
  unfold Json.letterFor? at h
  repeat' split at h
  all_goals first
    | cases h; decide
    | cases h

/-- A character that is neither a digit nor one of the signs is not in the escape of another one. -/
theorem notMem_jsonEscape {x c : Char} (hvalue : Hex.value? x = none) (hsign : x ∉ escapeSigns)
    (hne : x ≠ c) : x ∉ Json.escape c := by
  unfold Json.escape
  split
  · next letter hletter =>
    rw [List.mem_cons, List.mem_singleton]
    rintro (rfl | rfl)
    · exact hsign (by decide)
    · exact hsign (mem_escapeSigns hletter)
  · split
    · exact notMem_unitEscape hvalue hsign c.toNat
    · exact fun h => hne (List.mem_singleton.mp h)

/-- **A literal in double quotes is a JSON string in which the separators are replaced.** -/
theorem doubleQuoted_eq_passes (text : String) :
    (doubleQuoted text).toList
      = separatorEscapes.foldl replaced ('"' :: (text.toList.flatMap Json.escape ++ ['"'])) := by
  have hchar (c : Char) : separatorEscapes.foldl replaced (Json.escape c) = escape c := by
    unfold escape
    split
    · next hseparator =>
      rcases isSeparator_iff.mp hseparator with rfl | rfl <;> decide
    · next hseparator =>
      obtain ⟨hline, hparagraph⟩ := not_or.mp (mt isSeparator_iff.mpr hseparator)
      refine foldl_replaced_of_notMem
        (List.forall_mem_cons.mpr ⟨?_, List.forall_mem_singleton.mpr ?_⟩)
      · exact notMem_jsonEscape (by decide) (by decide) (Ne.symm hline)
      · exact notMem_jsonEscape (by decide) (by decide) (Ne.symm hparagraph)
  have hquote : separatorEscapes.foldl replaced ['"'] = ['"'] := by decide
  rw [← List.singleton_append, foldl_replaced_append, foldl_replaced_append,
    foldl_replaced_flatMap hchar, hquote, doubleQuoted, String.toList_ofList]
  rfl

/-- **A literal in single quotes is one in double quotes** without those quotes, in which the single
quotes are replaced. -/
theorem singleQuoted_eq_passes (text : String) :
    (singleQuoted text).toList
      = '\'' :: (replaced (doubleQuoted text).toList.tail.dropLast ('\'', ['\\', '\'']) ++ ['\'']) := by
  have hchar (c : Char) : [('\'', ['\\', '\''])].foldl replaced (escape c) = escapeSingle c := by
    unfold escapeSingle
    split
    · next hquote =>
      subst hquote
      decide
    · next hquote =>
      refine foldl_replaced_of_notMem (List.forall_mem_singleton.mpr ?_)
      unfold escape
      split
      · exact notMem_unitEscape (by decide) (by decide) c.toNat
      · exact notMem_jsonEscape (by decide) (by decide) (Ne.symm hquote)
  have hcontent : (doubleQuoted text).toList.tail.dropLast = text.toList.flatMap escape := by
    rw [doubleQuoted, String.toList_ofList, List.tail_cons, List.dropLast_concat]
  rw [hcontent, singleQuoted, String.toList_ofList]
  exact congrArg (fun content => '\'' :: (content ++ ['\'']))
    (foldl_replaced_flatMap hchar text.toList).symm

/-! ## Regular expressions -/

/-- The pass over slashes: each gets a backslash, unless one stands in front of it. That is set in
`escaped` for the first character. -/
def escapeSlashes (escaped : Bool) : List Char → List Char
  | [] => []
  | c :: rest =>
    (if c = '/' ∧ escaped = false then ['\\', '/'] else [c]) ++ escapeSlashes (c == '\\') rest

/-- The escapes of the four line terminators. -/
def terminatorEscapes : List (Char × List Char) :=
  ('\n', ['\\', 'n']) :: ('\r', ['\\', 'r']) :: separatorEscapes

theorem foldl_terminatorEscapes (c : Char) :
    terminatorEscapes.foldl replaced [c] = (escapeTerminator? c).getD [c] := by
  cases hescape : escapeTerminator? c with
  | some escape =>
    rcases escapeTerminator?_eq_some hescape with
      ⟨rfl, rfl⟩ | ⟨rfl, rfl⟩ | ⟨rfl, rfl⟩ | ⟨rfl, rfl⟩ <;> decide
  | none =>
    have hnone : ∀ pass ∈ terminatorEscapes, escapeTerminator? pass.1 ≠ none := by decide
    refine foldl_replaced_of_notMem fun pass hpass hmem => hnone pass hpass ?_
    rw [List.mem_singleton.mp hmem, hescape]

theorem regexBody_eq_passes (escaped : Bool) (pattern : List Char) :
    regexBody escaped pattern
      = terminatorEscapes.foldl replaced (escapeSlashes escaped pattern) := by
  have hslash : terminatorEscapes.foldl replaced ['\\', '/'] = ['\\', '/'] := by decide
  induction pattern generalizing escaped with
  | nil => rfl
  | cons c pattern ih =>
    rw [regexBody, escapeSlashes, foldl_replaced_append, ih]
    split
    · rw [hslash]
    · rw [foldl_terminatorEscapes]

/-- **A regular expression literal is its pattern after a pass over the slashes and one over each line
terminator.** -/
theorem regexLiteral_eq_passes (pattern : String) :
    (regexLiteral pattern).toList
      = '/' :: (terminatorEscapes.foldl replaced (escapeSlashes false pattern.toList) ++ ['/']) := by
  rw [regexLiteral, String.toList_ofList, regexBody_eq_passes]

end SchemaForge.Script
