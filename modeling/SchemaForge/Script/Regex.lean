import SchemaForge.Script.Quote

/-!
# `SchemaForge.Script.Regex` — regular expression literals of a script

A pattern stands between slashes. A slash of its own is escaped unless a backslash stands in front
of it, and a line terminator is written as an escape, since the literal may hold none.

## Contents
- **Characters.** `escapeTerminator?` has the escapes of the four line terminators, and
  `escapeTerminator?_eq_some` lists them.
- **Literals.** `regexBody` escapes a pattern, `regexLiteral` encloses it.
-/

namespace SchemaForge.Script

/-- The escape of a line terminator. -/
def escapeTerminator? (c : Char) : Option (List Char) :=
  if c = '\n' then some ['\\', 'n']
  else if c = '\r' then some ['\\', 'r']
  else if isSeparator c then some (Json.unitEscape c.toNat)
  else none

/-- The four line terminators with their escapes. -/
theorem escapeTerminator?_eq_some {c : Char} {escape : List Char}
    (h : escapeTerminator? c = some escape) :
    (c = '\n' ∧ escape = ['\\', 'n']) ∨ (c = '\r' ∧ escape = ['\\', 'r']) ∨
      (c = '\u2028' ∧ escape = ['\\', 'u', '2', '0', '2', '8']) ∨
      (c = '\u2029' ∧ escape = ['\\', 'u', '2', '0', '2', '9']) := by
  unfold escapeTerminator? at h
  split at h
  · next hfeed =>
    cases h
    exact Or.inl ⟨hfeed, rfl⟩
  · split at h
    · next hreturn =>
      cases h
      exact Or.inr (Or.inl ⟨hreturn, rfl⟩)
    · split at h
      · next hseparator =>
        cases h
        rcases isSeparator_iff.mp hseparator with rfl | rfl
        · exact Or.inr (Or.inr (Or.inl ⟨rfl, by decide⟩))
        · exact Or.inr (Or.inr (Or.inr ⟨rfl, by decide⟩))
      · cases h

/-- A pattern's characters, of which the first follows a backslash if `escaped` is set. -/
def regexBody (escaped : Bool) : List Char → List Char
  | [] => []
  | c :: rest =>
    (if c = '/' ∧ escaped = false then ['\\', '/'] else (escapeTerminator? c).getD [c]) ++
      regexBody (c == '\\') rest

/-- A pattern as a regular expression literal. -/
def regexLiteral (pattern : String) : String :=
  String.ofList ('/' :: (regexBody false pattern.toList ++ ['/']))

end SchemaForge.Script
