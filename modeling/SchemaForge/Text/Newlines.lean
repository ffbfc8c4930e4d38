/-!
# `SchemaForge.Text.Newlines` — one kind of line end

A text file may end its lines with a line feed, with a carriage return, or with the two of them.
Read as text, all its lines end with a line feed.

## Contents
- **Reading.** `unifyNewlines`; no carriage return is left (`not_mem_unifyNewlines`), and where there
  was none nothing changes (`unifyNewlines_eq_self_iff`).
-/

namespace SchemaForge.Text

/-- The text with every line ended by a line feed. -/
def unifyNewlines : List Char → List Char
  | '\r' :: '\n' :: rest => '\n' :: unifyNewlines rest
  | '\r' :: rest => '\n' :: unifyNewlines rest
  | c :: rest => c :: unifyNewlines rest
  | [] => []

theorem not_mem_unifyNewlines (text : List Char) : '\r' ∉ unifyNewlines text := by
  fun_induction unifyNewlines text with
  | case1 rest ih => simp [ih]
  | case2 rest _ ih => simp [ih]
  | case3 c rest _ notReturn ih =>
    simp only [List.mem_cons, not_or]
    exact ⟨fun h => notReturn h.symm, ih⟩
  | case4 => simp

theorem unifyNewlines_eq_self_iff {text : List Char} :
    unifyNewlines text = text ↔ '\r' ∉ text := by
  constructor
  · intro h
    rw [← h]
    exact not_mem_unifyNewlines text
  · intro h
    induction text with
    | nil => rfl
    | cons c rest ih =>
      rw [List.mem_cons, not_or] at h
      rw [unifyNewlines, ih h.2]
      · exact fun _ hc => absurd hc.symm h.1
      · exact fun hc => absurd hc.symm h.1

end SchemaForge.Text
