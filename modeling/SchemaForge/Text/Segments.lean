/-!
# `SchemaForge.Text.Segments` — cutting a text at a separator

## Contents
- **Segments.** `segments` gives what stands between separators; there is one segment more than
  there are separators, and no segment holds one (`not_mem_of_mem_segments`).
-/

namespace SchemaForge.Text

/-- What stands between the separators of a text. -/
def segments (separator : Char) : List Char → List (List Char)
  | [] => [[]]
  | c :: rest =>
    if c = separator then [] :: segments separator rest
    else match segments separator rest with
      | [] => [[c]]
      | first :: others => (c :: first) :: others

theorem not_mem_of_mem_segments {separator : Char} {text segment : List Char}
    (h : segment ∈ segments separator text) : separator ∉ segment := by
  induction text generalizing segment with
  | nil => simp [segments] at h; simp [h]
  | cons c rest ih =>
    simp only [segments] at h
    split at h
    · rcases List.mem_cons.1 h with h | h
      · simp [h]
      · exact ih h
    · next differs =>
      split at h
      · simp at h; simp [h, Ne.symm differs]
      · next first others cut =>
        rcases List.mem_cons.1 h with h | h
        · have : separator ∉ first := ih (by simp [cut])
          simp [h, this, Ne.symm differs]
        · exact ih (by simp [cut, h])

end SchemaForge.Text
