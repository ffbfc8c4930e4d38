/-!
# `SchemaForge.Text.ControlSequence` — what a terminal would not print

A terminal takes some runs of characters as orders, for a colour or for a place on the screen. Such
a control sequence starts with an escape character and an opening bracket; parameter characters
follow, then intermediate characters, and one final character ends it. In a text that goes to a file
it would be noise.

## Contents
- **Characters.** `isParameter`, `isIntermediate`, `isFinal`.
- **One sequence.** `afterControlSequence?` finds what stands behind a control sequence; that is
  less than what there was (`length_of_afterControlSequence?`).
- **A whole text.** `withoutControlSequences`; a text without escape characters stays as it is
  (`withoutControlSequences_eq_self`).
-/

namespace SchemaForge.Text

/-! ## Characters -/

/-- Whether a character belongs to the parameters of a control sequence. -/
def isParameter (c : Char) : Bool := '0' ≤ c && c ≤ '?'

/-- Whether a character stands between the parameters and the end of a control sequence. -/
def isIntermediate (c : Char) : Bool := ' ' ≤ c && c ≤ '/'

/-- Whether a character ends a control sequence. -/
def isFinal (c : Char) : Bool := '@' ≤ c && c ≤ '~'

/-! ## One sequence -/

/-- What stands behind the control sequence at the front of a text, if there is one. -/
def afterControlSequence? : List Char → Option (List Char)
  | '\x1b' :: '[' :: body =>
    match (body.dropWhile isParameter).dropWhile isIntermediate with
    | [] => none
    | c :: rest => if isFinal c then some rest else none
  | _ => none

theorem length_of_afterControlSequence? {text rest : List Char}
    (h : afterControlSequence? text = some rest) : rest.length < text.length := by
  unfold afterControlSequence? at h
  split at h
  · next body =>
    split at h
    · exact nomatch h
    · next c behind ending =>
      split at h
      · have shorter : ((body.dropWhile isParameter).dropWhile isIntermediate).length ≤
            body.length :=
          ((List.dropWhile_sublist _).trans (List.dropWhile_sublist _)).length_le
        rw [ending, Option.some.inj h, List.length_cons] at shorter
        simp only [List.length_cons]
        omega
      · exact nomatch h
  · exact nomatch h

/-! ## A whole text -/

/-- The text without its control sequences. -/
def withoutControlSequences : List Char → List Char
  | [] => []
  | c :: rest =>
    match _found : afterControlSequence? (c :: rest) with
    | some behind => withoutControlSequences behind
    | none => c :: withoutControlSequences rest
termination_by text => text.length
decreasing_by
  · exact length_of_afterControlSequence? _found
  · simp

theorem afterControlSequence?_eq_none {c : Char} {rest : List Char} (h : c ≠ '\x1b') :
    afterControlSequence? (c :: rest) = none := by
  unfold afterControlSequence?
  split
  · next starts => exact absurd (List.cons.inj starts).1 h
  · rfl

theorem withoutControlSequences_eq_self {text : List Char} (h : '\x1b' ∉ text) :
    withoutControlSequences text = text := by
  induction text with
  | nil => rw [withoutControlSequences]
  | cons c rest ih =>
    rw [List.mem_cons, not_or] at h
    rw [withoutControlSequences]
    split
    · next found =>
      rw [afterControlSequence?_eq_none (Ne.symm h.1)] at found
      exact nomatch found
    · rw [ih h.2]

end SchemaForge.Text
