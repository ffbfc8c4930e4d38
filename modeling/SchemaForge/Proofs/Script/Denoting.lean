import SchemaForge.Proofs.Script.Plain
import SchemaForge.Script.Scalar

/-!
# `SchemaForge.Proofs.Script.Denoting` — what string literals denote

A string literal denotes a text if reading it from the quote that opens it comes to an end at its last
character and not before, and what is read on the way is the text. The reader knows nothing of how
literals are written. Since it reads each escaped character as that character, whatever stands around
it, the literals that are written of a text denote the text.

## Contents
- **Literals.** `DenotesText`, and `denotesText_of_reads` for every way in which characters are escaped.
- **Constants.** `literal_str_denotesText`.
-/

namespace SchemaForge.Script

open Text

/-! ## Literals -/

/-- **Whether code is a string literal that denotes a text**: behind the quote that opens it, reading is
closed by the last character of the code, and yields the units of the text. -/
def DenotesText (quote : Char) (code text : String) : Prop :=
  ∃ body units, code.toList = quote :: body ∧ scan quote body = some (units, []) ∧
    joinUnits units = text.toList

/-- Escaped characters between quotes denote the text that they are read as. -/
theorem denotesText_of_reads {quote : Char} {f : Char → List Char} {g : Char → List Nat}
    (hquote : quote ≠ '\\') (hreads : ∀ c, Reads quote (f c) (g c))
    (hjoin : ∀ text : List Char, joinUnits (text.flatMap g) = text) (text : String) :
    DenotesText quote (String.ofList (quote :: (text.toList.flatMap f ++ [quote]))) text := by
  refine ⟨text.toList.flatMap f ++ [quote], text.toList.flatMap g, String.toList_ofList, ?_, ?_⟩
  · exact scan_flatMap hquote hreads text.toList []
  · exact hjoin text.toList

/-! ## Constants -/

/-- **A literal denotes the text that it is written of.** It stands in single quotes, is closed by the
last one, and has neither control characters nor separators of lines in between. -/
theorem literal_str_denotesText (text : String) :
    ∃ content, literal (.str text) = .ok (String.ofList ('\'' :: (content ++ ['\'']))) ∧
      DenotesText '\'' (String.ofList ('\'' :: (content ++ ['\'']))) text ∧
      IsPlainText content := by
  refine ⟨text.toList.flatMap escapeSingle, rfl, ?_, ?_⟩
  · exact denotesText_of_reads (by decide) reads_escapeSingle joinUnits_flatMap_toNat text
  · exact isPlainText_flatMap fun c _ => isPlainText_escapeSingle c

example : singleQuoted "it's \\ \"so\"\n" = "'it\\'s \\\\ \\\"so\\\"\\n'" := by decide

end SchemaForge.Script
