/-!
# `SchemaForge.Text.Letters` — comparing names without regard to case

The names this library compares are ASCII. Of all characters only the capital letters `A` to `Z`
and the Kelvin sign U+212A have a lower-case form that is a single ASCII letter, and no other
character's lower-case form is ASCII throughout. So a text's lower-case form equals an ASCII name
exactly when the text, with those characters replaced, equals it: every other character may stay.

Case folding, the coarser relation, also sends the long s U+017F to `s`. The characters that fold to
two or more ASCII letters (the ligatures and the sharp s) give `ff`, `fi`, `fl`, `st` or `ss`, which
occur in none of the names.

## Contents
- **Letters.** `lowerLetter` and `foldLetter`.
- **Texts.** `lowerName` and `foldName`, letter by letter.
-/

namespace SchemaForge.Text

/-- The ASCII lower-case form of a character, where it has one. -/
def lowerLetter (c : Char) : Char :=
  if c = '\u212a' then 'k' else c.toLower

/-- The ASCII letter that a character folds to, where it folds to one. -/
def foldLetter (c : Char) : Char :=
  if c = '\u017f' then 's' else lowerLetter c

/-- The form in which a name is looked up. -/
def lowerName (text : List Char) : List Char := text.map lowerLetter

/-- The form in which a name is compared with one of a fixed list of choices. -/
def foldName (text : List Char) : List Char := text.map foldLetter

@[simp] theorem lowerName_append (s t : List Char) :
    lowerName (s ++ t) = lowerName s ++ lowerName t :=
  List.map_append

@[simp] theorem foldName_append (s t : List Char) :
    foldName (s ++ t) = foldName s ++ foldName t :=
  List.map_append

end SchemaForge.Text
