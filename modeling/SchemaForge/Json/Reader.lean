import SchemaForge.Json.Numeral
import SchemaForge.Json.Quote

/-!
# `SchemaForge.Json.Reader` — reading JSON text

The grammar is JSON's, with the three extra numbers `NaN`, `Infinity` and `-Infinity`. Blanks are
the space, the tab and the two line ends. Of a key that occurs twice in an object the last value
counts, at the place of the first.

Each step takes a value off the front of a text and returns it with the text that is left, which is
shorter: that is what the reader's recursion rests on. A limit on the length of integers, where
there is one, is a parameter of all steps.

## Contents
- **Steps.** `Front`, and `ReadFault` for what can go wrong.
- **The grammar.** `readValue` with `readItems` and `readMembers`.
- **Texts.** `readWithin` reads a whole text, `Json.read` with the limit that holds for files, and
  `read_eq_of_toList` is that for a text whose characters are known.
-/

namespace SchemaForge.Json

/-! ## Steps -/

/-- Why a text was not read. -/
inductive ReadFault where
  /-- The text is not JSON. -/
  | malformed
  /-- An integer has too many digits. -/
  | numeralTooLong
deriving DecidableEq, Repr

/-- A value read off the front of a text, and the shorter text that is left. -/
structure Front (α : Type) (text : List Char) where
  value : α
  rest : List Char
  shorter : rest.length < text.length

/-- Whether a character may stand between tokens. -/
def isSpace (c : Char) : Bool := c = ' ' || c = '\t' || c = '\n' || c = '\r'

/-- The text without the blanks at its front. -/
def skipSpace (text : List Char) : List Char := text.dropWhile isSpace

theorem length_skipSpace (text : List Char) : (skipSpace text).length ≤ text.length :=
  (List.dropWhile_sublist _).length_le

/-! ## The grammar -/

/-- The string behind an opening quote. -/
def readString (text : List Char) : Except ReadFault (Front String text) :=
  match h : readQuoted text with
  | none => .error .malformed
  | some (content, rest) => .ok ⟨String.ofList content, rest, length_of_readQuoted h⟩

/-- The number at the front of a text. -/
def readNumber (limit : Option Nat) (text : List Char) : Except ReadFault (Front Json text) :=
  match h : readNumeral text with
  | none => .error .malformed
  | some (numeral, rest) =>
    match numeral.value? limit with
    | none => .error .numeralTooLong
    | some value => .ok ⟨value, rest, length_of_readNumeral h⟩

/-- The value of the word at the front of a text, and the rest. -/
def readWord (text : List Char) : Option (Json × List Char) :=
  match text with
  | 'n' :: 'u' :: 'l' :: 'l' :: rest => some (.null, rest)
  | 't' :: 'r' :: 'u' :: 'e' :: rest => some (.bool true, rest)
  | 'f' :: 'a' :: 'l' :: 's' :: 'e' :: rest => some (.bool false, rest)
  | 'N' :: 'a' :: 'N' :: rest => some (.float .nan, rest)
  | 'I' :: 'n' :: 'f' :: 'i' :: 'n' :: 'i' :: 't' :: 'y' :: rest =>
    some (.float (.infinity false), rest)
  | '-' :: 'I' :: 'n' :: 'f' :: 'i' :: 'n' :: 'i' :: 't' :: 'y' :: rest =>
    some (.float (.infinity true), rest)
  | _ => none

theorem length_of_readWord {text rest : List Char} {value : Json}
    (h : readWord text = some (value, rest)) : rest.length < text.length := by
  unfold readWord at h
  split at h <;> cases h <;> simp only [List.length_cons] <;> omega

/-- The word or number at the front of a text. -/
def readAtom (limit : Option Nat) (text : List Char) : Except ReadFault (Front Json text) :=
  match h : readWord text with
  | some (value, rest) => .ok ⟨value, rest, length_of_readWord h⟩
  | none => readNumber limit text

theorem length_of_skipSpace_cons {text rest : List Char} {c : Char}
    (h : skipSpace text = c :: rest) : rest.length < text.length := by
  have fits := length_skipSpace text
  rw [h, List.length_cons] at fits
  omega

theorem length_of_skipSpace {text rest : List Char} (h : skipSpace text = rest) :
    rest.length ≤ text.length :=
  h ▸ length_skipSpace text

/-- The text behind a character that must come next, blanks aside. -/
def expect (c : Char) (text : List Char) : Except ReadFault (Front Unit text) :=
  match h : skipSpace text with
  | [] => .error .malformed
  | d :: rest => if d = c then .ok ⟨(), rest, length_of_skipSpace_cons h⟩ else .error .malformed

mutual

/-- The value at the front of a text, blanks aside. -/
def readValue (limit : Option Nat) (text : List Char) : Except ReadFault (Front Json text) :=
  match h : skipSpace text with
  | '"' :: rest => do
    let ⟨s, rest', less⟩ ← readString rest
    return ⟨.str s, rest', Nat.lt_trans less (length_of_skipSpace_cons h)⟩
  | '[' :: rest =>
    have behind := length_of_skipSpace_cons h
    match expect ']' rest with
    | .ok ⟨_, rest', less⟩ => .ok ⟨.arr [], rest', Nat.lt_trans less behind⟩
    | .error _ => do
      let ⟨items, rest', less⟩ ← readItems limit rest
      return ⟨.arr items, rest', Nat.lt_trans less behind⟩
  | '{' :: rest =>
    have behind := length_of_skipSpace_cons h
    match expect '}' rest with
    | .ok ⟨_, rest', less⟩ => .ok ⟨.obj [], rest', Nat.lt_trans less behind⟩
    | .error _ => do
      let ⟨members, rest', less⟩ ← readMembers limit rest
      return ⟨.obj (Fields.ofPairs members), rest', Nat.lt_trans less behind⟩
  | atom => do
    let ⟨value, rest, less⟩ ← readAtom limit atom
    return ⟨value, rest, Nat.lt_of_lt_of_le less (length_of_skipSpace h)⟩
termination_by (text.length, 0)

/-- The items up to the closing bracket of a list that is not empty. -/
def readItems (limit : Option Nat) (text : List Char) :
    Except ReadFault (Front (List Json) text) := do
  let ⟨item, rest, less⟩ ← readValue limit text
  match expect ',' rest with
  | .ok ⟨_, rest', less'⟩ =>
    let ⟨items, rest'', less''⟩ ← readItems limit rest'
    return ⟨item :: items, rest'', Nat.lt_trans less'' (Nat.lt_trans less' less)⟩
  | .error _ =>
    let ⟨_, rest', less'⟩ ← expect ']' rest
    return ⟨[item], rest', Nat.lt_trans less' less⟩
termination_by (text.length, 1)

/-- The member at the front of a text. -/
def readMember (limit : Option Nat) (text : List Char) :
    Except ReadFault (Front (String × Json) text) := do
  let ⟨_, afterQuote, quoteLess⟩ ← expect '"' text
  let ⟨key, afterKey, keyLess⟩ ← readString afterQuote
  let ⟨_, afterColon, colonLess⟩ ← expect ':' afterKey
  have behind := Nat.lt_trans colonLess (Nat.lt_trans keyLess quoteLess)
  let ⟨value, rest, less⟩ ← readValue limit afterColon
  return ⟨(key, value), rest, Nat.lt_trans less behind⟩
termination_by (text.length, 1)

/-- The members up to the closing brace of an object that is not empty. -/
def readMembers (limit : Option Nat) (text : List Char) :
    Except ReadFault (Front (List (String × Json)) text) := do
  let ⟨member, rest, less⟩ ← readMember limit text
  match expect ',' rest with
  | .ok ⟨_, rest', less'⟩ =>
    let ⟨members, rest'', less''⟩ ← readMembers limit rest'
    return ⟨member :: members, rest'', Nat.lt_trans less'' (Nat.lt_trans less' less)⟩
  | .error _ =>
    let ⟨_, rest', less'⟩ ← expect '}' rest
    return ⟨[member], rest', Nat.lt_trans less' less⟩
termination_by (text.length, 2)

end

/-! ## Texts -/

/-- The value that a text denotes, if its integers keep to a limit. -/
def readWithin (limit : Option Nat) (text : String) : Except ReadFault Json := do
  let ⟨value, rest, _⟩ ← readValue limit text.toList
  if skipSpace rest = [] then return value else throw .malformed

/-- The value that the text of a file denotes. -/
def read (text : String) : Except ReadFault Json := readWithin (some maxIntegerDigits) text

/-- A text is read character by character. -/
theorem read_eq_of_toList {text : String} {chars : List Char} (h : text.toList = chars) :
    read text = (do
      let ⟨value, rest, _⟩ ← readValue (some maxIntegerDigits) chars
      if skipSpace rest = [] then return value else throw .malformed) := by
  subst h
  rfl

end SchemaForge.Json
