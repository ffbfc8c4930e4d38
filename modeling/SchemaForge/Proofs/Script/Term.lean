import SchemaForge.Proofs.Json.Writing
import SchemaForge.Script.Regex

/-!
# `SchemaForge.Proofs.Script.Term` — scripts as trees

What the dialects other than ArkType write is made of few things: words, string literals, regular
expressions, lists, calls with further calls chained to them, and fields between braces. `Term` is
the tree of such a script and `print` its text, so that a claim about texts becomes one about trees.

Every line of a map is indented by its depth. What stands in front of a line is a parameter, since
nothing below depends on it.

## Contents
- **Terms.** `Term`, and `Braces` for the three ways to put fields between braces.
- **Printing.** `print`, with `printAll` for the items of a list, `printMethods` for chained calls
  and `printFields` for fields.
- **Words.** `truth` and `integer`, of which no two are the same.
- **Values.** `ofJson` is the tree of a JSON value: `print_ofJson` says that it is printed as JSON
  is written, `ofJson_injective` that it is the tree of no other value.
-/

namespace SchemaForge.Script

/-! ## Terms -/

/-- How fields stand between braces. -/
inductive Braces where
  /-- On one line, with keys in quotes, as in JSON. -/
  | json
  /-- On one line, each behind a label that is written as it is. -/
  | options
  /-- Each on a line of its own, with keys in quotes. -/
  | lines
deriving DecidableEq, Repr

/-- The tree of a script. -/
inductive Term where
  /-- A number, a truth value or null. -/
  | word (text : String)
  /-- A string literal in single quotes. -/
  | single (text : String)
  /-- A string literal in double quotes, with ASCII characters only. -/
  | ascii (text : String)
  /-- A regular expression literal. -/
  | regex (pattern : String)
  /-- A list. -/
  | list (items : List Term)
  /-- A call of a function, with calls of methods chained to it. -/
  | call (function : String) (arguments : List Term) (methods : List (String × List Term))
  /-- Fields between braces. -/
  | braces (style : Braces) (fields : List (String × Term))

/-! ## Printing -/

namespace Braces

variable (indent : Nat → List Char) (depth : Nat)

/-- What opens the braces, up to the first field. -/
def opening : Braces → List Char
  | json => ['\x7b']
  | options => ['\x7b', ' ']
  | lines => '\x7b' :: '\n' :: indent (depth + 1)

/-- What stands between two fields. -/
def separator : Braces → List Char
  | json | options => [',', ' ']
  | lines => ',' :: '\n' :: indent (depth + 1)

/-- What closes the braces behind the last field. -/
def closing : Braces → List Char
  | json => ['\x7d']
  | options => [' ', '\x7d']
  | lines => '\n' :: (indent depth ++ ['\x7d'])

/-- What stands in front of the value of a field. -/
def label (key : String) : Braces → List Char
  | json => Json.quoteAscii key.toList ++ [':', ' ']
  | options => key.toList
  | lines => (doubleQuoted key).toList ++ [':', ' ']

/-- The depth of the values between the braces. -/
def level : Braces → Nat
  | json | options => depth
  | lines => depth + 1

end Braces

namespace Term

variable (indent : Nat → List Char)

mutual

/-- The text of a term at some depth. -/
def print (depth : Nat) : Term → List Char
  | .word text => text.toList
  | .single text => (singleQuoted text).toList
  | .ascii text => Json.quoteAscii text.toList
  | .regex pattern => (regexLiteral pattern).toList
  | .list items => '[' :: ([',', ' '].intercalate (printAll depth items) ++ [']'])
  | .call function arguments methods =>
    function.toList ++ '(' :: ([',', ' '].intercalate (printAll depth arguments) ++
      ')' :: printMethods depth methods)
  | .braces style fields =>
    style.opening indent depth ++
      ((style.separator indent depth).intercalate (printFields style depth fields) ++
        style.closing indent depth)

/-- The texts of terms. -/
def printAll (depth : Nat) : List Term → List (List Char)
  | [] => []
  | item :: rest => print depth item :: printAll depth rest

/-- The text of chained calls. -/
def printMethods (depth : Nat) : List (String × List Term) → List Char
  | [] => []
  | (method, arguments) :: rest =>
    method.toList ++ '(' :: ([',', ' '].intercalate (printAll depth arguments) ++
      ')' :: printMethods depth rest)

/-- The texts of fields. -/
def printFields (style : Braces) (depth : Nat) : List (String × Term) → List (List Char)
  | [] => []
  | (key, value) :: rest =>
    (style.label key ++ print (style.level depth) value) :: printFields style depth rest

end

/-- The text of a field. -/
def printField (style : Braces) (depth : Nat) (field : String × Term) : List Char :=
  style.label field.1 ++ print indent (style.level depth) field.2

variable {indent}

theorem printAll_eq_map (depth : Nat) (items : List Term) :
    printAll indent depth items = items.map (print indent depth) := by
  induction items with
  | nil => rw [printAll, List.map_nil]
  | cons item rest ih => rw [printAll, List.map_cons, ih]

theorem printFields_eq_map (style : Braces) (depth : Nat) (fields : List (String × Term)) :
    printFields indent style depth fields = fields.map (printField indent style depth) := by
  induction fields with
  | nil => rw [printFields, List.map_nil]
  | cons field rest ih =>
    obtain ⟨key, value⟩ := field
    rw [printFields, List.map_cons, ih, printField]

/-! ## Words -/

/-- The word of a truth value. -/
def truth (b : Bool) : String := if b then "true" else "false"

/-- The word of an integer. -/
def integer (n : Int) : String := String.ofList (Json.intText n)

theorem truth_injective {b b' : Bool} (h : truth b = truth b') : b = b' := by
  cases b <;> cases b' <;> first | rfl | exact absurd h (by decide)

theorem truth_ne_null (b : Bool) : truth b ≠ "null" := by
  cases b <;> decide

theorem integer_injective {m n : Int} (h : integer m = integer n) : m = n :=
  Json.intText_injective (String.ofList_injective h)

/-- What has a letter in it is not the word of an integer. -/
theorem integer_ne {n : Int} {text : String} {c : Char} (hc : c ∈ text.toList)
    (hdigit : ¬ c.isDigit) (hminus : c ≠ '-') : integer n ≠ text := by
  rintro rfl
  rw [integer, String.toList_ofList] at hc
  exact (Json.isDigit_or_minus_of_mem_intText hc).elim hdigit hminus

theorem integer_ne_null (n : Int) : integer n ≠ "null" := by
  have hletter : 'n' ∈ "null".toList := by decide
  exact integer_ne hletter (by decide) (by decide)

theorem integer_ne_truth (n : Int) (b : Bool) : integer n ≠ truth b := by
  have hletter : 'e' ∈ (truth b).toList := by cases b <;> decide
  exact integer_ne hletter (by decide) (by decide)

/-! ## Values -/

mutual

/-- The tree of a JSON value. -/
def ofJson : Json → Term
  | .null => .word "null"
  | .bool b => .word (truth b)
  | .int n => .word (integer n)
  | .float x => .word (String.ofList (Json.floatText x))
  | .str text => .ascii text
  | .arr items => .list (ofItems items)
  | .obj members => .braces .json (ofMembers members)

/-- The trees of items. -/
def ofItems : List Json → List Term
  | [] => []
  | item :: rest => ofJson item :: ofItems rest

/-- The trees of members. -/
def ofMembers : List (String × Json) → List (String × Term)
  | [] => []
  | (key, value) :: rest => (key, ofJson value) :: ofMembers rest

end

theorem ofItems_eq_map (items : List Json) : ofItems items = items.map ofJson := by
  induction items with
  | nil => rw [ofItems, List.map_nil]
  | cons item rest ih => rw [ofItems, List.map_cons, ih]

theorem ofMembers_eq_map (members : Fields Json) :
    ofMembers members = members.map fun member => (member.1, ofJson member.2) := by
  induction members with
  | nil => rw [ofMembers, List.map_nil]
  | cons member rest ih =>
    obtain ⟨key, value⟩ := member
    rw [ofMembers, List.map_cons, ih]

/-- The tree of a value is printed as the value is written. -/
theorem print_ofJson (depth : Nat) (value : Json) :
    print indent depth (ofJson value) = Json.encode value := by
  induction value with
  | null => rfl
  | bool b => cases b <;> rfl
  | int n => rw [ofJson, print, integer, String.toList_ofList, Json.encode]
  | float x => rw [ofJson, print, String.toList_ofList, Json.encode]
  | str text => rw [ofJson, print, Json.encode]
  | arr items ih =>
    -- Item by item the texts are the same, so their sequences are.
    have hitems : (items.map ofJson).map (print indent depth) = items.map Json.encode := by
      rw [List.map_map]
      exact List.map_congr_left ih
    rw [ofJson, print, ofItems_eq_map, printAll_eq_map, hitems, Json.encode,
      Json.encodeItems_eq_intercalate]
  | obj members ih =>
    have hmembers : (members.map fun member => (member.1, ofJson member.2)).map
        (printField indent .json depth) = members.map Json.encodeMember := by
      rw [List.map_map]
      apply List.map_congr_left
      intro member hmember
      show Json.quoteAscii member.1.toList ++ [':', ' '] ++ print indent depth (ofJson member.2) = _
      rw [ih member hmember, Json.encodeMember, List.append_assoc]
      rfl
    rw [ofJson, print, ofMembers_eq_map, printFields_eq_map, hmembers, Json.encode,
      Json.encodeMembers_eq_intercalate]
    rfl

/-- **A value without doubles is known by its tree.** -/
theorem ofJson_injective {v w : Json} (hv : v.FloatFree) (hw : w.FloatFree)
    (h : ofJson v = ofJson w) : v = w := by
  -- Other kinds of value have other kinds of tree, except for the words.
  induction hv generalizing w with
  | null =>
    cases hw with
    | null => rfl
    | bool b => exact absurd (Term.word.inj h).symm (truth_ne_null b)
    | int n => exact absurd (Term.word.inj h).symm (integer_ne_null n)
    | _ => simp [ofJson] at h
  | bool b =>
    cases hw with
    | null => exact absurd (Term.word.inj h) (truth_ne_null b)
    | bool b' => rw [truth_injective (Term.word.inj h)]
    | int n => exact absurd (Term.word.inj h).symm (integer_ne_truth n b)
    | _ => simp [ofJson] at h
  | int n =>
    cases hw with
    | null => exact absurd (Term.word.inj h) (integer_ne_null n)
    | bool b => exact absurd (Term.word.inj h) (integer_ne_truth n b)
    | int m => rw [integer_injective (Term.word.inj h)]
    | _ => simp [ofJson] at h
  | str s =>
    cases hw with
    | str t => rw [Term.ascii.inj h]
    | _ => simp [ofJson] at h
  | @arr items hitems ih =>
    cases hw with
    | @arr others hothers =>
      have hmap : items.map ofJson = others.map ofJson := by
        rw [← ofItems_eq_map, ← ofItems_eq_map]
        exact Term.list.inj h
      rw [eq_of_map_eq (fun v hv w hw => ih v hv (hothers w hw)) hmap]
    | _ => simp [ofJson] at h
  | @obj members hmembers ih =>
    cases hw with
    | @obj others hothers =>
      have hmap : (members.map fun member => (member.1, ofJson member.2))
          = others.map fun member => (member.1, ofJson member.2) := by
        rw [← ofMembers_eq_map, ← ofMembers_eq_map]
        exact (Term.braces.inj h).2
      rw [eq_of_map_eq (fun v hv w hw heq => ?_) hmap]
      obtain ⟨hkey, hvalue⟩ := Prod.mk.inj heq
      exact Prod.ext hkey (ih v hv (hothers w hw) hvalue)
    | _ => simp [ofJson] at h

end Term

end SchemaForge.Script
