import SchemaForge.Expression.Render
import SchemaForge.Proofs.Script.Plain

/-!
# `SchemaForge.Proofs.Expression.Lines` — code as lines

A line is a text and how deep it is indented; nothing else about it depends on the unit of
indentation. Code is put together from texts on one line and from breaks between lines, so what is
followed here is a function from units to code. The number of its breaks is a part of the claim.

## Contents
- **Lines.** `Line`, `Line.print` and `Line.printAll`.
- **Code.** `LaidOut`, with rules for sequences, calls, lists and the maps of objects; `Pieces` for
  several pieces of code.
- **Taking apart.** `LaidOut.exists_lines`: code that is laid out is its lines, for every unit.
-/

namespace SchemaForge.Expression

open Script (isPlain IsPlainText)

/-! ## Lines -/

/-- A line: how deep it is indented, and its text. -/
structure Line where
  /-- How many times the unit of indentation stands in front. -/
  level : Nat
  /-- What stands behind the indentation. -/
  text : String

namespace Line

/-- A line, indented by a unit. -/
def print (unit : String) (line : Line) : String := repeated unit line.level ++ line.text

/-- Lines, each indented by a unit. -/
def printAll (unit : String) (lines : List Line) : String :=
  "\n".intercalate (lines.map (print unit))

/-- Whether the characters of some lines are plain, if they are not among the raw ones. -/
def Consist (raw : Char → Prop) (lines : List Line) : Prop :=
  ∀ line ∈ lines, ∀ c ∈ line.text.toList, isPlain c = true ∨ raw c

/-- A text in front of the first line, which is not indented. -/
theorem printAll_append (unit text text' : String) (rest : List Line) :
    printAll unit (⟨0, text ++ text'⟩ :: rest) = text ++ printAll unit (⟨0, text'⟩ :: rest) := by
  simp [printAll, print, repeated]

/-- A break in front of an indented line. -/
theorem printAll_newline (unit : String) (level : Nat) (text : String) (rest : List Line) :
    printAll unit (⟨0, ""⟩ :: ⟨level, text⟩ :: rest)
      = "\n" ++ repeated unit level ++ printAll unit (⟨0, text⟩ :: rest) := by
  cases rest with
  | nil => simp [printAll, print, repeated, String.append_assoc]
  | cons next rest => simp [printAll, print, repeated, String.append_assoc]

end Line

/-! ## Code -/

/-- **`LaidOut raw n code`**: with a unit of indentation, the code has `n` line breaks, each with the
indentation of the line that follows; everything else in it is the same for every unit, and has no
other characters than plain and raw ones. -/
inductive LaidOut (raw : Char → Prop) : Nat → (String → String) → Prop where
  /-- Text on a line. -/
  | text {text : String} : (∀ c ∈ text.toList, isPlain c = true ∨ raw c) →
    LaidOut raw 0 fun _ => text
  /-- The break in front of a line. -/
  | newline (level : Nat) : LaidOut raw 1 fun unit => "\n" ++ repeated unit level
  /-- Code behind code. -/
  | append {m n : Nat} {code rest : String → String} : LaidOut raw m code → LaidOut raw n rest →
    LaidOut raw (m + n) fun unit => code unit ++ rest unit

/-- **Several pieces of code**, each as the claim says for its own number, and the sum of these. -/
inductive Pieces (claim : Nat → (String → String) → Prop) : Nat → (String → List String) → Prop where
  | nil : Pieces claim 0 fun _ => []
  | cons {m n : Nat} {code : String → String} {pieces : String → List String} : claim m code →
    Pieces claim n pieces → Pieces claim (m + n) fun unit => code unit :: pieces unit

namespace Pieces

variable {claim claim' : Nat → (String → String) → Prop} {n : Nat} {pieces : String → List String}

theorem imp (himp : ∀ n code, claim n code → claim' n code) (h : Pieces claim n pieces) :
    Pieces claim' n pieces := by
  induction h with
  | nil => exact .nil
  | cons hfirst _ ih => exact .cons (himp _ _ hfirst) ih

/-- Texts on a line, as pieces of code. -/
theorem of_texts {texts : List String} (h : ∀ text ∈ texts, claim 0 fun _ => text) :
    Pieces claim 0 fun _ => texts := by
  induction texts with
  | nil => exact .nil
  | cons text rest ih =>
    obtain ⟨hfirst, hrest⟩ := List.forall_mem_cons.mp h
    exact .cons hfirst (ih hrest)

/-- Where there are line breaks there are pieces. -/
theorem ne_nil (h : Pieces claim n pieces) (hn : n ≠ 0) (unit : String) : pieces unit ≠ [] := by
  cases h with
  | nil => exact absurd rfl hn
  | cons => exact List.cons_ne_nil _ _

end Pieces

namespace LaidOut

variable {raw : Char → Prop} {m n : Nat} {code code' : String → String}
  {pieces : String → List String}

theorem plain {text : String} (h : IsPlainText text.toList) : LaidOut raw 0 fun _ => text :=
  .text fun c hc => Or.inl (h c hc)

/-- The same code and the same number, spelled in another way. -/
theorem congr (h : LaidOut raw m code) (hn : m = n) (hcode : ∀ unit, code unit = code' unit) :
    LaidOut raw n code' := by
  obtain rfl := hn
  obtain rfl := funext hcode
  exact h

/-- Plain text in front of code. -/
theorem behind {text : String} (htext : IsPlainText text.toList) (h : LaidOut raw n code) :
    LaidOut raw n fun unit => text ++ code unit :=
  ((plain htext).append h).congr (Nat.zero_add n) fun _ => rfl

/-- Plain text behind code. -/
theorem before (h : LaidOut raw n code) {text : String} (htext : IsPlainText text.toList) :
    LaidOut raw n fun unit => code unit ++ text := h.append (plain htext)

/-- Pieces of code in a row, with plain text in between. -/
theorem intercalate {sep : String} (hsep : IsPlainText sep.toList)
    (h : Pieces (LaidOut raw) n pieces) : LaidOut raw n fun unit => sep.intercalate (pieces unit) := by
  induction h with
  | nil => exact plain nofun
  | cons hfirst hrest ih =>
    cases hrest with
    | nil => exact hfirst.congr rfl fun _ => String.intercalate_singleton.symm
    | cons _ _ =>
      exact ((hfirst.before hsep).append ih).congr rfl fun _ => String.intercalate_cons_cons.symm

theorem call {function : String} (hfunction : IsPlainText function.toList)
    (h : Pieces (LaidOut raw) n pieces) :
    LaidOut raw n fun unit => SchemaForge.call function (pieces unit) := by
  have hopen : IsPlainText (function ++ "(").toList := by
    rw [String.toList_append]
    exact Script.isPlainText_append hfunction (by decide)
  exact ((intercalate (by decide) h).behind hopen).before (by decide)

/-- The call of a function with one argument. -/
theorem call_one {function : String} (hfunction : IsPlainText function.toList)
    (h : LaidOut raw n code) : LaidOut raw n fun unit => SchemaForge.call function [code unit] :=
  call hfunction (.cons h .nil)

/-- The call of a function with code and a text as its arguments. -/
theorem call_two {function : String} (hfunction : IsPlainText function.toList)
    (h : LaidOut raw n code) {text : String} (htext : LaidOut raw 0 fun _ => text) :
    LaidOut raw n fun unit => SchemaForge.call function [code unit, text] :=
  call hfunction (.cons h (.cons htext .nil))

theorem bracketed (h : Pieces (LaidOut raw) n pieces) :
    LaidOut raw n fun unit => SchemaForge.bracketed (pieces unit) :=
  ((intercalate (by decide) h).behind (by decide)).before (by decide)

/-- Whether a line of a map is laid out, with the break in front of it. -/
def AsLine (raw : Char → Prop) (n : Nat) (line : String → String) : Prop :=
  LaidOut raw n fun unit => "\n" ++ line unit

theorem asLine (level : Nat) (h : LaidOut raw n code) :
    AsLine raw (n + 1) fun unit => repeated unit level ++ code unit :=
  ((newline level).append h).congr (Nat.add_comm 1 n) fun _ => String.append_assoc

/-- The lines of a map, each behind a break. -/
theorem lines (h : Pieces (AsLine raw) n pieces) (hne : ∀ unit, pieces unit ≠ []) :
    LaidOut raw n fun unit => "\n" ++ ",\n".intercalate (pieces unit) := by
  induction h with
  | nil => exact absurd rfl (hne "")
  | cons hfirst hrest ih =>
    cases hrest with
    | nil =>
      refine LaidOut.congr hfirst rfl fun unit => ?_
      rw [String.intercalate_singleton]
    | cons _ _ =>
      -- The separator is a comma and the break in front of the next line.
      have hsplit (rest : String) : ",\n" ++ rest = "," ++ ("\n" ++ rest) := by
        rw [← String.append_assoc]
        rfl
      have hbehind := ih fun _ => List.cons_ne_nil _ _
      have hcomma := LaidOut.before hfirst (by decide : IsPlainText ",".toList)
      refine (hcomma.append hbehind).congr rfl fun unit => ?_
      simp only [String.intercalate_cons_cons, String.append_assoc, hsplit]

/-- A map with lines in it. -/
theorem map (level : Nat) (h : Pieces (AsLine raw) n pieces) (hne : ∀ unit, pieces unit ≠ []) :
    LaidOut raw (n + 1) fun unit =>
      "\x7b\n" ++ ",\n".intercalate (pieces unit) ++ "\n" ++ repeated unit level ++ "\x7d" := by
  have hsplit (rest : String) : "\x7b\n" ++ rest = "\x7b" ++ ("\n" ++ rest) := by
    rw [← String.append_assoc]
    rfl
  have hlines := (lines h hne).behind (by decide : IsPlainText "\x7b".toList)
  have hmap := (hlines.append (newline level)).before (by decide : IsPlainText "\x7d".toList)
  refine hmap.congr rfl fun unit => ?_
  simp only [String.append_assoc, hsplit]

/-! ## Taking apart -/

/-- Code in front of lines makes lines. -/
theorem exists_lines_append (h : LaidOut raw n code) {text : String} {rest : List Line}
    (hrest : Line.Consist raw (⟨0, text⟩ :: rest)) :
    ∃ text' rest', rest'.length = n + rest.length ∧ Line.Consist raw (⟨0, text'⟩ :: rest') ∧
      ∀ unit, code unit ++ Line.printAll unit (⟨0, text⟩ :: rest)
        = Line.printAll unit (⟨0, text'⟩ :: rest') := by
  induction h generalizing text rest with
  | @text front hfront =>
    obtain ⟨hfirst, hothers⟩ := List.forall_mem_cons.mp hrest
    refine ⟨front ++ text, rest, (Nat.zero_add _).symm, ?_,
      fun unit => (Line.printAll_append unit front text rest).symm⟩
    refine List.forall_mem_cons.mpr ⟨?_, hothers⟩
    rw [String.toList_append]
    exact List.forall_mem_append.mpr ⟨hfront, hfirst⟩
  | newline level =>
    obtain ⟨hfirst, hothers⟩ := List.forall_mem_cons.mp hrest
    refine ⟨"", ⟨level, text⟩ :: rest, Nat.add_comm rest.length 1, ?_,
      fun unit => (Line.printAll_newline unit level text rest).symm⟩
    exact List.forall_mem_cons.mpr ⟨nofun, List.forall_mem_cons.mpr ⟨hfirst, hothers⟩⟩
  | append _ _ ihfront ihback =>
    obtain ⟨text', rest', hlength, hconsist, hprint⟩ := ihback hrest
    obtain ⟨text'', rest'', hlength', hconsist', hprint'⟩ := ihfront hconsist
    refine ⟨text'', rest'', by omega, hconsist', fun unit => ?_⟩
    rw [String.append_assoc, hprint, hprint']

/-- **Code that is laid out is its lines**, whatever the unit of indentation. -/
theorem exists_lines (h : LaidOut raw n code) :
    ∃ lines, lines.length = n + 1 ∧ Line.Consist raw lines ∧
      ∀ unit, code unit = Line.printAll unit lines := by
  have hempty : Line.Consist raw [⟨0, ""⟩] := List.forall_mem_singleton.mpr nofun
  obtain ⟨text, rest, hlength, hconsist, hprint⟩ := h.exists_lines_append hempty
  refine ⟨⟨0, text⟩ :: rest, congrArg (· + 1) hlength, hconsist, fun unit => ?_⟩
  have hnothing : Line.printAll unit [⟨0, ""⟩] = "" := rfl
  rw [← hprint unit, hnothing, String.append_empty]

end LaidOut

end SchemaForge.Expression
