import Mathlib.Data.List.Forall2
import Mathlib.Data.List.TakeWhile
import SchemaForge.Proofs.Json.Strings
import SchemaForge.Proofs.Script.Literal
import SchemaForge.Script.Definition

/-!
# `SchemaForge.Proofs.Script.Definition` — reading definitions back

The reader of definitions undoes the quoting of a text, whatever stands behind the literal. So code
is a definition exactly when it was made as one. Other code is compound, which is more than not to
be a definition: it does not become one when blanks and further alternatives follow.

## Contents
- **Reading.** `readQuoted_escape`, and `definition?_doubleQuoted_append` for whole literals.
- **Sorts.** `IsDefinition` and `IsCompound` code, and `SameSort`.
- **Alternatives.** `mapM_definition?_doubleQuoted`, `mapM_definition?_eq_none`,
  `isCompound_alternatives`, and `definitions_or_compound` for two lists of members.
-/

namespace SchemaForge.Script

/-! ## Reading -/

/-- An escaped character is read back as its code point. -/
theorem readUnits_escape (c : Char) (rest : List Char) :
    Json.readUnits (escape c ++ rest)
      = (Json.readUnits rest).map fun (units, behind) => (c.toNat :: units, behind) := by
  unfold escape
  split
  · next hseparator =>
    apply Json.readUnits_unitEscape
    rcases isSeparator_iff.mp hseparator with rfl | rfl <;> decide
  · unfold Json.escape
    split
    · next letter hletter => exact Json.readUnits_letter hletter rest
    · next hletter =>
      split
      · next hcontrol => exact Json.readUnits_unitEscape (by omega) rest
      · next hcontrol => exact Json.readUnits_plain hletter (Nat.not_lt.mp hcontrol) rest

/-- A text is read back from the escapes of its characters, up to the closing quote. -/
theorem readQuoted_escape (text rest : List Char) :
    Json.readQuoted (text.flatMap escape ++ '"' :: rest) = some (text, rest) := by
  have hread : Json.readUnits (text.flatMap escape ++ '"' :: rest)
      = some (text.flatMap fun c => [c.toNat], rest) := by
    induction text with
    | nil => rfl
    | cons c text ih =>
      rw [List.flatMap_cons, List.append_assoc, readUnits_escape, ih]
      rfl
  rw [Json.readQuoted, hread]
  exact congrArg (fun text => some (text, rest)) (joinUnits_flatMap_toNat text)

/-- A definition with something behind it is one only if there are nothing but blanks. -/
theorem definition?_doubleQuoted_append (text rest : String) :
    definition? (doubleQuoted text ++ rest)
      = if Json.skipSpace rest.toList = [] then some text else none := by
  have hskip : Json.skipSpace (doubleQuoted text ++ rest).toList
      = '"' :: (text.toList.flatMap escape ++ '"' :: rest.toList) := by
    rw [doubleQuoted, String.toList_append, String.toList_ofList, List.cons_append,
      List.append_assoc]
    rfl
  rw [definition?, hskip]
  simp only [readQuoted_escape, String.ofList_toList]

theorem definition?_doubleQuoted (text : String) : definition? (doubleQuoted text) = some text := by
  have h := definition?_doubleQuoted_append text ""
  rwa [String.append_empty] at h

/-! ## Sorts -/

/-- Whether code is a definition. -/
def IsDefinition (code : String) : Prop := ∃ text, code = doubleQuoted text

/-- Whether code is no definition, and is none either with more behind it, from a blank on. -/
def IsCompound (code : String) : Prop :=
  ∀ rest : String, (∀ c ∈ rest.toList.head?, c = ' ') → definition? (code ++ rest) = none

/-- Whether both pieces of code are definitions or both are compound. -/
def SameSort (code other : String) : Prop :=
  IsDefinition code ∧ IsDefinition other ∨ IsCompound code ∧ IsCompound other

theorem isDefinition_doubleQuoted (text : String) : IsDefinition (doubleQuoted text) := ⟨text, rfl⟩

theorem sameSort_doubleQuoted (text text' : String) :
    SameSort (doubleQuoted text) (doubleQuoted text') :=
  Or.inl ⟨isDefinition_doubleQuoted text, isDefinition_doubleQuoted text'⟩

theorem IsCompound.definition?_eq_none {code : String} (h : IsCompound code) :
    definition? code = none := by
  have hnone := h "" nofun
  rwa [String.append_empty] at hnone

/-- Code that begins with anything but a blank or a double quote is compound. -/
theorem isCompound_of_head {code : String} {c : Char} (hhead : code.toList.head? = some c)
    (hspace : Json.isSpace c = false) (hquote : c ≠ '"') : IsCompound code := by
  intro rest _
  obtain ⟨behind, hcode⟩ := List.head?_eq_some_iff.mp hhead
  have hskip : Json.skipSpace (code ++ rest).toList = c :: (behind ++ rest.toList) := by
    rw [String.toList_append, hcode, List.cons_append, Json.skipSpace,
      List.dropWhile_cons_of_neg (by simp [hspace])]
  rw [definition?, hskip]
  split
  · next heq =>
    cases heq
    exact absurd rfl hquote
  · rfl

/-- More may follow compound code. -/
theorem IsCompound.append {code : String} (h : IsCompound code) {rest : String}
    (hrest : rest.toList.head? = some ' ') : IsCompound (code ++ rest) := by
  intro behind _
  rw [String.append_assoc]
  apply h
  intro c hc
  rw [String.toList_append, List.head?_append, hrest] at hc
  exact (Option.some.inj hc).symm

/-- Behind a definition, what begins with a blank and has more to it makes the code compound. -/
theorem isCompound_doubleQuoted_append (text : String) {rest : String}
    (hrest : Json.skipSpace rest.toList ≠ []) : IsCompound (doubleQuoted text ++ rest) := by
  intro behind _
  rw [String.append_assoc, definition?_doubleQuoted_append, if_neg]
  intro hskip
  rw [Json.skipSpace, List.dropWhile_eq_nil_iff] at hskip
  apply hrest
  rw [Json.skipSpace, List.dropWhile_eq_nil_iff]
  intro c hc
  exact hskip c (by rw [String.toList_append]; exact List.mem_append_left _ hc)

/-! ## Alternatives -/

variable {members : List String}

/-- Definitions are read back one by one. -/
theorem mapM_definition?_doubleQuoted (texts : List String) :
    (texts.map doubleQuoted).mapM definition? = some texts := by
  induction texts with
  | nil => rfl
  | cons text rest ih => simp [List.mapM_cons, definition?_doubleQuoted, ih]

/-- Members that are definitions are made of texts. -/
theorem exists_eq_map_doubleQuoted (h : ∀ member ∈ members, IsDefinition member) :
    ∃ texts : List String, members = texts.map doubleQuoted := by
  induction members with
  | nil => exact ⟨[], rfl⟩
  | cons member rest ih =>
    obtain ⟨text, rfl⟩ := h member List.mem_cons_self
    obtain ⟨texts, rfl⟩ := ih fun other hother => h other (List.mem_cons_of_mem _ hother)
    exact ⟨text :: texts, rfl⟩

theorem mapM_definition?_eq_none {member : String} (hmember : member ∈ members)
    (h : IsCompound member) : members.mapM definition? = none := by
  induction members with
  | nil => exact absurd hmember List.not_mem_nil
  | cons first rest ih =>
    rcases List.mem_cons.mp hmember with rfl | hmember
    · simp [List.mapM_cons, h.definition?_eq_none]
    · cases hfirst : definition? first with
      | none => simp [List.mapM_cons, hfirst]
      | some text => simp [List.mapM_cons, hfirst, ih hmember]

/-- Alternatives of which one is compound make compound code. -/
theorem isCompound_alternatives (hsort : ∀ member ∈ members, IsDefinition member ∨ IsCompound member)
    {member : String} (hmember : member ∈ members) (h : IsCompound member) :
    IsCompound (" | ".intercalate members) := by
  cases members with
  | nil => exact absurd hmember List.not_mem_nil
  | cons first rest =>
    cases rest with
    | nil =>
      rw [List.mem_singleton.mp hmember] at h
      rwa [String.intercalate_singleton]
    | cons next rest =>
      -- Whatever the first member is, a bar behind it is no blank; so the others do not matter.
      rw [String.intercalate_cons_cons, String.append_assoc]
      rcases hsort first List.mem_cons_self with ⟨text, rfl⟩ | hfirst
      · apply isCompound_doubleQuoted_append
        rw [String.toList_append]
        exact nofun
      · apply hfirst.append
        rw [String.toList_append]
        rfl

/-- Members of the same sorts are all definitions, or there is a compound one on either side. -/
theorem definitions_or_compound {others : List String} (h : List.Forall₂ SameSort members others) :
    (∀ member ∈ members, IsDefinition member) ∧ (∀ member ∈ others, IsDefinition member) ∨
      (∃ member ∈ members, IsCompound member) ∧ ∃ member ∈ others, IsCompound member := by
  induction h with
  | nil => exact Or.inl ⟨nofun, nofun⟩
  | cons hfirst _ ih =>
    rcases hfirst with ⟨hdef, hdef'⟩ | ⟨hcomp, hcomp'⟩
    · rcases ih with ⟨hrest, hrest'⟩ | ⟨⟨member, hmember, hcomp⟩, other, hother, hcomp'⟩
      · exact Or.inl ⟨List.forall_mem_cons.mpr ⟨hdef, hrest⟩,
          List.forall_mem_cons.mpr ⟨hdef', hrest'⟩⟩
      · exact Or.inr ⟨⟨member, List.mem_cons_of_mem _ hmember, hcomp⟩,
          other, List.mem_cons_of_mem _ hother, hcomp'⟩
    · exact Or.inr ⟨⟨_, List.mem_cons_self, hcomp⟩, _, List.mem_cons_self, hcomp'⟩

/-- Members on either side are of a sort. -/
theorem definition_or_compound {others : List String} (h : List.Forall₂ SameSort members others) :
    (∀ member ∈ members, IsDefinition member ∨ IsCompound member) ∧
      ∀ member ∈ others, IsDefinition member ∨ IsCompound member := by
  induction h with
  | nil => exact ⟨nofun, nofun⟩
  | cons hfirst _ ih =>
    rw [List.forall_mem_cons, List.forall_mem_cons]
    exact ⟨⟨hfirst.imp And.left And.left, ih.1⟩, hfirst.imp And.right And.right, ih.2⟩

end SchemaForge.Script
