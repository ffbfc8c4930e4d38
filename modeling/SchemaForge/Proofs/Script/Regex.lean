import SchemaForge.Proofs.Script.Plain

/-!
# `SchemaForge.Proofs.Script.Regex` — where a regular expression literal ends

A slash closes a literal unless a backslash protects it or it stands in a class. Whether a backslash
protects what follows depends on all the backslashes in front of it: behind another one that protects
it, it stands for itself. A literal is written with less care, since a slash is left as it is behind
any backslash. So the literal of a complete pattern ends where it should, except when the pattern has
a slash outside of classes behind a backslash that is protected.

## Contents
- **Patterns.** `Spot` says where a reading of a pattern stands, `Spot.after` where it stands behind a
  text; `IsComplete` patterns leave nothing open.
- **Literals.** `closing` reads a literal up to the slash that closes it, `ClosesAtEnd`.
- **Slashes.** `Exposes` and the result, `regexLiteral_closesAtEnd_iff`.
-/

namespace SchemaForge.Script

/-! ## Patterns -/

/-- Where a reading of a pattern stands. -/
inductive Spot where
  /-- Outside of classes. -/
  | plain
  /-- In a class. -/
  | inClass
  /-- Behind a backslash that protects the next character, in a class or outside. -/
  | escaped (within : Bool)
deriving DecidableEq, Repr

namespace Spot

/-- Where a reading stands behind one more character. -/
def step : Spot → Char → Spot
  | .plain, c => if c = '\\' then .escaped false else if c = '[' then .inClass else .plain
  | .inClass, c => if c = '\\' then .escaped true else if c = ']' then .plain else .inClass
  | .escaped false, _ => .plain
  | .escaped true, _ => .inClass

/-- Where a reading stands behind a text. -/
def after (spot : Spot) (text : List Char) : Spot := text.foldl step spot

/-- Only a backslash protects. -/
theorem eq_backslash_of_step {spot : Spot} {c : Char} {within : Bool}
    (h : spot.step c = .escaped within) : c = '\\' := by
  unfold step at h
  grind

theorem step_backslash_eq_plain_iff {spot : Spot} :
    spot.step '\\' = .plain ↔ spot = .escaped false := by
  cases spot with
  | escaped within => cases within <;> decide
  | _ => decide

end Spot

/-- **Whether a pattern is complete**: it ends neither in a class nor behind a backslash that protects
nothing. -/
def IsComplete (pattern : List Char) : Prop := Spot.plain.after pattern = .plain

instance (pattern : List Char) : Decidable (IsComplete pattern) :=
  inferInstanceAs (Decidable (_ = _))

example : IsComplete "[/\\]]\\\\".toList ∧ ¬ IsComplete "a\\\\\\".toList := by decide

/-! ## Literals -/

/-- What stands behind the slash that closes a literal, read on from a spot in the literal. A line
terminator is refused, and so is a literal that is not closed. -/
def closing (spot : Spot) : List Char → Option (List Char)
  | [] => none
  | c :: rest =>
    if c = '/' ∧ spot = .plain then some rest
    else if isTerminator c then none
    else closing (spot.step c) rest

/-- **Whether a regular expression literal is closed by its last character** and by no other one. -/
def ClosesAtEnd (literal : String) : Prop :=
  ∃ body, literal.toList = '/' :: body ∧ closing .plain body = some []

section

variable {spot : Spot} {c : Char} {text : List Char}

theorem closing_slash (text : List Char) : closing .plain ('/' :: text) = some text := by
  rw [closing, if_pos ⟨rfl, rfl⟩]

/-- Whatever does not close a literal and ends no line belongs to it. -/
theorem closing_step (hline : isTerminator c = false) (h : c = '/' → spot ≠ .plain) :
    closing spot (c :: text) = closing (spot.step c) text := by
  rw [closing, if_neg fun hclose => h hclose.1 hclose.2, if_neg (by simp [hline])]

/-- A slash behind a backslash of its own changes nothing, in a class or outside. -/
theorem closing_escaped_slash (hspot : ∀ within, spot ≠ .escaped within) :
    closing spot ('\\' :: '/' :: text) = closing spot text := by
  cases spot with
  | plain =>
    rw [closing_step rfl (by decide), closing_step rfl fun _ => by decide]
    rfl
  | inClass =>
    rw [closing_step rfl (by decide), closing_step rfl fun _ => by decide]
    rfl
  | escaped within => exact absurd rfl (hspot within)

end

/-! ## Slashes -/

/-- **Whether a pattern has a slash that its literal leaves bare**: it stands outside of classes, right
behind a backslash that another one protects. -/
def Exposes (pattern : List Char) : Prop :=
  ∃ front rest, pattern = front ++ '\\' :: '/' :: rest ∧ Spot.plain.after front = .escaped false

/-- Whether the rest of a pattern has such a slash, when a reading stands at the spot and `escaped`
says whether a backslash stands in front. -/
def ExposesFrom (spot : Spot) (escaped : Bool) (pattern : List Char) : Prop :=
  (escaped = true ∧ spot = .plain ∧ ∃ rest, pattern = '/' :: rest) ∨
    ∃ front rest, pattern = front ++ '\\' :: '/' :: rest ∧ spot.after front = .escaped false

theorem exposesFrom_plain_iff {pattern : List Char} :
    ExposesFrom .plain false pattern ↔ Exposes pattern :=
  or_iff_right fun h => absurd h.1 (by decide)

theorem not_exposesFrom_nil {spot : Spot} {escaped : Bool} : ¬ ExposesFrom spot escaped [] := by
  rintro (⟨-, -, rest, h⟩ | ⟨front, rest, h, -⟩)
  · cases h
  · exact absurd h.symm (by simp)

/-- A slash is exposed by its own spot, or stands further behind. -/
theorem exposesFrom_cons_iff {spot : Spot} {escaped : Bool} {c : Char} {rest : List Char} :
    ExposesFrom spot escaped (c :: rest) ↔
      (escaped = true ∧ spot = .plain ∧ c = '/') ∨ ExposesFrom (spot.step c) (c == '\\') rest := by
  constructor
  · rintro (⟨hescaped, hspot, behind, h⟩ | ⟨front, behind, h, hspot⟩)
    · exact Or.inl ⟨hescaped, hspot, (List.cons.inj h).1⟩
    · cases front with
      | nil =>
        obtain ⟨rfl, rfl⟩ := List.cons.inj h
        exact Or.inr (Or.inl ⟨rfl, Spot.step_backslash_eq_plain_iff.mpr hspot, behind, rfl⟩)
      | cons first front =>
        obtain ⟨rfl, rfl⟩ := List.cons.inj h
        exact Or.inr (Or.inr ⟨front, behind, rfl, hspot⟩)
  · rintro (⟨hescaped, hspot, rfl⟩ | ⟨hescaped, hspot, behind, rfl⟩ | ⟨front, behind, rfl, hspot⟩)
    · exact Or.inl ⟨hescaped, hspot, rest, rfl⟩
    · obtain rfl : c = '\\' := by simpa using hescaped
      exact Or.inr ⟨[], behind, rfl, Spot.step_backslash_eq_plain_iff.mp hspot⟩
    · exact Or.inr ⟨c :: front, behind, rfl, hspot⟩

instance decidableExposesFrom (spot : Spot) (escaped : Bool) :
    (pattern : List Char) → Decidable (ExposesFrom spot escaped pattern)
  | [] => isFalse not_exposesFrom_nil
  | c :: rest =>
    have := decidableExposesFrom (spot.step c) (c == '\\') rest
    decidable_of_iff _ exposesFrom_cons_iff.symm

instance (pattern : List Char) : Decidable (Exposes pattern) :=
  decidable_of_iff _ exposesFrom_plain_iff

example : Exposes "a\\\\/".toList ∧ ¬ Exposes "[\\\\/]a\\/".toList := by decide

theorem escapeTerminator?_eq_none {c : Char} (h : isTerminator c = false) :
    escapeTerminator? c = none := by
  simp only [isTerminator, Bool.or_eq_false_iff, beq_eq_false_iff_ne] at h
  simp [escapeTerminator?, h]

/-- A pattern that is left behind no open class and no lone backslash is read up to the slash behind
it, unless it exposes a slash in front. -/
theorem closing_regexBody_eq_iff {spot : Spot} {escaped : Bool} {pattern : List Char}
    (hlines : ∀ c ∈ pattern, isTerminator c = false) (hcomplete : spot.after pattern = .plain)
    (hescaped : ∀ within, spot = .escaped within → escaped = true) (behind : List Char) :
    closing spot (regexBody escaped pattern ++ '/' :: behind) = some behind ↔
      ¬ ExposesFrom spot escaped pattern := by
  induction pattern generalizing spot escaped with
  | nil =>
    obtain rfl : spot = .plain := hcomplete
    simp only [regexBody, List.nil_append, closing_slash, not_exposesFrom_nil, not_false_eq_true]
  | cons c rest ih =>
    obtain ⟨hline, hlines⟩ := List.forall_mem_cons.mp hlines
    have hrest := ih hlines hcomplete fun within hspot =>
      beq_iff_eq.mpr (Spot.eq_backslash_of_step hspot)
    rw [exposesFrom_cons_iff, regexBody]
    by_cases hslash : c = '/' ∧ escaped = false
    · -- The slash gets a backslash, and the spot is the same behind it as in the pattern.
      obtain ⟨rfl, rfl⟩ := hslash
      have hspot : ∀ within, spot ≠ .escaped within := fun within h =>
        absurd (hescaped within h) (by decide)
      have hstep : spot.step '/' = spot := by
        cases spot with
        | escaped within => exact absurd rfl (hspot within)
        | _ => rfl
      rw [if_pos ⟨rfl, rfl⟩, List.append_assoc, List.cons_append, List.cons_append,
        List.nil_append, closing_escaped_slash hspot]
      have hnone : ('/' == '\\') = false := rfl
      rw [hstep, hnone] at hrest ⊢
      exact hrest.trans (not_congr (or_iff_right fun h => absurd h.1 (by decide)).symm)
    · rw [if_neg hslash, escapeTerminator?_eq_none hline, Option.getD_none, List.append_assoc,
        List.singleton_append]
      by_cases hcloses : c = '/' ∧ spot = .plain
      · -- The slash is bare, and at least the one at the end is left behind it.
        obtain ⟨rfl, rfl⟩ := hcloses
        have hflag : escaped = true := by simpa using hslash
        rw [closing_slash]
        refine iff_of_false (fun h => ?_) (not_not_intro (Or.inl ⟨hflag, rfl, rfl⟩))
        have hlength := congrArg List.length (Option.some.inj h)
        rw [List.length_append, List.length_cons] at hlength
        omega
      · rw [closing_step hline fun hc hspot => hcloses ⟨hc, hspot⟩, hrest,
          or_iff_right fun h => hcloses ⟨h.2.2, h.2.1⟩]

/-- **Where a regular expression literal ends.** The literal of a complete pattern without line
terminators is closed by its last character if and only if the pattern has no slash outside of
classes behind a backslash that is protected itself. -/
theorem regexLiteral_closesAtEnd_iff {pattern : String}
    (hlines : ∀ c ∈ pattern.toList, isTerminator c = false)
    (hcomplete : IsComplete pattern.toList) :
    ClosesAtEnd (regexLiteral pattern) ↔ ¬ Exposes pattern.toList := by
  have hliteral : (regexLiteral pattern).toList = '/' :: (regexBody false pattern.toList ++ ['/']) :=
    String.toList_ofList
  have hclosing : ClosesAtEnd (regexLiteral pattern) ↔
      closing .plain (regexBody false pattern.toList ++ ['/']) = some [] := by
    constructor
    · rintro ⟨body, hbody, h⟩
      obtain rfl := (List.cons.inj (hliteral.symm.trans hbody)).2
      exact h
    · intro h
      exact ⟨_, hliteral, h⟩
  rw [hclosing, closing_regexBody_eq_iff hlines hcomplete nofun, exposesFrom_plain_iff]

/-- Slashes in a class, behind three backslashes and by themselves. -/
theorem regexLiteral_closesAtEnd_of_classes :
    (∀ c ∈ "[\\\\/]\\\\\\//".toList, isTerminator c = false) ∧ IsComplete "[\\\\/]\\\\\\//".toList ∧
      ClosesAtEnd (regexLiteral "[\\\\/]\\\\\\//") := by
  have hlines : ∀ c ∈ "[\\\\/]\\\\\\//".toList, isTerminator c = false := by
    simp [isTerminator, isSeparator]
  have hcomplete : IsComplete "[\\\\/]\\\\\\//".toList := by decide
  exact ⟨hlines, hcomplete, (regexLiteral_closesAtEnd_iff hlines hcomplete).mpr (by decide)⟩

/-- **A pattern whose literal is closed too early**: two backslashes and a slash. -/
theorem regexLiteral_closes_early :
    "\\\\/" ≠ "" ∧ (∀ c ∈ "\\\\/".toList, isTerminator c = false) ∧ IsComplete "\\\\/".toList ∧
      ¬ ClosesAtEnd (regexLiteral "\\\\/") ∧
      ∃ body, (regexLiteral "\\\\/").toList = '/' :: body ∧ closing .plain body = some ['/'] := by
  refine ⟨by decide, by simp [isTerminator, isSeparator], by decide, ?_, _, rfl, by decide⟩
  rintro ⟨body, hbody, h⟩
  obtain rfl := (List.cons.inj hbody).2
  exact absurd h (by decide)

end SchemaForge.Script
