import SchemaForge.Shape.Default
import SchemaForge.Unsupported

/-!
# `SchemaForge.Expression.Emission` — writing an expression, with warnings

What is being written either comes out or is refused. On the way there may be warnings, about
demands that a dialect cannot express and leaves out; those given before a refusal stay.

## Contents
- **Warnings.** `Warning`, `Warning.text`.
- **Failures.** `RenderError`.
- **Emissions.** `Emission` is a monad: one part is written after another, warnings are collected in
  that order, and the first failure ends it.
- **Sequences.** The monad is lawful.
- **Outcomes.** `outcome_bind_eq_ok_iff` takes a sequence apart; `outcome_bind_of_ok`,
  `outcome_bind_of_error` and `warnings_bind_of_ok` say what follows from its first part.
-/

namespace SchemaForge

/-- Something that is left out. -/
inductive Warning where
  /-- An upper bound on a number. -/
  | droppedMaximum (maximum : Json) (path : Path)
  /-- A default. -/
  | droppedDefault (default : Default) (path : Path)

/-- The text of a warning. Of all dialects only ArkType leaves anything out. -/
def Warning.text : Warning → String
  | droppedMaximum maximum path =>
    Dialect.arkType.label ++ ": dropping maximum " ++ maximum.display ++ " at " ++ path.text
  | droppedDefault default path =>
    Dialect.arkType.label ++ ": dropping default " ++ default.inspect ++ " at " ++ path.text

/-- Why an expression cannot be written. -/
inductive RenderError where
  /-- The dialect refuses a part of it. -/
  | unsupported (refusal : Unsupported)
  /-- A pattern is no text. -/
  | patternNotText
  /-- The indentation is no text. -/
  | indentNotText

/-- What comes of writing something, and the warnings about it. -/
structure Emission (α : Type) where
  /-- The warnings, in order. -/
  warnings : List Warning
  /-- What was written, or why it was not. -/
  outcome : Except RenderError α

namespace Emission

variable {α β : Type}

/-- One emission after another: nothing follows a failure. -/
protected def bind (first : Emission α) (next : α → Emission β) : Emission β :=
  match first.outcome with
  | .error e => { warnings := first.warnings, outcome := .error e }
  | .ok a =>
    { warnings := first.warnings ++ (next a).warnings, outcome := (next a).outcome }

instance : Monad Emission where
  pure a := { warnings := [], outcome := .ok a }
  bind := Emission.bind

/-- A failure. -/
def fail (e : RenderError) : Emission α := { warnings := [], outcome := .error e }

/-- A warning. -/
def warn (w : Warning) : Emission Unit := { warnings := [w], outcome := .ok () }

/-- A dialect's refusal. -/
def refuse (d : Dialect) (construct : Construct) (path : Path) : Emission α :=
  fail (.unsupported { construct, path, dialect := some d })

/-- A result whose failure is a dialect's refusal. -/
def orRefuse (d : Dialect) (path : Path) : Except Construct α → Emission α
  | .ok a => pure a
  | .error construct => refuse d construct path

/-! ## Sequences -/

/-- Nothing more is written after the last part. -/
theorem bind_pure_id (x : Emission α) : id <$> x = x := by
  change Emission.bind x _ = x
  unfold Emission.bind
  split
  · next h => cases x; simp_all
  · next h => cases x; simp_all

/-- What is there already is passed on. -/
theorem pure_then (a : α) (next : α → Emission β) : pure a >>= next = next a := by
  change Emission.bind _ next = next a
  simp [Emission.bind, pure]

/-- It does not matter which of two steps in a row are taken together. -/
theorem bind_bind {γ : Type} (x : Emission α) (f : α → Emission β) (g : β → Emission γ) :
    x >>= f >>= g = x >>= fun a => f a >>= g := by
  change Emission.bind (Emission.bind x f) g = Emission.bind x fun a => Emission.bind (f a) g
  unfold Emission.bind
  cases x.outcome with
  | error e => rfl
  | ok a =>
    dsimp only
    cases (f a).outcome with
    | error e => rfl
    | ok b => simp only [List.append_assoc]

instance : LawfulMonad Emission :=
  LawfulMonad.mk' Emission bind_pure_id pure_then bind_bind

/-! ## Outcomes -/

@[simp] theorem outcome_pure (a : α) : (pure a : Emission α).outcome = .ok a := rfl

@[simp] theorem outcome_fail (e : RenderError) : (fail e : Emission α).outcome = .error e := rfl

@[simp] theorem outcome_refuse (d : Dialect) (construct : Construct) (path : Path) :
    (refuse d construct path : Emission α).outcome
      = .error (.unsupported { construct, path, dialect := some d }) := rfl

theorem outcome_orRefuse_eq_ok_iff {d : Dialect} {path : Path} {result : Except Construct α}
    {a : α} : (orRefuse d path result).outcome = .ok a ↔ result = .ok a := by
  cases result with
  | ok b =>
    show (Except.ok b : Except RenderError α) = .ok a ↔ _
    rw [Except.ok.injEq, Except.ok.injEq]
  | error construct =>
    constructor
    · intro h
      cases h
    · intro h
      cases h

/-- A sequence comes out when both of its parts do. -/
theorem outcome_bind_eq_ok_iff {first : Emission α} {next : α → Emission β} {b : β} :
    (first >>= next).outcome = .ok b ↔
      ∃ a, first.outcome = .ok a ∧ (next a).outcome = .ok b := by
  change (Emission.bind first next).outcome = .ok b ↔ _
  unfold Emission.bind
  cases first.outcome with
  | error e => simp
  | ok a => simp

/-- What comes out of a part is passed on to the rest. -/
theorem outcome_bind_of_ok {first : Emission α} {a : α} (h : first.outcome = .ok a)
    (next : α → Emission β) : (first >>= next).outcome = (next a).outcome := by
  change (Emission.bind first next).outcome = _
  rw [Emission.bind, h]

/-- Nothing follows a failure. -/
theorem outcome_bind_of_error {first : Emission α} {e : RenderError} (h : first.outcome = .error e)
    (next : α → Emission β) : (first >>= next).outcome = .error e := by
  change (Emission.bind first next).outcome = _
  rw [Emission.bind, h]

/-- The warnings about a part come before those about the rest. -/
theorem warnings_bind_of_ok {first : Emission α} {a : α} (h : first.outcome = .ok a)
    (next : α → Emission β) :
    (first >>= next).warnings = first.warnings ++ (next a).warnings := by
  change (Emission.bind first next).warnings = _
  rw [Emission.bind, h]

end Emission

end SchemaForge
