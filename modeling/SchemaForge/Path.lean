/-!
# `SchemaForge.Path` — where in a tree something stands

A path leads from the root, written `#`, to a part of a schema or of a shape, one step a level.
Steps are joined by slashes; a slash inside a step is not told apart from one between two steps.

## Contents
- **Paths.** `Path`, `root`, `child`, `text`.
-/

namespace SchemaForge

/-- A way from the root of a tree to one of its parts. -/
structure Path where
  /-- The steps, from the root on. -/
  steps : List String
deriving DecidableEq, Repr

namespace Path

/-- The root. -/
def root : Path := { steps := [] }

/-- One step further. -/
def child (p : Path) (step : String) : Path := { steps := p.steps ++ [step] }

/-- One step to a numbered part, after a step that names the list. -/
def element (p : Path) (list : String) (index : Nat) : Path :=
  (p.child list).child (toString index)

/-- A path as messages show it. -/
def text (p : Path) : String := p.steps.foldl (fun shown step => shown ++ "/" ++ step) "#"

@[simp] theorem text_root : root.text = "#" := rfl

@[simp] theorem text_child (p : Path) (step : String) :
    (p.child step).text = p.text ++ "/" ++ step := by
  simp [text, child]

end Path

end SchemaForge
