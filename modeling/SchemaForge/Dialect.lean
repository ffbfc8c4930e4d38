import SchemaForge.Json.Notation
import SchemaForge.Text.Blank
import SchemaForge.Text.Letters

/-!
# `SchemaForge.Dialect` — the validation libraries that schemas are written for

A dialect is known by the npm package that declares it and by the label that people call it by. A
name is looked up among both, without regard to case or to blanks around it.

## Contents
- **Dialects.** `Dialect`, `packageName`, `label`.
- **Looking up.** `ofName?` takes a name, `ofTarget` any value, `ofChoice?` a package name that must
  not be padded; `isTarget` tells whether a value names a dialect.
-/

namespace SchemaForge

/-- A validation library. -/
inductive Dialect where
  | zod
  | valibot
  | arkType
  | typeBox
  | zodMini
deriving DecidableEq, Repr

namespace Dialect

/-- The dialects, in the order in which they are listed and looked up. -/
def all : List Dialect := [zod, valibot, arkType, typeBox, zodMini]

theorem mem_all (d : Dialect) : d ∈ all := by cases d <;> decide

/-- The npm package of the dialect. -/
def packageName : Dialect → String
  | zod => "zod"
  | valibot => "valibot"
  | arkType => "arktype"
  | typeBox => "@sinclair/typebox"
  | zodMini => "zod-mini"

/-- What people call the dialect. -/
def label : Dialect → String
  | zod => "Zod"
  | valibot => "Valibot"
  | arkType => "ArkType"
  | typeBox => "TypeBox"
  | zodMini => "Zod Mini"

/-! ## Looking up -/

/-- Whether a lower-case name is one of the dialect's two. -/
def answersTo (d : Dialect) (name : List Char) : Bool :=
  name == d.packageName.toList || name == Text.lowerName d.label.toList

/-- The dialect with the given package name or label. -/
def ofName? (name : String) : Option Dialect :=
  all.find? (·.answersTo (Text.lowerName (Text.trim name.toList)))

/-- The dialect with the given package name. -/
def ofChoice? (choice : String) : Option Dialect :=
  all.find? fun d => Text.foldName choice.toList == d.packageName.toList

/-- A target that names no dialect. -/
structure Unknown where
  /-- What was asked for. -/
  target : Json

/-- The package names, as messages list them. -/
def listing : String := ", ".intercalate (all.map packageName)

/-- The message about a target that names no dialect. -/
def Unknown.message (e : Unknown) : String :=
  "Validator \"" ++ e.target.display ++ "\" not found. Supported: " ++ listing

/-- The dialect that a value names. Only a text names one. -/
def ofTarget (target : Json) : Except Unknown Dialect :=
  match target with
  | .str name => match ofName? name with
    | some d => .ok d
    | none => .error { target }
  | _ => .error { target }

/-- Whether a value names a dialect. -/
def isTarget (target : Json) : Bool :=
  match ofTarget target with
  | .ok _ => true
  | .error _ => false

end Dialect

end SchemaForge
