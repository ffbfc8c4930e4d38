import SchemaForge.Text.Blank
import SchemaForge.Text.Search

/-!
# `SchemaForge.Module.Exports` — checking a module before it is written

Whatever a module contains, it has to export the schema and its type. The check is textual: it looks
for the beginnings of the two export statements anywhere in the module.

## Contents
- **Defects.** `Defect`, `Defect.message`.
- **The check.** `requiredExports`, `defect?`.
-/

namespace SchemaForge.Module

/-- What is wrong with a module. -/
inductive Defect where
  /-- There is nothing but blanks in it. -/
  | empty
  /-- An export is missing. -/
  | missing (statement : String)
deriving DecidableEq, Repr

/-- The message about a defect. -/
def Defect.message : Defect → String
  | empty => "Generated module is empty"
  | missing statement => "Generated module is missing '" ++ statement ++ "'"

/-- The beginnings of the statements that every module has. -/
def requiredExports : List String := ["export const schema", "export type Schema"]

/-- The first defect of a module. -/
def defect? (content : String) : Option Defect :=
  if Text.isBlankText content then some .empty
  else (requiredExports.find? fun statement =>
    !Text.occursIn statement.toList content.toList).map .missing

end SchemaForge.Module
