import SchemaForge.Proofs.Module.Generation
import SchemaForge.Proofs.Script.Evaluation

/-!
# `SchemaForge.Proofs.Module.Imports` — which module the type helper is imported from

The second import of a module names the types module in a string literal. Unlike all other texts that
get into a module, the name is put between the quotes as it is set. So the import is from the module of
that name exactly if the name may stand there verbatim: a backslash in it, as in paths of some systems,
begins an escape, and a quote closes the literal too early.

## Contents
- **Imports.** `ImportsFrom`, and `importsFrom_iff_isVerbatim`.
- **Modules.** `IsMade` code begins with the imports.
- **Settings.** `importsFrom_configured_iff`, and `imports_from_other_module` for a path whose
  backslash makes another name of it.
-/

namespace SchemaForge.Module

open Script (IsVerbatim evaluate)
open Text (units)

/-! ## Imports -/

/-- The imports of a module up to the name of the types module. -/
def helperImport (d : Dialect) : String :=
  d.builderImport ++ "\n" ++ "import \x7b type InferSchema \x7d from "

/-- **Whether the second import of code is from a module**: read from the quote that opens it, the
string literal there has the name of the module as its value, and is closed right in front of the
semicolon at the end of the line. -/
def ImportsFrom (separators : Bool) (d : Dialect) (code name behind : String) : Prop :=
  ∃ body, code.toList = (helperImport d).toList ++ '"' :: body ∧
    evaluate separators '"' body = some (name.toList.flatMap units, ';' :: '\n' :: behind.toList)

variable {separators : Bool} {d : Dialect} {settings : Settings} {name : String}

theorem toList_header (hname : settings.typesModule = .str name) :
    (header d settings).toList
      = (helperImport d).toList ++ '"' :: (name.toList ++ ['"', ';', '\n']) := by
  rw [header, helperImport, hname]
  simp [Json.display, String.toList_append]

/-- The imports are from the module that is set exactly if its name may stand there verbatim. -/
theorem importsFrom_iff_isVerbatim (hname : settings.typesModule = .str name) (behind : String) :
    ImportsFrom separators d (header d settings ++ behind) name behind ↔
      IsVerbatim separators '"' name.toList := by
  have hcode : (header d settings ++ behind).toList
      = (helperImport d).toList ++ '"' :: (name.toList ++ '"' :: ';' :: '\n' :: behind.toList) := by
    rw [String.toList_append, toList_header hname]
    simp
  have hliteral : ImportsFrom separators d (header d settings ++ behind) name behind ↔
      evaluate separators '"' (name.toList ++ '"' :: ';' :: '\n' :: behind.toList)
        = some (name.toList.flatMap units, ';' :: '\n' :: behind.toList) := by
    constructor
    · rintro ⟨body, hbody, h⟩
      cases List.append_cancel_left (hcode.symm.trans hbody)
      exact h
    · exact fun h => ⟨_, hcode, h⟩
  rw [hliteral, Script.evaluate_eq_self_iff]

/-! ## Modules -/

/-- **Whether code is a module that was made** of a shape or of a schema, and no author's text. -/
def IsMade (d : Dialect) (settings : Settings) (code : String) : Prop :=
  ∃ source?, isPassedOn d source? = false ∧
    ((∃ shape, (ofShape d settings source? shape).outcome = .ok code) ∨
      ∃ schema, (ofSchema d settings source? schema).outcome = .ok code)

/-- A module of a shape stands behind its imports. -/
theorem exists_behind_header {source? : Option String} {shape : Shape} {code : String}
    (hsource : isPassedOn d source? = false)
    (h : (ofShape d settings source? shape).outcome = .ok code) :
    ∃ behind, code = header d settings ++ behind := by
  have haround : ofShape d settings source? shape = around d settings shape := by
    unfold ofShape
    split
    · cases hsource
    · rfl
  rw [haround] at h
  cases shape with
  | object properties =>
    obtain ⟨expression, -, hcode⟩ := Emission.outcome_bind_eq_ok_iff.mp h
    cases hcode
    exact ⟨"\n" ++ body expression, String.append_assoc ..⟩
  | _ => cases h

/-- Whatever is made stands behind its imports. -/
theorem IsMade.exists_behind_header {code : String} (h : IsMade d settings code) :
    ∃ behind, code = header d settings ++ behind := by
  obtain ⟨source?, hsource, ⟨shape, hcode⟩ | ⟨schema, hcode⟩⟩ := h
  · exact Module.exists_behind_header hsource hcode
  · cases hread : Shape.ofSchema schema with
    | error e =>
      rw [ofSchema, hread] at hcode
      cases hcode
    | ok shape =>
      rw [outcome_ofSchema hread] at hcode
      exact Module.exists_behind_header hsource (Shape.mapError_eq_ok_iff.mp hcode)

/-! ## Settings -/

/-- Any value may be set as the types module. -/
theorem exists_settings {members : Fields Json} {value : Json}
    (h : Fields.get? "types_module" members = some value) :
    ∃ settings, Settings.ofJson? (.obj members) = some settings ∧ settings.typesModule = value := by
  refine ⟨_, rfl, ?_⟩
  rw [h, Option.getD_some]

/-- **Where the type helper is imported from.** A configuration may set any text as the types module.
The imports, and every module that is made with the settings, import from the module of that name
exactly if the name may stand between quotes verbatim. -/
theorem importsFrom_configured_iff (separators : Bool) (d : Dialect) {members : Fields Json}
    {name : String} (hname : Fields.get? "types_module" members = some (.str name)) :
    ∃ settings, Settings.ofJson? (.obj members) = some settings ∧
      (ImportsFrom separators d (header d settings) name "" ↔ IsVerbatim separators '"' name.toList) ∧
      ∀ code, IsMade d settings code → ∃ behind, code = header d settings ++ behind ∧
        (ImportsFrom separators d code name behind ↔ IsVerbatim separators '"' name.toList) := by
  obtain ⟨settings, hsettings, hmodule⟩ := exists_settings hname
  refine ⟨settings, hsettings, ?_, fun code hcode => ?_⟩
  · have himports : ImportsFrom separators d (header d settings ++ "") name "" ↔ _ :=
      importsFrom_iff_isVerbatim hmodule ""
    rwa [String.append_empty] at himports
  · obtain ⟨behind, rfl⟩ := hcode.exists_behind_header
    exact ⟨behind, rfl, importsFrom_iff_isVerbatim hmodule behind⟩

/-- A name with single quotes, a slash and characters beyond ASCII. -/
theorem importsFrom_configured_of_path :
    let members : Fields Json := [("types_module", .str "@/it's/çà")]
    Fields.get? "types_module" members = some (.str "@/it's/çà") ∧
      ∃ settings, Settings.ofJson? (.obj members) = some settings ∧
        ImportsFrom false .valibot (header .valibot settings) "@/it's/çà" "" := by
  intro members
  have hname : Fields.get? "types_module" members = some (.str "@/it's/çà") := rfl
  obtain ⟨settings, hsettings, himports, -⟩ := importsFrom_configured_iff false .valibot hname
  exact ⟨hname, settings, hsettings, himports.mpr (by decide)⟩

/-- **A path that is imported from elsewhere**: its backslash and the letter behind it are a tab. -/
theorem imports_from_other_module :
    let members : Fields Json := [("types_module", .str "..\\types")]
    Fields.get? "types_module" members = some (.str "..\\types") ∧
      ∃ settings, Settings.ofJson? (.obj members) = some settings ∧
        ∀ separators, ¬ ImportsFrom separators .zod (header .zod settings) "..\\types" "" ∧
          ImportsFrom separators .zod (header .zod settings) "..\types" "" := by
  intro members
  let settings : Settings := { typesModule := .str "..\\types" }
  refine ⟨rfl, settings, rfl, fun separators => ⟨fun h => ?_, _, toList_header rfl, ?_⟩⟩
  · rw [← String.append_empty (s := header .zod settings), importsFrom_iff_isVerbatim rfl] at h
    exact absurd (h '\\' (by decide)).2.1 (by decide)
  · cases separators <;> cbv

end SchemaForge.Module
