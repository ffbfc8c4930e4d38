import Mathlib.Data.List.Nodup
import SchemaForge.Proofs.Expression.Layout
import SchemaForge.Proofs.Expression.Parts

/-!
# `SchemaForge.Proofs.Expression.Keys` — the keys of a map of properties

Where a map has a key twice, the later property takes the place of the earlier one. The names of the
properties of an object differ, and every dialect but ArkType writes them as they are. ArkType marks
the keys of optional properties, and a marked name may be the name of a property that is required.
This is the only way in which a key comes twice.

## Contents
- **Keys.** `key` and `keys`; `Shadowed` for a marked name that is a name, and `nodup_keys_iff`.
- **Reading.** `keyOf?` reads the key of a line back.
- **Maps.** `gives_keys` for the lines of an object, and `keys_of_occurs` for objects in a tree.
-/

namespace SchemaForge.Expression

open Emission (Gives gives_pure gives_fail gives_warn_bind)
open Shape (Occurs)

variable {d : Dialect} {i : Indentation}

/-! ## Keys -/

/-- The key of a property. ArkType marks that of an optional one. -/
def key (d : Dialect) (name : String) : Shape → String
  | .optional .. => if d = .arkType then name ++ "?" else name
  | _ => name

/-- The keys of properties, in their order. -/
def keys (d : Dialect) (properties : Fields Shape) : List String :=
  properties.map fun property => key d property.1 property.2

/-- **Whether the mark of an optional property makes its key that of a required one.** -/
def Shadowed (properties : Fields Shape) : Prop :=
  ∃ name optional required, (name, optional) ∈ properties ∧ optional.IsOptional ∧
    (name ++ "?", required) ∈ properties ∧ ¬ required.IsOptional

theorem key_of_not_isOptional {shape : Shape} (h : ¬ shape.IsOptional) (name : String) :
    key d name shape = name := by
  cases shape with
  | optional => exact absurd trivial h
  | _ => rfl

theorem key_of_ne (hd : d ≠ .arkType) (name : String) (shape : Shape) : key d name shape = name := by
  cases shape with
  | optional => exact if_neg hd
  | _ => rfl

theorem key_of_isOptional {shape : Shape} (h : shape.IsOptional) (name : String) :
    key .arkType name shape = name ++ "?" := by
  cases shape with
  | optional => rfl
  | _ => exact h.elim

/-- Where no property is shadowed, a key tells the name. -/
theorem name_eq_of_key_eq {properties : Fields Shape}
    (hnone : ¬ (d = .arkType ∧ Shadowed properties)) {property other : String × Shape}
    (hproperty : property ∈ properties) (hother : other ∈ properties)
    (h : key d property.1 property.2 = key d other.1 other.2) : property.1 = other.1 := by
  by_cases hd : d = .arkType
  · subst hd
    have hshadow {name : String} {optional required : Shape} (hopt : (name, optional) ∈ properties)
        (hreq : (name ++ "?", required) ∈ properties) (hopt' : optional.IsOptional) :
        required.IsOptional := by
      by_contra hreq'
      exact hnone ⟨rfl, name, optional, required, hopt, hopt', hreq, hreq'⟩
    obtain ⟨name, shape⟩ := property
    obtain ⟨name', shape'⟩ := other
    -- A key with the mark belongs to an optional property, or else that property is shadowed.
    by_cases hshape : shape.IsOptional <;> by_cases hshape' : shape'.IsOptional
    · rw [key_of_isOptional hshape, key_of_isOptional hshape'] at h
      exact String.append_left_inj "?" |>.mp h
    · rw [key_of_isOptional hshape, key_of_not_isOptional hshape'] at h
      subst h
      exact absurd (hshadow hproperty hother hshape) hshape'
    · rw [key_of_not_isOptional hshape, key_of_isOptional hshape'] at h
      subst h
      exact absurd (hshadow hother hproperty hshape') hshape
    · rwa [key_of_not_isOptional hshape, key_of_not_isOptional hshape'] at h
  · rwa [key_of_ne hd, key_of_ne hd] at h

/-- **Keys come twice only where a property is shadowed**, if the names of the properties differ. -/
theorem nodup_keys_iff {properties : Fields Shape} (hnames : (Fields.names properties).Nodup) :
    (keys d properties).Nodup ↔ ¬ (d = .arkType ∧ Shadowed properties) := by
  constructor
  · rintro hkeys ⟨rfl, name, optional, required, hopt, hopt', hreq, hreq'⟩
    have hsame : (name, optional) = (name ++ "?", required) := by
      refine List.inj_on_of_nodup_map hkeys hopt hreq ?_
      rw [key_of_isOptional hopt', key_of_not_isOptional hreq']
    rw [(Prod.mk.inj hsame).2] at hopt'
    exact hreq' hopt'
  · intro hnone
    refine List.Nodup.map_on (fun property hproperty other hother h => ?_) (hnames.of_map _)
    exact List.inj_on_of_nodup_map hnames hproperty hother
      (name_eq_of_key_eq hnone hproperty hother h)

/-! ## Reading -/

/-- The key of a line at some depth: the string literal behind the indentation. -/
def keyOf? (i : Indentation) (depth : Nat) (line : String) : Option String := do
  let indent ← i.before? depth
  match line.toList.drop indent.toList.length with
  | '"' :: rest => do
    let (units, _) ← Script.scan '"' rest
    return String.ofList (Text.joinUnits units)
  | _ => none

theorem gives_keyOf?_line (depth : Nat) (entry : Entry) :
    Gives (fun text => keyOf? i depth text = some entry.key) (line i depth entry) := by
  unfold line
  split
  · next indent hindent =>
    refine gives_pure ?_
    have hreads : Script.Reads '"' (entry.key.toList.flatMap Script.escape)
        (entry.key.toList.flatMap fun c => [c.toNat]) :=
      Script.reads_flatMap fun c _ => Script.reads_escape (Or.inr rfl)
    have hline : (indent ++ Script.doubleQuoted entry.key ++ ": " ++ entry.code).toList
          = indent.toList ++ '"' :: (entry.key.toList.flatMap Script.escape ++
            '"' :: (": " ++ entry.code).toList) := by
      simp [Script.doubleQuoted, String.toList_append]
    rw [keyOf?, hindent, Option.bind_eq_bind, Option.bind_some, hline, List.drop_left]
    simp only [Script.scan_close hreads (by decide), Option.bind_eq_bind, Option.bind_some,
      Script.joinUnits_flatMap_toNat, String.ofList_toList]
    rfl
  · exact gives_fail .indentNotText

/-! ## Maps -/

theorem gives_key_optionalEntry (name code : String) (default? : Option Default) (path : Path)
    (inner : Shape) (default : Default) (hasDefault : Json) :
    Gives (fun entry => entry.key = key d name (.optional inner default hasDefault))
      (optionalEntry d name code default? path) := by
  cases d with
  | arkType =>
    cases default? with
    | none => exact gives_pure rfl
    | some value => exact gives_warn_bind _ (gives_pure rfl)
  | _ => cases default? <;> exact gives_pure rfl

/-- **The key of a property is read back from its line.** -/
theorem gives_key (name : String) (shape : Shape) (path : Path) (depth : Nat) :
    Gives (fun text => keyOf? i (depth + 1) text = some (key d name shape))
      (renderLine d i name shape path depth) := by
  have hany (shape : Shape) : Gives (fun _ => True) (render d i shape (path.child name) (depth + 1)) :=
    fun _ _ => trivial
  by_cases hshape : shape.IsOptional
  · cases shape with
    | optional inner default hasDefault =>
      by_cases hinner : inner.IsOptional
      · cases inner with
        | optional => exact gives_fail _
        | _ => exact hinner.elim
      · rw [renderLine_optional hinner]
        refine (hany inner).bind fun code _ => ?_
        refine (gives_key_optionalEntry name code _ _ inner default hasDefault).bind
          fun entry hentry => ?_
        rw [← hentry]
        exact gives_keyOf?_line (depth + 1) entry
    | _ => exact hshape.elim
  · rw [renderLine_of_not_isOptional hshape, key_of_not_isOptional hshape]
    exact (hany shape).bind fun code _ => gives_keyOf?_line (depth + 1) { key := name, code }

/-- The keys of an object are read back from its lines. -/
theorem gives_keys (properties : Fields Shape) (path : Path) (depth : Nat) :
    Gives (fun lines => lines.mapM (keyOf? i (depth + 1)) = some (keys d properties))
      (renderLines d i properties path depth) := by
  induction properties with
  | nil => exact gives_pure rfl
  | cons property rest ih =>
    rw [renderLines_cons]
    refine (gives_key property.1 property.2 path depth).bind fun line hline => ?_
    refine ih.bind_pure fun lines hlines => ?_
    rw [List.mapM_cons, hline, hlines]
    rfl

/-- **The keys of a map.** Each object in a tree that is accepted is written as a map, from whose lines
the keys of its properties are read back. If the names of the properties differ, so do the keys, unless
the dialect is ArkType and a property is shadowed. -/
theorem keys_of_occurs {shape : Shape} {whole : String}
    (h : (renderShape d i shape).outcome = .ok whole) {place : Shape.Place}
    {properties : Fields Shape} (hpart : Occurs place (.object properties) .root shape)
    (hnames : (Fields.names properties).Nodup) (path : Path) (depth : Nat) :
    ∃ lines map, (renderLines d i properties path depth).outcome = .ok lines ∧
      (layout i depth lines).outcome = .ok map ∧
      (render d i (.object properties) path depth).outcome = .ok (objectType d map) ∧
      lines.mapM (keyOf? i (depth + 1)) = some (keys d properties) ∧
      ((keys d properties).Nodup ↔ ¬ (d = .arkType ∧ Shadowed properties)) := by
  obtain ⟨code, hcode⟩ := outcome_of_occurs h hpart id path depth
  have hrender := hcode
  rw [render] at hcode
  obtain ⟨lines, hlines, hcode⟩ := Emission.outcome_bind_eq_ok_iff.mp hcode
  obtain ⟨map, hmap, hcode⟩ := Emission.outcome_bind_eq_ok_iff.mp hcode
  cases hcode
  exact ⟨lines, map, hlines, hmap, hrender, gives_keys properties path depth lines hlines,
    nodup_keys_iff hnames⟩

/-- Names with quotes and marks, the keys of which differ all the same. -/
theorem keys_of_marked_names :
    let properties : Fields Shape :=
      [("a?", .optional .boolean .null .null), ("a", .boolean), ("\"", .optional .boolean .null .null)]
    (∃ whole, (renderShape .arkType (.unit "\t") (.array (.object properties))).outcome = .ok whole) ∧
      Occurs .items (.object properties) .root (.array (.object properties)) ∧
      (Fields.names properties).Nodup ∧
      ∃ lines, (renderLines .arkType (.unit "\t") properties .root 0).outcome = .ok lines ∧
        lines.mapM (keyOf? (.unit "\t") 1) = some ["a??", "a", "\"?"] := by
  intro properties
  have h : ∃ whole, (renderShape .arkType (.unit "\t") (.array (.object properties))).outcome
      = .ok whole := ⟨_, rfl⟩
  have hitems : (Shape.Place.items, Shape.object properties)
      ∈ (Shape.array (.object properties)).parts := List.mem_singleton.mpr rfl
  have hpart : Occurs .items (.object properties) .root (.array (.object properties)) :=
    .within hitems .here
  have hnames : (Fields.names properties).Nodup := by decide
  obtain ⟨lines, map, hlines, -, -, hkeys, -⟩ := keys_of_occurs h.choose_spec hpart hnames .root 0
  exact ⟨h, hpart, hnames, lines, hlines, hkeys⟩

/-- **A property that is shadowed**: the mark of an optional property makes its key that of the next
property, whose name ends in a question mark. -/
theorem keys_twice :
    let properties : Fields Shape :=
      [("a", .optional .anyString .null .null), ("a?", .boolean)]
    (Fields.names properties).Nodup ∧
      (render .arkType (.unit "  ") (.object properties) .root 0).outcome
        = .ok "type(\x7b\n  \"a?\": \"string\",\n  \"a?\": \"boolean\"\n\x7d)" ∧
      ["  \"a?\": \"string\"", "  \"a?\": \"boolean\""].mapM (keyOf? (.unit "  ") 1)
        = some ["a?", "a?"] ∧
      ¬ ["a?", "a?"].Nodup := by
  intro properties
  exact ⟨by decide, rfl, rfl, by decide⟩

end SchemaForge.Expression
