import SchemaForge.Proofs.Expression.Likeness

/-!
# `SchemaForge.Proofs.Expression.Parts` — what is written has parts that are written

The expression of a shape is made of those of its parts, so a shape is written only if its parts are.
Where a shape stands decides how deep its lines are indented and which path a refusal names, but not
whether the shape is written; so a part of something written is written wherever it stands. An
optional value is never written by itself: its inner value is.

## Contents
- **Emissions.** `Emission.Implies` for an emission that comes out whenever another one does.
- **Places.** `implies_render_and_renderLine`: a shape that is written is written at every place.
- **Parts.** `IsWritten`, and `isWritten_of_occurs` for parts at any depth.
-/

namespace SchemaForge

/-! ## Emissions -/

namespace Emission

variable {α β γ δ : Type}

/-- Whether the second emission comes out whenever the first one does. -/
def Implies (first : Emission α) (second : Emission β) : Prop :=
  Relates (fun _ _ => True) first second

theorem implies_refl (emission : Emission α) : Implies emission emission :=
  fun a ha => ⟨a, ha, trivial⟩

theorem implies_pure (first : Emission α) (b : β) : Implies first (pure b) :=
  fun _ _ => ⟨b, rfl, trivial⟩

theorem implies_refuse (d : Dialect) (construct : Construct) (path : Path) (second : Emission β) :
    Implies (refuse d construct path : Emission α) second :=
  relates_refuse d construct path second

theorem implies_orRefuse (d : Dialect) (path path' : Path) (result : Except Construct α) :
    Implies (orRefuse d path result) (orRefuse d path' result) :=
  relates_orRefuse fun a ha => ⟨a, ha, trivial⟩

theorem Implies.bind {first : Emission α} {second : Emission β} (h : Implies first second)
    {next : α → Emission γ} {next' : β → Emission δ} (hnext : ∀ a b, Implies (next a) (next' b)) :
    Implies (first >>= next) (second >>= next') :=
  Relates.bind h fun a b _ => hnext a b

theorem Implies.bind_pure {first : Emission α} {second : Emission β} (h : Implies first second)
    (f : α → γ) (g : β → δ) :
    Implies (first >>= fun a => pure (f a)) (second >>= fun b => pure (g b)) :=
  h.bind fun a b => implies_pure (pure (f a)) (g b)

end Emission

namespace Expression

open Emission (Implies implies_refl implies_pure implies_refuse implies_orRefuse)
open Shape (Occurs)

variable {d : Dialect} {i : Indentation}

/-! ## Places -/

theorem implies_boundDemand (d : Dialect) (demand : Demand) (bound : Json) (path path' : Path) :
    Implies (boundDemand d demand bound path) (boundDemand d demand bound path') := by
  unfold boundDemand
  split
  · exact implies_refl _
  · exact (implies_orRefuse d path path' _).bind_pure _ _

theorem implies_numberType (d : Dialect) (minimum maximum : Json) (path path' : Path) :
    Implies (numberType d minimum maximum path) (numberType d minimum maximum path') := by
  have hdemands : Implies (numberDemands d minimum maximum path)
      (numberDemands d minimum maximum path') :=
    (implies_boundDemand d .minimum minimum path path').bind fun _ _ =>
      (implies_boundDemand d .maximum maximum path path').bind_pure _ _
  cases d with
  | arkType =>
    have hlower : Implies
        (if minimum.isNull then pure (Script.doubleQuoted "number") else do
          let bound ← .orRefuse .arkType path (Script.number minimum)
          return Script.doubleQuoted ("number >= " ++ bound))
        (if minimum.isNull then pure (Script.doubleQuoted "number") else do
          let bound ← .orRefuse .arkType path' (Script.number minimum)
          return Script.doubleQuoted ("number >= " ++ bound)) := by
      split
      · exact implies_refl _
      · exact (implies_orRefuse .arkType path path' _).bind_pure _ _
    unfold numberType arkTypeNumber
    cases maximum.isNull with
    | true => exact hlower
    | false => exact Emission.relates_warn_bind _ _ hlower
  | _ => exact hdemands.bind_pure _ _

theorem implies_textType (d : Dialect) (minLength maxLength pattern : Json) (path path' : Path) :
    Implies (textType d minLength maxLength pattern path)
      (textType d minLength maxLength pattern path') := by
  cases d with
  | arkType =>
    show Implies (arkTypeText minLength maxLength pattern path)
      (arkTypeText minLength maxLength pattern path')
    unfold arkTypeText
    split
    · exact implies_refl _
    · split
      · exact implies_refl _
      · exact implies_refuse .arkType .patternWithLength path _
  | _ => exact implies_refl _

theorem implies_optionalEntry (d : Dialect) (name name' code code' : String)
    (default? : Option Default) (path path' : Path) :
    Implies (optionalEntry d name code default? path)
      (optionalEntry d name' code' default? path') := by
  cases d <;> cases default? <;> exact fun _ _ => ⟨_, rfl, trivial⟩

/-- Whether an indentation can stand in front of a line does not depend on the depth. -/
theorem implies_line (i : Indentation) (depth depth' : Nat) (entry entry' : Entry) :
    Implies (line i depth entry) (line i depth' entry') := by
  cases i with
  | unit text => exact implies_pure _ _
  | unjoinable => exact implies_pure _ _
  | unrepeatable => exact fun _ h => nomatch h

/-- Nor does it matter what the lines are, as long as there are any. -/
theorem implies_layout (i : Indentation) (depth depth' : Nat) {lines lines' : List String}
    (h : lines = [] ↔ lines' = []) : Implies (layout i depth lines) (layout i depth' lines') := by
  cases lines with
  | nil =>
    rw [h.mp rfl]
    exact implies_pure _ _
  | cons first rest =>
    cases lines' with
    | nil => exact absurd (h.mpr rfl) (List.cons_ne_nil _ _)
    | cons first' rest' =>
      cases i with
      | unit text => exact implies_pure _ _
      | unjoinable => exact fun _ h => nomatch h
      | unrepeatable => exact fun _ h => nomatch h

/-- Whether a shape that is written at one place is written at every place. -/
def RenderImplies (d : Dialect) (i : Indentation) (shape : Shape) : Prop :=
  ∀ path path' depth depth', Implies (render d i shape path depth) (render d i shape path' depth')

/-- Whether the line of a property with the shape as its value is. -/
def LineImplies (d : Dialect) (i : Indentation) (shape : Shape) : Prop :=
  ∀ name name' path path' depth depth',
    Implies (renderLine d i name shape path depth) (renderLine d i name' shape path' depth')

theorem implies_renderMembers {members : List Shape}
    (h : ∀ member ∈ members, RenderImplies d i member) (path path' : Path)
    (depth depth' index : Nat) :
    Implies (renderMembers d i members path depth index)
      (renderMembers d i members path' depth' index) := by
  induction members generalizing index with
  | nil => exact implies_refl _
  | cons member rest ih =>
    obtain ⟨hfirst, hrest⟩ := List.forall_mem_cons.mp h
    rw [renderMembers, renderMembers]
    exact (hfirst _ _ depth depth').bind fun _ _ => (ih hrest (index + 1)).bind_pure _ _

theorem implies_renderMap {properties : Fields Shape}
    (h : ∀ property ∈ properties, LineImplies d i property.2) (path path' : Path)
    (depth depth' : Nat) :
    Implies (renderMap d i properties path depth) (renderMap d i properties path' depth') := by
  have hlines : Emission.Relates (fun lines lines' => lines = [] ↔ lines' = [])
      (renderLines d i properties path depth) (renderLines d i properties path' depth') := by
    induction properties with
    | nil => exact Emission.relates_pure Iff.rfl
    | cons property rest ih =>
      obtain ⟨hfirst, hrest⟩ := List.forall_mem_cons.mp h
      rw [renderLines_cons, renderLines_cons]
      refine Emission.Relates.bind (hfirst _ _ path path' depth depth') fun line line' _ => ?_
      exact (ih hrest).bind_pure fun lines lines' _ => by simp
  exact hlines.bind fun lines lines' hempty => implies_layout i depth depth' hempty

theorem lineImplies_of_renderImplies {shape : Shape} (hshape : ¬ shape.IsOptional)
    (h : RenderImplies d i shape) : LineImplies d i shape := by
  intro name name' path path' depth depth'
  rw [renderLine_of_not_isOptional hshape, renderLine_of_not_isOptional hshape]
  exact (h _ _ (depth + 1) (depth' + 1)).bind fun _ _ => implies_line i _ _ _ _

theorem lineImplies_optional {inner : Shape} (default : Default) (hasDefault : Json)
    (h : RenderImplies d i inner) : LineImplies d i (.optional inner default hasDefault) := by
  intro name name' path path' depth depth'
  by_cases hinner : inner.IsOptional
  · cases inner with
    | optional => exact implies_refuse d .nestedOptional (path.child name) _
    | _ => exact hinner.elim
  · rw [renderLine_optional hinner, renderLine_optional hinner]
    refine (h _ _ (depth + 1) (depth' + 1)).bind fun code code' => ?_
    exact (implies_optionalEntry d name name' code code' _ _ _).bind fun _ _ =>
      implies_line i _ _ _ _

/-- **Whether a shape is written does not depend on where it stands**, and neither does whether the
line of a property is. -/
theorem implies_render_and_renderLine (d : Dialect) (i : Indentation) (shape : Shape) :
    RenderImplies d i shape ∧ LineImplies d i shape := by
  have hall : Shape.Everywhere (fun _ _ => True) .root shape := fun _ _ _ => trivial
  refine Shape.Everywhere.induct_properties ?string ?number ?boolean ?literal ?object ?array ?union
    ?optional ?foreign ?plainProperty ?optionalProperty hall
  case string =>
    exact fun minLength maxLength pattern _ path path' _ _ =>
      implies_textType d minLength maxLength pattern path path'
  case number =>
    exact fun minimum maximum _ path path' _ _ => implies_numberType d minimum maximum path path'
  case boolean => exact fun _ _ _ _ => implies_refl _
  case literal =>
    exact fun value path path' _ _ => (implies_orRefuse d path path' _).bind_pure _ _
  case object =>
    intro properties hlines path path' depth depth'
    rw [render, render, ← bind_assoc, ← bind_assoc]
    exact (implies_renderMap hlines path path' depth depth').bind_pure _ _
  case array => exact fun items hitems _ _ depth depth' => (hitems _ _ depth depth').bind_pure _ _
  case union =>
    intro members hmembers path path' depth depth'
    rw [render, render]
    cases Shape.enumeration? members with
    | some enumeration => exact (implies_orRefuse d path path' _).bind_pure _ _
    | none => exact (implies_renderMembers hmembers path path' depth depth' 0).bind_pure _ _
  case optional =>
    exact fun inner default hasDefault path _ _ _ => implies_refuse d .strayOptional path _
  case foreign => exact fun value path _ _ _ => implies_refuse d (.node value.kindName) path _
  case plainProperty => exact fun shape => lineImplies_of_renderImplies
  case optionalProperty => exact fun inner => lineImplies_optional

/-! ## Parts -/

/-- **Whether a shape is written, wherever it stands.** Of an optional value this is said of its
inner value. -/
def IsWritten (d : Dialect) (i : Indentation) : Shape → Prop
  | .optional inner _ _ => ∀ path depth, ∃ code, (render d i inner path depth).outcome = .ok code
  | shape => ∀ path depth, ∃ code, (render d i shape path depth).outcome = .ok code

theorem isWritten_iff {shape : Shape} (hshape : ¬ shape.IsOptional) :
    IsWritten d i shape ↔
      ∀ path depth, ∃ code, (render d i shape path depth).outcome = .ok code := by
  cases shape with
  | optional => exact absurd trivial hshape
  | _ => exact Iff.rfl

/-- Nothing optional is written as an expression. -/
theorem not_isOptional_of_outcome {shape : Shape} {path : Path} {depth : Nat} {code : String}
    (h : (render d i shape path depth).outcome = .ok code) : ¬ shape.IsOptional := by
  cases shape with
  | optional => cases h
  | _ => exact id

theorem isWritten_of_outcome {shape : Shape} {path : Path} {depth : Nat} {code : String}
    (h : (render d i shape path depth).outcome = .ok code) : IsWritten d i shape := by
  refine (isWritten_iff (not_isOptional_of_outcome h)).mpr fun path' depth' => ?_
  obtain ⟨code', hcode', -⟩ :=
    (implies_render_and_renderLine d i shape).1 path path' depth depth' code h
  exact ⟨code', hcode'⟩

/-- The value of a property with a line. -/
theorem isWritten_of_renderLine {name : String} {shape : Shape} {path : Path} {depth : Nat}
    {code : String} (h : (renderLine d i name shape path depth).outcome = .ok code) :
    IsWritten d i shape := by
  by_cases hshape : shape.IsOptional
  · cases shape with
    | optional inner default hasDefault =>
      by_cases hinner : inner.IsOptional
      · cases inner with
        | optional => cases h
        | _ => exact hinner.elim
      · rw [renderLine_optional hinner] at h
        obtain ⟨code, hcode, -⟩ := Emission.outcome_bind_eq_ok_iff.mp h
        exact (isWritten_iff hinner).mp (isWritten_of_outcome hcode)
    | _ => exact hshape.elim
  · rw [renderLine_of_not_isOptional hshape] at h
    obtain ⟨code, hcode, -⟩ := Emission.outcome_bind_eq_ok_iff.mp h
    exact isWritten_of_outcome hcode

theorem isWritten_of_renderMembers {members : List Shape} {path : Path} {depth index : Nat}
    {codes : List String} (h : (renderMembers d i members path depth index).outcome = .ok codes) :
    ∀ member ∈ members, IsWritten d i member := by
  induction members generalizing index codes with
  | nil => exact nofun
  | cons member rest ih =>
    rw [renderMembers] at h
    obtain ⟨code, hcode, h⟩ := Emission.outcome_bind_eq_ok_iff.mp h
    obtain ⟨others, hothers, -⟩ := Emission.outcome_bind_eq_ok_iff.mp h
    exact List.forall_mem_cons.mpr ⟨isWritten_of_outcome hcode, ih hothers⟩

theorem isWritten_of_renderLines {properties : Fields Shape} {path : Path} {depth : Nat}
    {lines : List String} (h : (renderLines d i properties path depth).outcome = .ok lines) :
    ∀ property ∈ properties, IsWritten d i property.2 := by
  induction properties generalizing lines with
  | nil => exact nofun
  | cons property rest ih =>
    rw [renderLines_cons] at h
    obtain ⟨line, hline, h⟩ := Emission.outcome_bind_eq_ok_iff.mp h
    obtain ⟨others, hothers, -⟩ := Emission.outcome_bind_eq_ok_iff.mp h
    exact List.forall_mem_cons.mpr ⟨isWritten_of_renderLine hline, ih hothers⟩

/-- The members of an enumeration are literals that have been written one after another. -/
theorem isWritten_of_literals {values : List Json} {texts : List String}
    (h : values.mapM Script.literal = .ok texts) :
    ∀ value ∈ values, IsWritten d i (.literal value) := by
  have hliterals := Script.forall₂_of_mapM_literal h
  clear h
  induction hliterals with
  | nil => exact nofun
  | cons hfirst _ ih =>
    refine List.forall_mem_cons.mpr ⟨fun path depth => ?_, ih⟩
    rw [render, hfirst]
    exact ⟨_, rfl⟩

/-- The parts of what is written are written. -/
theorem isWritten_of_mem_parts {shape : Shape} (h : IsWritten d i shape) :
    ∀ child ∈ shape.parts, IsWritten d i child.2 := by
  cases shape with
  | object properties =>
    obtain ⟨code, hcode⟩ := h .root 0
    rw [render] at hcode
    obtain ⟨lines, hlines, -⟩ := Emission.outcome_bind_eq_ok_iff.mp hcode
    exact List.forall_mem_map.mpr (isWritten_of_renderLines hlines)
  | array items =>
    obtain ⟨code, hcode⟩ := h .root 0
    rw [render] at hcode
    obtain ⟨item, hitem, -⟩ := Emission.outcome_bind_eq_ok_iff.mp hcode
    exact List.forall_mem_singleton.mpr (isWritten_of_outcome hitem)
  | union members =>
    obtain ⟨code, hcode⟩ := h .root 0
    rw [render] at hcode
    refine List.forall_mem_map.mpr ?_
    cases henum : Shape.enumeration? members with
    | some enumeration =>
      rw [henum] at hcode
      obtain ⟨texts, htexts, -⟩ := Emission.outcome_bind_eq_ok_iff.mp hcode
      rw [Shape.eq_map_of_enumeration? henum]
      exact List.forall_mem_map.mpr
        (isWritten_of_literals (Emission.outcome_orRefuse_eq_ok_iff.mp htexts))
    | none =>
      rw [henum] at hcode
      obtain ⟨codes, hcodes, -⟩ := Emission.outcome_bind_eq_ok_iff.mp hcode
      exact isWritten_of_renderMembers hcodes
  | optional inner default hasDefault =>
    obtain ⟨code, hcode⟩ := h .root 0
    exact List.forall_mem_singleton.mpr (isWritten_of_outcome hcode)
  | _ => exact nofun

/-- **The parts of what is written are written**, at every depth of it. -/
theorem isWritten_of_occurs {place top : Shape.Place} {part shape : Shape}
    (hpart : Occurs place part top shape) (h : IsWritten d i shape) : IsWritten d i part := by
  induction hpart with
  | here => exact h
  | within hchild _ ih => exact ih (isWritten_of_mem_parts h _ hchild)

/-- Every part of a tree that is written, unless it is an optional value, is written by itself,
wherever it is taken to stand. -/
theorem outcome_of_occurs {shape : Shape} {code : String}
    (h : (renderShape d i shape).outcome = .ok code) {place : Shape.Place} {part : Shape}
    (hpart : Occurs place part .root shape) (hplain : ¬ part.IsOptional) (path : Path) (depth : Nat) :
    ∃ code, (render d i part path depth).outcome = .ok code :=
  (isWritten_iff hplain).mp (isWritten_of_occurs hpart (isWritten_of_outcome h)) path depth

end Expression

end SchemaForge
