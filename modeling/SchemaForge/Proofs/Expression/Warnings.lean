import SchemaForge.Expression.Render
import SchemaForge.Proofs.Shape.Walk

/-!
# `SchemaForge.Proofs.Expression.Warnings` — nothing is left out in silence

ArkType has no upper bounds on numbers and no defaults. It leaves them out with a warning, and what
it warns about can be told from the shape: it goes through the parts in the order of `Shape.walk`
and gives one warning for each bound and each default that it meets. The other dialects write all
there is, and give none. Of a union that enumerates only the literals are written, not the members;
but literals have nothing that is left out.

## Contents
- **Losses.** `losses` of a part with their messages, and `lossesAlong` a walk.
- **Emissions.** `Emission.Warns` says what is warned about when something comes out, with a rule
  for each way to sequence emissions.
- **Scalars and properties.** `warns_numberType`, `warns_textType`, `warns_optionalEntry`.
- **Shapes.** `warns_render_and_renderLine` by induction on the shape, and the result,
  `warnings_of_rendered`.
-/

namespace SchemaForge

/-! ## Losses -/

namespace Expression

/-- **What ArkType leaves out of a part of a shape**, at the path of the part. -/
def losses : Path × Shape → List Warning
  | (path, .number _ maximum) => if maximum.isNull then [] else [.droppedMaximum maximum path]
  | (path, .optional _ default hasDefault) =>
    if hasDefault.isVacant then [] else [.droppedDefault default path]
  | _ => []

/-- The messages about what is left out of a part. -/
def lossMessages : Path × Shape → List String
  | (path, .number _ maximum) =>
    if maximum.isNull then []
    else ["ArkType: dropping maximum " ++ maximum.display ++ " at " ++ path.text]
  | (path, .optional _ default hasDefault) =>
    if hasDefault.isVacant then []
    else ["ArkType: dropping default " ++ default.inspect ++ " at " ++ path.text]
  | _ => []

theorem map_text_losses (node : Path × Shape) :
    (losses node).map Warning.text = lossMessages node := by
  obtain ⟨path, shape⟩ := node
  cases shape with
  | number minimum maximum =>
    by_cases h : maximum.isNull
    · simp [losses, lossMessages, h]
    · simp [losses, lossMessages, h, Warning.text, Dialect.label, String.append_assoc]
  | optional inner default hasDefault =>
    by_cases h : hasDefault.isVacant
    · simp [losses, lossMessages, h]
    · simp [losses, lossMessages, h, Warning.text, Dialect.label, String.append_assoc]
  | _ => rfl

/-- What a dialect leaves out of a part. -/
def lossesIn (d : Dialect) (node : Path × Shape) : List Warning :=
  if d = .arkType then losses node else []

theorem lossesIn_arkType : lossesIn .arkType = losses := rfl

theorem lossesIn_of_ne {d : Dialect} (hd : d ≠ .arkType) (node : Path × Shape) :
    lossesIn d node = [] := if_neg hd

/-- What a dialect leaves out of some parts, one after another. -/
def lossesAlong (d : Dialect) (nodes : List (Path × Shape)) : List Warning :=
  nodes.flatMap (lossesIn d)

end Expression

/-! ## Emissions -/

namespace Emission

variable {α β : Type} {expected others : List Warning}

/-- Whether an emission from which something comes out has warned about just that. -/
def Warns (expected : List Warning) (emission : Emission α) : Prop :=
  ∀ a, emission.outcome = .ok a → emission.warnings = expected

theorem warns_pure (a : α) : Warns [] (pure a : Emission α) := fun _ _ => rfl

theorem warns_fail (e : RenderError) : Warns expected (fail e : Emission α) := nofun

theorem warns_orRefuse (d : Dialect) (path : Path) (result : Except Construct α) :
    Warns [] (orRefuse d path result) := by
  cases result with
  | ok a => exact warns_pure a
  | error construct => exact warns_fail _

/-- The warnings about a sequence are those about its parts, in their order. -/
theorem Warns.bind {first : Emission α} (h : Warns expected first) {next : α → Emission β}
    (hnext : ∀ a, Warns others (next a)) : Warns (expected ++ others) (first >>= next) := by
  intro b hb
  obtain ⟨a, ha, hb⟩ := outcome_bind_eq_ok_iff.mp hb
  rw [warnings_bind_of_ok ha, h a ha, hnext a b hb]

/-- What is made of something written adds no warnings. -/
theorem Warns.bind_pure {first : Emission α} (h : Warns expected first) (f : α → β) :
    Warns expected (first >>= fun a => pure (f a)) := by
  have hbind := h.bind fun a => warns_pure (f a)
  rwa [List.append_nil] at hbind

end Emission

namespace Expression

open Emission (Warns warns_pure warns_fail warns_orRefuse)
open Shape (walk walkMembers walkProperties)

variable {d : Dialect} {i : Indentation}

theorem lossesAlong_append (nodes others : List (Path × Shape)) :
    lossesAlong d (nodes ++ others) = lossesAlong d nodes ++ lossesAlong d others :=
  List.flatMap_append

/-! ## Scalars and properties -/

theorem warns_boundDemand (demand : Demand) (bound : Json) (path : Path) :
    Warns [] (boundDemand d demand bound path) := by
  unfold boundDemand
  split
  · exact warns_pure []
  · exact (warns_orRefuse d path _).bind_pure _

theorem warns_numberDemands (minimum maximum : Json) (path : Path) :
    Warns [] (numberDemands d minimum maximum path) :=
  (warns_boundDemand .minimum minimum path).bind fun _ =>
    (warns_boundDemand .maximum maximum path).bind_pure _

/-- ArkType warns about the upper bound before it looks at the lower one. -/
theorem warns_arkTypeNumber (minimum maximum : Json) (path : Path) :
    Warns (losses (path, .number minimum maximum)) (arkTypeNumber minimum maximum path) := by
  have hlower : Warns []
      (if minimum.isNull then pure (Script.doubleQuoted "number") else do
        let bound ← .orRefuse .arkType path (Script.number minimum)
        return Script.doubleQuoted ("number >= " ++ bound) : Emission String) := by
    split
    · exact warns_pure _
    · exact (warns_orRefuse .arkType path _).bind_pure _
  rw [losses, arkTypeNumber]
  dsimp only
  cases maximum.isNull with
  | true => exact hlower
  | false =>
    have hwarn : Warns [.droppedMaximum maximum path]
        (Emission.warn (.droppedMaximum maximum path)) := fun _ _ => rfl
    exact hwarn.bind fun _ => hlower

theorem warns_numberType (minimum maximum : Json) (path : Path) :
    Warns (lossesIn d (path, .number minimum maximum)) (numberType d minimum maximum path) := by
  cases d with
  | arkType => exact warns_arkTypeNumber minimum maximum path
  | _ => exact (warns_numberDemands minimum maximum path).bind_pure _

theorem warns_patternLiteral (pattern : Json) : Warns [] (patternLiteral pattern) := by
  cases pattern with
  | str pattern => exact warns_pure _
  | _ => exact warns_fail _

theorem warns_textDemands (minLength maxLength pattern : Json) :
    Warns [] (textDemands d minLength maxLength pattern) := by
  unfold textDemands
  split
  · exact warns_pure _
  · dsimp only
    split
    · exact (warns_pure pattern.write).bind_pure _
    · exact (warns_patternLiteral pattern).bind_pure _

theorem warns_textType (minLength maxLength pattern : Json) (path : Path) :
    Warns [] (textType d minLength maxLength pattern path) := by
  cases d with
  | arkType =>
    show Warns [] (arkTypeText minLength maxLength pattern path)
    unfold arkTypeText
    split
    · exact warns_pure _
    · split
      · exact warns_patternLiteral pattern
      · exact warns_fail _
  | _ => exact (warns_textDemands minLength maxLength pattern).bind_pure _

/-- An optional property warns about its default, where that is left out. -/
theorem warns_optionalEntry (name code : String) (inner : Shape) (default : Default)
    (hasDefault : Json) (path : Path) :
    Warns (lossesIn d (path, .optional inner default hasDefault))
      (optionalEntry d name code (if hasDefault.isVacant then none else some default) path) := by
  rw [lossesIn, losses]
  cases hasDefault.isVacant with
  | true => cases d <;> exact warns_pure _
  | false =>
    cases d with
    | arkType => exact fun _ _ => rfl
    | _ => exact warns_pure _

theorem warns_line (depth : Nat) (entry : Entry) : Warns [] (line i depth entry) := by
  unfold line
  split
  · exact warns_pure _
  · exact warns_fail _

theorem warns_layout (depth : Nat) (lines : List String) : Warns [] (layout i depth lines) := by
  unfold layout
  split
  · exact warns_pure _
  · split
    · exact warns_pure _
    · exact warns_fail _

/-! ## Shapes -/

/-- Whether the expression of a shape warns about what is left out of its parts. -/
def RenderWarns (d : Dialect) (i : Indentation) (shape : Shape) : Prop :=
  ∀ path depth, Warns (lossesAlong d (walk shape path)) (render d i shape path depth)

/-- Whether the line of a property with the shape as its value does. -/
def LineWarns (d : Dialect) (i : Indentation) (shape : Shape) : Prop :=
  ∀ name path depth,
    Warns (lossesAlong d (walk shape (path.child name))) (renderLine d i name shape path depth)

theorem warns_renderMembers {members : List Shape} (h : ∀ member ∈ members, RenderWarns d i member)
    (path : Path) (depth index : Nat) :
    Warns (lossesAlong d (walkMembers members path index))
      (renderMembers d i members path depth index) := by
  induction members generalizing index with
  | nil => exact warns_pure []
  | cons member rest ih =>
    obtain ⟨hfirst, hrest⟩ := List.forall_mem_cons.mp h
    rw [renderMembers, walkMembers, lossesAlong_append]
    exact (hfirst _ depth).bind fun _ => (ih hrest (index + 1)).bind_pure _

theorem warns_renderMap {properties : Fields Shape}
    (h : ∀ property ∈ properties, LineWarns d i property.2) (path : Path) (depth : Nat) :
    Warns (lossesAlong d (walkProperties properties path)) (renderMap d i properties path depth) := by
  have hlines : Warns (lossesAlong d (walkProperties properties path))
      (renderLines d i properties path depth) := by
    induction properties with
    | nil => exact warns_pure []
    | cons property rest ih =>
      obtain ⟨hfirst, hrest⟩ := List.forall_mem_cons.mp h
      rw [renderLines_cons, walkProperties, lossesAlong_append]
      exact (hfirst _ path depth).bind fun _ => (ih hrest).bind_pure _
  have hmap := hlines.bind fun lines => warns_layout (i := i) depth lines
  rwa [List.append_nil] at hmap

/-- Where all parts are literals, nothing is left out. -/
theorem lossesAlong_walkMembers_literals (values : List Json) (path : Path) (index : Nat) :
    lossesAlong d (walkMembers (values.map .literal) path index) = [] := by
  rw [lossesAlong, List.flatMap_eq_nil_iff]
  rintro ⟨here, part⟩ hnode
  obtain ⟨value, rfl⟩ := Shape.eq_literal_of_mem_walkMembers hnode
  cases d <;> rfl

theorem lineWarns_of_renderWarns {shape : Shape} (hshape : ¬ shape.IsOptional)
    (h : RenderWarns d i shape) : LineWarns d i shape := by
  intro name path depth
  rw [renderLine_of_not_isOptional hshape]
  have hline := (h (path.child name) (depth + 1)).bind fun code =>
    warns_line (i := i) (depth + 1) { key := name, code }
  rwa [List.append_nil] at hline

theorem lineWarns_optional {inner : Shape} (default : Default) (hasDefault : Json)
    (h : RenderWarns d i inner) : LineWarns d i (.optional inner default hasDefault) := by
  intro name path depth
  by_cases hinner : inner.IsOptional
  · cases inner with
    | optional => exact warns_fail _
    | _ => exact hinner.elim
  · rw [renderLine_optional hinner, walk, lossesAlong_append]
    refine (h (path.child name) (depth + 1)).bind fun code => ?_
    have hentry := warns_optionalEntry (d := d) name code inner default hasDefault
      (path.child name)
    exact hentry.bind fun entry => warns_line (i := i) (depth + 1) entry

/-- What is left out of a shape is left out of its parts, or else of the shape itself. -/
theorem lossesAlong_snoc (nodes : List (Path × Shape)) {node : Path × Shape}
    (hnode : losses node = []) : lossesAlong d (nodes ++ [node]) = lossesAlong d nodes := by
  have hnone : lossesIn d node = [] := by
    unfold lossesIn
    split
    · exact hnode
    · rfl
  simp [lossesAlong, hnone]

/-- **What is written of a shape warns about what is left out of its parts**, and so does the line of
a property that has it as its value. -/
theorem warns_render_and_renderLine (d : Dialect) (i : Indentation) (shape : Shape) :
    RenderWarns d i shape ∧ LineWarns d i shape := by
  have hall : Shape.Everywhere (fun _ _ => True) .root shape := fun _ _ _ => trivial
  refine Shape.Everywhere.induct_properties ?string ?number ?boolean ?literal ?object ?array ?union
    ?optional ?foreign ?plainProperty ?optionalProperty hall
  case string =>
    intro minLength maxLength pattern _ path _
    have hnone : lossesAlong d (walk (.string minLength maxLength pattern) path) = [] :=
      lossesAlong_snoc [] rfl
    rw [hnone]
    exact warns_textType minLength maxLength pattern path
  case number =>
    intro minimum maximum _ path _
    rw [walk, lossesAlong, List.flatMap_singleton]
    exact warns_numberType minimum maximum path
  case boolean =>
    intro path _
    have hnone : lossesAlong d (walk .boolean path) = [] := lossesAlong_snoc [] rfl
    rw [hnone]
    exact warns_pure _
  case literal =>
    intro value path _
    have hnone : lossesAlong d (walk (.literal value) path) = [] :=
      lossesAlong_snoc [] rfl
    rw [hnone]
    exact (warns_orRefuse d path _).bind_pure _
  case object =>
    intro properties hlines path depth
    rw [walk, lossesAlong_snoc _ rfl, render, ← bind_assoc]
    exact (warns_renderMap hlines path depth).bind_pure _
  case array =>
    intro items hitems path depth
    rw [walk, lossesAlong_snoc _ rfl]
    exact (hitems _ depth).bind_pure _
  case union =>
    intro members hmembers path depth
    rw [walk, lossesAlong_snoc _ rfl, render]
    cases henum : Shape.enumeration? members with
    | some enumeration =>
      rw [Shape.eq_map_of_enumeration? henum, lossesAlong_walkMembers_literals]
      exact (warns_orRefuse d path _).bind_pure _
    | none => exact (warns_renderMembers hmembers path depth 0).bind_pure _
  case optional => exact fun inner default hasDefault _ _ => warns_fail _
  case foreign => exact fun value _ _ => warns_fail _
  case plainProperty => exact fun shape => lineWarns_of_renderWarns
  case optionalProperty => exact fun inner => lineWarns_optional

theorem warns_renderShape (d : Dialect) (i : Indentation) (shape : Shape) :
    Warns (lossesAlong d (walk shape .root)) (renderShape d i shape) :=
  (warns_render_and_renderLine d i shape).1 .root 0

/-- The root of a module warns about the same as the shape by itself. -/
theorem warns_renderRoot (d : Dialect) (i : Indentation) (properties : Fields Shape) :
    Warns (lossesAlong d (walk (.object properties) .root)) (renderRoot d i properties) := by
  cases d with
  | arkType =>
    rw [walk, lossesAlong_snoc _ rfl]
    exact warns_renderMap (fun property _ => (warns_render_and_renderLine .arkType i property.2).2)
      .root 0
  | _ => exact warns_renderShape _ i (.object properties)

theorem map_text_lossesAlong (nodes : List (Path × Shape)) :
    (lossesAlong .arkType nodes).map Warning.text = nodes.flatMap lossMessages := by
  rw [lossesAlong, lossesIn_arkType, List.map_flatMap]
  exact congrArg (nodes.flatMap ·) (funext map_text_losses)

theorem lossesAlong_of_ne (hd : d ≠ .arkType) (nodes : List (Path × Shape)) :
    lossesAlong d nodes = [] :=
  List.flatMap_eq_nil_iff.mpr fun node _ => lossesIn_of_ne hd node

/-- **Nothing is left out in silence.** When ArkType writes a shape, by itself or as the root of a
module, it gives one message for each upper bound on a number and one for each default, with the path
where it stands, in the order of the walk over the shape. The other dialects give no warnings. -/
theorem warnings_of_rendered (i : Indentation) (shape : Shape) :
    ((∀ code, (renderShape .arkType i shape).outcome = .ok code →
        (renderShape .arkType i shape).warnings.map Warning.text
          = (walk shape .root).flatMap lossMessages) ∧
      ∀ properties, shape = .object properties →
        ∀ code, (renderRoot .arkType i properties).outcome = .ok code →
          (renderRoot .arkType i properties).warnings.map Warning.text
            = (walk shape .root).flatMap lossMessages) ∧
    ∀ d, d ≠ .arkType →
      (∀ code, (renderShape d i shape).outcome = .ok code → (renderShape d i shape).warnings = []) ∧
      ∀ properties, shape = .object properties →
        ∀ code, (renderRoot d i properties).outcome = .ok code →
          (renderRoot d i properties).warnings = [] := by
  refine ⟨⟨?_, ?_⟩, fun d hd => ⟨?_, ?_⟩⟩
  · intro code hcode
    rw [warns_renderShape .arkType i shape code hcode, map_text_lossesAlong]
  · rintro properties rfl code hcode
    rw [warns_renderRoot .arkType i properties code hcode, map_text_lossesAlong]
  · intro code hcode
    rw [warns_renderShape d i shape code hcode, lossesAlong_of_ne hd]
  · rintro properties rfl code hcode
    rw [warns_renderRoot d i properties code hcode, lossesAlong_of_ne hd]

/-- A bound inside a union comes before the default of the property, and that before the next one. -/
theorem warnings_of_rendered_in_order :
    let shape : Shape := .object
      [("a", .optional (.union [.boolean, .number .null (.int 5)]) (.json (.arr [.int 1]))
          (.bool true)),
        ("b", .array (.number (.int 0) (.float (.infinity false))))]
    ∃ code, (renderShape .arkType (.unit "  ") shape).outcome = .ok code ∧
      (renderShape .arkType (.unit "  ") shape).warnings.map Warning.text
        = ["ArkType: dropping maximum 5 at #/a/anyOf/1", "ArkType: dropping default [1] at #/a",
          "ArkType: dropping maximum inf at #/b/items"] := by
  intro shape
  exact ⟨_, rfl, (warnings_of_rendered (.unit "  ") shape).1.1 _ rfl⟩

end Expression

end SchemaForge
