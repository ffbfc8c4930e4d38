import Mathlib.Algebra.GroupWithZero.Nat
import SchemaForge.Proofs.Expression.Layout
import SchemaForge.Proofs.Shape.Walk

/-!
# `SchemaForge.Proofs.Expression.Indentation` — expressions as indented lines

An expression consists of lines, each of which is indented some number of times. The lines are the
same for every unit of indentation, and no line terminator stands in them; so their number can be
told from the shape, whatever names, literals, defaults and patterns there are in it.

## Contents
- **Breaks.** `Shape.breaks` for one shape, `breaksAlong` for the parts that a walk comes by.
- **Shapes.** `renderUniform_and_lineUniform` by induction on the shape; `uniform_renderShape` and
  `uniform_renderRoot`.
- **Lines.** `exists_lines_of_rendered`.
-/

namespace SchemaForge

/-! ## Breaks -/

/-- The line breaks that a shape adds to those of its parts: one for each property of an object and
one in front of the brace that closes it, unless the object is empty. -/
def Shape.breaks : Shape → Nat
  | .object [] => 0
  | .object properties => properties.length + 1
  | _ => 0

namespace Expression

open Emission (Uniform gives_orRefuse uniform_of_gives uniform_pure uniform_refuse)
open Script (isTerminator)
open Shape (Everywhere walk walkMembers walkProperties)

variable {d : Dialect} {raw : Char → Prop} {n : Nat}

/-- The line breaks of some parts, taken together. -/
def breaksAlong (nodes : List (Path × Shape)) : Nat := (nodes.map fun node => node.2.breaks).sum

theorem breaksAlong_append (nodes others : List (Path × Shape)) :
    breaksAlong (nodes ++ others) = breaksAlong nodes + breaksAlong others := by
  rw [breaksAlong, List.map_append, List.sum_append]
  rfl

/-- A shape that adds none. -/
theorem breaksAlong_snoc {nodes : List (Path × Shape)} {node : Path × Shape}
    (hnode : node.2.breaks = 0) : breaksAlong (nodes ++ [node]) = breaksAlong nodes := by
  simp [breaksAlong, hnode]

/-- Where all parts are literals, there are none. -/
theorem breaksAlong_walkMembers_literals (values : List Json) (path : Path) (index : Nat) :
    breaksAlong (walkMembers (values.map .literal) path index) = 0 := by
  refine List.sum_eq_zero_iff_forall_eq_nat.mpr (List.forall_mem_map.mpr ?_)
  rintro ⟨here, part⟩ hnode
  obtain ⟨value, rfl⟩ := Shape.eq_literal_of_mem_walkMembers hnode
  rfl

/-! ## Shapes -/

/-- Whether the expression of a shape is laid out, with the line breaks of its parts. -/
def RenderUniform (d : Dialect) (raw : Char → Prop) (shape : Shape) : Prop :=
  ∀ path depth, Uniform (Written d raw (breaksAlong (walk shape path)))
    fun unit => render d (.unit unit) shape path depth

/-- Whether the line of a property with the shape as its value is. -/
def LineUniform (d : Dialect) (raw : Char → Prop) (shape : Shape) : Prop :=
  ∀ name path depth, Uniform (LaidOut.AsLine raw (breaksAlong (walk shape (path.child name)) + 1))
    fun unit => renderLine d (.unit unit) name shape path depth

theorem uniform_renderMembers {members : List Shape}
    (h : ∀ member ∈ members, RenderUniform d raw member) (path : Path) (depth index : Nat) :
    Uniform (Pieces (Written d raw) (breaksAlong (walkMembers members path index)))
      fun unit => renderMembers d (.unit unit) members path depth index := by
  induction members generalizing index with
  | nil => exact uniform_pure .nil
  | cons member rest ih =>
    obtain ⟨hfirst, hrest⟩ := List.forall_mem_cons.mp h
    simp only [renderMembers, walkMembers, breaksAlong_append]
    refine (hfirst _ depth).bind fun code hcode => ?_
    exact (ih hrest (index + 1)).bind_pure fun codes hcodes => .cons hcode hcodes

theorem uniform_renderLines {properties : Fields Shape}
    (h : ∀ property ∈ properties, LineUniform d raw property.2) (path : Path) (depth : Nat) :
    Uniform (Pieces (LaidOut.AsLine raw)
        (breaksAlong (walkProperties properties path) + properties.length))
      fun unit => renderLines d (.unit unit) properties path depth := by
  induction properties with
  | nil => exact uniform_pure .nil
  | cons property rest ih =>
    obtain ⟨hfirst, hrest⟩ := List.forall_mem_cons.mp h
    have hcount : breaksAlong (walkProperties (property :: rest) path) + (property :: rest).length
        = (breaksAlong (walk property.2 (path.child property.1)) + 1)
          + (breaksAlong (walkProperties rest path) + rest.length) := by
      rw [walkProperties, breaksAlong_append, List.length_cons]
      omega
    obtain ⟨name, shape⟩ := property
    simp only [renderLines_cons, hcount]
    refine (hfirst name path depth).bind fun line hline => ?_
    exact (ih hrest).bind_pure fun lines hlines => .cons hline hlines

/-- The map of an object has the line breaks that the object adds. -/
theorem uniform_renderMap {properties : Fields Shape}
    (h : ∀ property ∈ properties, LineUniform d raw property.2) (path : Path) (depth : Nat) :
    Uniform (LaidOut raw (breaksAlong (walk (.object properties) path)))
      fun unit => renderMap d (.unit unit) properties path depth := by
  cases properties with
  | nil => exact uniform_pure (.plain (by decide))
  | cons property rest =>
    have hcount : breaksAlong (walk (.object (property :: rest)) path)
        = breaksAlong (walkProperties (property :: rest) path) + (property :: rest).length + 1 := by
      rw [walk, breaksAlong_append]
      rfl
    rw [hcount]
    refine (uniform_renderLines h path depth).bind fun lines hlines => ?_
    exact uniform_layout depth hlines (hlines.ne_nil (by simp))

theorem lineUniform_of_renderUniform {shape : Shape} (hshape : ¬ shape.IsOptional)
    (h : RenderUniform d raw shape) : LineUniform d raw shape := by
  intro name path depth
  simp only [renderLine_of_not_isOptional hshape]
  refine (h (path.child name) (depth + 1)).bind fun code hcode => ?_
  exact uniform_line (depth + 1) ⟨⟨name, fun _ => rfl⟩, hcode.1⟩

theorem lineUniform_optional {inner : Shape} (default : Default) (hasDefault : Json)
    (h : RenderUniform d raw inner) : LineUniform d raw (.optional inner default hasDefault) := by
  intro name path depth
  by_cases hinner : inner.IsOptional
  · cases inner with
    | optional => exact uniform_refuse d .nestedOptional (path.child name)
    | _ => exact hinner.elim
  · rw [walk, breaksAlong_snoc rfl]
    simp only [renderLine_optional hinner]
    refine (h (path.child name) (depth + 1)).bind fun code hcode => ?_
    exact (uniform_optionalEntry d hcode.1 name _ (path.child name)).bind fun entry hentry =>
      uniform_line (depth + 1) hentry

/-- **Expressions and lines are laid out**, with the line breaks of the parts of the shape. -/
theorem renderUniform_and_lineUniform {shape : Shape} {top : Shape.Place}
    (hfits : Everywhere (fun _ => Shape.Fits d raw) top shape) :
    RenderUniform d raw shape ∧ LineUniform d raw shape := by
  refine Everywhere.induct_properties ?string ?number ?boolean ?literal ?object ?array ?union
    ?optional ?foreign ?plainProperty ?optionalProperty hfits
  case string =>
    exact fun minLength maxLength pattern h path _ => uniform_of_gives (gives_textType h path)
  case number =>
    exact fun minimum maximum h path _ => uniform_of_gives (gives_numberType h.1 path)
  case boolean => exact fun path _ => uniform_pure (written_booleanType d)
  case literal =>
    intro value path _
    refine uniform_of_gives ((gives_orRefuse fun text hok => isPlainText_literal hok).bind_pure ?_)
    exact fun text htext => written_literalType htext
  case object =>
    intro properties hlines path depth
    simp only [render, ← bind_assoc]
    exact (uniform_renderMap hlines path depth).bind_pure fun map hmap => written_objectType d hmap
  case array =>
    intro items hitems path depth
    rw [walk, breaksAlong_snoc rfl]
    exact (hitems _ depth).bind_pure fun code hcode => written_listType d items.isUnion hcode
  case union =>
    intro members hmembers path depth
    rw [walk, breaksAlong_snoc rfl]
    simp only [render]
    cases henum : Shape.enumeration? members with
    | some enumeration =>
      rw [Shape.eq_map_of_enumeration? henum, breaksAlong_walkMembers_literals]
      refine uniform_of_gives ((gives_orRefuse fun texts hok => isPlainText_literals hok).bind_pure ?_)
      exact fun texts htexts => written_enumerationType d enumeration.1 htexts
    | none =>
      exact (uniform_renderMembers hmembers path depth 0).bind_pure fun codes hcodes =>
        written_unionType d hcodes
  case optional =>
    exact fun inner default hasDefault path _ => uniform_refuse d .strayOptional path
  case foreign => exact fun value path _ => uniform_refuse d (.node value.kindName) path
  case plainProperty => exact fun shape => lineUniform_of_renderUniform
  case optionalProperty => exact fun inner => lineUniform_optional

theorem uniform_renderShape {shape : Shape}
    (hfits : Everywhere (fun _ => Shape.Fits d raw) .root shape) :
    Uniform (LaidOut raw (breaksAlong (walk shape .root)))
      fun unit => renderShape d (.unit unit) shape := by
  intro unit code hcode
  obtain ⟨f, hf, hall⟩ := (renderUniform_and_lineUniform hfits).1 .root 0 unit code hcode
  exact ⟨f, hf.1, hall⟩

/-- The root of a module is laid out as the shape by itself is. -/
theorem uniform_renderRoot {properties : Fields Shape}
    (hfits : Everywhere (fun _ => Shape.Fits d raw) .root (.object properties)) :
    Uniform (LaidOut raw (breaksAlong (walk (.object properties) .root)))
      fun unit => renderRoot d (.unit unit) properties := by
  cases d with
  | arkType =>
    have hproperties := (Shape.everywhere_object.mp hfits).2
    exact uniform_renderMap (fun property hproperty =>
      (renderUniform_and_lineUniform (hproperties property hproperty)).2) .root 0
  | _ => exact uniform_renderShape hfits

/-! ## Lines -/

/-- What is laid out is lines, for every unit of indentation. -/
theorem exists_lines_of_uniform {emission : String → Emission String}
    (h : Uniform (LaidOut raw n) emission) {unit code : String}
    (hcode : (emission unit).outcome = .ok code) :
    ∃ lines : List Line, Line.Consist raw lines ∧ lines.length = n + 1 ∧
      ∀ unit, (emission unit).outcome = .ok (Line.printAll unit lines) := by
  obtain ⟨f, hf, hall⟩ := h unit code hcode
  obtain ⟨lines, hlength, hconsist, hprint⟩ := hf.exists_lines
  exact ⟨lines, hconsist, hlength, fun unit => by rw [hall, hprint]⟩

/-- With numbers for bounds, all that code is made of beyond plain characters are characters of
patterns that end no line. -/
theorem fits_of_numericBounds (d : Dialect) {shape : Shape}
    (hbounds : Everywhere (fun _ => Shape.NumericBounds) .root shape) :
    Everywhere (fun _ => Shape.Fits d fun c => isTerminator c = false) .root shape := by
  intro place part hpart
  refine ⟨hbounds place part hpart, fun _ => ?_⟩
  cases part with
  | string minLength maxLength pattern =>
    cases pattern with
    | str pattern => exact fun _ _ hline => hline
    | _ => trivial
  | _ => trivial

theorem isTerminator_of_consist {lines : List Line}
    (h : Line.Consist (fun c => isTerminator c = false) lines) :
    ∀ line ∈ lines, ∀ c ∈ line.text.toList, isTerminator c = false :=
  fun line hline c hc => (h line hline c hc).elim Script.isTerminator_of_isPlain id

/-- **Layout does not depend on data.** A shape whose bounds are numbers has lines in each dialect
that writes it for some unit of indentation: no line has a line terminator in it, there is one line
and one more for each line break of a part, and for every unit the expression is these lines, each
indented as deep as it says. The same goes for the root of a module. -/
theorem exists_lines_of_rendered (d : Dialect) {shape : Shape}
    (hbounds : Everywhere (fun _ => Shape.NumericBounds) .root shape) :
    (∀ unit code, (renderShape d (.unit unit) shape).outcome = .ok code →
      ∃ lines : List Line, (∀ line ∈ lines, ∀ c ∈ line.text.toList, isTerminator c = false) ∧
        lines.length = breaksAlong (walk shape .root) + 1 ∧
        ∀ unit, (renderShape d (.unit unit) shape).outcome = .ok (Line.printAll unit lines)) ∧
    ∀ properties, shape = .object properties →
      ∀ unit code, (renderRoot d (.unit unit) properties).outcome = .ok code →
        ∃ lines : List Line, (∀ line ∈ lines, ∀ c ∈ line.text.toList, isTerminator c = false) ∧
          lines.length = breaksAlong (walk shape .root) + 1 ∧
          ∀ unit, (renderRoot d (.unit unit) properties).outcome
            = .ok (Line.printAll unit lines) := by
  have hfits := fits_of_numericBounds d hbounds
  constructor
  · intro unit code hcode
    obtain ⟨lines, hconsist, hlines⟩ := exists_lines_of_uniform (uniform_renderShape hfits) hcode
    exact ⟨lines, isTerminator_of_consist hconsist, hlines⟩
  · rintro properties rfl unit code hcode
    obtain ⟨lines, hconsist, hlines⟩ := exists_lines_of_uniform (uniform_renderRoot hfits) hcode
    exact ⟨lines, isTerminator_of_consist hconsist, hlines⟩

/-- Line terminators in names, in a pattern, in a literal and in the unit of indentation. The outer
object adds three line breaks to the one line, the inner one two. -/
theorem exists_lines_of_terminators :
    let properties : Fields Shape := [("\u2028", .array (.union [.object
        [("\n", .string .null .null (.str "\r\n"))], .literal (.str "\u2029\n")])),
      ("b", .optional .boolean .null .null)]
    Everywhere (fun _ => Shape.NumericBounds) .root (.object properties) ∧
      (∃ code, (renderRoot .arkType (.unit "\n") properties).outcome = .ok code) ∧
      ∃ lines : List Line, (∀ line ∈ lines, ∀ c ∈ line.text.toList, isTerminator c = false) ∧
        lines.length = 6 ∧
        ∀ unit, (renderRoot .arkType (.unit unit) properties).outcome
          = .ok (Line.printAll unit lines) := by
  intro properties
  have hbounds : Everywhere (fun _ => Shape.NumericBounds) .root (.object properties) := by
    simp [properties, Shape.NumericBounds, Json.IsNullOrNumber]
  exact ⟨hbounds, ⟨_, rfl⟩, (exists_lines_of_rendered .arkType hbounds).2 properties rfl "\n" _ rfl⟩

end Expression

end SchemaForge
