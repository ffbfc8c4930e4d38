import SchemaForge.Path
import SchemaForge.Proofs.Shape.Parts

/-!
# `SchemaForge.Proofs.Shape.Walk` — the parts of a shape in the order of writing

A shape is written from left to right, and it is done when its parts are. `walk` lists the parts in
this order, each with the path under which messages speak of it: the value of a property stands at
its name, items at `items`, the members of a union at `anyOf` and their number. An optional value
and the value that it wraps share the path of the property.

## Contents
- **Walks.** `walk`, and `walkMembers` and `walkProperties` as walks in a row.
- **Parts.** `exists_mem_walk_iff`: a walk comes by every part of a shape and by nothing else.
- **Literals.** `eq_literal_of_mem_walkMembers` for unions that enumerate.
-/

namespace SchemaForge.Shape

/-! ## Walks -/

mutual

/-- **The parts of a shape that stands at a path**, from left to right, and then the shape. -/
def walk : Shape → Path → List (Path × Shape)
  | .object properties, path => walkProperties properties path ++ [(path, .object properties)]
  | .array items, path => walk items (path.child "items") ++ [(path, .array items)]
  | .union members, path => walkMembers members path 0 ++ [(path, .union members)]
  | .optional inner default hasDefault, path =>
    walk inner path ++ [(path, .optional inner default hasDefault)]
  | .string minLength maxLength pattern, path => [(path, .string minLength maxLength pattern)]
  | .number minimum maximum, path => [(path, .number minimum maximum)]
  | .boolean, path => [(path, .boolean)]
  | .literal value, path => [(path, .literal value)]
  | .foreign value, path => [(path, .foreign value)]

/-- The parts of the members of a union, from the given number on. -/
def walkMembers : List Shape → Path → Nat → List (Path × Shape)
  | [], _, _ => []
  | member :: rest, path, index =>
    walk member (path.element "anyOf" index) ++ walkMembers rest path (index + 1)

/-- The parts of the properties of an object. -/
def walkProperties : List (String × Shape) → Path → List (Path × Shape)
  | [], _ => []
  | (name, shape) :: rest, path => walk shape (path.child name) ++ walkProperties rest path

end

example : walk (.object [("a", .optional (.array .boolean) .null .null)]) .root
    = [((Path.root.child "a").child "items", .boolean), (Path.root.child "a", .array .boolean),
      (Path.root.child "a", .optional (.array .boolean) .null .null),
      (Path.root, .object [("a", .optional (.array .boolean) .null .null)])] := rfl

/-! ## Parts -/

/-- A part of a shape is the shape or a part of one of its parts, whatever the place. -/
theorem exists_occurs_iff {part shape : Shape} (top : Place) :
    (∃ place, Occurs place part top shape) ↔
      part = shape ∨ ∃ child ∈ shape.parts, ∃ place, Occurs place part child.1 child.2 := by
  constructor
  · rintro ⟨place, h⟩
    rcases occurs_iff.mp h with ⟨-, rfl⟩ | ⟨child, hchild, h⟩
    · exact Or.inl rfl
    · exact Or.inr ⟨child, hchild, place, h⟩
  · rintro (rfl | ⟨child, hchild, place, h⟩)
    · exact ⟨top, .here⟩
    · exact ⟨place, .within hchild h⟩

section

variable {part : Shape} (within : Shape → Prop)

theorem exists_mem_walkMembers_iff {members : List Shape}
    (h : ∀ member ∈ members, ∀ path, (∃ here, (here, part) ∈ walk member path) ↔ within member)
    (path : Path) (index : Nat) :
    (∃ here, (here, part) ∈ walkMembers members path index) ↔
      ∃ member ∈ members, within member := by
  induction members generalizing index with
  | nil => simp [walkMembers]
  | cons member rest ih =>
    obtain ⟨hfirst, hrest⟩ := List.forall_mem_cons.mp h
    simp only [walkMembers, List.mem_append, exists_or, hfirst, ih hrest, List.mem_cons,
      exists_eq_or_imp]

theorem exists_mem_walkProperties_iff {properties : Fields Shape}
    (h : ∀ property ∈ properties, ∀ path,
      (∃ here, (here, part) ∈ walk property.2 path) ↔ within property.2) (path : Path) :
    (∃ here, (here, part) ∈ walkProperties properties path) ↔
      ∃ property ∈ properties, within property.2 := by
  induction properties with
  | nil => simp [walkProperties]
  | cons property rest ih =>
    obtain ⟨hfirst, hrest⟩ := List.forall_mem_cons.mp h
    simp only [walkProperties, List.mem_append, exists_or, hfirst, ih hrest, List.mem_cons,
      exists_eq_or_imp]

end

/-- **A walk comes by every part of a shape** at any depth, and by nothing else. -/
theorem exists_mem_walk_iff {part shape : Shape} (top : Place) (path : Path) :
    (∃ here, (here, part) ∈ walk shape path) ↔ ∃ place, Occurs place part top shape := by
  rw [exists_occurs_iff]
  induction shape generalizing top path with
  | object properties ih =>
    have hproperties := exists_mem_walkProperties_iff
      (fun shape => ∃ place, Occurs place part .property shape)
      (fun property hproperty path => (ih property hproperty .property path).trans
        (exists_occurs_iff .property).symm) path
    simp only [walk, List.mem_append, List.mem_singleton, exists_or, hproperties, parts,
      List.mem_map, exists_exists_and_eq_and]
    simp [or_comm]
  | array items ih =>
    have hitems := (ih .items (path.child "items")).trans (exists_occurs_iff .items).symm
    simp only [walk, List.mem_append, List.mem_singleton, exists_or, hitems, parts]
    simp [or_comm]
  | union members ih =>
    have hmembers := exists_mem_walkMembers_iff
      (fun shape => ∃ place, Occurs place part .member shape)
      (fun member hmember path => (ih member hmember .member path).trans
        (exists_occurs_iff .member).symm) path 0
    simp only [walk, List.mem_append, List.mem_singleton, exists_or, hmembers, parts,
      List.mem_map, exists_exists_and_eq_and]
    simp [or_comm]
  | optional inner default hasDefault ih =>
    have hinner := (ih .inner path).trans (exists_occurs_iff .inner).symm
    simp only [walk, List.mem_append, List.mem_singleton, exists_or, hinner, parts]
    simp [or_comm]
  | _ => simp [walk, parts]

/-! ## Literals -/

theorem eq_literal_of_mem_walkMembers {values : List Json} {path : Path} {index : Nat}
    {node : Path × Shape} (h : node ∈ walkMembers (values.map .literal) path index) :
    ∃ value, node.2 = .literal value := by
  induction values generalizing index with
  | nil => exact absurd h List.not_mem_nil
  | cons value rest ih =>
    rw [List.map_cons, walkMembers, walk, List.mem_append, List.mem_singleton] at h
    rcases h with rfl | h
    · exact ⟨value, rfl⟩
    · exact ih h

end SchemaForge.Shape
