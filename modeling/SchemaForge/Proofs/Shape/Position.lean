import SchemaForge.Path
import SchemaForge.Proofs.Json.Writing
import SchemaForge.Proofs.Shape.Parts
import SchemaForge.Text.Segments

/-!
# `SchemaForge.Proofs.Shape.Position` — positions in a shape and the paths that lead to them

A position says at every level which part to go into, counted from the left. What an optional value
wraps stands where the optional value stands. Positions are compared as words are in a dictionary: a
shape comes before its parts, and what is in one part comes before what is in the next. That is the
order of a walk that goes into the depth first.

Messages name a position by a path, which is a text. Cut at its slashes, it names properties, `items`,
and `anyOf` with a number. Whether a word is one of these or the name of a property depends on what
stands at the position so far, so a path is followed along the shape.

## Contents
- **Positions.** `Stands`, and `exists_stands_iff`: what occurs in a shape has a position.
- **Paths.** `Leads` follows steps; `Addressable` names are those that no two properties share and that
  no slash is in, and then `Leads.unique`: steps lead to one position.
- **Texts.** `Path.cut` gives back the steps of a path that is shown (`cut_text`).
-/

namespace SchemaForge

namespace Shape

/-! ## Positions -/

/-- The numbers of the parts that lead down to a position. -/
abbrev Position := List Nat

/-- `Stands place part position top shape`: in a shape that stands at `top`, the part stands at the
position, and there it is what `place` says. -/
inductive Stands (place : Place) (part : Shape) : Position → Place → Shape → Prop where
  /-- A shape stands at its own position. -/
  | here : Stands place part [] place part
  /-- What an optional value wraps takes no step. -/
  | inner {position : Position} {top : Place} {inner : Shape} {default : Default}
    {hasDefault : Json} : Stands place part position .inner inner →
      Stands place part position top (.optional inner default hasDefault)
  /-- Every other part is one step away. -/
  | within {number : Nat} {position : Position} {top : Place} {shape : Shape}
    {child : Place × Shape} : ¬ shape.IsOptional → shape.parts[number]? = some child →
      Stands place part position child.1 child.2 → Stands place part (number :: position) top shape

/-- **The parts of a shape are what has a position in it.** -/
theorem exists_stands_iff {place top : Place} {part shape : Shape} :
    (∃ position, Stands place part position top shape) ↔ Occurs place part top shape := by
  constructor
  · rintro ⟨position, h⟩
    induction h with
    | here => exact .here
    | inner _ ih => exact .within (List.mem_singleton.mpr rfl) ih
    | within _ hchild _ ih => exact .within (List.mem_of_getElem? hchild) ih
  · intro h
    induction h with
    | here => exact ⟨[], .here⟩
    | @within top shape child hchild _ ih =>
      obtain ⟨position, hposition⟩ := ih
      by_cases hshape : shape.IsOptional
      · cases shape with
        | optional inner =>
          cases List.mem_singleton.mp hchild
          exact ⟨position, .inner hposition⟩
        | _ => exact hshape.elim
      · obtain ⟨number, hnumber⟩ := List.getElem?_of_mem hchild
        exact ⟨number :: position, .within hshape hnumber hposition⟩

/-! ## Paths -/

/-- What a path goes on with at the value of a property: what is optional is looked through once. -/
def seenThrough : Shape → Shape
  | .optional inner _ _ => inner
  | shape => shape

theorem seenThrough_eq {shape : Shape} (hshape : ¬ shape.IsOptional) : shape.seenThrough = shape := by
  cases shape with
  | optional => exact absurd trivial hshape
  | _ => rfl

/-- **Where the steps of a path lead** from the position of a shape. -/
inductive Leads : List String → Position → Shape → Prop where
  /-- Without a step they stay. -/
  | here {shape : Shape} : Leads [] [] shape
  /-- The name of a property leads to its value, through what makes it optional. -/
  | property {number : Nat} {name : String} {value : Shape} {properties : Fields Shape}
    {steps : List String} {position : Position} : properties[number]? = some (name, value) →
      Leads steps position value.seenThrough →
      Leads (name :: steps) (number :: position) (.object properties)
  /-- The items of a list are behind one word. -/
  | items {items : Shape} {steps : List String} {position : Position} :
    Leads steps position items → Leads ("items" :: steps) (0 :: position) (.array items)
  /-- The members of a union are behind another word and a number. -/
  | member {number : Nat} {member : Shape} {members : List Shape} {steps : List String}
    {position : Position} : members[number]? = some member → Leads steps position member →
      Leads ("anyOf" :: toString number :: steps) (number :: position) (.union members)

/-- Whether properties can be addressed by their names: none is there twice, which `objectOf` sees to,
and no name has a slash. -/
def Addressable : Shape → Prop
  | .object properties =>
    (Fields.names properties).Nodup ∧ ∀ name ∈ Fields.names properties, '/' ∉ name.toList
  | _ => True

theorem toList_toString (n : Nat) : (toString n).toList = Nat.toDigits 10 n := String.toList_ofList

/-- The digits of a number tell which number it is. -/
theorem toString_injective {m n : Nat} (h : toString m = toString n) : m = n := by
  apply Json.toDigits_injective
  rw [← toList_toString, ← toList_toString, h]

theorem slash_notMem_toString (n : Nat) : '/' ∉ (toString n).toList := by
  rw [toList_toString]
  intro hmem
  have hdigit := Nat.isDigit_of_mem_toDigits (by decide) (by decide) hmem
  exact absurd hdigit (by decide)

theorem everywhere_seenThrough {p : Shape → Prop} {top : Place} {shape : Shape}
    (h : Everywhere (fun _ => p) top shape) : Everywhere (fun _ => p) top shape.seenThrough := by
  cases shape with
  | optional => exact everywhere_congr_top top (everywhere_optional.mp h).2
  | _ => exact h

section

variable {steps : List String} {position other : Position} {top : Place} {shape : Shape}

/-- **Steps lead to one position.** -/
theorem Leads.unique (h : Leads steps position shape)
    (hnames : Everywhere (fun _ => Addressable) top shape) (hother : Leads steps other shape) :
    other = position := by
  induction h generalizing top other with
  | here =>
    cases hother
    rfl
  | @property number name value properties steps position hproperty _ ih =>
    cases hother with
    | @property number' _ value' _ _ position' hproperty' hother =>
      obtain ⟨⟨hdistinct, -⟩, hvalues⟩ := everywhere_object.mp hnames
      -- The name tells which property it is.
      have hname : (Fields.names properties)[number]? = some name := by
        rw [Fields.names, List.getElem?_map, hproperty, Option.map_some]
      have hname' : (Fields.names properties)[number']? = some name := by
        rw [Fields.names, List.getElem?_map, hproperty', Option.map_some]
      have hlt := (List.getElem?_eq_some_iff.mp hname).1
      cases (List.getElem?_inj hlt hdistinct).mp (hname.trans hname'.symm)
      cases hproperty.symm.trans hproperty'
      have hvalue := everywhere_seenThrough (hvalues (name, value) (List.mem_of_getElem? hproperty))
      rw [ih hvalue hother]
  | @items items steps position _ ih =>
    generalize hsteps : "items" :: steps = all at hother
    cases hother with
    | here => cases hsteps
    | items hother =>
      cases (List.cons.inj hsteps).2
      rw [ih (everywhere_array.mp hnames).2 hother]
  | @member number member members steps position hmember _ ih =>
    generalize hsteps : "anyOf" :: toString number :: steps = all at hother
    cases hother with
    | here => cases hsteps
    | @member number' member' _ _ _ hmember' hother =>
      obtain ⟨-, hsteps⟩ := List.cons.inj hsteps
      obtain ⟨hnumber, rfl⟩ := List.cons.inj hsteps
      cases toString_injective hnumber
      cases hmember.symm.trans hmember'
      rw [ih ((everywhere_union.mp hnames).2 member (List.mem_of_getElem? hmember)) hother]

/-- No step that leads anywhere has a slash. -/
theorem Leads.slash_notMem (h : Leads steps position shape)
    (hnames : Everywhere (fun _ => Addressable) top shape) : ∀ step ∈ steps, '/' ∉ step.toList := by
  induction h generalizing top with
  | here => exact nofun
  | @property number name value properties steps position hproperty _ ih =>
    obtain ⟨⟨-, hslash⟩, hvalues⟩ := everywhere_object.mp hnames
    have hmem := List.mem_of_getElem? hproperty
    have hvalue := everywhere_seenThrough (hvalues (name, value) hmem)
    exact List.forall_mem_cons.mpr ⟨hslash name (List.mem_map.mpr ⟨_, hmem, rfl⟩), ih hvalue⟩
  | items _ ih =>
    exact List.forall_mem_cons.mpr ⟨by decide, ih (everywhere_array.mp hnames).2⟩
  | @member number member members steps position hmember _ ih =>
    have hmembers := (everywhere_union.mp hnames).2 member (List.mem_of_getElem? hmember)
    exact List.forall_mem_cons.mpr ⟨by decide,
      List.forall_mem_cons.mpr ⟨slash_notMem_toString number, ih hmembers⟩⟩

end

end Shape

/-! ## Texts -/

namespace Text

theorem segments_of_notMem {separator : Char} {text : List Char} (h : separator ∉ text) :
    segments separator text = [text] := by
  induction text with
  | nil => rfl
  | cons c rest ih =>
    rw [List.mem_cons, not_or] at h
    rw [segments, if_neg (Ne.symm h.1), ih h.2]

/-- A separator ends the segment in front of it. -/
theorem segments_append {separator : Char} {front : List Char} (h : separator ∉ front)
    (rest : List Char) :
    segments separator (front ++ separator :: rest) =
      front :: segments separator rest := by
  induction front with
  | nil => rw [List.nil_append, segments, if_pos rfl]
  | cons c front ih =>
    rw [List.mem_cons, not_or] at h
    rw [List.cons_append, segments, if_neg (Ne.symm h.1), ih h.2]

end Text

namespace Path

/-- The steps of a path, from the text that shows it: what stands between slashes, after the root. -/
def cut (text : String) : List String :=
  ((Text.segments '/' text.toList).drop 1).map String.ofList

/-- The steps that are shown one after another. -/
theorem toList_foldl_steps (steps : List String) (shown : String) :
    (steps.foldl (fun shown step => shown ++ "/" ++ step) shown).toList =
      shown.toList ++ steps.flatMap fun step => '/' :: step.toList := by
  induction steps generalizing shown with
  | nil => simp
  | cons step rest ih =>
    rw [List.foldl_cons, ih, List.flatMap_cons]
    simp

theorem segments_steps {steps : List String} (h : ∀ step ∈ steps, '/' ∉ step.toList)
    {front : List Char} (hfront : '/' ∉ front) :
    Text.segments '/' (front ++ steps.flatMap fun step => '/' :: step.toList) =
      front :: steps.map String.toList := by
  induction steps generalizing front with
  | nil => rw [List.flatMap_nil, List.append_nil, Text.segments_of_notMem hfront, List.map_nil]
  | cons step rest ih =>
    obtain ⟨hstep, hrest⟩ := List.forall_mem_cons.mp h
    rw [List.flatMap_cons, List.cons_append, Text.segments_append hfront, ih hrest hstep, List.map_cons]

/-- **The steps of a path can be told from its text**, unless one of them has a slash. -/
theorem cut_text {path : Path} (h : ∀ step ∈ path.steps, '/' ∉ step.toList) :
    cut path.text = path.steps := by
  have htext : path.text.toList = ['#'] ++ path.steps.flatMap fun step => '/' :: step.toList :=
    toList_foldl_steps path.steps "#"
  rw [cut, htext, segments_steps h (by decide), List.drop_one, List.tail_cons, List.map_map]
  exact List.map_id'' (fun step => String.ofList_toList) _

end Path

end SchemaForge
