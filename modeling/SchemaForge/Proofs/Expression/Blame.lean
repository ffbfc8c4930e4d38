import SchemaForge.Proofs.Expression.Acceptance
import SchemaForge.Proofs.Shape.Position

/-!
# `SchemaForge.Proofs.Expression.Blame` — a refusal points at the first offence

The path of a refusal leads to one position of the tree. What stands there is what was refused, and
there is no offence at any position before it. Only a union that enumerates is blamed as a whole for
one of its literals: these are written without paths of their own.

As in `SchemaForge.Proofs.Expression.Acceptance`, both outcomes are followed at once. What comes out
has no offence, and so whatever was written before a refusal had none.

## Contents
- **Traversals.** `exists_first_of_mapM`: when things are written in turn, the first failure is the
  failure of all; `renderMembers_eq_mapM` and `renderLines_eq_mapM` are such traversals.
- **Places.** `RefusesAt`, for emissions that name one place in every refusal.
- **Blame.** `Guilty` and `FirstOffence`; `Blames` is what is followed, with one lemma for each way in
  which a refusal comes from a part.
- **Shapes.** `renderBlames_and_lineBlames`, and the result, `renderShape_blames_first`.
-/

namespace SchemaForge

/-! ## Traversals -/

namespace Emission

variable {α β : Type}

/-- **When things are written in turn, the first failure is that of all**: something fails so, and
everything in front of it is written. -/
theorem exists_first_of_mapM {write : α → Emission β} {items : List α} {e : RenderError}
    (h : (items.mapM write).outcome = .error e) :
    ∃ (number : Nat) (item : α), items[number]? = some item ∧ (write item).outcome = .error e ∧
      ∀ before < number, ∀ other, items[before]? = some other →
        ∃ b, (write other).outcome = .ok b := by
  induction items with
  | nil => cases h
  | cons first rest ih =>
    rw [List.mapM_cons] at h
    cases hfirst : (write first).outcome with
    | error e' =>
      rw [outcome_bind_of_error hfirst] at h
      cases h
      exact ⟨0, first, rfl, hfirst, nofun⟩
    | ok b =>
      rw [outcome_bind_of_ok hfirst] at h
      have hrest : (rest.mapM write).outcome = .error e := by
        cases hrest : (rest.mapM write).outcome with
        | error e' =>
          rw [outcome_bind_of_error hrest] at h
          exact h
        | ok bs =>
          rw [outcome_bind_of_ok hrest] at h
          cases h
      obtain ⟨number, item, hitem, hfails, hbefore⟩ := ih hrest
      refine ⟨number + 1, item, hitem, hfails, fun before hlt other hother => ?_⟩
      cases before with
      | zero =>
        cases hother
        exact ⟨b, hfirst⟩
      | succ before => exact hbefore before (Nat.lt_of_succ_lt_succ hlt) other hother

/-- When all are written, each of them is. -/
theorem exists_of_mapM {write : α → Emission β} {items : List α} {bs : List β}
    (h : (items.mapM write).outcome = .ok bs) :
    ∀ item ∈ items, ∃ b, (write item).outcome = .ok b := by
  induction items generalizing bs with
  | nil => exact nofun
  | cons first rest ih =>
    rw [List.mapM_cons] at h
    obtain ⟨b, hfirst, h⟩ := outcome_bind_eq_ok_iff.mp h
    obtain ⟨others, hrest, -⟩ := outcome_bind_eq_ok_iff.mp h
    exact List.forall_mem_cons.mpr ⟨⟨b, hfirst⟩, ih hrest⟩

end Emission

namespace Expression

open Shape (Place Position Stands Leads Occurs Everywhere)

variable {d : Dialect} {i : Indentation}

theorem renderMembers_eq_mapM (members : List Shape) (path : Path) (depth index : Nat) :
    renderMembers d i members path depth index =
      (members.zipIdx index).mapM fun member =>
        render d i member.1 (path.element "anyOf" member.2) depth := by
  induction members generalizing index with
  | nil => rfl
  | cons member rest ih => rw [renderMembers, List.zipIdx_cons, List.mapM_cons, ih]

theorem renderLines_eq_mapM (properties : Fields Shape) (path : Path) (depth : Nat) :
    renderLines d i properties path depth =
      properties.mapM fun property => renderLine d i property.1 property.2 path depth := by
  induction properties with
  | nil => rfl
  | cons property rest ih => rw [renderLines_cons, List.mapM_cons, ih]

/-! ## Places -/

/-- Whether an emission names no other place when it is refused. -/
def RefusesAt {α : Type} (path : Path) (emission : Emission α) : Prop :=
  ∀ refusal, emission.outcome = .error (.unsupported refusal) → refusal.path = path

section

variable {α β : Type} {path : Path}

theorem refusesAt_pure (a : α) : RefusesAt path (pure a) := nofun

theorem refusesAt_warn (warning : Warning) : RefusesAt path (.warn warning) := by
  intro refusal h
  cases h

theorem refusesAt_refuse (construct : Construct) :
    RefusesAt path (.refuse d construct path : Emission α) := by
  rintro refusal ⟨⟩
  rfl

theorem refusesAt_orRefuse (result : Except Construct α) :
    RefusesAt path (Emission.orRefuse d path result) := by
  cases result with
  | ok a => exact refusesAt_pure a
  | error construct => exact refusesAt_refuse construct

theorem RefusesAt.bind {first : Emission α} (h : RefusesAt path first) {next : α → Emission β}
    (hnext : ∀ a, RefusesAt path (next a)) : RefusesAt path (first >>= next) := by
  intro refusal hrefusal
  cases hfirst : first.outcome with
  | error e =>
    rw [Emission.outcome_bind_of_error hfirst] at hrefusal
    cases hrefusal
    exact h refusal hfirst
  | ok a =>
    rw [Emission.outcome_bind_of_ok hfirst] at hrefusal
    exact hnext a refusal hrefusal

theorem RefusesAt.bind_pure {first : Emission α} (h : RefusesAt path first) (f : α → β) :
    RefusesAt path (first >>= fun a => pure (f a)) :=
  h.bind fun a => refusesAt_pure (f a)

theorem refusesAt_patternLiteral (pattern : Json) : RefusesAt path (patternLiteral pattern) := by
  unfold patternLiteral
  split
  · exact refusesAt_pure _
  · exact nofun

theorem refusesAt_textDemands (minLength maxLength pattern : Json) :
    RefusesAt path (textDemands d minLength maxLength pattern) := by
  unfold textDemands
  split
  · exact refusesAt_pure _
  · dsimp only
    split
    · exact (refusesAt_pure _).bind_pure _
    · exact (refusesAt_patternLiteral pattern).bind_pure _

theorem refusesAt_textType (minLength maxLength pattern : Json) :
    RefusesAt path (textType d minLength maxLength pattern path) := by
  have hdemands : RefusesAt path (textDemands d minLength maxLength pattern) :=
    refusesAt_textDemands minLength maxLength pattern
  cases d with
  | arkType =>
    show RefusesAt path (arkTypeText minLength maxLength pattern path)
    unfold arkTypeText
    split
    · exact refusesAt_pure _
    · split
      · exact refusesAt_patternLiteral pattern
      · exact refusesAt_refuse _
  | _ => exact hdemands.bind_pure _

theorem refusesAt_boundDemand (demand : Demand) (bound : Json) :
    RefusesAt path (boundDemand d demand bound path) := by
  unfold boundDemand
  split
  · exact refusesAt_pure _
  · exact (refusesAt_orRefuse _).bind_pure _

theorem refusesAt_numberType (minimum maximum : Json) :
    RefusesAt path (numberType d minimum maximum path) := by
  have hdemands : RefusesAt path (numberDemands d minimum maximum path) :=
    (refusesAt_boundDemand .minimum minimum).bind fun _ =>
      (refusesAt_boundDemand .maximum maximum).bind_pure _
  cases d with
  | arkType =>
    have hlower : RefusesAt path (if minimum.isNull then pure (Script.doubleQuoted "number") else do
        let bound ← .orRefuse .arkType path (Script.number minimum)
        return Script.doubleQuoted ("number >= " ++ bound)) := by
      split
      · exact refusesAt_pure _
      · exact (refusesAt_orRefuse _).bind_pure _
    show RefusesAt path (arkTypeNumber minimum maximum path)
    unfold arkTypeNumber
    dsimp only
    split
    · exact (refusesAt_warn _).bind fun _ => hlower
    · exact hlower
  | _ => exact hdemands.bind_pure _

end

/-! ## Blame -/

/-- **What a dialect can blame** at a place: what is an offence there, or a union that enumerates, for
one of its literals. -/
inductive Guilty (d : Dialect) (place : Place) : Shape → Construct → Prop where
  /-- It is refused itself. -/
  | itself {part : Shape} {construct : Construct} :
    Offence d place part construct → Guilty d place part construct
  /-- A literal among its members is. -/
  | enumeration {members : List Shape} {member : Shape} {construct : Construct} :
    (Shape.enumeration? members).isSome → member ∈ members → Offence d .member member construct →
      Guilty d place (.union members) construct

/-- **Whether a position is the first one to blame** for a construct, in a shape that stands at `top`. -/
structure FirstOffence (d : Dialect) (top : Place) (shape : Shape) (position : Position)
    (construct : Construct) : Prop where
  /-- What stands there is guilty. -/
  guilty : ∃ place part, Stands place part position top shape ∧ Guilty d place part construct
  /-- Nothing at an earlier position is an offence. -/
  first : ∀ earlier < position, ∀ place part, Stands place part earlier top shape →
    ∀ construct, ¬ Offence d place part construct

section

variable {top : Place} {shape : Shape} {position : Position} {construct : Construct}

theorem firstOffence_here (h : Guilty d top shape construct) :
    FirstOffence d top shape [] construct :=
  ⟨⟨top, shape, .here, h⟩, fun earlier hlt => absurd hlt (List.not_lt_nil earlier)⟩

/-- The first to blame inside an optional property, unless it is optional once more. -/
theorem FirstOffence.optional {inner : Shape} (hinner : ¬ inner.IsOptional)
    (default : Default) (hasDefault : Json) (h : FirstOffence d .inner inner position construct) :
    FirstOffence d .property (.optional inner default hasDefault) position construct := by
  obtain ⟨⟨place, part, hstands, hguilty⟩, hfirst⟩ := h
  refine ⟨⟨place, part, .inner hstands, hguilty⟩, fun earlier hlt place part hstands => ?_⟩
  cases hstands with
  | here =>
    intro construct hoffence
    cases hoffence with
    | strayOptional hplace => simp at hplace
    | nestedOptional h => exact hinner h
  | inner hstands => exact hfirst earlier hlt place part hstands
  | within hshape => exact absurd trivial hshape

/-- The first to blame in one of the parts, when there is nothing to blame in the parts in front. -/
theorem FirstOffence.within {number : Nat} {child : Place × Shape} (hshape : ¬ shape.IsOptional)
    (hnone : ∀ construct, ¬ Offence d top shape construct)
    (hchild : shape.parts[number]? = some child)
    (hfront : ∀ before < number, ∀ other, shape.parts[before]? = some other →
      ∀ construct, ¬ Contains d other.1 other.2 construct)
    (h : FirstOffence d child.1 child.2 position construct) :
    FirstOffence d top shape (number :: position) construct := by
  obtain ⟨⟨place, part, hstands, hguilty⟩, hfirst⟩ := h
  refine ⟨⟨place, part, .within hshape hchild hstands, hguilty⟩, ?_⟩
  intro earlier hlt place part hstands construct hoffence
  cases hstands with
  | here => exact hnone construct hoffence
  | inner => exact absurd trivial hshape
  | within _ hother hstands =>
    rcases List.cons_lt_cons_iff.mp hlt with hbefore | ⟨rfl, hrest⟩
    · have hoccurs := Shape.exists_stands_iff.mp ⟨_, hstands⟩
      exact hfront _ hbefore _ hother construct ⟨place, part, hoccurs, hoffence⟩
    · cases hchild.symm.trans hother
      exact hfirst _ hrest place part hstands construct hoffence

/-- **What an outcome says about blame.** A refusal leads to the first position to blame, by steps that
`followed` is followed along; when something comes out there are no offences. -/
def Blames (d : Dialect) (top : Place) (shape followed : Shape) (path : Path) {α : Type} :
    Except RenderError α → Prop
  | .ok _ => ∀ construct, ¬ Contains d top shape construct
  | .error (.unsupported refusal) => ∃ steps position, refusal.path.steps = path.steps ++ steps ∧
    Leads steps position followed ∧ FirstOffence d top shape position refusal.construct
  | .error .patternNotText | .error .indentNotText => True

variable {followed : Shape} {path : Path} {α β : Type}

/-- The shape at the path is to blame, for whatever is refused. -/
theorem blames_here {p : Construct → Prop} {emission : Emission α}
    (hanswers : Answers d p emission.outcome) (hat : RefusesAt path emission)
    (hguilty : ∀ construct, p construct → Guilty d top shape construct)
    (hall : ∀ construct, Contains d top shape construct → p construct) :
    Blames d top shape followed path emission.outcome := by
  cases houtcome : emission.outcome with
  | ok a =>
    rw [houtcome] at hanswers
    exact fun construct h => hanswers construct (hall construct h)
  | error e =>
    rw [houtcome] at hanswers
    cases e with
    | unsupported refusal =>
      have hpath : refusal.path = path := hat refusal houtcome
      refine ⟨[], [], ?_, .here, firstOffence_here (hguilty _ hanswers.1)⟩
      rw [hpath, List.append_nil]
    | patternNotText => exact trivial
    | indentNotText => exact trivial

/-- What follows a part and is never refused has nothing to blame. -/
theorem Blames.bind {first : Emission α} (h : Blames d top shape followed path first.outcome)
    {next : α → Emission β}
    (hnext : ∀ a refusal, (next a).outcome ≠ .error (.unsupported refusal)) :
    Blames d top shape followed path (first >>= next).outcome := by
  cases hfirst : first.outcome with
  | error e =>
    rw [hfirst] at h
    rw [Emission.outcome_bind_of_error hfirst]
    cases e with
    | unsupported refusal => exact h
    | patternNotText => exact trivial
    | indentNotText => exact trivial
  | ok a =>
    rw [hfirst] at h
    rw [Emission.outcome_bind_of_ok hfirst]
    cases hlast : (next a).outcome with
    | ok b => exact h
    | error e =>
      cases e with
      | unsupported refusal => exact absurd hlast (hnext a refusal)
      | patternNotText => exact trivial
      | indentNotText => exact trivial

theorem Blames.bind_pure {first : Emission α} (h : Blames d top shape followed path first.outcome)
    (f : α → β) : Blames d top shape followed path (first >>= fun a => pure (f a)).outcome :=
  h.bind fun _ _ => nofun

/-- An optional property is to blame for what is in the value, unless that is optional too. -/
theorem Blames.optional {inner : Shape} (hinner : ¬ inner.IsOptional) (default : Default)
    (hasDefault : Json) {outcome : Except RenderError α} (h : Blames d .inner inner followed path outcome) :
    Blames d .property (.optional inner default hasDefault) followed path outcome := by
  cases outcome with
  | ok a => exact fun construct hcontains => h construct ((contains_optional_iff hinner).mp hcontains)
  | error e =>
    cases e with
    | unsupported refusal =>
      obtain ⟨steps, position, hsteps, hleads, hfirst⟩ := h
      exact ⟨steps, position, hsteps, hleads, hfirst.optional hinner default hasDefault⟩
    | patternNotText => exact trivial
    | indentNotText => exact trivial

/-- A shape that is no offence itself is to blame for a failure in one of its parts, when there is
nothing to blame in the parts in front. -/
theorem Blames.of_part (hshape : ¬ shape.IsOptional)
    (hnone : ∀ construct, ¬ Offence d top shape construct) {number : Nat} {child : Place × Shape}
    (hchild : shape.parts[number]? = some child)
    (hfront : ∀ before < number, ∀ other, shape.parts[before]? = some other →
      ∀ construct, ¬ Contains d other.1 other.2 construct)
    {steps : List String}
    (hleads : ∀ rest position, Leads rest position followed →
      Leads (steps ++ rest) (number :: position) shape) {e : RenderError}
    (h : Blames d child.1 child.2 followed { steps := path.steps ++ steps }
      (.error e : Except RenderError α)) :
    Blames d top shape shape path (.error e : Except RenderError β) := by
  cases e with
  | unsupported refusal =>
    obtain ⟨rest, position, hsteps, hrest, hfirst⟩ := h
    refine ⟨steps ++ rest, number :: position, ?_, hleads rest position hrest,
      hfirst.within hshape hnone hchild hfront⟩
    rw [hsteps, List.append_assoc]
  | patternNotText => exact trivial
  | indentNotText => exact trivial

/-- **The parts of a shape are written in turn**: the first that is refused is to blame. There is an
item for each part, which is found by its steps and followed along some shape. -/
theorem blames_mapM {ι : Type} {items : List ι} (part : ι → Place × Shape) (followed : ι → Shape)
    (steps : ι → List String) (hshape : ¬ shape.IsOptional)
    (hnone : ∀ construct, ¬ Offence d top shape construct) (hparts : shape.parts = items.map part)
    (hleads : ∀ (number : Nat) (item : ι), items[number]? = some item →
      ∀ rest position, Leads rest position (followed item) →
        Leads (steps item ++ rest) (number :: position) shape)
    {write : ι → Emission β}
    (h : ∀ item ∈ items, Blames d (part item).1 (part item).2 (followed item)
      { steps := path.steps ++ steps item } (write item).outcome) :
    Blames d top shape shape path (items.mapM write).outcome := by
  -- What is written has nothing to blame in it.
  have hclean {item : ι} (hitem : item ∈ items) (hwritten : ∃ b, (write item).outcome = .ok b)
      (construct : Construct) : ¬ Contains d (part item).1 (part item).2 construct := by
    obtain ⟨b, hb⟩ := hwritten
    have hblames := h item hitem
    rw [hb] at hblames
    exact hblames construct
  cases houtcome : (items.mapM write).outcome with
  | ok codes =>
    intro construct hcontains
    rcases contains_iff.mp hcontains with hoffence | ⟨child, hchild, hcontains⟩
    · exact hnone construct hoffence
    · rw [hparts] at hchild
      obtain ⟨item, hitem, rfl⟩ := List.mem_map.mp hchild
      exact hclean hitem (Emission.exists_of_mapM houtcome item hitem) construct hcontains
  | error e =>
    obtain ⟨number, item, hitem, hfails, hbefore⟩ := Emission.exists_first_of_mapM houtcome
    have hblames := h item (List.mem_of_getElem? hitem)
    rw [hfails] at hblames
    refine hblames.of_part hshape hnone ?_ ?_ (hleads number item hitem)
    · rw [hparts, List.getElem?_map, hitem, Option.map_some]
    · intro before hlt other hother
      rw [hparts, List.getElem?_map] at hother
      obtain ⟨first, hfirst, rfl⟩ := Option.map_eq_some_iff.mp hother
      exact hclean (List.mem_of_getElem? hfirst) (hbefore before hlt first hfirst)

/-- A scalar can only be to blame itself. -/
theorem blames_scalar (hparts : shape.parts = []) {emission : Emission α}
    (hanswers : Answers d (Offence d top shape) emission.outcome) (hat : RefusesAt path emission) :
    Blames d top shape followed path emission.outcome :=
  blames_here hanswers hat (fun _ h => .itself h) fun construct h =>
    (contains_of_no_parts hparts construct).mpr h

/-- A list is to blame for its items. -/
theorem blames_array {items : Shape} {outcome : Except RenderError α}
    (h : Blames d .items items items (path.child "items") outcome) :
    Blames d top (.array items) (.array items) path outcome := by
  cases outcome with
  | ok a => exact fun construct hcontains => h construct (contains_array_iff.mp hcontains)
  | error e =>
    have hchild : (Shape.array items).parts[0]? = some (.items, items) := rfl
    have hleads (rest : List String) (position : Position) (hrest : Leads rest position items) :
        Leads (["items"] ++ rest) (0 :: position) (.array items) := .items hrest
    exact Blames.of_part id (fun _ => not_offence_array) hchild
      (fun before hlt => absurd hlt (Nat.not_lt_zero before)) hleads h

end

/-! ## Shapes -/

/-- What is written of a shape blames what it has to, wherever `render` is asked for it. -/
def RenderBlames (d : Dialect) (i : Indentation) (shape : Shape) : Prop :=
  ∀ top path depth, (shape.IsOptional → RefusesOptional top) →
    Blames d top shape shape path (render d i shape path depth).outcome

/-- So does the line of a property with that value. -/
def LineBlames (d : Dialect) (i : Indentation) (shape : Shape) : Prop :=
  ∀ name path depth, Blames d .property shape shape.seenThrough (path.child name)
    (renderLine d i name shape path depth).outcome

/-- Whatever is no text is found out when lines are indented, but nothing is refused there. -/
theorem line_not_refused (depth : Nat) (entry : Entry) (refusal : Unsupported) :
    (line i depth entry).outcome ≠ .error (.unsupported refusal) := by
  unfold line
  split
  · exact nofun
  · exact nofun

theorem layout_not_refused (depth : Nat) (lines : List String) (refusal : Unsupported) :
    (layout i depth lines).outcome ≠ .error (.unsupported refusal) := by
  unfold layout
  split
  · exact nofun
  · split
    · exact nofun
    · exact nofun

theorem blames_renderMembers {members : List Shape}
    (h : ∀ member ∈ members, RenderBlames d i member) (top : Place) (path : Path) (depth : Nat) :
    Blames d top (.union members) (.union members) path
      (renderMembers d i members path depth 0).outcome := by
  have hnumbered {number : Nat} {item : Shape × Nat}
      (hitem : (members.zipIdx 0)[number]? = some item) :
      members[number]? = some item.1 ∧ item.2 = number := by
    rw [List.getElem?_zipIdx] at hitem
    obtain ⟨member, hmember, rfl⟩ := Option.map_eq_some_iff.mp hitem
    exact ⟨hmember, Nat.zero_add number⟩
  rw [renderMembers_eq_mapM]
  refine blames_mapM (fun item => (.member, item.1)) (fun item => item.1)
    (fun item => ["anyOf", toString item.2]) id (fun _ => not_offence_union) ?_ ?_ ?_
  · calc members.map (Prod.mk Place.member)
        = ((members.zipIdx 0).map Prod.fst).map (Prod.mk Place.member) := by
          rw [List.zipIdx_map_fst]
      _ = _ := List.map_map
  · intro number item hitem rest position hleads
    obtain ⟨hmember, rfl⟩ := hnumbered hitem
    exact .member hmember hleads
  · intro item hitem
    obtain ⟨number, hnumber⟩ := List.getElem?_of_mem hitem
    obtain ⟨hmember, -⟩ := hnumbered hnumber
    have hpath : path.element "anyOf" item.2 =
        { steps := path.steps ++ ["anyOf", toString item.2] } := by
      simp [Path.element, Path.child]
    rw [← hpath]
    exact h item.1 (List.mem_of_getElem? hmember) .member _ depth fun _ => Or.inr (Or.inr rfl)

theorem blames_renderLines {properties : Fields Shape}
    (h : ∀ property ∈ properties, LineBlames d i property.2) (top : Place) (path : Path)
    (depth : Nat) :
    Blames d top (.object properties) (.object properties) path
      (renderLines d i properties path depth).outcome := by
  rw [renderLines_eq_mapM]
  refine blames_mapM (fun property => (.property, property.2))
    (fun property => property.2.seenThrough) (fun property => [property.1]) id
    (fun _ => not_offence_object) rfl ?_ ?_
  · exact fun number property hproperty rest position hleads => .property hproperty hleads
  · exact fun property hproperty => h property hproperty property.1 path depth

/-- An enumeration is to blame for its literals. -/
theorem blames_enumeration {members : List Shape} {kind : LiteralKind} {values : List Json}
    (henum : Shape.enumeration? members = some (kind, values)) (top : Place) (path : Path)
    (depth : Nat) :
    Blames d top (.union members) (.union members) path
      (render d i (.union members) path depth).outcome := by
  have hmembers : members = values.map .literal := Shape.eq_map_of_enumeration? henum
  rw [render, henum]
  refine blames_here (answers_bind_pure _ (answers_literals path values))
    ((refusesAt_orRefuse _).bind_pure _) ?_ ?_
  · rintro construct ⟨value, hvalue, hliteral⟩
    refine .enumeration (by rw [henum]; rfl) ?_ (literal_eq_error_iff.mp hliteral)
    rw [hmembers]
    exact List.mem_map_of_mem hvalue
  · intro construct hcontains
    obtain ⟨member, hmember, hoffence⟩ := contains_union_iff.mp hcontains
    rw [hmembers] at hmember
    obtain ⟨value, hvalue, rfl⟩ := List.mem_map.mp hmember
    exact ⟨value, hvalue, literal_eq_error_iff.mpr ((contains_of_no_parts rfl construct).mpr hoffence)⟩

/-- The line of a property that is not optional blames as its value does. -/
theorem lineBlames_of_renderBlames {shape : Shape} (hshape : ¬ shape.IsOptional)
    (h : RenderBlames d i shape) : LineBlames d i shape := by
  intro name path depth
  rw [renderLine_of_not_isOptional hshape, Shape.seenThrough_eq hshape]
  exact (h .property (path.child name) (depth + 1) (absurd · hshape)).bind fun _ =>
    line_not_refused _ _

/-- The line of an optional property blames as the value does that is optional. -/
theorem lineBlames_optional {inner : Shape} (default : Default) (hasDefault : Json)
    (h : RenderBlames d i inner) : LineBlames d i (.optional inner default hasDefault) := by
  intro name path depth
  by_cases hinner : inner.IsOptional
  · cases inner with
    | optional innermost default' hasDefault' =>
      exact ⟨[], [], (List.append_nil _).symm, .here,
        firstOffence_here (.itself (.nestedOptional trivial))⟩
    | _ => exact hinner.elim
  · have hcode := h .inner (path.child name) (depth + 1) (absurd · hinner)
    rw [renderLine_optional hinner]
    refine (hcode.optional hinner default hasDefault).bind fun code refusal => ?_
    obtain ⟨entry, hentry⟩ := optionalEntry_outcome d name code
      (if hasDefault.isVacant then none else some default) (path.child name)
    rw [Emission.outcome_bind_of_ok hentry]
    exact line_not_refused _ _ refusal

/-- **What is written of a shape blames the first offence in it**, and so does the line of a property
that has it as its value. -/
theorem renderBlames_and_lineBlames (d : Dialect) (i : Indentation) {top : Place} {shape : Shape}
    (htexts : Everywhere (fun _ => Shape.PatternIsText) top shape) :
    RenderBlames d i shape ∧ LineBlames d i shape := by
  refine Everywhere.induct_properties ?string ?number ?boolean ?literal ?object ?array ?union
    ?optional ?foreign ?plainProperty ?optionalProperty htexts
  case string =>
    exact fun minLength maxLength pattern hpattern top path _ _ =>
      blames_scalar rfl (answers_textType top hpattern minLength maxLength path)
        (refusesAt_textType minLength maxLength pattern)
  case number =>
    exact fun minimum maximum _ top path _ _ =>
      blames_scalar rfl (answers_numberType top minimum maximum path)
        (refusesAt_numberType minimum maximum)
  case boolean =>
    intro top path _ _ construct hcontains
    have hoffence := (contains_of_no_parts rfl construct).mpr hcontains
    cases hoffence
  case literal =>
    intro value top path _ _
    exact blames_scalar rfl ((answers_bind_pure _ (answers_orRefuse path _)).congr
      fun construct => literal_eq_error_iff) ((refusesAt_orRefuse _).bind_pure _)
  case object =>
    intro properties hlines top path depth _
    rw [render, ← bind_assoc]
    have hlines := blames_renderLines hlines top path depth
    exact (hlines.bind fun lines => layout_not_refused depth lines).bind_pure _
  case array =>
    intro items hitems top path depth _
    exact (blames_array (hitems .items _ depth fun _ => Or.inr (Or.inl rfl))).bind_pure _
  case union =>
    intro members hmembers top path depth _
    cases henum : Shape.enumeration? members with
    | some enumeration => exact blames_enumeration henum top path depth
    | none =>
      rw [render, henum]
      exact (blames_renderMembers hmembers top path depth).bind_pure _
  case optional =>
    intro inner default hasDefault top path depth htop
    exact ⟨[], [], (List.append_nil _).symm, .here,
      firstOffence_here (.itself (.strayOptional (htop trivial)))⟩
  case foreign =>
    intro value top path depth _
    exact ⟨[], [], (List.append_nil _).symm, .here, firstOffence_here (.itself .foreign)⟩
  case plainProperty => exact fun shape => lineBlames_of_renderBlames
  case optionalProperty => exact fun inner => lineBlames_optional

/-- **A refusal points at the first offence.** The path that its message shows, followed from the root,
leads to exactly one position. What stands there is to blame for what was refused, and nothing at an
earlier position is an offence. -/
theorem renderShape_blames_first (d : Dialect) (i : Indentation) {shape : Shape}
    (htexts : Everywhere (fun _ => Shape.PatternIsText) .root shape)
    (hnames : Everywhere (fun _ => Shape.Addressable) .root shape) {refusal : Unsupported}
    (h : (renderShape d i shape).outcome = .error (.unsupported refusal)) :
    ∃ position, Leads (Path.cut refusal.path.text) position shape ∧
      (∀ other, Leads (Path.cut refusal.path.text) other shape → other = position) ∧
      FirstOffence d .root shape position refusal.construct := by
  have hblames := (renderBlames_and_lineBlames d i htexts).1 .root .root 0 fun _ => Or.inl rfl
  rw [renderShape] at h
  rw [h] at hblames
  obtain ⟨steps, position, hsteps, hleads, hfirst⟩ := hblames
  have hsteps : refusal.path.steps = steps := hsteps
  have hcut : Path.cut refusal.path.text = steps := by
    rw [Path.cut_text (hsteps ▸ hleads.slash_notMem hnames), hsteps]
  rw [hcut]
  exact ⟨position, hleads, fun other hother => hleads.unique hnames hother, hfirst⟩

/-- A property by the name of `items` holds a list, in which the second variant is to blame for a
literal; the list of the other property would be refused as well, but comes later. -/
theorem renderShape_blames_first_of_two :
    let shape := Shape.object [("items", .optional (.array (.union [.boolean,
      .array (.literal .null)])) .null (.bool false)), ("anyOf", .array (.foreign .null))]
    let refusal : Unsupported := {
      construct := .literalValue .null
      path := { steps := ["items", "items", "anyOf", "1", "items"] }
      dialect := some .zod }
    Everywhere (fun _ => Shape.PatternIsText) .root shape ∧
      Everywhere (fun _ => Shape.Addressable) .root shape ∧
      (renderShape .zod (.unit "  ") shape).outcome = .error (.unsupported refusal) ∧
      ∃ position, Leads (Path.cut "#/items/items/anyOf/1/items") position shape ∧
        (∀ other, Leads (Path.cut "#/items/items/anyOf/1/items") other shape → other = position) ∧
        FirstOffence .zod .root shape position (.literalValue .null) := by
  intro shape refusal
  have htexts : Everywhere (fun _ => Shape.PatternIsText) .root shape := by
    simp [shape, Shape.PatternIsText]
  have hnames : Everywhere (fun _ => Shape.Addressable) .root shape := by
    simp [shape, Shape.Addressable, Fields.names]
  have hrefused : (renderShape .zod (.unit "  ") shape).outcome = .error (.unsupported refusal) := rfl
  exact ⟨htexts, hnames, hrefused, renderShape_blames_first .zod (.unit "  ") htexts hnames hrefused⟩

end Expression

end SchemaForge
