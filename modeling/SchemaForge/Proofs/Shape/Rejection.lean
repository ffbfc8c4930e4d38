import SchemaForge.Proofs.Shape.Spelling
import SchemaForge.Proofs.Shape.Traversal

/-!
# `SchemaForge.Proofs.Shape.Rejection` — a refusal points at what was rejected

A schema is refused for one of its parts. The path of the refusal leads from the top to this part, the
part is rejected for what it is and not for anything below it, and whatever is read before it is
accepted.

Reading a part means to read its own parts in turn, each at the place that its label adds, and then to
make a shape of what they are read as. `Follows` says what the outcome tells about the parts, and
`Traced` what it tells about the part: when it is not rejected itself, its refusal is that of the first
of its parts that is not accepted. From there on it goes down, and the labels add up to the path.

## Contents
- **Acceptance.** `Accepted` on its own, and `RejectedItself`.
- **In turn.** `FirstRefused`, `Follows`, and the readers of lists, of types and of properties.
- **Levels.** `Sound.traced`, for each key that decides how a schema is read.
- **Descent.** `Sound.exists_rejected`, and the result.
-/

namespace SchemaForge

/-- A path with more steps behind it. -/
def Path.down (path : Path) (steps : List String) : Path := { steps := path.steps ++ steps }

theorem Path.element_eq_down (path : Path) (list : String) (index : Nat) :
    path.element list index = path.down [list, toString index] := by
  simp [element, child, down]

theorem Path.child_child_eq_down (path : Path) (first second : String) :
    (path.child first).child second = path.down [first, second] := by
  simp [child, down]

theorem Path.down_down (path : Path) (steps others : List String) :
    (path.down steps).down others = path.down (steps ++ others) := by
  simp [down]

namespace Shape

namespace SchemaPart

/-! ## Acceptance -/

/-- **Whether a part is accepted on its own**, and then it is at any place. -/
def Accepted (part : SchemaPart) : Prop := ∃ shape, ∀ path, part.read path = .ok shape

/-- **Whether a part is rejected at its own level**: it is refused at the place where it is read, and
not for a part of it, since these are accepted. -/
structure RejectedItself (part : SchemaPart) (construct : Construct) : Prop where
  /-- It is refused where it is read. -/
  refused : ∀ path, part.read path = refuse construct path
  /-- None of its parts is. -/
  parts : ∀ child ∈ part.parts, child.2.Accepted

/-- What is accepted at one place is accepted at every other. -/
theorem accepted_of_read {part : SchemaPart} {path : Path} {shape : Shape}
    (h : part.read path = .ok shape) : part.Accepted := by
  refine ⟨shape, fun path' => ?_⟩
  have halike : EndAlike anywhere (part.read path) (part.read path') := by
    cases part with
    | schema content => exact (readAlike_refl content).endAlike path path' trivial
    | value content => exact endAlike_readLiteral trivial content
  rcases halike with ⟨other, hother, hresult⟩ | ⟨e, -, he, -⟩
  · cases h.symm.trans hother
    exact hresult
  · cases h.symm.trans he

/-! ## In turn -/

/-- Whether a refusal is that of the first of the parts that is not accepted. -/
def FirstRefused (parts : List Labelled) (path : Path) (refusal : Unsupported) : Prop :=
  ∃ (number : Nat) (label : List String) (child : SchemaPart),
    parts[number]? = some (label, child) ∧
    child.read (path.down label) = .error (.unsupported refusal) ∧
    ∀ before < number, ∀ other : Labelled, parts[before]? = some other → other.2.Accepted

/-- **What the outcome of reading parts in turn says about them.** When anything is read all of them
are accepted, and a refusal is that of the first one that is not. -/
def Follows (parts : List Labelled) (path : Path) {α : Type} : Except ReadError α → Prop
  | .ok _ => ∀ child ∈ parts, child.2.Accepted
  | .error (.unsupported refusal) => FirstRefused parts path refusal
  | .error _ => True

section

variable {parts : List Labelled} {path : Path} {α β : Type}

/-- What is made of the parts and never refused says nothing more about them. -/
theorem Follows.bind_of_ok {first : Except ReadError α} (h : Follows parts path first)
    {next : α → Except ReadError β}
    (hnext : ∀ a, first = .ok a → ∀ refusal, next a ≠ .error (.unsupported refusal)) :
    Follows parts path (first >>= next) := by
  cases first with
  | error e => cases e <;> exact h
  | ok a =>
    show Follows parts path (next a)
    cases hlast : next a with
    | ok b => exact h
    | error e =>
      cases e with
      | unsupported refusal => exact absurd hlast (hnext a rfl refusal)
      | _ => trivial

theorem Follows.bind {first : Except ReadError α} (h : Follows parts path first)
    {next : α → Except ReadError β}
    (hnext : ∀ a refusal, next a ≠ .error (.unsupported refusal)) :
    Follows parts path (first >>= next) :=
  h.bind_of_ok fun a _ => hnext a

theorem Follows.bind_pure {first : Except ReadError α} (h : Follows parts path first) (f : α → β) :
    Follows parts path (first >>= fun a => pure (f a)) :=
  h.bind fun _ _ => nofun

/-- Nor does what stands in front of them. -/
theorem Follows.after {first : Except ReadError α}
    (hfirst : ∀ refusal, first ≠ .error (.unsupported refusal)) {next : α → Except ReadError β}
    (h : ∀ a, Follows parts path (next a)) : Follows parts path (first >>= next) := by
  cases first with
  | ok a => exact h a
  | error e =>
    cases e with
    | unsupported refusal => exact absurd rfl (hfirst refusal)
    | _ => trivial

/-- **One part after another.** -/
theorem follows_cons {label : List String} {child : SchemaPart} {rest : List Labelled}
    {next : Shape → Except ReadError β} (hnext : ∀ shape, Follows rest path (next shape)) :
    Follows ((label, child) :: rest) path (child.read (path.down label) >>= next) := by
  cases hfirst : child.read (path.down label) with
  | error e =>
    cases e with
    | unsupported refusal => exact ⟨0, label, child, rfl, hfirst, nofun⟩
    | _ => trivial
  | ok shape =>
    have hchild := accepted_of_read hfirst
    have hrest := hnext shape
    show Follows ((label, child) :: rest) path (next shape)
    cases hlast : next shape with
    | ok b =>
      rw [hlast] at hrest
      exact List.forall_mem_cons.mpr ⟨hchild, hrest⟩
    | error e =>
      rw [hlast] at hrest
      cases e with
      | unsupported refusal =>
        obtain ⟨number, label', child', hget, hread, hbefore⟩ := hrest
        refine ⟨number + 1, label', child', hget, hread, fun before hlt other hother => ?_⟩
        cases before with
        | zero =>
          cases hother
          exact hchild
        | succ before => exact hbefore before (Nat.lt_of_succ_lt_succ hlt) other hother
      | _ => trivial

theorem follows_readLiterals (values : List Json) (index : Nat) :
    Follows (numbered "enum" .value values index) path (readLiterals path index values) := by
  induction values generalizing index with
  | nil => exact nofun
  | cons value rest ih =>
    rw [numbered_cons, readLiterals, Path.element_eq_down]
    exact follows_cons fun first => (ih (index + 1)).bind_pure (first :: ·)

theorem follows_readVariants (keyword : String) (variants : List Json) (index : Nat) :
    Follows (numbered keyword .schema variants index) path
      (readVariants variants keyword path index) := by
  induction variants generalizing index with
  | nil =>
    rw [readVariants]
    exact nofun
  | cons variant rest ih =>
    rw [numbered_cons, readVariants, Path.element_eq_down]
    exact follows_cons fun first => (ih (index + 1)).bind_pure (first :: ·)

theorem follows_readEach (properties : Fields Json) (required : Json) :
    Follows (properties.map ofProperty) path (readEach properties required path) := by
  induction properties with
  | nil =>
    rw [readEach]
    exact nofun
  | cons property rest ih =>
    obtain ⟨name, schema⟩ := property
    rw [List.map_cons, readEach_cons, Path.child_child_eq_down]
    exact follows_cons fun shape => .after isOptional_not_refused fun optional => ih.bind_pure _

theorem follows_readProperties (keys : Fields Json) :
    Follows (propertyParts keys) path (readProperties keys path) := by
  unfold propertyParts
  cases hproperties : Fields.get? "properties" keys with
  | none =>
    rw [readProperties_absent hproperties]
    exact nofun
  | some value =>
    cases value with
    | obj properties =>
      rw [readProperties_present hproperties]
      exact (follows_readEach properties _).bind readObject_not_refused
    | _ =>
      rw [readProperties_malformed hproperties fun _ => nofun]
      trivial

theorem follows_readTypes {keys : Fields Json} {type : Json} (h : DecidedByType keys type)
    {types : List Json} (htypes : ∀ type ∈ types, ∃ name : String, type = .str name) :
    Follows (types.map (ofType keys)) path (readTypes keys types path) := by
  induction types with
  | nil =>
    rw [readTypes]
    exact nofun
  | cons first rest ih =>
    obtain ⟨hfirst, hrest⟩ := List.forall_mem_cons.mp htypes
    obtain ⟨name, rfl⟩ := hfirst
    rw [List.map_cons, readTypes, Path.child_child_eq_down, ← readSchema_typeVariant h name]
    exact follows_cons fun shape => (ih hrest).bind_pure (shape :: ·)

end

/-! ## Levels -/

/-- **How the outcome for a part hangs together with that for its own parts.** -/
structure Traced (part : SchemaPart) : Prop where
  /-- What is accepted has no parts but those that are accepted. -/
  accepted : part.Accepted → ∀ child ∈ part.parts, child.2.Accepted
  /-- What is refused is rejected itself, or for the first part that is not accepted. -/
  refused : ∀ {path refusal}, part.read path = .error (.unsupported refusal) →
    (refusal.path = path ∧ part.RejectedItself refusal.construct) ∨
      FirstRefused part.parts path refusal

section

variable {part : SchemaPart}

theorem traced_of_follows (h : ∀ path, Follows part.parts path (part.read path)) : Traced part where
  accepted := by
    rintro ⟨shape, hread⟩
    have hparts := h .root
    rw [hread] at hparts
    exact hparts
  refused {path refusal} hread := by
    have hparts := h path
    rw [hread] at hparts
    exact Or.inr hparts

theorem traced_of_refuse {construct : Construct} (hparts : part.parts = [])
    (h : ∀ path, part.read path = refuse construct path) : Traced part where
  accepted := by
    rw [hparts]
    exact fun _ => nofun
  refused {path refusal} hread := by
    cases (h path).symm.trans hread
    refine Or.inl ⟨rfl, h, ?_⟩
    rw [hparts]
    exact nofun

theorem traced_of_readLiteral (hparts : part.parts = []) (value : Json)
    (h : ∀ path, part.read path = readLiteral value path) : Traced part := by
  cases value with
  | null | arr | obj => exact traced_of_refuse hparts h
  | _ =>
    refine traced_of_follows fun path => ?_
    rw [hparts, h path]
    exact nofun

/-- A list is rejected when it is empty, and else only for one of its members. -/
theorem traced_of_members {construct : Construct} {members : Path → Except ReadError (List Shape)}
    (hfollows : ∀ path, Follows part.parts path (members path))
    (hempty : ∀ path, members path = .ok [] ↔ part.parts = [])
    (h : ∀ path, part.read path = (do
      match ← members path with
      | [] => refuse construct path
      | [only] => return only
      | members => readUnion members)) : Traced part := by
  by_cases hparts : part.parts = []
  · have hrefuse (path : Path) : part.read path = refuse construct path := by
      rw [h path, (hempty path).mpr hparts]
      rfl
    exact traced_of_refuse hparts hrefuse
  · refine traced_of_follows fun path => ?_
    rw [h path]
    refine (hfollows path).bind_of_ok fun shapes hshapes refusal => ?_
    match shapes with
    | [] => exact absurd ((hempty path).mp hshapes) hparts
    | [only] => exact nofun
    | first :: second :: rest => exact readUnion_not_refused _ refusal

/-- What is read one by one comes out empty only when there is nothing to read. -/
theorem cons_ne_ok_nil {ε α : Type} {first : Except ε α} {rest : Except ε (List α)} :
    (do return (← first) :: (← rest)) ≠ .ok [] := by
  intro h
  obtain ⟨a, -, h⟩ := bind_eq_ok_iff.mp h
  obtain ⟨others, -, h⟩ := bind_eq_ok_iff.mp h
  cases h

theorem readLiterals_eq_nil_iff {values : List Json} {path : Path} {index : Nat} :
    readLiterals path index values = .ok [] ↔ numbered "enum" .value values index = [] := by
  cases values with
  | nil => exact iff_of_true rfl rfl
  | cons value rest => exact iff_of_false cons_ne_ok_nil (numbered_cons .. ▸ List.cons_ne_nil _ _)

theorem readVariants_eq_nil_iff {keyword : String} {variants : List Json} {path : Path}
    {index : Nat} :
    readVariants variants keyword path index = .ok [] ↔
      numbered keyword .schema variants index = [] := by
  cases variants with
  | nil =>
    rw [readVariants]
    exact iff_of_true rfl rfl
  | cons variant rest =>
    rw [readVariants]
    exact iff_of_false cons_ne_ok_nil (numbered_cons .. ▸ List.cons_ne_nil _ _)

variable {keys : Fields Json}

theorem traced_enum (href : Fields.get? "$ref" keys = none) (hconst : Fields.get? "const" keys = none)
    {values : List Json} (henum : Fields.get? "enum" keys = some (.arr values)) :
    Traced (.schema (.obj keys)) := by
  have hparts : parts (.schema (.obj keys)) = numbered "enum" .value values 0 := by
    simp only [parts, keyParts, href, hconst, henum, listParts]
  refine traced_of_members (fun path => ?_) (fun path => ?_) fun path =>
    readSchema_enum href hconst henum
  · rw [hparts]
    exact follows_readLiterals values 0
  · rw [hparts]
    exact readLiterals_eq_nil_iff

theorem traced_choice (href : Fields.get? "$ref" keys = none)
    (hconst : Fields.get? "const" keys = none) (henum : Fields.get? "enum" keys = none)
    {variants : List Json}
    (hchoice : Fields.get? (choiceKeyword keys) keys = some (.arr variants)) :
    Traced (.schema (.obj keys)) := by
  have hparts : parts (.schema (.obj keys)) = numbered (choiceKeyword keys) .schema variants 0 := by
    simp only [parts, keyParts, href, hconst, henum, hchoice, listParts]
  have hread (path : Path) : readSchema (.obj keys) path = (do
      match ← readVariants variants (choiceKeyword keys) path 0 with
      | [] => refuse (.emptyChoice (choiceKeyword keys)) path
      | [only] => return only
      | members => readUnion members) :=
    (readSchema_choice href hconst henum hchoice).trans (readChoice.eq_def ..)
  refine traced_of_members (fun path => ?_) (fun path => ?_) hread
  · rw [hparts]
    exact follows_readVariants _ variants 0
  · rw [hparts]
    exact readVariants_eq_nil_iff

/-- A schema with a type is rejected when the type is not known or says nothing about its items. -/
theorem traced_type {type : Json} (h : DecidedByType keys type) (hsign : Signposted keys) :
    Traced (.schema (.obj keys)) := by
  have hparts : parts (.schema (.obj keys)) = typeParts keys type := by
    simp only [parts, keyParts, h.ref, h.const, h.enum, h.choice, h.type]
  have hread (path : Path) : read (.schema (.obj keys)) path = readTyped keys type path :=
    h.readSchema_eq path
  have hscalar {shape : Shape} (hnone : typeParts keys type = [])
      (h : ∀ path, readTyped keys type path = .ok shape) : Traced (.schema (.obj keys)) := by
    refine traced_of_follows fun path => ?_
    rw [hparts, hnone, hread path, h path]
    exact nofun
  cases typeCase keys type with
  | types types hsole =>
    have htype := h.type.trans (congrArg some (hsign.type_eq h.type hsole))
    refine traced_of_follows fun path => ?_
    rw [hparts, hread path, readTyped_types hsole, typeParts, hsole]
    refine (follows_readTypes h fun type hmem => ?_).bind readUnion_not_refused
    obtain ⟨name, hname, -⟩ := hsign.types types htype type hmem
    exact ⟨name, hname⟩
  | string hstring => exact hscalar (by simp [typeParts, hstring]) fun _ => readTyped_string hstring
  | number hnumber => exact hscalar (by simp [typeParts, hnumber]) fun _ => readTyped_number hnumber
  | boolean hboolean =>
    exact hscalar (by simp [typeParts, hboolean]) fun _ => readTyped_boolean hboolean
  | object hobject =>
    refine traced_of_follows fun path => ?_
    rw [hparts, hread path, readTyped_object hobject, typeParts, hobject]
    exact follows_readProperties keys
  | array item harray hitem =>
    refine traced_of_follows fun path => ?_
    rw [hparts, hread path, readTyped_array harray hitem, typeParts, harray]
    show Follows (itemParts keys) path _
    rw [itemParts, hitem]
    exact follows_cons fun shape => nofun
  | bareArray harray hitems =>
    have hnone : parts (.schema (.obj keys)) = [] := by
      rw [hparts, typeParts, harray]
      exact itemParts_eq_nil hitems
    exact traced_of_refuse hnone fun path =>
      (hread path).trans (readTyped_unspecifiedItems harray hitems)
  | unknown htypes hstring hnumber hboolean hobject harray =>
    have hnone : parts (.schema (.obj keys)) = [] :=
      hparts.trans (typeParts_eq_nil htypes hobject harray)
    exact traced_of_refuse hnone fun path => (hread path).trans
      (readTyped_unknown htypes hstring hnumber hboolean hobject harray)

theorem traced_untyped (href : Fields.get? "$ref" keys = none)
    (hconst : Fields.get? "const" keys = none) (henum : Fields.get? "enum" keys = none)
    (hchoice : Fields.get? (choiceKeyword keys) keys = none)
    (htype : Fields.get? "type" keys = none) : Traced (.schema (.obj keys)) := by
  have hparts : parts (.schema (.obj keys)) = propertyParts keys := by
    simp only [parts, keyParts, href, hconst, henum, hchoice, htype]
  have hread (path : Path) : readSchema (.obj keys) path =
      if Fields.has "properties" keys then readProperties keys path
      else refuse (.untyped ((Fields.names keys).mergeSort)) path :=
    readSchema_untyped href hconst henum hchoice htype
  by_cases hproperties : Fields.has "properties" keys
  · refine traced_of_follows fun path => ?_
    show Follows _ path (readSchema (.obj keys) path)
    rw [hparts, hread path, if_pos hproperties]
    exact follows_readProperties keys
  · refine traced_of_refuse ?_ fun path => (hread path).trans (if_neg hproperties)
    have hnone : Fields.get? "properties" keys = none := by
      rw [← Option.not_isSome_iff_eq_none]
      exact hproperties
    rw [hparts, propertyParts, hnone]

/-- **Every part that can be followed is traced**, by the first of its keys that decides. -/
theorem Sound.traced (h : part.Sound) : Traced part := by
  match part with
  | .value content => exact traced_of_readLiteral rfl content fun _ => rfl
  | .schema (.obj keys) =>
    have hkeyed : WellKeyed keys := h.1 keys .here
    cases decision keys with
    | reference target href =>
      have hparts : parts (.schema (.obj keys)) = [] := by simp only [parts, keyParts, href]
      exact traced_of_refuse hparts fun _ => readSchema_ref href
    | constant value href hconst =>
      have hparts : parts (.schema (.obj keys)) = [] := by simp only [parts, keyParts, href, hconst]
      exact traced_of_readLiteral hparts value fun _ => readSchema_const href hconst
    | enumeration values href hconst henum =>
      have hlist := hkeyed.lists "enum" (by decide) values henum
      cases values with
      | arr values => exact traced_enum href hconst henum
      | _ => exact hlist.elim
    | choice variants href hconst henum hchoice =>
      have hlist := hkeyed.lists _ choiceKeyword_mem variants hchoice
      cases variants with
      | arr variants => exact traced_choice href hconst henum hchoice
      | _ => exact hlist.elim
    | type type href hconst henum hchoice htype =>
      exact traced_type ⟨href, hconst, henum, hchoice, htype⟩ (h.2 keys .here)
    | untyped href hconst henum hchoice htype =>
      exact traced_untyped href hconst henum hchoice htype
  | .schema .null | .schema (.bool _) | .schema (.int _) | .schema (.float _) | .schema (.str _)
  | .schema (.arr _) =>
    exact traced_of_refuse rfl fun _ => readSchema_not_object fun _ => nofun

/-! ## Descent -/

variable {steps : List String} {position : Position} {top : SchemaPart}

/-- All that steps lead to in what is accepted is accepted. -/
theorem Accepted.of_leads (h : Leads steps position part top) (htop : top.Sound)
    (haccepted : top.Accepted) : part.Accepted := by
  induction h with
  | here => exact haccepted
  | within hchild _ ih =>
    have hmem := List.mem_of_getElem? hchild
    exact ih (htop.child hmem) (htop.traced.accepted haccepted _ hmem)

/-- **Whether all that comes before a position is accepted.** What is on the way to the position comes
before it too, but holds it, and is left out. -/
def AcceptedBefore (position : Position) (top : SchemaPart) : Prop :=
  ∀ earlier < position, ¬ earlier <+: position →
    ∀ steps part, Leads steps earlier part top → part.Accepted

/-- **A refusal leads down to a part that is rejected itself**, and all that comes before is
accepted. -/
theorem Sound.exists_rejected {top : SchemaPart} (htop : top.Sound) {path : Path}
    {refusal : Unsupported} (h : top.read path = .error (.unsupported refusal)) :
    ∃ steps position part, refusal.path = path.down steps ∧ Leads steps position part top ∧
      part.RejectedItself refusal.construct ∧ AcceptedBefore position top := by
  rcases htop.traced.refused h with ⟨hpath, hitself⟩ | ⟨number, label, child, hget, hread, hbefore⟩
  · refine ⟨[], [], top, ?_, .here, hitself, fun earlier hlt => absurd hlt (List.not_lt_nil _)⟩
    rw [hpath, Path.down, List.append_nil]
  · have hmem := List.mem_of_getElem? hget
    have hchild := htop.child hmem
    have hsmaller := htop.sizeOf_child hmem
    obtain ⟨steps, position, part, hpath, hleads, hitself, haccepted⟩ := hchild.exists_rejected hread
    refine ⟨label ++ steps, number :: position, part, ?_, .within hget hleads, hitself, ?_⟩
    · rw [hpath, Path.down_down]
    · intro earlier hlt hnot others other hother
      cases hother with
      | here => exact absurd List.nil_prefix hnot
      | within hget' hother =>
        rcases List.cons_lt_cons_iff.mp hlt with hless | ⟨rfl, hless⟩
        · -- It is in a part that is read before the child, and accepted.
          exact .of_leads hother (htop.child (List.mem_of_getElem? hget')) (hbefore _ hless _ hget')
        · cases hget.symm.trans hget'
          exact haccepted _ hless (fun hbelow => hnot (List.cons_prefix_cons.mpr ⟨rfl, hbelow⟩)) _ _
            hother
termination_by sizeOf top

end

end SchemaPart

open SchemaPart

/-- Whether a schema describes something, but not an object, as a root has to. -/
def DescribesNoObject (schema : Json) : Prop :=
  ∃ shape, (∀ path, readSchema schema path = .ok shape) ∧ ∀ properties, shape ≠ .object properties

/-- **What a refusal points at** in a schema: the part at the position. -/
structure PointsAt (schema : Json) (refusal : Unsupported) (position : Position)
    (part : SchemaPart) : Prop where
  /-- The path that is shown leads to the part. -/
  leads : SchemaPart.Leads (Path.cut refusal.path.text) position part (.schema schema)
  /-- It leads to no other part. -/
  unique : ∀ position' part',
    SchemaPart.Leads (Path.cut refusal.path.text) position' part' (.schema schema) → part' = part
  /-- The part is rejected itself, or it is the root and not an object. -/
  rejected : part.RejectedItself refusal.construct ∨
    (position = [] ∧ refusal.construct = .rootSchema ∧ DescribesNoObject schema)
  /-- All that is read before the part is accepted. -/
  before : AcceptedBefore position (.schema schema)

section

variable {schema : Json} {refusal : Unsupported}

/-- The steps of a refusal's path can be followed as they are shown. -/
theorem pointsAt_of_leads (htop : Sound (.schema schema)) {position : Position} {part : SchemaPart}
    (hleads : SchemaPart.Leads refusal.path.steps position part (.schema schema))
    (hrejected : part.RejectedItself refusal.construct ∨
      (position = [] ∧ refusal.construct = .rootSchema ∧ DescribesNoObject schema))
    (hbefore : AcceptedBefore position (.schema schema)) : PointsAt schema refusal position part := by
  have hcut : Path.cut refusal.path.text = refusal.path.steps :=
    Path.cut_text (hleads.slash_notMem htop)
  exact ⟨hcut ▸ hleads, fun _ _ hother => hleads.unique htop (hcut ▸ hother), hrejected, hbefore⟩

/-- **A refused schema points at the first part that is rejected**, if its keywords hold what they
should and its names can be steps of a path. -/
theorem ofSchema_points_at_rejected (hregular : Regular schema) (hnavigable : Navigable schema)
    (h : ofSchema schema = .error (.unsupported refusal)) :
    ∃ position part, PointsAt schema refusal position part := by
  have htop : Sound (.schema schema) := ⟨hregular, hnavigable⟩
  rcases bind_eq_error_iff.mp h with h | ⟨shape, hread, h⟩
  · obtain ⟨steps, position, part, hpath, hleads, hitself, hbefore⟩ := htop.exists_rejected h
    have hsteps : refusal.path.steps = steps := by rw [hpath, Path.down, Path.root, List.nil_append]
    exact ⟨position, part, pointsAt_of_leads htop (hsteps ▸ hleads) (Or.inl hitself) hbefore⟩
  · -- Every part is accepted, and still the root is not.
    have haccepted : Accepted (.schema schema) := accepted_of_read hread
    obtain ⟨shape', hshape⟩ := haccepted
    cases hread.symm.trans (hshape .root)
    split at h
    · cases h
    · next hother =>
      cases h
      refine ⟨[], .schema schema, pointsAt_of_leads htop .here (Or.inr ⟨rfl, rfl, shape, hshape, ?_⟩) ?_⟩
      · exact hother
      · exact fun earlier hlt => absurd hlt (List.not_lt_nil _)

/-- The second variant is refused for one of its types, before the next property is read. -/
theorem ofSchema_points_at_rejected_type :
    let schema : Json := .obj [("type", .str "object"), ("properties", .obj [
      ("a", .obj [("anyOf", .arr [.obj [("enum", .arr [.bool true])],
        .obj [("type", .arr [.str "string", .str "date"])]])]),
      ("b", .obj [("$ref", .str "#")])])]
    let refusal : Unsupported :=
      { construct := .typeName (.str "date")
        path := { steps := ["properties", "a", "anyOf", "1", "type", "date"] } }
    Regular schema ∧ Navigable schema ∧ ofSchema schema = .error (.unsupported refusal) ∧
      ∃ position part, PointsAt schema refusal position part := by
  intro schema refusal
  have hvalues : Sound (.schema (.obj [("enum", .arr [.bool true])])) :=
    sound_of_parts (by decide) ⟨nofun, nofun⟩ nofun nofun nofun
  have htypes : Sound (.schema (.obj [("type", .arr [.str "string", .str "date"])])) := by
    refine sound_of_parts (by decide) ⟨nofun, ?_⟩ nofun nofun nofun
    rintro types ⟨⟩
    exact List.forall_mem_cons.mpr ⟨⟨"string", rfl, by decide⟩,
      List.forall_mem_singleton.mpr ⟨"date", rfl, by decide⟩⟩
  have hchoice : Sound (.schema (.obj [("anyOf", .arr [.obj [("enum", .arr [.bool true])],
      .obj [("type", .arr [.str "string", .str "date"])]])])) := by
    refine sound_of_parts (by decide) ⟨nofun, nofun⟩ nofun nofun ?_
    rintro variants ⟨⟩
    exact List.forall_mem_cons.mpr ⟨hvalues, List.forall_mem_singleton.mpr htypes⟩
  have hreference : Sound (.schema (.obj [("$ref", .str "#")])) :=
    sound_of_parts (by decide) ⟨nofun, nofun⟩ nofun nofun nofun
  have hschema : Sound (.schema schema) := by
    refine sound_of_parts (by decide) ⟨?_, nofun⟩ ?_ nofun nofun
    · rintro properties ⟨⟩
      decide
    · rintro properties ⟨⟩
      exact List.forall_mem_cons.mpr ⟨hchoice, List.forall_mem_singleton.mpr hreference⟩
  have hdate (keys : Fields Json) (path : Path) :
      readTyped keys (.str "date") path = refuse (.typeName (.str "date")) path := by
    rw [readTyped_unknown]
    · rfl
    all_goals simp [soleType]
  have hrefused : ofSchema schema = .error (.unsupported refusal) := by
    rw [ofSchema, readSchema_type rfl rfl rfl rfl rfl, readTyped_object rfl, readProperties_present rfl,
      readEach_cons, readSchema_choice rfl rfl rfl rfl, readChoice, readVariants,
      readSchema_enum rfl rfl rfl, readVariants, readSchema_type rfl rfl rfl rfl rfl,
      readTyped_types rfl, readTypes, readTyped_string rfl, readTypes, hdate]
    rfl
  exact ⟨hschema.1, hschema.2, hrefused, ofSchema_points_at_rejected hschema.1 hschema.2 hrefused⟩

end

end Shape

end SchemaForge
