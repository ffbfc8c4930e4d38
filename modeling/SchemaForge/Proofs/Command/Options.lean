import Mathlib.Data.List.Basic
import SchemaForge.Command.Options

/-!
# `SchemaForge.Proofs.Command.Options` — what a command line can ask for

Files are overwritten only on request, and the request is a word of its own: no other word gives that
switch, not even as a part of a cluster, though `--force` may also stand as the value of an option, and
then it is no request. The places that a command line names are resolved from its directory, so where
that has no step up in it the outputs have none.

## Contents
- **Requests.** `AsksToOverwrite`, and `mem_of_asksToOverwrite` for the word that it takes.
- **Places.** `up_notMem_locate`.
- **Options.** `ofWords?_eq_some`, `asksToOverwrite_of_force`, `up_notMem_output`.
-/

namespace SchemaForge.Command

/-! ## Requests -/

/-- **Whether the words of a command line ask for files to be overwritten.** -/
def AsksToOverwrite (words : List String) : Prop :=
  ∃ given, Given.read? words = some given ∧ .force ∈ given.switches

/-- The switches that a word gives. -/
def Word.switches : Word → List Switch
  | .complete given | .awaiting given _ => given.switches
  | .ending | .unknown => []

theorem eq_verbose_of_ofShort? {c : Char} {s : Switch} (h : Kind.ofShort? c = some (.switch s)) :
    s = .verbose := by
  unfold Kind.ofShort? at h
  split_ifs at h <;> cases h
  rfl

theorem eq_of_ofLong? {spelling : String} (h : Kind.ofLong? spelling = some (.switch .force)) :
    spelling = "--force" := by
  unfold Kind.ofLong? at h
  split_ifs at h with _ _ _ _ hforce <;> cases h
  exact hforce

/-- No cluster asks for files to be overwritten. -/
theorem force_notMem_cluster {given : Given} (h : .force ∉ given.switches) (cs : List Char) :
    .force ∉ (cluster given cs).switches := by
  induction cs generalizing given with
  | nil => exact h
  | cons c rest ih =>
    rw [cluster]
    split
    · exact List.not_mem_nil
    · next s hs =>
      obtain rfl := eq_verbose_of_ofShort? hs
      exact ih (by simp [Given.append, h])
    · split
      · exact h
      · simpa [Word.switches, Given.append] using h

/-- A word without an equals sign is all spelling. -/
theorem eq_of_splitValue {word : List Char} {spelling : String}
    (h : splitValue word = (spelling, none)) : String.ofList word = spelling := by
  rw [splitValue, Prod.mk.injEq] at h
  obtain ⟨hspelling, hvalue⟩ := h
  have hrest : word.dropWhile (· ≠ '=') = [] := by
    cases hdrop : word.dropWhile (· ≠ '=') with
    | nil => rfl
    | cons c value =>
      rw [hdrop] at hvalue
      cases hvalue
  rw [← hspelling]
  conv_lhs => rw [← List.takeWhile_append_dropWhile (p := (· ≠ '=')) (l := word), hrest]
  rw [List.append_nil]

/-- The only word that asks for files to be overwritten. -/
theorem eq_of_force_mem {word : String} (h : .force ∈ (Word.of word).switches) :
    word = "--force" := by
  unfold Word.of at h
  split at h
  · cases h
  · next rest _ hword =>
    cases hsplit : splitValue ('-' :: '-' :: rest) with
    | mk spelling value? =>
      rw [hsplit] at h
      dsimp only at h
      cases hkind : Kind.ofLong? spelling with
      | none =>
        rw [hkind] at h
        cases h
      | some kind =>
        rw [hkind] at h
        cases kind with
        | parameter p => cases value? <;> cases h
        | switch s =>
          cases value? with
          | some value => cases h
          | none =>
            obtain rfl : Switch.force = s := List.mem_singleton.mp h
            rw [← eq_of_ofLong? hkind, ← eq_of_splitValue hsplit, ← hword, String.ofList_toList]
  · exact absurd h (force_notMem_cluster List.not_mem_nil _)
  · cases h

/-- What is given in the end was given before or by a word. -/
theorem force_mem_of_readFrom? {given result : Given} {awaited : Option Parameter}
    {words : List String} (h : given.readFrom? awaited words = some result)
    (hforce : .force ∈ result.switches) : .force ∈ given.switches ∨ "--force" ∈ words := by
  induction words generalizing given awaited with
  | nil =>
    cases awaited with
    | none =>
      cases h
      exact Or.inl hforce
    | some p => cases h
  | cons word rest ih =>
    cases awaited with
    | some p =>
      rw [Given.readFrom?] at h
      rcases ih h with hmem | hmem
      · exact Or.inl (by simpa [Given.append] using hmem)
      · exact Or.inr (List.mem_cons_of_mem _ hmem)
    | none =>
      -- A word that gives the switch is the request itself.
      have hmore {more : Given} (hword : (Word.of word).switches = more.switches)
          (hmem : .force ∈ (given.append more).switches ∨ "--force" ∈ rest) :
          .force ∈ given.switches ∨ "--force" ∈ word :: rest := by
        rcases hmem with hmem | hmem
        · rcases List.mem_append.mp hmem with hmem | hmem
          · exact Or.inl hmem
          · rw [← hword] at hmem
            exact Or.inr (List.mem_cons.mpr (Or.inl (eq_of_force_mem hmem).symm))
        · exact Or.inr (List.mem_cons_of_mem _ hmem)
      rw [Given.readFrom?] at h
      cases hword : Word.of word with
      | ending =>
        rw [hword] at h
        cases h
        exact Or.inl (by simpa [Given.append] using hforce)
      | complete more =>
        rw [hword] at h
        exact hmore (congrArg Word.switches hword) (ih h)
      | awaiting more p =>
        rw [hword] at h
        exact hmore (congrArg Word.switches hword) (ih h)
      | unknown =>
        rw [hword] at h
        cases h

/-- **Only the word `--force` asks for files to be overwritten.** -/
theorem mem_of_asksToOverwrite {words : List String} (h : AsksToOverwrite words) :
    "--force" ∈ words := by
  obtain ⟨given, hread, hforce⟩ := h
  rcases force_mem_of_readFrom? hread hforce with hnone | hmem
  · cases hnone
  · exact hmem

/-! ## Places -/

variable {s : Surroundings}

theorem up_notMem_next {here : Location} (h : Route.up ∉ here) (step : String) :
    Route.up ∉ Route.next here step := by
  unfold Route.next
  split
  · exact fun hmem => h ((List.dropLast_sublist _).subset hmem)
  · next hstep =>
    rw [List.mem_append, List.mem_singleton, not_or]
    exact ⟨h, Ne.symm hstep⟩

theorem up_notMem_resolve {here : Location} (h : Route.up ∉ here) (route : Route) :
    Route.up ∉ Route.resolve here route := by
  induction route generalizing here with
  | nil => exact h
  | cons step rest ih => exact ih (up_notMem_next h step)

/-- A place is resolved: the way to it does not go up. -/
theorem up_notMem_locate (h : Route.up ∉ s.directory) (text : String) :
    Route.up ∉ s.locate text := by
  unfold Surroundings.locate
  split
  · exact up_notMem_resolve List.not_mem_nil _
  · exact up_notMem_resolve h _

/-! ## Options -/

variable {words : List String} {options : Options}

/-- Where the options on a command line come from. -/
theorem ofWords?_eq_some (h : Options.ofWords? s words = some options) :
    ∃ given, Given.read? words = some given ∧
      options.force = given.switches.contains .force ∧
      (∃ text, options.output = s.locate text) ∧
      ∃ text?, options.typesOutput? = Option.map s.locate text? := by
  unfold Options.ofWords? at h
  split at h
  · cases h
  obtain ⟨given, hread, h⟩ := Option.bind_eq_some_iff.mp h
  refine ⟨given, hread, ?_⟩
  unfold Options.ofGiven? at h
  split at h
  · simp only [Option.bind_eq_bind, Option.bind_eq_some_iff] at h
    obtain ⟨dialect, -, config?, -, source?, -, schema, -, h⟩ := h
    cases h
    exact ⟨rfl, ⟨_, rfl⟩, _, rfl⟩
  · cases h

/-- Without a request no files may be overwritten. -/
theorem asksToOverwrite_of_force (h : Options.ofWords? s words = some options)
    (hforce : options.force = true) : AsksToOverwrite words := by
  obtain ⟨given, hread, heq, -, -⟩ := ofWords?_eq_some h
  rw [heq] at hforce
  exact ⟨given, hread, by simpa using hforce⟩

/-- The ways to the outputs of a command do not go up. -/
theorem up_notMem_output (hdirectory : Route.up ∉ s.directory)
    (h : Options.ofWords? s words = some options) :
    Route.up ∉ options.output ∧
      ∀ location, options.typesOutput? = some location → Route.up ∉ location := by
  obtain ⟨given, -, -, ⟨text, houtput⟩, text?, htypes⟩ := ofWords?_eq_some h
  refine ⟨houtput ▸ up_notMem_locate hdirectory text, ?_⟩
  intro location hlocation
  rw [htypes] at hlocation
  obtain ⟨typesText, -, rfl⟩ := Option.map_eq_some_iff.mp hlocation
  exact up_notMem_locate hdirectory typesText

end SchemaForge.Command
