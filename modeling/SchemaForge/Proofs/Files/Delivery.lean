import Mathlib.Algebra.Order.Group.Nat
import Mathlib.Data.List.Induction
import SchemaForge.Files.Delivery
import SchemaForge.Proofs.Files.Tree

/-!
# `SchemaForge.Proofs.Files.Delivery` — what a delivery leaves behind

A delivery checks all outputs and then writes them one after another. Each change of the tree is an
attempt, and `Changes` says what an attempt comes to: the files that it should bring about when it
succeeds, and those that were there when it fails. Making directories changes no file, writing an
output changes the one file that it goes to; so a delivery has written the first few of its outputs,
all of them if it succeeds and none of them if a check turned one down.

No route goes up by `..` here: such a route leads through directories that need not be on the way
to its end.

## Contents
- **Routes.** `follow_eq_ok`: a route leads where its names say.
- **Attempts.** `Changes`, and `Changes.andThen` for one attempt after another.
- **Directories.** `makes_makeDirectories`.
- **Outputs.** `changes_replace` and `changes_write`, where a temporary file comes and goes.
- **Deliveries.** `deliver_failed` says what a failure leaves behind, `deliver_effect` what any
  delivery does. `deliver_unchanged_or_partial` is when a failed one changes nothing, and
  `deliver_keeps_earlier_output` is one that does.
-/

namespace SchemaForge

/-! ## Routes -/

/-- Where no step goes up a route leads where its names say. -/
theorem FileTree.follow_eq_ok {tree : FileTree} {here there : Location} {route : Route}
    (hup : Route.up ∉ route) (h : tree.follow here route = .ok there) : there = here ++ route := by
  induction route generalizing here with
  | nil =>
    cases h
    exact (List.append_nil _).symm
  | cons step rest ih =>
    rw [List.mem_cons, not_or] at hup
    have hnext : Route.next here step = here ++ [step] := if_neg (Ne.symm hup.1)
    rw [follow, hnext] at h
    split at h
    · split at h
      · rw [ih hup.2 h, List.append_assoc, List.singleton_append]
      · cases h
    · cases h

/-! ## Attempts -/

/-- **Whether a failure is a check's**, which is found before anything is written. -/
def WriteError.IsRejection : WriteError → Prop
  | .exists _ | .invalid _ => True
  | .blocked .. | .isDirectory _ => False

/-- The texts of the files of a tree, by their locations. -/
abbrev Texts := Location → Option String

namespace Attempt

/-- **What an attempt comes to**: the files `after` if it succeeds, and the files `before` if it
fails, for a reason that no check has found. -/
structure Changes (attempt : Attempt) (before after : Texts) : Prop where
  /-- The files that success brings about. -/
  succeeded : attempt.failure? = none → attempt.tree.textAt? = after
  /-- The files that failure leaves behind. -/
  failed : ∀ failure, attempt.failure? = some failure →
    attempt.tree.textAt? = before ∧ ¬ failure.IsRejection

variable {attempt : Attempt} {change : FileTree → Attempt} {before after : Texts}

/-- Nothing follows a failure. -/
theorem andThen_of_failed {failure : WriteError} (h : attempt.failure? = some failure) :
    attempt.andThen change = attempt := by
  rw [andThen, h]

/-- After a success the change is tried. -/
theorem andThen_of_succeeded (h : attempt.failure? = none) :
    attempt.andThen change = change attempt.tree := by
  rw [andThen, h]

/-- An attempt that changes no file, and then another one. -/
theorem Changes.andThen (h : attempt.Changes before before)
    (hchange : attempt.failure? = none → (change attempt.tree).Changes before after) :
    (attempt.andThen change).Changes before after := by
  cases hfailure : attempt.failure? with
  | none =>
    rw [andThen_of_succeeded hfailure]
    exact hchange hfailure
  | some failure =>
    rw [andThen_of_failed hfailure]
    refine ⟨fun hnone => ?_, h.failed⟩
    rw [hfailure] at hnone
    cases hnone

/-- **Whether an attempt makes a directory**, or fails to, and changes no file. -/
structure Makes (attempt : Attempt) (texts : Texts) (route : Route) : Prop where
  /-- No file is changed. -/
  changes : attempt.Changes texts texts
  /-- After a success the directory is there. -/
  made : attempt.failure? = none → attempt.tree.isDirectory route = true

end Attempt

namespace FileTree

variable {tree : FileTree} {route : Route}

/-! ## Directories -/

theorem makeDirectory_eq_ok {made : FileTree} (hup : Route.up ∉ route)
    (h : tree.makeDirectory route = .ok made) :
    made.isDirectory route = true ∧ made.textAt? = tree.textAt? := by
  rcases List.eq_nil_or_concat route with rfl | ⟨front, step, rfl⟩
  · cases h
    exact ⟨isDirectory_nil, rfl⟩
  · rw [List.concat_eq_append] at *
    rw [List.mem_append, not_or, List.mem_singleton] at hup
    have hnext : Route.next front step = front ++ [step] := if_neg (Ne.symm hup.2)
    rw [makeDirectory, List.getLast?_concat, List.dropLast_concat] at h
    dsimp only at h
    cases hfollow : tree.follow [] front with
    | error obstacle =>
      rw [hfollow] at h
      cases h
    | ok here =>
      obtain rfl : here = front := follow_eq_ok hup.1 hfollow
      rw [hfollow] at h
      dsimp only at h
      rw [hnext] at h
      split at h
      · next hhere =>
        split at h
        · next members hfound =>
          cases h
          exact ⟨isDirectory_iff.mpr ⟨members, hfound⟩, rfl⟩
        · cases h
        · next hfound =>
          cases h
          exact ⟨isDirectory_put_directory hhere, textAt?_put_directory hhere hfound⟩
      · cases h

theorem makes_attemptDirectory (hup : Route.up ∉ route) :
    (tree.attemptDirectory route).Makes tree.textAt? route := by
  unfold attemptDirectory
  split
  · next made hmade =>
    obtain ⟨hdirectory, htexts⟩ := makeDirectory_eq_ok hup hmade
    exact ⟨⟨fun _ => htexts, nofun⟩, fun _ => hdirectory⟩
  · refine ⟨⟨nofun, ?_⟩, nofun⟩
    intro failure hfailure
    cases hfailure
    exact ⟨rfl, id⟩

/-- **Making directories changes no file.** -/
theorem makes_makeDirectories (hup : Route.up ∉ route) :
    (tree.makeDirectories route).Makes tree.textAt? route := by
  induction route using List.reverseRecOn with
  | nil =>
    rw [makeDirectories]
    exact makes_attemptDirectory hup
  | append_singleton front step ih =>
    have hfront : Route.up ∉ front := fun h => hup (List.mem_append_left _ h)
    rw [makeDirectories]
    split
    · -- The directory above is missing: it is made first.
      rw [if_neg (by simp), List.dropLast_concat]
      have habove := ih hfront
      have hmakes (hsucceeded : (tree.makeDirectories front).failure? = none) :
          ((tree.makeDirectories front).tree.attemptDirectory (front ++ [step])).Makes
            tree.textAt? (front ++ [step]) := by
        rw [← habove.changes.succeeded hsucceeded]
        exact makes_attemptDirectory hup
      refine ⟨habove.changes.andThen fun h => (hmakes h).changes, ?_⟩
      cases hfailure : (tree.makeDirectories front).failure? with
      | none =>
        rw [Attempt.andThen_of_succeeded hfailure]
        exact (hmakes hfailure).made
      | some failure =>
        rw [Attempt.andThen_of_failed hfailure, hfailure]
        intro hsucceeded
        cases hsucceeded
    · exact makes_attemptDirectory hup

/-! ## Outputs -/

theorem length_le_totalLength {name : String} {names : List String} (h : name ∈ names) :
    name.length ≤ totalLength names := by
  induction names with
  | nil => exact absurd h List.not_mem_nil
  | cons first rest ih =>
    rw [totalLength]
    rcases List.mem_cons.mp h with rfl | h
    · exact Nat.le_add_right _ _
    · exact Nat.le_add_left_of_le (ih h)

theorem length_temporaryName (name : String) (taken : List String) :
    (temporaryName name taken).length = name.length + totalLength taken + 6 := by
  simp only [temporaryName, String.length_append, String.length_ofList, List.length_replicate]
  have hdot : ".".length = 1 := rfl
  have hend : ".tmp".length = 4 := rfl
  omega

/-- The name of the temporary file is new. -/
theorem temporaryName_notMem (name : String) (taken : List String) :
    temporaryName name taken ∉ taken := by
  intro h
  have hshort : (temporaryName name taken).length ≤ totalLength taken := length_le_totalLength h
  rw [length_temporaryName] at hshort
  omega

theorem ne_temporaryName (name : String) (taken : List String) :
    name ≠ temporaryName name taken := by
  intro h
  have hlength := congrArg String.length h
  rw [length_temporaryName] at hlength
  omega

/-- **A file is put in its place by way of any new name beside it**, and nothing of the temporary
file stays, also when a directory stands in that place. -/
theorem putThrough_eq {here : Location} {temporary step : String} (h : tree.isDirectory here)
    (hnew : temporary ∉ tree.namesIn here) (hstep : step ≠ temporary) (text : String) :
    tree.putThrough (here ++ [temporary]) (here ++ [step]) route text
      = if tree.isDirectory (here ++ [step]) then { tree, failure? := some (.isDirectory route) }
        else { tree := tree.put (here ++ [step]) (.file text) } := by
  have hother : ¬ here ++ [temporary] <+: here ++ [step] := by
    simpa using Ne.symm hstep
  have hdirectory : (tree.put (here ++ [temporary]) (.file text)).isDirectory (here ++ [step])
      = tree.isDirectory (here ++ [step]) := by
    rw [isDirectory_eq_look, isDirectory_eq_look, look_put_elsewhere h hother]
  rw [putThrough, hdirectory, remove_put h hnew, move_put h hnew]

/-- **Writing an output changes the one file that it goes to**, where its directory is there. -/
theorem changes_replace (hup : Route.up ∉ route) (h : tree.isDirectory route.dropLast)
    (text : String) :
    (tree.replace route text).Changes tree.textAt?
      (Function.update tree.textAt? route (some text)) := by
  rcases List.eq_nil_or_concat route with rfl | ⟨front, step, rfl⟩
  · refine ⟨nofun, ?_⟩
    intro failure hfailure
    cases hfailure
    exact ⟨rfl, id⟩
  · rw [List.concat_eq_append] at *
    rw [List.dropLast_concat] at h
    rw [List.mem_append, not_or, List.mem_singleton] at hup
    have hnext : Route.next front step = front ++ [step] := if_neg (Ne.symm hup.2)
    rw [replace, List.getLast?_concat, List.dropLast_concat]
    cases hfollow : tree.follow [] front with
    | error obstacle =>
      refine ⟨nofun, ?_⟩
      intro failure hfailure
      cases hfailure
      exact ⟨rfl, id⟩
    | ok here =>
      obtain rfl : here = front := follow_eq_ok hup.1 hfollow
      have hnew := temporaryName_notMem step (tree.namesIn here)
      dsimp only
      rw [hnext, putThrough_eq h hnew (ne_temporaryName step _)]
      split
      · refine ⟨nofun, ?_⟩
        intro failure hfailure
        cases hfailure
        exact ⟨rfl, id⟩
      · next hfile => exact ⟨fun _ => textAt?_put_file h (by simpa using hfile), nofun⟩

/-- **Writing an output changes the one file that it goes to.** -/
theorem changes_write {output : Output} (hup : Route.up ∉ output.route) :
    (tree.write output).Changes tree.textAt?
      (Function.update tree.textAt? output.route (some output.text)) := by
  have hfront : Route.up ∉ output.route.dropLast := fun h =>
    hup ((List.dropLast_sublist _).subset h)
  have hmakes := @makes_makeDirectories tree output.route.dropLast hfront
  refine hmakes.changes.andThen fun hsucceeded => ?_
  rw [← hmakes.changes.succeeded hsucceeded]
  exact changes_replace hup (hmakes.made hsucceeded) output.text

/-! ## Deliveries -/

/-- **The texts of files when outputs have been written**, one after another. -/
def textsAfter (texts : Texts) (outputs : List Output) : Texts :=
  outputs.foldl (fun texts output => Function.update texts output.route (some output.text)) texts

variable {outputs : List Output} {policy : Policy}

/-- When all outputs are written the files are the outputs' and those that were there. -/
theorem textAt?_writeAll (hup : ∀ output ∈ outputs, Route.up ∉ output.route)
    (h : (tree.writeAll outputs).failure? = none) :
    (tree.writeAll outputs).tree.textAt? = textsAfter tree.textAt? outputs := by
  induction outputs generalizing tree with
  | nil => rfl
  | cons output rest ih =>
    have hwrite := @changes_write tree output (hup output List.mem_cons_self)
    rw [writeAll] at h ⊢
    cases hfailure : (tree.write output).failure? with
    | none =>
      rw [Attempt.andThen_of_succeeded hfailure] at h ⊢
      rw [ih (fun other hother => hup other (List.mem_cons_of_mem _ hother)) h,
        hwrite.succeeded hfailure]
      rfl
    | some failure =>
      rw [Attempt.andThen_of_failed hfailure, hfailure] at h
      cases h

/-- When not all outputs are written there is a first one that cannot be. -/
theorem writeAll_failed {failure : WriteError}
    (h : (tree.writeAll outputs).failure? = some failure) :
    ∃ written failed rest, outputs = written ++ failed :: rest ∧
      (tree.writeAll written).failure? = none ∧
      (tree.writeAll outputs) = (tree.writeAll written).tree.write failed := by
  induction outputs generalizing tree with
  | nil => cases h
  | cons output rest ih =>
    rw [writeAll] at h ⊢
    cases hfailure : (tree.write output).failure? with
    | none =>
      rw [Attempt.andThen_of_succeeded hfailure] at h ⊢
      obtain ⟨written, failed, others, rfl, hwritten, heq⟩ := ih h
      have hfirst : tree.writeAll (output :: written) = (tree.write output).tree.writeAll written :=
        Attempt.andThen_of_succeeded hfailure
      refine ⟨output :: written, failed, others, rfl, ?_, ?_⟩
      · rw [hfirst, hwritten]
      · rw [hfirst, heq]
    | some other =>
      rw [Attempt.andThen_of_failed hfailure]
      exact ⟨[], output, rest, rfl, rfl, rfl⟩

/-- What the checks find is a rejection. -/
theorem isRejection_of_check {failure : WriteError} (h : tree.check policy outputs = some failure) :
    failure.IsRejection := by
  obtain ⟨output, -, hfound⟩ := List.exists_of_findSome?_eq_some h
  unfold checkOutput at hfound
  split at hfound
  · cases hfound
    trivial
  · split at hfound
    · obtain ⟨defect, -, rfl⟩ := Option.map_eq_some_iff.mp hfound
      trivial
    · cases hfound

/-- **What a failed delivery leaves behind.** If a check has turned an output down the tree is as it
was. Otherwise there is a first output that could not be written: those in front of it have been
written, and no other file has changed. -/
theorem deliver_failed (hup : ∀ output ∈ outputs, Route.up ∉ output.route) {failure : WriteError}
    (h : (tree.deliver policy outputs).failure? = some failure) :
    (failure.IsRejection → (tree.deliver policy outputs).tree = tree) ∧
    (¬ failure.IsRejection → ∃ written failed rest, outputs = written ++ failed :: rest ∧
      (tree.writeAll written).failure? = none ∧
      ((tree.writeAll written).tree.write failed).failure? = some failure ∧
      (tree.deliver policy outputs).tree.textAt? = textsAfter tree.textAt? written) := by
  unfold deliver at h ⊢
  cases hcheck : tree.check policy outputs with
  | some found =>
    rw [hcheck] at h
    cases h
    exact ⟨fun _ => rfl, fun hnot => absurd (isRejection_of_check hcheck) hnot⟩
  | none =>
    rw [hcheck] at h
    dsimp only at h ⊢
    obtain ⟨written, failed, rest, rfl, hwritten, heq⟩ := writeAll_failed h
    have hwrite := @changes_write (tree.writeAll written).tree failed
      (hup failed (List.mem_append_right _ List.mem_cons_self))
    rw [heq] at h ⊢
    obtain ⟨htexts, hnot⟩ := hwrite.failed failure h
    refine ⟨fun hrejection => absurd hrejection hnot, fun _ => ?_⟩
    refine ⟨written, failed, rest, rfl, hwritten, h, ?_⟩
    rw [htexts, textAt?_writeAll (fun output houtput =>
      hup output (List.mem_append_left _ houtput)) hwritten]

/-- **The exact effect of a delivery.** The files afterwards are those before and the first `k`
outputs, a later output winning over an earlier one; all outputs are written if and only if the
delivery succeeds, and none is when a check turned one down. -/
theorem deliver_effect (tree : FileTree) (policy : Policy) (outputs : List Output)
    (hup : ∀ output ∈ outputs, Route.up ∉ output.route) :
    ∃ k ≤ outputs.length,
      (∀ location, (tree.deliver policy outputs).tree.textAt? location
        = textsAfter tree.textAt? (outputs.take k) location) ∧
      (k = outputs.length ↔ (tree.deliver policy outputs).failure? = none) ∧
      ∀ failure, (tree.deliver policy outputs).failure? = some failure →
        failure.IsRejection → k = 0 := by
  cases h : (tree.deliver policy outputs).failure? with
  | none =>
    refine ⟨outputs.length, le_rfl, ?_, by simp, nofun⟩
    intro location
    unfold deliver at h ⊢
    cases hcheck : tree.check policy outputs with
    | some found =>
      rw [hcheck] at h
      cases h
    | none =>
      rw [hcheck] at h
      rw [List.take_length]
      exact congrFun (textAt?_writeAll hup h) location
  | some failure =>
    obtain ⟨hrejected, hwriting⟩ := deliver_failed hup h
    by_cases hrejection : failure.IsRejection
    · have hsome : outputs ≠ [] := by
        rintro rfl
        cases h
      have hlength : outputs.length ≠ 0 := fun hzero => hsome (List.eq_nil_of_length_eq_zero hzero)
      refine ⟨0, Nat.zero_le _, ?_, ?_, fun _ _ _ => rfl⟩
      · intro location
        rw [hrejected hrejection]
        rfl
      · exact iff_of_false (Ne.symm hlength) nofun
    · obtain ⟨written, failed, rest, rfl, -, -, htexts⟩ := hwriting hrejection
      refine ⟨written.length, by simp, ?_, ?_, ?_⟩
      · intro location
        rw [htexts, List.take_left]
      · exact iff_of_false (by simp) nofun
      · intro other hother hrejected
        cases hother
        exact absurd hrejected hrejection

/-- A file is written twice, and then another one that has the first among its directories: the
delivery stops there. -/
theorem deliver_effect_of_nested :
    let tree : FileTree := { members := [("old.ts", .file "old")] }
    let outputs : List Output := [{ route := ["a.ts"], text := "A", validate? := some false },
      { route := ["a.ts"], text := "B", validate? := some false },
      { route := ["a.ts", "b.ts"], text := "C", validate? := some false }]
    (∀ output ∈ outputs, Route.up ∉ output.route) ∧
      ∃ k ≤ outputs.length,
        (∀ location, (tree.deliver {} outputs).tree.textAt? location
          = textsAfter tree.textAt? (outputs.take k) location) ∧
        (k = outputs.length ↔ (tree.deliver {} outputs).failure? = none) ∧
        ∀ failure, (tree.deliver {} outputs).failure? = some failure →
          failure.IsRejection → k = 0 := by
  intro tree outputs
  have hup : ∀ output ∈ outputs, Route.up ∉ output.route := by decide
  exact ⟨hup, deliver_effect tree {} outputs hup⟩

/-- **When a failed delivery changes nothing.** If a check has turned an output down the tree is as
it was. Otherwise the files are as they were unless some outputs have been written before the one
that could not be, and then just those are new. -/
theorem deliver_unchanged_or_partial
    (hup : ∀ output ∈ outputs, Route.up ∉ output.route) {failure : WriteError}
    (h : (tree.deliver policy outputs).failure? = some failure) :
    (failure.IsRejection → (tree.deliver policy outputs).tree = tree) ∧
    ((tree.deliver policy outputs).tree.textAt? = tree.textAt? ∨
      ∃ written failed rest, outputs = written ++ failed :: rest ∧ written ≠ [] ∧
        ¬ failure.IsRejection ∧ (tree.writeAll written).failure? = none ∧
        ((tree.writeAll written).tree.write failed).failure? = some failure ∧
        (tree.deliver policy outputs).tree.textAt? = textsAfter tree.textAt? written) := by
  obtain ⟨hrejected, hwriting⟩ := deliver_failed hup h
  refine ⟨hrejected, ?_⟩
  by_cases hrejection : failure.IsRejection
  · exact Or.inl (congrArg textAt? (hrejected hrejection))
  · obtain ⟨written, failed, rest, houtputs, hwritten, hfailed, htexts⟩ := hwriting hrejection
    by_cases hnone : written = []
    · subst hnone
      exact Or.inl htexts
    · exact Or.inr ⟨written, failed, rest, houtputs, hnone, hrejection, hwritten, hfailed, htexts⟩

/-- An output that is there already is turned down, and the one in front of it is not written. -/
theorem deliver_unchanged_of_existing :
    let tree : FileTree := { members := [("old.ts", .file "old")] }
    let outputs : List Output := [{ route := ["a.ts"], text := "A", validate? := some false },
      { route := ["old.ts"], text := "B", validate? := some false }]
    (∀ output ∈ outputs, Route.up ∉ output.route) ∧
      (tree.deliver {} outputs).failure? = some (.exists ["old.ts"]) ∧
      (tree.deliver {} outputs).tree = tree := by
  intro tree outputs
  have hup : ∀ output ∈ outputs, Route.up ∉ output.route := by decide
  have hfailure : (tree.deliver {} outputs).failure? = some (.exists ["old.ts"]) := rfl
  exact ⟨hup, hfailure, (deliver_unchanged_or_partial hup hfailure).1 trivial⟩

/-- **A delivery that fails is not undone.** Nothing stands below a file, so no check finds the second
output; the first one is there when the second one cannot be written. -/
theorem deliver_keeps_earlier_output :
    let tree : FileTree := { members := [("f", .file "x")] }
    let outputs : List Output := [{ route := ["a.ts"], text := "A", validate? := some false },
      { route := ["f", "b.ts"], text := "B", validate? := some false }]
    (∀ output ∈ outputs, Route.up ∉ output.route) ∧
      (tree.deliver {} outputs).failure?.isSome = true ∧
      tree.textAt? ["a.ts"] = none ∧
      (tree.deliver {} outputs).tree.textAt? ["a.ts"] = some "A" := by
  decide +kernel

end FileTree

end SchemaForge
