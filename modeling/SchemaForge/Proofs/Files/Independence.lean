import Mathlib.Data.List.Infix
import Mathlib.Data.List.Pairwise
import SchemaForge.Proofs.Files.Retention

/-!
# `SchemaForge.Proofs.Files.Independence` — independent outputs can be delivered in any order

Two outputs are independent when neither goes to the place of the other or below it. They may share
directories: whichever is written first makes those that both need.

Whether an output can be written depends on two things, that no file is on its way and that no
directory is in its place. Writing an independent output changes neither, since it makes directories on
its own way only, and a file at its end. So independent outputs are all written if and only if each of
them can be written into the tree as it was, and there the order plays no part.

## Contents
- **Ways.** `Open`, a way without files on it, and `makeDirectories_of_open`.
- **Outputs.** `Writable`, and `failure?_write_iff`.
- **Independence.** `Independent`, `writable_write_iff` for one output after another, and
  `failure?_writeAll_iff` for all of them.
- **Orders.** `textsAfter_perm`, and the result, `deliver_perm`.
-/

namespace SchemaForge

namespace FileTree

variable {tree : FileTree} {route : Route}

/-! ## Ways -/

/-- **Whether no file is on the way** along a route or at its end. -/
def Open (tree : FileTree) (route : Route) : Prop :=
  ∀ front, front <+: route → tree.textAt? front = none

instance : Decidable (tree.Open route) :=
  decidable_of_iff (∀ front ∈ route.inits, tree.textAt? front = none)
    (forall_congr' fun front => by rw [List.mem_inits])

theorem Open.of_prefix {front : Route} (h : tree.Open route) (hfront : front <+: route) :
    tree.Open front := fun before hbefore => h before (hbefore.trans hfront)

/-- The way to a directory leads through directories. -/
theorem open_of_isDirectory (h : tree.isDirectory route = true) : tree.Open route := by
  rintro front ⟨back, rfl⟩
  obtain ⟨members, hmembers⟩ := isDirectory_iff.mp h
  rw [find?, Entry.find?_append, ← find?] at hmembers
  cases hfront : tree.find? front with
  | none => rw [textAt?, hfront]
  | some entry =>
    cases entry with
    | directory others => rw [textAt?, hfront]
    | file text =>
      rw [hfront] at hmembers
      cases back with
      | nil => cases hmembers
      | cons step rest => cases hmembers

/-- Where no file is there is a directory or nothing. -/
theorem find?_eq_none (htext : tree.textAt? route = none) (h : tree.isDirectory route = false) :
    tree.find? route = none := by
  unfold textAt? at htext
  unfold isDirectory at h
  cases hfound : tree.find? route with
  | none => rfl
  | some entry =>
    rw [hfound] at htext h
    cases entry with
    | file text => cases htext
    | directory members => cases h

/-- A route to a directory can be followed. -/
theorem follow_of_isDirectory (hup : Route.up ∉ route) {here : Location}
    (h : tree.isDirectory (here ++ route) = true) : tree.follow here route = .ok (here ++ route) := by
  induction route generalizing here with
  | nil =>
    rw [List.append_nil]
    rfl
  | cons step rest ih =>
    rw [List.mem_cons, not_or] at hup
    have hnext : Route.next here step = here ++ [step] := if_neg (Ne.symm hup.1)
    have hsplit : here ++ step :: rest = here ++ [step] ++ rest := by simp
    rw [hsplit] at h ⊢
    -- Both where the step starts and where it ends there is a directory.
    have hthere : tree.isDirectory here = true ∧ (tree.find? (here ++ [step])).isSome = true := by
      obtain ⟨members, hmembers⟩ := isDirectory_iff.mp h
      rw [find?, Entry.find?_append, ← find?] at hmembers
      obtain ⟨entry, hentry, -⟩ := Option.bind_eq_some_iff.mp hmembers
      refine ⟨?_, by rw [hentry]; rfl⟩
      rw [find?, Entry.find?_append, ← find?] at hentry
      obtain ⟨first, hfirst, hstep⟩ := Option.bind_eq_some_iff.mp hentry
      obtain ⟨others, inner, rfl, -, -⟩ := Entry.find?_cons_eq_some hstep
      exact isDirectory_iff.mpr ⟨others, hfirst⟩
    rw [follow, hnext, if_pos hthere.1, if_pos hthere.2, ih hup.2 h]

/-- On a way without files a step can only be missing. -/
theorem follow_of_open (hup : Route.up ∉ route) {here : Location}
    (hopen : tree.Open (here ++ route)) (hhere : tree.isDirectory here = true)
    (h : tree.isDirectory (here ++ route) = false) : tree.follow here route = .error .missing := by
  induction route generalizing here with
  | nil =>
    rw [List.append_nil, hhere] at h
    cases h
  | cons step rest ih =>
    rw [List.mem_cons, not_or] at hup
    have hnext : Route.next here step = here ++ [step] := if_neg (Ne.symm hup.1)
    have hsplit : here ++ step :: rest = here ++ [step] ++ rest := by simp
    rw [hsplit] at hopen h
    rw [follow, hnext, if_pos hhere]
    by_cases hstep : tree.isDirectory (here ++ [step]) = true
    · obtain ⟨members, hmembers⟩ := isDirectory_iff.mp hstep
      rw [hmembers]
      exact ih hup.2 hopen hstep h
    · have hnothing := find?_eq_none (hopen _ (List.prefix_append _ _)) (by simpa using hstep)
      rw [hnothing]
      rfl

/-- The last directory of an open way is there or can be made, once the one above it is there. -/
theorem attemptDirectory_of_open {front : Route} {step : String}
    (hup : Route.up ∉ front ++ [step]) (htext : tree.textAt? (front ++ [step]) = none)
    (hfront : tree.isDirectory front = true) :
    (tree.attemptDirectory (front ++ [step])).failure? = none ∧
      ∀ location ≠ front ++ [step],
        (tree.attemptDirectory (front ++ [step])).tree.look location = tree.look location := by
  rw [List.mem_append, not_or, List.mem_singleton] at hup
  have hnext : Route.next front step = front ++ [step] := if_neg (Ne.symm hup.2)
  rw [attemptDirectory, makeDirectory, List.getLast?_concat, List.dropLast_concat]
  dsimp only
  rw [follow_of_isDirectory hup.1 (show tree.isDirectory ([] ++ front) = true from hfront)]
  dsimp only [List.nil_append]
  rw [if_pos hfront, hnext]
  by_cases hthere : tree.isDirectory (front ++ [step]) = true
  · obtain ⟨members, hmembers⟩ := isDirectory_iff.mp hthere
    rw [hmembers]
    exact ⟨rfl, fun _ _ => rfl⟩
  · have hnothing := find?_eq_none htext (by simpa using hthere)
    rw [hnothing]
    refine ⟨rfl, fun location hlocation => ?_⟩
    rw [look_put_directory hfront hnothing, Function.update_of_ne hlocation]

/-- **Along an open way directories can be made**, and nothing else looks different then. -/
theorem makeDirectories_of_open (hup : Route.up ∉ route) (hopen : tree.Open route) :
    (tree.makeDirectories route).failure? = none ∧
      ∀ location, ¬ location <+: route →
        (tree.makeDirectories route).tree.look location = tree.look location := by
  induction route using List.reverseRecOn with
  | nil =>
    rw [makeDirectories]
    exact ⟨rfl, fun _ _ => rfl⟩
  | append_singleton front step ih =>
    have hfront : Route.up ∉ front := fun h => hup (List.mem_append_left _ h)
    have htext : tree.textAt? (front ++ [step]) = none := hopen _ (List.prefix_refl _)
    have hne {location : Location} (h : ¬ location <+: front ++ [step]) :
        location ≠ front ++ [step] := fun heq => h (heq ▸ List.prefix_refl _)
    rw [makeDirectories]
    by_cases habove : tree.isDirectory front = true
    · -- The directory above is there, so no step is missing.
      obtain ⟨hsucceeds, hlook⟩ := attemptDirectory_of_open hup htext habove
      have hmade : tree.makeDirectory (front ++ [step]) ≠ .error .missing := by
        intro hmissing
        rw [attemptDirectory, hmissing] at hsucceeds
        cases hsucceeds
      split
      · next hmissing => exact absurd hmissing hmade
      · exact ⟨hsucceeds, fun location hlocation => hlook location (hne hlocation)⟩
    · -- It is made first, and then there is still nothing at the end of the way.
      have hfollow : tree.follow [] front = .error .missing :=
        follow_of_open hfront (hopen.of_prefix (List.prefix_append _ _)) isDirectory_nil
          (by simpa using habove)
      have hmissing : tree.makeDirectory (front ++ [step]) = .error .missing := by
        rw [makeDirectory, List.getLast?_concat, List.dropLast_concat]
        dsimp only
        rw [hfollow]
      obtain ⟨hsucceeds, hlook⟩ := ih hfront (hopen.of_prefix (List.prefix_append _ _))
      have hmakes := @makes_makeDirectories tree front hfront
      have htext' : (tree.makeDirectories front).tree.textAt? (front ++ [step]) = none := by
        rw [hmakes.changes.succeeded hsucceeds, htext]
      obtain ⟨hsucceeds', hlook'⟩ := attemptDirectory_of_open hup htext' (hmakes.made hsucceeds)
      rw [hmissing, if_neg (by simp), List.dropLast_concat, Attempt.andThen_of_succeeded hsucceeds]
      refine ⟨hsucceeds', fun location hlocation => ?_⟩
      rw [hlook' location (hne hlocation), hlook location fun h =>
        hlocation (h.trans (List.prefix_append _ _))]

/-! ## Outputs -/

/-- **Whether a file can be written** at the end of a route: no file is on the way, and no directory is
in its place. -/
structure Writable (tree : FileTree) (route : Route) : Prop where
  /-- There is a last step, which names the file. -/
  named : route ≠ []
  /-- No file is on the way. -/
  way : tree.Open route.dropLast
  /-- No directory is in its place. -/
  place : tree.isDirectory route = false

theorem writable_iff : tree.Writable route ↔
    route ≠ [] ∧ tree.Open route.dropLast ∧ tree.isDirectory route = false :=
  ⟨fun h => ⟨h.named, h.way, h.place⟩, fun h => ⟨h.1, h.2.1, h.2.2⟩⟩

instance : Decidable (tree.Writable route) := decidable_of_iff _ writable_iff.symm

/-- A file is put in its place where the directory is there, unless a directory is in that place. -/
theorem replace_of_isDirectory {front : Route} {step text : String}
    (hup : Route.up ∉ front ++ [step]) (hfront : tree.isDirectory front = true) :
    tree.replace (front ++ [step]) text
      = if tree.isDirectory (front ++ [step])
        then { tree, failure? := some (.isDirectory (front ++ [step])) }
        else { tree := tree.put (front ++ [step]) (.file text) } := by
  rw [List.mem_append, not_or, List.mem_singleton] at hup
  have hnext : Route.next front step = front ++ [step] := if_neg (Ne.symm hup.2)
  rw [replace, List.getLast?_concat, List.dropLast_concat]
  rw [follow_of_isDirectory hup.1 (show tree.isDirectory ([] ++ front) = true from hfront)]
  dsimp only [List.nil_append]
  rw [hnext, putThrough_eq hfront (temporaryName_notMem step _) (ne_temporaryName step _)]

section

variable {output : Output}

/-- What comes of writing an output when the directories on its way are there. -/
theorem write_of_open {front : Route} {step : String} (hroute : output.route = front ++ [step])
    (hup : Route.up ∉ output.route) (hopen : tree.Open front) :
    tree.write output
      = (tree.makeDirectories front).tree.replace output.route output.text ∧
    (tree.makeDirectories front).tree.isDirectory front = true ∧
    (tree.makeDirectories front).tree.look output.route = tree.look output.route := by
  have hfront : Route.up ∉ front := fun h => hup (hroute ▸ List.mem_append_left _ h)
  obtain ⟨hsucceeds, hlook⟩ := makeDirectories_of_open hfront hopen
  refine ⟨?_, (makes_makeDirectories hfront).made hsucceeds, hlook _ ?_⟩
  · rw [write, hroute, List.dropLast_concat, Attempt.andThen_of_succeeded hsucceeds]
  · rw [hroute]
    intro hbefore
    have hlength := hbefore.length_le
    rw [List.length_append, List.length_singleton] at hlength
    omega

/-- **An output is written if and only if it can be.** -/
theorem failure?_write_iff (hup : Route.up ∉ output.route) :
    (tree.write output).failure? = none ↔ tree.Writable output.route := by
  rcases List.eq_nil_or_concat output.route with hroute | ⟨front, step, hroute⟩
  · -- A route without steps leads to the root, which is a directory.
    refine iff_of_false (fun h => ?_) fun h => h.named hroute
    rw [write, hroute, List.dropLast_nil, makeDirectories] at h
    cases h
  rw [List.concat_eq_append] at hroute
  constructor
  · intro h
    have hopen : tree.Open front := by
      have hfront : Route.up ∉ front := fun h => hup (hroute ▸ List.mem_append_left _ h)
      have hmakes := @makes_makeDirectories tree front hfront
      have hsucceeds : (tree.makeDirectories front).failure? = none := by
        rw [write, hroute, List.dropLast_concat] at h
        cases hfailure : (tree.makeDirectories front).failure? with
        | none => rfl
        | some failure =>
          rw [Attempt.andThen_of_failed hfailure, hfailure] at h
          cases h
      have hthere := open_of_isDirectory (hmakes.made hsucceeds)
      rwa [Open, hmakes.changes.succeeded hsucceeds] at hthere
    refine ⟨by simp [hroute], by rwa [hroute, List.dropLast_concat], ?_⟩
    obtain ⟨hwrite, hmade, hlook⟩ := write_of_open hroute hup hopen
    rw [isDirectory_eq_look, ← hlook, ← isDirectory_eq_look]
    by_contra hdirectory
    rw [Bool.not_eq_false, hroute] at hdirectory
    rw [hwrite, hroute, replace_of_isDirectory (hroute ▸ hup) hmade, if_pos hdirectory] at h
    cases h
  · rintro ⟨-, hway, hplace⟩
    rw [hroute, List.dropLast_concat] at hway
    obtain ⟨hwrite, hmade, hlook⟩ := write_of_open hroute hup hway
    rw [isDirectory_eq_look, ← hlook, ← isDirectory_eq_look, hroute] at hplace
    rw [hwrite, hroute, replace_of_isDirectory (hroute ▸ hup) hmade, hplace]
    rfl

/-- **Writing an output changes no look** but of what is on its way. -/
theorem look_write (hup : Route.up ∉ output.route) (h : tree.Writable output.route)
    {location : Location} (hlocation : ¬ location <+: output.route) :
    (tree.write output).tree.look location = tree.look location := by
  rcases List.eq_nil_or_concat output.route with hroute | ⟨front, step, hroute⟩
  · exact absurd hroute h.named
  rw [List.concat_eq_append] at hroute
  obtain ⟨-, hway, hplace⟩ := h
  rw [hroute, List.dropLast_concat] at hway
  obtain ⟨hwrite, hmade, hlook⟩ := write_of_open hroute hup hway
  rw [isDirectory_eq_look, ← hlook, ← isDirectory_eq_look] at hplace
  have hfront : Route.up ∉ front := fun hmem => hup (hroute ▸ List.mem_append_left _ hmem)
  have hne : location ≠ front ++ [step] := by
    rintro rfl
    exact hlocation (hroute ▸ List.prefix_refl _)
  rw [hroute] at hplace hlocation
  rw [hwrite, hroute, replace_of_isDirectory (hroute ▸ hup) hmade, hplace]
  show ((tree.makeDirectories front).tree.put (front ++ [step]) (.file output.text)).look location = _
  rw [look_put_file hmade hplace, Function.update_of_ne hne,
    (makeDirectories_of_open hfront hway).2 location fun hbefore =>
      hlocation (hbefore.trans (List.prefix_append _ _))]

end

/-! ## Independence -/

end FileTree

/-- **Whether two outputs are independent**: neither goes to the place of the other or below it. -/
def Output.Independent (output other : Output) : Prop :=
  ¬ output.route <+: other.route ∧ ¬ other.route <+: output.route

instance : Std.Symm Output.Independent := ⟨fun _ _ h => ⟨h.2, h.1⟩⟩

namespace FileTree

variable {tree : FileTree} {output other : Output} {outputs outputs' : List Output} {policy : Policy}

/-- **Writing an output leaves it open whether an independent one can be written.** -/
theorem writable_write_iff (hup : Route.up ∉ output.route) (h : tree.Writable output.route)
    (hindependent : output.Independent other) :
    (tree.write output).tree.Writable other.route ↔ tree.Writable other.route := by
  have hplace : (tree.write output).tree.isDirectory other.route = tree.isDirectory other.route := by
    rw [isDirectory_eq_look, isDirectory_eq_look, look_write hup h hindependent.2]
  have hway : (tree.write output).tree.Open other.route.dropLast ↔ tree.Open other.route.dropLast := by
    have htexts := (changes_write hup).succeeded ((failure?_write_iff hup).mpr h)
    rw [Open, Open, htexts]
    refine forall₂_congr fun front hfront => ?_
    have hne : front ≠ output.route := by
      rintro rfl
      exact hindependent.1 (hfront.trans (List.dropLast_prefix _))
    rw [Function.update_of_ne hne]
  constructor
  · rintro ⟨hnamed, hopen, hdirectory⟩
    exact ⟨hnamed, hway.mp hopen, hplace ▸ hdirectory⟩
  · rintro ⟨hnamed, hopen, hdirectory⟩
    exact ⟨hnamed, hway.mpr hopen, hplace.trans hdirectory⟩

/-- **Independent outputs are written if and only if each of them can be**, in the tree as it is. -/
theorem failure?_writeAll_iff (hup : ∀ output ∈ outputs, Route.up ∉ output.route)
    (hindependent : outputs.Pairwise Output.Independent) :
    (tree.writeAll outputs).failure? = none ↔ ∀ output ∈ outputs, tree.Writable output.route := by
  induction outputs generalizing tree with
  | nil => exact iff_of_true rfl nofun
  | cons output rest ih =>
    obtain ⟨hfirst, hrest⟩ := List.pairwise_cons.mp hindependent
    obtain ⟨hupFirst, hupRest⟩ := List.forall_mem_cons.mp hup
    rw [writeAll, List.forall_mem_cons, ← failure?_write_iff hupFirst]
    cases hfailure : (tree.write output).failure? with
    | some failure =>
      rw [Attempt.andThen_of_failed hfailure, hfailure]
      have hfailed : some failure ≠ none := Option.some_ne_none failure
      exact iff_of_false hfailed fun h => hfailed h.1
    | none =>
      rw [Attempt.andThen_of_succeeded hfailure, ih hupRest hrest]
      have hwritable := (failure?_write_iff hupFirst).mp hfailure
      -- The rest can be written now if and only if it could be before.
      have hsame : (∀ other ∈ rest, (tree.write output).tree.Writable other.route) ↔
          ∀ other ∈ rest, tree.Writable other.route :=
        forall₂_congr fun other hother =>
          writable_write_iff hupFirst hwritable (hfirst other hother)
      rw [hsame]
      exact (and_iff_right rfl).symm

/-! ## Orders -/

/-- The checks of outputs are the same in any order. -/
theorem check_eq_none_of_perm (hperm : outputs.Perm outputs')
    (h : tree.check policy outputs = none) : tree.check policy outputs' = none := by
  rw [check, List.findSome?_eq_none_iff] at h ⊢
  exact fun output houtput => h output (hperm.mem_iff.mpr houtput)

/-- **Texts that go to different places can be set in any order.** -/
theorem textsAfter_perm (hperm : outputs.Perm outputs')
    (hindependent : outputs.Pairwise Output.Independent) (texts : Texts) :
    textsAfter texts outputs' = textsAfter texts outputs := by
  refine (hperm.foldl_eq' (fun output houtput other hother texts => ?_) texts).symm
  by_cases hsame : output = other
  · rw [hsame]
  · have hne : output.route ≠ other.route := fun heq =>
      (hindependent.forall houtput hother hsame).1 (heq ▸ List.prefix_refl _)
    exact Function.update_comm hne _ _ texts

/-- **The order of independent outputs does not matter.** If they are delivered in one order they are
delivered in every order, and the files are the same afterwards. -/
theorem deliver_perm (tree : FileTree) (policy : Policy)
    (hup : ∀ output ∈ outputs, Route.up ∉ output.route)
    (hindependent : outputs.Pairwise Output.Independent) (hperm : outputs.Perm outputs')
    (h : (tree.deliver policy outputs).failure? = none) :
    (tree.deliver policy outputs').failure? = none ∧
      (tree.deliver policy outputs').tree.textAt? = (tree.deliver policy outputs).tree.textAt? := by
  have hup' : ∀ output ∈ outputs', Route.up ∉ output.route := fun output houtput =>
    hup output (hperm.mem_iff.mpr houtput)
  have hindependent' := (hperm.pairwise_iff fun h => ⟨h.2, h.1⟩).mp hindependent
  have hsucceeds : (tree.deliver policy outputs').failure? = none := by
    unfold deliver at h ⊢
    cases hcheck : tree.check policy outputs with
    | some failure =>
      rw [hcheck] at h
      cases h
    | none =>
      rw [hcheck] at h
      rw [check_eq_none_of_perm hperm hcheck]
      have hwritable := (failure?_writeAll_iff hup hindependent).mp h
      exact (failure?_writeAll_iff hup' hindependent').mpr fun output houtput =>
        hwritable output (hperm.mem_iff.mpr houtput)
  refine ⟨hsucceeds, ?_⟩
  rw [textAt?_deliver hup' hsucceeds, textAt?_deliver hup h, textsAfter_perm hperm hindependent]

/-- Two modules in one new directory and a third one above it, which replaces an older file. -/
theorem deliver_perm_of_shared_directory :
    let tree : FileTree := { members := [("old.ts", .file "old")] }
    let policy : Policy := { overwrite := true, validate := false }
    let first : Output := { route := ["new", "a.ts"], text := "A" }
    let second : Output := { route := ["old.ts"], text := "B" }
    let third : Output := { route := ["new", "b.ts"], text := "C" }
    (∀ output ∈ [first, second, third], Route.up ∉ output.route) ∧
      [first, second, third].Pairwise Output.Independent ∧
      [first, second, third].Perm [third, second, first] ∧
      (tree.deliver policy [first, second, third]).failure? = none ∧
      (tree.deliver policy [third, second, first]).failure? = none ∧
      (tree.deliver policy [third, second, first]).tree.textAt?
        = (tree.deliver policy [first, second, third]).tree.textAt? := by
  intro tree policy first second third
  have hup : ∀ output ∈ [first, second, third], Route.up ∉ output.route := by decide
  have hindependent : [first, second, third].Pairwise Output.Independent := by
    simp [first, second, third, Output.Independent]
  have hperm : [first, second, third].Perm [third, second, first] :=
    (List.reverse_perm [first, second, third]).symm
  have hdelivered : (tree.deliver policy [first, second, third]).failure? = none :=
    (failure?_writeAll_iff hup hindependent).mpr (by decide)
  exact ⟨hup, hindependent, hperm, hdelivered,
    deliver_perm tree policy hup hindependent hperm hdelivered⟩

end FileTree

end SchemaForge
