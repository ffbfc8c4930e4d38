import SchemaForge.Proofs.Files.Delivery

/-!
# `SchemaForge.Proofs.Files.Retention` — which files stay in a tree

A tree keeps the files of another one when each of them is in it, with the text that it had. A delivery
that may not overwrite files keeps all of them. Its checks follow the route of every output in the tree
as it was, and where a file stands its route can be followed; so once the checks are passed no output
goes where a file was, and writing changes no other file.

## Contents
- **Keeping.** `Keeps` is a preorder on trees.
- **Following.** `follow_eq_of_find?`: what stands in a tree is found on the way to it.
- **Deliveries.** `exists_written` says which outputs a delivery has written, `keeps_deliver` that
  without permission it overwrites nothing.
-/

namespace SchemaForge.FileTree

/-! ## Keeping -/

/-- **Whether a tree keeps the files of another one.** -/
def Keeps (before after : FileTree) : Prop :=
  ∀ location text, before.textAt? location = some text → after.textAt? location = some text

theorem Keeps.refl (tree : FileTree) : tree.Keeps tree := fun _ _ h => h

theorem Keeps.trans {first second third : FileTree} (h : first.Keeps second)
    (h' : second.Keeps third) : first.Keeps third :=
  fun location text htext => h' location text (h location text htext)

variable {tree : FileTree} {policy : Policy} {outputs : List Output}

/-! ## Following -/

/-- Only in a directory does anything stand. -/
theorem isDirectory_of_find? {here rest : Location} {step : String}
    (h : (tree.find? (here ++ step :: rest)).isSome) :
    tree.isDirectory here = true ∧ (tree.find? (here ++ [step])).isSome := by
  obtain ⟨found, hfound⟩ := Option.isSome_iff_exists.mp h
  rw [find?, Entry.find?_append, Option.bind_eq_some_iff] at hfound
  obtain ⟨entry, hhere, hbelow⟩ := hfound
  obtain ⟨members, inner, rfl, hinner, -⟩ := Entry.find?_cons_eq_some hbelow
  refine ⟨isDirectory_iff.mpr ⟨members, hhere⟩, ?_⟩
  rw [find?, Entry.find?_append, hhere, Option.bind_some, Entry.find?, hinner]
  rfl

/-- What stands at the end of a route is found when the route is followed. -/
theorem follow_eq_of_find? {here : Location} {route : Route} (hup : Route.up ∉ route)
    (h : (tree.find? (here ++ route)).isSome) : tree.follow here route = .ok (here ++ route) := by
  induction route generalizing here with
  | nil => rw [follow, List.append_nil]
  | cons step rest ih =>
    rw [List.mem_cons, not_or] at hup
    have hnext : Route.next here step = here ++ [step] := if_neg (Ne.symm hup.1)
    have hsplit : here ++ step :: rest = (here ++ [step]) ++ rest := by simp
    obtain ⟨hhere, hstep⟩ := isDirectory_of_find? h
    rw [hsplit] at h ⊢
    rw [follow, if_pos hhere, hnext, if_pos hstep, ih hup.2 h]

theorem leadsSomewhere_of_textAt? {location : Location} {text : String}
    (hup : Route.up ∉ location) (h : tree.textAt? location = some text) :
    tree.leadsSomewhere location = true := by
  have hfound : (tree.find? ([] ++ location)).isSome := by
    rw [List.nil_append]
    unfold textAt? at h
    cases hfind : tree.find? location with
    | none =>
      rw [hfind] at h
      cases h
    | some entry => rfl
  rw [leadsSomewhere, follow_eq_of_find? hup hfound]

/-! ## Deliveries -/

/-- When a delivery succeeds the files are the outputs' and those that were there. -/
theorem textAt?_deliver (hup : ∀ output ∈ outputs, Route.up ∉ output.route)
    (h : (tree.deliver policy outputs).failure? = none) :
    (tree.deliver policy outputs).tree.textAt? = textsAfter tree.textAt? outputs := by
  unfold deliver at h ⊢
  cases hcheck : tree.check policy outputs with
  | some found =>
    rw [hcheck] at h
    cases h
  | none =>
    rw [hcheck] at h
    exact textAt?_writeAll hup h

/-- **Which outputs a delivery has written**: the first few, and none unless all were checked. -/
theorem exists_written (hup : ∀ output ∈ outputs, Route.up ∉ output.route) :
    ∃ written, written <+: outputs ∧
      (tree.deliver policy outputs).tree.textAt? = textsAfter tree.textAt? written ∧
      (written ≠ [] → tree.check policy outputs = none) := by
  cases hcheck : tree.check policy outputs with
  | some found =>
    refine ⟨[], List.nil_prefix, ?_, fun h => absurd rfl h⟩
    rw [deliver, hcheck]
    rfl
  | none =>
    cases hfailure : (tree.deliver policy outputs).failure? with
    | none => exact ⟨outputs, List.prefix_rfl, textAt?_deliver hup hfailure, fun _ => rfl⟩
    | some failure =>
      obtain ⟨hrejected, hwriting⟩ := deliver_failed hup hfailure
      by_cases hrejection : failure.IsRejection
      · exact ⟨[], List.nil_prefix, congrArg textAt? (hrejected hrejection), fun _ => rfl⟩
      · obtain ⟨written, failed, rest, rfl, -, -, htexts⟩ := hwriting hrejection
        exact ⟨written, List.prefix_append _ _, htexts, fun _ => rfl⟩

/-- Where no output goes the text of a file is as it was. -/
theorem textsAfter_of_ne {texts : Texts} {location : Location}
    (h : ∀ output ∈ outputs, location ≠ output.route) :
    textsAfter texts outputs location = texts location := by
  induction outputs generalizing texts with
  | nil => rfl
  | cons output rest ih =>
    rw [textsAfter, List.foldl_cons, ← textsAfter,
      ih fun other hother => h other (List.mem_cons_of_mem _ hother),
      Function.update_of_ne (h output List.mem_cons_self)]

/-- The checks turn down an output that goes where something stands. -/
theorem leadsSomewhere_of_check {output : Output} (hpolicy : policy.overwrite = false)
    (hcheck : tree.check policy outputs = none) (houtput : output ∈ outputs) :
    tree.leadsSomewhere output.route = false := by
  have hnone : tree.checkOutput policy output = none :=
    List.findSome?_eq_none_iff.mp hcheck output houtput
  cases hleads : tree.leadsSomewhere output.route with
  | false => rfl
  | true =>
    rw [checkOutput, hpolicy, hleads] at hnone
    cases hnone

/-- **Without permission to overwrite files a delivery keeps all of them**, whatever comes of it. -/
theorem keeps_deliver (hup : ∀ output ∈ outputs, Route.up ∉ output.route)
    (hpolicy : policy.overwrite = false) : tree.Keeps (tree.deliver policy outputs).tree := by
  intro location text htext
  obtain ⟨written, hwritten, htexts, hchecked⟩ := @exists_written tree policy outputs hup
  -- All outputs were checked in the tree as it was, also those that come after a written one.
  have helsewhere : ∀ output ∈ written, location ≠ output.route := by
    intro output houtput hlocation
    have hcheck := hchecked (List.ne_nil_of_mem houtput)
    have houtput := hwritten.subset houtput
    have hfree := leadsSomewhere_of_check hpolicy hcheck houtput
    rw [hlocation] at htext
    rw [leadsSomewhere_of_textAt? (hup output houtput) htext] at hfree
    cases hfree
  rw [htexts, textsAfter_of_ne helsewhere, htext]

end SchemaForge.FileTree
