import SchemaForge.Proofs.Command.Run

/-!
# `SchemaForge.Proofs.Command.Session` — files stay through a session

In a session deliveries are made and commands are run one after another, on the tree that the one before
has left. Some succeed and some fail, and one that fails may have written a part of its outputs. As long
as none of them asks to overwrite files every file stays as it is from the moment it is there: a job
writes only what its delivery writes, and `FileTree.keeps_deliver` is about every outcome of that.

## Contents
- **Jobs.** `Job`, with `leave` for the tree that it leaves behind and `Cautious` for one that does not
  ask to overwrite; `keeps_leave`.
- **Sessions.** `FileTree.after`, and `keeps_between` for any two moments of a session.
-/

namespace SchemaForge

/-! ## Jobs -/

/-- Something that may write files. -/
inductive Job where
  /-- Outputs are delivered. -/
  | delivery (policy : Policy) (outputs : List Output)
  /-- A command is run in a directory. Messages show the root of the tree as the given text. -/
  | command (directory : Location) (shownRoot : String) (words : List String)

namespace Job

/-- The tree that a job leaves behind, whatever comes of it. -/
def leave (tree : FileTree) : Job → FileTree
  | delivery policy outputs => (tree.deliver policy outputs).tree
  | command directory shownRoot words =>
    (Command.run { tree, directory, shownRoot } words).tree

/-- **Whether a job does not ask to overwrite files.** The ways to its outputs do not go up, and nor
does the one to the directory of a command. -/
def Cautious : Job → Prop
  | delivery policy outputs =>
    policy.overwrite = false ∧ ∀ output ∈ outputs, Route.up ∉ output.route
  | command directory _ words => Route.up ∉ directory ∧ ¬ Command.AsksToOverwrite words

/-- **A job that does not ask to overwrite keeps all files.** -/
theorem keeps_leave {job : Job} (h : job.Cautious) (tree : FileTree) :
    tree.Keeps (job.leave tree) := by
  cases job with
  | delivery policy outputs => exact FileTree.keeps_deliver h.2 h.1
  | command directory shownRoot words =>
    obtain ⟨hdirectory, hwords⟩ := h
    rcases Command.run_cases { tree, directory, shownRoot } words with
      ⟨options, inputs, module, hprepares⟩ | ⟨-, htree⟩
    · have hforce : options.force = false := by
        cases hforce : options.force with
        | false => rfl
        | true =>
          exact absurd (Command.asksToOverwrite_of_force hprepares.understood hforce) hwords
      rw [leave, (Command.run_of_prepares hprepares).1]
      exact FileTree.keeps_deliver (Command.up_notMem_outputs hdirectory hprepares) hforce
    · rw [leave, htree]
      exact .refl tree

end Job

/-! ## Sessions -/

namespace FileTree

/-- The tree after jobs that are done one after another. -/
def after (tree : FileTree) (jobs : List Job) : FileTree := jobs.foldl Job.leave tree

theorem after_append (tree : FileTree) (jobs others : List Job) :
    tree.after (jobs ++ others) = (tree.after jobs).after others := List.foldl_append

/-- Jobs that do not ask to overwrite keep all files. -/
theorem keeps_after {jobs : List Job} (h : ∀ job ∈ jobs, job.Cautious) (tree : FileTree) :
    tree.Keeps (tree.after jobs) := by
  induction jobs generalizing tree with
  | nil => exact .refl tree
  | cons job rest ih =>
    have hjob := Job.keeps_leave (h job List.mem_cons_self) tree
    exact hjob.trans (ih (fun other hother => h other (List.mem_cons_of_mem _ hother)) _)

/-- **Unasked nothing is overwritten.** In a session of jobs that do not ask to overwrite, whatever
becomes of each of them, every file that is there at some moment is there at every later one, with the
same text; so in particular every job keeps the files that it found. -/
theorem keeps_between (tree : FileTree) {jobs : List Job} (h : ∀ job ∈ jobs, job.Cautious)
    {i j : Nat} (hij : i ≤ j) : (tree.after (jobs.take i)).Keeps (tree.after (jobs.take j)) := by
  have hsplit : jobs.take j = jobs.take i ++ (jobs.take j).drop i := by
    conv_lhs => rw [← List.take_append_drop i (jobs.take j), List.take_take, Nat.min_eq_left hij]
  rw [hsplit, after_append]
  refine keeps_after (fun job hjob => h job ?_) _
  exact List.mem_of_mem_take (List.mem_of_mem_drop hjob)

/-- A file is written at last, and stays when it is asked for again: the first delivery is turned down,
the second command takes `--force` for the name of its configuration. -/
theorem keeps_between_of_refusals :
    let tree : FileTree := { members :=
      [("s.json", .file "\x7b\"type\":\"object\"\x7d"), ("kept.ts", .file "kept")] }
    let jobs : List Job :=
      [.delivery {} [{ route := ["a.ts"], text := "A", validate? := some false },
        { route := ["kept.ts"], text := "B", validate? := some false }],
      .command [] "" ["s.json", "o.ts", "--types-output", "t.ts"],
      .command [] "" ["s.json", "o.ts", "--config", "--force"]]
    (∀ job ∈ jobs, job.Cautious) ∧ 1 ≤ 3 ∧
      (tree.after (jobs.take 1)).Keeps (tree.after (jobs.take 3)) := by
  intro tree jobs
  have hfirst : ¬ Command.AsksToOverwrite ["s.json", "o.ts", "--types-output", "t.ts"] :=
    fun h => absurd (Command.mem_of_asksToOverwrite h) (by decide)
  have hsecond : ¬ Command.AsksToOverwrite ["s.json", "o.ts", "--config", "--force"] := by
    rintro ⟨given, hread, hforce⟩
    cases hread
    cases hforce
  have hcautious : ∀ job ∈ jobs, job.Cautious :=
    List.forall_mem_cons.mpr ⟨⟨rfl, by decide⟩, List.forall_mem_cons.mpr
      ⟨⟨List.not_mem_nil, hfirst⟩, List.forall_mem_singleton.mpr ⟨List.not_mem_nil, hsecond⟩⟩⟩
  exact ⟨hcautious, by decide, keeps_between tree hcautious (by decide)⟩

end FileTree

end SchemaForge
