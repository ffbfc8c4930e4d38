import Mathlib.Logic.Function.Basic
import SchemaForge.Files.Tree

/-!
# `SchemaForge.Proofs.Files.Tree` — what a change of a tree does to its files

At a location of a tree there is nothing, a directory, or a file with its text. `look` sees no more
than that, so a directory with other members looks the same. An entry put into a directory that is
there is seen at its location and below, and every other location looks as it did before.

## Contents
- **Looking.** `look`; `find?_append` follows a location in two parts.
- **Putting.** `find?_put_self` and `look_put_elsewhere`.
- **Removing.** `remove_put`: an entry of a new name that is put and removed again leaves no trace.
- **Trees.** The same of trees; `look_put` says what looks different afterwards, `textAt?_put_file` and
  `textAt?_put_directory` which files there are, and `move_put` that moving a new file is putting it.
-/

namespace SchemaForge

namespace Entry

/-! ## Looking -/

/-- The text of an entry, if it is a regular file. -/
def text? : Entry → Option String
  | .file text => some text
  | .directory _ => none

/-- **What a location looks like** below an entry: nothing, a directory, or a file with its text. -/
def look (location : Location) (entry : Entry) : Option (Option String) :=
  (find? location entry).map text?

theorem find?_append (front back : Location) (entry : Entry) :
    find? (front ++ back) entry = (find? front entry).bind (find? back) := by
  induction front generalizing entry with
  | nil => rfl
  | cons name rest ih =>
    cases entry with
    | file text => rfl
    | directory members =>
      rw [List.cons_append, find?, find?]
      cases Fields.get? name members with
      | none => rfl
      | some inner => exact ih inner

/-! ## Putting -/

variable {new entry : Entry} {members : Fields Entry} {here : Location} {name : String}

/-- Into a directory further below an entry is put by putting it into the entry on the way. -/
theorem put_cons {step : String} {rest : Location} {inner : Entry} (hrest : rest ≠ [])
    (hinner : Fields.get? step members = some inner) :
    put new (step :: rest) (.directory members)
      = .directory (Fields.set step (put new rest inner) members) := by
  cases rest with
  | nil => exact absurd rfl hrest
  | cons next rest => simp only [put, hinner]

theorem find?_cons_eq_some {step : String} {rest : Location} {found : Entry}
    (h : find? (step :: rest) entry = some found) :
    ∃ members inner, entry = .directory members ∧ Fields.get? step members = some inner ∧
      find? rest inner = some found := by
  cases entry with
  | file text => cases h
  | directory members =>
    rw [find?] at h
    cases hinner : Fields.get? step members with
    | none =>
      rw [hinner] at h
      cases h
    | some inner =>
      rw [hinner] at h
      exact ⟨members, inner, rfl, hinner, h⟩

/-- The directory into which an entry is put has it among its members. -/
theorem find?_put (h : find? here entry = some (.directory members)) :
    find? here (put new (here ++ [name]) entry)
      = some (.directory (Fields.set name new members)) := by
  induction here generalizing entry with
  | nil =>
    cases h
    rfl
  | cons step rest ih =>
    obtain ⟨others, inner, rfl, hinner, hrest⟩ := find?_cons_eq_some h
    rw [List.cons_append, put_cons (by simp) hinner, find?, Fields.get?_set_self]
    exact ih hrest

/-- An entry is found where it was put. -/
theorem find?_put_self (h : find? here entry = some (.directory members)) :
    find? (here ++ [name]) (put new (here ++ [name]) entry) = some new := by
  rw [find?_append, find?_put h, Option.bind_some, find?, Fields.get?_set_self]
  rfl

/-- **Where nothing was put everything looks as before.** -/
theorem look_put_elsewhere (h : find? here entry = some (.directory members))
    {other : Location} (hother : ¬ here ++ [name] <+: other) :
    look other (put new (here ++ [name]) entry) = look other entry := by
  induction here generalizing entry other with
  | nil =>
    cases h
    cases other with
    | nil => rfl
    | cons step rest =>
      -- Another member of the same directory.
      have hstep : step ≠ name := by
        rintro rfl
        exact hother (by simp)
      show (find? (step :: rest) (.directory (Fields.set name new members))).map text? = _
      rw [find?, Fields.get?_set_of_ne hstep, look, find?]
  | cons first here ih =>
    obtain ⟨others, inner, rfl, hinner, hrest⟩ := find?_cons_eq_some h
    rw [List.cons_append, put_cons (by simp) hinner]
    cases other with
    | nil => rfl
    | cons step rest =>
      rw [look, look, find?, find?]
      by_cases hstep : step = first
      · subst hstep
        rw [Fields.get?_set_self, hinner]
        exact ih hrest fun hprefix => hother (List.cons_prefix_cons.mpr ⟨rfl, hprefix⟩)
      · rw [Fields.get?_set_of_ne hstep]

/-! ## Removing -/

/-- **A new entry that is put and removed again leaves no trace.** -/
theorem remove_put (h : find? here entry = some (.directory members))
    (hname : name ∉ Fields.names members) :
    remove (here ++ [name]) (put new (here ++ [name]) entry) = entry := by
  induction here generalizing entry with
  | nil =>
    cases h
    show Entry.directory (Fields.erase name (Fields.set name new members)) = _
    rw [Fields.erase_set hname]
  | cons step rest ih =>
    obtain ⟨others, inner, rfl, hinner, hrest⟩ := find?_cons_eq_some h
    rw [List.cons_append, put_cons (by simp) hinner]
    have hremove : remove (step :: (rest ++ [name]))
          (.directory (Fields.set step (put new (rest ++ [name]) inner) others))
        = .directory (Fields.set step (remove (rest ++ [name]) (put new (rest ++ [name]) inner))
          (Fields.set step (put new (rest ++ [name]) inner) others)) := by
      rw [remove, Fields.get?_set_self]
      simp
    rw [hremove, ih hrest, Fields.set_set, Fields.set_of_get? hinner]

end Entry

/-! ## Trees -/

namespace FileTree

variable {tree : FileTree} {here : Location} {name text : String} {new : Entry}

/-- What a location of a tree looks like. -/
def look (tree : FileTree) (location : Location) : Option (Option String) :=
  Entry.look location (.directory tree.members)

theorem isDirectory_iff {location : Location} :
    tree.isDirectory location = true ↔ ∃ members, tree.find? location = some (.directory members) := by
  unfold isDirectory
  cases tree.find? location with
  | none => simp
  | some entry => cases entry <;> simp

theorem textAt?_eq_look (location : Location) :
    tree.textAt? location = (tree.look location).join := by
  rw [textAt?, look, Entry.look, find?]
  cases Entry.find? location (.directory tree.members) with
  | none => rfl
  | some entry => cases entry <;> rfl

theorem isDirectory_eq_look (location : Location) :
    tree.isDirectory location = (tree.look location == some none) := by
  rw [isDirectory, look, Entry.look, find?]
  cases Entry.find? location (.directory tree.members) with
  | none => rfl
  | some entry => cases entry <;> rfl

/-- The root is a directory. -/
theorem isDirectory_nil : tree.isDirectory [] = true := rfl

/-- The root stays a directory when an entry is put below it. -/
theorem directory_put (h : tree.isDirectory here) :
    Entry.directory (tree.put (here ++ [name]) new).members
      = Entry.put new (here ++ [name]) (.directory tree.members) := by
  obtain ⟨members, hmembers⟩ := isDirectory_iff.mp h
  have hput : ∃ others, Entry.put new (here ++ [name]) (.directory tree.members)
      = .directory others := by
    cases here with
    | nil => exact ⟨_, rfl⟩
    | cons step rest =>
      obtain ⟨others, inner, heq, hinner, -⟩ := Entry.find?_cons_eq_some hmembers
      cases heq
      exact ⟨_, Entry.put_cons (by simp) hinner⟩
  obtain ⟨others, hothers⟩ := hput
  rw [put, hothers]

theorem find?_put_self (h : tree.isDirectory here) :
    (tree.put (here ++ [name]) new).find? (here ++ [name]) = some new := by
  obtain ⟨members, hmembers⟩ := isDirectory_iff.mp h
  rw [find?, directory_put h, Entry.find?_put_self hmembers]

theorem look_put_elsewhere (h : tree.isDirectory here) {other : Location}
    (hother : ¬ here ++ [name] <+: other) :
    (tree.put (here ++ [name]) new).look other = tree.look other := by
  obtain ⟨members, hmembers⟩ := isDirectory_iff.mp h
  rw [look, directory_put h, Entry.look_put_elsewhere hmembers hother, look]

/-- Below an entry one looks into the entry. -/
theorem look_append {entry : Entry} {location : Location} (h : tree.find? location = some entry)
    (below : Location) : tree.look (location ++ below) = entry.look below := by
  rw [find?] at h
  rw [look, Entry.look, Entry.find?_append, h]
  rfl

/-- Below what looks as if it held nothing there is nothing. -/
theorem look_append_of_not_directory {location below : Location}
    (h : tree.isDirectory location = false) (hbelow : below ≠ []) :
    tree.look (location ++ below) = none := by
  rw [look, Entry.look, Entry.find?_append, ← find?]
  unfold isDirectory at h
  cases hfound : tree.find? location with
  | none => rfl
  | some entry =>
    cases entry with
    | file text =>
      cases below with
      | nil => exact absurd rfl hbelow
      | cons step rest => rfl
    | directory members =>
      rw [hfound] at h
      cases h

/-- **What looks different when an entry without members is put into a directory**: its own place,
unless it takes the place of a directory. -/
theorem look_put (h : tree.isDirectory here) (hplace : tree.isDirectory (here ++ [name]) = false)
    (hbare : ∀ below ≠ [], new.look below = none) :
    (tree.put (here ++ [name]) new).look
      = Function.update tree.look (here ++ [name]) (some new.text?) := by
  funext other
  by_cases hother : here ++ [name] <+: other
  · obtain ⟨below, rfl⟩ := hother
    rw [look_append (find?_put_self h)]
    by_cases hbelow : below = []
    · subst hbelow
      rw [List.append_nil, Function.update_self]
      rfl
    · rw [Function.update_of_ne (by simpa using hbelow), hbare below hbelow,
        look_append_of_not_directory hplace hbelow]
  · have hne : other ≠ here ++ [name] := by
      rintro rfl
      exact hother (List.prefix_refl _)
    rw [look_put_elsewhere h hother, Function.update_of_ne hne]

theorem look_put_file (h : tree.isDirectory here)
    (hplace : tree.isDirectory (here ++ [name]) = false) :
    (tree.put (here ++ [name]) (.file text)).look
      = Function.update tree.look (here ++ [name]) (some (some text)) := by
  refine look_put h hplace fun below hbelow => ?_
  cases below with
  | nil => exact absurd rfl hbelow
  | cons step rest => rfl

theorem look_put_directory (h : tree.isDirectory here)
    (hnew : tree.find? (here ++ [name]) = none) :
    (tree.put (here ++ [name]) (.directory [])).look
      = Function.update tree.look (here ++ [name]) (some none) := by
  refine look_put h (by rw [isDirectory, hnew]) fun below hbelow => ?_
  cases below with
  | nil => exact absurd rfl hbelow
  | cons step rest => rfl

/-- **A file put into a directory is there afterwards, and all other files are as before**, unless it
takes the place of a directory. -/
theorem textAt?_put_file (h : tree.isDirectory here)
    (hfile : tree.isDirectory (here ++ [name]) = false) :
    (tree.put (here ++ [name]) (.file text)).textAt?
      = Function.update tree.textAt? (here ++ [name]) (some text) := by
  funext other
  rw [textAt?_eq_look, look_put_file h hfile]
  by_cases hother : other = here ++ [name]
  · rw [hother, Function.update_self, Function.update_self]
    rfl
  · rw [Function.update_of_ne hother, Function.update_of_ne hother, textAt?_eq_look]

/-- **An empty directory put where nothing was adds no file.** -/
theorem textAt?_put_directory (h : tree.isDirectory here)
    (hnew : tree.find? (here ++ [name]) = none) :
    (tree.put (here ++ [name]) (.directory [])).textAt? = tree.textAt? := by
  funext other
  rw [textAt?_eq_look, look_put_directory h hnew]
  by_cases hother : other = here ++ [name]
  · rw [hother, Function.update_self, textAt?, hnew]
    rfl
  · rw [Function.update_of_ne hother, textAt?_eq_look]

theorem isDirectory_put_directory (h : tree.isDirectory here) :
    (tree.put (here ++ [name]) (.directory [])).isDirectory (here ++ [name]) = true :=
  isDirectory_iff.mpr ⟨[], find?_put_self h⟩

/-! ### Temporary files -/

/-- A new entry that is put and removed again leaves no trace in a tree. -/
theorem remove_put (h : tree.isDirectory here) (hname : name ∉ tree.namesIn here) :
    (tree.put (here ++ [name]) new).remove (here ++ [name]) = tree := by
  obtain ⟨members, hmembers⟩ := isDirectory_iff.mp h
  rw [namesIn, hmembers] at hname
  rw [remove, directory_put h, Entry.remove_put hmembers hname]

/-- **To put a new file and to move it is to put it where it goes.** -/
theorem move_put (h : tree.isDirectory here) (hname : name ∉ tree.namesIn here)
    (target : Location) :
    (tree.put (here ++ [name]) new).move (here ++ [name]) target = tree.put target new := by
  rw [move, find?_put_self h, remove_put h hname]

end FileTree

end SchemaForge
