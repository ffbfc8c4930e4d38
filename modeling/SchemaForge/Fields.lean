/-!
# `SchemaForge.Fields` — named values in their order

Objects, property lists and directories hold named values in the order in which they were given. A
name is meant to occur once; where it occurs more often, its first place counts.

## Contents
- **Fields.** `Fields`, `names`.
- **Looking up and setting.** `get?` looks a name up. `set` gives a name its value: a new name goes
  to the end, a name that is there keeps its place. `get?_set_self` and `get?_set_of_ne` say what
  the one sees of the other, `get?_append` what it sees of two lists of fields.
- **Erasing.** `erase` takes a name out, and `erase_set` undoes the setting of a new one.
- **Collapsing.** `ofPairs` sets pair after pair, so each name occurs once, at its first place and
  with its last value. Where it occurs once anyway nothing changes (`ofPairs_of_nodup`).
-/

namespace SchemaForge

/-- Named values in their order. -/
abbrev Fields (α : Type) := List (String × α)

namespace Fields

variable {α : Type}

/-- The names, in their order. -/
def names (fields : Fields α) : List String := fields.map Prod.fst

/-! ## Looking up and setting -/

/-- The value of a name. -/
def get? (name : String) : Fields α → Option α
  | [] => none
  | (n, value) :: rest => if n = name then some value else get? name rest

/-- Whether a name has a value. -/
def has (name : String) (fields : Fields α) : Bool := (get? name fields).isSome

/-- Gives a name its value. -/
def set (name : String) (value : α) : Fields α → Fields α
  | [] => [(name, value)]
  | (n, v) :: rest => if n = name then (n, value) :: rest else (n, v) :: set name value rest

@[simp] theorem get?_set_self (name : String) (value : α) (fields : Fields α) :
    get? name (set name value fields) = some value := by
  induction fields with
  | nil => simp [set, get?]
  | cons field rest ih =>
    by_cases h : field.1 = name
    · simp [set, get?, h]
    · simp [set, get?, h, ih]

theorem get?_set_of_ne {name other : String} (h : other ≠ name) (value : α) (fields : Fields α) :
    get? other (set name value fields) = get? other fields := by
  induction fields with
  | nil => simp [set, get?, Ne.symm h]
  | cons field rest ih =>
    by_cases here : field.1 = name
    · simp [set, get?, here, Ne.symm h]
    · simp [set, get?, here, ih]

/-- What is not found in front is looked for behind. -/
theorem get?_append (name : String) (front back : Fields α) :
    get? name (front ++ back) = (get? name front).or (get? name back) := by
  induction front with
  | nil => rfl
  | cons field rest ih =>
    by_cases h : field.1 = name
    · simp [get?, h]
    · simp [get?, h, ih]

theorem sizeOf_lt_of_get? [SizeOf α] {name : String} {value : α} {fields : Fields α}
    (h : get? name fields = some value) : sizeOf value < sizeOf fields := by
  induction fields with
  | nil => simp [get?] at h
  | cons field rest ih =>
    obtain ⟨n, v⟩ := field
    simp only [get?] at h
    split at h
    · cases h; simp; omega
    · have := ih h; simp; omega

/-- To set what was set already is to set it once. -/
theorem set_set (name : String) (first value : α) (fields : Fields α) :
    set name value (set name first fields) = set name value fields := by
  induction fields with
  | nil => simp [set]
  | cons field rest ih =>
    by_cases h : field.1 = name
    · simp [set, h]
    · simp [set, h, ih]

/-- To give a name the value it has changes nothing. -/
theorem set_of_get? {name : String} {value : α} {fields : Fields α}
    (h : get? name fields = some value) : set name value fields = fields := by
  induction fields with
  | nil => cases h
  | cons field rest ih =>
    by_cases here : field.1 = name
    · rw [get?, if_pos here] at h
      rw [set, if_pos here, ← Option.some.inj h]
    · rw [get?, if_neg here] at h
      rw [set, if_neg here, ih h]

/-- A new name goes to the end. -/
theorem set_of_notMem {name : String} {value : α} {fields : Fields α}
    (h : name ∉ names fields) : set name value fields = fields ++ [(name, value)] := by
  induction fields with
  | nil => rfl
  | cons field rest ih =>
    rw [names, List.map_cons, List.mem_cons, not_or] at h
    rw [set, if_neg (Ne.symm h.1), ih h.2, List.cons_append]

/-! ## Erasing -/

/-- The fields without a name. -/
def erase (name : String) (fields : Fields α) : Fields α :=
  fields.filter fun field => field.1 ≠ name

/-- To set a new name and erase it again changes nothing. -/
theorem erase_set {name : String} {fields : Fields α} (h : name ∉ names fields) (value : α) :
    erase name (set name value fields) = fields := by
  induction fields with
  | nil => simp [set, erase]
  | cons field rest ih =>
    rw [names, List.map_cons, List.mem_cons, not_or] at h
    have hne : field.1 ≠ name := Ne.symm h.1
    rw [set, if_neg hne, erase, List.filter_cons_of_pos (by simpa using hne)]
    exact congrArg _ (ih h.2)

/-! ## Collapsing -/

/-- The fields that pairs give when they are set one after another. -/
def ofPairs (pairs : List (String × α)) : Fields α :=
  pairs.foldl (fun fields pair => set pair.1 pair.2 fields) []

/-- Pairs of which no two have one name are fields already. -/
theorem ofPairs_of_nodup {pairs : List (String × α)} (h : (names pairs).Nodup) :
    ofPairs pairs = pairs := by
  have hset : ∀ front : Fields α, (names (front ++ pairs)).Nodup →
      pairs.foldl (fun fields pair => set pair.1 pair.2 fields) front = front ++ pairs := by
    induction pairs with
    | nil => exact fun front _ => (List.append_nil front).symm
    | cons pair rest ih =>
      intro front hfront
      have hnew : pair.1 ∉ names front := by
        rw [names, List.map_append, List.nodup_append] at hfront
        exact fun hmem => hfront.2.2 _ hmem _ List.mem_cons_self rfl
      have hmoved : front ++ pair :: rest = (front ++ [pair]) ++ rest := by simp
      rw [List.foldl_cons, set_of_notMem hnew, hmoved]
      exact ih (List.nodup_cons.mp h).2 _ (hmoved ▸ hfront)
  exact hset [] h

end Fields

end SchemaForge
