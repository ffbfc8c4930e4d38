import SchemaForge.Json.Writer

/-!
# `SchemaForge.Proofs.Json.Writing` — what the writing of JSON keeps of a value

Writing recurses on a value, its items and its members at once. `Json.induct` is the induction that
goes with it, for claims about values alone. Integers are written with all their digits, so their
texts differ; nothing of the kind is said of doubles, of which `FloatFree` values have none.

## Contents
- **Induction.** `induct`, and `FloatFree`.
- **Lists.** `eq_of_map_eq` tells lists apart by their items. `forall_mem_intercalate` and
  `forall_mem_enclose` say what holds of separated and of enclosed ones, which
  `encodeItems_eq_intercalate` and `encodeMembers_eq_intercalate` are about.
- **Integers.** `intText_injective`, and what the characters of an integer are.
-/

namespace SchemaForge

/-- Lists are the same when their items have the same images and can be told apart by them. -/
theorem eq_of_map_eq {α β : Type} {f : α → β} {xs ys : List α}
    (hinj : ∀ x ∈ xs, ∀ y ∈ ys, f x = f y → x = y) (h : xs.map f = ys.map f) : xs = ys := by
  induction xs generalizing ys with
  | nil => exact (List.map_eq_nil_iff.mp h.symm).symm
  | cons x rest ih =>
    obtain ⟨y, others, rfl, hfirst, hrest⟩ := List.map_eq_cons_iff.mp h.symm
    have hxy : x = y := hinj x List.mem_cons_self y List.mem_cons_self hfirst.symm
    have hothers : rest = others := ih (fun a ha b hb => hinj a (List.mem_cons_of_mem _ ha) b
      (List.mem_cons_of_mem _ hb)) hrest.symm
    rw [hxy, hothers]

/-- What holds of a separator and of every list holds of the lists put together. -/
theorem forall_mem_intercalate {α : Type} {p : α → Prop} {sep : List α} (hsep : ∀ x ∈ sep, p x)
    {lists : List (List α)} (h : ∀ list ∈ lists, ∀ x ∈ list, p x) :
    ∀ x ∈ sep.intercalate lists, p x := by
  induction lists with
  | nil => exact fun x hx => absurd hx List.not_mem_nil
  | cons list rest ih =>
    obtain ⟨hfirst, hrest⟩ := List.forall_mem_cons.mp h
    cases rest with
    | nil =>
      rw [List.intercalate_singleton]
      exact hfirst
    | cons next rest =>
      rw [List.intercalate_cons_cons]
      exact List.forall_mem_append.mpr ⟨List.forall_mem_append.mpr ⟨hfirst, hsep⟩, ih hrest⟩

/-- What holds of two ends and of a list holds of the list between them. -/
theorem forall_mem_enclose {α : Type} {p : α → Prop} {opener closer : α} (hopener : p opener)
    (hcloser : p closer) {list : List α} (h : ∀ x ∈ list, p x) :
    ∀ x ∈ opener :: (list ++ [closer]), p x :=
  List.forall_mem_cons.mpr ⟨hopener,
    List.forall_mem_append.mpr ⟨h, List.forall_mem_singleton.mpr hcloser⟩⟩

namespace Json

/-! ## Induction -/

/-- **Induction over a value.** A member's claim is that of its value. -/
@[elab_as_elim, induction_eliminator]
theorem induct {motive : Json → Prop} (null : motive .null) (bool : ∀ b, motive (.bool b))
    (int : ∀ n, motive (.int n)) (float : ∀ x, motive (.float x)) (str : ∀ s, motive (.str s))
    (arr : ∀ items, (∀ item ∈ items, motive item) → motive (.arr items))
    (obj : ∀ members, (∀ member ∈ members, motive member.2) → motive (.obj members))
    (value : Json) : motive value := by
  refine @Json.rec motive (fun items => ∀ item ∈ items, motive item)
    (fun members => ∀ member ∈ members, motive member.2) (fun member => motive member.2)
    null bool int float str arr obj ?_ ?_ ?_ ?_ ?_ value
  · intro item hitem
    exact absurd hitem List.not_mem_nil
  · intro first rest hfirst hrest item hitem
    rcases List.mem_cons.mp hitem with rfl | hitem
    · exact hfirst
    · exact hrest item hitem
  · intro member hmember
    exact absurd hmember List.not_mem_nil
  · intro first rest hfirst hrest member hmember
    rcases List.mem_cons.mp hmember with rfl | hmember
    · exact hfirst
    · exact hrest member hmember
  · intro key value hvalue
    exact hvalue

/-- **A value without doubles**, at any depth. -/
inductive FloatFree : Json → Prop where
  | null : FloatFree .null
  | bool (b : Bool) : FloatFree (.bool b)
  | int (n : Int) : FloatFree (.int n)
  | str (s : String) : FloatFree (.str s)
  | arr {items : List Json} : (∀ item ∈ items, FloatFree item) → FloatFree (.arr items)
  | obj {members : Fields Json} :
    (∀ member ∈ members, FloatFree member.2) → FloatFree (.obj members)

/-! ## Lists -/

/-- The text of a member. -/
def encodeMember (member : String × Json) : List Char :=
  quoteAscii member.1.toList ++ ':' :: ' ' :: encode member.2

theorem encodeItems_eq_intercalate (items : List Json) :
    encodeItems items = [',', ' '].intercalate (items.map encode) := by
  induction items with
  | nil => rfl
  | cons item rest ih =>
    cases rest with
    | nil => simp [encodeItems]
    | cons next rest =>
      rw [encodeItems, ih]
      · simp
      · exact List.cons_ne_nil next rest

theorem encodeMembers_eq_intercalate (members : Fields Json) :
    encodeMembers members = [',', ' '].intercalate (members.map encodeMember) := by
  induction members with
  | nil => rfl
  | cons member rest ih =>
    obtain ⟨key, value⟩ := member
    cases rest with
    | nil => simp [encodeMembers, encodeMember]
    | cons next rest =>
      rw [encodeMembers, ih]
      · simp [encodeMember]
      · exact List.cons_ne_nil next rest

/-! ## Integers -/

theorem toDigits_injective {m n : Nat} (h : Nat.toDigits 10 m = Nat.toDigits 10 n) : m = n :=
  calc
    m = Nat.ofDigitChars 10 (Nat.toDigits 10 m) 0 := Nat.ofDigitChars_ten_toDigits.symm
    _ = Nat.ofDigitChars 10 (Nat.toDigits 10 n) 0 := by rw [h]
    _ = n := Nat.ofDigitChars_ten_toDigits

/-- No digit is a minus. -/
theorem minus_notMem_toDigits (n : Nat) : '-' ∉ Nat.toDigits 10 n := by
  intro h
  have hdigit := Nat.isDigit_of_mem_toDigits (by decide) (by decide) h
  exact absurd hdigit (by decide)

/-- An integer can be told from its text: the minus says whether it is negative. -/
theorem intText_injective {m n : Int} (h : intText m = intText n) : m = n := by
  unfold intText at h
  by_cases hm : m < 0
  · by_cases hn : n < 0
    · rw [if_pos hm, if_pos hn] at h
      have habs := toDigits_injective (List.cons.inj h).2
      omega
    · rw [if_pos hm, if_neg hn] at h
      exact absurd (h ▸ List.mem_cons_self) (minus_notMem_toDigits n.natAbs)
  · by_cases hn : n < 0
    · rw [if_neg hm, if_pos hn] at h
      exact absurd (h ▸ List.mem_cons_self) (minus_notMem_toDigits m.natAbs)
    · rw [if_neg hm, if_neg hn] at h
      have habs := toDigits_injective h
      omega

theorem intText_ne_nil (n : Int) : intText n ≠ [] := by
  unfold intText
  split
  · exact List.cons_ne_nil _ _
  · exact Nat.toDigits_ne_nil

/-- An integer is written with digits and a minus. -/
theorem isDigit_or_minus_of_mem_intText {c : Char} {n : Int} (h : c ∈ intText n) :
    c.isDigit ∨ c = '-' := by
  unfold intText at h
  split at h
  · rcases List.mem_cons.mp h with rfl | h
    · exact Or.inr rfl
    · exact Or.inl (Nat.isDigit_of_mem_toDigits (by decide) (by decide) h)
  · exact Or.inl (Nat.isDigit_of_mem_toDigits (by decide) (by decide) h)

end Json

end SchemaForge
