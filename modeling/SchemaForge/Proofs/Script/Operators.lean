import Mathlib.Data.List.Infix
import SchemaForge.Proofs.Script.Lexing

/-!
# `SchemaForge.Proofs.Script.Operators` — operators outside of literals and parentheses

What follows a definition applies to the whole of it only if no operator stands in between: an
operator in a literal is text, and one in parentheses has its operands there. So what matters of a
text is its surface, the part outside of literals and parentheses.

## Contents
- **Depths.** `deeper` counts the parentheses that are open, `outside` keeps what is in none;
  `depth_of_nest` and `isParen_of_mem_outside` for texts whose brackets are matched.
- **Surfaces.** `surface`, and `surface_append` for closed texts.
- **Operators.** `HasOperator` looks for one on the surface, `IsEnclosed` for parentheses around a
  text as a whole; a text is `IsLoose` if it has the one and not the other.
-/

namespace SchemaForge.Script

/-! ## Depths -/

/-- How many parentheses are open behind one more character. -/
def deeper (depth : Nat) (c : Char) : Nat :=
  if c = '(' then depth + 1 else if c = ')' then depth - 1 else depth

/-- What of a text stands outside of parentheses, of which some are open in front of it. The
parentheses themselves are kept, so that nothing is joined over them. -/
def outside (depth : Nat) : List Char → List Char
  | [] => []
  | c :: rest =>
    if depth = 0 ∨ c = '(' ∨ c = ')' then c :: outside (deeper depth c) rest
    else outside (deeper depth c) rest

theorem outside_append (depth : Nat) (text rest : List Char) :
    outside depth (text ++ rest) = outside depth text ++ outside (text.foldl deeper depth) rest := by
  induction text generalizing depth with
  | nil => rfl
  | cons c text ih =>
    rw [List.cons_append, outside, outside, ih, List.foldl_cons]
    split
    · rfl
    · rfl

theorem mem_of_mem_outside {depth : Nat} {text : List Char} {c : Char}
    (h : c ∈ outside depth text) : c ∈ text := by
  induction text generalizing depth with
  | nil => exact absurd h List.not_mem_nil
  | cons first text ih =>
    rw [outside] at h
    split at h
    · rcases List.mem_cons.mp h with rfl | h
      · exact List.mem_cons_self
      · exact List.mem_cons_of_mem _ (ih h)
    · exact List.mem_cons_of_mem _ (ih h)

/-- The parentheses that are open are those whose closing ones are due. -/
theorem deeper_of_opener {due : List Char} {c closer : Char} (h : closer? c = some closer) :
    deeper (due.count ')') c = (closer :: due).count ')' := by
  rcases closer?_eq_some_iff.mp h with ⟨rfl, rfl⟩ | ⟨rfl, rfl⟩ | ⟨rfl, rfl⟩ <;> simp [deeper]

theorem deeper_of_closer {outer : List Char} {closer : Char} (h : closer? closer = none) :
    deeper ((closer :: outer).count ')') closer = outer.count ')' := by
  have hopener : closer ≠ '(' := by
    rintro rfl
    cases h
  by_cases hclose : closer = ')'
  · subst hclose
    simp [deeper]
  · simp [deeper, hopener, hclose]

theorem deeper_of_plain {depth : Nat} {c : Char} (hopen : closer? c = none)
    (hend : ¬ isEnd c = true) : deeper depth c = depth := by
  have hopener : c ≠ '(' := by
    rintro rfl
    cases hopen
  have hcloser : c ≠ ')' := by
    rintro rfl
    exact hend rfl
  rw [deeper, if_neg hopener, if_neg hcloser]

theorem depth_of_nest {due behind text : List Char} (h : nest due text = some behind) :
    text.foldl deeper (due.count ')') = behind.count ')' := by
  fun_induction nest due text with
  | case1 due => cases h; rfl
  | case2 due c text closer hopen ih =>
    rw [List.foldl_cons, deeper_of_opener hopen]
    exact ih h
  | case3 c text hopen hend => cases h
  | case4 text closer outer hopen hend ih =>
    rw [List.foldl_cons, deeper_of_closer hopen]
    exact ih h
  | case5 c text hopen hend closer outer hne => cases h
  | case6 due c text hopen hend ih =>
    rw [List.foldl_cons, deeper_of_plain hopen hend]
    exact ih h

theorem Balanced.depth_eq {text : List Char} (h : Balanced text) (depth : Nat) :
    text.foldl deeper depth = depth := by
  have hdepth := depth_of_nest (h.nest_eq (List.replicate depth ')'))
  rwa [List.count_replicate_self] at hdepth

/-- A parenthesis around everything stays open. -/
theorem deeper_succ {depth : Nat} {c : Char} (h : c = ')' → 0 < depth) :
    deeper (depth + 1) c = deeper depth c + 1 := by
  unfold deeper
  split
  · rfl
  · split
    · next hclose =>
      have hpos := h hclose
      omega
    · rfl

theorem mem_outside_cons {depth : Nat} {first c : Char} {rest : List Char}
    (h : c ∈ outside (depth + 1) (first :: rest)) :
    (c = '(' ∨ c = ')') ∨ c ∈ outside (deeper (depth + 1) first) rest := by
  rw [outside] at h
  split at h
  · next hkept =>
    rcases List.mem_cons.mp h with rfl | h
    · exact Or.inl (hkept.resolve_left (Nat.succ_ne_zero _))
    · exact Or.inr h
  · exact Or.inr h

/-- Inside of a further parenthesis nothing but parentheses is kept. -/
theorem isParen_of_mem_outside {due behind text : List Char} (h : nest due text = some behind)
    {c : Char} (hc : c ∈ outside (due.count ')' + 1) text) : c = '(' ∨ c = ')' := by
  fun_induction nest due text with
  | case1 due => exact absurd hc List.not_mem_nil
  | case2 due first text closer hopen ih =>
    have hfirst : first ≠ ')' := by
      rintro rfl
      cases hopen
    have hrest := mem_outside_cons hc
    rw [deeper_succ fun hclose => absurd hclose hfirst, deeper_of_opener hopen] at hrest
    exact hrest.elim id (ih h)
  | case3 first text hopen hend => cases h
  | case4 text closer outer hopen hend ih =>
    have hpos : closer = ')' → 0 < (closer :: outer).count ')' := by
      rintro rfl
      simp
    have hrest := mem_outside_cons hc
    rw [deeper_succ hpos, deeper_of_closer hopen] at hrest
    exact hrest.elim id (ih h)
  | case5 first text hopen hend closer outer hne => cases h
  | case6 due first text hopen hend ih =>
    have hrest := mem_outside_cons hc
    rw [deeper_of_plain hopen hend] at hrest
    exact hrest.elim id (ih h)

/-! ## Surfaces -/

/-- **What of a text stands outside of literals and parentheses.** -/
def surface (text : String) : List Char := outside 0 (outline .code text.toList)

theorem surface_append {text : String} (h : IsClosed text.toList) (rest : String) :
    surface (text ++ rest) = surface text ++ surface rest := by
  rw [surface, String.toList_append, outline_append, h.1, outside_append, h.2.depth_eq]
  rfl

example : surface "('a | b' >= c)[] | 'd | e'" = "()[] | ''".toList := by decide

theorem mem_of_mem_outline {mode : Mode} {text : List Char} {c : Char}
    (h : c ∈ outline mode text) : c ∈ text := by
  induction text generalizing mode with
  | nil => exact absurd h List.not_mem_nil
  | cons first text ih =>
    rw [outline] at h
    split at h
    · rcases List.mem_cons.mp h with rfl | h
      · exact List.mem_cons_self
      · exact List.mem_cons_of_mem _ (ih h)
    · exact List.mem_cons_of_mem _ (ih h)

theorem mem_of_mem_surface {text : String} {c : Char} (h : c ∈ surface text) : c ∈ text.toList :=
  mem_of_mem_outline (mem_of_mem_outside h)

/-- On the surface of what is in parentheses there is nothing but parentheses. -/
theorem isParen_of_mem_surface {text : String} (h : IsClosed text.toList) {c : Char}
    (hc : c ∈ surface ("(" ++ text ++ ")")) : c = '(' ∨ c = ')' := by
  have hsurface : surface ("(" ++ text ++ ")")
      = '(' :: (outside 1 (outline .code text.toList) ++ [')']) := by
    rw [surface, String.toList_append, String.toList_append, List.append_assoc, outline_append,
      outline_append, show Mode.code.after "(".toList = .code from rfl, h.1]
    show '(' :: outside 1 (outline .code text.toList ++ [')']) = _
    rw [outside_append, h.2.depth_eq]
    rfl
  rw [hsurface] at hc
  rcases List.mem_cons.mp hc with rfl | hc
  · exact Or.inl rfl
  · rcases List.mem_append.mp hc with hc | hc
    · exact isParen_of_mem_outside (h.2 : nest [] _ = some []) hc
    · exact Or.inr (List.mem_singleton.mp hc)

/-! ## Operators -/

/-- The operators between operands. -/
def operators : List String := ["|", ">=", "<="]

/-- **Whether a text has an operator outside of literals and parentheses.** -/
def HasOperator (text : String) : Prop := ∃ op ∈ operators, op.toList <:+: surface text

instance (text : String) : Decidable (HasOperator text) :=
  inferInstanceAs (Decidable (∃ op ∈ operators, op.toList <:+: surface text))

/-- **Whether one pair of parentheses encloses a text as a whole.** -/
def IsEnclosed (text : String) : Prop :=
  ∃ inner : String, text = "(" ++ inner ++ ")" ∧ IsClosed inner.toList

/-- Every operator has a bar or an equals sign in it. -/
theorem not_hasOperator {text : String} (h : ∀ c ∈ surface text, c ≠ '|' ∧ c ≠ '=') :
    ¬ HasOperator text := by
  rintro ⟨op, hop, hfound⟩
  have hmem {c : Char} (hc : c ∈ op.toList) : c ≠ '|' ∧ c ≠ '=' := h c (hfound.subset hc)
  simp only [operators, List.mem_cons, List.not_mem_nil, or_false] at hop
  rcases hop with rfl | rfl | rfl
  · exact (hmem (by decide : '|' ∈ "|".toList)).1 rfl
  · exact (hmem (by decide : '=' ∈ ">=".toList)).2 rfl
  · exact (hmem (by decide : '=' ∈ "<=".toList)).2 rfl

/-- What is behind a closed text does not hide its operators. -/
theorem HasOperator.append_right {text : String} (h : IsClosed text.toList)
    (hoperator : HasOperator text) (rest : String) : HasOperator (text ++ rest) := by
  obtain ⟨op, hop, hfound⟩ := hoperator
  refine ⟨op, hop, ?_⟩
  rw [surface_append h]
  exact hfound.trans (List.prefix_append _ _).isInfix

/-- Neither does a closed text hide operators behind it. -/
theorem HasOperator.append_left {text rest : String} (h : IsClosed text.toList)
    (hoperator : HasOperator rest) : HasOperator (text ++ rest) := by
  obtain ⟨op, hop, hfound⟩ := hoperator
  refine ⟨op, hop, ?_⟩
  rw [surface_append h]
  exact hfound.trans (List.suffix_append _ _).isInfix

/-- **Whether a text has an operator that nothing encloses**, since the text begins with something
else than a parenthesis. -/
def IsLoose (text : String) : Prop :=
  HasOperator text ∧ ∃ c, text.toList.head? = some c ∧ c ≠ '('

theorem IsLoose.append_right {text : String} (h : IsClosed text.toList) (hloose : IsLoose text)
    (rest : String) : IsLoose (text ++ rest) := by
  obtain ⟨hoperator, c, hhead, hc⟩ := hloose
  refine ⟨hoperator.append_right h rest, c, ?_, hc⟩
  rw [String.toList_append, List.head?_append, hhead]
  rfl

theorem IsLoose.not_isEnclosed {text : String} (h : IsLoose text) : ¬ IsEnclosed text := by
  obtain ⟨-, c, hhead, hc⟩ := h
  rintro ⟨inner, rfl, -⟩
  rw [String.append_assoc, String.toList_append] at hhead
  exact hc (Option.some.inj hhead).symm

end SchemaForge.Script
