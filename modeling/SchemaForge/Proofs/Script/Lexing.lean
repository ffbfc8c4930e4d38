import Mathlib.Data.List.Forall2
import SchemaForge.Proofs.Script.Literal

/-!
# `SchemaForge.Proofs.Script.Lexing` — what stands outside the string literals of a script

To see where string literals begin and end no more has to be known of a script than this: a quote
opens a literal, a backslash in a literal protects the next character, and the same quote closes the
literal. What is left when the contents of all literals are taken out is the outline of the script.
Two pieces of code are alike when they have the same outline and leave no literal open. Likeness is
kept by everything that code is put together with, so code can be compared piece by piece.

## Contents
- **Scanning.** `Mode` says where a scan stands, `Mode.after` where it stands behind a text.
- **Outlines.** `outline`, and `outline_append` for texts behind one another.
- **Brackets.** `nest` matches brackets; `Balanced` texts leave none open.
- **Contents.** `Hidden` contents leave nothing in the outline; `hidden_flatMap` for whatever
  `scan` reads.
- **Likeness.** `Alike`, with one lemma for each way in which code is put together; `IsClosed` code
  is alike to itself.
-/

namespace SchemaForge.Script

/-! ## Scanning -/

/-- Where a scan stands. -/
inductive Mode where
  /-- Outside of all literals. -/
  | code
  /-- In the literal that the quote opened. -/
  | literal (quote : Char)
  /-- In that literal, behind a backslash. -/
  | escaped (quote : Char)
deriving DecidableEq, Repr

/-- Whether a character is a quote. -/
def isQuote (c : Char) : Bool := c == '"' || c == '\''

theorem isQuote_iff {c : Char} : isQuote c = true ↔ c = '"' ∨ c = '\'' := by
  rw [isQuote, Bool.or_eq_true, beq_iff_eq, beq_iff_eq]

theorem ne_backslash_of_isQuote {c : Char} (h : isQuote c = true) : c ≠ '\\' := by
  rintro rfl
  cases h

namespace Mode

/-- Where a scan stands behind one more character. -/
def step : Mode → Char → Mode
  | .code, c => if isQuote c then .literal c else .code
  | .literal quote, c =>
    if c = quote then .code else if c = '\\' then .escaped quote else .literal quote
  | .escaped quote, _ => .literal quote

/-- Where a scan stands behind a text. -/
def after (mode : Mode) (text : List Char) : Mode := text.foldl step mode

/-- Whether a character is left when the contents of literals are taken out. -/
def shows : Mode → Char → Bool
  | .code, _ => true
  | .literal quote, c => c == quote
  | .escaped _, _ => false

theorem after_append (mode : Mode) (text rest : List Char) :
    mode.after (text ++ rest) = (mode.after text).after rest := List.foldl_append

end Mode

/-! ## Outlines -/

/-- What is left of a text when the contents of literals are taken out. -/
def outline (mode : Mode) : List Char → List Char
  | [] => []
  | c :: rest =>
    if mode.shows c then c :: outline (mode.step c) rest else outline (mode.step c) rest

theorem outline_append (mode : Mode) (text rest : List Char) :
    outline mode (text ++ rest) = outline mode text ++ outline (mode.after text) rest := by
  induction text generalizing mode with
  | nil => rfl
  | cons c text ih =>
    have hrest := ih (mode.step c)
    cases hshows : mode.shows c with
    | true => simp [outline, hshows, hrest, Mode.after]
    | false => simp [outline, hshows, hrest, Mode.after]

example : outline .code "f(\"a\\\"b\", 'c)')".toList = "f(\"\", '')".toList := by decide

/-! ## Brackets -/

/-- The bracket that closes an opening one. -/
def closer? (c : Char) : Option Char :=
  if c = '(' then some ')'
  else if c = '[' then some ']'
  else if c = '\x7b' then some '\x7d'
  else none

theorem closer?_eq_some_iff {opener closer : Char} : closer? opener = some closer ↔
    opener = '(' ∧ closer = ')' ∨ opener = '[' ∧ closer = ']' ∨
      opener = '\x7b' ∧ closer = '\x7d' := by
  unfold closer?
  grind

/-- Whether a character is a closing bracket. -/
def isEnd (c : Char) : Bool := c == ')' || c == ']' || c == '\x7d'

/-- The closing brackets that are due behind a text, the innermost first, when those in `due` are
due in front of it. There is none if the text has another closing bracket than the one due. -/
def nest (due : List Char) : List Char → Option (List Char)
  | [] => some due
  | c :: rest =>
    match closer? c with
    | some closer => nest (closer :: due) rest
    | none =>
      if isEnd c then
        match due with
        | [] => none
        | closer :: outer => if c = closer then nest outer rest else none
      else nest due rest

/-- **Whether the brackets of a text are nested and matched**, with none left open. -/
def Balanced (text : List Char) : Prop := nest [] text = some []

instance (text : List Char) : Decidable (Balanced text) :=
  inferInstanceAs (Decidable (nest [] text = some []))

theorem nest_append (due text rest : List Char) :
    nest due (text ++ rest) = (nest due text).bind fun due => nest due rest := by
  fun_induction nest due text with
  | case1 due => rfl
  | case2 due c text closer hopen ih => simp only [List.cons_append, nest, hopen, ih]
  | case3 c text hopen hend => simp [nest, hopen, hend]
  | case4 text closer outer hopen hend ih => simp [nest, hopen, hend, ih]
  | case5 c text hopen hend closer outer hne => simp [nest, hopen, hend, hne]
  | case6 due c text hopen hend ih => simp only [List.cons_append, nest, hopen, hend, ih]; rfl

/-- Brackets that are due around a text do not matter to what nests inside it. -/
theorem nest_around {due text behind : List Char} (h : nest due text = some behind)
    (around : List Char) : nest (due ++ around) text = some (behind ++ around) := by
  fun_induction nest due text with
  | case1 due => cases h; rfl
  | case2 due c text closer hopen ih => simpa only [nest, hopen, List.cons_append] using ih h
  | case3 c text hopen hend => cases h
  | case4 text closer outer hopen hend ih => simpa [nest, hopen, hend] using ih h
  | case5 c text hopen hend closer outer hne => cases h
  | case6 due c text hopen hend ih => simpa [nest, hopen, hend] using ih h

/-- A balanced text leaves what is due as it is. -/
theorem Balanced.nest_eq {text : List Char} (h : Balanced text) (due : List Char) :
    nest due text = some due := nest_around h due

theorem Balanced.append {text rest : List Char} (htext : Balanced text) (hrest : Balanced rest) :
    Balanced (text ++ rest) := by
  rw [Balanced, nest_append, htext, Option.bind_some, hrest]

/-- A bracket pair around a balanced text. -/
theorem Balanced.enclose {opener closer : Char} (hpair : closer? opener = some closer)
    {text : List Char} (h : Balanced text) : Balanced (opener :: (text ++ [closer])) := by
  have hcloser : closer? closer = none ∧ isEnd closer = true := by
    rcases closer?_eq_some_iff.mp hpair with ⟨-, rfl⟩ | ⟨-, rfl⟩ | ⟨-, rfl⟩ <;> decide
  rw [Balanced, nest, hpair]
  simp only [nest_append, h.nest_eq, Option.bind_some, nest, hcloser]
  simp

/-- A text without brackets is balanced. -/
theorem balanced_of_bare {text : List Char} (h : ∀ c ∈ text, closer? c = none ∧ isEnd c = false) :
    Balanced text := by
  induction text with
  | nil => rfl
  | cons c rest ih =>
    obtain ⟨hopen, hend⟩ := h c List.mem_cons_self
    rw [Balanced, nest, hopen]
    simp only [hend, Bool.false_eq_true, if_false]
    exact ih fun other hother => h other (List.mem_cons_of_mem _ hother)

/-! ## Contents -/

/-- Whether a content stays inside a literal, and so leaves nothing in the outline. -/
def Hidden (quote : Char) (content : List Char) : Prop :=
  (Mode.literal quote).after content = .literal quote ∧ outline (.literal quote) content = []

section

variable {quote : Char}

theorem Hidden.cons {c : Char} {content : List Char} (hquote : c ≠ quote) (hslash : c ≠ '\\')
    (h : Hidden quote content) : Hidden quote (c :: content) := by
  have hstep : (Mode.literal quote).step c = .literal quote := by
    rw [Mode.step, if_neg hquote, if_neg hslash]
  have hshows : (Mode.literal quote).shows c = false := beq_false_of_ne hquote
  constructor
  · rw [Mode.after, List.foldl_cons, hstep]
    exact h.1
  · rw [outline, hshows, hstep]
    exact h.2

/-- Behind a backslash any character is hidden. -/
theorem Hidden.cons_escape {content : List Char} (hquote : quote ≠ '\\') (letter : Char)
    (h : Hidden quote content) : Hidden quote ('\\' :: letter :: content) := by
  have hstep : (Mode.literal quote).step '\\' = .escaped quote := by
    rw [Mode.step, if_neg hquote.symm, if_pos rfl]
  have hshows : (Mode.literal quote).shows '\\' = false := beq_false_of_ne hquote.symm
  constructor
  · rw [Mode.after, List.foldl_cons, hstep, List.foldl_cons]
    exact h.1
  · rw [outline, hshows, hstep, outline]
    exact h.2

/-- Neither a quote nor a backslash is a hexadecimal digit. -/
theorem ne_of_hexDigit (hquote : isQuote quote) {c : Char} (h : Text.Hex.value? c ≠ none) :
    c ≠ quote ∧ c ≠ '\\' := by
  constructor
  · rintro rfl
    rcases isQuote_iff.mp hquote with rfl | rfl <;> exact h (by decide)
  · rintro rfl
    exact h (by decide)

/-- **What is read of a literal is hidden in it**, up to the quote that closes the literal. -/
theorem hidden_of_scan (hquote : isQuote quote) {text rest : List Char} {units : List Nat}
    (h : scan quote text = some (units, rest)) :
    ∃ content, text = content ++ quote :: rest ∧ Hidden quote content := by
  have hslash := ne_backslash_of_isQuote hquote
  have hscans := scans_of_scan h
  clear h
  induction hscans with
  | close rest => exact ⟨[], rfl, rfl, rfl⟩
  | @unit a b c d unit _ _ _ hunit _ ih =>
    obtain ⟨content, rfl, hcontent⟩ := ih
    -- The backslash protects the `u`; the digits have to be harmless by themselves.
    have hdigits := Text.Hex.value?_of_numeral? hunit
    obtain ⟨hd, hd'⟩ := ne_of_hexDigit hquote (hdigits d (by simp))
    obtain ⟨hc, hc'⟩ := ne_of_hexDigit hquote (hdigits c (by simp))
    obtain ⟨hb, hb'⟩ := ne_of_hexDigit hquote (hdigits b (by simp))
    obtain ⟨ha, ha'⟩ := ne_of_hexDigit hquote (hdigits a (by simp))
    exact ⟨'\\' :: 'u' :: a :: b :: c :: d :: content, rfl,
      ((((hcontent.cons hd hd').cons hc hc').cons hb hb').cons ha ha').cons_escape hslash 'u'⟩
  | @letter letter _ _ _ _ _ _ ih =>
    obtain ⟨content, rfl, hcontent⟩ := ih
    exact ⟨'\\' :: letter :: content, rfl, hcontent.cons_escape hslash letter⟩
  | @raw c _ _ _ hne _ hbackslash _ ih =>
    obtain ⟨content, rfl, hcontent⟩ := ih
    exact ⟨c :: content, rfl, hcontent.cons hne hbackslash⟩

/-- The escaped characters of a text are hidden. -/
theorem hidden_flatMap {α : Type} (hquote : isQuote quote) {f : α → List Char} {g : α → List Nat}
    (hreads : ∀ c, Reads quote (f c) (g c)) (text : List α) : Hidden quote (text.flatMap f) := by
  have hslash := ne_backslash_of_isQuote hquote
  have hscan := scan_flatMap hslash hreads text []
  obtain ⟨content, heq, hcontent⟩ := hidden_of_scan hquote hscan
  rwa [List.append_cancel_right heq]

end

/-! ## Likeness -/

/-- **Whether two pieces of code differ only inside their literals**, which are all closed. With
`strict` the brackets outside the literals are balanced, too. -/
structure Alike (strict : Bool) (code other : List Char) : Prop where
  closed : Mode.code.after code = .code
  closed_other : Mode.code.after other = .code
  outline_eq : outline .code code = outline .code other
  balanced : strict = true → Balanced (outline .code code)

variable {strict : Bool} {code other : List Char}

/-- **Whether code leaves nothing open**: its literals are closed, and outside of them its brackets
are balanced. -/
def IsClosed (code : List Char) : Prop :=
  Mode.code.after code = .code ∧ Balanced (outline .code code)

instance (code : List Char) : Decidable (IsClosed code) :=
  inferInstanceAs (Decidable (_ ∧ _))

/-- A piece of code that is on both sides. -/
theorem Alike.same (h : IsClosed code) : Alike strict code code :=
  ⟨h.1, h.1, rfl, fun _ => h.2⟩

theorem Alike.isClosed (h : Alike true code other) : IsClosed code := ⟨h.closed, h.balanced rfl⟩

/-- Whether a character is neither a quote nor a bracket. -/
def IsBare (c : Char) : Prop := isQuote c = false ∧ closer? c = none ∧ isEnd c = false

/-- Code without quotes is its own outline. -/
theorem outline_of_bare (h : ∀ c ∈ code, isQuote c = false) :
    Mode.code.after code = .code ∧ outline .code code = code := by
  induction code with
  | nil => exact ⟨rfl, rfl⟩
  | cons c rest ih =>
    have hstep : Mode.code.step c = .code := by simp [Mode.step, h c List.mem_cons_self]
    obtain ⟨hafter, hrest⟩ := ih fun other hother => h other (List.mem_cons_of_mem _ hother)
    constructor
    · rw [Mode.after, List.foldl_cons, hstep]
      exact hafter
    · rw [outline, hstep, hrest]
      rfl

theorem alike_of_bare (h : ∀ c ∈ code, IsBare c) : Alike strict code code := by
  obtain ⟨hclosed, houtline⟩ := outline_of_bare fun c hc => (h c hc).1
  refine .same ⟨hclosed, ?_⟩
  rw [houtline]
  exact balanced_of_bare fun c hc => (h c hc).2

theorem Alike.append {rest rest' : List Char} (h : Alike strict code other)
    (hrest : Alike strict rest rest') : Alike strict (code ++ rest) (other ++ rest') where
  closed := by rw [Mode.after_append, h.closed, hrest.closed]
  closed_other := by rw [Mode.after_append, h.closed_other, hrest.closed_other]
  outline_eq := by
    rw [outline_append, outline_append, h.closed, h.closed_other, h.outline_eq, hrest.outline_eq]
  balanced hstrict := by
    rw [outline_append, h.closed]
    exact (h.balanced hstrict).append (hrest.balanced hstrict)

/-- Two literals with the same quotes. -/
theorem alike_literal {quote : Char} (hquote : isQuote quote) {content content' : List Char}
    (h : Hidden quote content) (h' : Hidden quote content') :
    Alike strict (quote :: (content ++ [quote])) (quote :: (content' ++ [quote])) := by
  have hopen : Mode.code.step quote = .literal quote := by rw [Mode.step, if_pos hquote]
  have hclose : (Mode.literal quote).step quote = .code := by rw [Mode.step, if_pos rfl]
  have hafter (content : List Char) (h : Hidden quote content) :
      Mode.code.after (quote :: (content ++ [quote])) = .code := by
    rw [Mode.after, List.foldl_cons, hopen, ← Mode.after, Mode.after_append, h.1]
    exact hclose
  have houtline (content : List Char) (h : Hidden quote content) :
      outline .code (quote :: (content ++ [quote])) = [quote, quote] := by
    rw [outline, hopen, outline_append, h.2, h.1]
    simp [outline, Mode.shows]
  refine ⟨hafter content h, hafter content' h', ?_, fun _ => ?_⟩
  · rw [houtline content h, houtline content' h']
  · rw [houtline content h]
    rcases isQuote_iff.mp hquote with rfl | rfl <;> decide

/-- A bracket pair around code. -/
theorem Alike.enclose {opener closer : Char} (hpair : closer? opener = some closer)
    (h : Alike strict code other) :
    Alike strict (opener :: (code ++ [closer])) (opener :: (other ++ [closer])) := by
  have hopener : Mode.code.step opener = .code ∧ Mode.code.step closer = .code := by
    rcases closer?_eq_some_iff.mp hpair with ⟨rfl, rfl⟩ | ⟨rfl, rfl⟩ | ⟨rfl, rfl⟩ <;> decide
  have houtline (code : List Char) (h : Mode.code.after code = .code) :
      outline .code (opener :: (code ++ [closer])) = opener :: (outline .code code ++ [closer]) := by
    rw [outline, hopener.1, outline_append, h]
    rfl
  have hafter (code : List Char) (h : Mode.code.after code = .code) :
      Mode.code.after (opener :: (code ++ [closer])) = .code := by
    rw [Mode.after, List.foldl_cons, hopener.1, ← Mode.after, Mode.after_append, h]
    exact hopener.2
  refine ⟨hafter code h.closed, hafter other h.closed_other, ?_, fun hstrict => ?_⟩
  · rw [houtline code h.closed, houtline other h.closed_other, h.outline_eq]
  · rw [houtline code h.closed]
    exact (h.balanced hstrict).enclose hpair

/-- Pieces of code behind one another, separated. -/
theorem Alike.intercalate {sep : List Char} (hsep : Alike strict sep sep)
    {pieces others : List (List Char)} (h : List.Forall₂ (Alike strict) pieces others) :
    Alike strict (sep.intercalate pieces) (sep.intercalate others) := by
  induction h with
  | nil => exact alike_of_bare fun c hc => absurd hc List.not_mem_nil
  | cons hfirst hrest ih =>
    cases hrest with
    | nil => simpa using hfirst
    | cons hnext hrest =>
      rw [List.intercalate_cons_cons, List.intercalate_cons_cons]
      exact (hfirst.append hsep).append ih

end SchemaForge.Script
