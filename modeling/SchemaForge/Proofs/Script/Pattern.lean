import SchemaForge.Proofs.Script.Regex

/-!
# `SchemaForge.Proofs.Script.Pattern` — what a regular expression literal makes of its pattern

Between its slashes a literal has the pattern with some characters escaped. A pattern in which nothing
is left to escape is called settled: the body of a literal always is, and a settled pattern is its own
body, so that nothing is escaped twice.

Escaping a line terminator does not change what the pattern denotes, if the terminator stands by itself.
Behind a backslash that protects it the raw terminator denotes itself, too; but the backslash of the
escape then becomes the protected character, and what is left of the escape denotes its letters.

## Contents
- **Bodies.** `literalBody`.
- **Settled patterns.** `IsSettled`, `SettledFrom` behind a text in front, and the result,
  `literalBody_settled`.
- **Tokens.** `Token`, `tokens`, and what a token denotes.
- **Meanings.** `meaning`, and `meaning_flatMap_lineEscape_iff` for the escaping of line terminators;
  the result, `meaning_literalBody_iff`.
-/

namespace SchemaForge.Script

open Text

/-! ## Bodies -/

/-- What stands between the slashes of the literal of a pattern: the literal without its first and its
last character. -/
def literalBody (pattern : String) : String :=
  String.ofList (regexLiteral pattern).toList.tail.dropLast

theorem toList_literalBody (pattern : String) :
    (literalBody pattern).toList = regexBody false pattern.toList := by
  rw [literalBody, regexLiteral, String.toList_ofList, String.toList_ofList, List.tail_cons,
    List.dropLast_concat]

example : literalBody "a/[\\/\n]" = "a\\/[\\/\\n]" := by decide

/-! ## Settled patterns -/

/-- **Whether nothing is left to escape in a pattern**: it has no line terminator, and a backslash
stands right in front of each slash. -/
structure IsSettled (pattern : List Char) : Prop where
  no_terminator : ∀ c ∈ pattern, isTerminator c = false
  slash_escaped : ∀ front rest, pattern = front ++ '/' :: rest → front.getLast? = some '\\'

/-- Whether nothing is left to escape in the rest of a pattern, when `escaped` says whether a backslash
stands in front of it. -/
def SettledFrom (escaped : Bool) : List Char → Prop
  | [] => True
  | c :: rest =>
    isTerminator c = false ∧ (c = '/' → escaped = true) ∧ SettledFrom (c == '\\') rest

/-- The text in front of the rest of a pattern matters by its last character only. -/
theorem settledFrom_iff {front rest : List Char} :
    SettledFrom (front.getLast? == some '\\') rest ↔
      (∀ c ∈ rest, isTerminator c = false) ∧
        ∀ between behind, rest = between ++ '/' :: behind →
          (front ++ between).getLast? = some '\\' := by
  induction rest generalizing front with
  | nil => simp [SettledFrom]
  | cons c rest ih =>
    have hlast : (c == '\\') = ((front ++ [c]).getLast? == some '\\') := by
      rw [List.getLast?_concat, Option.some_beq_some]
    rw [SettledFrom, hlast, ih, List.forall_mem_cons]
    constructor
    · rintro ⟨hline, hslash, hlines, hslashes⟩
      refine ⟨⟨hline, hlines⟩, fun between behind h => ?_⟩
      cases between with
      | nil =>
        rw [List.append_nil]
        exact beq_iff_eq.mp (hslash (List.cons.inj h).1)
      | cons first between =>
        obtain ⟨rfl, hrest⟩ := List.cons.inj h
        rw [← List.singleton_append, ← List.append_assoc]
        exact hslashes between behind hrest
    · rintro ⟨⟨hline, hlines⟩, hslashes⟩
      refine ⟨hline, fun hc => ?_, hlines, fun between behind h => ?_⟩
      · have hfront := hslashes [] rest (by rw [hc, List.nil_append])
        rw [List.append_nil] at hfront
        exact beq_iff_eq.mpr hfront
      · rw [List.append_assoc, List.singleton_append]
        exact hslashes (c :: between) behind (by rw [h, List.cons_append])

theorem isSettled_iff {pattern : List Char} : IsSettled pattern ↔ SettledFrom false pattern := by
  have hfront : (([] : List Char).getLast? == some '\\') = false := rfl
  rw [← hfront, settledFrom_iff]
  constructor
  · intro h
    exact ⟨h.no_terminator, h.slash_escaped⟩
  · intro h
    exact ⟨h.1, h.2⟩

/-- There are neither slashes nor line terminators in an escape, and it does not end in a backslash. -/
theorem settledFrom_escape_append {escaped : Bool} {c : Char} {escape rest : List Char}
    (h : escapeTerminator? c = some escape) (hrest : SettledFrom false rest) :
    SettledFrom escaped (escape ++ rest) := by
  rcases escapeTerminator?_eq_some h with ⟨-, rfl⟩ | ⟨-, rfl⟩ | ⟨-, rfl⟩ | ⟨-, rfl⟩ <;>
    simp [SettledFrom, isTerminator, isSeparator, hrest]

/-- Nothing is left to escape in what has been escaped. -/
theorem settledFrom_regexBody (escaped : Bool) (pattern : List Char) :
    SettledFrom escaped (regexBody escaped pattern) := by
  induction pattern generalizing escaped with
  | nil => trivial
  | cons c rest ih =>
    have hrest := ih (c == '\\')
    rw [regexBody]
    split
    · next hslash =>
      obtain ⟨rfl, -⟩ := hslash
      -- The backslash that is put in front of the slash escapes it.
      exact ⟨by decide, fun h => absurd h (by decide), by decide, fun _ => rfl, hrest⟩
    · next hslash =>
      cases hescape : escapeTerminator? c with
      | some escape =>
        have hne : (c == '\\') = false := by
          rcases escapeTerminator?_eq_some hescape with
            ⟨rfl, -⟩ | ⟨rfl, -⟩ | ⟨rfl, -⟩ | ⟨rfl, -⟩ <;> decide
        rw [hne] at hrest ⊢
        exact settledFrom_escape_append hescape hrest
      | none =>
        refine ⟨isTerminator_of_escapeTerminator? hescape, fun hc => ?_, hrest⟩
        simpa [hc] using hslash

/-- A pattern stays as it is exactly if nothing is left to escape in it. -/
theorem regexBody_eq_self_iff {escaped : Bool} {pattern : List Char} :
    regexBody escaped pattern = pattern ↔ SettledFrom escaped pattern := by
  induction pattern generalizing escaped with
  | nil => exact iff_of_true rfl trivial
  | cons c rest ih =>
    rw [regexBody, SettledFrom]
    by_cases hslash : c = '/' ∧ escaped = false
    · obtain ⟨rfl, rfl⟩ := hslash
      rw [if_pos ⟨rfl, rfl⟩]
      refine iff_of_false (fun h => ?_) fun h => absurd (h.2.1 rfl) (by decide)
      exact absurd (List.cons.inj h).1 (by decide)
    · rw [if_neg hslash]
      cases hescape : escapeTerminator? c with
      | some escape =>
        -- An escape begins with a backslash, and no line terminator is one.
        rcases escapeTerminator?_eq_some hescape with
          ⟨rfl, rfl⟩ | ⟨rfl, rfl⟩ | ⟨rfl, rfl⟩ | ⟨rfl, rfl⟩ <;>
          exact iff_of_false (fun h => absurd (List.cons.inj h).1 (by decide))
            fun h => absurd h.1 (by decide)
      | none =>
        have hbare : c = '/' → escaped = true := fun hc => by simpa [hc] using hslash
        rw [Option.getD_none, List.singleton_append, List.cons_inj_right, ih,
          and_iff_right (isTerminator_of_escapeTerminator? hescape), and_iff_right hbare]

/-- **Escaping settles a pattern, once and for all.** The body of a literal is settled; the settled
patterns are those that are their own bodies, and so the body of a body is that body. -/
theorem literalBody_settled (pattern : String) :
    IsSettled (literalBody pattern).toList ∧
      literalBody (literalBody pattern) = literalBody pattern ∧
      (literalBody pattern = pattern ↔ IsSettled pattern.toList) := by
  have hself (pattern : String) : literalBody pattern = pattern ↔ IsSettled pattern.toList := by
    rw [← String.toList_inj, toList_literalBody, regexBody_eq_self_iff, isSettled_iff]
  have hsettled : IsSettled (literalBody pattern).toList := by
    rw [toList_literalBody, isSettled_iff]
    exact settledFrom_regexBody false pattern.toList
  exact ⟨hsettled, (hself _).mpr hsettled, hself pattern⟩

/-! ## Tokens -/

/-- A piece of a pattern that is read as one. -/
inductive Token where
  /-- A character that nothing protects. -/
  | plain (c : Char)
  /-- A backslash and the character that it protects. -/
  | escaped (c : Char)
  /-- A backslash, the letter `u` and four hexadecimal digits. -/
  | unit (a b c d : Char)
deriving DecidableEq, Repr

/-- The tokens of a pattern. A backslash at the end, which protects nothing, is one by itself. -/
def tokens : List Char → List Token
  | [] => []
  | '\\' :: 'u' :: a :: b :: c :: d :: rest =>
    if (Hex.numeral? [a, b, c, d]).isSome then .unit a b c d :: tokens rest
    else .escaped 'u' :: tokens (a :: b :: c :: d :: rest)
  | '\\' :: c :: rest => .escaped c :: tokens rest
  | c :: rest => .plain c :: tokens rest

namespace Token

/-- The line terminator that a token denotes, if it denotes one: it may stand there by itself, behind a
backslash, or as its escape. -/
def terminator? : Token → Option Char
  | plain c => if isTerminator c then some c else none
  | escaped c =>
    if isTerminator c then some c
    else if c = 'n' then some '\n'
    else if c = 'r' then some '\r'
    else none
  | unit a b c d =>
    if [a, b, c, d] = ['2', '0', '2', '8'] then some '\u2028'
    else if [a, b, c, d] = ['2', '0', '2', '9'] then some '\u2029'
    else none

/-- What a token denotes: a line terminator, or else itself. -/
def denoted (token : Token) : Char ⊕ Token :=
  match token.terminator? with
  | some c => .inl c
  | none => .inr token

theorem denoted_plain {c : Char} (h : isTerminator c = true) :
    (plain c).denoted = .inl c := by
  rw [denoted, terminator?, if_pos h]

theorem denoted_escaped {c : Char} (h : isTerminator c = true) :
    (escaped c).denoted = .inl c := by
  rw [denoted, terminator?, if_pos h]

/-- Whether a token is a backslash that protects a raw line terminator. -/
def protectsTerminator : Token → Bool
  | plain _ | unit .. => false
  | escaped c => isTerminator c

end Token

example : tokens "a\\u2028\\u20\\\\\n".toList
    = [.plain 'a', .unit '2' '0' '2' '8', .escaped 'u', .plain '2', .plain '0', .escaped '\\',
      .plain '\n'] := by decide

/-! ## Meanings -/

/-- **The meaning of a pattern**: what its tokens denote, in order. -/
def meaning (pattern : List Char) : List (Char ⊕ Token) := (tokens pattern).map Token.denoted

/-- Whether a text begins with the four digits of a unit. -/
def BeginsWithUnit (text : List Char) : Prop :=
  ∃ a b c d rest, text = a :: b :: c :: d :: rest ∧ (Hex.numeral? [a, b, c, d]).isSome = true

theorem tokens_plain {c : Char} (hslash : c ≠ '\\') (rest : List Char) :
    tokens (c :: rest) = .plain c :: tokens rest := by
  rw [tokens]
  · rintro a b c d rest' rfl
    exact absurd rfl hslash
  · rintro letter rest' rfl
    exact absurd rfl hslash

theorem tokens_unit {a b c d : Char} (h : (Hex.numeral? [a, b, c, d]).isSome = true)
    (rest : List Char) :
    tokens ('\\' :: 'u' :: a :: b :: c :: d :: rest) = .unit a b c d :: tokens rest := by
  rw [tokens, if_pos h]

theorem tokens_escaped {c : Char} {rest : List Char} (h : c = 'u' → ¬ BeginsWithUnit rest) :
    tokens ('\\' :: c :: rest) = .escaped c :: tokens rest := by
  by_cases hu : c = 'u'
  · subst hu
    have hrest := h rfl
    match rest with
    | [] => rfl
    | [_] => rfl
    | [_, _] => rfl
    | [_, _, _] => rfl
    | a :: b :: c :: d :: rest =>
      rw [tokens, if_neg fun hdigits => hrest ⟨a, b, c, d, rest, rfl, hdigits⟩]
  · rw [tokens]
    exact fun _ _ _ _ _ h => absurd h hu

/-- A character with the escape of a line terminator in its place. -/
def lineEscape (c : Char) : List Char := (escapeTerminator? c).getD [c]

theorem flatMap_lineEscape_cons {c : Char} (h : isTerminator c = false) (rest : List Char) :
    (c :: rest).flatMap lineEscape = c :: rest.flatMap lineEscape := by
  rw [List.flatMap_cons, lineEscape, escapeTerminator?_eq_none h, Option.getD_none,
    List.singleton_append]

theorem exists_escapeTerminator? {c : Char} (h : isTerminator c = true) :
    ∃ escape, escapeTerminator? c = some escape := by
  cases hescape : escapeTerminator? c with
  | none =>
    rw [isTerminator_of_escapeTerminator? hescape] at h
    cases h
  | some escape => exact ⟨escape, rfl⟩

theorem isTerminator_of_hexDigit {c : Char} (h : Hex.value? c ≠ none) : isTerminator c = false := by
  cases hline : isTerminator c with
  | false => rfl
  | true =>
    obtain ⟨escape, hescape⟩ := exists_escapeTerminator? hline
    rcases escapeTerminator?_eq_some hescape with ⟨rfl, -⟩ | ⟨rfl, -⟩ | ⟨rfl, -⟩ | ⟨rfl, -⟩ <;>
      exact absurd (by decide) h

/-- Without slashes nothing but line terminators is escaped. -/
theorem regexBody_eq_flatMap {pattern : List Char} (hslash : '/' ∉ pattern) (escaped : Bool) :
    regexBody escaped pattern = pattern.flatMap lineEscape := by
  induction pattern generalizing escaped with
  | nil => rfl
  | cons c rest ih =>
    obtain ⟨hc, hrest⟩ := not_or.mp (mt List.mem_cons.mpr hslash)
    rw [regexBody, if_neg fun h => hc h.1.symm, ih hrest, List.flatMap_cons, lineEscape]

/-- The escape of a line terminator is a token, which denotes the terminator. -/
theorem tokens_lineEscape {c : Char} (h : isTerminator c = true) (rest : List Char) :
    ∃ token, tokens (lineEscape c ++ rest) = token :: tokens rest ∧ token.denoted = .inl c := by
  obtain ⟨escape, hescape⟩ := exists_escapeTerminator? h
  rw [lineEscape, hescape, Option.getD_some]
  rcases escapeTerminator?_eq_some hescape with ⟨rfl, rfl⟩ | ⟨rfl, rfl⟩ | ⟨rfl, rfl⟩ | ⟨rfl, rfl⟩
  · exact ⟨.escaped 'n', tokens_escaped nofun, by decide⟩
  · exact ⟨.escaped 'r', tokens_escaped nofun, by decide⟩
  · exact ⟨.unit '2' '0' '2' '8', tokens_unit (by decide) rest, by decide⟩
  · exact ⟨.unit '2' '0' '2' '9', tokens_unit (by decide) rest, by decide⟩

/-- A backslash in front of the escape protects that of the escape, which leaves letters behind. -/
theorem tokens_backslash_lineEscape {c : Char} (h : isTerminator c = true) (rest : List Char) :
    ∃ others, tokens ('\\' :: (lineEscape c ++ rest)) = .escaped '\\' :: others := by
  obtain ⟨escape, hescape⟩ := exists_escapeTerminator? h
  have hletters : ∃ letters, escape = '\\' :: letters := by
    rcases escapeTerminator?_eq_some hescape with ⟨-, rfl⟩ | ⟨-, rfl⟩ | ⟨-, rfl⟩ | ⟨-, rfl⟩ <;>
      exact ⟨_, rfl⟩
  obtain ⟨letters, rfl⟩ := hletters
  rw [lineEscape, hescape, Option.getD_some, List.cons_append]
  exact ⟨_, tokens_escaped fun hu => absurd hu (by decide)⟩

/-- Escapes begin with a backslash, so a digit in front was there before. -/
theorem eq_cons_of_flatMap_lineEscape {x : Char} (hx : Hex.value? x ≠ none) {text behind : List Char}
    (h : text.flatMap lineEscape = x :: behind) :
    ∃ rest, text = x :: rest ∧ rest.flatMap lineEscape = behind := by
  cases text with
  | nil => cases h
  | cons c text =>
    rw [List.flatMap_cons, lineEscape] at h
    cases hescape : escapeTerminator? c with
    | none =>
      rw [hescape] at h
      obtain ⟨rfl, hrest⟩ := List.cons.inj h
      exact ⟨text, rfl, hrest⟩
    | some escape =>
      rw [hescape] at h
      rcases escapeTerminator?_eq_some hescape with ⟨-, rfl⟩ | ⟨-, rfl⟩ | ⟨-, rfl⟩ | ⟨-, rfl⟩ <;>
        exact absurd (by rw [← (List.cons.inj h).1]; decide) hx

/-- Escaping line terminators makes no units. -/
theorem beginsWithUnit_of_flatMap_lineEscape {text : List Char}
    (h : BeginsWithUnit (text.flatMap lineEscape)) : BeginsWithUnit text := by
  obtain ⟨a, b, c, d, rest, ha, hdigits⟩ := h
  obtain ⟨unit, hunit⟩ := Option.isSome_iff_exists.mp hdigits
  have hvalue := Hex.value?_of_numeral? hunit
  obtain ⟨text, rfl, hb⟩ := eq_cons_of_flatMap_lineEscape (hvalue a (by simp)) ha
  obtain ⟨text, rfl, hc⟩ := eq_cons_of_flatMap_lineEscape (hvalue b (by simp)) hb
  obtain ⟨text, rfl, hd⟩ := eq_cons_of_flatMap_lineEscape (hvalue c (by simp)) hc
  obtain ⟨text, rfl, -⟩ := eq_cons_of_flatMap_lineEscape (hvalue d (by simp)) hd
  exact ⟨a, b, c, d, text, rfl, hdigits⟩

/-- A token that denotes the same on both sides, and protects no line terminator, does not matter. -/
theorem map_denoted_cons_iff {first other : Token} {rest others : List Token}
    (hsame : other.denoted = first.denoted) (hfree : first.protectsTerminator = false)
    (hrest : others.map Token.denoted = rest.map Token.denoted ↔
      ∀ token ∈ rest, token.protectsTerminator = false) :
    (other :: others).map Token.denoted = (first :: rest).map Token.denoted ↔
      ∀ token ∈ first :: rest, token.protectsTerminator = false := by
  rw [List.map_cons, List.map_cons, hsame, List.cons_inj_right, hrest, List.forall_mem_cons,
    and_iff_right hfree]

/-- **Escaping line terminators keeps the meaning of a text exactly if no backslash protects one.** -/
theorem meaning_flatMap_lineEscape_iff (text : List Char) :
    meaning (text.flatMap lineEscape) = meaning text ↔
      ∀ token ∈ tokens text, token.protectsTerminator = false := by
  have hbackslash : isTerminator '\\' = false := rfl
  have hu : isTerminator 'u' = false := rfl
  unfold meaning
  -- One case for each equation of `tokens`: the escaped text has the same token in front.
  fun_induction tokens text with
  | case1 => simp [tokens]
  | case2 a b c d rest hdigits ih =>
    obtain ⟨unit, hunit⟩ := Option.isSome_iff_exists.mp hdigits
    have hline : ∀ x ∈ [a, b, c, d], isTerminator x = false :=
      fun x hx => isTerminator_of_hexDigit (Hex.value?_of_numeral? hunit x hx)
    rw [flatMap_lineEscape_cons hbackslash, flatMap_lineEscape_cons hu,
      flatMap_lineEscape_cons (hline a (by simp)), flatMap_lineEscape_cons (hline b (by simp)),
      flatMap_lineEscape_cons (hline c (by simp)), flatMap_lineEscape_cons (hline d (by simp)),
      tokens_unit hdigits]
    exact map_denoted_cons_iff rfl rfl ih
  | case3 a b c d rest hdigits ih =>
    have hunit : ¬ BeginsWithUnit ((a :: b :: c :: d :: rest).flatMap lineEscape) := by
      intro h
      obtain ⟨_, _, _, _, _, heq, hsome⟩ := beginsWithUnit_of_flatMap_lineEscape h
      cases heq
      exact hdigits hsome
    rw [flatMap_lineEscape_cons hbackslash, flatMap_lineEscape_cons hu, tokens_escaped fun _ => hunit]
    exact map_denoted_cons_iff rfl rfl ih
  | case4 c rest hunit ih =>
    rw [flatMap_lineEscape_cons hbackslash]
    cases hline : isTerminator c with
    | true =>
      -- Here the token in front is another one.
      obtain ⟨others, htokens⟩ := tokens_backslash_lineEscape hline (rest.flatMap lineEscape)
      rw [List.flatMap_cons, htokens]
      refine iff_of_false (fun h => ?_) fun h => ?_
      · have hhead := (List.cons.inj h).1
        have hbare : (Token.escaped '\\').denoted = .inr (.escaped '\\') := by decide
        rw [hbare, Token.denoted_escaped hline] at hhead
        cases hhead
      · have hfree : isTerminator c = false := h _ List.mem_cons_self
        rw [hline] at hfree
        cases hfree
    | false =>
      have hrest : c = 'u' → ¬ BeginsWithUnit (rest.flatMap lineEscape) := by
        intro hc h
        obtain ⟨a, b, c', d, rest', heq, -⟩ := beginsWithUnit_of_flatMap_lineEscape h
        exact hunit a b c' d rest' hc heq
      rw [flatMap_lineEscape_cons hline, tokens_escaped hrest]
      exact map_denoted_cons_iff rfl hline ih
  | case5 c rest hunit hescaped ih =>
    cases hline : isTerminator c with
    | true =>
      obtain ⟨token, htokens, hdenotes⟩ := tokens_lineEscape hline (rest.flatMap lineEscape)
      rw [List.flatMap_cons, htokens]
      refine map_denoted_cons_iff ?_ rfl ih
      rw [hdenotes, Token.denoted_plain hline]
    | false =>
      rw [flatMap_lineEscape_cons hline]
      by_cases hslash : c = '\\'
      · subst hslash
        cases rest with
        | nil => exact map_denoted_cons_iff rfl rfl ih
        | cons next rest => exact absurd rfl (hescaped next rest rfl)
      · rw [tokens_plain hslash]
        exact map_denoted_cons_iff rfl rfl ih

/-- **When a literal keeps the meaning of its pattern.** The body of the literal of a pattern without
slashes means what the pattern means if and only if no backslash in the pattern protects a raw line
terminator. -/
theorem meaning_literalBody_iff {pattern : String} (hslash : '/' ∉ pattern.toList) :
    meaning (literalBody pattern).toList = meaning pattern.toList ↔
      ∀ token ∈ tokens pattern.toList, token.protectsTerminator = false := by
  rw [toList_literalBody, regexBody_eq_flatMap hslash, meaning_flatMap_lineEscape_iff]

/-- A raw line feed behind a protected backslash, an escape that is there already, and a raw return. -/
theorem meaning_literalBody_of_mixed :
    '/' ∉ "a\\\\\n\\u2028\r".toList ∧
      meaning (literalBody "a\\\\\n\\u2028\r").toList = meaning "a\\\\\n\\u2028\r".toList := by
  have hslash : '/' ∉ "a\\\\\n\\u2028\r".toList := by decide
  exact ⟨hslash, (meaning_literalBody_iff hslash).mpr (by decide)⟩

/-- **A pattern whose meaning is changed**: a backslash that protects a raw line feed. Its literal asks
for a backslash and a letter. -/
theorem meaning_changed_behind_backslash :
    '/' ∉ "\\\n".toList ∧ Token.plain '\\' ∉ tokens "\\\n".toList ∧
      meaning "\\\n".toList = [.inl '\n'] ∧
      meaning (literalBody "\\\n").toList = [.inr (.escaped '\\'), .inr (.plain 'n')] ∧
      meaning (literalBody "\\\n").toList ≠ meaning "\\\n".toList := by
  decide

end SchemaForge.Script
