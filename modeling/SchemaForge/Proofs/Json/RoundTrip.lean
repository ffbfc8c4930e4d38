import SchemaForge.Json.Reader
import SchemaForge.Proofs.Json.Ascii
import SchemaForge.Proofs.Json.Numerals
import SchemaForge.Proofs.Json.Strings

/-!
# `SchemaForge.Proofs.Json.RoundTrip` — reading values back

A value is taken off the front of every text that it was written into, if only the text behind it
does not go on with its last numeral. That is what `ReadBack` says, and it passes from items to lists
and from members to objects, since a comma, a bracket or a brace ends every numeral. Doubles are left
out: their texts are not shown to denote them. An object is read back only if no key occurs twice.

## Contents
- **Steps.** `Takes`, for a step of the reader that took a value off the front of a text.
- **First characters.** What the reader does with a value depends on its first character.
- **Values.** `ReadBack`, with one lemma for each kind of value.
- **Texts.** `Legible` values are read back (`readBack_of_legible`), and `write_readBack`.
- **Limits.** `dump_readBack`: which values have a text when the length of integers is limited.
-/

namespace SchemaForge.Json

/-! ## Steps -/

/-- Whether a step took a value off the front of a text and left the rest. -/
def Takes {α : Type} {text : List Char} (step : Except ReadFault (Front α text)) (value : α)
    (rest : List Char) : Prop :=
  ∃ shorter, step = .ok ⟨value, rest, shorter⟩

theorem Takes.bind {α β : Type} {text text' : List Char} {step : Except ReadFault (Front α text)}
    {value : α} {rest : List Char} (h : Takes step value rest)
    {next : Front α text → Except ReadFault (Front β text')} {value' : β} {rest' : List Char}
    (hnext : ∀ shorter, Takes (next ⟨value, rest, shorter⟩) value' rest') :
    Takes (step >>= next) value' rest' := by
  obtain ⟨shorter, rfl⟩ := h
  exact hnext shorter

/-- A value that two steps took was left by the second one, behind what the first one took. -/
theorem Takes.exists_of_bind {α β : Type} {text text' : List Char}
    {step : Except ReadFault (Front α text)} {next : Front α text → Except ReadFault (Front β text')}
    {value : β} {rest : List Char} (h : Takes (step >>= next) value rest) :
    ∃ front, step = .ok front ∧ Takes (next front) value rest := by
  cases step with
  | error fault =>
    obtain ⟨_, h⟩ := h
    cases h
  | ok front => exact ⟨front, rfl, h⟩

theorem skipSpace_cons {c : Char} (h : isSpace c = false) (text : List Char) :
    skipSpace (c :: text) = c :: text :=
  List.dropWhile_cons_of_neg (by simp [h])

theorem skipSpace_blank (text : List Char) : skipSpace (' ' :: text) = skipSpace text :=
  List.dropWhile_cons_of_pos rfl

variable {limit : Option Nat} {text rest : List Char}

theorem takes_expect {c : Char} (h : skipSpace text = c :: rest) :
    Takes (expect c text) () rest := by
  unfold expect
  split
  · next heq =>
    rw [h] at heq
    cases heq
  · next d rest' heq =>
    rw [h] at heq
    cases heq
    rw [if_pos rfl]
    exact ⟨_, rfl⟩

theorem expect_eq_error {c d : Char} (h : skipSpace text = d :: rest) (hne : d ≠ c) :
    expect c text = .error .malformed := by
  unfold expect
  split
  · rfl
  · next d' rest' heq =>
    rw [h] at heq
    cases heq
    exact if_neg hne

theorem takes_readString {content : List Char} (h : readQuoted text = some (content, rest)) :
    Takes (readString text) (String.ofList content) rest := by
  unfold readString
  split
  · next heq => cases h.symm.trans heq
  · next heq =>
    cases h.symm.trans heq
    exact ⟨_, rfl⟩

/-! ## First characters -/

theorem takes_readValue_str {behind content : List Char} (h : skipSpace text = '"' :: behind)
    (hread : readQuoted behind = some (content, rest)) :
    Takes (readValue limit text) (.str (String.ofList content)) rest := by
  rw [readValue]
  split
  · next heq =>
    cases h.symm.trans heq
    exact (takes_readString hread).bind fun _ => ⟨_, rfl⟩
  · next heq => cases h.symm.trans heq
  · next heq => cases h.symm.trans heq
  · next hquote _ _ => exact absurd h (hquote _)

theorem takes_readValue_emptyArr (h : skipSpace text = '[' :: ']' :: rest) :
    Takes (readValue limit text) (.arr []) rest := by
  rw [readValue]
  split
  · next heq => cases h.symm.trans heq
  · next behind heq =>
    cases h.symm.trans heq
    obtain ⟨_, hclose⟩ := takes_expect (skipSpace_cons (c := ']') rfl rest)
    rw [hclose]
    exact ⟨_, rfl⟩
  · next heq => cases h.symm.trans heq
  · next _ hbracket _ => exact absurd h (hbracket _)

theorem takes_readValue_arr {behind : List Char} (h : skipSpace text = '[' :: behind) {d : Char}
    {more : List Char} (hopen : skipSpace behind = d :: more) (hd : d ≠ ']') {items : List Json}
    (hitems : Takes (readItems limit behind) items rest) :
    Takes (readValue limit text) (.arr items) rest := by
  rw [readValue]
  split
  · next heq => cases h.symm.trans heq
  · next heq =>
    cases h.symm.trans heq
    rw [expect_eq_error hopen hd]
    exact hitems.bind fun _ => ⟨_, rfl⟩
  · next heq => cases h.symm.trans heq
  · next _ hbracket _ => exact absurd h (hbracket _)

theorem takes_readValue_emptyObj (h : skipSpace text = '\x7b' :: '\x7d' :: rest) :
    Takes (readValue limit text) (.obj []) rest := by
  rw [readValue]
  split
  · next heq => cases h.symm.trans heq
  · next heq => cases h.symm.trans heq
  · next behind heq =>
    cases h.symm.trans heq
    obtain ⟨_, hclose⟩ := takes_expect (skipSpace_cons (c := '\x7d') rfl rest)
    rw [hclose]
    exact ⟨_, rfl⟩
  · next _ _ hbrace => exact absurd h (hbrace _)

theorem takes_readValue_obj {behind : List Char} (h : skipSpace text = '\x7b' :: behind) {d : Char}
    {more : List Char} (hopen : skipSpace behind = d :: more) (hd : d ≠ '\x7d')
    {members : Fields Json} (hnodup : (Fields.names members).Nodup)
    (hmembers : Takes (readMembers limit behind) members rest) :
    Takes (readValue limit text) (.obj members) rest := by
  rw [readValue]
  split
  · next heq => cases h.symm.trans heq
  · next heq => cases h.symm.trans heq
  · next heq =>
    cases h.symm.trans heq
    rw [expect_eq_error hopen hd]
    exact hmembers.bind fun _ => ⟨_, by simp only [Fields.ofPairs_of_nodup hnodup]; rfl⟩
  · next _ _ hbrace => exact absurd h (hbrace _)

/-- Whether a character is neither a blank nor one that opens or closes anything. -/
def beginsAtom (c : Char) : Bool :=
  !isSpace c && c != '"' && c != '[' && c != ']' && c != '\x7b' && c != '\x7d'

theorem beginsAtom_of_isDigit {c : Char} (h : c.isDigit = true) : beginsAtom c = true := by
  simp only [beginsAtom, isSpace, Bool.and_eq_true, Bool.not_eq_true', Bool.or_eq_false_iff,
    decide_eq_false_iff_not, bne_iff_ne]
  refine ⟨⟨⟨⟨⟨⟨⟨⟨?_, ?_⟩, ?_⟩, ?_⟩, ?_⟩, ?_⟩, ?_⟩, ?_⟩, ?_⟩
  all_goals
    rintro rfl
    exact absurd h (by decide)

theorem takes_readValue_atom {c : Char} {behind : List Char} (h : skipSpace text = c :: behind)
    (hc : beginsAtom c = true) {value : Json}
    (hatom : Takes (readAtom limit (c :: behind)) value rest) :
    Takes (readValue limit text) value rest := by
  rw [← h] at hatom
  rw [readValue]
  split
  · next heq =>
    cases h.symm.trans heq
    cases hc
  · next heq =>
    cases h.symm.trans heq
    cases hc
  · next heq =>
    cases h.symm.trans heq
    cases hc
  · exact hatom.bind fun _ => ⟨_, rfl⟩

theorem takes_readAtom_word {value : Json} (h : readWord text = some (value, rest)) :
    Takes (readAtom limit text) value rest := by
  unfold readAtom
  split
  · next heq =>
    cases h.symm.trans heq
    exact ⟨_, rfl⟩
  · next heq => cases h.symm.trans heq

/-- No word begins with a digit, or with a minus and a digit. -/
theorem readWord_intText (n : Int) (rest : List Char) : readWord (intText n ++ rest) = none := by
  obtain ⟨c, digits, hdigits, hc⟩ := exists_toDigits_eq_digit_cons n.natAbs
  have hword : ∀ text, readWord (c :: text) = none ∧ readWord ('-' :: c :: text) = none := by
    intro text
    constructor
    all_goals
      unfold readWord
      split
      all_goals first
        | rfl
        | next heq => cases heq <;> exact absurd hc (by decide)
  unfold intText
  rw [hdigits]
  split
  · exact (hword _).2
  · exact (hword _).1

theorem takes_readAtom_intText {n : Int}
    (hlimit : withinLimit limit (Nat.toDigits 10 n.natAbs) = true) (hrest : EndsNumeral rest) :
    Takes (readAtom limit (intText n ++ rest)) (.int n) rest := by
  unfold readAtom
  split
  · next heq => cases (readWord_intText n rest).symm.trans heq
  · unfold readNumber
    split
    · next heq => cases (readNumeral_intText n hrest).symm.trans heq
    · next numeral rest' heq =>
      cases (readNumeral_intText n hrest).symm.trans heq
      rw [value?_toDigits hlimit]
      exact ⟨_, rfl⟩

/-! ## Values -/

/-- Whether a text begins with a character that is no blank and closes no list. -/
def Opens (text : List Char) : Prop :=
  ∃ c behind, text = c :: behind ∧ isSpace c = false ∧ c ≠ ']'

theorem Opens.append (h : Opens text) (rest : List Char) : Opens (text ++ rest) := by
  obtain ⟨c, behind, rfl, hspace, hclose⟩ := h
  exact ⟨c, behind ++ rest, rfl, hspace, hclose⟩

theorem Opens.skipSpace_eq (h : Opens text) : skipSpace text = text := by
  obtain ⟨c, behind, rfl, hspace, _⟩ := h
  exact skipSpace_cons hspace behind

/-- Whether a value is taken off the front of every text that it was written into. -/
structure ReadBack (limit : Option Nat) (value : Json) : Prop where
  opens : Opens (encode value)
  takes : ∀ text rest, skipSpace text = encode value ++ rest → EndsNumeral rest →
    Takes (readValue limit text) value rest

theorem opens_encodeItems {item : Json} (h : Opens (encode item)) (more : List Json) :
    Opens (encodeItems (item :: more)) := by
  cases more with
  | nil => exact h
  | cons next more =>
    rw [encodeItems]
    · exact h.append _
    · exact List.cons_ne_nil next more

theorem takes_readItems {items : List Json} (hne : items ≠ [])
    (hback : ∀ item ∈ items, ReadBack limit item)
    (h : skipSpace text = encodeItems items ++ ']' :: rest) :
    Takes (readItems limit text) items rest := by
  induction items generalizing text with
  | nil => exact absurd rfl hne
  | cons item more ih =>
    obtain ⟨hitem, hmore⟩ := List.forall_mem_cons.mp hback
    rw [readItems]
    cases more with
    | nil =>
      rw [encodeItems] at h
      have hclose := skipSpace_cons (c := ']') rfl rest
      refine (hitem.takes _ _ h (endsNumeral_cons rfl rest)).bind fun _ => ?_
      simp only [expect_eq_error hclose (c := ',') (by decide)]
      exact (takes_expect hclose).bind fun _ => ⟨_, rfl⟩
    | cons next more =>
      have hnext := opens_encodeItems (hmore next List.mem_cons_self).opens more
      rw [encodeItems, List.append_assoc] at h
      · refine (hitem.takes _ _ h (endsNumeral_cons rfl _)).bind fun _ => ?_
        obtain ⟨_, hcomma⟩ := takes_expect (skipSpace_cons (c := ',') rfl
          (' ' :: encodeItems (next :: more) ++ ']' :: rest))
        simp only [List.cons_append] at hcomma ⊢
        simp only [hcomma]
        refine (ih (List.cons_ne_nil _ _) hmore ?_).bind fun _ => ⟨_, rfl⟩
        rw [skipSpace_blank]
        exact (hnext.append _).skipSpace_eq
      · exact List.cons_ne_nil next more

/-- A member is its key, a colon and its value, with or without blanks around the colon. -/
theorem takes_readMember_key {key : String} {value : Json} {behind afterColon : List Char}
    (hkey : skipSpace text = quoteAscii key.toList ++ behind)
    (hcolon : skipSpace behind = ':' :: afterColon)
    (hvalue : Takes (readValue limit afterColon) value rest) :
    Takes (readMember limit text) (key, value) rest := by
  have hquoted := takes_readString (readQuoted_escapeAscii key.toList behind)
  rw [String.ofList_toList] at hquoted
  simp only [quoteAscii_eq, List.cons_append, List.append_assoc, List.nil_append] at hkey
  rw [readMember]
  refine (takes_expect hkey).bind fun _ => ?_
  refine hquoted.bind fun _ => ?_
  refine (takes_expect hcolon).bind fun _ => ?_
  exact hvalue.bind fun _ => ⟨_, rfl⟩

theorem takes_readMember {member : String × Json} (hback : ReadBack limit member.2)
    (h : skipSpace text = encodeMember member ++ rest) (hrest : EndsNumeral rest) :
    Takes (readMember limit text) member rest := by
  have hvalue : skipSpace (' ' :: (encode member.2 ++ rest)) = encode member.2 ++ rest := by
    rw [skipSpace_blank]
    exact (hback.opens.append rest).skipSpace_eq
  rw [encodeMember, List.append_assoc] at h
  exact takes_readMember_key h (skipSpace_cons rfl _) (hback.takes _ _ hvalue hrest)

/-- The last member of an object is followed by the closing brace. -/
theorem takes_readMembers_last {member : String × Json} {behind : List Char}
    (hmember : Takes (readMember limit text) member behind)
    (hclose : skipSpace behind = '\x7d' :: rest) :
    Takes (readMembers limit text) [member] rest := by
  rw [readMembers]
  refine hmember.bind fun _ => ?_
  simp only [expect_eq_error hclose (c := ',') (by decide)]
  exact (takes_expect hclose).bind fun _ => ⟨_, rfl⟩

theorem encodeMembers_singleton (member : String × Json) :
    encodeMembers [member] = encodeMember member := rfl

theorem encodeMembers_cons_cons (member next : String × Json) (more : List (String × Json)) :
    encodeMembers (member :: next :: more)
      = encodeMember member ++ ',' :: ' ' :: encodeMembers (next :: more) := by
  rw [encodeMembers, encodeMember, List.append_assoc]
  · rfl
  · exact List.cons_ne_nil next more

theorem exists_encodeMembers_eq_cons (member : String × Json) (more : List (String × Json)) :
    ∃ behind, encodeMembers (member :: more) = '"' :: behind := by
  cases more with
  | nil => exact ⟨_, rfl⟩
  | cons next more =>
    rw [encodeMembers_cons_cons]
    exact ⟨_, rfl⟩

theorem takes_readMembers {members : Fields Json} (hne : members ≠ [])
    (hback : ∀ member ∈ members, ReadBack limit member.2)
    (h : skipSpace text = encodeMembers members ++ '\x7d' :: rest) :
    Takes (readMembers limit text) members rest := by
  induction members generalizing text with
  | nil => exact absurd rfl hne
  | cons member more ih =>
    obtain ⟨hmember, hmore⟩ := List.forall_mem_cons.mp hback
    cases more with
    | nil =>
      rw [encodeMembers_singleton] at h
      exact takes_readMembers_last (takes_readMember hmember h (endsNumeral_cons rfl rest))
        (skipSpace_cons rfl rest)
    | cons next more =>
      obtain ⟨behind, hbehind⟩ := exists_encodeMembers_eq_cons next more
      rw [readMembers]
      rw [encodeMembers_cons_cons, List.append_assoc] at h
      refine (takes_readMember hmember h (endsNumeral_cons rfl _)).bind fun _ => ?_
      obtain ⟨_, hcomma⟩ := takes_expect (skipSpace_cons (c := ',') rfl
        (' ' :: encodeMembers (next :: more) ++ '\x7d' :: rest))
      simp only [List.cons_append] at hcomma ⊢
      simp only [hcomma]
      refine (ih (List.cons_ne_nil _ _) hmore ?_).bind fun _ => ⟨_, rfl⟩
      rw [skipSpace_blank, hbehind]
      exact skipSpace_cons rfl _

/-- A word or number is read back when it is read as one. -/
theorem readBack_atom {value : Json} {c : Char} {behind : List Char}
    (hencode : encode value = c :: behind) (hc : beginsAtom c = true)
    (hread : ∀ rest, EndsNumeral rest → Takes (readAtom limit (encode value ++ rest)) value rest) :
    ReadBack limit value where
  opens := by
    refine ⟨c, behind, hencode, ?_, ?_⟩
    · simp only [beginsAtom, Bool.and_eq_true, Bool.not_eq_true'] at hc
      exact hc.1.1.1.1.1
    · rintro rfl
      cases hc
  takes text rest htext hrest := by
    have hatom := hread rest hrest
    rw [hencode] at htext hatom
    exact takes_readValue_atom htext hc hatom

theorem readBack_int {n : Int} (hlimit : withinLimit limit (Nat.toDigits 10 n.natAbs) = true) :
    ReadBack limit (.int n) := by
  have hread (rest : List Char) (hrest : EndsNumeral rest) :
      Takes (readAtom limit (intText n ++ rest)) (.int n) rest :=
    takes_readAtom_intText hlimit hrest
  obtain ⟨c, digits, hdigits, hc⟩ := exists_toDigits_eq_digit_cons n.natAbs
  by_cases hn : n < 0
  · have hencode : encode (.int n) = '-' :: c :: digits := by
      rw [encode, intText, if_pos hn, hdigits]
    exact readBack_atom hencode (by decide) hread
  · have hencode : encode (.int n) = c :: digits := by
      rw [encode, intText, if_neg hn, hdigits]
    exact readBack_atom hencode (beginsAtom_of_isDigit hc) hread

theorem readBack_str (s : String) : ReadBack limit (.str s) := by
  refine ⟨⟨'"', _, rfl, rfl, by decide⟩, fun text rest htext _ => ?_⟩
  rw [encode, quoteAscii_eq, List.cons_append, List.append_assoc] at htext
  have htakes : Takes (readValue limit text) _ rest :=
    takes_readValue_str htext (readQuoted_escapeAscii s.toList rest)
  rwa [String.ofList_toList] at htakes

theorem readBack_arr {items : List Json} (h : ∀ item ∈ items, ReadBack limit item) :
    ReadBack limit (.arr items) := by
  refine ⟨⟨'[', _, rfl, rfl, by decide⟩, fun text rest htext _ => ?_⟩
  rw [encode, List.cons_append, List.append_assoc] at htext
  cases items with
  | nil => exact takes_readValue_emptyArr htext
  | cons item more =>
    obtain ⟨d, behind, heq, hspace, hd⟩ :=
      (opens_encodeItems (h item List.mem_cons_self).opens more).append ([']'] ++ rest)
    have hopen := skipSpace_cons hspace behind
    rw [← heq] at hopen
    exact takes_readValue_arr htext (hopen.trans heq) hd
      (takes_readItems (List.cons_ne_nil item more) h hopen)

theorem readBack_obj {members : Fields Json} (hnodup : (Fields.names members).Nodup)
    (h : ∀ member ∈ members, ReadBack limit member.2) : ReadBack limit (.obj members) := by
  refine ⟨⟨'\x7b', _, rfl, rfl, by decide⟩, fun text rest htext _ => ?_⟩
  rw [encode, List.cons_append, List.append_assoc] at htext
  cases members with
  | nil => exact takes_readValue_emptyObj htext
  | cons member more =>
    obtain ⟨behind, heq⟩ := exists_encodeMembers_eq_cons member more
    have hopen := skipSpace_cons (c := '"') rfl (behind ++ (['\x7d'] ++ rest))
    rw [← List.cons_append, ← heq] at hopen
    exact takes_readValue_obj htext (hopen.trans (by rw [heq]; rfl)) (by decide) hnodup
      (takes_readMembers (List.cons_ne_nil member more) h hopen)

/-! ## Texts -/

/-- `Inside part value`: the part is the value, or stands in it at any depth. -/
inductive Inside (part : Json) : Json → Prop where
  | here : Inside part part
  | item {items : List Json} {item : Json} :
    item ∈ items → Inside part item → Inside part (.arr items)
  | member {members : Fields Json} {member : String × Json} :
    member ∈ members → Inside part member.2 → Inside part (.obj members)

/-- Whether no object in a value has two members with one key. -/
def DistinctlyKeyed (value : Json) : Prop :=
  ∀ members, Inside (.obj members) value → (Fields.names members).Nodup

/-- Whether the integers in a value keep to a limit on their digits, if there is one. -/
def IntegersWithin (limit : Option Nat) (value : Json) : Prop :=
  ∀ n, Inside (.int n) value → withinLimit limit (Nat.toDigits 10 n.natAbs) = true

/-- What has to be said of a value for it to be read back. -/
structure Legible (limit : Option Nat) (value : Json) : Prop where
  floatFree : FloatFree value
  distinctlyKeyed : DistinctlyKeyed value
  integersWithin : IntegersWithin limit value

theorem Legible.item {items : List Json} (h : Legible limit (.arr items)) {item : Json}
    (hitem : item ∈ items) : Legible limit item where
  floatFree := by
    cases h.floatFree with
    | arr hitems => exact hitems item hitem
  distinctlyKeyed members hmembers := h.distinctlyKeyed members (.item hitem hmembers)
  integersWithin n hn := h.integersWithin n (.item hitem hn)

theorem Legible.member {members : Fields Json} (h : Legible limit (.obj members))
    {member : String × Json} (hmember : member ∈ members) : Legible limit member.2 where
  floatFree := by
    cases h.floatFree with
    | obj hmembers => exact hmembers member hmember
  distinctlyKeyed members hmembers := h.distinctlyKeyed members (.member hmember hmembers)
  integersWithin n hn := h.integersWithin n (.member hmember hn)

/-- **Legible values are read back**, in front of any text that ends numerals. -/
theorem readBack_of_legible {value : Json} (h : Legible limit value) : ReadBack limit value := by
  induction value with
  | null => exact readBack_atom rfl (by decide) fun rest _ => takes_readAtom_word rfl
  | bool b =>
    cases b with
    | false => exact readBack_atom rfl (by decide) fun rest _ => takes_readAtom_word rfl
    | true => exact readBack_atom rfl (by decide) fun rest _ => takes_readAtom_word rfl
  | int n => exact readBack_int (h.integersWithin n .here)
  | float x => cases h.floatFree
  | str s => exact readBack_str s
  | arr items ih => exact readBack_arr fun item hitem => ih item hitem (h.item hitem)
  | obj members ih =>
    exact readBack_obj (h.distinctlyKeyed members .here) fun member hmember =>
      ih member hmember (h.member hmember)

/-- All of the text of a value is taken. -/
theorem takes_write {value : Json} (h : Legible limit value) :
    Takes (readValue limit (write value).toList) value [] := by
  have hback := readBack_of_legible h
  refine hback.takes _ _ ?_ endsNumeral_nil
  rw [write, String.toList_ofList, List.append_nil]
  exact hback.opens.skipSpace_eq

theorem readWithin_write {value : Json} (h : Legible limit value) :
    readWithin limit (write value) = .ok value := by
  obtain ⟨_, htakes⟩ := takes_write h
  rw [readWithin, htakes]
  rfl

theorem integersWithin_none (value : Json) : IntegersWithin none value := fun _ _ => rfl

/-- **Writing a value and reading it back.** The text is printable ASCII, so it has no line break. A
reader without a limit on integers takes all of it and returns the value, with its keys in their
order; so does the reader of files, if the integers keep to its limit. -/
theorem write_readBack {value : Json} (hfloat : FloatFree value) (hkeys : DistinctlyKeyed value) :
    (∀ c ∈ (write value).toList, 0x20 ≤ c.toNat ∧ c.toNat < 0x7F) ∧
      Takes (readValue none (write value).toList) value [] ∧
      readWithin none (write value) = .ok value ∧
      (IntegersWithin (some maxIntegerDigits) value → read (write value) = .ok value) := by
  have hlegible : Legible none value := ⟨hfloat, hkeys, integersWithin_none value⟩
  refine ⟨fun c hc => ?_, takes_write hlegible, readWithin_write hlegible,
    fun hwithin => readWithin_write ⟨hfloat, hkeys, hwithin⟩⟩
  rw [write, String.toList_ofList] at hc
  exact isPrintable_iff.mp (isPrintableText_encode value c hc)

/-! ## Limits -/

theorem itemsKeepTo_eq_all (items : List Json) :
    itemsKeepTo limit items = items.all (keepsTo limit) := by
  induction items with
  | nil => rfl
  | cons item rest ih => rw [itemsKeepTo, ih, List.all_cons]

theorem membersKeepTo_eq_all (members : Fields Json) :
    membersKeepTo limit members = members.all fun member => keepsTo limit member.2 := by
  induction members with
  | nil => rfl
  | cons member rest ih => rw [membersKeepTo, ih, List.all_cons]

/-- An integer of at most some digits is below a power of ten. -/
theorem withinLimit_toDigits_iff {most : Nat} (hmost : 0 < most) (n : Nat) :
    withinLimit (some most) (Nat.toDigits 10 n) = true ↔ n < tenPow most := by
  simp only [withinLimit, Option.all_some, decide_eq_true_eq]
  exact Nat.length_toDigits_le_iff (by decide) hmost

/-- From that power of ten on it is too long. -/
theorem not_integersWithin_int {most : Nat} (hmost : 0 < most) {n : Int}
    (hn : tenPow most ≤ n.natAbs) : ¬ IntegersWithin (some most) (.int n) := fun h =>
  Nat.not_lt.mpr hn ((withinLimit_toDigits_iff hmost n.natAbs).mp (h n .here))

theorem keepsTo_iff {value : Json} : keepsTo limit value = true ↔ IntegersWithin limit value := by
  induction value with
  | null => exact ⟨fun _ _ => nofun, fun _ => rfl⟩
  | bool b => exact ⟨fun _ _ => nofun, fun _ => rfl⟩
  | float x => exact ⟨fun _ _ => nofun, fun _ => rfl⟩
  | str s => exact ⟨fun _ _ => nofun, fun _ => rfl⟩
  | int n =>
    constructor
    · rintro h _ ⟨⟩
      exact h
    · intro h
      exact h n .here
  | arr items ih =>
    rw [keepsTo, itemsKeepTo_eq_all, List.all_eq_true]
    constructor
    · intro h n hn
      rcases hn with _ | ⟨hitem, hn⟩
      exact (ih _ hitem).mp (h _ hitem) n hn
    · exact fun h item hitem => (ih item hitem).mpr fun n hn => h n (.item hitem hn)
  | obj members ih =>
    rw [keepsTo, membersKeepTo_eq_all, List.all_eq_true]
    constructor
    · intro h n hn
      rcases hn with _ | _ | ⟨hmember, hn⟩
      exact (ih _ hmember).mp (h _ hmember) n hn
    · exact fun h member hmember =>
        (ih member hmember).mpr fun n hn => h n (.member hmember hn)

theorem writeWithin_eq_ok (h : IntegersWithin limit value) :
    writeWithin limit value = .ok (write value) := if_pos (keepsTo_iff.mpr h)

theorem writeWithin_eq_error (h : ¬ IntegersWithin limit value) :
    writeWithin limit value = .error .numeralTooLong := if_neg (mt keepsTo_iff.mp h)

/-- With the limit turned off every value is written. -/
theorem writeWithin_none (value : Json) : writeWithin none value = .ok (write value) :=
  writeWithin_eq_ok (integersWithin_none value)

/-- **Dumping a value and reading it back.** A value whose integers keep to the limit has a text. It
is printable ASCII, so it has no line break; a reader without the limit takes all of it and returns
the value, with its keys in their order, and so does the reader of files. A value with a longer
integer is refused, and nothing of it is written. -/
theorem dump_readBack {value : Json} (hfloat : FloatFree value) (hkeys : DistinctlyKeyed value) :
    (IntegersWithin (some maxIntegerDigits) value →
      ∃ text, dump value = .ok text ∧
        (∀ c ∈ text.toList, 0x20 ≤ c.toNat ∧ c.toNat < 0x7F) ∧
        Takes (readValue none text.toList) value [] ∧
        readWithin none text = .ok value ∧ read text = .ok value) ∧
    (¬ IntegersWithin (some maxIntegerDigits) value → dump value = .error .numeralTooLong) := by
  refine ⟨fun hwithin => ?_, writeWithin_eq_error⟩
  obtain ⟨hascii, htakes, hread, hreadFile⟩ := write_readBack hfloat hkeys
  exact ⟨write value, writeWithin_eq_ok hwithin, hascii, htakes, hread, hreadFile hwithin⟩

/-- A value with escapes of every kind, a pair of surrogates and separators inside its texts. -/
def escapesValue : Json :=
  .obj [("z, \"😀\": ", .arr [.int (-12), .str "\x7f\n\\u0041, [\u2028"]),
    ("a", .obj [("", .int 9007199254740993)])]

theorem floatFree_escapesValue : FloatFree escapesValue := by
  have hitems : FloatFree (.arr [.int (-12), .str "\x7f\n\\u0041, [\u2028"]) :=
    .arr (List.forall_mem_cons.mpr ⟨.int _, List.forall_mem_singleton.mpr (.str _)⟩)
  have hmembers : FloatFree (.obj [("", .int 9007199254740993)]) :=
    .obj (List.forall_mem_singleton.mpr (.int _))
  exact .obj (List.forall_mem_cons.mpr ⟨hitems, List.forall_mem_singleton.mpr hmembers⟩)

theorem distinctlyKeyed_escapesValue : DistinctlyKeyed escapesValue := by
  intro members hmembers
  rcases hmembers with _ | _ | ⟨hmember, hinside⟩
  · decide
  · simp only [List.mem_cons, List.not_mem_nil, or_false] at hmember
    rcases hmember with rfl | rfl
    · rcases hinside with _ | ⟨hitem, hinside⟩
      simp only [List.mem_cons, List.not_mem_nil, or_false] at hitem
      rcases hitem with rfl | rfl <;> cases hinside
    · rcases hinside with _ | _ | ⟨hmember, hinside⟩
      · decide
      · rw [List.mem_singleton.mp hmember] at hinside
        cases hinside

theorem integersWithin_escapesValue : IntegersWithin (some maxIntegerDigits) escapesValue :=
  keepsTo_iff.mp (by decide)

theorem dump_readBack_escapesValue :
    FloatFree escapesValue ∧ DistinctlyKeyed escapesValue ∧
      IntegersWithin (some maxIntegerDigits) escapesValue ∧
      ∃ text, dump escapesValue = .ok text ∧ read text = .ok escapesValue := by
  have hback := dump_readBack floatFree_escapesValue distinctlyKeyed_escapesValue
  obtain ⟨text, hdump, -, -, -, hread⟩ := hback.1 integersWithin_escapesValue
  exact ⟨floatFree_escapesValue, distinctlyKeyed_escapesValue, integersWithin_escapesValue, text,
    hdump, hread⟩

/-- **Not every integer is dumped**: the least one beyond the limit is refused. -/
theorem dump_refuses_power_of_ten :
    FloatFree (.int (tenPow 4300)) ∧ DistinctlyKeyed (.int (tenPow 4300)) ∧
      dump (.int (tenPow 4300)) = .error .numeralTooLong := by
  have hdigits : tenPow maxIntegerDigits ≤ (tenPow 4300 : Int).natAbs := by
    rw [Int.natAbs_natCast, maxIntegerDigits]
  have hlong := not_integersWithin_int (by decide) hdigits
  exact ⟨.int _, fun _ => nofun, writeWithin_eq_error hlong⟩

end SchemaForge.Json
