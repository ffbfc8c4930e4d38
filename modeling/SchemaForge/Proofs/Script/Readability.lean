import SchemaForge.Proofs.Script.Literal
import SchemaForge.Proofs.Script.Term

/-!
# `SchemaForge.Proofs.Script.Readability` — a script is known by its text

The text of a term does not say where it ends: `z.string()` may go on with `.min(1)`, and `1` with
another digit. But behind a term there is always a comma, a blank, a line feed or something that
closes, and none of these continues a term. So the claim is made of terms in front of such a rest:
the text of both determines the term and the rest. It holds by induction over one of two terms with
the same text; the first character says of which kind the other one is.

## Contents
- **Characters.** `isNameChar`, `isCloser`, `Closing` rests.
- **Legible terms.** `Legible` asks for names where names belong and for labels that are known.
- **Beginnings.** `startOf` tells the kinds of term apart, `styleOf` the kinds of braces.
- **Lists.** `intercalate_append_inj`.
- **Readability.** `Readable`, with one lemma for each kind of term, and `print_injective`.
-/

namespace SchemaForge.Script

/-! ## Characters -/

/-- Whether a character may stand in a word or in the name of a function. -/
def isNameChar (c : Char) : Bool := c.isAlphanum || c == '.' || c == '-' || c == '_'

/-- Whether a character may stand right behind a term. -/
def isCloser (c : Char) : Bool :=
  c == ',' || c == ')' || c == ']' || c == '\x7d' || c == ' ' || c == '\n'

/-- **Whether a text may stand behind a term.** -/
def Closing (rest : List Char) : Prop := ∀ c ∈ rest.head?, isCloser c = true

theorem closing_nil : Closing [] := by
  intro c hc
  cases hc

theorem closing_cons {c : Char} {rest : List Char} : Closing (c :: rest) ↔ isCloser c = true := by
  simp [Closing]

theorem isCloser_iff {c : Char} : isCloser c = true ↔
    c = ',' ∨ c = ')' ∨ c = ']' ∨ c = '\x7d' ∨ c = ' ' ∨ c = '\n' := by
  simp [isCloser, or_assoc]

theorem isNameChar_eq_false {c : Char} (h : isCloser c = true) : isNameChar c = false := by
  rcases isCloser_iff.mp h with rfl | rfl | rfl | rfl | rfl | rfl <;> decide

/-- Whether a text can be a word or the name of a function. -/
def IsName (text : String) : Prop :=
  text.toList ≠ [] ∧ text.toList.all isNameChar = true

instance (text : String) : Decidable (IsName text) :=
  inferInstanceAs (Decidable (text.toList ≠ [] ∧ text.toList.all isNameChar = true))

/-- A name ends with its last character. -/
theorem name_append_inj {name name' : String} {r r' : List Char} (hname : IsName name)
    (hname' : IsName name') (hr : ∀ c ∈ r.head?, isNameChar c = false)
    (hr' : ∀ c ∈ r'.head?, isNameChar c = false) (h : name.toList ++ r = name'.toList ++ r') :
    name = name' ∧ r = r' := by
  have hnone {rest : List Char} (hrest : ∀ c ∈ rest.head?, isNameChar c = false) :
      rest.takeWhile isNameChar = [] := by
    cases rest with
    | nil => rfl
    | cons c rest => simp [hrest c rfl]
  -- Both names are the characters up to the first one that no name has.
  have htake := congrArg (List.takeWhile isNameChar) h
  rw [List.takeWhile_append_of_pos (List.all_eq_true.mp hname.2),
    List.takeWhile_append_of_pos (List.all_eq_true.mp hname'.2), hnone hr,
    hnone hr', List.append_nil, List.append_nil] at htake
  obtain rfl : name = name' := String.toList_inj.mp htake
  exact ⟨rfl, List.append_cancel_left h⟩

/-- A rest that closes does not continue a name. -/
theorem Closing.not_name {rest : List Char} (h : Closing rest) :
    ∀ c ∈ rest.head?, isNameChar c = false := by
  intro c hc
  exact isNameChar_eq_false (h c hc)

/-- Nor does an opening parenthesis. -/
theorem paren_not_name (rest : List Char) : ∀ c ∈ ('(' :: rest).head?, isNameChar c = false := by
  intro c hc
  cases hc
  decide

/-! ## Legible terms -/

/-- The labels of options. The last two belong to an options object that extends another one. -/
def optionLabels : List String :=
  ["minLength: ", "maxLength: ", "pattern: ", "minimum: ", "maximum: ", "...", "default: "]

/-- Whether fields can stand between braces: options have known labels, and only JSON has a way to
write none. -/
def Braces.Fits (style : Braces) (fields : List (String × Term)) : Prop :=
  (style = .json ∨ fields ≠ []) ∧ (style = .options → ∀ field ∈ fields, field.1 ∈ optionLabels)

theorem Braces.fits_json (fields : List (String × Term)) : Braces.json.Fits fields :=
  ⟨Or.inl rfl, fun h => Braces.noConfusion h⟩

theorem Braces.fits_lines {fields : List (String × Term)} (h : fields ≠ []) :
    Braces.lines.Fits fields :=
  ⟨Or.inr h, fun h => Braces.noConfusion h⟩

theorem Braces.fits_options {fields : List (String × Term)} (h : fields ≠ [])
    (hlabels : ∀ field ∈ fields, field.1 ∈ optionLabels) : Braces.options.Fits fields :=
  ⟨Or.inr h, fun _ => hlabels⟩

/-- **A term that is known by its text.** Regular expressions are not: some patterns share one. -/
inductive Term.Legible : Term → Prop where
  | word {text : String} : IsName text → Legible (.word text)
  | single (text : String) : Legible (.single text)
  | ascii (text : String) : Legible (.ascii text)
  | list {items : List Term} : (∀ item ∈ items, Legible item) → Legible (.list items)
  | call {function : String} {arguments : List Term} {methods : List (String × List Term)} :
    IsName function → (∀ argument ∈ arguments, Legible argument) →
      (∀ method ∈ methods, IsName method.1) →
      (∀ method ∈ methods, ∀ argument ∈ method.2, Legible argument) →
      Legible (.call function arguments methods)
  | braces {style : Braces} {fields : List (String × Term)} :
    style.Fits fields → (∀ field ∈ fields, Legible field.2) → Legible (.braces style fields)

/-! ## Beginnings -/

/-- The kinds of beginnings. -/
inductive Start where
  | name
  | single
  | double
  | bracket
  | brace
deriving DecidableEq, Repr

/-- How a text begins. -/
def startOf : List Char → Option Start
  | [] => none
  | c :: _ =>
    if isNameChar c then some .name
    else if c = '\'' then some .single
    else if c = '"' then some .double
    else if c = '[' then some .bracket
    else if c = '\x7b' then some .brace
    else none

/-- How the text of a term begins. -/
def Term.start : Term → Option Start
  | .word _ | .call .. => some .name
  | .single _ => some .single
  | .ascii _ => some .double
  | .list _ => some .bracket
  | .braces .. => some .brace
  | .regex _ => none

theorem startOf_closing {rest : List Char} (h : Closing rest) : startOf rest = none := by
  cases rest with
  | nil => rfl
  | cons c rest =>
    rcases isCloser_iff.mp (closing_cons.mp h) with rfl | rfl | rfl | rfl | rfl | rfl <;> rfl

theorem startOf_name {name : String} (h : IsName name) (rest : List Char) :
    startOf (name.toList ++ rest) = some .name := by
  obtain ⟨hne, hchars⟩ := h
  cases hname : name.toList with
  | nil => exact absurd hname hne
  | cons c others =>
    have hc : isNameChar c = true := List.all_eq_true.mp hchars c (hname ▸ List.mem_cons_self)
    rw [List.cons_append, startOf, if_pos hc]

variable {indent : Nat → List Char} {depth : Nat}

theorem Term.startOf_print {t : Term} (h : t.Legible) (rest : List Char) :
    startOf (t.print indent depth ++ rest) = t.start := by
  cases h with
  | word hname =>
    rw [Term.print]
    exact startOf_name hname rest
  | single text => rw [Term.print, singleQuoted, String.toList_ofList]; rfl
  | ascii text => rw [Term.print, Json.quoteAscii_eq]; rfl
  | list => rw [Term.print]; rfl
  | call hname =>
    rw [Term.print, List.append_assoc]
    exact startOf_name hname _
  | @braces style => rw [Term.print]; cases style <;> rfl

theorem Term.start_ne_none {t : Term} (h : t.Legible) : t.start ≠ none := by
  cases h <;> exact Option.some_ne_none _

/-- Nothing that begins like a term may stand behind one. -/
theorem not_closing_of_startOf {text : List Char} (h : startOf text ≠ none) : ¬ Closing text :=
  fun hclosing => h (startOf_closing hclosing)

/-- The kind of braces that a text begins with. -/
def styleOf : List Char → Braces
  | _ :: ' ' :: _ => .options
  | _ :: '\n' :: _ => .lines
  | _ => .json

theorem styleOf_print {style : Braces} {fields : List (String × Term)} (rest : List Char) :
    styleOf ((Term.braces style fields).print indent depth ++ rest) = style := by
  rw [Term.print]
  cases style with
  | json =>
    -- Behind the brace stands the quote of a key, or the brace that closes.
    rw [Term.printFields_eq_map]
    cases fields with
    | nil => rfl
    | cons field others => cases others <;> rfl
  | options => rfl
  | lines => rfl

/-! ## Labels -/

/-- No label begins with another one. -/
theorem optionLabels_prefixFree : ∀ key ∈ optionLabels, ∀ key' ∈ optionLabels,
    key.toList <+: key'.toList → key = key' := by decide

theorem startOf_optionLabel {key : String} (h : key ∈ optionLabels) (rest : List Char) :
    startOf (key.toList ++ rest) = some .name := by
  have hname : ∀ key ∈ optionLabels, (key.toList.head?.map isNameChar) = some true := by decide
  have hkey := hname key h
  cases hchars : key.toList with
  | nil =>
    rw [hchars] at hkey
    cases hkey
  | cons c others =>
    rw [hchars] at hkey
    rw [List.cons_append, startOf, if_pos (Option.some.inj hkey)]

theorem label_append_inj {style : Braces} {key key' : String} {r r' : List Char}
    (hkey : style = .options → key ∈ optionLabels) (hkey' : style = .options → key' ∈ optionLabels)
    (h : style.label key ++ r = style.label key' ++ r') : key = key' ∧ r = r' := by
  cases style with
  | json =>
    simp only [Braces.label, List.append_assoc] at h
    obtain ⟨rfl, hrest⟩ := quoteAscii_append_inj h
    exact ⟨rfl, List.append_cancel_left hrest⟩
  | options =>
    have hfirst : key.toList <+: key.toList ++ r := List.prefix_append _ _
    have hsecond : key'.toList <+: key.toList ++ r := by
      rw [show key.toList ++ r = key'.toList ++ r' from h]
      exact List.prefix_append _ _
    obtain rfl : key = key' := by
      rcases List.prefix_or_prefix_of_prefix hfirst hsecond with hprefix | hprefix
      · exact optionLabels_prefixFree key (hkey rfl) key' (hkey' rfl) hprefix
      · exact (optionLabels_prefixFree key' (hkey' rfl) key (hkey rfl) hprefix).symm
    exact ⟨rfl, List.append_cancel_left h⟩
  | lines =>
    simp only [Braces.label, List.append_assoc] at h
    obtain ⟨rfl, hrest⟩ := doubleQuoted_append_inj h
    exact ⟨rfl, List.append_cancel_left hrest⟩

theorem not_closing_printField {style : Braces} {field : String × Term}
    (hkey : style = .options → field.1 ∈ optionLabels) (rest : List Char) :
    ¬ Closing (Term.printField indent style depth field ++ rest) := by
  apply not_closing_of_startOf
  rw [Term.printField, List.append_assoc]
  cases style with
  | json => rw [Braces.label, Json.quoteAscii_eq]; exact Option.some_ne_none _
  | options =>
    rw [Braces.label, startOf_optionLabel (hkey rfl)]
    exact Option.some_ne_none _
  | lines => rw [Braces.label, doubleQuoted, String.toList_ofList]; exact Option.some_ne_none _

/-! ## Lists -/

/-- What stands behind an item: a separator and more items, or what closes the list. -/
def following (sep close : List Char) : List (List Char) → List Char
  | [] => close
  | rest => sep ++ (sep.intercalate rest ++ close)

theorem intercalate_cons_append (sep close item : List Char) (rest : List (List Char)) :
    sep.intercalate (item :: rest) ++ close = item ++ following sep close rest := by
  cases rest with
  | nil => rw [List.intercalate_singleton, following]
  | cons next rest =>
    rw [List.intercalate_cons_cons, following, List.append_assoc, List.append_assoc]
    exact List.cons_ne_nil next rest

/-- Whether a text closes a list: it stands behind an item and is no separator. -/
def Closes (close : List Char) : Prop := Closing close ∧ close.head? ≠ some ','

theorem closes_cons {c : Char} (hcloser : isCloser c = true) (hcomma : c ≠ ',')
    (rest : List Char) : Closes (c :: rest) :=
  ⟨closing_cons.mpr hcloser, fun h => hcomma (Option.some.inj h)⟩

theorem closing_following {sep close : List Char} (hsep : sep.head? = some ',')
    (hclose : Closes close) (rest : List (List Char)) : Closing (following sep close rest) := by
  cases rest with
  | nil => exact hclose.1
  | cons item rest =>
    obtain ⟨others, rfl⟩ := List.head?_eq_some_iff.mp hsep
    exact closing_cons.mpr (by decide)

/-- A list whose items can be told apart in front of closing rests is known by its text: after each
item it goes on with a comma or it closes, and an item never begins with what closes. -/
theorem intercalate_append_inj {α : Type} {f : α → List Char} {sep close close' : List Char}
    {xs ys : List α}
    (hread : ∀ x ∈ xs, ∀ y ∈ ys, ∀ r r', Closing r → Closing r' → f x ++ r = f y ++ r' →
      x = y ∧ r = r')
    (hxs : ∀ x ∈ xs, ∀ r, ¬ Closing (f x ++ r)) (hys : ∀ y ∈ ys, ∀ r, ¬ Closing (f y ++ r))
    (hsep : sep.head? = some ',') (hclose : Closes close) (hclose' : Closes close')
    (h : sep.intercalate (xs.map f) ++ close = sep.intercalate (ys.map f) ++ close') :
    xs = ys ∧ close = close' := by
  induction xs generalizing ys with
  | nil =>
    cases ys with
    | nil => exact ⟨rfl, h⟩
    | cons y others =>
      -- One list closes where the other one has an item.
      rw [List.map_nil, List.map_cons, intercalate_cons_append] at h
      have hclosing : Closing (f y ++ following sep close' (others.map f)) := h ▸ hclose.1
      exact absurd hclosing (hys y List.mem_cons_self _)
  | cons x rest ih =>
    cases ys with
    | nil =>
      rw [List.map_nil, List.map_cons, intercalate_cons_append] at h
      have hclosing : Closing (f x ++ following sep close (rest.map f)) := h ▸ hclose'.1
      exact absurd hclosing (hxs x List.mem_cons_self _)
    | cons y others =>
      rw [List.map_cons, List.map_cons, intercalate_cons_append, intercalate_cons_append] at h
      obtain ⟨rfl, hrest⟩ := hread x List.mem_cons_self y List.mem_cons_self _ _
        (closing_following hsep hclose _) (closing_following hsep hclose' _) h
      obtain ⟨behind, rfl⟩ := List.head?_eq_some_iff.mp hsep
      -- The items are the same; a list that closes here does not go on with a comma.
      cases rest with
      | nil =>
        cases others with
        | nil => exact ⟨rfl, hrest⟩
        | cons next others =>
          have hcomma : close = ',' :: _ := hrest
          exact absurd (congrArg List.head? hcomma) hclose.2
      | cons next rest =>
        cases others with
        | nil =>
          have hcomma : close' = ',' :: _ := hrest.symm
          exact absurd (congrArg List.head? hcomma) hclose'.2
        | cons next' others =>
          obtain ⟨hlists, hcloses⟩ := ih
            (fun a ha b hb => hread a (List.mem_cons_of_mem _ ha) b (List.mem_cons_of_mem _ hb))
            (fun a ha => hxs a (List.mem_cons_of_mem _ ha))
            (fun b hb => hys b (List.mem_cons_of_mem _ hb)) (List.append_cancel_left hrest)
          exact ⟨congrArg _ hlists, hcloses⟩

/-! ## Readability -/

/-- **Whether a term is known by its text** in front of a closing rest, at every depth. -/
def Readable (indent : Nat → List Char) (t : Term) : Prop :=
  ∀ {t' : Term}, t'.Legible → ∀ {depth : Nat} {r r' : List Char}, Closing r → Closing r' →
    t.print indent depth ++ r = t'.print indent depth ++ r' → t = t' ∧ r = r'

theorem not_closing_print {t : Term} (h : t.Legible) (rest : List Char) :
    ¬ Closing (t.print indent depth ++ rest) := by
  apply not_closing_of_startOf
  rw [Term.startOf_print h]
  exact Term.start_ne_none h

/-- The items of a list are known by its text when each of them is. -/
theorem printAll_append_inj {items items' : List Term} {close close' : List Char}
    (hread : ∀ item ∈ items, Readable indent item) (hitems : ∀ item ∈ items, item.Legible)
    (hitems' : ∀ item ∈ items', item.Legible) (hclose : Closes close) (hclose' : Closes close')
    (h : [',', ' '].intercalate (Term.printAll indent depth items) ++ close
      = [',', ' '].intercalate (Term.printAll indent depth items') ++ close') :
    items = items' ∧ close = close' := by
  rw [Term.printAll_eq_map, Term.printAll_eq_map] at h
  refine intercalate_append_inj ?_ (fun item hitem => not_closing_print (hitems item hitem))
    (fun item hitem => not_closing_print (hitems' item hitem)) rfl hclose hclose' h
  intro item hitem item' hitem' r r' hr hr' heq
  exact hread item hitem (hitems' item' hitem') hr hr' heq

/-- So are chained calls: behind the last one nothing goes on with a name. -/
theorem printMethods_append_inj {methods methods' : List (String × List Term)} {r r' : List Char}
    (hread : ∀ method ∈ methods, ∀ argument ∈ method.2, Readable indent argument)
    (hnames : ∀ method ∈ methods, IsName method.1)
    (hlegible : ∀ method ∈ methods, ∀ argument ∈ method.2, argument.Legible)
    (hnames' : ∀ method ∈ methods', IsName method.1)
    (hlegible' : ∀ method ∈ methods', ∀ argument ∈ method.2, argument.Legible)
    (hr : Closing r) (hr' : Closing r')
    (h : Term.printMethods indent depth methods ++ r
      = Term.printMethods indent depth methods' ++ r') :
    methods = methods' ∧ r = r' := by
  induction methods generalizing methods' with
  | nil =>
    cases methods' with
    | nil => exact ⟨rfl, h⟩
    | cons method others =>
      rw [Term.printMethods, Term.printMethods, List.append_assoc] at h
      -- The rest would have to begin with a name.
      have hstart : startOf r = some .name := by
        rw [show r = _ from h]
        exact startOf_name (hnames' method List.mem_cons_self) _
      have hnone : startOf r ≠ none := by
        rw [hstart]
        exact Option.some_ne_none _
      exact absurd hr (not_closing_of_startOf hnone)
  | cons method rest ih =>
    cases methods' with
    | nil =>
      rw [Term.printMethods, Term.printMethods, List.append_assoc] at h
      have hstart : startOf r' = some .name := by
        rw [show r' = _ from h.symm]
        exact startOf_name (hnames method List.mem_cons_self) _
      have hnone : startOf r' ≠ none := by
        rw [hstart]
        exact Option.some_ne_none _
      exact absurd hr' (not_closing_of_startOf hnone)
    | cons method' others =>
      obtain ⟨name, arguments⟩ := method
      obtain ⟨name', arguments'⟩ := method'
      simp only [Term.printMethods, List.append_assoc, List.cons_append] at h
      obtain ⟨rfl, hcall⟩ := name_append_inj (hnames _ List.mem_cons_self)
        (hnames' _ List.mem_cons_self) (paren_not_name _) (paren_not_name _) h
      obtain ⟨rfl, hbehind⟩ := printAll_append_inj (hread _ List.mem_cons_self)
        (hlegible _ List.mem_cons_self) (hlegible' _ List.mem_cons_self)
        (closes_cons (by decide) (by decide) _) (closes_cons (by decide) (by decide) _)
        (List.cons.inj hcall).2
      obtain ⟨rfl, hrest⟩ := ih (fun m hm => hread m (List.mem_cons_of_mem _ hm))
        (fun m hm => hnames m (List.mem_cons_of_mem _ hm))
        (fun m hm => hlegible m (List.mem_cons_of_mem _ hm))
        (fun m hm => hnames' m (List.mem_cons_of_mem _ hm))
        (fun m hm => hlegible' m (List.mem_cons_of_mem _ hm)) (List.cons.inj hbehind).2
      exact ⟨rfl, hrest⟩

/-- So are the fields between braces of one kind. -/
theorem printFields_append_inj {style : Braces} {fields fields' : List (String × Term)}
    {close close' : List Char} (hread : ∀ field ∈ fields, Readable indent field.2)
    (hfits : style.Fits fields) (hfits' : style.Fits fields')
    (hlegible' : ∀ field ∈ fields', field.2.Legible) (hclose : Closes close)
    (hclose' : Closes close')
    (h : (style.separator indent depth).intercalate (Term.printFields indent style depth fields)
        ++ close
      = (style.separator indent depth).intercalate (Term.printFields indent style depth fields')
        ++ close') :
    fields = fields' ∧ close = close' := by
  rw [Term.printFields_eq_map, Term.printFields_eq_map] at h
  have hsep : (style.separator indent depth).head? = some ',' := by cases style <;> rfl
  refine intercalate_append_inj ?_
    (fun field hfield => not_closing_printField fun hstyle => hfits.2 hstyle field hfield)
    (fun field hfield => not_closing_printField fun hstyle => hfits'.2 hstyle field hfield)
    hsep hclose hclose' h
  intro field hfield field' hfield' r r' hr hr' heq
  rw [Term.printField, Term.printField, List.append_assoc, List.append_assoc] at heq
  obtain ⟨hkey, hvalue⟩ := label_append_inj (fun hstyle => hfits.2 hstyle field hfield)
    (fun hstyle => hfits'.2 hstyle field' hfield') heq
  obtain ⟨hterm, hrest⟩ := hread field hfield (hlegible' field' hfield') hr hr' hvalue
  exact ⟨Prod.ext hkey hterm, hrest⟩

theorem closes_closing (style : Braces) (rest : List Char) :
    Closes (style.closing indent depth ++ rest) := by
  cases style <;> exact closes_cons (by decide) (by decide) _

/-- Terms with the same text begin alike, and so are of one kind, except that a word begins like a
call. -/
theorem start_eq {t t' : Term} (ht : t.Legible) (ht' : t'.Legible) {r r' : List Char}
    (h : t.print indent depth ++ r = t'.print indent depth ++ r') : t.start = t'.start := by
  rw [← Term.startOf_print ht r, ← Term.startOf_print ht' r', h]

/-- A word is no call: nothing that may stand behind it goes on with a parenthesis. -/
theorem word_ne_call {text function : String} {r arguments : List Char} (htext : IsName text)
    (hfunction : IsName function) (hr : Closing r) :
    text.toList ++ r ≠ function.toList ++ '(' :: arguments := by
  intro h
  obtain ⟨-, hrest⟩ := name_append_inj htext hfunction hr.not_name (paren_not_name _) h
  have hparen : isCloser '(' = true := closing_cons.mp (hrest ▸ hr)
  exact absurd hparen (by decide)

theorem readable_word {text : String} (htext : IsName text) : Readable indent (.word text) := by
  intro t' h' depth r r' hr hr' heq
  have hstart := start_eq (.word htext) h' heq
  cases h' with
  | @word text' htext' =>
    obtain ⟨rfl, hrest⟩ := name_append_inj htext htext' hr.not_name hr'.not_name heq
    exact ⟨rfl, hrest⟩
  | @call function arguments methods hfunction =>
    rw [Term.print, Term.print, List.append_assoc] at heq
    exact absurd heq (word_ne_call htext hfunction hr)
  | _ => cases hstart

theorem readable_single (text : String) : Readable indent (.single text) := by
  intro t' h' depth r r' hr hr' heq
  have hstart := start_eq (.single text) h' heq
  cases h' with
  | single text' =>
    obtain ⟨rfl, hrest⟩ := singleQuoted_append_inj heq
    exact ⟨rfl, hrest⟩
  | _ => cases hstart

theorem readable_ascii (text : String) : Readable indent (.ascii text) := by
  intro t' h' depth r r' hr hr' heq
  have hstart := start_eq (.ascii text) h' heq
  cases h' with
  | ascii text' =>
    obtain ⟨rfl, hrest⟩ := quoteAscii_append_inj heq
    exact ⟨rfl, hrest⟩
  | _ => cases hstart

theorem readable_list {items : List Term} (hitems : ∀ item ∈ items, item.Legible)
    (hread : ∀ item ∈ items, Readable indent item) : Readable indent (.list items) := by
  intro t' h' depth r r' hr hr' heq
  have hstart := start_eq (.list hitems) h' heq
  cases h' with
  | @list items' hitems' =>
    simp only [Term.print, List.cons_append, List.append_assoc] at heq
    obtain ⟨rfl, hrest⟩ := printAll_append_inj hread hitems hitems'
      (closes_cons (by decide) (by decide) _) (closes_cons (by decide) (by decide) _)
      (List.cons.inj heq).2
    exact ⟨rfl, (List.cons.inj hrest).2⟩
  | _ => cases hstart

theorem readable_call {function : String} {arguments : List Term}
    {methods : List (String × List Term)} (hfunction : IsName function)
    (harguments : ∀ argument ∈ arguments, argument.Legible)
    (hnames : ∀ method ∈ methods, IsName method.1)
    (hmethods : ∀ method ∈ methods, ∀ argument ∈ method.2, argument.Legible)
    (hread : ∀ argument ∈ arguments, Readable indent argument)
    (hreads : ∀ method ∈ methods, ∀ argument ∈ method.2, Readable indent argument) :
    Readable indent (.call function arguments methods) := by
  intro t' h' depth r r' hr hr' heq
  have hstart := start_eq (.call hfunction harguments hnames hmethods) h' heq
  cases h' with
  | @word text' htext' =>
    rw [Term.print, Term.print, List.append_assoc] at heq
    exact absurd heq.symm (word_ne_call htext' hfunction hr')
  | @call function' arguments' methods' hfunction' harguments' hnames' hmethods' =>
    -- The name, the arguments and the chained calls, one after another.
    simp only [Term.print, List.cons_append, List.append_assoc] at heq
    obtain ⟨rfl, hcall⟩ :=
      name_append_inj hfunction hfunction' (paren_not_name _) (paren_not_name _) heq
    obtain ⟨rfl, hbehind⟩ := printAll_append_inj hread harguments harguments'
      (closes_cons (by decide) (by decide) _) (closes_cons (by decide) (by decide) _)
      (List.cons.inj hcall).2
    obtain ⟨rfl, hrest⟩ := printMethods_append_inj hreads hnames hmethods hnames' hmethods'
      hr hr' (List.cons.inj hbehind).2
    exact ⟨rfl, hrest⟩
  | _ => cases hstart

theorem readable_braces {style : Braces} {fields : List (String × Term)}
    (hfits : style.Fits fields) (hfields : ∀ field ∈ fields, field.2.Legible)
    (hread : ∀ field ∈ fields, Readable indent field.2) :
    Readable indent (.braces style fields) := by
  intro t' h' depth r r' hr hr' heq
  have hstart := start_eq (.braces hfits hfields) h' heq
  cases h' with
  | @braces style' fields' hfits' hfields' =>
    -- What stands behind the brace says of which kind the braces are.
    have hstyle := congrArg styleOf heq
    rw [styleOf_print, styleOf_print] at hstyle
    subst hstyle
    simp only [Term.print, List.append_assoc] at heq
    obtain ⟨rfl, hrest⟩ := printFields_append_inj hread hfits hfits' hfields'
      (closes_closing style r) (closes_closing style r') (List.append_cancel_left heq)
    exact ⟨rfl, List.append_cancel_left hrest⟩
  | _ => cases hstart

/-- **Every legible term is known by its text.** -/
theorem readable_of_legible {t : Term} (h : t.Legible) : Readable indent t := by
  induction h with
  | word htext => exact readable_word htext
  | single text => exact readable_single text
  | ascii text => exact readable_ascii text
  | list hitems ih => exact readable_list hitems ih
  | call hfunction harguments hnames hmethods ih ihs =>
    exact readable_call hfunction harguments hnames hmethods ih ihs
  | braces hfits hfields ih => exact readable_braces hfits hfields ih

/-- **Unique readability.** Legible terms with the same text are the same. -/
theorem print_injective {t t' : Term} (ht : t.Legible) (ht' : t'.Legible)
    (h : t.print indent depth = t'.print indent depth) : t = t' := by
  have heq : t.print indent depth ++ [] = t'.print indent depth ++ [] := congrArg (· ++ []) h
  exact (readable_of_legible ht ht' closing_nil closing_nil heq).1

end SchemaForge.Script
