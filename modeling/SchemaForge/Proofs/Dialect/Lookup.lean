import SchemaForge.Dialect
import SchemaForge.Proofs.Text.Casing

/-!
# `SchemaForge.Proofs.Dialect.Lookup` — looking up dialects by name

A dialect is looked up by its package name or its label. No two dialects share a name in lower case, so
at most one answers, and in which order they are asked does not matter. Nor does the case of letters or
what stands around them, and it does not matter either how characters beyond ASCII are put into lower
case, since no name has any.

## Contents
- **Names.** `names`, which no two dialects share.
- **Looking up.** `ofName?_eq_some_iff`; `lookUpBy` for any order and any way to put names into lower
  case, with `lookUpBy_eq_ofName?`.
- **Targets.** `ofTarget_lookedUp`.
-/

namespace SchemaForge

open Text

namespace Dialect

/-! ## Names -/

/-- The names of a dialect, in lower case. -/
def names (d : Dialect) : List (List Char) := [d.packageName.toList, lowerName d.label.toList]

theorem answersTo_iff {d : Dialect} {name : List Char} :
    d.answersTo name = true ↔ name ∈ d.names := by
  simp [answersTo, names]

/-- **No two dialects share a name.** -/
theorem eq_of_mem_names {d e : Dialect} {name : List Char} (hd : name ∈ d.names)
    (he : name ∈ e.names) : d = e := by
  have hdisjoint : d.names.all (fun name => !e.names.contains name || d == e) = true := by
    cases d <;> cases e <;> rfl
  have hname := List.all_eq_true.mp hdisjoint name hd
  simpa [he] using hname

theorem isAscii_of_mem_names {d : Dialect} {name : List Char} (h : name ∈ d.names) :
    ∀ c ∈ name, c.toNat < 0x80 := by
  have hascii : d.names.all (fun name => name.all fun c => decide (c.toNat < 0x80)) = true := by
    cases d <;> rfl
  simpa using List.all_eq_true.mp hascii name h

/-! ## Looking up -/

/-- In any order of all dialects, the one that is found is the one that a name belongs to. -/
theorem find?_eq_some_iff {order : List Dialect} (horder : order.Perm all) {p : Dialect → Bool}
    {name : List Char} (hp : ∀ d, p d = true ↔ name ∈ d.names) {d : Dialect} :
    order.find? p = some d ↔ name ∈ d.names := by
  constructor
  · exact fun h => (hp d).mp (List.find?_some h)
  · intro h
    have hmem : d ∈ order := horder.mem_iff.mpr (mem_all d)
    cases hfind : order.find? p with
    | none => exact absurd ((hp d).mpr h) (List.find?_eq_none.mp hfind d hmem)
    | some e => rw [eq_of_mem_names ((hp e).mp (List.find?_some hfind)) h]

theorem ofName?_eq_some_iff {name : String} {d : Dialect} :
    ofName? name = some d ↔ lowerName (trim name.toList) ∈ d.names :=
  find?_eq_some_iff (List.Perm.refl all) fun _ => answersTo_iff

/-- The dialect with the given name, when the dialects are asked in some order, and the name and the
labels are put into lower case in some way. -/
def lookUpBy (casing : LowerCasing) (order : List Dialect) (name : String) : Option Dialect :=
  order.find? fun d =>
    casing.lowered (trim name.toList) == d.packageName.toList ||
      casing.lowered (trim name.toList) == casing.lowered d.label.toList

/-- **Neither the order nor the casing matters.** -/
theorem lookUpBy_eq_ofName? (casing : LowerCasing) {order : List Dialect} (horder : order.Perm all)
    (name : String) : lookUpBy casing order name = ofName? name := by
  apply Option.ext
  intro d
  rw [ofName?_eq_some_iff]
  refine find?_eq_some_iff horder fun d => ?_
  have hpackage : d.packageName.toList ∈ d.names := List.mem_cons_self
  have hlabel : lowerName d.label.toList ∈ d.names := List.mem_cons_of_mem _ List.mem_cons_self
  have hlowered : casing.lowered d.label.toList = lowerName d.label.toList :=
    (casing.lowered_eq_iff (isAscii_of_mem_names hlabel) _).mpr rfl
  rw [hlowered, Bool.or_eq_true, beq_iff_eq, beq_iff_eq,
    casing.lowered_eq_iff (isAscii_of_mem_names hpackage),
    casing.lowered_eq_iff (isAscii_of_mem_names hlabel), names, List.mem_cons, List.mem_singleton]

/-! ## Targets -/

theorem ofTarget_eq_ok_iff {name : String} {d : Dialect} :
    ofTarget (.str name) = .ok d ↔ ofName? name = some d := by
  rw [ofTarget]
  cases ofName? name <;> simp

theorem ofTarget_eq_error {name : String} (h : ofName? name = none) :
    ofTarget (.str name) = .error { target := .str name } := by
  rw [ofTarget, h]

theorem isTarget_iff {target : Json} : isTarget target = true ↔ ∃ d, ofTarget target = .ok d := by
  rw [isTarget]
  cases ofTarget target <;> simp

/-- Spellings of one name are looked up alike. -/
theorem ofName?_of_variant {name other : String} (h : Variant name.toList other.toList) :
    ofName? other = ofName? name := by
  rw [ofName?, lowerName_trim_of_variant h]
  rfl

/-- **Looking up a dialect.** Two spellings of a name are of the same dialect, or both are refused. The
dialect that is found is the only one that answers to the name; the order in which the dialects are asked
does not matter, and neither does the casing. Every dialect is found by its package name and by its
label. A name is valid exactly if a dialect is found. -/
theorem ofTarget_lookedUp {name other : String} (h : Variant name.toList other.toList) :
    ((∃ d, ofTarget (.str name) = .ok d ∧ ofTarget (.str other) = .ok d) ∨
      (ofTarget (.str name) = .error { target := .str name } ∧
        ofTarget (.str other) = .error { target := .str other })) ∧
    (∀ d, ofTarget (.str name) = .ok d →
      ∀ e, e.answersTo (lowerName (trim name.toList)) = true ↔ e = d) ∧
    (∀ casing order, order.Perm all →
      lookUpBy casing order name = (ofTarget (.str name)).toOption) ∧
    (∀ d, ofTarget (.str d.packageName) = .ok d ∧ ofTarget (.str d.label) = .ok d) ∧
    (isTarget (.str name) = true ↔ ∃ d, ofTarget (.str name) = .ok d) := by
  have hother := ofName?_of_variant h
  refine ⟨?_, fun d hd e => ?_, fun casing order horder => ?_, fun d => ?_, isTarget_iff⟩
  · cases hname : ofName? name with
    | none => exact Or.inr ⟨ofTarget_eq_error hname, ofTarget_eq_error (hother.trans hname)⟩
    | some d =>
      exact Or.inl ⟨d, ofTarget_eq_ok_iff.mpr hname, ofTarget_eq_ok_iff.mpr (hother.trans hname)⟩
  · have hmem := ofName?_eq_some_iff.mp (ofTarget_eq_ok_iff.mp hd)
    rw [answersTo_iff]
    constructor
    · exact fun he => eq_of_mem_names he hmem
    · rintro rfl
      exact hmem
  · rw [lookUpBy_eq_ofName? casing horder, ofTarget]
    cases ofName? name <;> rfl
  · rw [ofTarget_eq_ok_iff, ofTarget_eq_ok_iff]
    cases d <;> exact ⟨by decide, by decide⟩

/-- A package name in mixed case between two blanks beyond ASCII. -/
theorem ofTarget_lookedUp_padded :
    Variant "@Sinclair/typeBox".toList "\u2003@sinclair/TYPEBOX\x1f".toList ∧
      ofTarget (.str "@Sinclair/typeBox") = .ok .typeBox ∧
      ofTarget (.str "\u2003@sinclair/TYPEBOX\x1f") = .ok .typeBox ∧
      lookUpBy .withSigma all.reverse "@Sinclair/typeBox" = some .typeBox := by
  have hvariant : Variant "@Sinclair/typeBox".toList "\u2003@sinclair/TYPEBOX\x1f".toList :=
    ⟨['\u2003'], "@sinclair/TYPEBOX".toList, ['\x1f'], rfl, List.forall_mem_singleton.mpr rfl,
      List.forall_mem_singleton.mpr rfl, by decide⟩
  have hname : ofTarget (.str "@Sinclair/typeBox") = .ok .typeBox :=
    ofTarget_eq_ok_iff.mpr (by decide)
  obtain ⟨hsame, -, horder, -, -⟩ := ofTarget_lookedUp hvariant
  refine ⟨hvariant, hname, ?_, ?_⟩
  · rcases hsame with ⟨d, hd, hother⟩ | ⟨hrefused, -⟩
    · rw [hother, ← hd, hname]
    · cases hname.symm.trans hrefused
  · rw [horder .withSigma all.reverse (List.reverse_perm all), hname]
    rfl

end Dialect

end SchemaForge
