/-!
# `SchemaForge.Text.Hex` — fixed-width hexadecimal numerals

Escapes name a character by a numeral of two, four or eight hexadecimal digits.

## Contents
- **Writing.** `digit` and `numeral`, in lower case.
- **Reading.** `value?` accepts both cases; `numeral?` reads a run of digits and nothing else, and
  with it what `numeral` wrote.
-/

namespace SchemaForge.Text.Hex

/-- The digit for a number below sixteen. -/
def digit (n : Nat) : Char :=
  if n < 10 then Char.ofNat ('0'.toNat + n) else Char.ofNat ('a'.toNat + (n - 10))

/-- The last `width` hexadecimal digits of a number. -/
def numeral : Nat → Nat → List Char
  | 0, _ => []
  | width + 1, n => numeral width (n / 16) ++ [digit (n % 16)]

/-- The value of a hexadecimal digit of either case. -/
def value? (c : Char) : Option Nat :=
  if '0' ≤ c ∧ c ≤ '9' then some (c.toNat - '0'.toNat)
  else if 'a' ≤ c ∧ c ≤ 'f' then some (c.toNat - 'a'.toNat + 10)
  else if 'A' ≤ c ∧ c ≤ 'F' then some (c.toNat - 'A'.toNat + 10)
  else none

theorem value?_digit {n : Nat} (h : n < 16) : value? (digit n) = some n := by
  have all : ∀ k ∈ List.range 16, value? (digit k) = some k := by decide
  exact all n (List.mem_range.2 h)

/-- The value of a run of hexadecimal digits, or `none` if one of them is no digit. -/
def numeral? (digits : List Char) : Option Nat :=
  digits.foldlM (fun n c => (value? c).map (16 * n + ·)) 0

/-- A numeral that is wide enough is read back. -/
theorem numeral?_numeral {width n : Nat} (h : n < Nat.pow 16 width) :
    numeral? (numeral width n) = some n := by
  induction width generalizing n with
  | zero =>
    have hzero : n < 1 := h
    simp [numeral, numeral?]
    omega
  | succ width ih =>
    have hfront : numeral? (numeral width (n / 16)) = some (n / 16) := by
      apply ih
      have hsplit : n < Nat.pow 16 width * 16 := h
      omega
    unfold numeral? at hfront
    rw [numeral, numeral?, List.foldlM_append, hfront]
    simp [value?_digit (Nat.mod_lt n (by decide)), Nat.div_add_mod]

theorem value?_lt {c : Char} {n : Nat} (h : value? c = some n) : n < 16 := by
  unfold value? at h
  simp only [Char.le_def, UInt32.le_iff_toNat_le] at h
  split at h
  · next hrange =>
    cases h
    have hlast : c.toNat ≤ '0'.toNat + 9 := hrange.2
    omega
  · split at h
    · next hrange =>
      cases h
      have hlast : c.toNat ≤ 'a'.toNat + 5 := hrange.2
      omega
    · split at h
      · next hrange =>
        cases h
        have hlast : c.toNat ≤ 'A'.toNat + 5 := hrange.2
        omega
      · cases h

/-- A run of digits has a value that so many digits can write. -/
theorem numeral?_lt {digits : List Char} {n : Nat} (h : numeral? digits = some n) :
    n < Nat.pow 16 digits.length := by
  -- Behind the digits that have been read, the bound grows with their value.
  have hfrom (start : Nat) (hstart : digits.foldlM (fun n c => (value? c).map (16 * n + ·)) start
      = some n) : n < (start + 1) * Nat.pow 16 digits.length := by
    clear h
    induction digits generalizing start with
    | nil =>
      cases hstart
      exact Nat.lt_of_lt_of_eq (Nat.lt_succ_self _) (Nat.mul_one _).symm
    | cons c rest ih =>
      rw [List.foldlM_cons] at hstart
      obtain ⟨value, hvalue, hrest⟩ := Option.bind_eq_some_iff.mp hstart
      obtain ⟨digit, hdigit, rfl⟩ := Option.map_eq_some_iff.mp hvalue
      have hlt := value?_lt hdigit
      have hpow : Nat.pow 16 (rest.length + 1) = 16 * Nat.pow 16 rest.length := Nat.mul_comm _ _
      calc n < (16 * start + digit + 1) * Nat.pow 16 rest.length := ih _ hrest
        _ ≤ ((start + 1) * 16) * Nat.pow 16 rest.length := Nat.mul_le_mul_right _ (by omega)
        _ = (start + 1) * Nat.pow 16 (rest.length + 1) := by rw [hpow, Nat.mul_assoc]
  have hbound := hfrom 0 h
  rwa [Nat.zero_add, Nat.one_mul] at hbound

/-- The numeral of a 16-bit unit has four digits, of which it is read back. -/
theorem exists_numeral_four {n : Nat} (h : n < 0x10000) :
    ∃ a b c d, numeral 4 n = [a, b, c, d] ∧ numeral? [a, b, c, d] = some n := by
  have hread : numeral? (numeral 4 n) = some n := numeral?_numeral h
  exact ⟨_, _, _, _, rfl, hread⟩

/-- Every character of a run that is read is a digit. -/
theorem value?_of_numeral? {digits : List Char} {n : Nat} (h : numeral? digits = some n) :
    ∀ c ∈ digits, value? c ≠ none := by
  unfold numeral? at h
  generalize 0 = start at h
  induction digits generalizing start with
  | nil => exact fun c hc => absurd hc List.not_mem_nil
  | cons first rest ih =>
    rw [List.foldlM_cons] at h
    obtain ⟨value, hvalue, hrest⟩ := Option.bind_eq_some_iff.mp h
    intro c hc
    rcases List.mem_cons.mp hc with rfl | hc
    · intro hnone
      rw [hnone] at hvalue
      cases hvalue
    · exact ih _ hrest c hc

end SchemaForge.Text.Hex
