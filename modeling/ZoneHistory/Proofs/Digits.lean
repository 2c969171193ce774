import Mathlib.Algebra.Group.Nat.Defs
import ZoneHistory.Text.Numeral

/-!
# Rows of digits

A row of digits is spelled by its characters and stands for a number. What is read off the front of
a text is its longest row, and every number has a row that spells it.
-/
namespace ZoneHistory.Text

/-- A decimal digit of any script. -/
structure Digit where
  char : Char
  value : Nat
  reads : digit? char = some value

def spell (row : List Digit) : List Char := row.map Digit.char

def digitValues (row : List Digit) : List Nat := row.map Digit.value

/-- The number that a row of digits stands for. -/
def number (row : List Digit) : Nat := positional (digitValues row)

/-- A text that no digit stands in front of. -/
def NoDigitFirst (text : List Char) : Prop := ∀ c ∈ text.head?, digit? c = none

variable {text rest : List Char} {row : List Digit} {values : List Nat}

@[simp]
theorem spell_nil : spell [] = [] := rfl

@[simp]
theorem spell_cons (d : Digit) (row : List Digit) : spell (d :: row) = d.char :: spell row := rfl

@[simp]
theorem spell_append (row later : List Digit) : spell (row ++ later) = spell row ++ spell later :=
  List.map_append

@[simp]
theorem length_spell (row : List Digit) : (spell row).length = row.length := List.length_map _

@[simp]
theorem digitValues_nil : digitValues [] = [] := rfl

@[simp]
theorem digitValues_cons (d : Digit) (row : List Digit) :
    digitValues (d :: row) = d.value :: digitValues row := rfl

@[simp]
theorem length_digitValues (row : List Digit) : (digitValues row).length = row.length :=
  List.length_map _

@[simp]
theorem digitValues_eq_nil_iff : digitValues row = [] ↔ row = [] := List.map_eq_nil_iff

theorem digit?_of_mem_spell {c : Char} (h : c ∈ spell row) : (digit? c).isSome = true := by
  obtain ⟨d, -, rfl⟩ := List.mem_map.mp h
  rw [d.reads, Option.isSome_some]

theorem not_mem_spell {c : Char} (h : digit? c = none) : c ∉ spell row := by
  intro hmem
  rw [← Option.not_isSome_iff_eq_none] at h
  exact h (digit?_of_mem_spell hmem)

theorem isAlpha_iff {c : Char} :
    c.isAlpha = true ↔ (65 ≤ c.toNat ∧ c.toNat ≤ 90) ∨ 97 ≤ c.toNat ∧ c.toNat ≤ 122 := by
  change (decide ('A'.val ≤ c.val ∧ c.val ≤ 'Z'.val) ||
    (decide ('a'.val ≤ c.val) && decide (c.val ≤ 'z'.val))) = true ↔ _
  simp only [Bool.or_eq_true, Bool.and_eq_true, decide_eq_true_eq, UInt32.le_iff_toNat_le]
  rfl

theorem digit?_of_isAlpha {c : Char} (h : c.isAlpha = true) : digit? c = none := by
  have hascii : ∀ code < 128, (Char.ofNat code).isAlpha = true →
      digit? (Char.ofNat code) = none := by
    decide
  have hcode : c.toNat < 128 := by
    rw [isAlpha_iff] at h
    omega
  rw [← Char.ofNat_toNat c] at h ⊢
  exact hascii _ hcode h

/-! ## Rows at the front of a text -/

theorem spanDigits_spell (row : List Digit) (hrest : NoDigitFirst rest) :
    spanDigits (spell row ++ rest) = (digitValues row, rest) := by
  induction row with
  | nil =>
    cases rest with
    | nil => rfl
    | cons c rest => simp [spanDigits, hrest c rfl]
  | cons d row ih => simp [spanDigits, d.reads, ih]

theorem exists_row_of_spanDigits (text : List Char) :
    ∃ row, text = spell row ++ (spanDigits text).2 ∧ (spanDigits text).1 = digitValues row ∧
      NoDigitFirst (spanDigits text).2 := by
  induction text with
  | nil => exact ⟨[], rfl, rfl, nofun⟩
  | cons c text ih =>
    cases hc : digit? c with
    | none =>
      refine ⟨[], ?_⟩
      simp [spanDigits, hc, NoDigitFirst]
    | some value =>
      obtain ⟨row, htext, hvalues, hrest⟩ := ih
      refine ⟨⟨c, value, hc⟩ :: row, ?_⟩
      simp only [spanDigits, hc, spell_cons, digitValues_cons, List.cons_append, ← htext, ← hvalues,
        hrest, and_self]

theorem spanDigits_eq_iff :
    spanDigits text = (values, rest) ↔
      ∃ row, text = spell row ++ rest ∧ values = digitValues row ∧ NoDigitFirst rest := by
  constructor
  · intro h
    obtain ⟨row, htext, hvalues, hrest⟩ := exists_row_of_spanDigits text
    rw [h] at htext hvalues hrest
    exact ⟨row, htext, hvalues, hrest⟩
  · rintro ⟨row, rfl, rfl, hrest⟩
    exact spanDigits_spell row hrest

theorem digits?_eq_some_iff :
    digits? text = some values ↔ ∃ row, row ≠ [] ∧ text = spell row ∧ values = digitValues row := by
  constructor
  · intro h
    unfold digits? at h
    split at h
    · next d ds hspan =>
      obtain ⟨row, htext, hvalues, -⟩ := spanDigits_eq_iff.mp hspan
      refine ⟨row, ?_, by rw [htext, List.append_nil], by rw [← hvalues, Option.some.inj h]⟩
      rintro rfl
      cases hvalues
    · cases h
  · rintro ⟨row, hne, rfl, rfl⟩
    obtain ⟨d, row, rfl⟩ := List.exists_cons_of_ne_nil hne
    have hspan : spanDigits (spell (d :: row) ++ []) = (digitValues (d :: row), []) :=
      spanDigits_spell _ nofun
    rw [List.append_nil] at hspan
    rw [digits?, hspan, digitValues_cons]

theorem digits?_eq_none {c : Char} (hc : c ∈ text) (hdigit : digit? c = none) :
    digits? text = none := by
  rw [Option.eq_none_iff_forall_ne_some]
  intro values h
  obtain ⟨row, -, rfl, -⟩ := digits?_eq_some_iff.mp h
  exact not_mem_spell hdigit hc

/-! ## Numbers -/

theorem positional_append_singleton (values : List Nat) (value : Nat) :
    positional (values ++ [value]) = 10 * positional values + value := by
  rw [positional, List.foldl_append]
  rfl

theorem positional_append_zeros (values : List Nat) (n : Nat) :
    positional (values ++ List.replicate n 0) = positional values * 10 ^ n := by
  induction n with
  | zero => rw [List.replicate_zero, List.append_nil, Nat.pow_zero, Nat.mul_one]
  | succ n ih =>
    rw [List.replicate_succ', ← List.append_assoc, positional_append_singleton, ih, Nat.pow_succ,
      Nat.add_zero, Nat.mul_comm 10, Nat.mul_assoc]

/-- The ASCII digit of a value. -/
def Digit.ofValue (value : Nat) (h : value < 10) : Digit where
  char := value.digitChar
  value := value
  reads := by
    have hall : ∀ value < 10, digit? value.digitChar = some value := by decide
    exact hall value h

def zeros (n : Nat) : List Digit := List.replicate n (.ofValue 0 (by decide))

theorem number_append_singleton (row : List Digit) (d : Digit) :
    number (row ++ [d]) = 10 * number row + d.value := by
  rw [number, digitValues, List.map_append]
  exact positional_append_singleton _ _

theorem number_zeros_append (n : Nat) (row : List Digit) :
    number (zeros n ++ row) = number row := by
  induction n with
  | zero => rfl
  | succ n ih => exact ih

/-- Every number has a numeral. -/
theorem exists_numeral (n : Nat) : ∃ row, spell row = Nat.toDigits 10 n ∧ number row = n := by
  induction n using Nat.strongRecOn with
  | ind n ih =>
    by_cases hlt : n < 10
    · have hnumber : number [.ofValue n hlt] = 10 * 0 + n := number_append_singleton [] _
      exact ⟨[.ofValue n hlt], (Nat.toDigits_of_lt_base hlt).symm, by omega⟩
    · obtain ⟨row, hspell, hnumber⟩ := ih (n / 10) (by omega)
      have hlast : n % 10 < 10 := Nat.mod_lt n (by decide)
      refine ⟨row ++ [.ofValue (n % 10) hlast], ?_, ?_⟩
      · rw [Nat.toDigits_of_base_le (n := n) (by decide) (by omega), spell_append, hspell]
        rfl
      · rw [number_append_singleton, hnumber]
        exact Nat.div_add_mod n 10

/-- A number that is short enough has a row of any width. -/
theorem exists_padded {n width : Nat} (hwidth : 0 < width) (hn : n < 10 ^ width) :
    ∃ row, row.length = width ∧ number row = n ∧
      spell row = List.replicate (width - (Nat.toDigits 10 n).length) '0' ++ Nat.toDigits 10 n := by
  obtain ⟨row, hspell, hnumber⟩ := exists_numeral n
  have hlength : row.length ≤ width := by
    rw [← length_spell, hspell, Nat.length_toDigits_le_iff (by decide) hwidth]
    exact hn
  refine ⟨zeros (width - row.length) ++ row, ?_, by rw [number_zeros_append, hnumber], ?_⟩
  · rw [zeros, List.length_append, List.length_replicate]
    omega
  · rw [spell_append, ← hspell, length_spell, zeros, spell, List.map_replicate]
    rfl

end ZoneHistory.Text
