import Mathlib.Data.List.GetD
import Mathlib.Data.Nat.Digits.Lemmas

/-!
# Numerals

A number is spelled with the symbols of a positional system, the highest digit
first and without leading zeros. The spelling is the only one of its kind, and
it reads back to the number.
-/

namespace Numeral

set_option autoImplicit false

structure Alphabet (Symbol : Type) where
  base : Nat
  symbol : Nat → Symbol
  index : Symbol → Option Nat
  two_le : 2 ≤ base
  index_symbol : ∀ digit, digit < base → index (symbol digit) = some digit
  symbol_index : ∀ mark digit, index mark = some digit → digit < base ∧ symbol digit = mark

def Alphabet.ofTable {Symbol : Type} [DecidableEq Symbol] (filler : Symbol) (table : List Symbol)
    (two_le : 2 ≤ table.length) (distinct : table.Nodup) : Alphabet Symbol where
  base := table.length
  symbol digit := table.getD digit filler
  index mark := if mark ∈ table then some (table.idxOf mark) else none
  two_le := two_le
  index_symbol digit small := by
    rw [List.getD_eq_getElem table filler small, if_pos (List.getElem_mem small),
      distinct.idxOf_getElem digit small]
  symbol_index mark digit listed := by
    split at listed
    case isTrue member =>
      cases listed
      have small := List.idxOf_lt_length_of_mem member
      rw [List.getD_eq_getElem table filler small]
      exact ⟨small, List.getElem_idxOf small⟩
    case isFalse => cases listed

/-- The digits of a number, the highest first; 0 has one digit. -/
def digits (base number : Nat) : List Nat :=
  if number = 0 then [0] else (Nat.digits base number).reverse

variable {Symbol : Type} (alphabet : Alphabet Symbol)

def spell (number : Nat) : List Symbol := (digits alphabet.base number).map alphabet.symbol

/-- The value of a text, unless it is empty or has a foreign symbol. -/
def read (text : List Symbol) : Option Nat :=
  if text.isEmpty then none
  else (text.mapM alphabet.index).map fun values => Nat.ofDigits alphabet.base values.reverse

def Trimmed (text : List Symbol) : Prop :=
  ∀ rest, text = alphabet.symbol 0 :: rest → rest = []

section Digits

variable {base : Nat}

theorem digits_eq (two : 2 ≤ base) (number : Nat) :
    digits base number =
      (if number / base = 0 then [] else digits base (number / base)) ++ [number % base] := by
  by_cases zero : number = 0
  · simp [zero, digits]
  · rw [digits, if_neg zero, Nat.digits_def' two (Nat.pos_of_ne_zero zero), List.reverse_cons]
    split
    case isTrue last => rw [last, Nat.digits_zero, List.reverse_nil]
    case isFalse more => rw [digits, if_neg more]

theorem digits_ne_nil (base number : Nat) : digits base number ≠ [] := by
  unfold digits
  split
  · exact List.cons_ne_nil 0 []
  case isFalse nonzero =>
    exact fun none => nonzero (Nat.digits_eq_nil_iff_eq_zero.mp (List.reverse_eq_nil_iff.mp none))

theorem digits_lt (two : 2 ≤ base) {number digit : Nat} (listed : digit ∈ digits base number) :
    digit < base := by
  unfold digits at listed
  split at listed
  · rw [List.mem_singleton.mp listed]
    omega
  · exact Nat.digits_lt_base two (List.mem_reverse.mp listed)

theorem of_digits (base number : Nat) :
    Nat.ofDigits base (digits base number).reverse = number := by
  unfold digits
  split
  case isTrue zero => simp [zero]
  case isFalse => rw [List.reverse_reverse, Nat.ofDigits_digits]

theorem digits_length_le (two : 2 ≤ base) {number width : Nat} (positive : 0 < width)
    (small : number < base ^ width) : (digits base number).length ≤ width := by
  unfold digits
  split
  · exact positive
  · rw [List.length_reverse]
    exact (Nat.digits_length_le_iff two number).mpr small

/-- Digits without a leading zero are the digits of their value. -/
theorem digits_unique (two : 2 ≤ base) {first : Nat} {rest : List Nat}
    (small : ∀ value ∈ first :: rest, value < base) (trimmed : first = 0 → rest = []) :
    digits base (Nat.ofDigits base (first :: rest).reverse) = first :: rest := by
  by_cases zero : first = 0
  · rw [zero, trimmed zero]
    rfl
  · have exact := Nat.digits_ofDigits base two (first :: rest).reverse
      (fun value listed => small value (List.mem_reverse.mp listed)) (by simpa using zero)
    have nonzero : Nat.ofDigits base (first :: rest).reverse ≠ 0 := by
      intro none
      rw [none, Nat.digits_zero] at exact
      simp at exact
    rw [digits, if_neg nonzero, exact, List.reverse_reverse]

theorem digits_head {number first : Nat} {rest : List Nat}
    (spelled : digits base number = first :: rest) (zero : first = 0) : rest = [] := by
  unfold digits at spelled
  split at spelled
  · cases spelled
    rfl
  case isFalse nonzero =>
    have nonempty := (Nat.digits_ne_nil_iff_ne_zero (b := base)).mpr nonzero
    have last := Nat.getLast_digit_ne_zero base nonzero
    rw [← List.head_reverse (by simpa using nonempty)] at last
    simp only [spelled, List.head_cons] at last
    exact absurd zero last

end Digits

theorem index_symbols {values : List Nat} (small : ∀ value ∈ values, value < alphabet.base) :
    (values.map alphabet.symbol).mapM alphabet.index = some values := by
  induction values with
  | nil => rfl
  | cons value rest ih =>
      have first := alphabet.index_symbol value (small value (List.mem_cons_self ..))
      have later := ih fun other listed => small other (List.mem_cons_of_mem value listed)
      rw [List.map_cons, List.mapM_cons, first, later]
      rfl

theorem symbols_of_index {text : List Symbol} {values : List Nat}
    (known : text.mapM alphabet.index = some values) :
    (∀ value ∈ values, value < alphabet.base) ∧ text = values.map alphabet.symbol := by
  induction text generalizing values with
  | nil =>
      cases known
      exact ⟨fun value listed => absurd listed List.not_mem_nil, rfl⟩
  | cons mark text ih =>
      rw [List.mapM_cons] at known
      obtain ⟨value, first, more⟩ := Option.bind_eq_some_iff.mp known
      obtain ⟨rest, later, same⟩ := Option.bind_eq_some_iff.mp more
      cases same
      obtain ⟨small, spelled⟩ := alphabet.symbol_index mark value first
      obtain ⟨others, spelledToo⟩ := ih later
      refine ⟨fun other listed => ?_, ?_⟩
      · rcases List.mem_cons.mp listed with rfl | listed
        · exact small
        · exact others other listed
      · rw [List.map_cons, spelled, ← spelledToo]

theorem read_spell (number : Nat) : read alphabet (spell alphabet number) = some number := by
  have some : (spell alphabet number).isEmpty = false := by
    simpa [spell] using digits_ne_nil alphabet.base number
  rw [read, some, if_neg Bool.false_ne_true, spell,
    index_symbols alphabet fun value => digits_lt alphabet.two_le, Option.map_some, of_digits]

theorem spell_trimmed (number : Nat) : Trimmed alphabet (spell alphabet number) := by
  intro rest spelled
  unfold spell at spelled
  cases listed : digits alphabet.base number with
  | nil => exact absurd listed (digits_ne_nil alphabet.base number)
  | cons first later =>
      rw [listed, List.map_cons, List.cons.injEq] at spelled
      have small : first < alphabet.base :=
        digits_lt alphabet.two_le (listed ▸ List.mem_cons_self ..)
      have zero : first = 0 := by
        have same := alphabet.index_symbol first small
        rw [spelled.1, alphabet.index_symbol 0 (Nat.lt_of_lt_of_le two_pos alphabet.two_le)] at same
        exact (Option.some.inj same).symm
      rw [← spelled.2, digits_head listed zero, List.map_nil]

/-- There is one text without leading zeros that reads as a number. -/
theorem spell_unique {text : List Symbol} {number : Nat} (reads : read alphabet text = some number)
    (trimmed : Trimmed alphabet text) : text = spell alphabet number := by
  cases text with
  | nil => cases reads
  | cons mark rest =>
      obtain ⟨values, known, value⟩ := Option.map_eq_some_iff.mp
        (show ((mark :: rest).mapM alphabet.index).map _ = _ from reads)
      obtain ⟨small, spelled⟩ := symbols_of_index alphabet known
      cases values with
      | nil => cases spelled
      | cons first later =>
          rw [List.map_cons] at spelled
          have alone : first = 0 → later = [] := by
            rintro rfl
            exact List.map_eq_nil_iff.mp (trimmed _ spelled)
          rw [spell, ← value, digits_unique alphabet.two_le small alone, spelled, List.map_cons]

theorem spell_length_le {number width : Nat} (positive : 0 < width)
    (small : number < alphabet.base ^ width) : (spell alphabet number).length ≤ width := by
  rw [spell, List.length_map]
  exact digits_length_le alphabet.two_le positive small

end Numeral
