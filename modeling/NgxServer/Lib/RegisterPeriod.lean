import Mathlib.Data.Nat.Prime.Basic
import Mathlib.Dynamics.PeriodicPts.Defs
import NgxServer.Lib.ShiftRegister

/-!
# How long a shift register runs before it repeats

Without input a register goes through powers of one element. Powers are
computed by squaring, so that the period of a given polynomial can be checked;
and two bits that are inverted cancel only if their distance is a multiple of
it.
-/

namespace RegisterPeriod

open ShiftRegister

set_option autoImplicit false

variable {w : Nat}

def unit : BitVec w := BitVec.twoPow w (w - 1)

/-- The sum of what becomes of `right` after as many steps as the ones of `left` are
away from the high end. -/
def times (poly left right : BitVec w) : BitVec w :=
  (List.range w).foldl (fun sum i =>
    step poly sum false ^^^ if left.getLsbD i then right else 0#w) 0#w

def exponent (bits : List Bool) : Nat :=
  bits.foldl (fun number bit => 2 * number + bit.toNat) 0

def power (poly : BitVec w) (bits : List Bool) : BitVec w :=
  bits.foldl (fun value bit =>
    let square := times poly value value
    if bit then step poly square false else square) unit

section Powers

variable (poly : BitVec w)

theorem advance_add (register : BitVec w) (early late : Nat) :
    advance poly register (early + late) = advance poly (advance poly register early) late := by
  rw [advance, List.replicate_add, run_append]
  rfl

theorem advance_one (register : BitVec w) :
    advance poly register 1 = step poly register false := rfl

theorem step_advance (register : BitVec w) (count : Nat) :
    step poly (advance poly register count) false =
      advance poly (step poly register false) count := by
  rw [← advance_one, ← advance_add, Nat.add_comm, advance_add, advance_one]

theorem advance_zero (count : Nat) : advance poly (0#w) count = 0#w := by
  have sum := advance_xor poly (0#w) (0#w) count
  rw [BitVec.xor_self, BitVec.xor_self] at sum
  exact sum

theorem times_advance (left right : BitVec w) (count : Nat) :
    times poly left (advance poly right count) = advance poly (times poly left right) count := by
  have rounds : ∀ (places : List Nat) (sum : BitVec w),
      places.foldl (fun sum i => step poly sum false ^^^
        if left.getLsbD i then advance poly right count else 0#w) (advance poly sum count) =
      advance poly (places.foldl (fun sum i => step poly sum false ^^^
        if left.getLsbD i then right else 0#w) sum) count := by
    intro places
    induction places with
    | nil => exact fun _ => rfl
    | cons place rest ih =>
        intro sum
        rw [List.foldl_cons, List.foldl_cons, ← ih, advance_xor, step_advance]
        congr 3
        split
        · rfl
        · exact (advance_zero poly count).symm
  have all := rounds (List.range w) (0#w)
  rw [advance_zero] at all
  exact all

theorem unit_bit (i : Nat) : (unit : BitVec w).getLsbD i = decide (i + 1 = w) := by
  rw [unit, BitVec.getLsbD_twoPow]
  by_cases last : i + 1 = w
  · rw [decide_eq_true last, decide_eq_true (by omega), decide_eq_true (by omega)]
    rfl
  · rw [decide_eq_false last]
    rcases Nat.lt_or_ge (w - 1) w with some | none
    · rw [decide_eq_false (p := w - 1 = i) (by omega), Bool.and_false]
    · rw [decide_eq_false (p := w - 1 < w) (by omega), Bool.false_and]

/-- The rounds of a product with the unit move the bits in at the high end. -/
theorem times_unit (left : BitVec w) : times poly left unit = left := by
  have rounds : ∀ count ≤ w, (List.range count).foldl (fun sum i => step poly sum false ^^^
      if left.getLsbD i then unit else 0#w) (0#w) = left <<< (w - count) := by
    intro count
    induction count with
    | zero =>
        intro _
        rw [Nat.sub_zero, BitVec.shiftLeft_eq_zero le_rfl]
        rfl
    | succ count ih =>
        intro inside
        rw [List.range_succ, List.foldl_append, ih (by omega), List.foldl_cons, List.foldl_nil]
        have empty : (left <<< (w - count)).getLsbD 0 = false := by
          rw [BitVec.getLsbD_shiftLeft, decide_eq_true (p := 0 < w - count) (by omega)]
          simp
        rw [step, empty, Bool.xor_false, if_neg Bool.false_ne_true, BitVec.xor_zero]
        apply BitVec.eq_of_getLsbD_eq
        intro i bounded
        rw [BitVec.getLsbD_xor, BitVec.getLsbD_ushiftRight, BitVec.getLsbD_shiftLeft,
          BitVec.getLsbD_shiftLeft]
        by_cases last : i + 1 = w
        · have place : i - (w - (count + 1)) = count := by omega
          rw [decide_eq_false (p := 1 + i < w) (by omega), place, decide_eq_true bounded,
            decide_eq_false (p := i < w - (count + 1)) (by omega)]
          cases left.getLsbD count
          · simp
          · simp [unit_bit, last]
        · have clear : (if left.getLsbD count then (unit : BitVec w) else 0#w).getLsbD i =
              false := by
            split
            · rw [unit_bit, decide_eq_false last]
            · exact BitVec.getLsbD_zero
          have place : 1 + i - (w - count) = i - (w - (count + 1)) := by omega
          have test : decide (1 + i < w - count) = decide (i < w - (count + 1)) :=
            decide_eq_decide.mpr (by omega)
          rw [clear, Bool.xor_false, place, test, decide_eq_true bounded,
            decide_eq_true (p := 1 + i < w) (by omega)]
  have all := rounds w le_rfl
  rw [Nat.sub_self, BitVec.shiftLeft_zero] at all
  exact all

theorem advance_unit_add (early late : Nat) :
    advance poly unit (early + late) =
      times poly (advance poly unit early) (advance poly unit late) := by
  rw [times_advance, times_unit, advance_add]

theorem power_eq (bits : List Bool) :
    power poly bits = advance poly unit (exponent bits) := by
  have rounds : ∀ (bits : List Bool) (number : Nat),
      bits.foldl (fun value bit =>
        let square := times poly value value
        if bit then step poly square false else square) (advance poly unit number) =
      advance poly unit (bits.foldl (fun number bit => 2 * number + bit.toNat) number) := by
    intro bits
    induction bits with
    | nil => exact fun _ => rfl
    | cons bit rest ih =>
        intro number
        rw [List.foldl_cons, List.foldl_cons, ← ih]
        congr 1
        dsimp only
        rw [← advance_unit_add, ← Nat.two_mul]
        cases bit with
        | false => rfl
        | true => rw [if_pos rfl, ← advance_one, ← advance_add, Bool.toNat_true]
  exact rounds bits 0

theorem advance_iterate (register : BitVec w) (count : Nat) :
    advance poly register count = (fun value => step poly value false)^[count] register := by
  induction count generalizing register with
  | zero => rfl
  | succ count ih => rw [advance_succ, ih, Function.iterate_succ_apply]

end Powers

/-- A point returns after `count` steps and not earlier, if it does not return after any
of the parts of `count` by a prime. -/
theorem minimal_period_eq {State : Type} {move : State → State} {point : State} {count : Nat}
    (returns : move^[count] point = point)
    (early : ∀ prime, prime.Prime → prime ∣ count → move^[count / prime] point ≠ point) :
    Function.minimalPeriod move point = count := by
  have divides : Function.minimalPeriod move point ∣ count :=
    Function.IsPeriodicPt.minimalPeriod_dvd returns
  obtain ⟨factor, whole⟩ := divides
  by_cases one : factor = 1
  · rw [whole, one, Nat.mul_one]
  · obtain ⟨prime, isPrime, part⟩ := Nat.exists_prime_and_dvd one
    obtain ⟨rest, split⟩ := part
    have turns : count / prime = Function.minimalPeriod move point * rest := by
      rw [whole, split, Nat.mul_left_comm, Nat.mul_div_cancel_left _ isPrime.pos]
    have period : Function.minimalPeriod move point ∣ count / prime := Dvd.intro rest turns.symm
    have again : move^[count / prime] point = point :=
      Function.isPeriodicPt_iff_minimalPeriod_dvd.mpr period
    apply absurd again
    apply early prime isPrime
    rw [whole, split]
    exact Dvd.intro (Function.minimalPeriod move point * rest) (by rw [Nat.mul_left_comm])

/-- How often the register has to step until it holds the unit again. -/
noncomputable def period (poly : BitVec w) : Nat :=
  Function.minimalPeriod (fun value => step poly value false) unit

theorem advance_unit_iff (poly : BitVec w) (count : Nat) :
    advance poly unit count = unit ↔ period poly ∣ count := by
  rw [advance_iterate]
  exact Function.isPeriodicPt_iff_minimalPeriod_dvd

theorem period_eq {poly : BitVec w} {count : Nat}
    (returns : advance poly unit count = unit)
    (early : ∀ prime, prime.Prime → prime ∣ count → advance poly unit (count / prime) ≠ unit) :
    period poly = count := by
  apply minimal_period_eq
  case returns => rw [← advance_iterate, returns]
  case early =>
    intro prime isPrime part
    rw [← advance_iterate]
    exact early prime isPrime part

section Flips

variable {poly : BitVec w}

/-- The difference of two registers takes in the difference of what they take in. -/
theorem run_xor (left right : BitVec w) {sent received : List Bool}
    (size : sent.length = received.length) :
    run poly left sent ^^^ run poly right received =
      run poly (left ^^^ right) (List.zipWith xor sent received) := by
  induction sent generalizing left right received with
  | nil =>
      rw [List.length_eq_zero_iff.mp size.symm]
      rfl
  | cons bit rest ih =>
      cases received with
      | nil => cases size
      | cons other more =>
          rw [run_cons, run_cons, List.zipWith_cons_cons, run_cons, ih _ _ (Nat.succ.inj size)]
          congr 1
          rw [step_absorbs poly left, step_absorbs poly right, step_absorbs poly (left ^^^ right),
            ← step_xor]
          congr 1
          have bits : (BitVec.ofBool (xor bit other)).setWidth w =
              (BitVec.ofBool bit).setWidth w ^^^ (BitVec.ofBool other).setWidth w := by
            rw [← BitVec.setWidth_xor]
            cases bit <;> cases other <;> rfl
          rw [bits]
          simp only [BitVec.xor_assoc, BitVec.xor_right_inj]
          rw [← BitVec.xor_assoc, ← BitVec.xor_assoc, BitVec.xor_comm right]

def single (length place : Nat) : List Bool :=
  List.replicate place false ++ true :: List.replicate (length - place - 1) false

theorem get_single {length place : Nat} (inside : place < length) (i : Nat) :
    (single length place)[i]? = if i < length then some (decide (i = place)) else none := by
  rw [single, List.getElem?_append, List.length_replicate]
  by_cases before : i < place
  · rw [if_pos before, List.getElem?_replicate, if_pos before, if_pos (by omega),
      decide_eq_false (by omega)]
  · rw [if_neg before]
    cases behind : i - place with
    | zero => rw [List.getElem?_cons_zero, if_pos (by omega), decide_eq_true (by omega)]
    | succ rest =>
        rw [List.getElem?_cons_succ, List.getElem?_replicate]
        by_cases bounded : i < length
        · rw [if_pos (by omega), if_pos bounded, decide_eq_false (by omega)]
        · rw [if_neg (by omega), if_neg bounded]

theorem single_length {length place : Nat} (inside : place < length) :
    (single length place).length = length := by
  rw [single, List.length_append, List.length_cons, List.length_replicate, List.length_replicate]
  omega

/-- A one that is taken in is the unit as many steps ago as the register has bits. -/
theorem step_one (some : 0 < w) : step poly (0#w) true = advance poly unit w := by
  have low : advance poly (unit : BitVec w) (w - 1) = 1#w := by
    rw [unit, BitVec.twoPow_eq]
    apply advance_shifted
    intro i high
    rw [BitVec.getLsbD_one, decide_eq_false (p := i = 0) (by omega), Bool.and_false]
  have taken : (BitVec.ofBool true).setWidth w = 1#w := by
    apply BitVec.eq_of_getLsbD_eq
    intro i inside
    rw [BitVec.getLsbD_setWidth, BitVec.getLsbD_one, decide_eq_true inside, decide_eq_true some]
    cases i with
    | zero => rfl
    | succ i => simp
  have last : w = w - 1 + 1 := by omega
  rw [step_absorbs, BitVec.zero_xor, taken, ← low, ← advance_one, ← advance_add, ← last]

theorem run_single (some : 0 < w) (length place : Nat) :
    run poly (0#w) (single length place) = advance poly unit (w + (length - place - 1)) := by
  have before : run poly (0#w) (List.replicate place false) = 0#w := advance_zero poly place
  rw [single, run_append, before, run_cons, step_one some, advance_add]
  rfl

/-- Two bits that are inverted leave the register as it was exactly if their distance is
a multiple of the period. -/
theorem flips_unseen_iff (top : poly.msb = true) (register : BitVec w) {sent received : List Bool}
    (size : sent.length = received.length) {first second : Nat} (order : first < second)
    (flips : ∀ i, sent[i]? ≠ received[i]? ↔ i = first ∨ i = second) :
    run poly register sent = run poly register received ↔ period poly ∣ second - first := by
  have some : 0 < w := by
    rcases Nat.eq_zero_or_pos w with none | some
    · subst none
      simp [BitVec.of_length_zero] at top
    · exact some
  have inside : second < sent.length := by
    by_contra beyond
    have both := (flips second).mpr (Or.inr rfl)
    rw [List.getElem?_eq_none (by omega), List.getElem?_eq_none (by omega)] at both
    exact both rfl
  have early : first < sent.length := by omega
  have difference : List.zipWith xor sent received =
      List.zipWith xor (single sent.length first) (single sent.length second) := by
    apply List.ext_getElem?
    intro i
    rw [List.getElem?_zipWith, List.getElem?_zipWith, get_single early, get_single inside]
    by_cases bounded : i < sent.length
    · have flip := flips i
      rw [List.getElem?_eq_getElem bounded, List.getElem?_eq_getElem (size ▸ bounded)] at flip ⊢
      rw [if_pos bounded, if_pos bounded]
      simp only [ne_eq, Option.some.injEq] at flip ⊢
      have ones : (decide (i = first) ^^ decide (i = second)) =
          decide (i = first ∨ i = second) := by
        by_cases one : i = first
        · rw [decide_eq_true one, decide_eq_false (by omega), decide_eq_true (Or.inl one)]
          rfl
        · rw [decide_eq_false one, Bool.false_xor]
          exact decide_eq_decide.mpr (by omega)
      have differ : ∀ bit other : Bool, (bit ^^ other) = decide ¬ bit = other := by decide
      rw [ones, ← decide_eq_decide.mpr flip]
      exact differ _ _
    · rw [List.getElem?_eq_none (by omega), if_neg bounded]
  have lengths : (single sent.length first).length = (single sent.length second).length := by
    rw [single_length early, single_length inside]
  have split : w + (sent.length - first - 1) =
      (second - first) + (w + (sent.length - second - 1)) := by omega
  have sums : run poly register sent ^^^ run poly register received =
      advance poly (advance poly unit (second - first)) (w + (sent.length - second - 1)) ^^^
        advance poly unit (w + (sent.length - second - 1)) := by
    rw [run_xor register register size, BitVec.xor_self, difference, ← BitVec.xor_self (x := 0#w),
      ← run_xor (0#w) (0#w) lengths, run_single some, run_single some, split,
      advance_add]
  rw [← BitVec.xor_eq_zero_iff, sums, BitVec.xor_eq_zero_iff, ← advance_unit_iff]
  constructor
  · intro same
    exact run_injective top _ same
  · intro same
    rw [same]

end Flips

end RegisterPeriod
