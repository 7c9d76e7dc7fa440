import Mathlib.Data.List.Basic
import Mathlib.Logic.Function.Iterate

/-!
# Linear feedback shift registers

A register takes in one bit after the other, the low end first, and adds a
polynomial whenever a one drops out. The step is linear and, if the polynomial
has its top bit, can be undone: so two inputs that differ in no more bits in a
row than the register has leave different registers.
-/

namespace ShiftRegister

set_option autoImplicit false

variable {w : Nat}

def step (poly register : BitVec w) (bit : Bool) : BitVec w :=
  (register >>> 1) ^^^ if register.getLsbD 0 ^^ bit then poly else 0#w

def run (poly register : BitVec w) (bits : List Bool) : BitVec w :=
  bits.foldl (step poly) register

def advance (poly register : BitVec w) (count : Nat) : BitVec w :=
  run poly register (List.replicate count false)

/-- The word whose bits, the low end first, are given. -/
def pack : List Bool → BitVec w
  | [] => 0#w
  | bit :: rest => (pack rest <<< 1) ^^^ (BitVec.ofBool bit).setWidth w

section Run

variable (poly register : BitVec w)

theorem run_append (left right : List Bool) :
    run poly register (left ++ right) = run poly (run poly register left) right :=
  List.foldl_append

theorem run_cons (bit : Bool) (rest : List Bool) :
    run poly register (bit :: rest) = run poly (step poly register bit) rest := rfl

theorem advance_succ (count : Nat) :
    advance poly register (count + 1) = advance poly (step poly register false) count := rfl

end Run

section Linear

variable (poly : BitVec w)

theorem step_xor (left right : BitVec w) (bit : Bool) :
    step poly (left ^^^ right) bit = step poly left bit ^^^ step poly right false := by
  have cancels : ∀ a b : BitVec w, a ^^^ poly ^^^ (b ^^^ poly) = a ^^^ b := by
    intro a b
    rw [BitVec.xor_assoc, ← BitVec.xor_assoc poly, BitVec.xor_comm poly b, BitVec.xor_assoc b,
      BitVec.xor_self, BitVec.xor_zero]
  simp only [step, BitVec.ushiftRight_xor_distrib, BitVec.getLsbD_xor, Bool.xor_false]
  cases left.getLsbD 0 <;> cases right.getLsbD 0 <;> cases bit <;>
    simp [cancels, BitVec.xor_assoc, BitVec.xor_comm poly]

theorem advance_xor (left right : BitVec w) (count : Nat) :
    advance poly (left ^^^ right) count = advance poly left count ^^^ advance poly right count := by
  induction count generalizing left right with
  | zero => rfl
  | succ count ih => rw [advance_succ, advance_succ, advance_succ, step_xor, ih]

theorem step_shifted {value : BitVec w} (fits : value.getLsbD (w - 1) = false) :
    step poly (value <<< 1) false = value := by
  apply BitVec.eq_of_getLsbD_eq
  intro i inside
  have low : (value <<< 1).getLsbD 0 = false := by simp
  rw [step, low, Bool.xor_false, if_neg Bool.false_ne_true, BitVec.xor_zero,
    BitVec.getLsbD_ushiftRight, BitVec.getLsbD_shiftLeft]
  by_cases last : 1 + i < w
  · simp [last]
  · have top : i = w - 1 := by omega
    rw [top, fits]
    simp
    omega

theorem advance_shifted {value : BitVec w} (count : Nat)
    (fits : ∀ i, w ≤ i + count → value.getLsbD i = false) :
    advance poly (value <<< count) count = value := by
  induction count generalizing value with
  | zero => exact BitVec.shiftLeft_zero value
  | succ count ih =>
      have room : (value <<< count).getLsbD (w - 1) = false := by
        rw [BitVec.getLsbD_shiftLeft, fits (w - 1 - count) (by omega), Bool.and_false]
      rw [BitVec.shiftLeft_add, advance_succ, step_shifted poly room]
      exact ih fun i high => fits i (by omega)

theorem step_absorbs (register : BitVec w) (bit : Bool) :
    step poly register bit = step poly (register ^^^ (BitVec.ofBool bit).setWidth w) false := by
  rcases Nat.eq_zero_or_pos w with none | some
  · subst none
    exact BitVec.eq_of_zero_length rfl
  · have low : ((BitVec.ofBool bit).setWidth w).getLsbD 0 = bit := by
      cases bit <;> simp [some]
    have moved : (BitVec.ofBool bit).setWidth w >>> 1 = 0#w := by
      apply BitVec.eq_of_getLsbD_eq
      intro i inside
      simp
    simp only [step, BitVec.getLsbD_xor, low, Bool.xor_false, BitVec.ushiftRight_xor_distrib, moved,
      BitVec.xor_zero]

end Linear

section Pack

theorem get_pack (bits : List Bool) (i : Nat) :
    (pack bits : BitVec w).getLsbD i = (decide (i < w) && bits.getD i false) := by
  induction bits generalizing i with
  | nil => simp [pack]
  | cons bit rest ih =>
      rw [pack, BitVec.getLsbD_xor, BitVec.getLsbD_shiftLeft, ih]
      cases i with
      | zero => simp
      | succ i =>
          by_cases inside : i + 1 < w
          · simp [inside, Nat.lt_of_succ_lt inside]
          · simp [inside]

/-- As many bits as the register has can be put into it before it starts. -/
theorem run_eq_advance (poly register : BitVec w) {bits : List Bool} (fits : bits.length ≤ w) :
    run poly register bits = advance poly (register ^^^ pack bits) bits.length := by
  induction bits generalizing register with
  | nil => simp [run, advance, pack]
  | cons bit rest ih =>
      rw [List.length_cons] at fits ⊢
      have room : (pack rest : BitVec w).getLsbD (w - 1) = false := by
        rw [get_pack, List.getD_eq_getElem?_getD, List.getElem?_eq_none (by omega)]
        exact Bool.and_false _
      rw [run_cons, advance_succ, ih _ (by omega), pack, BitVec.xor_comm (pack rest <<< 1),
        ← BitVec.xor_assoc, step_xor, step_shifted poly room, ← step_absorbs]

theorem pack_injective {left right : List Bool} (fits : left.length ≤ w)
    (size : left.length = right.length) (same : (pack left : BitVec w) = pack right) :
    left = right := by
  apply List.ext_getElem size
  intro i inside also
  have bit := congrArg (fun value : BitVec w => value.getLsbD i) same
  simp only [get_pack, List.getD_eq_getElem?_getD, List.getElem?_eq_getElem inside,
    List.getElem?_eq_getElem also, Nat.lt_of_lt_of_le inside fits] at bit
  simpa using bit

end Pack

section Undo

variable {poly : BitVec w}

theorem step_eq_zero (top : poly.msb = true) {register : BitVec w}
    (empty : step poly register false = 0#w) : register = 0#w := by
  have positive : 0 < w := by
    rcases Nat.eq_zero_or_pos w with none | some
    · subst none
      simp [BitVec.of_length_zero] at top
    · exact some
  have low : register.getLsbD 0 = false := by
    cases one : register.getLsbD 0 with
    | false => rfl
    | true =>
        have bit := congrArg BitVec.msb empty
        rw [step, one] at bit
        simp [BitVec.msb_xor, BitVec.msb_ushiftRight, top] at bit
  rw [step, low, Bool.xor_false, if_neg Bool.false_ne_true, BitVec.xor_zero] at empty
  apply BitVec.eq_of_getLsbD_eq
  intro i inside
  cases i with
  | zero => simpa using low
  | succ i =>
      have bit := congrArg (fun value => value.getLsbD i) empty
      simpa [Nat.add_comm] using bit

theorem step_injective (top : poly.msb = true) {left right : BitVec w} {bit : Bool}
    (same : step poly left bit = step poly right bit) : left = right := by
  rw [← BitVec.xor_eq_zero_iff]
  apply step_eq_zero top
  have split := step_xor poly right (left ^^^ right) bit
  rw [BitVec.xor_comm left right, ← BitVec.xor_assoc, BitVec.xor_self, BitVec.zero_xor, same] at split
  rw [BitVec.xor_comm left right]
  have alone := congrArg (fun value => step poly right bit ^^^ value) split
  simpa [← BitVec.xor_assoc] using alone.symm

theorem run_injective (top : poly.msb = true) {left right : BitVec w} (bits : List Bool)
    (same : run poly left bits = run poly right bits) : left = right := by
  induction bits generalizing left right with
  | nil => exact same
  | cons bit rest ih => exact step_injective top (ih same)

theorem input_injective (top : poly.msb = true) (register : BitVec w) {sent received : List Bool}
    (size : sent.length = received.length) (short : sent.length ≤ w)
    (same : run poly register sent = run poly register received) : sent = received := by
  have fits : received.length ≤ w := size ▸ short
  rw [run_eq_advance poly register short, run_eq_advance poly register fits, ← size] at same
  have packed := run_injective top (List.replicate sent.length false) same
  rw [BitVec.xor_right_inj] at packed
  exact pack_injective short size packed

theorem window_split (bits : List Bool) (start count : Nat) :
    bits = bits.take start ++ ((bits.drop start).take count ++ bits.drop (start + count)) := by
  rw [← List.drop_drop, List.take_append_drop, List.take_append_drop]

theorem burst_around {sent received : List Bool} {start count : Nat}
    (burst : ∀ i, sent[i]? ≠ received[i]? → start ≤ i ∧ i < start + count) :
    sent.take start = received.take start ∧
      sent.drop (start + count) = received.drop (start + count) := by
  constructor
  · apply List.ext_getElem?
    intro i
    rw [List.getElem?_take, List.getElem?_take]
    split
    case isTrue early =>
      by_contra other
      have inside := burst i other
      omega
    case isFalse => rfl
  · apply List.ext_getElem?
    intro i
    rw [List.getElem?_drop, List.getElem?_drop]
    by_contra other
    have inside := burst (start + count + i) other
    omega

/-- A burst that is not longer than the register cannot leave the register as it was. -/
theorem burst_detected (top : poly.msb = true) (register : BitVec w) {sent received : List Bool}
    (size : sent.length = received.length) {start : Nat}
    (burst : ∀ i, sent[i]? ≠ received[i]? → start ≤ i ∧ i < start + w)
    (different : sent ≠ received) : run poly register sent ≠ run poly register received := by
  obtain ⟨before, after⟩ := burst_around burst
  have widths : ((sent.drop start).take w).length = ((received.drop start).take w).length := by
    simp [size]
  have short : ((sent.drop start).take w).length ≤ w := List.length_take_le ..
  intro same
  rw [window_split sent start w, window_split received start w, before, after, run_append,
    run_append, run_append, run_append] at same
  have window := input_injective top _ widths short (run_injective top _ same)
  apply different
  rw [window_split sent start w, window_split received start w, before, after, window]

end Undo

def divide (poly entry : BitVec w) : BitVec w :=
  (entry <<< 1) ^^^ if entry.msb then poly else 0#w

theorem reverse_shift (register : BitVec w) :
    (register >>> 1).reverse = register.reverse <<< 1 := by
  apply BitVec.eq_of_getLsbD_eq
  intro i inside
  rw [BitVec.getLsbD_reverse, BitVec.getLsbD_shiftLeft, BitVec.getLsbD_reverse,
    BitVec.getMsbD_ushiftRight, Bool.and_assoc]

theorem reverse_xor (left right : BitVec w) :
    (left ^^^ right).reverse = left.reverse ^^^ right.reverse := by
  apply BitVec.eq_of_getLsbD_eq
  intro i inside
  simp only [BitVec.getLsbD_reverse, BitVec.getLsbD_xor, BitVec.getMsbD_xor]

/-- A step without input is a division step on reversed words. -/
theorem divide_reverse (poly register : BitVec w) :
    divide poly.reverse register.reverse = (step poly register false).reverse := by
  rw [divide, BitVec.msb_reverse, step, Bool.xor_false, reverse_xor, reverse_shift]
  congr 1
  split
  · rfl
  · apply BitVec.eq_of_getLsbD_eq
    intro i inside
    simp [BitVec.getLsbD_reverse]

theorem divides_reverse (poly register : BitVec w) (count : Nat) :
    Nat.iterate (divide poly.reverse) count register.reverse =
      (advance poly register count).reverse := by
  induction count generalizing register with
  | zero => rfl
  | succ count ih => rw [Function.iterate_succ_apply, divide_reverse, ih, advance_succ]

end ShiftRegister
