import Mathlib.Data.List.TakeWhile
import Mathlib.Tactic.Common

/-!
# Strings in one flat memory

A memory is a list of cells, addressed from zero, and remembers which addresses have
been stored to. A string is what stands in front of a terminator. An operation whose
behaviour is undefined has no result: a store outside the memory, a string without a
terminator, a copy between places that overlap.
-/

namespace CMemory

set_option autoImplicit false

variable {Cell : Type}

structure Memory (Cell : Type) where
  cells : List Cell
  /-- The addresses of all stores, in their order. -/
  stores : List Nat
  deriving DecidableEq, Repr

/-- Two ranges, each given by its first address and its size, have no address in common. -/
def Apart (first size other otherSize : Nat) : Prop :=
  first + size ≤ other ∨ other + otherSize ≤ first

instance (first size other otherSize : Nat) : Decidable (Apart first size other otherSize) := by
  unfold Apart
  infer_instance

theorem apart_symm {first size other otherSize : Nat}
    (apart : Apart first size other otherSize) : Apart other otherSize first size :=
  Or.symm apart

theorem apart_within {first size other otherSize part partSize rest restSize : Nat}
    (apart : Apart first size other otherSize)
    (one : first ≤ part ∧ part + partSize ≤ first + size)
    (two : other ≤ rest ∧ rest + restSize ≤ other + otherSize) :
    Apart part partSize rest restSize := by
  unfold Apart at apart ⊢
  omega

def Holds (memory : Memory Cell) (addr : Nat) (block : List Cell) : Prop :=
  ∀ i, i < block.length → memory.cells[addr + i]? = block[i]?

instance [DecidableEq Cell] (memory : Memory Cell) (addr : Nat) (block : List Cell) :
    Decidable (Holds memory addr block) := by
  unfold Holds
  infer_instance

def store (memory : Memory Cell) (addr : Nat) (block : List Cell) : Option (Memory Cell) :=
  if addr + block.length ≤ memory.cells.length then
    some
      { cells := memory.cells.take addr ++ (block ++ memory.cells.drop (addr + block.length))
        stores := memory.stores ++ List.range' addr block.length }
  else none

def memset (memory : Memory Cell) (addr : Nat) (cell : Cell) (count : Nat) :
    Option (Memory Cell) :=
  store memory addr (List.replicate count cell)

structure Wrote (before after : Memory Cell) (addr : Nat) (block : List Cell) : Prop where
  size : after.cells.length = before.cells.length
  stores : after.stores = before.stores ++ List.range' addr block.length
  cells : ∀ i, after.cells[i]? =
    if addr ≤ i ∧ i < addr + block.length then block[i - addr]? else before.cells[i]?

theorem store_cells {memory : Memory Cell} {addr : Nat} {block : List Cell}
    (inside : addr + block.length ≤ memory.cells.length) (i : Nat) :
    (memory.cells.take addr ++ (block ++ memory.cells.drop (addr + block.length)))[i]? =
      if addr ≤ i ∧ i < addr + block.length then block[i - addr]? else memory.cells[i]? := by
  have front : (memory.cells.take addr).length = addr := by
    rw [List.length_take]
    omega
  by_cases before : i < addr
  · rw [List.getElem?_append_left (by omega), List.getElem?_take_of_lt before, if_neg (by omega)]
  · rw [List.getElem?_append_right (by omega), front]
    by_cases within : i < addr + block.length
    · rw [List.getElem?_append_left (by omega), if_pos ⟨by omega, within⟩]
    · rw [List.getElem?_append_right (by omega), List.getElem?_drop, if_neg (by omega)]
      congr 1
      omega

theorem store_wrote {memory : Memory Cell} {addr : Nat} {block : List Cell}
    (inside : addr + block.length ≤ memory.cells.length) :
    ∃ after, store memory addr block = some after ∧ Wrote memory after addr block := by
  refine ⟨_, if_pos inside, ?_⟩
  constructor
  case size =>
    simp only [List.length_append, List.length_take, List.length_drop]
    omega
  case stores => rfl
  case cells => exact store_cells inside

theorem memset_wrote {memory : Memory Cell} {addr count : Nat} (cell : Cell)
    (inside : addr + count ≤ memory.cells.length) :
    ∃ after, memset memory addr cell count = some after ∧
      Wrote memory after addr (List.replicate count cell) := by
  apply store_wrote
  rw [List.length_replicate]
  exact inside

theorem wrote_holds {before after : Memory Cell} {addr : Nat} {block : List Cell}
    (wrote : Wrote before after addr block) : Holds after addr block := by
  intro i bound
  rw [wrote.cells, if_pos (by omega), Nat.add_sub_cancel_left]

theorem wrote_keeps {before after : Memory Cell} {addr place : Nat} {block content : List Cell}
    (wrote : Wrote before after addr block) (held : Holds before place content)
    (apart : Apart place content.length addr block.length) : Holds after place content := by
  intro i bound
  rw [wrote.cells, if_neg (by unfold Apart at apart; omega)]
  exact held i bound

theorem wrote_append {first second third : Memory Cell} {addr : Nat} {block more : List Cell}
    (one : Wrote first second addr block) (two : Wrote second third (addr + block.length) more) :
    Wrote first third addr (block ++ more) := by
  constructor
  case size => exact two.size.trans one.size
  case stores =>
    rw [two.stores, one.stores, List.append_assoc, List.range'_append_1, List.length_append]
  case cells =>
    intro i
    rw [two.cells, one.cells, List.length_append]
    by_cases later : addr + block.length ≤ i ∧ i < addr + block.length + more.length
    · rw [if_pos later, if_pos (by omega), List.getElem?_append_right (by omega)]
      congr 1
      omega
    · rw [if_neg later]
      by_cases here : addr ≤ i ∧ i < addr + block.length
      · rw [if_pos here, if_pos (by omega), List.getElem?_append_left (by omega)]
      · rw [if_neg here, if_neg (by omega)]

theorem wrote_nothing (memory : Memory Cell) (addr : Nat) : Wrote memory memory addr [] := by
  constructor
  case size => rfl
  case stores => simp
  case cells =>
    intro i
    rw [if_neg (by simp)]

theorem holds_append {memory : Memory Cell} {addr : Nat} {block more : List Cell} :
    Holds memory addr (block ++ more) ↔
      Holds memory addr block ∧ Holds memory (addr + block.length) more := by
  constructor
  · intro held
    constructor
    · intro i bound
      rw [held i (by rw [List.length_append]; omega), List.getElem?_append_left bound]
    · intro i bound
      rw [Nat.add_assoc, held (block.length + i) (by rw [List.length_append]; omega),
        List.getElem?_append_right (by omega), Nat.add_sub_cancel_left]
  · intro ⟨front, back⟩ i bound
    rw [List.length_append] at bound
    by_cases early : i < block.length
    · rw [front i early, List.getElem?_append_left early]
    · have shifted := back (i - block.length) (by omega)
      rw [Nat.add_assoc, Nat.add_sub_cancel' (by omega)] at shifted
      rw [shifted, List.getElem?_append_right (by omega)]

theorem holds_take (memory : Memory Cell) (addr size : Nat) :
    Holds memory addr ((memory.cells.drop addr).take size) := by
  intro i bound
  rw [List.length_take] at bound
  rw [List.getElem?_take_of_lt (by omega), List.getElem?_drop]

theorem holds_inside {memory : Memory Cell} {addr : Nat} {block : List Cell}
    (held : Holds memory addr block) (more : block ≠ []) :
    addr + block.length ≤ memory.cells.length := by
  have positive := List.length_pos_iff.mpr more
  have last := (held (block.length - 1) (by omega)).trans (List.getElem?_eq_getElem (by omega))
  have bound := (List.getElem?_eq_some_iff.mp last).1
  omega

/-- A block depends on the cells in its own range only. -/
theorem holds_congr {memory other : Memory Cell} {addr : Nat} {block : List Cell}
    (held : Holds memory addr block)
    (same : ∀ i, addr ≤ i → i < addr + block.length → other.cells[i]? = memory.cells[i]?) :
    Holds other addr block := by
  intro i bound
  rw [same (addr + i) (by omega) (by omega)]
  exact held i bound

section Strings

variable (nul : Cell)

/-- Strings one behind the other, each with its terminator. -/
def image : (strings : List (List Cell)) → List Cell
  | [] => []
  | text :: strings => text ++ [nul] ++ image strings

def pointers (base : Nat) : (strings : List (List Cell)) → List Nat
  | [] => []
  | text :: strings => base :: pointers (base + text.length + 1) strings

theorem image_append (first second : List (List Cell)) :
    image nul (first ++ second) = image nul first ++ image nul second := by
  induction first with
  | nil => rfl
  | cons text first ih => simp [image, ih]

theorem pointers_ge {strings : List (List Cell)} {base : Nat} :
    ∀ addr ∈ pointers base strings, base ≤ addr := by
  induction strings generalizing base with
  | nil => simp [pointers]
  | cons text strings ih =>
      intro addr listed
      rcases List.mem_cons.mp listed with rfl | later
      · exact Nat.le_refl _
      · have above := ih addr later
        omega

theorem holds_prefix {memory : Memory Cell} {addr : Nat} {block : List Cell}
    (held : Holds memory addr block) : block <+: memory.cells.drop addr := by
  rw [List.prefix_iff_getElem?]
  intro i bound
  rw [List.getElem?_drop, held i bound, List.getElem?_eq_getElem bound]

variable [DecidableEq Cell]

def string (memory : Memory Cell) (addr : Nat) : Option (List Cell) :=
  if nul ∈ memory.cells.drop addr then some ((memory.cells.drop addr).takeWhile (· ≠ nul))
  else none

/-- The copy includes the terminator. -/
def strcpy (memory : Memory Cell) (dst src : Nat) : Option (Memory Cell) :=
  (string nul memory src).bind fun text =>
    if Apart dst (text.length + 1) src (text.length + 1) then store memory dst (text ++ [nul])
    else none

variable {nul}

theorem take_while_ne {front : List Cell} (clean : nul ∉ front) (rest : List Cell) :
    (front ++ nul :: rest).takeWhile (· ≠ nul) = front := by
  rw [List.takeWhile_append_of_pos]
  · simp
  · intro cell inside
    simp only [decide_eq_true_eq]
    intro same
    exact clean (same ▸ inside)

theorem take_while_terminated {cells : List Cell} (ended : nul ∈ cells) :
    ∃ rest, cells.takeWhile (· ≠ nul) ++ [nul] ++ rest = cells := by
  induction cells with
  | nil => cases ended
  | cons cell cells ih =>
      by_cases here : cell = nul
      · exact ⟨cells, by simp [here]⟩
      · have later : nul ∈ cells := by
          rcases List.mem_cons.mp ended with same | later
          · exact absurd same.symm here
          · exact later
        obtain ⟨rest, split⟩ := ih later
        refine ⟨rest, ?_⟩
        rw [List.takeWhile_cons_of_pos (by simpa using here), List.cons_append, List.cons_append,
          split]

theorem string_of_holds {memory : Memory Cell} {addr : Nat} {text : List Cell}
    (held : Holds memory addr (text ++ [nul])) (clean : nul ∉ text) :
    string nul memory addr = some text := by
  obtain ⟨rest, split⟩ := holds_prefix held
  have ended : nul ∈ memory.cells.drop addr := by
    rw [← split]
    simp
  rw [string, if_pos ended, ← split, List.append_assoc]
  exact congrArg some (take_while_ne clean rest)

/-- A string stands where it is read, its terminator with it. -/
theorem holds_of_string {memory : Memory Cell} {addr : Nat} {text : List Cell}
    (read : string nul memory addr = some text) :
    Holds memory addr (text ++ [nul]) ∧ nul ∉ text := by
  rw [string] at read
  split at read
  case isFalse => cases read
  case isTrue ended =>
    cases read
    have clean : nul ∉ (memory.cells.drop addr).takeWhile (· ≠ nul) := by
      intro inside
      have other := List.mem_takeWhile_imp inside
      simp at other
    refine ⟨?_, clean⟩
    obtain ⟨rest, split⟩ := take_while_terminated ended
    intro i bound
    rw [← List.getElem?_drop]
    conv => lhs; rw [← split]
    exact List.getElem?_append_left bound

theorem string_bound {memory : Memory Cell} {addr place : Nat}
    (ends : memory.cells[place]? = some nul) (before : addr ≤ place) :
    ∃ text, string nul memory addr = some text ∧ addr + text.length ≤ place := by
  have listed : nul ∈ memory.cells.drop addr := by
    apply List.mem_of_getElem? (i := place - addr)
    rw [List.getElem?_drop, Nat.add_sub_cancel' before, ends]
  obtain ⟨text, read⟩ : ∃ text, string nul memory addr = some text := ⟨_, if_pos listed⟩
  refine ⟨text, read, ?_⟩
  obtain ⟨held, clean⟩ := holds_of_string read
  by_contra beyond
  have cell := held (place - addr) (by rw [List.length_append]; omega)
  rw [Nat.add_sub_cancel' before, ends, List.getElem?_append_left (by omega)] at cell
  exact clean (List.mem_of_getElem? cell.symm)

theorem pointers_read {memory : Memory Cell} {strings : List (List Cell)} {base : Nat}
    (held : Holds memory base (image nul strings)) (clean : ∀ text ∈ strings, nul ∉ text) :
    (pointers base strings).map (string nul memory) = strings.map some := by
  induction strings generalizing base with
  | nil => rfl
  | cons text strings ih =>
      rw [image, holds_append] at held
      rw [List.forall_mem_cons] at clean
      rw [pointers, List.map_cons, List.map_cons, string_of_holds held.1 clean.1, Nat.add_assoc]
      congr 1
      apply ih _ clean.2
      simpa using held.2

/-- A copy of a string to a place apart from it. -/
theorem strcpy_wrote {memory : Memory Cell} {dst src : Nat} {text : List Cell}
    (held : string nul memory src = some text)
    (apart : Apart dst (text.length + 1) src (text.length + 1))
    (inside : dst + (text.length + 1) ≤ memory.cells.length) :
    ∃ after, strcpy nul memory dst src = some after ∧
      Wrote memory after dst (text ++ [nul]) := by
  rw [strcpy, held, Option.bind_some, if_pos apart]
  apply store_wrote
  simpa using inside

end Strings

end CMemory
