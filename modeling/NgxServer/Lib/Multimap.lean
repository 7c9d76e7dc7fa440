import Mathlib.Data.List.Sort
import Mathlib.Data.List.TakeWhile

/-!
# A multimap that is ordered by its keys

The entries are a list in the order of the iterators. A new entry goes behind
all entries with the same key, so entries with equal keys stay in the order in
which they came.
-/

namespace Multimap

set_option autoImplicit false

variable {Key Value : Type*} [LinearOrder Key]

def Ordered (entries : List (Key × Value)) : Prop :=
  entries.Pairwise fun entry other => entry.1 ≤ other.1

/-- Enters a value behind every entry whose key is not greater. -/
def enter (key : Key) (value : Value) (entries : List (Key × Value)) : List (Key × Value) :=
  entries.orderedInsert (fun entry other => entry.1 < other.1) (key, value)

def due (bound : Key) (entries : List (Key × Value)) : List (Key × Value) :=
  entries.takeWhile fun entry => decide (entry.1 ≤ bound)

def later (bound : Key) (entries : List (Key × Value)) : List (Key × Value) :=
  entries.dropWhile fun entry => decide (entry.1 ≤ bound)

theorem due_append_later (bound : Key) (entries : List (Key × Value)) :
    due bound entries ++ later bound entries = entries :=
  List.takeWhile_append_dropWhile

@[simp] theorem enter_nil (key : Key) (value : Value) :
    enter key value ([] : List (Key × Value)) = [(key, value)] := rfl

theorem enter_cons (key : Key) (value : Value) (entry : Key × Value)
    (rest : List (Key × Value)) :
    enter key value (entry :: rest) =
      if key < entry.1 then (key, value) :: entry :: rest
      else entry :: enter key value rest := rfl

theorem enter_perm (key : Key) (value : Value) (entries : List (Key × Value)) :
    (enter key value entries).Perm ((key, value) :: entries) :=
  List.perm_orderedInsert _ _ entries

theorem mem_enter {key : Key} {value : Value} {entries : List (Key × Value)}
    {entry : Key × Value} : entry ∈ enter key value entries ↔ entry = (key, value) ∨
      entry ∈ entries := by
  rw [(enter_perm key value entries).mem_iff, List.mem_cons]

theorem enter_length (key : Key) (value : Value) (entries : List (Key × Value)) :
    (enter key value entries).length = entries.length + 1 :=
  (enter_perm key value entries).length_eq

theorem enter_ne_nil (key : Key) (value : Value) (entries : List (Key × Value)) :
    enter key value entries ≠ [] :=
  List.ne_nil_of_mem (mem_enter.mpr (Or.inl rfl))

theorem enter_ordered {entries : List (Key × Value)} (ordered : Ordered entries) (key : Key)
    (value : Value) : Ordered (enter key value entries) := by
  induction entries with
  | nil => exact List.pairwise_singleton _ _
  | cons entry rest ih =>
      obtain ⟨first, others⟩ := List.pairwise_cons.mp ordered
      rw [enter_cons]
      split_ifs with before
      · refine List.pairwise_cons.mpr ⟨?_, ordered⟩
        intro other member
        rcases List.mem_cons.mp member with rfl | member
        · exact before.le
        · exact before.le.trans (first other member)
      · refine List.pairwise_cons.mpr ⟨?_, ih others⟩
        intro other member
        rcases mem_enter.mp member with rfl | member
        · exact not_lt.mp before
        · exact first other member

theorem filter_ordered {entries : List (Key × Value)} (ordered : Ordered entries)
    (test : Key × Value → Bool) : Ordered (entries.filter test) :=
  List.Pairwise.filter test ordered

theorem due_cons {bound : Key} {entry : Key × Value} (passed : entry.1 ≤ bound)
    (rest : List (Key × Value)) : due bound (entry :: rest) = entry :: due bound rest :=
  List.takeWhile_cons_of_pos (by simpa using passed)

theorem later_cons {bound : Key} {entry : Key × Value} (passed : entry.1 ≤ bound)
    (rest : List (Key × Value)) : later bound (entry :: rest) = later bound rest :=
  List.dropWhile_cons_of_pos (by simpa using passed)

theorem due_beyond {bound : Key} {entry : Key × Value} (beyond : bound < entry.1)
    (rest : List (Key × Value)) :
    due bound (entry :: rest) = [] ∧ later bound (entry :: rest) = entry :: rest :=
  ⟨List.takeWhile_cons_of_neg (by simpa using beyond),
    List.dropWhile_cons_of_neg (by simpa using beyond)⟩

/-- Entering a value beyond a bound does not change what is due at it. -/
theorem enter_beyond {bound key : Key} (beyond : bound < key) (value : Value)
    (entries : List (Key × Value)) :
    due bound (enter key value entries) = due bound entries ∧
      later bound (enter key value entries) = enter key value (later bound entries) := by
  induction entries with
  | nil => exact due_beyond beyond []
  | cons entry rest ih =>
      by_cases passed : entry.1 ≤ bound
      · rw [enter_cons, if_neg (not_lt.mpr (passed.trans beyond.le)), due_cons passed,
          due_cons passed, later_cons passed, later_cons passed, ih.1]
        exact ⟨rfl, ih.2⟩
      · have outside := not_le.mp passed
        obtain ⟨none, all⟩ := due_beyond outside rest
        rw [none, all, enter_cons]
        split_ifs
        · exact due_beyond beyond _
        · exact due_beyond outside _

theorem due_later_filter {entries : List (Key × Value)} (ordered : Ordered entries)
    (bound : Key) :
    due bound entries = entries.filter (fun entry => decide (entry.1 ≤ bound)) ∧
      later bound entries = entries.filter (fun entry => decide (bound < entry.1)) := by
  induction entries with
  | nil => exact ⟨rfl, rfl⟩
  | cons entry rest ih =>
      obtain ⟨first, others⟩ := List.pairwise_cons.mp ordered
      obtain ⟨dueRest, laterRest⟩ := ih others
      by_cases passed : entry.1 ≤ bound
      · rw [due_cons passed, later_cons passed, dueRest, laterRest]
        simp [passed]
      · have outside := not_le.mp passed
        obtain ⟨none, all⟩ := due_beyond outside rest
        have beyond : ∀ other ∈ entry :: rest, bound < other.1 := by
          intro other member
          rcases List.mem_cons.mp member with rfl | member
          · exact outside
          · exact outside.trans_le (first other member)
        rw [none, all]
        constructor
        · exact (List.filter_eq_nil_iff.mpr fun other member => by simpa using beyond other member).symm
        · exact (List.filter_eq_self.mpr fun other member => by simpa using beyond other member).symm

theorem later_beyond {entries : List (Key × Value)} (ordered : Ordered entries) {bound : Key}
    {entry : Key × Value} (member : entry ∈ later bound entries) : bound < entry.1 := by
  rw [(due_later_filter ordered bound).2] at member
  simpa using (List.mem_filter.mp member).2

end Multimap
