import Mathlib.Data.List.Basic

/-!
# Loops that take out an element and start over

A container is searched from the front for an element that is due, the element
is taken out, and the search starts over, because the removal has invalidated
the iterator. As long as a removal does not change which of the other elements
are due, this takes out exactly the elements that were due at the start, in
their order.
-/

namespace Sweep

set_option autoImplicit false

variable {State Item : Type*}

def sweep (items : State → List Item) (due : State → Item → Bool) (remove : State → Item → State) :
    Nat → State → State
  | 0, state => state
  | rounds + 1, state =>
      match (items state).find? (due state) with
      | none => state
      | some item => sweep items due remove rounds (remove state item)

/-- The same loop without a bound, up to the search that finds nothing. -/
inductive Loop (items : State → List Item) (due : State → Item → Bool)
    (remove : State → Item → State) : State → State → Prop
  | ends (state : State) (none : (items state).find? (due state) = none) :
      Loop items due remove state state
  | takes (state after : State) (item : Item)
      (found : (items state).find? (due state) = some item)
      (more : Loop items due remove (remove state item) after) :
      Loop items due remove state after

variable [BEq Item]

/-- Taking out a due element shortens the container by it, and keeps `inv` and
the other elements' being due. -/
structure Rules (items : State → List Item) (due : State → Item → Bool)
    (remove : State → Item → State) (inv : State → Prop) : Prop where
  shortens : ∀ state item, inv state → item ∈ items state → due state item = true →
    items (remove state item) = (items state).erase item
  keeps : ∀ state item, inv state → item ∈ items state → due state item = true →
    inv (remove state item)
  stable : ∀ state item, inv state → item ∈ items state → due state item = true →
    ∀ other ∈ (items state).erase item, due (remove state item) other = due state other

section Run

variable [LawfulBEq Item] {items : State → List Item} {due : State → Item → Bool}
  {remove : State → Item → State} {inv : State → Prop}

omit [BEq Item] [LawfulBEq Item] in
theorem sweep_none {state : State} (none : (items state).find? (due state) = none)
    (rounds : Nat) : sweep items due remove (rounds + 1) state = state := by
  rw [sweep, none]

omit [BEq Item] [LawfulBEq Item] in
theorem sweep_some {state : State} {item : Item}
    (found : (items state).find? (due state) = some item) (rounds : Nat) :
    sweep items due remove (rounds + 1) state =
      sweep items due remove rounds (remove state item) := by
  rw [sweep, found]

omit [BEq Item] [LawfulBEq Item] in
theorem find_none_filter {list : List Item} {test : Item → Bool} (none : list.find? test = none) :
    list.filter test = [] ∧ list.filter (fun item => !test item) = list := by
  have absent : ∀ item ∈ list, test item = false := by
    intro item member
    simpa using List.find?_eq_none.mp none item member
  refine ⟨List.filter_eq_nil_iff.mpr fun item member => by simp [absent item member], ?_⟩
  exact List.filter_eq_self.mpr fun item member => by simp [absent item member]

theorem find_some_filter {list : List Item} {test : Item → Bool} {item : Item}
    (found : list.find? test = some item) :
    list.filter test = item :: (list.erase item).filter test ∧
      list.filter (fun other => !test other) =
        (list.erase item).filter (fun other => !test other) := by
  obtain ⟨here, before, after, rfl, earlier⟩ := List.find?_eq_some_iff_append.mp found
  have absent : item ∉ before := by
    intro member
    have passed := earlier item member
    simp [here] at passed
  have none : before.filter test = [] :=
    List.filter_eq_nil_iff.mpr fun other member => by simpa using earlier other member
  rw [List.erase_append_right _ absent, List.erase_cons_head]
  simp [List.filter_append, none, here]

theorem find_some_remove (rules : Rules items due remove inv) {state : State} {item : Item}
    (holds : inv state) (found : (items state).find? (due state) = some item) :
    (items state).filter (due state) =
        item :: (items (remove state item)).filter (due (remove state item)) ∧
      (items state).filter (fun other => !due state other) =
        (items (remove state item)).filter (fun other => !due (remove state item) other) := by
  have member := List.mem_of_find?_eq_some found
  have isDue : due state item = true := List.find?_some found
  obtain ⟨taken, left⟩ := find_some_filter found
  have stable := rules.stable state item holds member isDue
  rw [rules.shortens state item holds member isDue]
  constructor
  · rw [taken]
    congr 1
    exact (List.filter_congr stable).symm
  · rw [left]
    exact (List.filter_congr fun other present => by rw [stable other present]).symm

theorem sweep_eq_foldl (rules : Rules items due remove inv) (rounds : Nat) (state : State)
    (holds : inv state) (enough : (items state).length ≤ rounds) :
    sweep items due remove rounds state =
      ((items state).filter (due state)).foldl remove state := by
  induction rounds generalizing state with
  | zero =>
      have empty : items state = [] := List.eq_nil_of_length_eq_zero (by omega)
      rw [empty]
      rfl
  | succ rounds ih =>
      cases found : (items state).find? (due state) with
      | none =>
        rw [sweep_none found, (find_none_filter found).1]
        rfl
      | some item =>
        have member := List.mem_of_find?_eq_some found
        have isDue : due state item = true := List.find?_some found
        have shorter := rules.shortens state item holds member isDue
        have room : (items (remove state item)).length ≤ rounds := by
          rw [shorter, List.length_erase_of_mem member]
          omega
        rw [sweep_some found, ih _ (rules.keeps state item holds member isDue) room,
          (find_some_remove rules holds found).1, List.foldl_cons]

theorem sweep_items (rules : Rules items due remove inv) (rounds : Nat) (state : State)
    (holds : inv state) (enough : (items state).length ≤ rounds) :
    inv (sweep items due remove rounds state) ∧
      items (sweep items due remove rounds state) =
        (items state).filter (fun item => !due state item) ∧
      (items (sweep items due remove rounds state)).find?
        (due (sweep items due remove rounds state)) = none := by
  induction rounds generalizing state with
  | zero =>
      have empty : items state = [] := List.eq_nil_of_length_eq_zero (by omega)
      refine ⟨holds, ?_, ?_⟩
      · rw [sweep, empty]
        rfl
      · rw [sweep, empty]
        rfl
  | succ rounds ih =>
      cases found : (items state).find? (due state) with
      | none =>
        rw [sweep_none found]
        exact ⟨holds, (find_none_filter found).2.symm, found⟩
      | some item =>
        have member := List.mem_of_find?_eq_some found
        have isDue : due state item = true := List.find?_some found
        have shorter := rules.shortens state item holds member isDue
        have room : (items (remove state item)).length ≤ rounds := by
          rw [shorter, List.length_erase_of_mem member]
          omega
        rw [sweep_some found, (find_some_remove rules holds found).2]
        exact ih _ (rules.keeps state item holds member isDue) room

/-- The loop ends by itself, after the rounds that `sweep` allows. -/
theorem loop_sweep (rules : Rules items due remove inv) (rounds : Nat) (state : State)
    (holds : inv state) (enough : (items state).length ≤ rounds) :
    Loop items due remove state (sweep items due remove rounds state) := by
  induction rounds generalizing state with
  | zero =>
      have empty : items state = [] := List.eq_nil_of_length_eq_zero (by omega)
      exact Loop.ends state (by rw [empty]; rfl)
  | succ rounds ih =>
      cases found : (items state).find? (due state) with
      | none =>
        rw [sweep_none found]
        exact Loop.ends state found
      | some item =>
        have member := List.mem_of_find?_eq_some found
        have isDue : due state item = true := List.find?_some found
        have shorter := rules.shortens state item holds member isDue
        have room : (items (remove state item)).length ≤ rounds := by
          rw [shorter, List.length_erase_of_mem member]
          omega
        rw [sweep_some found]
        exact Loop.takes state _ item found
          (ih _ (rules.keeps state item holds member isDue) room)

end Run

end Sweep
