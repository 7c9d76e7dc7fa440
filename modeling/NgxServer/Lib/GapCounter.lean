import Mathlib.Data.List.DropRight

/-!
# Counting short gaps

A counter goes up when a time follows the one before it closely, and back to
zero when it does not. It is the number of short gaps at the end of the
history, so it reaches a threshold exactly when that many gaps at the end are
short.
-/

namespace GapCounter

set_option autoImplicit false

structure Counter where
  count : Nat
  last : Nat
  deriving DecidableEq, Repr

def Counter.zero : Counter := { count := 0, last := 0 }

def tick (interval : Nat) (counter : Counter) (time : Nat) : Counter where
  count := if time - counter.last < interval then counter.count + 1 else 0
  last := time

def gaps : List Nat → List Nat
  | first :: second :: rest => (second - first) :: gaps (second :: rest)
  | _ => []

def shortEnd (interval : Nat) (times : List Nat) : Nat :=
  ((gaps times).rtakeWhile fun gap => decide (gap < interval)).length

def LastShort (interval threshold : Nat) (times : List Nat) : Prop :=
  threshold ≤ (gaps times).length ∧
    ∀ gap ∈ (gaps times).drop ((gaps times).length - threshold), gap < interval

instance (interval threshold : Nat) (times : List Nat) :
    Decidable (LastShort interval threshold times) :=
  inferInstanceAs (Decidable (_ ∧ _))

/-- Fewer than `threshold` gaps in a row are short, wherever they are. -/
def RunsBelow (interval threshold : Nat) (times : List Nat) : Prop :=
  ∀ before run after, gaps times = before ++ run ++ after → (∀ gap ∈ run, gap < interval) →
    run.length < threshold

theorem gaps_append (times : List Nat) (last time : Nat) :
    gaps (times ++ [last] ++ [time]) = gaps (times ++ [last]) ++ [time - last] := by
  induction times with
  | nil => rfl
  | cons first rest ih =>
      cases rest with
      | nil => rfl
      | cons second more => exact congrArg ((second - first) :: ·) ih

theorem short_end_append (interval : Nat) (times : List Nat) (last time : Nat) :
    shortEnd interval (times ++ [last] ++ [time]) =
      if time - last < interval then shortEnd interval (times ++ [last]) + 1 else 0 := by
  rw [shortEnd, gaps_append, List.rtakeWhile_concat]
  by_cases short : time - last < interval
  · rw [if_pos (decide_eq_true short), if_pos short, List.length_append, List.length_singleton]
    rfl
  · rw [if_neg (fun shown => short (of_decide_eq_true shown)), if_neg short, List.length_nil]

theorem ticks {interval : Nat} (times : List Nat) (late : ∀ first ∈ times.head?, interval ≤ first) :
    times.foldl (tick interval) .zero =
      { count := shortEnd interval times, last := times.getLast?.getD 0 } := by
  induction times using List.reverseRecOn with
  | nil => rfl
  | append_singleton times time ih =>
      rw [List.foldl_append, List.foldl_cons, List.foldl_nil]
      cases times using List.reverseRecOn with
      | nil =>
          have first := late time rfl
          rw [List.foldl_nil, tick, if_neg (by simp only [Counter.zero]; omega)]
          rfl
      | append_singleton earlier last =>
          have more : (earlier ++ [last] ++ [time]).head? = (earlier ++ [last]).head? := by
            cases earlier <;> rfl
          rw [ih (more ▸ late), tick, short_end_append]
          simp

theorem le_length_take_while {p : Nat → Bool} {values : List Nat} {count : Nat} :
    count ≤ (values.takeWhile p).length ↔
      count ≤ values.length ∧ ∀ value ∈ values.take count, p value = true := by
  induction values generalizing count with
  | nil =>
      rw [List.takeWhile_nil, List.take_nil]
      exact ⟨fun few => ⟨few, nofun⟩, And.left⟩
  | cons value rest ih =>
      cases count with
      | zero => simp
      | succ count =>
          cases short : p value with
          | true => simp [short, ih]
          | false => simp [short]

theorem last_short_iff {interval threshold : Nat} {times : List Nat} :
    LastShort interval threshold times ↔ threshold ≤ shortEnd interval times := by
  rw [shortEnd, List.rtakeWhile, List.length_reverse, le_length_take_while, List.length_reverse,
    List.take_reverse, LastShort]
  simp only [List.mem_reverse, decide_eq_true_eq]

/-- The counter reaches the threshold exactly when that many gaps at the end are short. -/
theorem reaches_iff {interval threshold : Nat} {times : List Nat}
    (late : ∀ first ∈ times.head?, interval ≤ first) :
    threshold ≤ (times.foldl (tick interval) .zero).count ↔
      LastShort interval threshold times := by
  rw [ticks times late, last_short_iff]

theorem not_last_short {interval threshold : Nat} {times : List Nat}
    (below : RunsBelow interval threshold times) : ¬ LastShort interval threshold times := by
  rintro ⟨enough, short⟩
  have fewer := below ((gaps times).take ((gaps times).length - threshold))
    ((gaps times).drop ((gaps times).length - threshold)) [] ?_ short
  · rw [List.length_drop] at fewer
    omega
  · rw [List.append_nil, List.take_append_drop]

end GapCounter
