import Mathlib.Data.List.Basic

/-!
# Splitting a stream into segments

A splitter finds the first segment of an input, if all of it is there. More
input never changes a segment that was found, so the segments of a stream do
not depend on how the stream arrives.
-/

namespace StreamSplitter

set_option autoImplicit false

/-- `symbols` are the symbols that a segment stands for. -/
structure Splitter (Symbol Segment : Type) where
  first : List Symbol → Option (Segment × List Symbol)
  symbols : Segment → List Symbol
  exact : ∀ input segment rest, first input = some (segment, rest) →
    symbols segment ++ rest = input
  nonempty : ∀ input segment rest, first input = some (segment, rest) → symbols segment ≠ []
  stable : ∀ input segment rest more, first input = some (segment, rest) →
    first (input ++ more) = some (segment, rest ++ more)

variable {Symbol Segment : Type} (splitter : Splitter Symbol Segment)

theorem first_shrinks {input rest : List Symbol} {segment : Segment}
    (found : splitter.first input = some (segment, rest)) : rest.length < input.length := by
  have whole := congrArg List.length (splitter.exact input segment rest found)
  have size := List.length_pos_iff.mpr (splitter.nonempty input segment rest found)
  rw [List.length_append] at whole
  omega

def cut (input : List Symbol) : List Segment × List Symbol :=
  match found : splitter.first input with
  | none => ([], input)
  | some (segment, rest) =>
      have := first_shrinks splitter found
      (segment :: (cut rest).1, (cut rest).2)
termination_by input.length

theorem cut_none {input : List Symbol} (incomplete : splitter.first input = none) :
    cut splitter input = ([], input) := by
  rw [cut]
  split
  · rfl
  case h_2 segment rest found => simp [incomplete] at found

theorem cut_some {input rest : List Symbol} {segment : Segment}
    (found : splitter.first input = some (segment, rest)) :
    cut splitter input = (segment :: (cut splitter rest).1, (cut splitter rest).2) := by
  rw [cut]
  split
  case h_1 incomplete => simp [incomplete] at found
  case h_2 other left also =>
    rw [found] at also
    cases also
    rfl

theorem cut_lossless (input : List Symbol) :
    (cut splitter input).1.flatMap splitter.symbols ++ (cut splitter input).2 = input := by
  cases found : splitter.first input with
  | none => rw [cut_none splitter found]; rfl
  | some split =>
      have shorter := first_shrinks splitter found
      rw [cut_some splitter found, List.flatMap_cons, List.append_assoc,
        cut_lossless split.2, splitter.exact input split.1 split.2 found]
termination_by input.length

/-- What arrives later is cut together with what was left over. -/
theorem cut_append (input more : List Symbol) :
    cut splitter (input ++ more) =
      ((cut splitter input).1 ++ (cut splitter ((cut splitter input).2 ++ more)).1,
        (cut splitter ((cut splitter input).2 ++ more)).2) := by
  cases found : splitter.first input with
  | none => rw [cut_none splitter found]; rfl
  | some split =>
      have shorter := first_shrinks splitter found
      have longer := splitter.stable input split.1 split.2 more found
      rw [cut_some splitter found, cut_some splitter longer, cut_append split.2 more]
      rfl
termination_by input.length

theorem cut_nil : cut splitter [] = ([], []) := by
  cases found : splitter.first [] with
  | none => exact cut_none splitter found
  | some split => exact absurd (first_shrinks splitter found) (Nat.not_lt_zero _)

theorem cut_rest (input : List Symbol) :
    cut splitter (cut splitter input).2 = ([], (cut splitter input).2) := by
  have again := cut_append splitter input []
  rw [List.append_nil, List.append_nil] at again
  obtain ⟨segments, rest⟩ := Prod.ext_iff.mp again
  dsimp only at segments rest
  have none := List.length_eq_zero_iff.mp (by simpa using congrArg List.length segments)
  exact Prod.ext none rest.symm

end StreamSplitter
