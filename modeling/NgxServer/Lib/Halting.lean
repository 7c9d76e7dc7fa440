import Mathlib.Logic.Function.Iterate
import Mathlib.Logic.Relation
import Mathlib.Order.WellFounded

/-!
# Halting

A deterministic machine is a total step function that stands still in its final states.
It halts when some number of steps leads to one. A relation comes to an end, whichever
steps are taken, when each step lowers a rank.
-/

namespace Halting

open Function

set_option autoImplicit false

variable {State : Type*} {step : State → State} {final : State → Prop}

def Reaches (step : State → State) (first last : State) : Prop :=
  ∃ count, step^[count] first = last

def Halts (step : State → State) (final : State → Prop) (start : State) : Prop :=
  ∃ count, final (step^[count] start)

theorem reaches_refl (state : State) : Reaches step state state :=
  ⟨0, rfl⟩

theorem reaches_trans {first second third : State} (early : Reaches step first second)
    (late : Reaches step second third) : Reaches step first third := by
  obtain ⟨before, rfl⟩ := early
  obtain ⟨after, rfl⟩ := late
  exact ⟨after + before, iterate_add_apply step after before first⟩

theorem reaches_step {first second last : State} (taken : step first = second)
    (late : Reaches step second last) : Reaches step first last :=
  reaches_trans ⟨1, taken⟩ late

theorem halts_of_reaches {first last : State} (way : Reaches step first last)
    (there : final last) : Halts step final first := by
  obtain ⟨count, rfl⟩ := way
  exact ⟨count, there⟩

/-- A machine that keeps an invariant which no final state has runs forever. -/
theorem runs_forever (invariant : State → Prop)
    (kept : ∀ state, invariant state → invariant (step state))
    (apart : ∀ state, invariant state → ¬final state) {start : State}
    (holds : invariant start) : ¬Halts step final start := by
  have always : ∀ count, invariant (step^[count] start) := by
    intro count
    induction count with
    | zero => exact holds
    | succ count ih =>
        rw [iterate_succ_apply']
        exact kept _ ih
  intro halts
  obtain ⟨count, there⟩ := halts
  exact apart _ (always count) there

/-- From states with the invariant each step keeps it and lowers the rank. -/
structure Falls {Rank : Type*} [Preorder Rank] (next : State → State → Prop)
    (invariant : State → Prop) (rank : State → Rank) : Prop where
  kept : ∀ before after, invariant before → next before after → invariant after
  less : ∀ before after, invariant before → next before after → rank after < rank before

section Rank

variable {Rank : Type*} [Preorder Rank] {next : State → State → Prop}
  {invariant : State → Prop} {rank : State → Rank}

theorem Falls.steps_kept (falls : Falls next invariant rank) {first last : State}
    (holds : invariant first) (steps : Relation.ReflTransGen next first last) :
    invariant last := by
  induction steps with
  | refl => exact holds
  | tail _ step ih => exact falls.kept _ _ ih step

variable [WellFoundedLT Rank]

theorem Falls.ends (falls : Falls next invariant rank) {states : Nat → State}
    (holds : invariant (states 0)) : ∃ count, ¬ next (states count) (states (count + 1)) := by
  by_contra never
  have goes : ∀ count, next (states count) (states (count + 1)) :=
    fun count => not_not.mp (not_exists.mp never count)
  have kept : ∀ count, invariant (states count) := by
    intro count
    induction count with
    | zero => exact holds
    | succ count ih => exact falls.kept _ _ ih (goes count)
  obtain ⟨count, stops⟩ := WellFounded.not_rel_apply_succ (r := (· < ·))
    fun count => rank (states count)
  exact stops (falls.less _ _ (kept count) (goes count))

theorem Falls.exists_last (falls : Falls next invariant rank) {first : State}
    (holds : invariant first) :
    ∃ last, Relation.ReflTransGen next first last ∧ ∀ after, ¬ next last after := by
  induction bound : rank first using WellFoundedLT.induction generalizing first with
  | ind _ ih =>
      by_cases ended : ∀ after, ¬ next first after
      · exact ⟨first, Relation.ReflTransGen.refl, ended⟩
      · obtain ⟨after, more⟩ := not_forall.mp ended
        have step : next first after := not_not.mp more
        have less := falls.less _ _ holds step
        obtain ⟨last, later, stops⟩ := ih _ (bound ▸ less) (falls.kept _ _ holds step) rfl
        exact ⟨last, Relation.ReflTransGen.head step later, stops⟩

end Rank

end Halting
