import Mathlib.Logic.Relation
import Mathlib.Data.List.Perm.Basic

/-!
# Ended children and the one who waits for them

A child that ends leaves an item until its parent asks for it. The parent is told by
a flag, which says no more than that there is something to ask for: what is announced
before the flag is answered is one announcement. The parent answers the flag and then
asks until it is told that nothing is left.
-/

namespace Reaper

set_option autoImplicit false

variable {Item : Type*}

structure State (Item : Type*) where
  ended : List Item
  zombies : List Item
  reported : List Item
  announced : Prop
  asking : Prop

inductive Move [BEq Item] : State Item → State Item → Prop
  | ends {state : State Item} (item : Item) : Move state
      { state with
        ended := state.ended ++ [item]
        zombies := state.zombies ++ [item]
        announced := True }
  /-- the flag may be raised for another reason -/
  | announce {state : State Item} : Move state { state with announced := True }
  | answer {state : State Item} (told : state.announced) :
      Move state { state with announced := False, asking := True }
  | report {state : State Item} (item : Item) (asks : state.asking)
      (there : item ∈ state.zombies) : Move state
      { state with
        zombies := state.zombies.erase item
        reported := state.reported ++ [item] }
  | leave {state : State Item} (asks : state.asking) (none : state.zombies = []) :
      Move state { state with asking := False }

/-- What ended was reported or still waits for it, and who waits was told or asks. -/
structure Sound (state : State Item) : Prop where
  accounted : state.ended.Perm (state.reported ++ state.zombies)
  told : state.zombies ≠ [] → state.announced ∨ state.asking

/-- When nobody was told and nobody asks, all that ended was reported. -/
theorem all_reported {state : State Item} (sound : Sound state) (quiet : ¬ state.announced)
    (done : ¬ state.asking) : state.zombies = [] ∧ state.ended.Perm state.reported := by
  have none : state.zombies = [] := by
    by_contra some
    rcases sound.told some with told | asks
    · exact quiet told
    · exact done asks
  refine ⟨none, ?_⟩
  have all := sound.accounted
  rwa [none, List.append_nil] at all

variable [BEq Item] [LawfulBEq Item]

theorem sound_move {before after : State Item} (sound : Sound before)
    (move : Move before after) : Sound after := by
  obtain ⟨accounted, told⟩ := sound
  cases move with
  | ends item =>
      constructor
      case accounted =>
        have longer := accounted.append_right [item]
        rwa [List.append_assoc] at longer
      case told => exact fun _ => Or.inl trivial
  | announce => exact ⟨accounted, fun _ => Or.inl trivial⟩
  | answer heard => exact ⟨accounted, fun _ => Or.inr trivial⟩
  | report item asks there =>
      constructor
      case accounted =>
        have front := (List.perm_cons_erase there).append_left before.reported
        rw [List.append_assoc]
        exact accounted.trans front
      case told => exact fun _ => Or.inr asks
  | leave asks none => exact ⟨accounted, fun some => absurd none some⟩

theorem sound_moves {before after : State Item} (sound : Sound before)
    (moves : Relation.ReflTransGen Move before after) : Sound after := by
  induction moves with
  | refl => exact sound
  | tail _ move ih => exact sound_move ih move

end Reaper
