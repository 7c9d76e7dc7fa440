import Mathlib.Data.List.Perm.Basic
import Mathlib.Logic.Relation

/-!
# A bounded backlog with a share for each owner

Calls put entries into a queue, or are refused because the queue or the
caller's share of it is full. Entries are taken out on behalf of their owner,
or expire when their owner is gone. The counters are kept by hand: the size of
the queue, how many entries of each object's present owner wait, and how many
calls were refused.
-/

namespace Backlog

set_option autoImplicit false

variable {Object Owner : Type*}

@[ext]
structure Books (Object Owner : Type*) where
  queue : List Owner
  size : Int
  /-- how many entries wait for the owner of an object, as counted -/
  waiting : Object → Int
  /-- the owners that objects have now -/
  owns : Object → Owner → Prop
  calls : Int
  refused : Int
  removed : Int

variable [BEq Owner] [LawfulBEq Owner]

/-- The moves, where `cap` bounds the queue and `share` what one owner has in it. -/
inductive Move (cap share : Int) [DecidableEq Object] (books : Books Object Owner) :
    Books Object Owner → Prop
  /-- owners go, and new ones start with nothing in the queue -/
  | change (owns : Object → Owner → Prop) (waiting : Object → Int)
      (kept : ∀ c owner, owns c owner →
        books.owns c owner ∧ waiting c = books.waiting c ∨
          owner ∉ books.queue ∧ waiting c = 0) :
      Move cap share books { books with owns := owns, waiting := waiting }
  | refuse : Move cap share books
      { books with calls := books.calls + 1, refused := books.refused + 1 }
  | push (c : Object) (owner : Owner) (own : books.owns c owner)
      (others : ∀ d other, books.owns d other → (d = c ↔ other = owner))
      (room : books.size ≤ cap) (spare : books.waiting c ≤ share) :
      Move cap share books
        { books with
          queue := books.queue ++ [owner]
          size := books.size + 1
          waiting := Function.update books.waiting c (books.waiting c + 1)
          calls := books.calls + 1 }
  | take (c : Object) (owner : Owner) (pos : Nat) (here : books.queue[pos]? = some owner)
      (own : books.owns c owner)
      (others : ∀ d other, books.owns d other → (d = c ↔ other = owner)) :
      Move cap share books
        { books with
          queue := books.queue.eraseIdx pos
          size := books.size - 1
          waiting := Function.update books.waiting c (books.waiting c - 1)
          removed := books.removed + 1 }
  | expire (owner : Owner) (pos : Nat) (here : books.queue[pos]? = some owner)
      (gone : ∀ c, ¬ books.owns c owner) :
      Move cap share books
        { books with
          queue := books.queue.eraseIdx pos
          size := books.size - 1
          removed := books.removed + 1 }

structure Exact (cap share : Int) (books : Books Object Owner) : Prop where
  size : books.size = books.queue.length
  capped : books.size ≤ cap + 1
  waiting : ∀ c owner, books.owns c owner → books.waiting c = books.queue.count owner
  shared : ∀ c owner, books.owns c owner → books.waiting c ≤ share + 1
  balance : books.calls = books.refused + books.queue.length + books.removed

section Moves

variable {cap share : Int} [DecidableEq Object] {books after : Books Object Owner}

omit [BEq Owner] [LawfulBEq Owner] in
/-- The queue is what was at an index and what is left without it. -/
theorem erase_perm {queue : List Owner} {pos : Nat} {owner : Owner}
    (here : queue[pos]? = some owner) : queue.Perm (owner :: queue.eraseIdx pos) := by
  obtain ⟨inside, rfl⟩ := List.getElem?_eq_some_iff.mp here
  exact (List.getElem_cons_eraseIdx_perm inside).symm

omit [BEq Owner] [LawfulBEq Owner] in
theorem erase_length {queue : List Owner} {pos : Nat} {owner : Owner}
    (here : queue[pos]? = some owner) : queue.length = (queue.eraseIdx pos).length + 1 := by
  rw [(erase_perm here).length_eq, List.length_cons]

section Counting

variable {c d : Object} {owner other : Owner} {pos : Nat}

theorem beq_owner (others : ∀ d other, books.owns d other → (d = c ↔ other = owner))
    (owned : books.owns d other) : (owner == other) = decide (d = c) := by
  have matched := others d other owned
  by_cases same : d = c
  · rw [matched.mp same, beq_self_eq_true, decide_eq_true same]
  · have different : owner ≠ other := fun equal => same (matched.mpr equal.symm)
    rw [beq_eq_false_iff_ne.mpr different, decide_eq_false same]

theorem waiting_push (exact : Exact cap share books)
    (others : ∀ d other, books.owns d other → (d = c ↔ other = owner))
    (owned : books.owns d other) :
    Function.update books.waiting c (books.waiting c + 1) d =
      (books.queue ++ [owner]).count other := by
  have before := exact.waiting d other owned
  rw [List.count_append, List.count_singleton, beq_owner others owned, Function.update_apply]
  by_cases same : d = c
  · rw [if_pos same, decide_eq_true same, if_pos rfl, ← same, before]
    rfl
  · rw [if_neg same, decide_eq_false same, before]
    rfl

theorem waiting_take (exact : Exact cap share books) (here : books.queue[pos]? = some owner)
    (others : ∀ d other, books.owns d other → (d = c ↔ other = owner))
    (owned : books.owns d other) :
    Function.update books.waiting c (books.waiting c - 1) d =
      (books.queue.eraseIdx pos).count other := by
  have before := exact.waiting d other owned
  rw [(erase_perm here).count_eq, List.count_cons, beq_owner others owned] at before
  rw [Function.update_apply]
  by_cases same : d = c
  · rw [decide_eq_true same, if_pos rfl] at before
    rw [if_pos same, ← same]
    omega
  · rw [decide_eq_false same, if_neg Bool.false_ne_true] at before
    rw [if_neg same]
    omega

omit [DecidableEq Object] in
theorem count_expire (here : books.queue[pos]? = some owner)
    (gone : ∀ c, ¬ books.owns c owner) (owned : books.owns d other) :
    books.queue.count other = (books.queue.eraseIdx pos).count other := by
  have different : (owner == other) = false :=
    beq_eq_false_iff_ne.mpr fun equal => gone d (equal ▸ owned)
  rw [(erase_perm here).count_eq, List.count_cons, different]
  rfl

end Counting

theorem exact_move (positive : 0 ≤ share) (exact : Exact cap share books)
    (move : Move cap share books after) : Exact cap share after := by
  have ⟨size, capped, waiting, shared, balance⟩ := exact
  cases move with
  | change owns counts kept =>
      refine ⟨size, capped, fun c owner own => ?_, fun c owner own => ?_, balance⟩
      · rcases kept c owner own with ⟨before, same⟩ | ⟨absent, none⟩
        · exact same.trans (waiting c owner before)
        · exact none.trans (by rw [List.count_eq_zero_of_not_mem absent]; rfl)
      · rcases kept c owner own with ⟨before, same⟩ | ⟨-, none⟩
        · exact le_of_eq_of_le same (shared c owner before)
        · exact le_of_eq_of_le none (by omega)
  | refuse =>
      refine ⟨size, capped, waiting, shared, ?_⟩
      dsimp only
      omega
  | push c owner own others room spare =>
      have length : (books.queue ++ [owner]).length = books.queue.length + 1 :=
        List.length_append
      refine ⟨?_, ?_, fun d other => waiting_push exact others, fun d other owned => ?_, ?_⟩
      · dsimp only
        omega
      · dsimp only
        omega
      · dsimp only
        rw [Function.update_apply]
        split
        · omega
        · exact shared d other owned
      · dsimp only
        omega
  | take c owner pos here own others =>
      have length := erase_length here
      refine ⟨?_, ?_, fun d other => waiting_take exact here others, fun d other owned => ?_, ?_⟩
      · dsimp only
        omega
      · dsimp only
        omega
      · have before := shared d other owned
        dsimp only
        rw [Function.update_apply]
        split
        case isTrue same =>
          subst same
          omega
        case isFalse => exact before
      · dsimp only
        omega
  | expire owner pos here gone =>
      have length := erase_length here
      refine ⟨?_, ?_, fun d other owned => ?_, shared, ?_⟩
      · dsimp only
        omega
      · dsimp only
        omega
      · exact (waiting d other owned).trans (congrArg Nat.cast (count_expire here gone owned))
      · dsimp only
        omega

theorem exact_moves (positive : 0 ≤ share) (exact : Exact cap share books)
    (moves : Relation.ReflTransGen (Move cap share) books after) : Exact cap share after := by
  induction moves with
  | refl => exact exact
  | tail _ move ih => exact exact_move positive ih move

end Moves

end Backlog
