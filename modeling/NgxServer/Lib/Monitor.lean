import Mathlib.Logic.Function.Basic

/-!
# A mutex with a condition

Threads test a condition while they hold the mutex and wait for it to become
true. A thread that makes it true owes a signal, and may send it after it has
left. Between the test and the wait a thread is `committed`; it still holds
the mutex, so the condition stays false until it waits. That is what keeps a
wake-up from being lost.
-/

namespace Monitor

set_option autoImplicit false

/-- Where a thread is. A `woken` thread has to take the mutex again. -/
inductive Phase
  | outside
  | inside
  | committed
  | parked
  | woken
  deriving DecidableEq, Repr

def Phase.holds : Phase → Bool
  | .inside | .committed => true
  | _ => false

structure State (Thread : Type) where
  owner : Option Thread
  phase : Thread → Phase
  /-- has made the condition true and not yet signalled -/
  owes : Thread → Bool
  condition : Prop

section Moves

variable {Thread : Type}

def wake (phase : Thread → Phase) (chosen : Thread → Bool) : Thread → Phase :=
  fun thread => if chosen thread then .woken else phase thread

/-- What a thread may do; only waiters wait. `fulfil` may make the condition
true, `consume` leaves it as it is or makes it false. -/
inductive Move [DecidableEq Thread] (waiter : Thread → Prop) (before : State Thread) :
    State Thread → Prop
  | enter (thread : Thread) (free : before.owner = none)
      (ready : before.phase thread = .outside ∨ before.phase thread = .woken) :
      Move waiter before
        { before with
          owner := some thread
          phase := Function.update before.phase thread .inside }
  | commit (thread : Thread) (here : before.phase thread = .inside)
      (unmet : ¬ before.condition) :
      Move waiter before
        { before with phase := Function.update before.phase thread .committed }
  | park (thread : Thread) (here : before.phase thread = .committed) (may : waiter thread) :
      Move waiter before
        { before with
          owner := none
          phase := Function.update before.phase thread .parked }
  | exit (thread : Thread) (here : before.phase thread = .inside) :
      Move waiter before
        { before with
          owner := none
          phase := Function.update before.phase thread .outside }
  | fulfil (thread : Thread) (here : before.phase thread = .inside) (met : Prop) :
      Move waiter before
        { before with condition := met, owes := Function.update before.owes thread true }
  | consume (thread : Thread) (here : before.phase thread = .inside) (left : Prop)
      (less : left → before.condition) :
      Move waiter before { before with condition := left }
  | signal (thread : Thread) (chosen : Thread → Bool)
      (only : ∀ other, chosen other = true → before.phase other = .parked)
      (one : (∃ other, before.phase other = .parked) → ∃ other, chosen other = true) :
      Move waiter before
        { before with
          phase := wake before.phase chosen
          owes := Function.update before.owes thread false }
  | disturb (chosen : Thread → Bool)
      (only : ∀ other, chosen other = true → before.phase other = .parked) :
      Move waiter before { before with phase := wake before.phase chosen }

end Moves

section Invariants

variable {Thread : Type}

/-- The mutex is held by the one thread that is inside, a committed thread has
not missed anything, and only waiters wait. -/
structure Sound (waiter : Thread → Prop) (state : State Thread) : Prop where
  exclusive : ∀ thread, state.owner = some thread ↔ (state.phase thread).holds = true
  faithful : ∀ thread, state.phase thread = .committed → ¬ state.condition
  listed : ∀ thread, state.phase thread = .parked → waiter thread

/-- Where the condition is true, a signal is still to come or some waiter is
not parked. -/
def Served (waiter : Thread → Prop) (state : State Thread) : Prop :=
  state.condition →
    (∃ thread, state.owes thread = true) ∨ ∃ thread, waiter thread ∧ state.phase thread ≠ .parked

variable {waiter : Thread → Prop} {before after : State Thread}

theorem sound_unique (sound : Sound waiter before) {one other : Thread}
    (first : (before.phase one).holds = true) (second : (before.phase other).holds = true) :
    one = other := by
  have left := (sound.exclusive one).mpr first
  have right := (sound.exclusive other).mpr second
  exact Option.some.inj (left.symm.trans right)

theorem wake_holds {phase : Thread → Phase} {chosen : Thread → Bool}
    (only : ∀ other, chosen other = true → phase other = .parked) (thread : Thread) :
    (wake phase chosen thread).holds = (phase thread).holds := by
  unfold wake
  split
  case isTrue picked => rw [only thread picked]; rfl
  case isFalse => rfl

theorem wake_eq {phase : Thread → Phase} {chosen : Thread → Bool} {thread : Thread}
    {other : Phase} (different : other ≠ .woken) (here : wake phase chosen thread = other) :
    phase thread = other := by
  unfold wake at here
  split at here
  case isTrue => exact absurd here.symm different
  case isFalse => exact here

/-- While a thread is inside without being committed, nobody is committed. -/
theorem none_committed (sound : Sound waiter before) {thread : Thread}
    (here : before.phase thread = .inside) (found : Thread) :
    before.phase found ≠ .committed := by
  intro committed
  have inside : (before.phase thread).holds = true := by rw [here]; rfl
  have same : thread = found := sound_unique sound inside (by rw [committed]; rfl)
  rw [← same, here] at committed
  cases committed

theorem wake_unparked {phase : Thread → Phase} {chosen : Thread → Bool} {thread : Thread}
    (unparked : phase thread ≠ .parked) : wake phase chosen thread ≠ .parked :=
  fun here => unparked (wake_eq (by simp) here)

/-- A signal goes to a parked waiter, and if there is none then any waiter is
unparked. -/
theorem served_signal (sound : Sound waiter before) (some : ∃ thread, waiter thread)
    {chosen : Thread → Bool} (only : ∀ other, chosen other = true → before.phase other = .parked)
    (one : (∃ other, before.phase other = .parked) → ∃ other, chosen other = true) :
    ∃ thread, waiter thread ∧ wake before.phase chosen thread ≠ .parked := by
  by_cases parked : ∃ other, before.phase other = .parked
  · obtain ⟨picked, choice⟩ := one parked
    exact ⟨picked, sound.listed picked (only picked choice), by simp [wake, choice]⟩
  · obtain ⟨thread, waits⟩ := some
    exact ⟨thread, waits, wake_unparked fun here => parked ⟨thread, here⟩⟩

variable [DecidableEq Thread]

/-- A thread takes, keeps or gives up the mutex, and no other is inside. -/
theorem exclusive_update (sound : Sound waiter before) {thread : Thread} (phase : Phase)
    (mine : before.owner = none ∨ (before.phase thread).holds = true) (found : Thread) :
    (if phase.holds then some thread else none) = some found ↔
      (Function.update before.phase thread phase found).holds = true := by
  by_cases same : found = thread
  · subst same
    cases phase <;> simp [Phase.holds]
  · have idle : (before.phase found).holds = false := by
      rw [Bool.eq_false_iff]
      intro holds
      rcases mine with free | mine
      · have owner := (sound.exclusive found).mpr holds
        rw [free] at owner
        cases owner
      · exact same (sound_unique sound holds mine)
    have apart : thread ≠ found := fun equal => same equal.symm
    rw [Function.update_of_ne same, idle]
    cases phase <;> simp [Phase.holds, apart]

theorem faithful_update (sound : Sound waiter before) {thread : Thread} {phase : Phase}
    (kept : phase = .committed → ¬ before.condition) (found : Thread)
    (here : Function.update before.phase thread phase found = .committed) :
    ¬ before.condition := by
  by_cases same : found = thread
  · subst same
    exact kept (by simpa using here)
  · exact sound.faithful found (by simpa [same] using here)

theorem listed_update (sound : Sound waiter before) {thread : Thread} {phase : Phase}
    (kept : phase = .parked → waiter thread) (found : Thread)
    (here : Function.update before.phase thread phase found = .parked) : waiter found := by
  by_cases same : found = thread
  · subst same
    exact kept (by simpa using here)
  · exact sound.listed found (by simpa [same] using here)

theorem sound_move (sound : Sound waiter before) (move : Move waiter before after) :
    Sound waiter after := by
  cases move with
  | enter thread free ready =>
      exact ⟨exclusive_update sound .inside (Or.inl free),
        faithful_update sound (by simp), listed_update sound (by simp)⟩
  | commit thread here unmet =>
      have holds : (before.phase thread).holds = true := by rw [here]; rfl
      have owner := (sound.exclusive thread).mpr holds
      refine ⟨?_, faithful_update sound fun _ => unmet, listed_update sound (by simp)⟩
      have exclusive := exclusive_update sound .committed (Or.inr holds)
      simpa [Phase.holds, owner] using exclusive
  | park thread here may =>
      exact ⟨exclusive_update sound .parked (Or.inr (by rw [here]; rfl)),
        faithful_update sound (by simp), listed_update sound fun _ => may⟩
  | exit thread here =>
      exact ⟨exclusive_update sound .outside (Or.inr (by rw [here]; rfl)),
        faithful_update sound (by simp), listed_update sound (by simp)⟩
  | fulfil thread here met =>
      exact ⟨sound.exclusive,
        fun found committed => absurd committed (none_committed sound here found), sound.listed⟩
  | consume thread here left less =>
      exact ⟨sound.exclusive,
        fun found committed => absurd committed (none_committed sound here found), sound.listed⟩
  | signal thread chosen only one =>
      refine ⟨fun found => ?_, fun found here => sound.faithful found (wake_eq (by simp) here),
        fun found here => sound.listed found (wake_eq (by simp) here)⟩
      rw [wake_holds only]
      exact sound.exclusive found
  | disturb chosen only =>
      refine ⟨fun found => ?_, fun found here => sound.faithful found (wake_eq (by simp) here),
        fun found here => sound.listed found (wake_eq (by simp) here)⟩
      rw [wake_holds only]
      exact sound.exclusive found

theorem unparked_update {phase : Thread → Phase} {thread found : Thread} {next : Phase}
    (unparked : phase found ≠ .parked) (awake : next ≠ .parked) :
    Function.update phase thread next found ≠ .parked := by
  by_cases same : found = thread
  · subst same
    simpa using awake
  · simpa [same] using unparked

theorem served_move (sound : Sound waiter before) (served : Served waiter before)
    (some : ∃ thread, waiter thread) (move : Move waiter before after) : Served waiter after := by
  intro condition
  cases move with
  | enter thread free ready =>
      apply (served condition).imp id
      rintro ⟨found, waits, unparked⟩
      exact ⟨found, waits, unparked_update unparked (by simp)⟩
  | commit thread here unmet => exact absurd condition unmet
  | park thread here may => exact absurd condition (sound.faithful thread here)
  | exit thread here =>
      apply (served condition).imp id
      rintro ⟨found, waits, unparked⟩
      exact ⟨found, waits, unparked_update unparked (by simp)⟩
  | fulfil thread here met => exact Or.inl ⟨thread, by simp⟩
  | consume thread here left less => exact served (less condition)
  | signal thread chosen only one => exact Or.inr (served_signal sound some only one)
  | disturb chosen only =>
      apply (served condition).imp id
      rintro ⟨found, waits, unparked⟩
      exact ⟨found, waits, wake_unparked unparked⟩

end Invariants

end Monitor
