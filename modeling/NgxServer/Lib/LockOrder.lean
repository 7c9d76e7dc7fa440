import Mathlib.Logic.Relation
import Mathlib.Logic.Function.Basic
import Mathlib.Data.List.Basic
import NgxServer.Lib.TransitionSystem

/-!
# Mutexes taken in the order of their ranks

Threads are programs that lock and unlock mutexes, with every other decision
left open. A program is ordered when it locks only above the ranks of what it
holds, unlocks in reverse order, and waits on a condition with nothing but the
mutex of that condition held. Threads with ordered programs never deadlock on
their mutexes, whatever their number.
-/

namespace LockOrder

set_option autoImplicit false

/-- What a program does to mutexes. `choose` branches on data, as on the
object that a call is about; `parked` is a thread inside a condition wait. -/
inductive Code (Mutex Index : Type)
  | skip
  | lock (mutex : Mutex)
  | unlock (mutex : Mutex)
  | wait (mutex : Mutex)
  | parked (mutex : Mutex)
  | seq (first second : Code Mutex Index)
  | either (left right : Code Mutex Index)
  | choose (branch : Index → Code Mutex Index)
  | loop (body : Code Mutex Index)

def Code.scoped {Mutex Index : Type} (mutex : Mutex) (body : Code Mutex Index) :
    Code Mutex Index :=
  .seq (.lock mutex) (.seq body (.unlock mutex))

def Code.optional {Mutex Index : Type} (body : Code Mutex Index) : Code Mutex Index :=
  .either body .skip

structure State (Thread Mutex Index : Type) where
  /-- what each thread has still to do -/
  code : Thread → List (Code Mutex Index)
  owner : Mutex → Option Thread

inductive Decision (Index : Type)
  | left
  | right
  | pick (index : Index)

section Semantics

variable {Thread Mutex Index : Type} [DecidableEq Thread] [DecidableEq Mutex]

/-- Steps that touch no mutex; a parked thread may wake up at any time, and
then has to take its mutex again. -/
def silent : Code Mutex Index → Decision Index → Option (List (Code Mutex Index))
  | .skip, _ => some []
  | .seq first second, _ => some [first, second]
  | .either left _, .left => some [left]
  | .either _ right, .right => some [right]
  | .choose branch, .pick index => some [branch index]
  | .loop body, .left => some [body, .loop body]
  | .loop _, .right => some []
  | .parked mutex, _ => some [.lock mutex]
  | _, _ => none

def State.go (state : State Thread Mutex Index) (thread : Thread)
    (rest : List (Code Mutex Index)) : State Thread Mutex Index :=
  { state with code := Function.update state.code thread rest }

def State.own (state : State Thread Mutex Index) (mutex : Mutex) (owner : Option Thread) :
    State Thread Mutex Index :=
  { state with owner := Function.update state.owner mutex owner }

def step (state : State Thread Mutex Index) (act : Thread × Decision Index) :
    Option (State Thread Mutex Index) :=
  match state.code act.1 with
  | [] => none
  | .lock mutex :: rest =>
      if state.owner mutex = none then some ((state.go act.1 rest).own mutex (some act.1))
      else none
  | .unlock mutex :: rest => some ((state.go act.1 rest).own mutex none)
  | .wait mutex :: rest => some ((state.go act.1 (.parked mutex :: rest)).own mutex none)
  | head :: rest => (silent head act.2).map fun more => state.go act.1 (more ++ rest)

inductive Stepped (state : State Thread Mutex Index) (thread : Thread) :
    State Thread Mutex Index → Prop
  | silent (head : Code Mutex Index) (rest more : List (Code Mutex Index))
      (decision : Decision Index) (here : state.code thread = head :: rest)
      (unfolds : silent head decision = some more) :
      Stepped state thread (state.go thread (more ++ rest))
  | lock (mutex : Mutex) (rest : List (Code Mutex Index))
      (here : state.code thread = .lock mutex :: rest) (free : state.owner mutex = none) :
      Stepped state thread ((state.go thread rest).own mutex (some thread))
  | unlock (mutex : Mutex) (rest : List (Code Mutex Index))
      (here : state.code thread = .unlock mutex :: rest) :
      Stepped state thread ((state.go thread rest).own mutex none)
  | wait (mutex : Mutex) (rest : List (Code Mutex Index))
      (here : state.code thread = .wait mutex :: rest) :
      Stepped state thread ((state.go thread (.parked mutex :: rest)).own mutex none)

theorem stepped_of_step {state after : State Thread Mutex Index} {act : Thread × Decision Index}
    (taken : step state act = some after) : Stepped state act.1 after := by
  unfold step at taken
  split at taken
  case h_1 => cases taken
  case h_2 mutex rest here =>
    obtain ⟨free, same⟩ := Option.ite_none_right_eq_some.mp taken
    cases same
    exact Stepped.lock mutex rest here free
  case h_3 mutex rest here =>
    cases taken
    exact Stepped.unlock mutex rest here
  case h_4 mutex rest here =>
    cases taken
    exact Stepped.wait mutex rest here
  case h_5 head rest _ _ _ here =>
    obtain ⟨more, unfolds, same⟩ := Option.map_eq_some_iff.mp taken
    cases same
    exact Stepped.silent head rest more act.2 here unfolds

end Semantics

section Order

variable {Thread Mutex Index : Type} (rank : Mutex → Nat)

/-- Holding `before`, newest first, a program keeps to the order and ends
holding `after`. -/
inductive Ordered : List Mutex → Code Mutex Index → List Mutex → Prop
  | skip (held : List Mutex) : Ordered held .skip held
  | lock {held : List Mutex} {mutex : Mutex} (above : ∀ other ∈ held, rank other < rank mutex) :
      Ordered held (.lock mutex) (mutex :: held)
  | unlock (mutex : Mutex) (held : List Mutex) : Ordered (mutex :: held) (.unlock mutex) held
  | wait (mutex : Mutex) : Ordered [mutex] (.wait mutex) [mutex]
  | parked (mutex : Mutex) : Ordered [] (.parked mutex) [mutex]
  | seq {before between after : List Mutex} {first second : Code Mutex Index}
      (early : Ordered before first between) (late : Ordered between second after) :
      Ordered before (.seq first second) after
  | either {before after : List Mutex} {left right : Code Mutex Index}
      (one : Ordered before left after) (other : Ordered before right after) :
      Ordered before (.either left right) after
  | choose {before after : List Mutex} {branch : Index → Code Mutex Index}
      (each : ∀ index, Ordered before (branch index) after) :
      Ordered before (.choose branch) after
  | loop {held : List Mutex} {body : Code Mutex Index} (once : Ordered held body held) :
      Ordered held (.loop body) held

theorem ordered_scoped {held : List Mutex} {mutex : Mutex} {body : Code Mutex Index}
    (above : ∀ other ∈ held, rank other < rank mutex)
    (inside : Ordered rank (mutex :: held) body (mutex :: held)) :
    Ordered rank held (.scoped mutex body) held :=
  Ordered.seq (Ordered.lock above) (Ordered.seq inside (Ordered.unlock mutex held))

theorem ordered_optional {held : List Mutex} {body : Code Mutex Index}
    (done : Ordered rank held body held) : Ordered rank held (.optional body) held :=
  Ordered.either done (Ordered.skip held)

/-- The rest of a program that holds `held` and ends with nothing held. -/
inductive Finishes : List Mutex → List (Code Mutex Index) → Prop
  | done : Finishes [] []
  | cons {before after : List Mutex} {head : Code Mutex Index} {rest : List (Code Mutex Index)}
      (ordered : Ordered rank before head after) (later : Finishes after rest) :
      Finishes before (head :: rest)

theorem finishes_silent {held : List Mutex} {head : Code Mutex Index}
    {rest more : List (Code Mutex Index)} {decision : Decision Index}
    (finishes : Finishes rank held (head :: rest)) (unfolds : silent head decision = some more) :
    Finishes rank held (more ++ rest) := by
  cases finishes with
  | cons ordered later =>
    cases ordered with
    | skip =>
        cases unfolds
        exact later
    | lock | unlock | wait => cases unfolds
    | parked mutex =>
        cases unfolds
        exact Finishes.cons (Ordered.lock (by simp)) later
    | seq early late =>
        cases unfolds
        exact Finishes.cons early (Finishes.cons late later)
    | either one other =>
        cases decision with
        | left =>
            cases unfolds
            exact Finishes.cons one later
        | right =>
            cases unfolds
            exact Finishes.cons other later
        | pick index => cases unfolds
    | choose each =>
        cases decision with
        | left | right => cases unfolds
        | pick index =>
            cases unfolds
            exact Finishes.cons (each index) later
    | loop once =>
        cases decision with
        | left =>
            cases unfolds
            exact Finishes.cons once (Finishes.cons (Ordered.loop once) later)
        | right =>
            cases unfolds
            exact later
        | pick index => cases unfolds

end Order

section System

variable {Thread Mutex Index : Type} (rank : Mutex → Nat)

structure InOrder (state : State Thread Mutex Index) (thread : Thread) (held : List Mutex) :
    Prop where
  finishes : Finishes rank held (state.code thread)
  owns : ∀ mutex, mutex ∈ held ↔ state.owner mutex = some thread
  sorted : held.Pairwise fun newer older => rank older < rank newer

def AllInOrder (state : State Thread Mutex Index) : Prop :=
  ∀ thread, ∃ held, InOrder rank state thread held

/-- A thread whose program and mutexes are not touched. -/
theorem in_order_of_same {state after : State Thread Mutex Index} {thread : Thread}
    {held : List Mutex} (inOrder : InOrder rank state thread held)
    (code : after.code thread = state.code thread)
    (owner : ∀ mutex, after.owner mutex = some thread ↔ state.owner mutex = some thread) :
    InOrder rank after thread held :=
  ⟨code ▸ inOrder.finishes, fun mutex => (inOrder.owns mutex).trans (owner mutex).symm,
    inOrder.sorted⟩

section Steps

variable [DecidableEq Thread] [DecidableEq Mutex]

theorem in_order_lock {state : State Thread Mutex Index} {thread : Thread} {held : List Mutex}
    {mutex : Mutex} {rest : List (Code Mutex Index)} (inOrder : InOrder rank state thread held)
    (here : state.code thread = .lock mutex :: rest) :
    InOrder rank ((state.go thread rest).own mutex (some thread)) thread (mutex :: held) := by
  have finishes := inOrder.finishes
  rw [here] at finishes
  cases finishes with
  | cons ordered later =>
    cases ordered with
    | lock above =>
      refine ⟨by simpa [State.go, State.own] using later, fun other => ?_, ?_⟩
      · by_cases same : other = mutex
        · simp [State.own, same]
        · simp [State.own, State.go, same, inOrder.owns]
      · exact List.pairwise_cons.mpr ⟨above, inOrder.sorted⟩

theorem in_order_unlock {state : State Thread Mutex Index} {thread : Thread} {held : List Mutex}
    {mutex : Mutex} {rest : List (Code Mutex Index)} (inOrder : InOrder rank state thread held)
    (here : state.code thread = .unlock mutex :: rest) :
    state.owner mutex = some thread ∧
      ∃ left, InOrder rank ((state.go thread rest).own mutex none) thread left := by
  have finishes := inOrder.finishes
  rw [here] at finishes
  cases finishes with
  | @cons _ left _ _ ordered later =>
    cases ordered with
    | unlock =>
      obtain ⟨below, sorted⟩ := List.pairwise_cons.mp inOrder.sorted
      refine ⟨(inOrder.owns mutex).mp List.mem_cons_self, left,
        by simpa [State.go, State.own] using later, fun other => ?_, sorted⟩
      have owns := inOrder.owns other
      by_cases same : other = mutex
      · have absent : mutex ∉ left := fun listed => Nat.lt_irrefl _ (below mutex listed)
        simp [State.own, same, absent]
      · simpa [State.own, State.go, same] using owns

theorem in_order_wait {state : State Thread Mutex Index} {thread : Thread} {held : List Mutex}
    {mutex : Mutex} {rest : List (Code Mutex Index)} (inOrder : InOrder rank state thread held)
    (here : state.code thread = .wait mutex :: rest) :
    state.owner mutex = some thread ∧
      InOrder rank ((state.go thread (.parked mutex :: rest)).own mutex none) thread [] := by
  have finishes := inOrder.finishes
  rw [here] at finishes
  cases finishes with
  | cons ordered later =>
    cases ordered with
    | wait =>
      refine ⟨(inOrder.owns mutex).mp List.mem_cons_self,
        by simpa [State.go, State.own] using Finishes.cons (Ordered.parked mutex) later,
        fun other => ?_, List.Pairwise.nil⟩
      have owns := inOrder.owns other
      by_cases same : other = mutex
      · simp [State.own, same]
      · simpa [State.own, State.go, same] using owns

theorem in_order_elsewhere {state : State Thread Mutex Index} {thread other : Thread}
    {held : List Mutex} {mutex : Mutex} {owner : Option Thread} {rest : List (Code Mutex Index)}
    (inOrder : InOrder rank state other held) (different : other ≠ thread)
    (before : state.owner mutex ≠ some other) (after : owner ≠ some other) :
    InOrder rank ((state.go thread rest).own mutex owner) other held := by
  apply in_order_of_same rank inOrder (by simp [State.go, State.own, different])
  intro found
  by_cases same : found = mutex
  · simp [State.own, same, before, after]
  · simp [State.own, State.go, same]

theorem all_in_order_step {state after : State Thread Mutex Index} {act : Thread × Decision Index}
    (allInOrder : AllInOrder rank state) (taken : step state act = some after) :
    AllInOrder rank after := by
  intro other
  obtain ⟨held, inOrder⟩ := allInOrder other
  obtain ⟨mine, ordered⟩ := allInOrder act.1
  cases stepped_of_step taken with
  | silent head rest more decision here unfolds =>
      refine ⟨held, ?_⟩
      by_cases same : other = act.1
      · have finishes := inOrder.finishes
        rw [same, here] at finishes
        refine ⟨?_, inOrder.owns, inOrder.sorted⟩
        rw [same]
        simpa [State.go] using finishes_silent rank finishes unfolds
      · exact in_order_of_same rank inOrder (by simp [State.go, same]) fun _ => Iff.rfl
  | lock mutex rest here free =>
      by_cases same : other = act.1
      · rw [same]
        exact ⟨mutex :: mine, in_order_lock rank ordered here⟩
      · exact ⟨held, in_order_elsewhere rank inOrder same (by simp [free])
          fun owner => same (Option.some.inj owner).symm⟩
  | unlock mutex rest here =>
      obtain ⟨owner, left, kept⟩ := in_order_unlock rank ordered here
      by_cases same : other = act.1
      · rw [same]
        exact ⟨left, kept⟩
      · refine ⟨held, in_order_elsewhere rank inOrder same ?_ (by simp)⟩
        rw [owner]
        exact fun swapped => same (Option.some.inj swapped).symm
  | wait mutex rest here =>
      obtain ⟨owner, kept⟩ := in_order_wait rank ordered here
      by_cases same : other = act.1
      · rw [same]
        exact ⟨[], kept⟩
      · refine ⟨held, in_order_elsewhere rank inOrder same ?_ (by simp)⟩
        rw [owner]
        exact fun swapped => same (Option.some.inj swapped).symm

def AtStart (program : Thread → Code Mutex Index) (state : State Thread Mutex Index) : Prop :=
  (∀ thread, state.code thread = [program thread]) ∧ ∀ mutex, state.owner mutex = none

def Reachable (program : Thread → Code Mutex Index) : State Thread Mutex Index → Prop :=
  TransitionSystem.Reachable (AtStart program) step fun _ _ => True

theorem reachable_in_order {program : Thread → Code Mutex Index} {state : State Thread Mutex Index}
    (ordered : ∀ thread, Ordered rank [] (program thread) [])
    (reached : Reachable program state) : AllInOrder rank state := by
  refine TransitionSystem.invariant_of_step (AllInOrder rank) ?_ ?_ reached
  · rintro start ⟨code, owner⟩ thread
    refine ⟨[], ?_, fun mutex => by simp [owner mutex], List.Pairwise.nil⟩
    rw [code thread]
    exact Finishes.cons (ordered thread) Finishes.done
  · exact fun before act after inOrder _ taken => all_in_order_step rank inOrder taken

end Steps

def Requests (state : State Thread Mutex Index) (thread : Thread) (mutex : Mutex) : Prop :=
  ∃ rest, state.code thread = .lock mutex :: rest

def WaitsFor (state : State Thread Mutex Index) (thread other : Thread) : Prop :=
  ∃ mutex, Requests state thread mutex ∧ state.owner mutex = some other

variable {rank} {state : State Thread Mutex Index}

theorem requests_unique {thread : Thread} {one other : Mutex} (first : Requests state thread one)
    (second : Requests state thread other) : one = other := by
  obtain ⟨rest, here⟩ := first
  obtain ⟨more, also⟩ := second
  rw [here] at also
  cases also
  rfl

/-- A requested mutex ranks above all that the thread holds. -/
theorem requests_above (allInOrder : AllInOrder rank state) {thread : Thread}
    {mutex other : Mutex} (requests : Requests state thread mutex)
    (holds : state.owner other = some thread) : rank other < rank mutex := by
  obtain ⟨held, inOrder⟩ := allInOrder thread
  obtain ⟨rest, here⟩ := requests
  have finishes := inOrder.finishes
  rw [here] at finishes
  cases finishes with
  | cons ordered later =>
    cases ordered with
    | lock above => exact above other ((inOrder.owns other).mpr holds)

theorem not_requests_held (allInOrder : AllInOrder rank state) {thread : Thread} {mutex : Mutex}
    (requests : Requests state thread mutex) : state.owner mutex ≠ some thread :=
  fun holds => Nat.lt_irrefl _ (requests_above allInOrder requests holds)

/-- Along a chain of waiting threads the requested mutexes rise. -/
theorem waits_rise (allInOrder : AllInOrder rank state) {thread other : Thread}
    {mutex further : Mutex} (chain : Relation.TransGen (WaitsFor state) thread other)
    (requests : Requests state thread mutex) (later : Requests state other further) :
    rank mutex < rank further := by
  induction chain generalizing further with
  | single waits =>
      obtain ⟨wanted, wants, holds⟩ := waits
      rw [requests_unique requests wants]
      exact requests_above allInOrder later holds
  | tail _ waits ih =>
      obtain ⟨wanted, wants, holds⟩ := waits
      exact Nat.lt_trans (ih wants) (requests_above allInOrder later holds)

theorem waits_acyclic (allInOrder : AllInOrder rank state) (thread : Thread) :
    ¬ Relation.TransGen (WaitsFor state) thread thread := by
  intro cycle
  obtain ⟨next, ⟨mutex, requests, -⟩, -⟩ := Relation.TransGen.head'_iff.mp cycle
  exact Nat.lt_irrefl _ (waits_rise allInOrder cycle requests requests)

/-- Every chain of waiting threads ends at one that holds a mutex and does not
wait, as ranks are bounded. -/
theorem chain_ends (allInOrder : AllInOrder rank state) {bound : Nat}
    (bounded : ∀ mutex, rank mutex < bound) {thread other : Thread}
    (waits : WaitsFor state thread other) :
    ∃ holder, Relation.ReflTransGen (WaitsFor state) other holder ∧
      (∃ mutex, state.owner mutex = some holder) ∧ ∀ next, ¬ WaitsFor state holder next := by
  obtain ⟨mutex, requests, holds⟩ := waits
  induction room : bound - rank mutex using Nat.strongRecOn
    generalizing thread other mutex with
  | ind room ih =>
      by_cases stuck : ∃ next, WaitsFor state other next
      · obtain ⟨next, further, wants, owner⟩ := stuck
        have rises := requests_above allInOrder wants holds
        have below := bounded further
        obtain ⟨holder, chain, rest⟩ := ih _ (by omega) further wants owner rfl
        exact ⟨holder, Relation.ReflTransGen.head ⟨further, wants, owner⟩ chain, rest⟩
      · exact ⟨other, Relation.ReflTransGen.refl, ⟨mutex, holds⟩,
          fun next waiting => stuck ⟨next, waiting⟩⟩

/-- A thread that holds a mutex is not at its end, and not parked. -/
theorem holder_active (allInOrder : AllInOrder rank state) {holder : Thread} {mutex : Mutex}
    (holds : state.owner mutex = some holder) :
    ∃ head rest, state.code holder = head :: rest ∧ ∀ other, head ≠ .parked other := by
  obtain ⟨held, inOrder⟩ := allInOrder holder
  have listed := (inOrder.owns mutex).mpr holds
  have finishes := inOrder.finishes
  cases code : state.code holder with
  | nil =>
      rw [code] at finishes
      cases finishes
      cases listed
  | cons head rest =>
      refine ⟨head, rest, rfl, ?_⟩
      rintro other rfl
      rw [code] at finishes
      cases finishes with
      | cons ordered later =>
        cases ordered
        cases listed

end System

end LockOrder
