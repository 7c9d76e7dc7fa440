import NgxServer.WorkerPool

/-!
# StopAll and the workers

`StopAll` writes `m_shutdown` and broadcasts without the mutex. A worker that
has tested `m_shutdown` before the write and enters its wait after the
broadcast is never woken. Everything else shuts down.
-/

namespace NgxServer.Shutdown

open NgxServer.ThreadPool NgxServer.WorkerQueue NgxServer.WorkerPool

set_option autoImplicit false

section Stopping

variable {n : Nat} {Producer : Type} [DecidableEq Producer] {pool after : Pool n Producer}

/-- `StopAll` is called by the thread that enqueues messages, when every
worker has been seen with `ifrunning`, and nothing is enqueued after that. -/
def Orderly (pool : Pool n Producer) : Act n Producer → Prop
  | .stop => pool.stop = .notCalled →
      (∀ w, pool.ifrunning w = true) ∧ ∀ p, pool.producer p = .idle
  | .call _ _ => pool.stop = .notCalled
  | _ => True

def Undisturbed (pool : Pool n Producer) (act : Act n Producer) : Prop :=
  Orderly pool act ∧ ∀ w, act ≠ .spurious w

def OrderlyReachable : Pool n Producer → Prop :=
  TransitionSystem.Reachable (fun pool => pool = Pool.create n Producer) step Orderly

/-- A worker is in `pthread_cond_wait` and nobody will wake it. -/
def StuckWaiting (pool : Pool n Producer) (w : Fin n) : Prop :=
  pool.worker w = .waiting ∧
    ∀ later, TransitionSystem.Steps step Undisturbed pool later → later.worker w = .waiting

def CanReturn (pool : Pool n Producer) : Prop :=
  ∃ later, TransitionSystem.Steps step Undisturbed pool later ∧ later.stop = .returned

/-- Whatever happens from here, no worker gets stuck and `StopAll` can
return. -/
def CannotHang (pool : Pool n Producer) : Prop :=
  ∀ state, TransitionSystem.Steps step Orderly pool state →
    (∀ w, ¬ StuckWaiting state w) ∧ CanReturn state

def Told (pool : Pool n Producer) : Prop :=
  pool.stop ≠ .notCalled → pool.mShutdown = true ∧ ∀ p, pool.producer p = .idle

theorem told_step {act : Act n Producer} (told : Told pool) (orderly : Orderly pool act)
    (next : Stepped pool act after) : Told after := by
  intro called
  cases next with
  | worker next => cases next <;> exact told called
  | spurious here => exact told called
  | call here => exact absurd orderly called
  | @producer p chosen currtime after next =>
      have unchanged : after.stop = pool.stop := by cases next <;> rfl
      have idle := (told (unchanged ▸ called)).2 p
      cases next <;> simp_all
  | stop next =>
      cases next with
      | write here runs => exact ⟨rfl, (orderly here).2⟩
      | broadcast here => exact told (by simp [here])
      | join next here more ended => exact told (by simp [here])
      | finish here =>
          rcases here with ⟨here, stopped⟩ | ⟨next, here, -⟩
          · exact ⟨stopped, (orderly here).2⟩
          · exact told (by simp [here])

theorem reachable_told (reached : OrderlyReachable pool) : Told pool := by
  refine TransitionSystem.invariant_of_step Told ?_ ?_ reached
  · rintro start rfl called
    exact absurd rfl called
  · exact fun before act after told orderly taken => told_step told orderly (stepped_of_step taken)

theorem orderly_invariant (reached : OrderlyReachable pool) : Invariant pool :=
  reachable_invariant (TransitionSystem.reachable_mono (fun _ _ _ => trivial) reached)

structure Past (pool : Pool n Producer) : Prop where
  called : pool.stop ≠ .notCalled
  told : pool.stop ≠ .written
  shutdown : pool.mShutdown = true
  idle : ∀ p, pool.producer p = .idle

inductive PastStep (pool : Pool n Producer) : Act n Producer → Pool n Producer → Prop
  | worker {w : Fin n} {after : Pool n Producer} (next : WorkerStep pool w after)
      (stop : after.stop = pool.stop) : PastStep pool (.worker w) after
  | spurious {w : Fin n} (here : pool.worker w = .waiting) :
      PastStep pool (.spurious w) (pool.setWorker w .woken)
  | join {k : Nat} (here : pool.stop = .joining k) (more : k < n)
      (ended : pool.worker ⟨k, more⟩ = .exited) :
      PastStep pool .stop { pool with stop := .joining (k + 1) }
  | finish {k : Nat} (here : pool.stop = .joining k) (all : n ≤ k) :
      PastStep pool .stop { pool with stop := .returned }

theorem past_step {act : Act n Producer} (past : Past pool) (orderly : Orderly pool act)
    (next : Stepped pool act after) : Past after ∧ PastStep pool act after := by
  obtain ⟨called, told, shutdown, idle⟩ := past
  cases next with
  | @worker w after next =>
      have stop : after.stop = pool.stop := by cases next <;> rfl
      have producer : after.producer = pool.producer := by cases next <;> rfl
      refine ⟨⟨stop ▸ called, stop ▸ told, (worker_step_shutdown next).trans shutdown, ?_⟩,
        PastStep.worker next stop⟩
      rw [producer]
      exact idle
  | spurious here => exact ⟨⟨called, told, shutdown, idle⟩, PastStep.spurious here⟩
  | call here => exact absurd orderly called
  | @producer p chosen currtime after next =>
      have here := idle p
      cases next <;> simp_all
  | stop next =>
      cases next with
      | write here runs => exact absurd here called
      | broadcast here => exact absurd here told
      | join k here more ended =>
          exact ⟨⟨by simp, by simp, shutdown, idle⟩, PastStep.join here more ended⟩
      | finish here =>
          rcases here with ⟨here, -⟩ | ⟨k, here, all⟩
          · exact absurd here called
          · exact ⟨⟨by simp, by simp, shutdown, idle⟩, PastStep.finish here all⟩

/-- The broadcast wakes those who wait and is the last one. -/
theorem broadcast_past (told : Told pool) (written : pool.stop = .written)
    (broadcast : step pool .stop = some after) :
    Past after ∧ after.stop = .joining 0 ∧
      after.worker = fun w => if pool.worker w = .waiting then .woken else pool.worker w := by
  obtain ⟨shutdown, idle⟩ := told (by simp [written])
  simp only [step, stopAll, written, Option.some.injEq] at broadcast
  subst broadcast
  exact ⟨⟨by simp, by simp, shutdown, idle⟩, rfl, by simp [Pool.wake]⟩

structure Asleep (w : Fin n) (pool : Pool n Producer) : Prop where
  past : Past pool
  waits : pool.worker w = .waiting
  unjoined : ∃ k, k ≤ w.val ∧ pool.stop = .joining k

omit [DecidableEq Producer] in
theorem waiting_blocked {w : Fin n} (waits : pool.worker w = .waiting) :
    ¬ WorkerStep pool w after := by
  intro next
  cases next <;> simp_all

theorem asleep_step {w : Fin n} {act : Act n Producer} (asleep : Asleep w pool)
    (undisturbed : Undisturbed pool act) (next : Stepped pool act after) : Asleep w after := by
  obtain ⟨past, waits, k, low, stop⟩ := asleep
  obtain ⟨later, next⟩ := past_step past undisturbed.1 next
  cases next with
  | @worker v after next unchanged =>
      by_cases same : w = v
      · subst same
        exact absurd next (waiting_blocked waits)
      · exact ⟨later, (worker_step_other next same).trans waits, k, low, unchanged.trans stop⟩
  | spurious here => exact absurd rfl (undisturbed.2 _)
  | @join found here more ended =>
      have position : found = k := StopPc.joining.inj (here.symm.trans stop)
      subst position
      have distinct : found ≠ w.val := by
        intro same
        have exited : pool.worker w = .exited := by simpa [same] using ended
        rw [waits] at exited
        cases exited
      exact ⟨later, waits, found + 1, by omega, rfl⟩
  | @finish found here all =>
      have position : found = k := StopPc.joining.inj (here.symm.trans stop)
      omega

theorem asleep_steps {w : Fin n} (asleep : Asleep w pool)
    (run : TransitionSystem.Steps step Undisturbed pool after) : Asleep w after :=
  TransitionSystem.steps_preserve
    (fun _ _ _ asleep undisturbed taken => asleep_step asleep undisturbed (stepped_of_step taken))
    run asleep

theorem asleep_stuck {w : Fin n} (asleep : Asleep w pool) : StuckWaiting pool w :=
  ⟨asleep.waits, fun _ run => (asleep_steps asleep run).waits⟩

theorem asleep_hangs {w : Fin n} (asleep : Asleep w pool) : ¬ CanReturn pool := by
  rintro ⟨later, run, returned⟩
  obtain ⟨k, -, stop⟩ := (asleep_steps asleep run).unjoined
  rw [returned] at stop
  cases stop

/-- A worker between its test and its wait at the broadcast gets stuck. -/
theorem late_wait {w : Fin n} (past : Past pool) (stop : pool.stop = .joining 0)
    (late : pool.worker w = .beforeWait) :
    ∃ state, TransitionSystem.Steps step Orderly pool state ∧ Asleep w state := by
  have taken : step pool (.worker w) =
      some { pool.setWorker w .waiting with mutex := none } := by
    simp only [step, threadFunc, late]
  refine ⟨_, TransitionSystem.steps_single (by trivial) taken, ⟨?_, ?_, 0, Nat.zero_le _, stop⟩⟩
  · exact ⟨past.called, past.told, past.shutdown, past.idle⟩
  · exact Function.update_self w _ pool.worker

structure Awake (pool : Pool n Producer) : Prop where
  past : Past pool
  up : ∀ w, pool.worker w ≠ .waiting ∧ pool.worker w ≠ .beforeWait

omit [DecidableEq Producer] in
/-- After the stop a worker only gets closer to its end. -/
theorem worker_shrinks {w : Fin n} (awake : Awake pool) (next : WorkerStep pool w after) :
    ∃ pc, after.worker = Function.update pool.worker w pc ∧
      remaining pc < remaining (pool.worker w) ∧ pc ≠ .waiting ∧ pc ≠ .beforeWait := by
  have shutdown := awake.past.shutdown
  cases next with
  | lock here => exact ⟨.testing, rfl, by rcases here with here | here <;> simp [here, remaining]⟩
  | commit here empty runs => simp [shutdown] at runs
  | park here => exact absurd here (awake.up w).2
  | go here runs => simp [shutdown] at runs
  | leave here | quit here | exit here | fetch job rest here | count job here | unlock job here
  | start job here | process job here | free job here | again here =>
      exact ⟨_, rfl, by simp [here, remaining]⟩

theorem awake_step {act : Act n Producer} (awake : Awake pool) (orderly : Orderly pool act)
    (next : Stepped pool act after) : Awake after := by
  obtain ⟨later, next⟩ := past_step awake.past orderly next
  refine ⟨later, ?_⟩
  cases next with
  | @worker w after next =>
      obtain ⟨pc, worker, -, up⟩ := worker_shrinks awake next
      intro v
      rw [worker]
      by_cases same : v = w
      · subst same
        simpa using up
      · simpa [same] using awake.up v
  | spurious here => exact absurd here (awake.up _).1
  | join | finish => exact awake.up

theorem awake_steps (awake : Awake pool)
    (run : TransitionSystem.Steps step Orderly pool after) : Awake after :=
  TransitionSystem.steps_preserve
    (fun _ _ _ awake orderly taken => awake_step awake orderly (stepped_of_step taken)) run awake

omit [DecidableEq Producer] in
/-- A worker that nobody keeps out of the mutex can go on. -/
theorem worker_enabled {w : Fin n} (awake : Awake pool) (ready : Ready pool)
    (running : pool.worker w ≠ .exited)
    (mutex : pool.mutex = none ∨ (workerPhase (pool.worker w)).holds = true) :
    ∃ next, threadFunc pool w = some next := by
  have up := awake.up w
  cases here : pool.worker w with
  | locking | woken =>
      rcases mutex with free | inside
      · exact ⟨_, by simp only [threadFunc, here, free]; rfl⟩
      · rw [here] at inside
        cases inside
  | testing =>
      by_cases waits : pool.msgRecvQueue = [] ∧ pool.mShutdown = false
      · exact ⟨_, by simp only [threadFunc, here]; rw [if_pos waits]⟩
      · exact ⟨_, by simp only [threadFunc, here]; rw [if_neg waits]⟩
  | beforeWait => exact absurd here up.2
  | waiting => exact absurd here up.1
  | fetching =>
      cases queue : pool.msgRecvQueue with
      | nil => exact absurd queue (ready.fetching w here)
      | cons job rest => exact ⟨_, by simp only [threadFunc, here, queue]; rfl⟩
  | leaving | breaking | fetched job | unlocking job | taken job | running job | processed job
  | freed => exact ⟨_, by simp only [threadFunc, here]; rfl⟩
  | exited => exact absurd here running

omit [DecidableEq Producer] in
/-- Some worker that has not ended can go on, if there is one. -/
theorem some_worker_enabled (awake : Awake pool) (holds : Invariant pool)
    (running : ∃ w, pool.worker w ≠ .exited) :
    ∃ w next, threadFunc pool w = some next := by
  cases owner : pool.mutex with
  | none =>
      obtain ⟨w, running⟩ := running
      exact ⟨w, worker_enabled awake holds.ready running (Or.inl owner)⟩
  | some thread =>
      have inside := (holds.sound.exclusive thread).mp owner
      cases thread with
      | worker w =>
          refine ⟨w, worker_enabled awake holds.ready ?_ (Or.inr inside)⟩
          intro exited
          simp [monitor, ofThread, exited, workerPhase, Monitor.Phase.holds] at inside
      | producer p =>
          simp [monitor, ofThread, awake.past.idle p, producerPhase, Monitor.Phase.holds] at inside

def stopLeft (n : Nat) : StopPc → Nat
  | .joining k => n - k + 1
  | .returned => 0
  | _ => n + 2

/-- How many steps are left until `StopAll` returns. -/
def stepsLeft (pool : Pool n Producer) : Nat :=
  ∑ w, remaining (pool.worker w) + stopLeft n pool.stop

/-- While `StopAll` has not returned, a worker or a join goes on. -/
theorem awake_progress (awake : Awake pool) (holds : Invariant pool)
    (waits : pool.stop ≠ .returned) :
    ∃ act next, Undisturbed pool act ∧ step pool act = some next ∧
      stepsLeft next < stepsLeft pool := by
  by_cases running : ∃ w, pool.worker w ≠ .exited
  · obtain ⟨w, next, taken⟩ := some_worker_enabled awake holds running
    refine ⟨.worker w, next, ⟨trivial, nofun⟩, taken, ?_⟩
    obtain ⟨pc, worker, less, -⟩ := worker_shrinks awake (worker_step taken)
    have stop : next.stop = pool.stop := by cases worker_step taken <;> rfl
    have sum := sum_update remaining pool.worker w pc
    unfold stepsLeft
    rw [worker, stop]
    omega
  · have ended : ∀ w, pool.worker w = .exited := by
      intro w
      by_contra other
      exact running ⟨w, other⟩
    cases stop : pool.stop with
    | notCalled => exact absurd stop awake.past.called
    | written => exact absurd stop awake.past.told
    | returned => exact absurd stop waits
    | joining k =>
        refine ⟨.stop, ?_⟩
        by_cases more : k < n
        · refine ⟨{ pool with stop := .joining (k + 1) }, ⟨?_, nofun⟩, ?_, ?_⟩
          · exact fun here => absurd here awake.past.called
          · simp [step, stopAll, stop, more, ended]
          · simp only [stepsLeft, stop, stopLeft]
            omega
        · refine ⟨{ pool with stop := .returned }, ⟨?_, nofun⟩, ?_, ?_⟩
          · exact fun here => absurd here awake.past.called
          · simp [step, stopAll, stop, more]
          · simp only [stepsLeft, stop, stopLeft]
            omega

theorem awake_returns (awake : Awake pool) (holds : Invariant pool) : CanReturn pool := by
  refine TransitionSystem.exists_steps_to stepsLeft (fun state => Awake state ∧ Invariant state)
    ?_ ⟨awake, holds⟩
  rintro state ⟨awake, holds⟩ waits
  obtain ⟨act, next, undisturbed, taken, less⟩ := awake_progress awake holds waits
  have stepped := stepped_of_step taken
  exact ⟨act, next, undisturbed, taken,
    ⟨awake_step awake undisturbed.1 stepped, invariant_step holds stepped⟩, less⟩

theorem awake_cannot_hang (awake : Awake pool) (holds : Invariant pool) : CannotHang pool := by
  intro state run
  have still := awake_steps awake run
  have kept : Invariant state := TransitionSystem.steps_preserve
    (fun _ _ _ holds _ taken => invariant_step holds (stepped_of_step taken)) run holds
  exact ⟨fun w stuck => (still.up w).1 stuck.1, awake_returns still kept⟩

/-- After a broadcast nobody gets stuck and `StopAll` can return, in every
interleaving, exactly if no worker was between its test and its wait when the
broadcast was made. -/
theorem stop_all_cannot_hang_iff (before after : Pool n Producer)
    (reached : OrderlyReachable before) (written : before.stop = .written)
    (broadcast : step before .stop = some after) :
    CannotHang after ↔ ∀ w, before.worker w ≠ .beforeWait := by
  obtain ⟨past, stop, worker⟩ := broadcast_past (reachable_told reached) written broadcast
  constructor
  · intro cannotHang w late
    have kept : after.worker w = .beforeWait := by simp [worker, late]
    obtain ⟨state, run, asleep⟩ := late_wait past stop kept
    exact (cannotHang state run).1 w (asleep_stuck asleep)
  · intro none
    refine awake_cannot_hang ⟨past, fun w => ?_⟩
      (invariant_step (orderly_invariant reached) (stepped_of_step broadcast))
    rw [worker]
    by_cases waits : before.worker w = .waiting
    · simp [waits]
    · simpa [waits] using none w

end Stopping

def lateRun : List (Act 1 Unit) := [.worker 0, .worker 0, .stop]

def earlyRun : List (Act 1 Unit) := [.worker 0, .worker 0, .worker 0, .stop]

instance {n : Nat} (pool : Pool n Unit) (act : Act n Unit) : Decidable (Orderly pool act) :=
  match act with
  | .stop => inferInstanceAs (Decidable (pool.stop = .notCalled →
      (∀ w, pool.ifrunning w = true) ∧ ∀ p, pool.producer p = .idle))
  | .call _ _ => inferInstanceAs (Decidable (pool.stop = .notCalled))
  | .worker _ | .spurious _ | .producer _ _ _ => inferInstanceAs (Decidable True)

/-- A run of a pool with one worker, seen at the end of it. -/
theorem orderly_of_seen (acts : List (Act 1 Unit)) (look : Pool 1 Unit → Bool)
    (seen : (TransitionSystem.exec step (fun pool act => decide (Orderly pool act))
      (Pool.create 1 Unit) acts).map look = some true) :
    ∃ pool : Pool 1 Unit, OrderlyReachable pool ∧ look pool = true := by
  obtain ⟨pool, executed, same⟩ := Option.map_eq_some_iff.mp seen
  exact ⟨pool, ⟨Pool.create 1 Unit, rfl, TransitionSystem.steps_of_exec
    (fun _ _ orderly => of_decide_eq_true orderly) executed⟩, same⟩

/-- With one worker between its test and its wait, `StopAll` hangs. -/
theorem stop_all_hangs :
    ∃ before after : Pool 1 Unit, OrderlyReachable before ∧ before.stop = .written ∧
      step before .stop = some after ∧
      ∃ state, TransitionSystem.Steps step Orderly after state ∧ StuckWaiting state 0 ∧
        ¬ CanReturn state := by
  obtain ⟨before, reached, same⟩ := orderly_of_seen lateRun
    (fun pool => decide (pool.worker 0 = .beforeWait ∧ pool.stop = .written)) (by decide)
  obtain ⟨late, written⟩ := of_decide_eq_true same
  have broadcast : ∃ after, step before .stop = some after :=
    ⟨_, by simp only [step, stopAll, written]; rfl⟩
  obtain ⟨after, taken⟩ := broadcast
  obtain ⟨past, stop, worker⟩ := broadcast_past (reachable_told reached) written taken
  obtain ⟨state, run, asleep⟩ := late_wait (w := 0) past stop (by simp [worker, late])
  exact ⟨before, after, reached, written, taken, state, run, asleep_stuck asleep,
    asleep_hangs asleep⟩

/-- With the worker asleep before the call, `StopAll` does not hang. -/
theorem stop_all_cannot_hang_iff_sample :
    ∃ before after : Pool 1 Unit, before.worker 0 = .waiting ∧ before.stop = .written ∧
      step before .stop = some after ∧ CannotHang after := by
  obtain ⟨before, reached, same⟩ := orderly_of_seen earlyRun
    (fun pool => decide (pool.worker 0 = .waiting ∧ pool.stop = .written)) (by decide)
  obtain ⟨waits, written⟩ := of_decide_eq_true same
  have broadcast : ∃ after, step before .stop = some after :=
    ⟨_, by simp only [step, stopAll, written]; rfl⟩
  obtain ⟨after, taken⟩ := broadcast
  refine ⟨before, after, waits, written, taken, ?_⟩
  apply (stop_all_cannot_hang_iff before after reached written taken).mpr
  intro w
  rw [Subsingleton.elim w 0, waits]
  simp

end NgxServer.Shutdown
