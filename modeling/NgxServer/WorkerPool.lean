import Mathlib.Algebra.BigOperators.Fin
import Mathlib.Algebra.Order.BigOperators.Group.Finset
import NgxServer.WorkerQueue

/-!
# What holds of the thread pool in every interleaving

The invariant of the pool: it is sound as a monitor and fair as a queue of
work, its two counters count what they are meant to count, and a worker that
takes a message finds one.
-/

namespace NgxServer.WorkerPool

open NgxServer.ThreadPool NgxServer.WorkerQueue

set_option autoImplicit false

def workerSlack : WorkerPc → Int
  | .fetched _ => 1
  | _ => 0

def producerSlack : ProducerPc → Int
  | .pushed => -1
  | _ => 0

def busy : WorkerPc → Nat
  | .running _ | .processed _ | .freed => 1
  | _ => 0

theorem busy_le_one (pc : WorkerPc) : busy pc ≤ 1 := by
  cases pc <;> simp [busy]

theorem sum_update {Index Value : Type} [Fintype Index] [DecidableEq Index]
    (measure : Value → Nat) (values : Index → Value) (index : Index) (value : Value) :
    ∑ i, measure (Function.update values index value i) + measure (values index) =
      ∑ i, measure (values i) + measure value := by
  have moved : (fun i => measure (Function.update values index value i)) =
      Function.update (fun i => measure (values i)) index (measure value) := by
    funext i
    by_cases same : i = index
    · simp [same]
    · simp [same]
  have split := Finset.add_sum_erase Finset.univ (fun i => measure (values i))
    (Finset.mem_univ index)
  rw [moved, Finset.sum_update_of_mem (Finset.mem_univ index), ← split,
    ← Finset.erase_eq]
  omega

section Invariants

variable {n : Nat} {Producer : Type} {pool after : Pool n Producer}

/-- What the thread that holds the mutex has not yet counted. -/
def slack (pool : Pool n Producer) : Int :=
  pool.mutex.elim 0 (ofThread workerSlack producerSlack pool.worker pool.producer)

def Counted (pool : Pool n Producer) : Prop :=
  pool.iRecvMsgQueueCount = pool.msgRecvQueue.length + slack pool

def running (pool : Pool n Producer) : Nat := ∑ w, busy (pool.worker w)

/-- A worker that has left the inner loop was told to stop or finds a message;
one that is about to take a message finds one. -/
structure Ready (pool : Pool n Producer) : Prop where
  leaving : ∀ w, pool.worker w = .leaving → pool.msgRecvQueue ≠ [] ∨ pool.mShutdown = true
  fetching : ∀ w, pool.worker w = .fetching → pool.msgRecvQueue ≠ []

theorem owner_of_inside (sound : Monitor.Sound IsWorker (monitor pool)) {w : Fin n}
    (inside : (workerPhase (pool.worker w)).holds = true) : pool.mutex = some (.worker w) :=
  (sound.exclusive (.worker w)).mpr inside

theorem owner_of_producer (sound : Monitor.Sound IsWorker (monitor pool)) {p : Producer}
    (inside : (producerPhase (pool.producer p)).holds = true) :
    pool.mutex = some (.producer p) :=
  (sound.exclusive (.producer p)).mpr inside

theorem inside_unique (sound : Monitor.Sound IsWorker (monitor pool)) {v w : Fin n}
    (first : (workerPhase (pool.worker v)).holds = true)
    (second : (workerPhase (pool.worker w)).holds = true) : v = w := by
  have left := owner_of_inside sound first
  have right := owner_of_inside sound second
  exact Holder.worker.inj (Option.some.inj (left.symm.trans right))

section Worker

variable {w : Fin n}

theorem worker_step_other (next : WorkerStep pool w after) {v : Fin n} (other : v ≠ w) :
    after.worker v = pool.worker v := by
  cases next <;> simp [Pool.setWorker, other]

theorem worker_step_shutdown (next : WorkerStep pool w after) :
    after.mShutdown = pool.mShutdown := by
  cases next <;> rfl

theorem worker_step_queue (next : WorkerStep pool w after) :
    after.msgRecvQueue = pool.msgRecvQueue ∨ pool.worker w = .fetching := by
  cases next with
  | fetch job rest here first => exact Or.inr here
  | lock | commit | leave | park | quit | go | exit | count | unlock | start | process | free
  | again => exact Or.inl rfl

theorem slack_owner {pc : WorkerPc} (mutex : after.mutex = some (.worker w))
    (worker : after.worker w = pc) : slack after = workerSlack pc := by
  rw [slack, mutex, ← worker]
  rfl

theorem slack_free (free : after.mutex = none) : slack after = 0 := by
  rw [slack, free]
  rfl

/-- A step of a worker that keeps what it is ahead of the counter. -/
theorem slack_same [DecidableEq Producer] {pc : WorkerPc} (mutex : after.mutex = pool.mutex)
    (worker : after.worker = Function.update pool.worker w pc)
    (producer : after.producer = pool.producer)
    (same : workerSlack (pool.worker w) = workerSlack pc) : slack after = slack pool := by
  rw [slack, slack, mutex, worker, producer, of_thread_worker_same same]

/-- The thread with the mutex changes the counter, the queue, or both. -/
theorem counted_inside (pc : WorkerPc) (counted : Counted pool)
    (owner : pool.mutex = some (.worker w)) (mutex : after.mutex = pool.mutex)
    (worker : after.worker w = pc)
    (change : after.iRecvMsgQueueCount - after.msgRecvQueue.length - workerSlack pc =
      pool.iRecvMsgQueueCount - pool.msgRecvQueue.length - workerSlack (pool.worker w)) :
    Counted after := by
  unfold Counted at counted ⊢
  rw [slack_owner owner rfl] at counted
  rw [slack_owner (mutex.trans owner) worker]
  omega

theorem counted_worker [DecidableEq Producer]
    (sound : Monitor.Sound IsWorker (monitor pool)) (counted : Counted pool)
    (next : WorkerStep pool w after) : Counted after := by
  have inside : (workerPhase (pool.worker w)).holds = true →
      pool.mutex = some (.worker w) := owner_of_inside sound
  cases next with
  | lock here free =>
      rw [Counted, slack_free free] at counted
      simpa [Counted, slack, Pool.setWorker, ofThread, workerSlack] using counted
  | commit here | leave here | quit here | go here | start job here | process job here
  | free job here | again here =>
      refine Eq.trans counted (congrArg _ (Eq.symm ?_))
      exact slack_same rfl rfl rfl (by simp [here, workerSlack])
  | park here | exit here | unlock job here =>
      rw [Counted, slack_owner (inside (by rw [here]; rfl)) here] at counted
      rw [Counted, slack_free rfl]
      exact counted
  | fetch job rest here front =>
      have owner := inside (by rw [here]; rfl)
      refine counted_inside (.fetched job) counted owner rfl ?_ ?_
      · exact Function.update_self w _ pool.worker
      · simp only [here, front, workerSlack, List.length_cons, Pool.setWorker]
        omega
  | count job here =>
      have owner := inside (by rw [here]; rfl)
      refine counted_inside (.unlocking job) counted owner rfl ?_ ?_
      · exact Function.update_self w _ pool.worker
      · simp only [here, workerSlack, Pool.setWorker]
        omega

theorem running_update {pc : WorkerPc} (counts : pool.iRunningThreadNum = running pool)
    (worker : after.worker = Function.update pool.worker w pc)
    (change : after.iRunningThreadNum + busy (pool.worker w) =
      pool.iRunningThreadNum + busy pc) : after.iRunningThreadNum = running after := by
  have sum := sum_update busy pool.worker w pc
  rw [running] at counts ⊢
  rw [worker]
  omega

theorem running_worker (counts : pool.iRunningThreadNum = running pool)
    (next : WorkerStep pool w after) : after.iRunningThreadNum = running after := by
  cases next with
  | lock here =>
      apply running_update counts rfl
      rcases here with here | here <;> simp [here, busy, Pool.setWorker]
  | commit here | leave here | park here | quit here | go here | exit here | fetch job rest here
  | count job here | unlock job here | start job here | process job here | free job here
  | again here =>
      exact running_update counts rfl (by simp [here, busy, Pool.setWorker])

theorem ready_worker (sound : Monitor.Sound IsWorker (monitor pool)) (ready : Ready pool)
    (next : WorkerStep pool w after) : Ready after := by
  have shutdown := worker_step_shutdown next
  have kept : ∀ v, v ≠ w → (workerPhase (pool.worker v)).holds = true →
      after.msgRecvQueue = pool.msgRecvQueue := by
    intro v other inside
    rcases worker_step_queue next with same | here
    · exact same
    · exact absurd (inside_unique sound inside (by rw [here]; rfl)) other
  constructor
  · intro v leaving
    by_cases same : v = w
    · subst same
      cases next with
      | leave here ready => exact ready
      | lock | commit | park | quit | go | exit | fetch | count | unlock | start | process | free
      | again => simp [Pool.setWorker] at leaving
    · rw [worker_step_other next same] at leaving
      rw [kept v same (by rw [leaving]; rfl), shutdown]
      exact ready.leaving v leaving
  · intro v fetching
    by_cases same : v = w
    · subst same
      cases next with
      | go here runs =>
          apply (ready.leaving v here).resolve_right
          simp [runs]
      | lock | commit | leave | park | quit | exit | fetch | count | unlock | start | process
      | free | again => simp [Pool.setWorker] at fetching
    · rw [worker_step_other next same] at fetching
      rw [kept v same (by rw [fetching]; rfl)]
      exact ready.fetching v fetching

end Worker

section Others

theorem running_wake {chosen : Fin n → Bool}
    (only : ∀ w, chosen w = true → pool.worker w = .waiting) :
    running (pool.wake chosen) = running pool := by
  unfold running Pool.wake
  apply Finset.sum_congr rfl
  intro w _
  dsimp only
  split
  case isTrue choice => rw [only w choice]; rfl
  case isFalse => rfl

theorem ready_wake (ready : Ready pool) (chosen : Fin n → Bool) :
    Ready (pool.wake chosen) := by
  have unwoken : ∀ {w pc}, pc ≠ .woken → (pool.wake chosen).worker w = pc →
      pool.worker w = pc := by
    intro w pc different here
    simp only [Pool.wake] at here
    split at here
    case isTrue => exact absurd here.symm different
    case isFalse => exact here
  exact ⟨fun w leaving => ready.leaving w (unwoken (by simp) leaving),
    fun w fetching => ready.fetching w (unwoken (by simp) fetching)⟩

theorem slack_producer {p : Producer} {pc : ProducerPc}
    (mutex : after.mutex = some (.producer p)) (producer : after.producer p = pc) :
    slack after = producerSlack pc := by
  rw [slack, mutex, ← producer]
  rfl

theorem slack_wake (pool : Pool n Producer) {chosen : Fin n → Bool}
    (only : ∀ w, chosen w = true → pool.worker w = .waiting) :
    slack (pool.wake chosen) = slack pool := by
  rw [slack, slack, Pool.wake]
  dsimp only
  rw [of_thread_wake_same only rfl]

variable [DecidableEq Producer]

theorem slack_producer_same {p : Producer} {pc : ProducerPc} (mutex : after.mutex = pool.mutex)
    (worker : after.worker = pool.worker)
    (producer : after.producer = Function.update pool.producer p pc)
    (same : producerSlack (pool.producer p) = producerSlack pc) : slack after = slack pool := by
  rw [slack, slack, mutex, worker, producer, of_thread_producer_same same]

theorem counted_producer {p : Producer} (sound : Monitor.Sound IsWorker (monitor pool))
    (counted : Counted pool) (next : ProducerStep pool p after) : Counted after := by
  have inside : (producerPhase (pool.producer p)).holds = true →
      pool.mutex = some (.producer p) := owner_of_producer sound
  cases next with
  | lock buf here free =>
      rw [Counted, slack_free free] at counted
      simpa [Counted, slack, Pool.setProducer, ofThread, producerSlack] using counted
  | push buf here =>
      have owner := inside (by rw [here]; rfl)
      rw [Counted, slack_producer owner here] at counted
      simp only [Counted, slack, owner, Pool.setProducer, ofThread, Option.elim_some,
        Function.update_self, producerSlack, List.length_append, List.length_singleton] at counted ⊢
      omega
  | count here =>
      have owner := inside (by rw [here]; rfl)
      rw [Counted, slack_producer owner here] at counted
      simp only [Counted, slack, owner, Pool.setProducer, ofThread, Option.elim_some,
        Function.update_self, producerSlack] at counted ⊢
      omega
  | unlock here =>
      rw [Counted, slack_producer (inside (by rw [here]; rfl)) here] at counted
      rw [Counted, slack_free rfl]
      exact counted
  | signal chosen here only one =>
      refine Eq.trans counted (congrArg _ (Eq.symm ?_))
      refine Eq.trans (slack_wake _ only) ?_
      exact slack_producer_same rfl rfl rfl (by simp [here, producerSlack])
  | done _ here =>
      refine Eq.trans counted (congrArg _ (Eq.symm ?_))
      exact slack_producer_same rfl rfl rfl (by simp [here, producerSlack])

theorem counted_step {act : Act n Producer} (sound : Monitor.Sound IsWorker (monitor pool))
    (counted : Counted pool) (next : Stepped pool act after) : Counted after := by
  cases next with
  | worker next => exact counted_worker sound counted next
  | spurious here =>
      refine Eq.trans counted (congrArg _ (Eq.symm ?_))
      exact slack_same rfl rfl rfl (by simp [here, workerSlack])
  | call here =>
      refine Eq.trans counted (congrArg _ (Eq.symm ?_))
      exact slack_producer_same rfl rfl rfl (by simp [here, producerSlack])
  | producer next => exact counted_producer sound counted next
  | stop next =>
      cases next with
      | broadcast here =>
          have same := slack_wake pool fun w choice => of_decide_eq_true choice
          exact Eq.trans counted (congrArg _ same.symm)
      | write | join | finish => exact counted

theorem running_step {act : Act n Producer} (counts : pool.iRunningThreadNum = running pool)
    (next : Stepped pool act after) : after.iRunningThreadNum = running after := by
  cases next with
  | worker next => exact running_worker counts next
  | spurious here => exact running_update counts rfl (by simp [here, busy, Pool.setWorker])
  | call here => exact counts
  | producer next =>
      cases next with
      | signal chosen here only one =>
          exact counts.trans (congrArg Int.ofNat (running_wake only).symm)
      | lock | push | count | unlock | done => exact counts
  | stop next =>
      cases next with
      | broadcast here =>
          exact counts.trans (congrArg Int.ofNat
            (running_wake fun w choice => of_decide_eq_true choice).symm)
      | write | join | finish => exact counts

theorem ready_step {act : Act n Producer} (sound : Monitor.Sound IsWorker (monitor pool))
    (ready : Ready pool) (next : Stepped pool act after) : Ready after := by
  cases next with
  | worker next => exact ready_worker sound ready next
  | @spurious w here =>
      rw [set_woken]
      exact ready_wake ready _
  | call here => exact ⟨ready.leaving, ready.fetching⟩
  | producer next =>
      cases next with
      | push buf here => exact ⟨fun _ _ => Or.inl (by simp), fun _ _ => by simp⟩
      | signal chosen here only one =>
          refine ready_wake ?_ chosen
          exact ⟨ready.leaving, ready.fetching⟩
      | lock | count | unlock | done => exact ⟨ready.leaving, ready.fetching⟩
  | stop next =>
      cases next with
      | write here runs => exact ⟨fun _ _ => Or.inr rfl, ready.fetching⟩
      | broadcast here =>
          have woken := ready_wake ready fun w => decide (pool.worker w = .waiting)
          exact ⟨woken.leaving, woken.fetching⟩
      | join | finish => exact ⟨ready.leaving, ready.fetching⟩

end Others

structure Invariant (pool : Pool n Producer) : Prop where
  sound : Monitor.Sound IsWorker (monitor pool)
  served : 0 < n → Monitor.Served IsWorker (monitor pool)
  numbered : Numbered pool
  fair : WorkQueue.Fair (workQueue pool)
  counted : Counted pool
  counts : pool.iRunningThreadNum = running pool
  ready : Ready pool

def Reachable [DecidableEq Producer] : Pool n Producer → Prop :=
  TransitionSystem.Reachable (fun pool => pool = Pool.create n Producer) step fun _ _ => True

theorem create_invariant : Invariant (Pool.create n Producer) where
  sound := by
    refine ⟨fun thread => ?_, fun thread here => ?_, fun thread here => ?_⟩ <;> cases thread <;>
      simp_all [monitor, Pool.create, ofThread, workerPhase, producerPhase, Monitor.Phase.holds]
  served := fun _ nonempty => absurd rfl nonempty
  numbered := rfl
  fair := by
    constructor <;> simp [workQueue, Pool.create, workerHand]
  counted := rfl
  counts := by simp [Pool.create, running, busy]
  ready := ⟨fun _ => nofun, fun _ => nofun⟩

theorem invariant_step [DecidableEq Producer] {act : Act n Producer} (holds : Invariant pool)
    (next : Stepped pool act after) : Invariant after where
  sound := by
    rcases monitor_step next with same | move
    · exact same ▸ holds.sound
    · exact Monitor.sound_move holds.sound move
  served := by
    intro some
    rcases monitor_step next with same | move
    · exact same ▸ holds.served some
    · exact Monitor.served_move holds.sound (holds.served some) ⟨.worker ⟨0, some⟩, _, rfl⟩ move
  numbered := numbered_step holds.numbered next
  fair := by
    rcases queue_step holds.numbered next with same | move
    · exact same ▸ holds.fair
    · exact WorkQueue.fair_move holds.fair move
  counted := counted_step holds.sound holds.counted next
  counts := running_step holds.counts next
  ready := ready_step holds.sound holds.ready next

theorem reachable_invariant [DecidableEq Producer] (reached : Reachable pool) :
    Invariant pool := by
  refine TransitionSystem.invariant_of_step Invariant ?_ ?_ reached
  · rintro start rfl
    exact create_invariant
  · exact fun before act after holds _ taken => invariant_step holds (stepped_of_step taken)

def remaining : WorkerPc → Nat
  | .fetching => 11
  | .fetched _ => 10
  | .unlocking _ => 9
  | .taken _ => 8
  | .running _ => 7
  | .processed _ => 6
  | .freed => 5
  | .beforeWait | .waiting => 5
  | .locking | .woken => 4
  | .testing => 3
  | .leaving => 2
  | .breaking => 1
  | .exited => 0

/-- Left alone, a worker frees the message it has in hand. -/
theorem hand_freed [DecidableEq Producer] {w : Fin n} {job : Job} {worked : Bool}
    (holds : workerHand (pool.worker w) = some (job, worked)) :
    ∃ later, TransitionSystem.Steps step (fun _ act => act = .worker w) pool later ∧
      job ∈ later.freed := by
  refine TransitionSystem.exists_steps_to (fun state => remaining (state.worker w))
    (fun state => job ∈ state.freed ∨ ∃ worked, workerHand (state.worker w) = some (job, worked))
    ?_ (Or.inr ⟨worked, holds⟩)
  rintro state (freed | ⟨worked, inHand⟩) unfreed
  · exact absurd freed unfreed
  · refine ⟨.worker w, ?_⟩
    cases here : state.worker w with
    | fetched found | unlocking found | taken found | running found | processed found =>
        rw [here] at inHand
        cases inHand
        refine ⟨_, rfl, by simp only [step, threadFunc, here]; rfl, ?_, ?_⟩
        · simp [Pool.setWorker, workerHand]
        · simp [Pool.setWorker, remaining]
    | locking | testing | beforeWait | waiting | woken | leaving | breaking | fetching | freed
    | exited =>
        rw [here] at inHand
        cases inHand

/-- First in, first out, and exactly once: what was taken is in the hand of
the one worker that took it, or was processed and freed once. -/
structure HandedOut (pool : Pool n Producer) : Prop where
  order : pool.enqueued = pool.taken.map Prod.snd ++ pool.msgRecvQueue
  once : (pool.taken.map Prod.snd).Nodup
  accounted : ∀ w job, (w, job) ∈ pool.taken →
    ((∃ worked, workerHand (pool.worker w) = some (job, worked)) ∧ job ∉ pool.freed) ∨
      (pool.processed.count job = 1 ∧ pool.freed.count job = 1)
  freedTaken : ∀ job ∈ pool.freed, job ∈ pool.processed ∧ ∃ w, (w, job) ∈ pool.taken

theorem fair_handed_out (fair : WorkQueue.Fair (workQueue pool)) : HandedOut pool where
  order := fair.order
  once := WorkQueue.fair_taken_nodup fair
  accounted := by
    intro w job listed
    rcases fair.accounted w job listed with ⟨worked, inHand⟩ | freed
    · exact Or.inl ⟨⟨worked, inHand⟩, (fair.held w job worked inHand).2.1⟩
    · exact Or.inr ⟨List.count_eq_one_of_mem fair.processedOnce (fair.processedFirst job freed),
        List.count_eq_one_of_mem fair.freedOnce freed⟩
  freedTaken := fun job freed => ⟨fair.processedFirst job freed, WorkQueue.fair_freed_taken fair freed⟩

/-- Work, all workers asleep, and nobody who will wake one. -/
def LostWakeUp (pool : Pool n Producer) : Prop :=
  pool.msgRecvQueue ≠ [] ∧ (∀ w, pool.worker w = .waiting) ∧
    ∀ p, signals (pool.producer p) = false

theorem not_lost (served : Monitor.Served IsWorker (monitor pool)) : ¬ LostWakeUp pool := by
  rintro ⟨work, asleep, silent⟩
  rcases served work with ⟨thread, owes⟩ | ⟨thread, ⟨w, rfl⟩, awake⟩
  · cases thread with
    | worker w => cases owes
    | producer p => exact Bool.false_ne_true ((silent p).symm.trans owes)
  · apply awake
    simp [monitor, ofThread, asleep w, workerPhase]

theorem running_le (pool : Pool n Producer) : running pool ≤ n := by
  have bound := Finset.sum_le_card_nsmul Finset.univ (fun w => busy (pool.worker w)) 1
    fun w _ => busy_le_one (pool.worker w)
  simpa [running] using bound

/-- In every interleaving of any number of producers, workers and a stop:
messages are handed out in order and exactly once, and a worker that has one
will free it; the queue counter is right whenever the mutex is free; no more
workers run than there are; and no wake-up is lost. -/
theorem worker_pool [DecidableEq Producer] (pool : Pool n Producer) (reached : Reachable pool) :
    HandedOut pool ∧
      (∀ w job, (w, job) ∈ pool.taken → job ∉ pool.freed →
        ∃ later, TransitionSystem.Steps step (fun _ act => act = .worker w) pool later ∧
          job ∈ later.freed) ∧
      (pool.mutex = none → pool.iRecvMsgQueueCount = pool.msgRecvQueue.length) ∧
      0 ≤ pool.iRunningThreadNum ∧ pool.iRunningThreadNum ≤ n ∧
      (0 < n → ¬ LostWakeUp pool) := by
  have holds := reachable_invariant reached
  have handedOut := fair_handed_out holds.fair
  refine ⟨handedOut, ?_, ?_, ?_, ?_, fun some => not_lost (holds.served some)⟩
  · intro w job listed unfreed
    rcases handedOut.accounted w job listed with ⟨⟨worked, inHand⟩, -⟩ | ⟨-, once⟩
    · exact hand_freed inHand
    · exact absurd (List.count_pos_iff.mp (by omega)) unfreed
  · intro free
    have counted := holds.counted
    rw [Counted, slack_free free] at counted
    omega
  · rw [holds.counts]
    exact Int.natCast_nonneg _
  · rw [holds.counts]
    exact Int.ofNat_le.mpr (running_le pool)

/-- A run of a pool that is given as a list of steps. -/
theorem reachable_of_exec [DecidableEq Producer] {acts : List (Act n Producer)}
    (executed : TransitionSystem.exec step (fun _ _ => true) (Pool.create n Producer) acts =
      some pool) : Reachable pool :=
  ⟨Pool.create n Producer, rfl, TransitionSystem.steps_of_exec (fun _ _ _ => trivial) executed⟩

end Invariants

def sampleRun : List (Act 2 Unit) :=
  List.replicate 3 (.worker 0) ++ List.replicate 3 (.worker 1) ++
    [.call () 7] ++ List.replicate 5 (.producer () (fun w => w = 0) 0) ++
      List.replicate 6 (.worker 0)

theorem worker_pool_sample :
    ∃ pool : Pool 2 Unit, (0, ⟨7, 0⟩) ∈ pool.taken ∧ pool.worker 1 = .waiting ∧
      pool.iRecvMsgQueueCount = pool.msgRecvQueue.length ∧ ¬ LostWakeUp pool ∧
      ∃ later, TransitionSystem.Steps step (fun _ act => act = .worker 0) pool later ∧
        ⟨7, 0⟩ ∈ later.freed := by
  have seen : (TransitionSystem.exec step (fun _ _ => true) (Pool.create 2 Unit) sampleRun).map
      (fun pool => decide ((0, ⟨7, 0⟩) ∈ pool.taken ∧ ⟨7, 0⟩ ∉ pool.freed ∧
        pool.mutex = none ∧ pool.worker 1 = .waiting)) = some true := by
    decide
  obtain ⟨pool, executed, same⟩ := Option.map_eq_some_iff.mp seen
  obtain ⟨listed, unfreed, free, waits⟩ := of_decide_eq_true same
  obtain ⟨-, frees, counts, -, -, wakes⟩ := worker_pool pool (reachable_of_exec executed)
  exact ⟨pool, listed, waits, counts free, wakes (by decide), frees 0 ⟨7, 0⟩ listed unfreed⟩

end NgxServer.WorkerPool
