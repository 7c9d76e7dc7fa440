import NgxServer.Lib.Monitor
import NgxServer.Lib.WorkQueue
import NgxServer.ThreadPool

/-!
# The message queue of the thread pool

The pool seen as a monitor, whose condition is that the queue is not empty,
and as a queue of work. Each step of a thread is a move of the one or leaves
it alone, and the same holds for the other.
-/

namespace NgxServer.WorkerQueue

open NgxServer.ThreadPool

set_option autoImplicit false

def workerPhase : WorkerPc → Monitor.Phase
  | .testing | .leaving | .breaking | .fetching | .fetched _ | .unlocking _ => .inside
  | .beforeWait => .committed
  | .waiting => .parked
  | .woken => .woken
  | .locking | .taken _ | .running _ | .processed _ | .freed | .exited => .outside

def producerPhase : ProducerPc → Monitor.Phase
  | .locked _ | .pushed | .counted => .inside
  | .idle | .called _ | .unlocked | .signalled => .outside

/-- Between `push_back` and `pthread_cond_signal`. -/
def signals : ProducerPc → Bool
  | .pushed | .counted | .unlocked => true
  | _ => false

theorem update_same {Index Value : Type} [DecidableEq Index] {values : Index → Value}
    {index : Index} (value : Value) (same : values index = value) :
    Function.update values index value = values := by
  rw [← same]
  exact Function.update_eq_self index values

section Views

variable {n : Nat} {Producer Value : Type}

def ofThread (ofWorker : WorkerPc → Value) (ofProducer : ProducerPc → Value)
    (worker : Fin n → WorkerPc) (producer : Producer → ProducerPc) : Holder n Producer → Value
  | .worker w => ofWorker (worker w)
  | .producer p => ofProducer (producer p)

def IsWorker (thread : Holder n Producer) : Prop := ∃ w, thread = .worker w

def monitor (pool : Pool n Producer) : Monitor.State (Holder n Producer) where
  owner := pool.mutex
  phase := ofThread workerPhase producerPhase pool.worker pool.producer
  owes := ofThread (fun _ => false) signals pool.worker pool.producer
  condition := pool.msgRecvQueue ≠ []

def picked (chosen : Fin n → Bool) : Holder n Producer → Bool
  | .worker w => chosen w
  | .producer _ => false

theorem set_woken (pool : Pool n Producer) (w : Fin n) :
    pool.setWorker w .woken = pool.wake fun found => decide (found = w) := by
  unfold Pool.setWorker Pool.wake
  congr
  funext found
  by_cases same : found = w <;> simp [same]

section Values

variable {ofWorker : WorkerPc → Value} {ofProducer : ProducerPc → Value}
  {worker : Fin n → WorkerPc} {producer : Producer → ProducerPc}

theorem of_thread_wake_same {chosen : Fin n → Bool}
    (only : ∀ w, chosen w = true → worker w = .waiting)
    (same : ofWorker .waiting = ofWorker .woken) :
    ofThread ofWorker ofProducer (fun w => if chosen w then .woken else worker w) producer =
      ofThread ofWorker ofProducer worker producer := by
  funext thread
  cases thread with
  | worker found =>
      unfold ofThread
      dsimp only
      split
      case isTrue choice => rw [only found choice, same]
      case isFalse => rfl
  | producer found => rfl

variable [DecidableEq Producer]

theorem of_thread_worker (w : Fin n) (pc : WorkerPc) :
    ofThread ofWorker ofProducer (Function.update worker w pc) producer =
      Function.update (ofThread ofWorker ofProducer worker producer) (.worker w)
        (ofWorker pc) := by
  funext thread
  cases thread with
  | worker found =>
      by_cases same : found = w
      · simp [ofThread, same]
      · simp [ofThread, same]
  | producer found => simp [ofThread]

theorem of_thread_producer (p : Producer) (pc : ProducerPc) :
    ofThread ofWorker ofProducer worker (Function.update producer p pc) =
      Function.update (ofThread ofWorker ofProducer worker producer) (.producer p)
        (ofProducer pc) := by
  funext thread
  cases thread with
  | worker found => simp [ofThread]
  | producer found =>
      by_cases same : found = p
      · simp [ofThread, same]
      · simp [ofThread, same]

theorem of_thread_worker_same {w : Fin n} {pc : WorkerPc}
    (same : ofWorker (worker w) = ofWorker pc) :
    ofThread ofWorker ofProducer (Function.update worker w pc) producer =
      ofThread ofWorker ofProducer worker producer := by
  rw [of_thread_worker]
  exact update_same _ same

theorem of_thread_producer_same {p : Producer} {pc : ProducerPc}
    (same : ofProducer (producer p) = ofProducer pc) :
    ofThread ofWorker ofProducer worker (Function.update producer p pc) =
      ofThread ofWorker ofProducer worker producer := by
  rw [of_thread_producer]
  exact update_same _ same

end Values

theorem phase_wake (worker : Fin n → WorkerPc) (producer : Producer → ProducerPc)
    (chosen : Fin n → Bool) :
    ofThread workerPhase producerPhase (fun w => if chosen w then .woken else worker w) producer =
      Monitor.wake (ofThread workerPhase producerPhase worker producer) (picked chosen) := by
  funext thread
  cases thread with
  | worker found =>
      by_cases choice : chosen found = true
      · simp [ofThread, Monitor.wake, picked, choice, workerPhase]
      · simp [ofThread, Monitor.wake, picked, choice]
  | producer found => simp [ofThread, Monitor.wake, picked]

theorem parked_iff (worker : Fin n → WorkerPc) (producer : Producer → ProducerPc)
    (thread : Holder n Producer) :
    ofThread workerPhase producerPhase worker producer thread = .parked ↔
      ∃ w, thread = .worker w ∧ worker w = .waiting := by
  cases thread with
  | worker found =>
      simp only [ofThread, Holder.worker.injEq, exists_eq_left']
      cases worker found <;> simp [workerPhase]
  | producer found =>
      simp only [ofThread, reduceCtorEq, false_and, exists_false, iff_false]
      cases producer found <;> simp [producerPhase]

theorem picked_parked {worker : Fin n → WorkerPc} {producer : Producer → ProducerPc}
    {chosen : Fin n → Bool} (only : ∀ w, chosen w = true → worker w = .waiting)
    (thread : Holder n Producer) (choice : picked chosen thread = true) :
    ofThread workerPhase producerPhase worker producer thread = .parked := by
  cases thread with
  | worker found => exact (parked_iff worker producer _).mpr ⟨found, rfl, only found choice⟩
  | producer found => cases choice

theorem picked_one {worker : Fin n → WorkerPc} {producer : Producer → ProducerPc}
    {chosen : Fin n → Bool} (one : (∃ w, worker w = .waiting) → ∃ w, chosen w = true)
    (parked : ∃ thread, ofThread workerPhase producerPhase worker producer thread = .parked) :
    ∃ thread : Holder n Producer, picked chosen thread = true := by
  obtain ⟨thread, here⟩ := parked
  obtain ⟨w, -, waits⟩ := (parked_iff worker producer thread).mp here
  obtain ⟨w, choice⟩ := one ⟨w, waits⟩
  exact ⟨.worker w, choice⟩

variable [DecidableEq Producer]

variable {pool after : Pool n Producer}

abbrev Moved (pool after : Pool n Producer) : Prop :=
  Monitor.Move IsWorker (monitor pool) (monitor after)

theorem moved_of_eq {next : Monitor.State (Holder n Producer)}
    (move : Monitor.Move IsWorker (monitor pool) next) (same : monitor after = next) :
    Moved pool after := by
  rw [Moved, same]
  exact move

/-- A worker goes on, and nothing else the monitor looks at changes apart from
the mutex and the queue. -/
theorem monitor_of_worker (pool : Pool n Producer) (w : Fin n) (pc : WorkerPc)
    (worker : after.worker = Function.update pool.worker w pc)
    (producer : after.producer = pool.producer) :
    monitor after =
      { monitor pool with
        owner := after.mutex
        phase := Function.update (monitor pool).phase (.worker w) (workerPhase pc)
        condition := after.msgRecvQueue ≠ [] } := by
  simp only [monitor, worker, producer]
  rw [of_thread_worker, of_thread_worker_same]
  rfl

theorem monitor_of_worker_same (pool : Pool n Producer) (w : Fin n) (pc : WorkerPc)
    (worker : after.worker = Function.update pool.worker w pc)
    (producer : after.producer = pool.producer)
    (same : workerPhase (pool.worker w) = workerPhase pc) :
    monitor after =
      { monitor pool with owner := after.mutex, condition := after.msgRecvQueue ≠ [] } := by
  have phase : (monitor pool).phase (.worker w) = workerPhase pc := same
  rw [monitor_of_worker pool w pc worker producer, update_same _ phase]

theorem monitor_of_producer (pool : Pool n Producer) (p : Producer) (pc : ProducerPc)
    (producer : after.producer = Function.update pool.producer p pc)
    (worker : after.worker = pool.worker) :
    monitor after =
      { owner := after.mutex
        phase := Function.update (monitor pool).phase (.producer p) (producerPhase pc)
        owes := Function.update (monitor pool).owes (.producer p) (signals pc)
        condition := after.msgRecvQueue ≠ [] } := by
  simp only [monitor, worker, producer]
  rw [of_thread_producer, of_thread_producer]

theorem monitor_worker {w : Fin n} (next : WorkerStep pool w after) :
    monitor after = monitor pool ∨ Moved pool after := by
  cases next with
  | lock here free =>
      refine Or.inr (moved_of_eq (.enter (.worker w) free ?_) ?_)
      · rcases here with here | here <;> simp [monitor, ofThread, here, workerPhase]
      · exact monitor_of_worker pool w .testing rfl rfl
  | commit here empty runs =>
      refine Or.inr (moved_of_eq (.commit (.worker w) ?_ ?_) ?_)
      · simp [monitor, ofThread, here, workerPhase]
      · simp [monitor, empty]
      · exact monitor_of_worker pool w .beforeWait rfl rfl
  | park here =>
      refine Or.inr (moved_of_eq (.park (.worker w) ?_ ⟨w, rfl⟩) ?_)
      · simp [monitor, ofThread, here, workerPhase]
      · exact monitor_of_worker pool w .waiting rfl rfl
  | exit here =>
      refine Or.inr (moved_of_eq (.exit (.worker w) ?_) ?_)
      · simp [monitor, ofThread, here, workerPhase]
      · exact monitor_of_worker pool w .exited rfl rfl
  | unlock job here =>
      refine Or.inr (moved_of_eq (.exit (.worker w) ?_) ?_)
      · simp [monitor, ofThread, here, workerPhase]
      · exact monitor_of_worker pool w (.taken job) rfl rfl
  | fetch job rest here first =>
      refine Or.inr (moved_of_eq (.consume (.worker w) ?_ (rest ≠ []) ?_) ?_)
      · simp [monitor, ofThread, here, workerPhase]
      · simp [monitor, first]
      · exact monitor_of_worker_same pool w (.fetched job) rfl rfl (by simp [here, workerPhase])
  | leave here | quit here | go here | count job here | start job here | process job here
  | free job here | again here =>
      left
      exact monitor_of_worker_same pool w _ rfl rfl (by simp [here, workerPhase])

theorem monitor_of_producer_same (pool : Pool n Producer) (p : Producer) (pc : ProducerPc)
    (producer : after.producer = Function.update pool.producer p pc)
    (worker : after.worker = pool.worker)
    (phase : producerPhase (pool.producer p) = producerPhase pc)
    (owes : signals (pool.producer p) = signals pc) :
    monitor after =
      { monitor pool with owner := after.mutex, condition := after.msgRecvQueue ≠ [] } := by
  have samePhase : (monitor pool).phase (.producer p) = producerPhase pc := phase
  have sameOwes : (monitor pool).owes (.producer p) = signals pc := owes
  rw [monitor_of_producer pool p pc producer worker, update_same _ samePhase,
    update_same _ sameOwes]

theorem monitor_producer {p : Producer} (next : ProducerStep pool p after) :
    monitor after = monitor pool ∨ Moved pool after := by
  cases next with
  | lock buf here free =>
      refine Or.inr (moved_of_eq (.enter (.producer p) free ?_) ?_)
      · simp [monitor, ofThread, here, producerPhase]
      · refine Eq.trans (monitor_of_producer pool p (.locked buf) rfl rfl) ?_
        rw [update_same (signals (.locked buf)) (by simp [monitor, ofThread, here, signals])]
        rfl
  | push buf here =>
      refine Or.inr (moved_of_eq (.fulfil (.producer p) ?_
        (pool.msgRecvQueue ++ [(⟨buf, pool.enqueued.length⟩ : Job)] ≠ [])) ?_)
      · simp [monitor, ofThread, here, producerPhase]
      · refine Eq.trans (monitor_of_producer pool p .pushed rfl rfl) ?_
        rw [update_same (producerPhase .pushed)
          (by simp [monitor, ofThread, here, producerPhase])]
        rfl
  | unlock here =>
      refine Or.inr (moved_of_eq (.exit (.producer p) ?_) ?_)
      · simp [monitor, ofThread, here, producerPhase]
      · refine Eq.trans (monitor_of_producer pool p .unlocked rfl rfl) ?_
        rw [update_same (signals .unlocked) (by simp [monitor, ofThread, here, signals])]
        rfl
  | signal chosen here only one =>
      refine Or.inr (moved_of_eq (.signal (.producer p) (picked chosen) ?_ ?_) ?_)
      · exact picked_parked only
      · exact picked_one one
      · simp only [monitor, Pool.wake, Pool.setProducer, phase_wake]
        rw [of_thread_producer_same (by simp [here, producerPhase]), of_thread_wake_same only rfl,
          of_thread_producer]
        rfl
  | count here | done _ here =>
      left
      exact monitor_of_producer_same pool p _ rfl rfl (by simp [here, producerPhase])
        (by simp [here, signals])

theorem monitor_wake {chosen : Fin n → Bool}
    (only : ∀ w, chosen w = true → pool.worker w = .waiting)
    (same : monitor after = monitor (pool.wake chosen)) : Moved pool after := by
  apply moved_of_eq (.disturb (picked chosen) (picked_parked only))
  rw [same]
  simp only [monitor, Pool.wake]
  rw [phase_wake, of_thread_wake_same only rfl]

theorem monitor_step {act : Act n Producer} (next : Stepped pool act after) :
    monitor after = monitor pool ∨ Moved pool after := by
  cases next with
  | worker next => exact monitor_worker next
  | @spurious w here =>
      refine Or.inr (monitor_wake ?_ (congrArg monitor (set_woken pool w)))
      intro found choice
      rw [of_decide_eq_true choice]
      exact here
  | call here =>
      left
      exact monitor_of_producer_same pool _ _ rfl rfl (by simp [here, producerPhase])
        (by simp [here, signals])
  | producer next => exact monitor_producer next
  | stop next =>
      cases next with
      | broadcast here =>
          exact Or.inr (monitor_wake (fun w choice => of_decide_eq_true choice) rfl)
      | write | join | finish => exact Or.inl rfl

end Views

section Queue

variable {n : Nat} {Producer : Type} {pool after : Pool n Producer}

def workerHand : WorkerPc → WorkQueue.Hand Job
  | .fetched job | .unlocking job | .taken job | .running job => some (job, false)
  | .processed job => some (job, true)
  | _ => none

def workQueue (pool : Pool n Producer) : WorkQueue.Queue (Fin n) Job where
  offered := pool.enqueued
  pending := pool.msgRecvQueue
  taken := pool.taken
  hand := fun w => workerHand (pool.worker w)
  processed := pool.processed
  freed := pool.freed

def Numbered (pool : Pool n Producer) : Prop :=
  pool.enqueued.map Job.ticket = List.range pool.enqueued.length

theorem numbered_fresh (numbered : Numbered pool) (buf : Nat) :
    (⟨buf, pool.enqueued.length⟩ : Job) ∉ pool.enqueued := by
  intro listed
  have small := List.mem_map_of_mem (f := Job.ticket) listed
  rw [numbered, List.mem_range] at small
  exact Nat.lt_irrefl _ small

theorem hands_update (worker : Fin n → WorkerPc) (w : Fin n) (pc : WorkerPc) :
    (fun found => workerHand (Function.update worker w pc found)) =
      Function.update (fun found => workerHand (worker found)) w (workerHand pc) := by
  funext found
  by_cases same : found = w
  · simp [same]
  · simp [same]

theorem hands_update_same {worker : Fin n → WorkerPc} {w : Fin n} {pc : WorkerPc}
    (same : workerHand (worker w) = workerHand pc) :
    (fun found => workerHand (Function.update worker w pc found)) =
      fun found => workerHand (worker found) := by
  rw [hands_update]
  exact update_same _ same

theorem hands_wake {worker : Fin n → WorkerPc} {chosen : Fin n → Bool}
    (only : ∀ w, chosen w = true → worker w = .waiting) :
    (fun found => workerHand (if chosen found then .woken else worker found)) =
      fun found => workerHand (worker found) := by
  funext found
  split
  case isTrue choice => rw [only found choice]; rfl
  case isFalse => rfl

abbrev Handled (pool after : Pool n Producer) : Prop :=
  WorkQueue.Move (workQueue pool) (workQueue after)

theorem handled_of_eq {next : WorkQueue.Queue (Fin n) Job}
    (move : WorkQueue.Move (workQueue pool) next) (same : workQueue after = next) :
    Handled pool after := by
  rw [Handled, same]
  exact move

theorem queue_worker {w : Fin n} (next : WorkerStep pool w after) :
    workQueue after = workQueue pool ∨ Handled pool after := by
  cases next with
  | fetch job rest here first =>
      refine Or.inr (handled_of_eq (.take w job rest ?_ first) ?_)
      · simp [workQueue, here, workerHand]
      · simp only [workQueue, Pool.setWorker, hands_update]
        rfl
  | process job here =>
      refine Or.inr (handled_of_eq (.process w job ?_) ?_)
      · simp [workQueue, here, workerHand]
      · simp only [workQueue, Pool.setWorker, hands_update]
        rfl
  | free job here =>
      refine Or.inr (handled_of_eq (.free w job ?_) ?_)
      · simp [workQueue, here, workerHand]
      · simp only [workQueue, Pool.setWorker, hands_update]
        rfl
  | lock here =>
      left
      simp only [workQueue, Pool.setWorker]
      rw [hands_update_same (by rcases here with here | here <;> simp [here, workerHand])]
  | commit here | leave here | park here | quit here | go here | exit here | count job here
  | unlock job here | start job here | again here =>
      left
      simp only [workQueue, Pool.setWorker]
      rw [hands_update_same (by simp [here, workerHand])]

variable [DecidableEq Producer]

theorem queue_step {act : Act n Producer} (numbered : Numbered pool)
    (next : Stepped pool act after) :
    workQueue after = workQueue pool ∨ Handled pool after := by
  cases next with
  | worker next => exact queue_worker next
  | spurious here =>
      left
      simp only [workQueue, Pool.setWorker]
      rw [hands_update_same (by simp [here, workerHand])]
  | call here => exact Or.inl rfl
  | producer next =>
      cases next with
      | push buf here => exact Or.inr (.offer _ (numbered_fresh numbered buf))
      | signal chosen here only one =>
          left
          simp only [workQueue, Pool.wake, Pool.setProducer]
          rw [hands_wake only]
      | lock | count | unlock | done => exact Or.inl rfl
  | stop next =>
      cases next with
      | broadcast here =>
          left
          simp only [workQueue, Pool.wake]
          rw [hands_wake fun w choice => of_decide_eq_true choice]
      | write | join | finish => exact Or.inl rfl

theorem numbered_step {act : Act n Producer} (numbered : Numbered pool)
    (next : Stepped pool act after) : Numbered after := by
  cases next with
  | worker next => cases next <;> exact numbered
  | spurious here => exact numbered
  | call here => exact numbered
  | producer next =>
      cases next with
      | push buf here =>
          simp only [Numbered, List.map_append, List.length_append, List.range_add] at numbered ⊢
          rw [numbered]
          simp
      | lock | count | unlock | signal | done => exact numbered
  | stop next => cases next <;> exact numbered

end Queue

end NgxServer.WorkerQueue
