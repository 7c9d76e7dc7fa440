import Mathlib.Data.Fin.Basic
import Mathlib.Logic.Function.Basic
import NgxServer.Lib.TransitionSystem

/-!
# The thread pool, instruction by instruction

`CThreadPool` of `ngx_c_threadpool.cxx`: the loop of `ThreadFunc`, the function
`inMsgRecvQueueAndSignal` with `Call`, and `StopAll`, cut into the steps that
can interleave. A step that another thread cannot observe the inside of is one
step; `pthread_cond_wait` gives up the mutex and blocks in one step.
-/

namespace NgxServer.ThreadPool

set_option autoImplicit false

/-- A message in the queue. The ticket is a ghost: how many messages were
enqueued before it. -/
structure Job where
  buf : Nat
  ticket : Nat
  deriving DecidableEq, Repr

inductive WorkerPc
  /-- before `pthread_mutex_lock` -/
  | locking
  /-- at the condition of the inner loop -/
  | testing
  /-- the condition held, before `pthread_cond_wait` -/
  | beforeWait
  /-- blocked in `pthread_cond_wait` -/
  | waiting
  /-- in `pthread_cond_wait`, woken, before it has the mutex again -/
  | woken
  /-- behind the inner loop, before the test of `m_shutdown` -/
  | leaving
  /-- before the `pthread_mutex_unlock` that is followed by `break` -/
  | breaking
  /-- before `front` and `pop_front` -/
  | fetching
  /-- before `--m_iRecvMsgQueueCount` -/
  | fetched (job : Job)
  /-- before `pthread_mutex_unlock` -/
  | unlocking (job : Job)
  /-- before `++m_iRunningThreadNum` -/
  | taken (job : Job)
  /-- before `threadRecvProcFunc` -/
  | running (job : Job)
  /-- before `FreeMemory` -/
  | processed (job : Job)
  /-- before `--m_iRunningThreadNum` -/
  | freed
  | exited
  deriving DecidableEq, Repr

inductive ProducerPc
  | idle
  /-- before `pthread_mutex_lock` -/
  | called (buf : Nat)
  /-- before `push_back` -/
  | locked (buf : Nat)
  /-- before `++m_iRecvMsgQueueCount` -/
  | pushed
  /-- before `pthread_mutex_unlock` -/
  | counted
  /-- before the `pthread_cond_signal` of `Call` -/
  | unlocked
  /-- in the rest of `Call` -/
  | signalled
  deriving DecidableEq, Repr

inductive StopPc
  | notCalled
  /-- `m_shutdown` is written -/
  | written
  /-- before the `pthread_join` of a worker -/
  | joining (next : Nat)
  | returned
  deriving DecidableEq, Repr

inductive Holder (n : Nat) (Producer : Type)
  | worker (w : Fin n)
  | producer (p : Producer)
  deriving DecidableEq

/-- A pool of `n` threads, with the threads that enqueue messages. The last
four members are ghosts. -/
structure Pool (n : Nat) (Producer : Type) where
  mutex : Option (Holder n Producer)
  msgRecvQueue : List Job
  iRecvMsgQueueCount : Int
  iRunningThreadNum : Int
  iLastEmgTime : Int
  mShutdown : Bool
  worker : Fin n → WorkerPc
  ifrunning : Fin n → Bool
  producer : Producer → ProducerPc
  stop : StopPc
  enqueued : List Job
  taken : List (Fin n × Job)
  processed : List Job
  freed : List Job

section Steps

variable {n : Nat} {Producer : Type}

def Pool.create (n : Nat) (Producer : Type) : Pool n Producer where
  mutex := none
  msgRecvQueue := []
  iRecvMsgQueueCount := 0
  iRunningThreadNum := 0
  iLastEmgTime := 0
  mShutdown := false
  worker := fun _ => .locking
  ifrunning := fun _ => false
  producer := fun _ => .idle
  stop := .notCalled
  enqueued := []
  taken := []
  processed := []
  freed := []

def Pool.setWorker (pool : Pool n Producer) (w : Fin n) (pc : WorkerPc) : Pool n Producer :=
  { pool with worker := Function.update pool.worker w pc }

def Pool.setProducer [DecidableEq Producer] (pool : Pool n Producer) (p : Producer)
    (pc : ProducerPc) : Pool n Producer :=
  { pool with producer := Function.update pool.producer p pc }

/-- The next step of a worker; `none` where it is blocked or gone. -/
def threadFunc (pool : Pool n Producer) (w : Fin n) : Option (Pool n Producer) :=
  match pool.worker w with
  | .locking | .woken =>
      if pool.mutex = none then
        some { pool.setWorker w .testing with mutex := some (.worker w) }
      else none
  | .testing =>
      if pool.msgRecvQueue = [] ∧ pool.mShutdown = false then
        some
          { pool.setWorker w .beforeWait with
            ifrunning := Function.update pool.ifrunning w true }
      else some (pool.setWorker w .leaving)
  | .beforeWait => some { pool.setWorker w .waiting with mutex := none }
  | .waiting => none
  | .leaving => some (pool.setWorker w (if pool.mShutdown then .breaking else .fetching))
  | .breaking => some { pool.setWorker w .exited with mutex := none }
  | .fetching =>
      match pool.msgRecvQueue with
      | [] => none
      | job :: rest =>
          some
            { pool.setWorker w (.fetched job) with
              msgRecvQueue := rest
              taken := pool.taken ++ [(w, job)] }
  | .fetched job =>
      some
        { pool.setWorker w (.unlocking job) with
          iRecvMsgQueueCount := pool.iRecvMsgQueueCount - 1 }
  | .unlocking job => some { pool.setWorker w (.taken job) with mutex := none }
  | .taken job =>
      some
        { pool.setWorker w (.running job) with iRunningThreadNum := pool.iRunningThreadNum + 1 }
  | .running job =>
      some { pool.setWorker w (.processed job) with processed := pool.processed ++ [job] }
  | .processed job => some { pool.setWorker w .freed with freed := pool.freed ++ [job] }
  | .freed =>
      some { pool.setWorker w .locking with iRunningThreadNum := pool.iRunningThreadNum - 1 }
  | .exited => none

def Pool.wake (pool : Pool n Producer) (chosen : Fin n → Bool) : Pool n Producer :=
  { pool with worker := fun w => if chosen w then .woken else pool.worker w }

/-- `pthread_cond_signal` wakes at least one of the waiting threads, if there
is one. -/
def signalPossible (pool : Pool n Producer) (chosen : Fin n → Bool) : Bool :=
  decide ((∀ w, chosen w = true → pool.worker w = .waiting) ∧
    ((∃ w, pool.worker w = .waiting) → ∃ w, chosen w = true))

def inMsgRecvQueueAndSignal [DecidableEq Producer] (pool : Pool n Producer) (p : Producer)
    (chosen : Fin n → Bool) (currtime : Int) : Option (Pool n Producer) :=
  match pool.producer p with
  | .idle => none
  | .called buf =>
      if pool.mutex = none then
        some { pool.setProducer p (.locked buf) with mutex := some (.producer p) }
      else none
  | .locked buf =>
      some
        { pool.setProducer p .pushed with
          msgRecvQueue := pool.msgRecvQueue ++ [⟨buf, pool.enqueued.length⟩]
          enqueued := pool.enqueued ++ [⟨buf, pool.enqueued.length⟩] }
  | .pushed =>
      some
        { pool.setProducer p .counted with iRecvMsgQueueCount := pool.iRecvMsgQueueCount + 1 }
  | .counted => some { pool.setProducer p .unlocked with mutex := none }
  | .unlocked =>
      if signalPossible pool chosen then some ((pool.setProducer p .signalled).wake chosen)
      else none
  | .signalled =>
      some
        { pool.setProducer p .idle with
          iLastEmgTime :=
            if (n : Int) = pool.iRunningThreadNum ∧ currtime - pool.iLastEmgTime > 10 then currtime
            else pool.iLastEmgTime }

/-- The next step of `StopAll`; the join of a worker that has not ended
blocks. -/
def stopAll (pool : Pool n Producer) : Option (Pool n Producer) :=
  match pool.stop with
  | .notCalled =>
      if pool.mShutdown = true then some { pool with stop := .returned }
      else some { pool with mShutdown := true, stop := .written }
  | .written =>
      some { pool.wake fun w => decide (pool.worker w = .waiting) with stop := .joining 0 }
  | .joining next =>
      if more : next < n then
        if pool.worker ⟨next, more⟩ = .exited then some { pool with stop := .joining (next + 1) }
        else none
      else some { pool with stop := .returned }
  | .returned => none

inductive Act (n : Nat) (Producer : Type)
  /-- the next step of a worker -/
  | worker (w : Fin n)
  /-- `pthread_cond_wait` wakes up without a signal -/
  | spurious (w : Fin n)
  /-- a call of `inMsgRecvQueueAndSignal` -/
  | call (p : Producer) (buf : Nat)
  /-- the next step of such a call -/
  | producer (p : Producer) (chosen : Fin n → Bool) (currtime : Int)
  /-- the next step of `StopAll`, the first one being its call -/
  | stop

def step [DecidableEq Producer] (pool : Pool n Producer) :
    Act n Producer → Option (Pool n Producer)
  | .worker w => threadFunc pool w
  | .spurious w => if pool.worker w = .waiting then some (pool.setWorker w .woken) else none
  | .call p buf =>
      if pool.producer p = .idle then some (pool.setProducer p (.called buf)) else none
  | .producer p chosen currtime => inMsgRecvQueueAndSignal pool p chosen currtime
  | .stop => stopAll pool

inductive WorkerStep (pool : Pool n Producer) (w : Fin n) : Pool n Producer → Prop
  | lock (here : pool.worker w = .locking ∨ pool.worker w = .woken) (free : pool.mutex = none) :
      WorkerStep pool w { pool.setWorker w .testing with mutex := some (.worker w) }
  | commit (here : pool.worker w = .testing) (empty : pool.msgRecvQueue = [])
      (runs : pool.mShutdown = false) :
      WorkerStep pool w
        { pool.setWorker w .beforeWait with
          ifrunning := Function.update pool.ifrunning w true }
  | leave (here : pool.worker w = .testing)
      (ready : pool.msgRecvQueue ≠ [] ∨ pool.mShutdown = true) :
      WorkerStep pool w (pool.setWorker w .leaving)
  | park (here : pool.worker w = .beforeWait) :
      WorkerStep pool w { pool.setWorker w .waiting with mutex := none }
  | quit (here : pool.worker w = .leaving) (stopped : pool.mShutdown = true) :
      WorkerStep pool w (pool.setWorker w .breaking)
  | go (here : pool.worker w = .leaving) (runs : pool.mShutdown = false) :
      WorkerStep pool w (pool.setWorker w .fetching)
  | exit (here : pool.worker w = .breaking) :
      WorkerStep pool w { pool.setWorker w .exited with mutex := none }
  | fetch (job : Job) (rest : List Job) (here : pool.worker w = .fetching)
      (first : pool.msgRecvQueue = job :: rest) :
      WorkerStep pool w
        { pool.setWorker w (.fetched job) with
          msgRecvQueue := rest
          taken := pool.taken ++ [(w, job)] }
  | count (job : Job) (here : pool.worker w = .fetched job) :
      WorkerStep pool w
        { pool.setWorker w (.unlocking job) with
          iRecvMsgQueueCount := pool.iRecvMsgQueueCount - 1 }
  | unlock (job : Job) (here : pool.worker w = .unlocking job) :
      WorkerStep pool w { pool.setWorker w (.taken job) with mutex := none }
  | start (job : Job) (here : pool.worker w = .taken job) :
      WorkerStep pool w
        { pool.setWorker w (.running job) with iRunningThreadNum := pool.iRunningThreadNum + 1 }
  | process (job : Job) (here : pool.worker w = .running job) :
      WorkerStep pool w
        { pool.setWorker w (.processed job) with processed := pool.processed ++ [job] }
  | free (job : Job) (here : pool.worker w = .processed job) :
      WorkerStep pool w { pool.setWorker w .freed with freed := pool.freed ++ [job] }
  | again (here : pool.worker w = .freed) :
      WorkerStep pool w
        { pool.setWorker w .locking with iRunningThreadNum := pool.iRunningThreadNum - 1 }

theorem worker_step {pool after : Pool n Producer} {w : Fin n}
    (taken : threadFunc pool w = some after) : WorkerStep pool w after := by
  unfold threadFunc at taken
  split at taken
  case h_1 here =>
    obtain ⟨free, same⟩ := Option.ite_none_right_eq_some.mp taken
    cases same
    exact WorkerStep.lock (Or.inl here) free
  case h_2 here =>
    obtain ⟨free, same⟩ := Option.ite_none_right_eq_some.mp taken
    cases same
    exact WorkerStep.lock (Or.inr here) free
  case h_3 here =>
    split at taken
    case isTrue waits =>
      cases taken
      exact WorkerStep.commit here waits.1 waits.2
    case isFalse ready =>
      cases taken
      apply WorkerStep.leave here
      rwa [not_and_or, Bool.not_eq_false] at ready
  case h_4 here =>
    cases taken
    exact WorkerStep.park here
  case h_5 => cases taken
  case h_6 here =>
    cases taken
    cases stopped : pool.mShutdown with
    | true => exact WorkerStep.quit here stopped
    | false => exact WorkerStep.go here stopped
  case h_7 here =>
    cases taken
    exact WorkerStep.exit here
  case h_8 here =>
    split at taken
    case h_1 => cases taken
    case h_2 job rest first =>
      cases taken
      exact WorkerStep.fetch job rest here first
  case h_9 job here =>
    cases taken
    exact WorkerStep.count job here
  case h_10 job here =>
    cases taken
    exact WorkerStep.unlock job here
  case h_11 job here =>
    cases taken
    exact WorkerStep.start job here
  case h_12 job here =>
    cases taken
    exact WorkerStep.process job here
  case h_13 job here =>
    cases taken
    exact WorkerStep.free job here
  case h_14 here =>
    cases taken
    exact WorkerStep.again here
  case h_15 => cases taken

inductive ProducerStep [DecidableEq Producer] (pool : Pool n Producer) (p : Producer) :
    Pool n Producer → Prop
  | lock (buf : Nat) (here : pool.producer p = .called buf) (free : pool.mutex = none) :
      ProducerStep pool p
        { pool.setProducer p (.locked buf) with mutex := some (.producer p) }
  | push (buf : Nat) (here : pool.producer p = .locked buf) :
      ProducerStep pool p
        { pool.setProducer p .pushed with
          msgRecvQueue := pool.msgRecvQueue ++ [⟨buf, pool.enqueued.length⟩]
          enqueued := pool.enqueued ++ [⟨buf, pool.enqueued.length⟩] }
  | count (here : pool.producer p = .pushed) :
      ProducerStep pool p
        { pool.setProducer p .counted with iRecvMsgQueueCount := pool.iRecvMsgQueueCount + 1 }
  | unlock (here : pool.producer p = .counted) :
      ProducerStep pool p { pool.setProducer p .unlocked with mutex := none }
  | signal (chosen : Fin n → Bool) (here : pool.producer p = .unlocked)
      (only : ∀ w, chosen w = true → pool.worker w = .waiting)
      (one : (∃ w, pool.worker w = .waiting) → ∃ w, chosen w = true) :
      ProducerStep pool p ((pool.setProducer p .signalled).wake chosen)
  | done (iLastEmgTime : Int) (here : pool.producer p = .signalled) :
      ProducerStep pool p { pool.setProducer p .idle with iLastEmgTime := iLastEmgTime }

theorem producer_step [DecidableEq Producer] {pool after : Pool n Producer} {p : Producer}
    {chosen : Fin n → Bool} {currtime : Int}
    (taken : inMsgRecvQueueAndSignal pool p chosen currtime = some after) :
    ProducerStep pool p after := by
  unfold inMsgRecvQueueAndSignal at taken
  split at taken
  case h_1 => cases taken
  case h_2 buf here =>
    obtain ⟨free, same⟩ := Option.ite_none_right_eq_some.mp taken
    cases same
    exact ProducerStep.lock buf here free
  case h_3 buf here =>
    cases taken
    exact ProducerStep.push buf here
  case h_4 here =>
    cases taken
    exact ProducerStep.count here
  case h_5 here =>
    cases taken
    exact ProducerStep.unlock here
  case h_6 here =>
    obtain ⟨possible, same⟩ := Option.ite_none_right_eq_some.mp taken
    cases same
    obtain ⟨only, one⟩ := of_decide_eq_true possible
    exact ProducerStep.signal chosen here only one
  case h_7 here =>
    cases taken
    exact ProducerStep.done _ here

inductive StopStep (pool : Pool n Producer) : Pool n Producer → Prop
  | write (here : pool.stop = .notCalled) (runs : pool.mShutdown = false) :
      StopStep pool { pool with mShutdown := true, stop := .written }
  | broadcast (here : pool.stop = .written) :
      StopStep pool
        { pool.wake fun w => decide (pool.worker w = .waiting) with stop := .joining 0 }
  | join (next : Nat) (here : pool.stop = .joining next) (more : next < n)
      (ended : pool.worker ⟨next, more⟩ = .exited) :
      StopStep pool { pool with stop := .joining (next + 1) }
  | finish (here : pool.stop = .notCalled ∧ pool.mShutdown = true ∨
      ∃ next, pool.stop = .joining next ∧ n ≤ next) :
      StopStep pool { pool with stop := .returned }

theorem stop_step {pool after : Pool n Producer} (taken : stopAll pool = some after) :
    StopStep pool after := by
  unfold stopAll at taken
  split at taken
  case h_1 here =>
    split at taken
    case isTrue stopped =>
      cases taken
      exact StopStep.finish (Or.inl ⟨here, stopped⟩)
    case isFalse runs =>
      cases taken
      exact StopStep.write here (Bool.eq_false_of_not_eq_true runs)
  case h_2 here =>
    cases taken
    exact StopStep.broadcast here
  case h_3 next here =>
    split at taken
    case isTrue more =>
      obtain ⟨ended, same⟩ := Option.ite_none_right_eq_some.mp taken
      cases same
      exact StopStep.join next here more ended
    case isFalse less =>
      cases taken
      exact StopStep.finish (Or.inr ⟨next, here, Nat.le_of_not_lt less⟩)
  case h_4 => cases taken

inductive Stepped [DecidableEq Producer] (pool : Pool n Producer) :
    Act n Producer → Pool n Producer → Prop
  | worker {w : Fin n} {after : Pool n Producer} (next : WorkerStep pool w after) :
      Stepped pool (.worker w) after
  | spurious {w : Fin n} (here : pool.worker w = .waiting) :
      Stepped pool (.spurious w) (pool.setWorker w .woken)
  | call {p : Producer} {buf : Nat} (here : pool.producer p = .idle) :
      Stepped pool (.call p buf) (pool.setProducer p (.called buf))
  | producer {p : Producer} {chosen : Fin n → Bool} {currtime : Int} {after : Pool n Producer}
      (next : ProducerStep pool p after) : Stepped pool (.producer p chosen currtime) after
  | stop {after : Pool n Producer} (next : StopStep pool after) : Stepped pool .stop after

theorem stepped_of_step [DecidableEq Producer] {pool after : Pool n Producer}
    {act : Act n Producer} (taken : step pool act = some after) : Stepped pool act after := by
  cases act with
  | worker w => exact Stepped.worker (worker_step taken)
  | spurious w =>
      obtain ⟨here, same⟩ := Option.ite_none_right_eq_some.mp taken
      cases same
      exact Stepped.spurious here
  | call p buf =>
      obtain ⟨here, same⟩ := Option.ite_none_right_eq_some.mp taken
      cases same
      exact Stepped.call here
  | producer p chosen currtime => exact Stepped.producer (producer_step taken)
  | stop => exact Stepped.stop (stop_step taken)

end Steps

end NgxServer.ThreadPool
