import NgxServer.WorkerPool

/-!
# Starting the thread pool

`CThreadPool::Create` starts its threads one after the other and then looks
again and again, without the mutex, whether each of them has set `ifrunning`. A
thread does so when it finds for the first time that it has to wait. The main
thread is in `Create` until then, and it is the one that calls
`inMsgRecvQueueAndSignal` and `StopAll`.
-/

namespace NgxServer.ThreadStart

open NgxServer.ThreadPool NgxServer.WorkerQueue NgxServer.WorkerPool

set_option autoImplicit false

inductive CreatePc
  /-- before the `pthread_create` of a thread -/
  | creating (next : Nat)
  /-- behind `lblfor`, at the test of a thread -/
  | scanning (next : Nat)
  | returned (ok : Bool)
  deriving DecidableEq, Repr

/-- The pool while it is started; the threads before the first `threads` run. -/
structure Start (n : Nat) (Producer : Type) where
  pool : Pool n Producer
  threads : Nat
  create : CreatePc

section Steps

variable {n : Nat} {Producer : Type}

def Start.called (n : Nat) (Producer : Type) : Start n Producer where
  pool := Pool.create n Producer
  threads := 0
  create := .creating 0

def create (start : Start n Producer) (created : Bool) : Option (Start n Producer) :=
  match start.create with
  | .creating next =>
      if next < n then
        if created then some { start with threads := next + 1, create := .creating (next + 1) }
        else some { start with create := .returned false }
      else some { start with create := .scanning 0 }
  | .scanning next =>
      if more : next < n then
        if start.pool.ifrunning ⟨next, more⟩ then some { start with create := .scanning (next + 1) }
        else some { start with create := .scanning 0 }
      else some { start with create := .returned true }
  | .returned _ => none

inductive Act (n : Nat) (Producer : Type)
  /-- the next step of `Create` -/
  | create (created : Bool)
  /-- a step of the pool -/
  | pool (act : ThreadPool.Act n Producer)

/-- Threads that have been started run; the calls come from the main thread. -/
def Present (start : Start n Producer) : ThreadPool.Act n Producer → Prop
  | .worker w | .spurious w => w < start.threads
  | .call _ _ | .producer _ _ _ | .stop => start.create = .returned true

instance (start : Start n Producer) : (act : ThreadPool.Act n Producer) →
    Decidable (Present start act)
  | .worker w | .spurious w => inferInstanceAs (Decidable (w.val < start.threads))
  | .call _ _ | .producer _ _ _ | .stop =>
      inferInstanceAs (Decidable (start.create = .returned true))

variable [DecidableEq Producer]

def startStep (start : Start n Producer) : Act n Producer → Option (Start n Producer)
  | .create created => create start created
  | .pool act =>
      if Present start act then (step start.pool act).map fun pool => { start with pool := pool }
      else none

def StartReachable : Start n Producer → Prop :=
  TransitionSystem.Reachable (fun start => start = Start.called n Producer) startStep
    fun _ _ => True

end Steps

def Early (ifrunning : Bool) : WorkerPc → Prop
  | .locking => ifrunning = false
  | .testing => True
  | .beforeWait | .waiting | .woken => ifrunning = true
  | _ => False

structure Untouched {n : Nat} {Producer : Type} (pool : Pool n Producer) : Prop where
  enqueued : pool.enqueued = []
  stop : pool.stop = .notCalled
  idle : ∀ p, pool.producer p = .idle

structure Starting {n : Nat} {Producer : Type} (start : Start n Producer) : Prop where
  bounded : start.threads ≤ n
  creating : ∀ next, start.create = .creating next → start.threads = next
  scanning : ∀ next, start.create = .scanning next →
    start.threads = n ∧ ∀ w : Fin n, w < next → start.pool.ifrunning w = true
  returned : start.create = .returned true →
    start.threads = n ∧ ∀ w, start.pool.ifrunning w = true
  unborn : ∀ w : Fin n, start.threads ≤ w →
    start.pool.worker w = .locking ∧ start.pool.ifrunning w = false
  alone : start.create ≠ .returned true → Untouched start.pool
  empty : start.pool.enqueued = [] → start.pool.msgRecvQueue = []
  runs : start.pool.stop = .notCalled → start.pool.mShutdown = false
  early : start.pool.enqueued = [] → start.pool.stop = .notCalled →
    ∀ w, Early (start.pool.ifrunning w) (start.pool.worker w)

section Invariant

variable {n : Nat} {Producer : Type} {pool next : Pool n Producer} {w : Fin n}

structure WorkerKeeps (w : Fin n) (pool next : Pool n Producer) : Prop where
  enqueued : next.enqueued = pool.enqueued
  stop : next.stop = pool.stop
  producer : next.producer = pool.producer
  shutdown : next.mShutdown = pool.mShutdown
  queue : pool.msgRecvQueue = [] → next.msgRecvQueue = []
  others : ∀ v, v ≠ w → next.worker v = pool.worker v ∧ next.ifrunning v = pool.ifrunning v
  monotone : ∀ v, pool.ifrunning v = true → next.ifrunning v = true

theorem worker_keeps (moved : WorkerStep pool w next) : WorkerKeeps w pool next := by
  have apart : ∀ (pc : WorkerPc) v, v ≠ w → (Function.update pool.worker w pc) v = pool.worker v :=
    fun pc v other => Function.update_of_ne other _ _
  cases moved with
  | commit here empty runs =>
      constructor
      case others =>
        intro v other
        exact ⟨apart _ v other, Function.update_of_ne other _ _⟩
      case monotone =>
        intro v already
        change Function.update pool.ifrunning w true v = true
        by_cases same : v = w
        · rw [same, Function.update_self]
        · rw [Function.update_of_ne same, already]
      case queue => exact fun none => none
      all_goals rfl
  | fetch job rest here first =>
      constructor
      case others => exact fun v other => ⟨apart _ v other, rfl⟩
      case monotone => exact fun _ already => already
      case queue =>
        intro none
        rw [first] at none
        cases none
      all_goals rfl
  | _ =>
      constructor
      case others => exact fun v other => ⟨apart _ v other, rfl⟩
      case monotone => exact fun _ already => already
      case queue => exact fun none => none
      all_goals rfl

/-- Before there was a message a worker locks, tests, and waits. -/
theorem early_worker (moved : WorkerStep pool w next) (empty : pool.msgRecvQueue = [])
    (runs : pool.mShutdown = false) (early : Early (pool.ifrunning w) (pool.worker w)) :
    Early (next.ifrunning w) (next.worker w) := by
  have there : ∀ pc, (Function.update pool.worker w pc) w = pc :=
    fun pc => Function.update_self w pc pool.worker
  cases moved with
  | lock here free =>
      change Early _ (Function.update pool.worker w .testing w)
      rw [there]
      trivial
  | commit here _ _ =>
      change Early (Function.update pool.ifrunning w true w)
        (Function.update pool.worker w .beforeWait w)
      rw [there, Function.update_self]
      rfl
  | leave here ready =>
      rw [empty, runs] at ready
      simp at ready
  | park here =>
      change Early (pool.ifrunning w) (Function.update pool.worker w .waiting w)
      rw [here] at early
      rw [there]
      exact early
  | quit here | go here | exit here | fetch _ _ here | count _ here | unlock _ here
  | start _ here | process _ here | free _ here | again here =>
      rw [here] at early
      exact early.elim

variable {start : Start n Producer}

theorem called_starting : Starting (Start.called n Producer) where
  bounded := Nat.zero_le n
  creating := by
    intro next here
    cases here
    rfl
  scanning := fun _ here => by cases here
  returned := fun here => by cases here
  unborn := fun _ _ => ⟨rfl, rfl⟩
  alone := fun _ => ⟨rfl, rfl, fun _ => rfl⟩
  empty := fun _ => rfl
  runs := fun _ => rfl
  early := fun _ _ _ => rfl

theorem starting_at (starting : Starting start) (pc : CreatePc)
    (untouched : Untouched start.pool)
    (creating : ∀ next, pc = .creating next → start.threads = next)
    (scanning : ∀ next, pc = .scanning next →
      start.threads = n ∧ ∀ w : Fin n, w < next → start.pool.ifrunning w = true)
    (returned : pc = .returned true →
      start.threads = n ∧ ∀ w, start.pool.ifrunning w = true) :
    Starting { start with create := pc } where
  bounded := starting.bounded
  creating := creating
  scanning := scanning
  returned := returned
  unborn := starting.unborn
  alone := fun _ => untouched
  empty := starting.empty
  runs := starting.runs
  early := starting.early

theorem starting_create {after : Start n Producer} {created : Bool} (starting : Starting start)
    (taken : create start created = some after) : Starting after := by
  have alone : start.create ≠ .returned true → Untouched start.pool := starting.alone
  unfold create at taken
  split at taken
  case h_1 next here =>
    have untouched : Untouched start.pool := alone (by simp [here])
    have made := starting.creating next here
    split at taken
    case isTrue more =>
      split at taken
      case isTrue success =>
        cases taken
        constructor
        case bounded => exact more
        case creating =>
          intro later same
          cases same
          rfl
        case scanning => exact fun _ same => by cases same
        case returned => exact fun same => by cases same
        case unborn =>
          intro w behind
          have above : next + 1 ≤ w.val := behind
          exact starting.unborn w (by omega)
        case alone => exact fun _ => untouched
        case empty => exact starting.empty
        case runs => exact starting.runs
        case early => exact starting.early
      case isFalse =>
        cases taken
        apply starting_at starting _ untouched
        case creating => exact fun _ same => by cases same
        case scanning => exact fun _ same => by cases same
        case returned => exact fun same => by cases same
    case isFalse all =>
      cases taken
      have bounded := starting.bounded
      apply starting_at starting _ untouched
      case creating => exact fun _ same => by cases same
      case scanning =>
        intro later same
        cases same
        exact ⟨by omega, fun w before => absurd before (Nat.not_lt_zero _)⟩
      case returned => exact fun same => by cases same
  case h_2 next here =>
    have untouched : Untouched start.pool := alone (by simp [here])
    obtain ⟨all, seen⟩ := starting.scanning next here
    have scans : ∀ place : Nat, (∀ w : Fin n, w < place → start.pool.ifrunning w = true) →
        Starting { start with create := .scanning place } := by
      intro place found
      apply starting_at starting _ untouched
      case creating => exact fun _ same => by cases same
      case scanning =>
        intro later same
        cases same
        exact ⟨all, found⟩
      case returned => exact fun same => by cases same
    split at taken
    case isTrue more =>
      split at taken
      case isTrue running =>
        cases taken
        apply scans
        intro w before
        rcases Nat.lt_succ_iff_lt_or_eq.mp before with earlier | same
        · exact seen w earlier
        · have found : w = ⟨next, more⟩ := Fin.ext same
          rw [found]
          exact running
      case isFalse =>
        cases taken
        exact scans 0 fun w before => absurd before (Nat.not_lt_zero _)
    case isFalse last =>
      cases taken
      apply starting_at starting _ untouched
      case creating => exact fun _ same => by cases same
      case scanning => exact fun _ same => by cases same
      case returned =>
        intro _
        refine ⟨all, fun w => seen w ?_⟩
        have inside := w.isLt
        omega
  case h_3 => cases taken

/-- The parts that a step of the pool has to keep. -/
theorem starting_move (starting : Starting start) {after : Pool n Producer}
    (monotone : ∀ w, start.pool.ifrunning w = true → after.ifrunning w = true)
    (unborn : ∀ w : Fin n, start.threads ≤ w →
      after.worker w = start.pool.worker w ∧ after.ifrunning w = start.pool.ifrunning w)
    (alone : start.create ≠ .returned true → Untouched after)
    (empty : after.enqueued = [] → after.msgRecvQueue = [])
    (runs : after.stop = .notCalled → after.mShutdown = false)
    (early : after.enqueued = [] → after.stop = .notCalled →
      ∀ w, Early (after.ifrunning w) (after.worker w)) :
    Starting { start with pool := after } where
  bounded := starting.bounded
  creating := starting.creating
  scanning := by
    intro next here
    obtain ⟨all, seen⟩ := starting.scanning next here
    exact ⟨all, fun w before => monotone w (seen w before)⟩
  returned := by
    intro here
    obtain ⟨all, seen⟩ := starting.returned here
    exact ⟨all, fun w => monotone w (seen w)⟩
  unborn := by
    intro w behind
    obtain ⟨place, flag⟩ := unborn w behind
    obtain ⟨locking, clear⟩ := starting.unborn w behind
    exact ⟨place.trans locking, flag.trans clear⟩
  alone := alone
  empty := empty
  runs := runs
  early := early

theorem starting_worker {after : Pool n Producer} (starting : Starting start)
    (born : w < start.threads) (moved : WorkerStep start.pool w after) :
    Starting { start with pool := after } := by
  have keeps := worker_keeps moved
  have early := starting.early
  apply starting_move starting
  case monotone => exact keeps.monotone
  case unborn =>
    intro v behind
    apply keeps.others v
    intro same
    rw [same] at behind
    omega
  case alone =>
    intro pending
    obtain ⟨enqueued, stop, idle⟩ := starting.alone pending
    refine ⟨keeps.enqueued.trans enqueued, keeps.stop.trans stop, ?_⟩
    rw [keeps.producer]
    exact idle
  case empty =>
    intro none
    rw [keeps.enqueued] at none
    exact keeps.queue (starting.empty none)
  case runs =>
    intro waits
    rw [keeps.stop] at waits
    rw [keeps.shutdown]
    exact starting.runs waits
  case early =>
    intro none waits v
    rw [keeps.enqueued] at none
    rw [keeps.stop] at waits
    by_cases same : v = w
    · rw [same]
      exact early_worker moved (starting.empty none) (starting.runs waits) (early none waits w)
    · obtain ⟨place, flag⟩ := keeps.others v same
      rw [place, flag]
      exact early none waits v

theorem starting_spurious (starting : Starting start) (born : w < start.threads)
    (here : start.pool.worker w = .waiting) :
    Starting { start with pool := start.pool.setWorker w .woken } := by
  have early := starting.early
  apply starting_move starting
  case monotone => exact fun _ already => already
  case unborn =>
    intro v behind
    refine ⟨Function.update_of_ne ?_ _ _, rfl⟩
    intro same
    rw [same] at behind
    omega
  case alone =>
    intro pending
    obtain ⟨enqueued, stop, idle⟩ := starting.alone pending
    exact ⟨enqueued, stop, idle⟩
  case empty => exact starting.empty
  case runs => exact starting.runs
  case early =>
    intro none waits v
    change Early (start.pool.ifrunning v) (Function.update start.pool.worker w .woken v)
    by_cases same : v = w
    · have before := early none waits w
      rw [here] at before
      rw [same, Function.update_self]
      exact before
    · rw [Function.update_of_ne same]
      exact early none waits v

theorem starting_call {after : Pool n Producer} (starting : Starting start)
    (left : start.create = .returned true) (flags : after.ifrunning = start.pool.ifrunning)
    (empty : after.enqueued = [] → after.msgRecvQueue = [])
    (runs : after.stop = .notCalled → after.mShutdown = false)
    (early : after.enqueued = [] → after.stop = .notCalled →
      ∀ w, Early (start.pool.ifrunning w) (after.worker w)) :
    Starting { start with pool := after } := by
  apply starting_move starting
  case monotone =>
    rw [flags]
    exact fun _ already => already
  case unborn =>
    intro w behind
    have all := (starting.returned left).1
    have inside := w.isLt
    omega
  case alone => exact fun pending => absurd left pending
  case empty => exact empty
  case runs => exact runs
  case early =>
    rw [flags]
    exact early

theorem starting_stop {after : Pool n Producer} (starting : Starting start)
    (left : start.create = .returned true) (moved : StopStep start.pool after) :
    Starting { start with pool := after } := by
  cases moved with
  | write here runs | broadcast here | join next here more ended | finish here =>
      apply starting_call starting left
      case flags => rfl
      case empty => exact starting.empty
      case runs => exact fun waits => by cases waits
      case early => exact fun _ waits => by cases waits

section Calls

variable [DecidableEq Producer]

theorem starting_producer {p : Producer} {after : Pool n Producer} (starting : Starting start)
    (left : start.create = .returned true) (moved : ProducerStep start.pool p after) :
    Starting { start with pool := after } := by
  cases moved with
  | push buf here =>
      apply starting_call starting left
      case flags => rfl
      case empty =>
        intro none
        exact absurd none (List.append_ne_nil_of_right_ne_nil _ (List.cons_ne_nil _ _))
      case runs => exact starting.runs
      case early =>
        intro none
        exact absurd none (List.append_ne_nil_of_right_ne_nil _ (List.cons_ne_nil _ _))
  | signal chosen here only one =>
      apply starting_call starting left
      case flags => rfl
      case empty => exact starting.empty
      case runs => exact starting.runs
      case early =>
        intro none waits w
        have before := starting.early none waits w
        change Early _ (if chosen w then .woken else start.pool.worker w)
        split
        case isTrue picked =>
          rw [only w picked] at before
          exact before
        case isFalse => exact before
  | lock buf here free | count here | unlock here | done iLastEmgTime here =>
      apply starting_call starting left
      case flags => rfl
      case empty => exact starting.empty
      case runs => exact starting.runs
      case early => exact starting.early

theorem starting_pool {act : ThreadPool.Act n Producer} {after : Pool n Producer}
    (starting : Starting start) (present : Present start act)
    (moved : Stepped start.pool act after) : Starting { start with pool := after } := by
  cases moved with
  | worker next => exact starting_worker starting present next
  | spurious here => exact starting_spurious starting present here
  | call here =>
      apply starting_call starting present
      case flags => rfl
      case empty => exact starting.empty
      case runs => exact starting.runs
      case early => exact starting.early
  | producer next => exact starting_producer starting present next
  | stop next => exact starting_stop starting present next

theorem starting_step {act : Act n Producer} {after : Start n Producer}
    (starting : Starting start) (taken : startStep start act = some after) : Starting after := by
  cases act with
  | create created => exact starting_create starting taken
  | pool act =>
      obtain ⟨present, moves⟩ := Option.ite_none_right_eq_some.mp taken
      obtain ⟨pool, stepped, same⟩ := Option.map_eq_some_iff.mp moves
      cases same
      exact starting_pool starting present (stepped_of_step stepped)

theorem pool_step {act : Act n Producer} {after : Start n Producer}
    (holds : Invariant start.pool) (taken : startStep start act = some after) :
    Invariant after.pool := by
  cases act with
  | create created =>
      have same : after.pool = start.pool := by
        have moved : create start created = some after := taken
        unfold create at moved
        repeat' split at moved
        all_goals cases moved
        all_goals rfl
      rw [same]
      exact holds
  | pool act =>
      obtain ⟨present, moves⟩ := Option.ite_none_right_eq_some.mp taken
      obtain ⟨pool, stepped, same⟩ := Option.map_eq_some_iff.mp moves
      cases same
      exact invariant_step holds (stepped_of_step stepped)

theorem reachable_starting (reached : StartReachable start) :
    Starting start ∧ Invariant start.pool := by
  apply TransitionSystem.invariant_of_step
    (fun start => Starting start ∧ Invariant start.pool) ?_ ?_ reached
  · intro start begins
    rw [begins]
    exact ⟨called_starting, create_invariant⟩
  · intro before act after both _ taken
    exact ⟨starting_step both.1 taken, pool_step both.2 taken⟩

end Calls

end Invariant

def toWait : WorkerPc → Nat
  | .locking | .woken => 3
  | .testing => 2
  | .beforeWait => 1
  | _ => 0

def createLeft (n : Nat) : CreatePc → Nat
  | .creating next => n - next + n + 3
  | .scanning next => n - next + 1
  | .returned _ => 0

/-- No thread fails to start, and nothing but the threads and `Create` goes on. -/
def Smooth {n : Nat} {Producer : Type} : Act n Producer → Prop
  | .create created => created = true
  | .pool (.worker _) => True
  | .pool _ => False

section Returns

variable {n : Nat} {Producer : Type} {start : Start n Producer}

open scoped BigOperators

def startLeft (start : Start n Producer) : Nat :=
  ∑ w, toWait (start.pool.worker w) + createLeft n start.create

/-- While a thread has not set `ifrunning`, some thread gets nearer to waiting. -/
theorem worker_moves {v : Fin n} (starting : Starting start) (holds : Invariant start.pool)
    (untouched : Untouched start.pool) (slow : start.pool.ifrunning v = false) :
    ∃ w pc after, threadFunc start.pool w = some after ∧
      after.worker = Function.update start.pool.worker w pc ∧
        toWait pc < toWait (start.pool.worker w) := by
  have early := starting.early untouched.enqueued untouched.stop
  have waits : start.pool.msgRecvQueue = [] ∧ start.pool.mShutdown = false :=
    ⟨starting.empty untouched.enqueued, starting.runs untouched.stop⟩
  have tests : ∀ w, start.pool.worker w = .testing → ∃ w pc after,
      threadFunc start.pool w = some after ∧
        after.worker = Function.update start.pool.worker w pc ∧
          toWait pc < toWait (start.pool.worker w) := by
    intro w here
    refine ⟨w, .beforeWait, _, by simp only [threadFunc, here]; rw [if_pos waits], rfl, ?_⟩
    rw [here]
    decide
  cases owner : start.pool.mutex with
  | none =>
      have place := early v
      rw [slow] at place
      cases here : start.pool.worker v with
      | locking =>
          refine ⟨v, .testing, _, by simp only [threadFunc, here, owner]; rfl, rfl, ?_⟩
          rw [here]
          decide
      | testing => exact tests v here
      | _ =>
          rw [here] at place
          cases place
  | some thread =>
      have inside := (holds.sound.exclusive thread).mp owner
      cases thread with
      | producer p =>
          simp [monitor, ofThread, untouched.idle p, producerPhase, Monitor.Phase.holds] at inside
      | worker w =>
          have place := early w
          cases here : start.pool.worker w with
          | testing => exact tests w here
          | beforeWait =>
              refine ⟨w, .waiting, _, by simp only [threadFunc, here]; rfl, rfl, ?_⟩
              rw [here]
              decide
          | locking | waiting | woken =>
              simp [monitor, ofThread, here, workerPhase, Monitor.Phase.holds] at inside
          | _ =>
              rw [here] at place
              exact place.elim

theorem early_waits {w : Fin n} (holds : Invariant start.pool)
    (early : Early true (start.pool.worker w)) :
    start.pool.worker w = .waiting ∨ start.pool.worker w = .woken ∨
      start.pool.mutex = some (.worker w) := by
  cases here : start.pool.worker w with
  | waiting => exact Or.inl rfl
  | woken => exact Or.inr (Or.inl rfl)
  | testing | beforeWait =>
      apply Or.inr
      apply Or.inr
      apply owner_of_inside holds.sound
      rw [here]
      rfl
  | locking =>
      rw [here] at early
      cases early
  | _ =>
      rw [here] at early
      exact early.elim

variable [DecidableEq Producer]

theorem start_progress (starting : Starting start) (holds : Invariant start.pool)
    (unfailed : start.create ≠ .returned false) (pending : start.create ≠ .returned true) :
    ∃ act next, Smooth act ∧ startStep start act = some next ∧
      next.create ≠ .returned false ∧ startLeft next < startLeft start := by
  have untouched : Untouched start.pool := starting.alone pending
  cases here : start.create with
  | creating next =>
      by_cases more : next < n
      · refine ⟨.create true, { start with threads := next + 1, create := .creating (next + 1) },
          rfl, ?_, nofun, ?_⟩
        · simp only [startStep, create, here]
          rw [if_pos more, if_pos trivial]
        · simp only [startLeft, here, createLeft]
          omega
      · refine ⟨.create true, { start with create := .scanning 0 }, rfl, ?_, nofun, ?_⟩
        · simp only [startStep, create, here]
          rw [if_neg more]
        · simp only [startLeft, here, createLeft]
          omega
  | scanning next =>
      obtain ⟨all, -⟩ := starting.scanning next here
      by_cases ready : ∀ w, start.pool.ifrunning w = true
      · by_cases more : next < n
        · refine ⟨.create true, { start with create := .scanning (next + 1) }, rfl, ?_, nofun, ?_⟩
          · simp only [startStep, create, here]
            rw [dif_pos more, if_pos (ready ⟨next, more⟩)]
          · simp only [startLeft, here, createLeft]
            omega
        · refine ⟨.create true, { start with create := .returned true }, rfl, ?_, nofun, ?_⟩
          · simp only [startStep, create, here]
            rw [dif_neg more]
          · simp only [startLeft, here, createLeft]
            omega
      · obtain ⟨v, slow⟩ := not_forall.mp ready
        obtain ⟨w, pc, after, taken, moved, nearer⟩ := worker_moves starting holds untouched
          (Bool.eq_false_of_not_eq_true slow)
        refine ⟨.pool (.worker w), { start with pool := after }, trivial, ?_, ?_, ?_⟩
        · have present : Present start (.worker w) := by
            rw [Present, all]
            exact w.isLt
          rw [startStep, if_pos present, step, taken]
          rfl
        · exact unfailed
        · have sum := sum_update toWait start.pool.worker w pc
          simp only [startLeft, moved]
          omega
  | returned ok =>
      cases ok with
      | true => exact absurd here pending
      | false => exact absurd here unfailed

theorem create_can_return (starting : Starting start) (holds : Invariant start.pool)
    (unfailed : start.create ≠ .returned false) :
    ∃ final, TransitionSystem.Steps startStep (fun _ => Smooth) start final ∧
      final.create = .returned true := by
  apply TransitionSystem.exists_steps_to startLeft (fun start =>
    (Starting start ∧ Invariant start.pool) ∧ start.create ≠ .returned false)
  case progress =>
    intro state kept pending
    obtain ⟨⟨starting, holds⟩, unfailed⟩ := kept
    obtain ⟨act, next, smooth, taken, still, less⟩ :=
      start_progress starting holds unfailed pending
    exact ⟨act, next, smooth, taken,
      ⟨⟨starting_step starting taken, pool_step holds taken⟩, still⟩, less⟩
  case holds => exact ⟨⟨starting, holds⟩, unfailed⟩

/-- When `Create` returns true, in whatever order the threads have taken their steps, all of
them run and have come to their wait; until there is a message each one is in
`pthread_cond_wait`, but for one that holds the mutex. And as long as no thread fails to start,
`Create` can still return. -/
theorem create_returns_ready (start : Start n Producer) (reached : StartReachable start) :
    (start.create = .returned true →
      start.threads = n ∧ (∀ w, start.pool.ifrunning w = true) ∧
        (start.pool.enqueued = [] → start.pool.stop = .notCalled → ∀ w,
          start.pool.worker w = .waiting ∨ start.pool.worker w = .woken ∨
            start.pool.mutex = some (.worker w))) ∧
      (start.create ≠ .returned true → Untouched start.pool) ∧
      (start.create ≠ .returned false →
        ∃ final, TransitionSystem.Steps startStep (fun _ => Smooth) start final ∧
          final.create = .returned true) := by
  obtain ⟨starting, holds⟩ := reachable_starting reached
  refine ⟨fun returned => ?_, starting.alone, create_can_return starting holds⟩
  obtain ⟨all, running⟩ := starting.returned returned
  refine ⟨all, running, fun none waits w => ?_⟩
  have early := starting.early none waits w
  rw [running w] at early
  exact early_waits holds early

end Returns

/-- `Create` has returned and its thread, which holds the mutex, is not waiting yet. -/
theorem create_returns_ready_sample :
    ∃ start : Start 1 Unit, start.create = .returned true ∧
      start.pool.worker 0 = .beforeWait ∧ start.pool.mutex = some (.worker 0) := by
  have seen : (TransitionSystem.exec startStep (fun _ _ => true) (Start.called 1 Unit)
      [.create true, .pool (.worker 0), .create true, .pool (.worker 0), .create true,
        .create true]).map (fun start =>
          (start.create, start.pool.worker 0, start.pool.enqueued, start.pool.stop)) =
        some (.returned true, .beforeWait, [], .notCalled) := by
    decide
  obtain ⟨start, executed, same⟩ := Option.map_eq_some_iff.mp seen
  simp only [Prod.mk.injEq] at same
  obtain ⟨returned, place, none, waits⟩ := same
  have reached : StartReachable start :=
    ⟨Start.called 1 Unit, rfl, TransitionSystem.steps_of_exec (fun _ _ _ => trivial) executed⟩
  obtain ⟨-, -, ready⟩ := (create_returns_ready start reached).1 returned
  rcases ready none waits 0 with parked | awake | owner
  · rw [place] at parked
    cases parked
  · rw [place] at awake
    cases awake
  · exact ⟨start, returned, place, owner⟩

end NgxServer.ThreadStart
