import NgxServer.Lib.LockOrder

/-!
# The mutexes of a worker process

Each function of the server is reduced to what it does to the mutexes; what it
branches on stays open. `CLock` objects are `scoped`, calls of
`pthread_mutex_lock` and `pthread_mutex_unlock` are `lock` and `unlock`. The
functions that are left out touch no mutex.
-/

namespace NgxServer.Locking

open LockOrder (Code Ordered WaitsFor Requests)

set_option autoImplicit false

/-- `m_sendMessageQueueMutex`, `m_timequeueMutex`, `m_recyconnqueueMutex`,
`m_connectionMutex`, `CThreadPool::m_pthreadMutex`, and the `logicPorcMutex` of
each connection. -/
inductive Mutex (Conn : Type)
  | sendMessageQueue
  | timequeue
  | recyconnqueue
  | connection
  | pthread
  | logicPorc (pConn : Conn)
  deriving DecidableEq

section Functions

variable {Conn : Type}

abbrev LockCode (Conn : Type) := Code (Mutex Conn) Conn

def addToTimerQueue : LockCode Conn := .scoped .timequeue .skip

def deleteFromTimerQueue : LockCode Conn := .scoped .timequeue .skip

def ngxGetConnection : LockCode Conn := .scoped .connection .skip

def ngxFreeConnection : LockCode Conn := .scoped .connection .skip

def ngxCloseConnection : LockCode Conn := ngxFreeConnection

def inRecyConnectQueue : LockCode Conn := .scoped .recyconnqueue .skip

def zdClosesocketProc : LockCode Conn :=
  .seq (.optional deleteFromTimerQueue) inRecyConnectQueue

/-- A client with too many packets in the queue is cut off with the lock
held. -/
def msgSend : LockCode Conn := .scoped .sendMessageQueue (.optional zdClosesocketProc)

def sendNoBodyPkgToClient : LockCode Conn := msgSend

def handleRegister (pConn : Conn) : LockCode Conn :=
  .optional (.scoped (.logicPorc pConn) msgSend)

def handleLogIn (pConn : Conn) : LockCode Conn :=
  .optional (.scoped (.logicPorc pConn) msgSend)

def handlePing (pConn : Conn) : LockCode Conn :=
  .optional (.scoped (.logicPorc pConn) sendNoBodyPkgToClient)

def threadRecvProcFunc : LockCode Conn :=
  .optional (.choose fun pConn =>
    .either (handlePing pConn) (.either (handleRegister pConn) (handleLogIn pConn)))

/-- `CThreadPool::ThreadFunc` up to the test of `m_shutdown`. -/
def awaitMessage : LockCode Conn := .seq (.lock .pthread) (.loop (.wait .pthread))

/-- `CThreadPool::ThreadFunc`: rounds with a message, then one that ends at
`break`. -/
def threadFunc : LockCode Conn :=
  .seq (.loop (.seq awaitMessage (.seq (.unlock .pthread) threadRecvProcFunc)))
    (.seq awaitMessage (.unlock .pthread))

def inMsgRecvQueueAndSignal : LockCode Conn := .scoped .pthread .skip

def ngxWaitRequestHandlerProcPlast : LockCode Conn := .optional inMsgRecvQueueAndSignal

/-- `recvproc` fails and may close the connection, or a package may become
complete and a flooding client is closed. -/
def ngxReadRequestHandler : LockCode Conn :=
  .either (.optional zdClosesocketProc)
    (.seq (.optional ngxWaitRequestHandlerProcPlast) (.optional zdClosesocketProc))

def ngxEventAccept : LockCode Conn :=
  .optional (.seq ngxGetConnection (.either ngxCloseConnection (.optional addToTimerQueue)))

def ngxEpollProcessEvents : LockCode Conn :=
  .loop (.either ngxEventAccept (.optional ngxReadRequestHandler))

def ngxEpollInit : LockCode Conn := .loop ngxGetConnection

def ngxWorkerProcessCycle : LockCode Conn := .seq ngxEpollInit (.loop ngxEpollProcessEvents)

def serverSendQueueThread : LockCode Conn := .loop (.optional (.scoped .sendMessageQueue .skip))

def freeRecyConnections : LockCode Conn :=
  .optional (.scoped .recyconnqueue (.loop ngxFreeConnection))

def serverRecyConnectionThread : LockCode Conn :=
  .seq (.loop freeRecyConnections) freeRecyConnections

def procPingTimeOutChecking : LockCode Conn := .optional zdClosesocketProc

def serverTimerQueueMonitorThread : LockCode Conn :=
  .loop (.optional (.seq (.scoped .timequeue .skip) (.loop procPingTimeOutChecking)))

def rank : Mutex Conn → Nat
  | .logicPorc _ => 0
  | .sendMessageQueue => 1
  | .timequeue => 2
  | .recyconnqueue => 2
  | .connection => 3
  | .pthread => 4

theorem rank_lt_five (mutex : Mutex Conn) : rank mutex < 5 := by
  cases mutex <;> simp [rank]

def Below (held : List (Mutex Conn)) (bound : Nat) : Prop := ∀ mutex ∈ held, rank mutex < bound

theorem below_nil (bound : Nat) : Below ([] : List (Mutex Conn)) bound := by
  intro mutex member
  cases member

theorem below_cons {held : List (Mutex Conn)} {mutex : Mutex Conn} {bound : Nat}
    (first : rank mutex < bound) (others : Below held bound) : Below (mutex :: held) bound := by
  intro other member
  rcases List.mem_cons.mp member with rfl | older
  · exact first
  · exact others other older

theorem below_mono {held : List (Mutex Conn)} {low high : Nat} (below : Below held low)
    (order : low ≤ high) : Below held high :=
  fun mutex member => Nat.lt_of_lt_of_le (below mutex member) order

theorem ordered_leaf {held : List (Mutex Conn)} {mutex : Mutex Conn}
    (below : Below held (rank mutex)) :
    Ordered rank held (.scoped mutex .skip : LockCode Conn) held :=
  LockOrder.ordered_scoped rank below (Ordered.skip _)

/-- Called with the send queue or a connection locked, or nothing. -/
theorem ordered_zd_closesocket_proc {held : List (Mutex Conn)} (below : Below held 2) :
    Ordered rank held zdClosesocketProc held := by
  refine Ordered.seq (LockOrder.ordered_optional rank ?_) ?_
  · exact ordered_leaf below
  · exact ordered_leaf below

theorem ordered_msg_send {held : List (Mutex Conn)} (below : Below held 1) :
    Ordered rank held msgSend held := by
  have inside : Below (.sendMessageQueue :: held) 2 :=
    below_cons (by simp [rank]) (below_mono below (by decide))
  exact LockOrder.ordered_scoped rank below
    (LockOrder.ordered_optional rank (ordered_zd_closesocket_proc inside))

theorem ordered_handler (pConn : Conn) :
    Ordered rank [] (.optional (.scoped (.logicPorc pConn) msgSend)) [] := by
  have inside : Below [Mutex.logicPorc pConn] 1 := below_cons (by simp [rank]) (below_nil 1)
  exact LockOrder.ordered_optional rank
    (LockOrder.ordered_scoped rank (below_nil _) (ordered_msg_send inside))

theorem ordered_thread_recv_proc_func :
    Ordered rank [] (threadRecvProcFunc : LockCode Conn) [] := by
  refine LockOrder.ordered_optional rank (Ordered.choose fun pConn => ?_)
  exact Ordered.either (ordered_handler pConn)
    (Ordered.either (ordered_handler pConn) (ordered_handler pConn))

/-- The mutex is given up while the worker waits, and held afterwards. -/
theorem ordered_await_message :
    Ordered rank [] (awaitMessage : LockCode Conn) [.pthread] :=
  Ordered.seq (Ordered.lock (below_nil _)) (Ordered.loop (Ordered.wait _))

theorem ordered_thread_func : Ordered rank [] (threadFunc : LockCode Conn) [] := by
  refine Ordered.seq (Ordered.loop (Ordered.seq ordered_await_message ?_))
    (Ordered.seq ordered_await_message (Ordered.unlock _ _))
  exact Ordered.seq (Ordered.unlock _ _) ordered_thread_recv_proc_func

theorem ordered_read_request_handler :
    Ordered rank [] (ngxReadRequestHandler : LockCode Conn) [] := by
  have closes : Ordered rank [] (.optional (zdClosesocketProc : LockCode Conn)) [] :=
    LockOrder.ordered_optional rank (ordered_zd_closesocket_proc (below_nil _))
  refine Ordered.either closes (Ordered.seq (LockOrder.ordered_optional rank ?_) closes)
  exact LockOrder.ordered_optional rank (ordered_leaf (below_nil _))

theorem ordered_event_accept : Ordered rank [] (ngxEventAccept : LockCode Conn) [] := by
  refine LockOrder.ordered_optional rank (Ordered.seq (ordered_leaf (below_nil _)) ?_)
  exact Ordered.either (ordered_leaf (below_nil _))
    (LockOrder.ordered_optional rank (ordered_leaf (below_nil _)))

theorem ordered_worker_process_cycle :
    Ordered rank [] (ngxWorkerProcessCycle : LockCode Conn) [] := by
  refine Ordered.seq (Ordered.loop (ordered_leaf (below_nil _))) (Ordered.loop (Ordered.loop ?_))
  exact Ordered.either ordered_event_accept
    (LockOrder.ordered_optional rank ordered_read_request_handler)

theorem ordered_free_recy_connections :
    Ordered rank [] (freeRecyConnections : LockCode Conn) [] := by
  have inside : Below [(Mutex.recyconnqueue : Mutex Conn)] 3 :=
    below_cons (by simp [rank]) (below_nil 3)
  exact LockOrder.ordered_optional rank
    (LockOrder.ordered_scoped rank (below_nil _) (Ordered.loop (ordered_leaf inside)))

end Functions

inductive Thread (Worker : Type)
  | main
  | serverSendQueue
  | serverRecyConnection
  | serverTimerQueueMonitor
  | pool (worker : Worker)
  deriving DecidableEq

def program {Worker Conn : Type} : Thread Worker → LockCode Conn
  | .main => ngxWorkerProcessCycle
  | .serverSendQueue => serverSendQueueThread
  | .serverRecyConnection => serverRecyConnectionThread
  | .serverTimerQueueMonitor => serverTimerQueueMonitorThread
  | .pool _ => threadFunc

theorem ordered_program {Worker Conn : Type} (thread : Thread Worker) :
    Ordered rank [] (program thread : LockCode Conn) [] := by
  cases thread with
  | main => exact ordered_worker_process_cycle
  | serverSendQueue =>
      exact Ordered.loop (LockOrder.ordered_optional rank (ordered_leaf (below_nil _)))
  | serverRecyConnection =>
      exact Ordered.seq (Ordered.loop ordered_free_recy_connections) ordered_free_recy_connections
  | serverTimerQueueMonitor =>
      refine Ordered.loop (LockOrder.ordered_optional rank
        (Ordered.seq (ordered_leaf (below_nil _)) (Ordered.loop ?_)))
      exact LockOrder.ordered_optional rank (ordered_zd_closesocket_proc (below_nil _))
  | pool worker => exact ordered_thread_func

/-- In any interleaving of the threads, with any number of workers and
connections, no thread requests a mutex that it holds, no threads wait for one
another in a circle, and where a thread waits, the chain of holders ends at a
thread that holds a mutex, waits for none, and is not in a condition wait. -/
theorem locking_deadlock_free {Worker Conn : Type} [DecidableEq Worker] [DecidableEq Conn]
    (state : LockOrder.State (Thread Worker) (Mutex Conn) Conn)
    (reached : LockOrder.Reachable program state) :
    (∀ thread mutex, Requests state thread mutex → state.owner mutex ≠ some thread) ∧
      (∀ thread, ¬ Relation.TransGen (WaitsFor state) thread thread) ∧
      ∀ thread other, WaitsFor state thread other →
        ∃ holder mutex, Relation.ReflTransGen (WaitsFor state) other holder ∧
          state.owner mutex = some holder ∧ (∀ next, ¬ WaitsFor state holder next) ∧
          ∃ head rest, state.code holder = head :: rest ∧ ∀ parked, head ≠ .parked parked := by
  have inOrder := LockOrder.reachable_in_order rank (fun thread => ordered_program thread) reached
  refine ⟨fun _ _ => LockOrder.not_requests_held inOrder, LockOrder.waits_acyclic inOrder, ?_⟩
  intro thread other waits
  obtain ⟨holder, chain, ⟨mutex, holds⟩, free⟩ :=
    LockOrder.chain_ends inOrder rank_lt_five waits
  exact ⟨holder, mutex, chain, holds, free, LockOrder.holder_active inOrder holds⟩

def pingDecisions : List (LockOrder.Decision Unit) :=
  List.replicate 5 .left ++ [.right, .left, .left, .left, .pick ()] ++ List.replicate 7 .left

/-- The send thread requests the queue that this worker has locked. -/
def contention : List (Thread Unit × LockOrder.Decision Unit) :=
  pingDecisions.map (fun decision => (.pool (), decision)) ++
    List.replicate 3 (.serverSendQueue, .left)

def nextLock {Conn : Type} : List (LockCode Conn) → Option (Mutex Conn)
  | .lock mutex :: _ => some mutex
  | _ => none

theorem requests_of_next_lock {Worker Conn : Type}
    {state : LockOrder.State (Thread Worker) (Mutex Conn) Conn} {thread : Thread Worker}
    {mutex : Mutex Conn} (next : nextLock (state.code thread) = some mutex) :
    Requests state thread mutex := by
  unfold nextLock at next
  split at next
  case h_1 found rest here =>
    cases next
    exact ⟨rest, here⟩
  case h_2 => cases next

def idleProcess : LockOrder.State (Thread Unit) (Mutex Unit) Unit where
  code := fun thread => [program thread]
  owner := fun _ => none

theorem locking_deadlock_free_sample :
    ∃ state : LockOrder.State (Thread Unit) (Mutex Unit) Unit,
      LockOrder.Reachable program state ∧ WaitsFor state .serverSendQueue (.pool ()) ∧
        ¬ Relation.TransGen (WaitsFor state) (.pool ()) (.pool ()) := by
  have seen : (TransitionSystem.exec LockOrder.step (fun _ _ => true) idleProcess contention).map
      (fun state => (state.owner .sendMessageQueue, nextLock (state.code .serverSendQueue))) =
      some (some (.pool ()), some .sendMessageQueue) := by
    decide
  obtain ⟨state, executed, same⟩ := Option.map_eq_some_iff.mp seen
  obtain ⟨holds, next⟩ := Prod.mk.inj same
  have reached : LockOrder.Reachable program state :=
    ⟨idleProcess, ⟨fun _ => rfl, fun _ => rfl⟩,
      TransitionSystem.steps_of_exec (fun _ _ _ => trivial) executed⟩
  refine ⟨state, reached, ⟨.sendMessageQueue, requests_of_next_lock next, holds⟩, ?_⟩
  exact (locking_deadlock_free state reached).2.1 (.pool ())

end NgxServer.Locking
