import NgxServer.PoolPartition
import NgxServer.Session

/-!
# The connection pool stays small

A new connection object is made only while the free list is empty. Then the
second test of `ngx_event_accept` has passed, so at most `5 * w` objects exist,
however many of them wait for the recycler.
-/

namespace NgxServer.PoolBound

open NgxServer.Comm NgxServer.State NgxServer.ConnPool NgxServer.TimerQueue NgxServer.Socket
open NgxServer.Accept NgxServer.Logic NgxServer.System NgxServer.Frames NgxServer.PoolRefinement
open NgxServer.Occupancy NgxServer.Session
open QuarantinePool (Pool InService)

set_option autoImplicit false

def objectLimit (cfg : Config) (ports : Nat) : Nat :=
  max (5 * cfg.workerConnections + 1) (max cfg.workerConnections ports)

/-- As many clients as the configuration admits, and as many objects as that
takes. -/
structure Bounded (cfg : Config) (pool : Pool) : Prop where
  clients : pool.clients ≤ cfg.workerConnections
  objects : pool.all.length ≤ objectLimit cfg pool.reserve.length

section Steps

variable {cfg : Config} {pool after : Pool}

theorem bounded_of_fewer (bounded : Bounded cfg pool) (all : after.all = pool.all)
    (clients : after.clients ≤ pool.clients) (reserve : after.reserve = pool.reserve) :
    Bounded cfg after := by
  refine ⟨le_trans clients bounded.clients, ?_⟩
  rw [all, reserve]
  exact bounded.objects

theorem bounded_retire (bounded : Bounded cfg pool) (c : Nat) :
    Bounded cfg (QuarantinePool.retire pool c) :=
  bounded_of_fewer bounded (QuarantinePool.retire_keeps pool c).1
    (QuarantinePool.retire_clients_le pool c) (QuarantinePool.retire_keeps pool c).2

theorem bounded_works {server later : Server} {now : Int}
    (bounded : Bounded cfg (poolView server)) (works : Works cfg now server later) :
    Bounded cfg (poolView later) := by
  obtain ⟨marked, marks, ends⟩ := works
  have early : poolView marked = poolView server := by
    rcases marks with same | ⟨c, -, same⟩
    · exact congrArg View.pool same
    · have pinged : poolView marked = poolView (notePing server c now) := congrArg View.pool same
      rw [pinged, notePing, pool_view_mod_conn server c _ rfl rfl]
  rcases ends with same | ⟨c, middle, -, same, closed⟩
  · have late : poolView later = poolView marked := congrArg View.pool same
    rw [late, early]
    exact bounded
  · have before : poolView middle = poolView marked := congrArg View.pool same
    have late : poolView later = poolView (zdClosesocketProc cfg middle c now) :=
      congrArg View.pool closed
    rw [late, zd_closesocket_proc_view, before, early]
    exact bounded_retire bounded c

/-- A client that gets an object, as long as it is not refused. -/
theorem bounded_issue {server : Server} (positive : 1 ≤ cfg.workerConnections)
    (bounded : Bounded cfg (poolView server)) (accepted : ¬ Refused cfg server) (s : Int)
    {issued : Nat × Pool}
    (object : issued = QuarantinePool.issue (QuarantinePool.openFd (poolView server) s) s) :
    issued.2.all.length ≤ objectLimit cfg server.listenFds.length ∧
      issued.2.clients + 1 ≤ cfg.workerConnections ∧ issued.2.reserve = server.listenFds := by
  obtain ⟨all, -, clients⟩ :=
    QuarantinePool.issue_size (QuarantinePool.openFd (poolView server) s) s
  obtain ⟨-, reserve, -⟩ :=
    QuarantinePool.issue_keeps (QuarantinePool.openFd (poolView server) s) s
  have objects : server.connectionList.length ≤ objectLimit cfg server.listenFds.length :=
    bounded.objects
  obtain ⟨room, crowded⟩ := not_or.mp accepted
  have notCrowded := not_and.mp crowded
  rw [← object] at all clients reserve
  have allLength : issued.2.all.length =
      server.connectionList.length + (1 - server.freeconnectionList.length) := all
  have online : issued.2.clients = server.onlineUserCount := clients
  refine ⟨?_, by omega, reserve⟩
  rw [allLength]
  simp only [objectLimit] at objects ⊢
  omega

theorem bounded_accept_socket {server : Server} (positive : 1 ≤ cfg.workerConnections)
    (bounded : Bounded cfg (poolView server)) (s : Int) (nonblockOk ctlOk : Bool) (now : Int) :
    Bounded cfg
      (poolView (acceptSocket cfg (openSocket server s) s nonblockOk ctlOk now)) := by
  rcases accept_socket_cases cfg server s nonblockOk ctlOk now with
    ⟨-, refused⟩ | ⟨accepted, issued, object, lost | active⟩
  · rw [refused]
    exact bounded_of_fewer bounded rfl le_rfl rfl
  · obtain ⟨all, clients, reserve⟩ := bounded_issue positive bounded accepted s object
    obtain ⟨allKept, clientsKept, reserveKept⟩ := QuarantinePool.discard_keeps
      (QuarantinePool.own issued.2 issued.1) issued.1
    rw [lost]
    constructor
    · rw [clientsKept]
      have owned : (QuarantinePool.own issued.2 issued.1).clients = issued.2.clients := rfl
      omega
    · rw [allKept, reserveKept]
      have same : (QuarantinePool.own issued.2 issued.1).reserve = server.listenFds := reserve
      rw [same]
      exact all
  · obtain ⟨all, clients, reserve⟩ := bounded_issue positive bounded accepted s object
    rw [active]
    refine ⟨clients, ?_⟩
    have same : (QuarantinePool.countClient (QuarantinePool.own issued.2 issued.1)).reserve =
        server.listenFds := reserve
    rw [same]
    exact all

theorem bounded_event_accept (positive : 1 ≤ cfg.workerConnections) (nonblockOk ctlOk : Bool)
    (now : Int) (outcomes : List AcceptOutcome) (server : Server)
    (bounded : Bounded cfg (poolView server)) :
    Bounded cfg (poolView (ngxEventAccept cfg server nonblockOk ctlOk now outcomes)) := by
  induction outcomes generalizing server with
  | nil => exact bounded
  | cons outcome rest ih =>
      cases outcome with
      | ok s => exact bounded_accept_socket positive bounded s nonblockOk ctlOk now
      | err code =>
          unfold ngxEventAccept
          split_ifs
          · exact bounded
          · exact ih { server with useAccept4 := false } bounded
          · exact bounded

theorem bounded_recy_pass {server : Server} (bounded : Bounded cfg (poolView server))
    (currtime gStopEvent : Int) :
    Bounded cfg (poolView (serverRecyConnectionPass cfg server currtime gStopEvent)) := by
  have rounds : ∀ rounds start, Bounded cfg (poolView start) →
      Bounded cfg (poolView (lblRRTD cfg currtime gStopEvent rounds start)) := by
    intro rounds
    induction rounds with
    | zero => exact fun start holds => holds
    | succ rounds ih =>
        intro start holds
        unfold lblRRTD
        split
        · exact holds
        case h_2 c found =>
          apply ih _
          rw [release_connection_view]
          exact bounded_of_fewer holds rfl le_rfl rfl
  unfold serverRecyConnectionPass
  split
  · exact rounds _ server bounded
  · exact bounded

theorem bounded_ping_check {server : Server} (bounded : Bounded cfg (poolView server))
    (tmpmsg : Nat) (curTime now : Int) :
    Bounded cfg (poolView (procPingTimeOutChecking cfg server tmpmsg curTime now)) := by
  unfold procPingTimeOutChecking
  split
  · exact bounded
  case h_2 record found =>
    have freed : ∀ checked : Server, poolView (freeRecord checked tmpmsg) = poolView checked :=
      fun _ => rfl
    rw [freed]
    unfold kickOverdue
    split_ifs
    · rw [zd_closesocket_proc_view]
      exact bounded_retire bounded record.pConn
    · exact bounded
    · exact bounded

end Steps

theorem bounded_step {cfg : Config} {server after : Server} {act : Act}
    (positive : 1 ≤ cfg.workerConnections) (attributed : Attributed server)
    (bounded : Bounded cfg (poolView server)) (disciplined : Disciplined server act)
    (taken : step cfg server act = some after) : Bounded cfg (poolView after) := by
  by_cases moves : MovesBytes act
  · rcases step_works attributed disciplined moves taken with same | ⟨now, -, works⟩
    · have view : poolView after = poolView server := congrArg View.pool same
      rw [view]
      exact bounded
    · exact bounded_works bounded works
  · cases stepped_of_step taken with
    | epollInit ctl now _ empty done =>
        have places := attributed.settled.places
        have none : (poolView server).all = [] := empty
        have noFree : (poolView server).free = [] := by
          apply List.eq_nil_iff_forall_not_mem.mpr
          intro c member
          have listed := places.placed_all c
            (List.mem_append_left _ (List.mem_append_left _ (List.mem_append_left _ member)))
          rw [none] at listed
          cases listed
        obtain ⟨all, clients⟩ :=
          QuarantinePool.set_up_size none noFree cfg.workerConnections
        have reserve := (QuarantinePool.reserve_all_keeps (poolView server).reserve
          (QuarantinePool.recount
            (Nat.iterate QuarantinePool.grow cfg.workerConnections (poolView server)))).1.trans
              (QuarantinePool.grow_all_keeps cfg.workerConnections (poolView server))
        rw [ngx_epoll_init_view cfg server after ctl now done]
        constructor
        · rw [clients]
          exact bounded.clients
        · rw [all, QuarantinePool.setUp, reserve]
          exact le_max_right _ _
    | accept oldc outcomes nonblockOk ctlOk now =>
        exact bounded_event_accept positive nonblockOk ctlOk now outcomes server bounded
    | monitorPop curTime =>
        rw [pool_view_of_monitor (forget_monitor_pop cfg server curTime)]
        exact bounded
    | monitorCheck now tmpmsg rest =>
        have popped : Bounded cfg (poolView { server with lsIdleList := rest }) := bounded
        exact bounded_ping_check popped tmpmsg server.monitorTime now
    | recycle currtime => exact bounded_recy_pass bounded currtime 0
    | _ => exact absurd trivial moves

theorem fresh_bounded {cfg : Config} {server : Server} (fresh : Fresh server) :
    Bounded cfg (poolView server) := by
  obtain ⟨listenFds, -, -, rfl⟩ := fresh
  exact ⟨Int.natCast_nonneg cfg.workerConnections, Nat.zero_le _⟩

theorem reachable_bounded {cfg : Config} (positive : 1 ≤ cfg.workerConnections) {server : Server}
    (reached : Reachable cfg Disciplined server) :
    Attributed server ∧ Bounded cfg (poolView server) := by
  refine TransitionSystem.invariant_of_step
    (fun server => Attributed server ∧ Bounded cfg (poolView server)) ?_ ?_ reached
  · exact fun _ fresh => ⟨fresh_attributed fresh, fresh_bounded fresh⟩
  · rintro before act after ⟨attributed, bounded⟩ disciplined taken
    exact ⟨attributed_step attributed disciplined taken,
      bounded_step positive attributed bounded disciplined taken⟩

end NgxServer.PoolBound
