import NgxServer.Frames
import NgxServer.Lib.QuarantinePool

/-!
# The connection pool refines the quarantine pool

`poolView` forgets everything but the lists, the counters, the descriptors and
the sequence numbers of the connections. Seen through it, each function of the
server is an operation of `QuarantinePool`, or does nothing.
-/

namespace NgxServer.PoolRefinement

open NgxServer.Comm NgxServer.State NgxServer.ConnPool NgxServer.TimerQueue NgxServer.Socket
open NgxServer.Request NgxServer.Accept NgxServer.Logic NgxServer.System NgxServer.Frames
open BlockHeap (null)
open QuarantinePool (Pool PoolStep PoolSteps Settled InService KeepsStamps)

set_option autoImplicit false

def poolView (server : Server) : Pool where
  handle := fun c => (server.conns c).fd
  generation := fun c => (server.conns c).iCurrsequence
  objects := server.connObjects
  all := server.connectionList
  free := server.freeconnectionList
  quarantine := server.recyconnectionList
  pinned := server.listenConns
  allN := server.totalConnectionN
  freeN := server.freeConnectionN
  quarantineN := server.totolRecyconnectionN
  clients := server.onlineUserCount
  opened := server.openFds
  taken := server.listenFds ++ server.ghost.accepted
  closed := server.ghost.closed
  owner := server.ghost.occ
  nextOwner := server.ghost.nextOcc
  stampOf := server.ghost.stampOf
  reserve := server.listenFds

theorem pool_view_mod_conn (server : Server) (c : ConnId) (change : NgxConnection → NgxConnection)
    (fd : (change (server.conns c)).fd = (server.conns c).fd)
    (seq : (change (server.conns c)).iCurrsequence = (server.conns c).iCurrsequence) :
    poolView (server.modConn c change) = poolView server := by
  have fds : (poolView (server.modConn c change)).handle = (poolView server).handle :=
    funext fun d => mod_conn_keeps NgxConnection.fd server c d change fd
  have seqs : (poolView (server.modConn c change)).generation = (poolView server).generation :=
    funext fun d => mod_conn_keeps NgxConnection.iCurrsequence server c d change seq
  exact Pool.ext fds seqs rfl rfl rfl rfl rfl rfl rfl rfl rfl rfl rfl rfl rfl rfl rfl rfl

theorem pool_view_of_timers {before after : Server}
    (same : forgetTimers after = forgetTimers before) : poolView after = poolView before := by
  have forgotten := congrArg poolView same
  exact forgotten

theorem pool_view_of_monitor {before after : Server}
    (same : forgetMonitor after = forgetMonitor before) : poolView after = poolView before := by
  have forgotten := congrArg poolView same
  exact forgotten

theorem pool_view_of_recv {before after : Server}
    (same : forgetRecv after = forgetRecv before) : poolView after = poolView before := by
  have forgotten := congrArg poolView same
  exact forgotten

theorem pool_view_of_send {before after : Server}
    (same : forgetSend after = forgetSend before) : poolView after = poolView before := by
  have forgotten := congrArg poolView same
  exact forgotten

theorem pool_view_update (server : Server) (c : ConnId) (change : NgxConnection → NgxConnection) :
    poolView (server.modConn c change) =
      { poolView server with
        handle := Function.update (poolView server).handle c (change (server.conns c)).fd
        generation := Function.update (poolView server).generation c
          (change (server.conns c)).iCurrsequence } := by
  ext d
  case handle =>
    simp only [poolView, mod_conn_conns, Function.update_apply]
    split_ifs <;> rfl
  case generation =>
    simp only [poolView, mod_conn_conns, Function.update_apply]
    split_ifs <;> rfl
  all_goals rfl

theorem pool_view_set_fd (server : Server) (c : ConnId) (change : NgxConnection → NgxConnection)
    (seq : (change (server.conns c)).iCurrsequence = (server.conns c).iCurrsequence) :
    poolView (server.modConn c change) =
      { poolView server with
        handle := Function.update (poolView server).handle c (change (server.conns c)).fd } := by
  rw [pool_view_update, seq]
  exact Pool.ext rfl (Function.update_eq_self _ _) rfl rfl rfl rfl rfl rfl rfl rfl rfl rfl rfl rfl
    rfl rfl rfl rfl

theorem pool_view_set_seq (server : Server) (c : ConnId) (change : NgxConnection → NgxConnection)
    (fd : (change (server.conns c)).fd = (server.conns c).fd) :
    poolView (server.modConn c change) =
      { poolView server with
        generation := Function.update (poolView server).generation c
          (change (server.conns c)).iCurrsequence } := by
  rw [pool_view_update, fd]
  exact Pool.ext (Function.update_eq_self _ _) rfl rfl rfl rfl rfl rfl rfl rfl rfl rfl rfl rfl rfl
    rfl rfl rfl rfl

theorem close_if_open_view (server : Server) (c : ConnId) :
    poolView (closeIfOpen server c) = QuarantinePool.shut (poolView server) c := by
  unfold closeIfOpen
  split
  case isTrue opened =>
    rw [QuarantinePool.shut_open opened]
    exact pool_view_set_fd (server.closeFd (server.conns c).fd) c (fun p => { p with fd := -1 }) rfl
  case isFalse closed => exact (QuarantinePool.shut_closed closed).symm

theorem in_recy_connect_queue_view (server : Server) (c : ConnId) (now : Int) :
    poolView (inRecyConnectQueue server c now) = QuarantinePool.isolate (poolView server) c := by
  unfold inRecyConnectQueue
  split
  case isTrue present => exact (QuarantinePool.isolate_again present).symm
  case isFalse absent =>
    rw [QuarantinePool.isolate_new absent]
    have bumped := pool_view_set_seq server c
      (fun p => { p with inRecyTime := now, iCurrsequence := p.iCurrsequence + 1 }) rfl
    exact congrArg (fun pool : Pool =>
      { pool with
        quarantine := server.recyconnectionList ++ [c]
        quarantineN := server.totolRecyconnectionN + 1
        clients := server.onlineUserCount - 1 }) bumped

theorem drop_throwsend_view (server : Server) (c : ConnId) :
    poolView (dropThrowsend server c) = poolView server := by
  unfold dropThrowsend
  split
  · exact pool_view_mod_conn server c _ rfl rfl
  · rfl

theorem zd_closesocket_proc_view (cfg : Config) (server : Server) (c : ConnId) (now : Int) :
    poolView (zdClosesocketProc cfg server c now) =
      QuarantinePool.retire (poolView server) c := by
  have untimed : poolView (if cfg.ifkickTimeCount = 1 then deleteFromTimerQueue server c
      else server) = poolView server := by
    split
    · exact pool_view_of_timers (forget_timers_delete server c)
    · rfl
  unfold zdClosesocketProc
  rw [in_recy_connect_queue_view, drop_throwsend_view, QuarantinePool.retire, ← untimed,
    ← close_if_open_view]
  rfl

theorem zd_occ (cfg : Config) (server : Server) (c : ConnId) (now : Int) :
    (zdClosesocketProc cfg server c now).ghost.occ =
      Function.update server.ghost.occ c none := by
  have view := congrArg Pool.owner (zd_closesocket_proc_view cfg server c now)
  exact view.trans (QuarantinePool.retire_owner (poolView server) c)

theorem put_one_to_free_view (server : Server) (c : ConnId) :
    poolView (putOneToFree server c) =
      { poolView server with
        generation := Function.update (poolView server).generation c
          ((poolView server).generation c + 1)
        owner := Function.update (poolView server).owner c none } := by
  have bumped := pool_view_set_seq server c (fun q =>
    { q with
      iCurrsequence := q.iCurrsequence + 1
      recv.precvMemPointer := null
      send := { q.send with psendMemPointer := null, iThrowsendCount := 0 } }) rfl
  exact congrArg (fun pool : Pool =>
    { pool with owner := Function.update server.ghost.occ c none }) bumped

theorem ngx_free_connection_view (server : Server) (c : ConnId) :
    poolView (ngxFreeConnection server c) = QuarantinePool.putBack (poolView server) c := by
  have put := put_one_to_free_view server c
  exact congrArg (fun pool : Pool =>
    { pool with
      free := server.freeconnectionList ++ [c]
      freeN := server.freeConnectionN + 1 }) put

theorem ngx_close_connection_view (server : Server) (c : ConnId) :
    poolView (ngxCloseConnection server c) = QuarantinePool.discard (poolView server) c := by
  rw [ngxCloseConnection, close_if_open_view, ngx_free_connection_view, QuarantinePool.discard]

theorem release_connection_view (server : Server) (c : ConnId) :
    poolView (releaseConnection server c) = QuarantinePool.release (poolView server) c := by
  rw [releaseConnection, ngx_free_connection_view]
  rfl

theorem ngx_get_connection_view (server : Server) (isock now : Int) :
    (ngxGetConnection server isock now).1 = (QuarantinePool.issue (poolView server) isock).1 ∧
      poolView (ngxGetConnection server isock now).2 =
        (QuarantinePool.issue (poolView server) isock).2 := by
  unfold ngxGetConnection QuarantinePool.issue
  split
  case h_1 c rest front =>
    have free : (poolView server).free = c :: rest := front
    rw [free]
    refine ⟨rfl, ?_⟩
    have changed := pool_view_update server c (fun p => { getOneToUse now p with fd := isock })
    exact congrArg (fun pool : Pool =>
      { pool with free := rest, freeN := server.freeConnectionN - 1 }) changed
  case h_2 exhausted =>
    have free : (poolView server).free = [] := exhausted
    rw [free]
    refine ⟨rfl, ?_⟩
    have changed := pool_view_update server server.connObjects
      (fun _ => { getOneToUse now NgxConnection.construct with fd := isock })
    exact congrArg (fun pool : Pool =>
      { pool with
        objects := server.connObjects + 1
        all := server.connectionList ++ [server.connObjects]
        allN := server.totalConnectionN + 1 }) changed

theorem open_occupancy_view (server : Server) (c : ConnId) :
    poolView (openOccupancy server c) = QuarantinePool.own (poolView server) c := rfl

theorem add_free_connection_view (now : Int) (server : Server) :
    poolView (addFreeConnection now server) = QuarantinePool.grow (poolView server) := by
  have changed := pool_view_update server server.connObjects
    (fun _ => getOneToUse now NgxConnection.construct)
  exact congrArg (fun pool : Pool =>
    { pool with
      objects := server.connObjects + 1
      all := server.connectionList ++ [server.connObjects]
      free := server.freeconnectionList ++ [server.connObjects] }) changed

theorem initconnection_view (cfg : Config) (now : Int) (server : Server) :
    poolView (initconnection cfg now server) = QuarantinePool.recount
      (Nat.iterate QuarantinePool.grow cfg.workerConnections (poolView server)) := by
  have filled : ∀ count server, poolView (Nat.iterate (addFreeConnection now) count server) =
      Nat.iterate QuarantinePool.grow count (poolView server) := by
    intro count
    induction count with
    | zero => exact fun server => rfl
    | succ count ih =>
        intro server
        rw [Function.iterate_succ_apply, Function.iterate_succ_apply, ih,
          add_free_connection_view]
  rw [← filled]
  rfl

/-- What a piece of code that may close one connection does to the pool. -/
def MayRetire (before after : Server) (c : ConnId) : Prop :=
  poolView after = poolView before ∨
    poolView after = QuarantinePool.retire (poolView before) c

theorem may_retire_of_frame {cfg : Config} {before middle after : Server} {c : ConnId} {now : Int}
    (same : poolView middle = poolView before)
    (cases : after = middle ∨ after = zdClosesocketProc cfg middle c now) :
    MayRetire before after c := by
  rcases cases with kept | closed
  · exact Or.inl (by rw [kept, same])
  · exact Or.inr (by rw [closed, zd_closesocket_proc_view, same])

theorem ngx_read_request_handler_view (cfg : Config) (server : Server) (c : ConnId)
    (outcome : RecvOutcome) (junk : Nat → Byte) (nowMs : Nat) (now : Int) :
    MayRetire server (ngxReadRequestHandler cfg server c outcome junk nowMs now) c := by
  obtain ⟨received, same, ends⟩ :=
    ngx_read_request_handler_frame cfg server c outcome junk nowMs now
  exact may_retire_of_frame (pool_view_of_recv same) ends

theorem event_view (cfg : Config) (server : Server) (c : ConnId) (revents : BitVec 32)
    (recv : RecvOutcome) (send : SendOutcome) (ctlOk : Bool) (junk : Nat → Byte) (nowMs : Nat)
    (now : Int) :
    MayRetire server
      (writeSide (readSide cfg server c revents recv junk nowMs now) c revents send ctlOk) c := by
  have read : MayRetire server (readSide cfg server c revents recv junk nowMs now) c := by
    unfold readSide
    split
    · exact ngx_read_request_handler_view cfg server c recv junk nowMs now
    · exact Or.inl rfl
  rw [MayRetire, pool_view_of_send (forget_send_write_side _ c revents send ctlOk)]
  exact read

theorem queue_reply_view (cfg : Config) (server : Server) (msg : MsgBuf) (now : Int) :
    MayRetire server (queueReply cfg server msg now) msg.hdr.pConn := by
  obtain ⟨sent, same, ends⟩ := queue_reply_frame cfg server msg now
  exact may_retire_of_frame (pool_view_of_send same) (ends.imp_right And.right)

theorem register_connection_view (cfg : Config) (server : Server) (newc : ConnId) (s : Int)
    (nonblockOk ctlOk : Bool) (now : Int) :
    poolView (registerConnection cfg server newc s nonblockOk ctlOk now) =
        QuarantinePool.discard (poolView server) newc ∨
      poolView (registerConnection cfg server newc s nonblockOk ctlOk now) =
        QuarantinePool.countClient (poolView server) := by
  have handled := pool_view_mod_conn server newc
    (fun p => { p with rhandler := .ngxReadRequestHandler }) rfl rfl
  have registered := (pool_view_of_send (forget_send_epoll_oper
    (server.modConn newc fun p => { p with rhandler := .ngxReadRequestHandler }) s .add
    (epollIn ||| epollRdhup) 0 newc ctlOk)).trans handled
  unfold registerConnection
  split
  · exact Or.inl (ngx_close_connection_view server newc)
  · dsimp only
    split
    · exact Or.inl ((ngx_close_connection_view _ newc).trans (by rw [registered]))
    · apply Or.inr
      split <;> exact congrArg QuarantinePool.countClient registered

theorem open_socket_view (server : Server) (s : Int) :
    poolView (openSocket server s) = QuarantinePool.openFd (poolView server) s := by
  have taken := List.append_assoc server.listenFds server.ghost.accepted [s]
  exact congrArg (fun taken => { poolView (openSocket server s) with taken := taken }) taken.symm

/-- A connection that is not refused gets an object, and becomes active or gives
it back. -/
theorem accept_socket_cases (cfg : Config) (server : Server) (s : Int) (nonblockOk ctlOk : Bool)
    (now : Int) :
    Refused cfg server ∧
        poolView (acceptSocket cfg (openSocket server s) s nonblockOk ctlOk now) =
          QuarantinePool.closeFd (QuarantinePool.openFd (poolView server) s) s ∨
      ¬ Refused cfg server ∧ ∃ issued, issued =
          QuarantinePool.issue (QuarantinePool.openFd (poolView server) s) s ∧
        (poolView (acceptSocket cfg (openSocket server s) s nonblockOk ctlOk now) =
            QuarantinePool.discard (QuarantinePool.own issued.2 issued.1) issued.1 ∨
          poolView (acceptSocket cfg (openSocket server s) s nonblockOk ctlOk now) =
            QuarantinePool.countClient (QuarantinePool.own issued.2 issued.1)) := by
  have opened := open_socket_view server s
  by_cases refused : Refused cfg server
  · have same : Refused cfg (openSocket server s) := refused
    refine Or.inl ⟨refused, ?_⟩
    rw [accept_socket_refused same, ← opened]
    rfl
  · have same : ¬ Refused cfg (openSocket server s) := refused
    refine Or.inr ⟨refused, _, rfl, ?_⟩
    obtain ⟨object, issued⟩ := ngx_get_connection_view (openSocket server s) s now
    rw [opened] at object issued
    have owned := open_occupancy_view (ngxGetConnection (openSocket server s) s now).2
      (ngxGetConnection (openSocket server s) s now).1
    rw [issued, object] at owned
    rw [accept_socket_issues same]
    rcases register_connection_view cfg
      (openOccupancy (ngxGetConnection (openSocket server s) s now).2
        (ngxGetConnection (openSocket server s) s now).1)
      (ngxGetConnection (openSocket server s) s now).1 s nonblockOk ctlOk now with lost | active
    · exact Or.inl (by rw [lost, object, owned])
    · exact Or.inr (by rw [active, object, owned])

theorem accept_socket_view (cfg : Config) (server : Server) (s : Int) (nonblockOk ctlOk : Bool)
    (now : Int) (nonneg : 0 ≤ s) (fresh : s ∉ server.openFds)
    (ready : server.connectionList ≠ []) :
    PoolStep (poolView server)
      (poolView (acceptSocket cfg (openSocket server s) s nonblockOk ctlOk now)) := by
  rcases accept_socket_cases cfg server s nonblockOk ctlOk now with
    ⟨-, refused⟩ | ⟨-, issued, rfl, lost | active⟩
  · rw [refused]
    exact PoolStep.refuse s nonneg fresh
  · rw [lost]
    exact PoolStep.reject s nonneg fresh ready
  · rw [active]
    exact PoolStep.welcome s nonneg fresh ready

theorem ngx_event_accept_view (cfg : Config) (nonblockOk ctlOk : Bool) (now : Int)
    (outcomes : List AcceptOutcome) (server : Server)
    (possible : outcomes.all (AcceptOutcome.possible server) = true)
    (ready : server.connectionList ≠ []) :
    PoolSteps (poolView server)
      (poolView (ngxEventAccept cfg server nonblockOk ctlOk now outcomes)) := by
  induction outcomes generalizing server with
  | nil => exact Relation.ReflTransGen.refl
  | cons outcome rest ih =>
      rw [List.all_cons, Bool.and_eq_true] at possible
      cases outcome with
      | ok s =>
          have legal := of_decide_eq_true possible.1
          exact Relation.ReflTransGen.single
            (accept_socket_view cfg server s nonblockOk ctlOk now legal.1 legal.2 ready)
      | err code =>
          unfold ngxEventAccept
          split_ifs
          · exact Relation.ReflTransGen.refl
          · exact ih { server with useAccept4 := false } possible.2 ready
          · exact Relation.ReflTransGen.refl

theorem listen_on_view (ctl : Int → Bool) (now : Int) (server after : Server) (fd : Int)
    (done : listenOn ctl now server fd = some after) :
    poolView after = QuarantinePool.reserveOne (poolView server) fd := by
  obtain ⟨object, issued⟩ := ngx_get_connection_view server fd now
  unfold listenOn at done
  dsimp only at done
  split at done
  · cases done
  · cases done
    rw [pool_view_of_send (forget_send_epoll_oper _ _ _ _ _ _ _), QuarantinePool.reserveOne,
      ← issued, ← object, markListening, pool_view_mod_conn _ _ _ rfl rfl]
    rfl

theorem ngx_epoll_init_view (cfg : Config) (server after : Server) (ctl : Int → Bool) (now : Int)
    (done : ngxEpollInit cfg server ctl now = some after) :
    poolView after = QuarantinePool.setUp cfg.workerConnections (poolView server) := by
  have reserved : ∀ fds start, List.foldlM (listenOn ctl now) start fds = some after →
      poolView after = fds.foldl QuarantinePool.reserveOne (poolView start) := by
    intro fds
    induction fds with
    | nil =>
        intro start same
        cases same
        rfl
    | cons fd rest ih =>
        intro start loops
        rw [List.foldlM_cons] at loops
        obtain ⟨next, listens, later⟩ := Option.bind_eq_some_iff.mp loops
        rw [ih next later, listen_on_view ctl now start next fd listens]
        rfl
  rw [reserved server.listenFds _ done, initconnection_view]
  rfl

theorem lbl_rrtd_view (cfg : Config) (currtime gStopEvent : Int) (rounds : Nat) (server : Server) :
    PoolSteps (poolView server) (poolView (lblRRTD cfg currtime gStopEvent rounds server)) := by
  induction rounds generalizing server with
  | zero => exact Relation.ReflTransGen.refl
  | succ rounds ih =>
      unfold lblRRTD
      split
      · exact Relation.ReflTransGen.refl
      case h_2 c found =>
        have waits : c ∈ (poolView server).quarantine := List.mem_of_find?_eq_some found
        have released := PoolStep.release c waits
        rw [← release_connection_view] at released
        exact Relation.ReflTransGen.head released (ih _)

theorem recy_connection_pass_view (cfg : Config) (server : Server) (currtime gStopEvent : Int) :
    PoolSteps (poolView server)
      (poolView (serverRecyConnectionPass cfg server currtime gStopEvent)) := by
  unfold serverRecyConnectionPass
  split
  · exact lbl_rrtd_view cfg currtime gStopEvent _ server
  · exact Relation.ReflTransGen.refl

end NgxServer.PoolRefinement
