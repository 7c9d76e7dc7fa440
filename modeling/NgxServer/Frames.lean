import NgxServer.System

/-!
# What a function leaves alone

The functions that receive touch only receiving state, those that send only
sending state, and the timer functions only the clock. Each `forget` function
blots out one of these parts; that a function leaves everything else alone
says that nothing remains of its effect once its own part is blotted out.
-/

namespace NgxServer.Frames

open NgxServer.Comm NgxServer.State NgxServer.ConnPool NgxServer.TimerQueue NgxServer.Socket
open NgxServer.Request NgxServer.Accept NgxServer.Logic NgxServer.System

set_option autoImplicit false

def forgetTimers (server : Server) : Server :=
  { server with
    theap := BlockHeap.empty
    timerQueuemap := []
    curSize := 0
    timerValue := 0 }

theorem forget_timers_lbl_mtqm (c : ConnId) (rounds : Nat) (server : Server) :
    forgetTimers (lblMTQM c rounds server) = forgetTimers server := by
  induction rounds generalizing server with
  | zero => rfl
  | succ rounds ih =>
      unfold lblMTQM
      split
      · rfl
      · exact ih _

theorem forget_timers_delete (server : Server) (c : ConnId) :
    forgetTimers (deleteFromTimerQueue server c) = forgetTimers server := by
  have deleted := forget_timers_lbl_mtqm c server.timerQueuemap.length server
  unfold deleteFromTimerQueue
  dsimp only
  split <;> exact deleted

def forgetMonitor (server : Server) : Server :=
  { forgetTimers server with
    lsIdleList := []
    monitorTime := 0 }

theorem forget_timers_remove_first (server : Server) :
    forgetTimers (removeFirstTimer server).2 = forgetTimers server := by
  unfold removeFirstTimer
  split
  · rfl
  · split <;> rfl

theorem forget_timers_over_time (cfg : Config) (server : Server) (curTime : Int) :
    forgetTimers (getOverTimeTimer cfg server curTime).2 = forgetTimers server := by
  have removed := forget_timers_remove_first server
  unfold getOverTimeTimer
  split
  · rfl
  · split
    · split
      case h_1 rest same =>
        rw [same] at removed
        exact removed
      case h_2 ptmp rest same =>
        rw [same] at removed
        refine Eq.trans ?_ removed
        dsimp only
        split
        · split
          · split <;> rfl
          · split <;> rfl
        · split <;> rfl
    · rfl

theorem forget_monitor_drain (cfg : Config) (curTime : Int) (rounds : Nat) (server : Server) :
    forgetMonitor (drainOverTime cfg curTime rounds server) = forgetMonitor server := by
  induction rounds generalizing server with
  | zero => rfl
  | succ rounds ih =>
      have taken := forget_timers_over_time cfg server curTime
      have forgot : forgetMonitor (getOverTimeTimer cfg server curTime).2 = forgetMonitor server :=
        congrArg (fun server => { server with lsIdleList := [], monitorTime := 0 }) taken
      unfold drainOverTime
      split
      case h_1 rest same =>
        rw [same] at forgot
        exact forgot
      case h_2 record rest same =>
        rw [same] at forgot
        rw [ih]
        exact forgot

theorem forget_monitor_pop (cfg : Config) (server : Server) (curTime : Int) :
    forgetMonitor (serverTimerQueuePop cfg server curTime) = forgetMonitor server := by
  unfold serverTimerQueuePop
  split
  · exact forget_monitor_drain cfg curTime server.timerQueuemap.length server
  · rfl

def forgetCloseConn (p : NgxConnection) : NgxConnection :=
  { p with
    fd := 0
    iCurrsequence := 0
    inRecyTime := 0
    send.iThrowsendCount := 0 }

/-- Blots out what closing a connection changes. -/
def forgetClose (server : Server) : Server :=
  { forgetTimers server with
    conns := fun c => forgetCloseConn (server.conns c)
    recyconnectionList := []
    totolRecyconnectionN := 0
    onlineUserCount := 0
    openFds := []
    kmask := fun _ => none
    ghost.occ := fun _ => none
    ghost.closed := [] }

theorem forget_close_mod_conn (server : Server) (c : ConnId)
    (change : NgxConnection → NgxConnection)
    (kept : forgetCloseConn (change (server.conns c)) = forgetCloseConn (server.conns c)) :
    forgetClose (server.modConn c change) = forgetClose server := by
  have conns : (forgetClose (server.modConn c change)).conns = (forgetClose server).conns :=
    funext fun d => mod_conn_keeps forgetCloseConn server c d change kept
  exact congrArg (fun conns => { forgetClose server with conns := conns }) conns

theorem forget_close_close_if_open (server : Server) (c : ConnId) :
    forgetClose (closeIfOpen server c) = forgetClose server := by
  unfold closeIfOpen
  split
  · exact forget_close_mod_conn (server.closeFd (server.conns c).fd) c
      (fun p => { p with fd := -1 }) rfl
  · rfl

theorem forget_close_drop_throwsend (server : Server) (c : ConnId) :
    forgetClose (dropThrowsend server c) = forgetClose server := by
  unfold dropThrowsend
  split
  · exact forget_close_mod_conn server c _ rfl
  · rfl

theorem forget_close_in_recy (server : Server) (c : ConnId) (now : Int) :
    forgetClose (inRecyConnectQueue server c now) = forgetClose server := by
  unfold inRecyConnectQueue
  split
  · rfl
  · exact forget_close_mod_conn server c
      (fun p => { p with inRecyTime := now, iCurrsequence := p.iCurrsequence + 1 }) rfl

theorem forget_close_of_timers {before after : Server}
    (same : forgetTimers after = forgetTimers before) :
    forgetClose after = forgetClose before := by
  have forgotten := congrArg forgetClose same
  exact forgotten

theorem forget_close_zd (cfg : Config) (server : Server) (c : ConnId) (now : Int) :
    forgetClose (zdClosesocketProc cfg server c now) = forgetClose server := by
  have untimed : forgetClose (if cfg.ifkickTimeCount = 1 then deleteFromTimerQueue server c
      else server) = forgetClose server := by
    split
    · exact forget_close_of_timers (forget_timers_delete server c)
    · rfl
  unfold zdClosesocketProc
  rw [forget_close_in_recy, forget_close_drop_throwsend]
  exact (forget_close_close_if_open _ c).trans untimed

/-- `ngx_get_connection` resets one connection object, old or new, and works on
the lists of the pool. -/
theorem ngx_get_connection_frame (server : Server) (isock now : Int) :
    ∃ base connObjects connectionList freeconnectionList freeConnectionN totalConnectionN,
      (base = server.conns (ngxGetConnection server isock now).1 ∨
        base = NgxConnection.construct) ∧
      (ngxGetConnection server isock now).2 =
        { server with
          conns := Function.update server.conns (ngxGetConnection server isock now).1
            { getOneToUse now base with fd := isock }
          connObjects := connObjects
          connectionList := connectionList
          freeconnectionList := freeconnectionList
          freeConnectionN := freeConnectionN
          totalConnectionN := totalConnectionN } := by
  unfold ngxGetConnection
  split
  · exact ⟨_, _, _, _, _, _, Or.inl rfl, rfl⟩
  · exact ⟨_, _, _, _, _, _, Or.inr rfl, rfl⟩

def forgetRecvConn (p : NgxConnection) : NgxConnection :=
  { p with
    recv := NgxConnection.construct.recv
    security := { p.security with floodkickLastTime := 0, floodAttackCount := 0 } }

def forgetRecv (server : Server) : Server :=
  { server with
    conns := fun c => forgetRecvConn (server.conns c)
    rheap := BlockHeap.empty
    msgRecvQueue := []
    iRecvMsgQueueCount := 0
    ghost.p1Overwrites := 0 }

theorem forget_recv_mod_conn (server : Server) (c : ConnId)
    (change : NgxConnection → NgxConnection)
    (kept : forgetRecvConn (change (server.conns c)) = forgetRecvConn (server.conns c)) :
    forgetRecv (server.modConn c change) = forgetRecv server := by
  have conns : (forgetRecv (server.modConn c change)).conns = (forgetRecv server).conns :=
    funext fun d => mod_conn_keeps forgetRecvConn server c d change kept
  exact congrArg (fun conns => { forgetRecv server with conns := conns }) conns

theorem forget_recv_store_bytes (server : Server) (c : ConnId) (bytes : List Byte) :
    forgetRecv (storeBytes server c bytes) = forgetRecv server := by
  unfold storeBytes
  split
  · exact forget_recv_mod_conn server c _ rfl
  · rfl

theorem forget_recv_flood_check (cfg : Config) (server : Server) (c : ConnId) (nowMs : Nat) :
    forgetRecv (floodCheck cfg server c nowMs).1 = forgetRecv server := by
  unfold floodCheck
  split
  · dsimp only [testFlood]
    exact forget_recv_mod_conn server c _ rfl
  · rfl

theorem forget_recv_plast (server : Server) (c : ConnId) (isflood : Bool) :
    forgetRecv (ngxWaitRequestHandlerProcPlast server c isflood) = forgetRecv server := by
  unfold ngxWaitRequestHandlerProcPlast
  dsimp only
  split <;> exact forget_recv_mod_conn _ c _ rfl

theorem forget_recv_alloc_buffer (server : Server) (c : ConnId) (ePkgLen : Nat)
    (junk : Nat → Byte) :
    forgetRecv (allocBuffer server c ePkgLen junk) = forgetRecv server := by
  rw [allocBuffer]
  exact forget_recv_mod_conn _ c _ rfl

theorem forget_recv_proc_p1 (cfg : Config) (server : Server) (c : ConnId) (junk : Nat → Byte)
    (nowMs : Nat) :
    forgetRecv (ngxWaitRequestHandlerProcP1 cfg server c junk nowMs).1 = forgetRecv server := by
  unfold ngxWaitRequestHandlerProcP1
  dsimp only
  split_ifs
  · exact forget_recv_mod_conn server c _ rfl
  · exact forget_recv_mod_conn server c _ rfl
  · rw [forget_recv_plast, forget_recv_flood_check, forget_recv_alloc_buffer]
  · rw [forget_recv_mod_conn _ c _ rfl, forget_recv_alloc_buffer]

theorem forget_recv_body_complete (cfg : Config) (server : Server) (c : ConnId) (nowMs : Nat) :
    forgetRecv (bodyComplete cfg server c nowMs).1 = forgetRecv server := by
  rw [bodyComplete, forget_recv_plast, forget_recv_flood_check]

theorem forget_recv_receive_states (cfg : Config) (server : Server) (c : ConnId) (reco : Nat)
    (junk : Nat → Byte) (nowMs : Nat) :
    forgetRecv (receiveStates cfg server c reco junk nowMs).1 = forgetRecv server := by
  have advanced : ∀ stat,
      forgetRecv (server.modConn c (advanceRecv stat reco)) = forgetRecv server :=
    fun stat => forget_recv_mod_conn server c _ rfl
  unfold receiveStates
  dsimp only
  split <;> split
  · exact forget_recv_proc_p1 cfg server c junk nowMs
  · exact advanced _
  · exact forget_recv_proc_p1 cfg server c junk nowMs
  · exact advanced _
  · exact forget_recv_body_complete cfg server c nowMs
  · exact advanced _
  · exact forget_recv_body_complete cfg server c nowMs
  · exact advanced _

/-- `ngx_read_request_handler` works on receiving state, and may close the
connection as its last act. -/
theorem ngx_read_request_handler_frame (cfg : Config) (server : Server) (c : ConnId)
    (outcome : RecvOutcome) (junk : Nat → Byte) (nowMs : Nat) (now : Int) :
    ∃ received, forgetRecv received = forgetRecv server ∧
      (ngxReadRequestHandler cfg server c outcome junk nowMs now = received ∨
        ngxReadRequestHandler cfg server c outcome junk nowMs now =
          zdClosesocketProc cfg received c now) := by
  unfold ngxReadRequestHandler recvproc
  split_ifs
  · exact ⟨server, rfl, Or.inr rfl⟩
  · cases outcome with
    | data bytes =>
        have handled := (forget_recv_receive_states cfg (storeBytes server c bytes) c bytes.length
          junk nowMs).trans (forget_recv_store_bytes server c bytes)
        refine ⟨_, handled, ?_⟩
        dsimp only
        split
        · exact Or.inr rfl
        · exact Or.inl rfl
    | closed => exact ⟨server, rfl, Or.inr rfl⟩
    | again => exact ⟨server, rfl, Or.inl rfl⟩
    | error => exact ⟨server, rfl, Or.inr rfl⟩

def forgetSendConn (p : NgxConnection) : NgxConnection :=
  { p with
    send := NgxConnection.construct.send
    events := 0
    security.iSendCount := 0 }

def forgetSend (server : Server) : Server :=
  { server with
    conns := fun c => forgetSendConn (server.conns c)
    kmask := fun _ => none
    msgSendQueue := []
    iSendMsgQueueCount := 0
    semEventSendQueue := 0
    iDiscardSendPkgCount := 0
    sendPc := .semWait
    sheap := BlockHeap.empty
    ghost.queued := []
    ghost.sends := [] }

theorem forget_send_mod_conn (server : Server) (c : ConnId)
    (change : NgxConnection → NgxConnection)
    (kept : forgetSendConn (change (server.conns c)) = forgetSendConn (server.conns c)) :
    forgetSend (server.modConn c change) = forgetSend server := by
  have conns : (forgetSend (server.modConn c change)).conns = (forgetSend server).conns :=
    funext fun d => mod_conn_keeps forgetSendConn server c d change kept
  exact congrArg (fun conns => { forgetSend server with conns := conns }) conns

/-- `ngx_epoll_oper_event` changes the mask that the connection records and the
one that the kernel holds for it. -/
theorem ngx_epoll_oper_event_frame (server : Server) (fd : Int) (eventtype : EpollCtl)
    (flag : BitVec 32) (bcaction : Nat) (c : ConnId) (ctlOk : Bool) :
    ∃ events kmask, (ngxEpollOperEvent server fd eventtype flag bcaction c ctlOk).1 =
      { server with kmask := kmask }.modConn c fun p => { p with events := events } := by
  unfold ngxEpollOperEvent
  split
  · refine ⟨(server.conns c).events, server.kmask, ?_⟩
    simp [Server.modConn]
  · by_cases done : ctlOk ∧ fd ≠ -1
    · simp only [if_pos done]
      exact ⟨_, _, rfl⟩
    · simp only [if_neg done]
      exact ⟨_, server.kmask, rfl⟩

theorem forget_send_epoll_oper (server : Server) (fd : Int) (eventtype : EpollCtl)
    (flag : BitVec 32) (bcaction : Nat) (c : ConnId) (ctlOk : Bool) :
    forgetSend (ngxEpollOperEvent server fd eventtype flag bcaction c ctlOk).1 =
      forgetSend server := by
  obtain ⟨events, kmask, same⟩ :=
    ngx_epoll_oper_event_frame server fd eventtype flag bcaction c ctlOk
  rw [same]
  exact forget_send_mod_conn _ c _ rfl

theorem forget_send_sendproc (server : Server) (c : ConnId) (byWriteHandler partlySent : Bool)
    (outcome : SendOutcome) :
    forgetSend (sendproc server c byWriteHandler partlySent outcome).1 = forgetSend server := rfl

theorem forget_send_write_handler (server : Server) (c : ConnId) (outcome : SendOutcome)
    (ctlOk : Bool) :
    forgetSend (ngxWriteRequestHandler server c outcome ctlOk) = forgetSend server := by
  unfold ngxWriteRequestHandler
  dsimp only
  split_ifs
  · exact forget_send_mod_conn _ c _ rfl
  · rfl
  · exact (forget_send_mod_conn _ c _ rfl).trans (forget_send_epoll_oper _ _ _ _ _ _ _)
  · exact forget_send_mod_conn _ c _ rfl

theorem forget_send_write_side (server : Server) (c : ConnId) (revents : BitVec 32)
    (send : SendOutcome) (ctlOk : Bool) :
    forgetSend (writeSide server c revents send ctlOk) = forgetSend server := by
  unfold writeSide
  split_ifs
  · exact forget_send_mod_conn server c _ rfl
  · exact forget_send_write_handler server c send ctlOk
  · rfl

theorem forget_send_drop_packet (server : Server) (c : ConnId) :
    forgetSend (dropPacket server c) = forgetSend server := by
  rw [dropPacket]
  exact forget_send_mod_conn _ c _ rfl

theorem forget_send_await_writable (server : Server) (c : ConnId) (ctlOk : Bool) :
    forgetSend (awaitWritable server c ctlOk) = forgetSend server :=
  (forget_send_epoll_oper _ _ _ _ _ _ _).trans (forget_send_mod_conn server c _ rfl)

theorem forget_send_start_packet (server : Server) (pos pMsgBuf : Nat) (msg : MsgBuf) :
    forgetSend (startPacket server pos pMsgBuf msg) = forgetSend server :=
  forget_send_mod_conn (eraseElement server pos) _ _ rfl

theorem forget_send_send_element (server : Server) (pos pMsgBuf : Nat) (outcome : SendOutcome)
    (ctlOk : Bool) :
    forgetSend (sendElement server pos pMsgBuf outcome ctlOk) = forgetSend server := by
  unfold sendElement
  split
  · rfl
  · dsimp only
    split_ifs
    · rfl
    · rfl
    · unfold sendElementNow
      dsimp only
      split_ifs
      · rw [forget_send_drop_packet, forget_send_sendproc, forget_send_start_packet]
      · rw [forget_send_await_writable, forget_send_mod_conn _ _ _ rfl, forget_send_sendproc,
          forget_send_start_packet]
      · rw [forget_send_drop_packet, forget_send_sendproc, forget_send_start_packet]
      · rw [forget_send_await_writable, forget_send_sendproc, forget_send_start_packet]
      · rw [forget_send_drop_packet, forget_send_sendproc, forget_send_start_packet]

theorem forget_send_push (server : Server) (psendbuf : Nat) (msg : MsgBuf) :
    forgetSend (pushSendPkg server psendbuf msg) = forgetSend server := by
  rw [pushSendPkg]
  exact forget_send_mod_conn _ _ _ rfl

/-- What `msgSend` does with a reply: discard it, discard it and close the
connection, or queue it. -/
theorem queue_reply_cases (cfg : Config) (server : Server) (msg : MsgBuf) (now : Int) :
    queueReply cfg server msg now =
        discardSendPkg (allocReply server msg) server.sheap.next ∨
      400 < (server.conns msg.hdr.pConn).security.iSendCount ∧
        queueReply cfg server msg now = zdClosesocketProc cfg
          (discardSendPkg (allocReply server msg) server.sheap.next) msg.hdr.pConn now ∨
      queueReply cfg server msg now =
        pushSendPkg (allocReply server msg) server.sheap.next msg := by
  have stored : (allocReply server msg).sheap.block server.sheap.next = some msg :=
    BlockHeap.alloc_block_self server.sheap msg
  unfold queueReply msgSend
  rw [stored]
  split
  · exact Or.inl rfl
  · dsimp only
    split
    case isTrue flooded => exact Or.inr (Or.inl ⟨flooded, rfl⟩)
    case isFalse => exact Or.inr (Or.inr rfl)

/-- A handler's reply is sending state, unless it is one too many: then the
connection it goes to is closed. -/
theorem queue_reply_frame (cfg : Config) (server : Server) (msg : MsgBuf) (now : Int) :
    ∃ sent, forgetSend sent = forgetSend server ∧
      (queueReply cfg server msg now = sent ∨
        400 < (server.conns msg.hdr.pConn).security.iSendCount ∧
          queueReply cfg server msg now = zdClosesocketProc cfg sent msg.hdr.pConn now) := by
  rcases queue_reply_cases cfg server msg now with discarded | closed | queued
  · exact ⟨discardSendPkg (allocReply server msg) server.sheap.next, rfl, Or.inl discarded⟩
  · exact ⟨discardSendPkg (allocReply server msg) server.sheap.next, rfl, Or.inr closed⟩
  · exact ⟨_, forget_send_push (allocReply server msg) _ msg, Or.inl queued⟩

section Loops

variable {cfg : Config} {invariant : Server → Prop} {server after : Server}

/-- What the release of one connection keeps, a pass of the recycler keeps. -/
theorem recy_pass_keeps
    (released : ∀ server c, invariant server → invariant (releaseConnection server c))
    (currtime gStopEvent : Int) (holds : invariant server) :
    invariant (serverRecyConnectionPass cfg server currtime gStopEvent) := by
  have looped : ∀ rounds state, invariant state →
      invariant (lblRRTD cfg currtime gStopEvent rounds state) := by
    intro rounds
    induction rounds with
    | zero => exact fun _ => id
    | succ rounds ih =>
        intro state held
        unfold lblRRTD
        split
        · exact held
        case h_2 c found => exact ih _ (released state c held)
  unfold serverRecyConnectionPass
  split
  · exact looped _ server holds
  · exact holds

/-- What the set-up of one object and of one listening socket keeps,
`ngx_epoll_init` keeps. -/
theorem epoll_init_keeps {ctl : Int → Bool} {now : Int}
    (added : ∀ server, invariant server → invariant (addFreeConnection now server))
    (counted : ∀ (server : Server) (count : Int), invariant server →
      invariant { server with freeConnectionN := count, totalConnectionN := count })
    (listens : ∀ server fd after, listenOn ctl now server fd = some after →
      invariant server → invariant after)
    (done : ngxEpollInit cfg server ctl now = some after) (holds : invariant server) :
    invariant after := by
  have grown : ∀ count state, invariant state →
      invariant (Nat.iterate (addFreeConnection now) count state) := by
    intro count
    induction count with
    | zero => exact fun _ => id
    | succ count ih => exact fun state held => ih _ (added state held)
  have listened : ∀ fds state, invariant state →
      List.foldlM (listenOn ctl now) state fds = some after → invariant after := by
    intro fds
    induction fds with
    | nil =>
        intro state held same
        cases same
        exact held
    | cons fd rest ih =>
        intro state held loops
        rw [List.foldlM_cons] at loops
        obtain ⟨next, first, later⟩ := Option.bind_eq_some_iff.mp loops
        exact ih next (listens state fd next first held) later
  apply listened server.listenFds (initconnection cfg now server) ?_ done
  exact counted _ _ (grown cfg.workerConnections server holds)

theorem event_accept_keeps {nonblockOk ctlOk : Bool} {now : Int}
    (fallback : ∀ server, invariant server → invariant { server with useAccept4 := false })
    (accepts : ∀ server s, invariant server →
      invariant (acceptSocket cfg (openSocket server s) s nonblockOk ctlOk now))
    (outcomes : List AcceptOutcome) (holds : invariant server) :
    invariant (ngxEventAccept cfg server nonblockOk ctlOk now outcomes) := by
  induction outcomes generalizing server with
  | nil => exact holds
  | cons outcome rest ih =>
      cases outcome with
      | ok s => exact accepts server s holds
      | err code =>
          unfold ngxEventAccept
          split_ifs
          · exact holds
          · exact ih (fallback server holds)
          · exact holds

end Loops

end NgxServer.Frames
