import NgxServer.ByteStream

/-!
# Messages between the event loop and the workers

A message that was handed over, or that a worker has in hand, is filled by no
connection. No step but its own release changes it: connections write to, and
free, only what they are filling, and new messages get new addresses.
-/

namespace NgxServer.Messages

open NgxServer.Comm NgxServer.State NgxServer.ConnPool NgxServer.TimerQueue NgxServer.Socket
open NgxServer.Request NgxServer.Accept NgxServer.Logic NgxServer.System NgxServer.Frames
open NgxServer.PoolRefinement NgxServer.Occupancy NgxServer.RecvOwnership NgxServer.Reassembly
open NgxServer.ByteStream
open BlockHeap (null)

set_option autoImplicit false

structure Shelved (server : Server) (address : Nat) (msg : MsgBuf) : Prop where
  notNull : address ≠ null
  old : address < server.rheap.next
  content : server.rheap.block address = some msg
  unfilled : ∀ c, (server.conns c).recv.precvMemPointer ≠ address

structure Buried (server : Server) (address : Nat) : Prop where
  old : address < server.rheap.next
  dead : server.rheap.block address = none

/-- What is shelved or buried stays so, and `more` is appended to the receive
queue. -/
structure Aside (before after : Server) (more : List Nat) : Prop where
  shelved : ∀ address msg, Shelved before address msg → Shelved after address msg
  buried : ∀ address, Buried before address → Buried after address
  queue : after.msgRecvQueue = before.msgRecvQueue ++ more
  workers : after.workers = before.workers

section Rules

variable {before after : Server} {more : List Nat}

/-- A connection that fills something else than before fills nothing, or a new
message. -/
theorem aside_of_heap
    (pointers : ∀ c, (after.conns c).recv.precvMemPointer =
        (before.conns c).recv.precvMemPointer ∨
      (after.conns c).recv.precvMemPointer = null ∨
      before.rheap.next ≤ (after.conns c).recv.precvMemPointer)
    (next : before.rheap.next ≤ after.rheap.next)
    (content : ∀ address msg, Shelved before address msg →
      after.rheap.block address = some msg)
    (dead : ∀ address, Buried before address → after.rheap.block address = none)
    (queue : after.msgRecvQueue = before.msgRecvQueue ++ more)
    (workers : after.workers = before.workers) : Aside before after more where
  shelved := by
    intro address msg shelved
    refine ⟨shelved.notNull, Nat.lt_of_lt_of_le shelved.old next, content address msg shelved, ?_⟩
    intro c same
    have old := shelved.old
    rcases pointers c with kept | empty | new
    · exact shelved.unfilled c (kept.symm.trans same)
    · exact shelved.notNull (same.symm.trans empty)
    · omega
  buried := fun address buried =>
    ⟨Nat.lt_of_lt_of_le buried.old next, dead address buried⟩
  queue := queue
  workers := workers

theorem aside_of_same
    (pointers : ∀ c, (after.conns c).recv.precvMemPointer =
        (before.conns c).recv.precvMemPointer ∨
      (after.conns c).recv.precvMemPointer = null)
    (rheap : after.rheap = before.rheap) (queue : after.msgRecvQueue = before.msgRecvQueue)
    (workers : after.workers = before.workers) : Aside before after [] := by
  apply aside_of_heap
  case pointers => exact fun c => (pointers c).imp_right Or.inl
  case next => exact (congrArg BlockHeap.Heap.next rheap).ge
  case content =>
    intro address msg shelved
    rw [rheap]
    exact shelved.content
  case dead =>
    intro address buried
    rw [rheap]
    exact buried.dead
  case queue => rw [queue, List.append_nil]
  case workers => exact workers

theorem aside_of_recvs (same : recvState after = recvState before) : Aside before after [] :=
  aside_of_same
    (fun c => Or.inl (congrArg RecvPart.precvMemPointer
      (congrFun (congrArg RecvState.recvs same) c)))
    (congrArg RecvState.rheap same) (congrArg RecvState.queue same)
    (congrArg RecvState.workers same)

theorem aside_refl (server : Server) : Aside server server [] := aside_of_recvs rfl

theorem aside_trans {first second third : Server} {some others : List Nat}
    (early : Aside first second some) (late : Aside second third others) :
    Aside first third (some ++ others) where
  shelved := fun address msg held => late.shelved address msg (early.shelved address msg held)
  buried := fun address gone => late.buried address (early.buried address gone)
  queue := by rw [late.queue, early.queue, List.append_assoc]
  workers := late.workers.trans early.workers

theorem aside_of_send (same : forgetSend after = forgetSend before) : Aside before after [] := by
  have recvs := congrArg recvState same
  exact aside_of_recvs recvs

theorem aside_mod_conn (server : Server) (c : ConnId) (change : NgxConnection → NgxConnection)
    (kept : (change (server.conns c)).recv.precvMemPointer =
        (server.conns c).recv.precvMemPointer ∨
      (change (server.conns c)).recv.precvMemPointer = null) :
    Aside server (server.modConn c change) [] := by
  apply aside_of_same
  case pointers =>
    intro d
    rw [mod_conn_conns]
    split
    case isTrue same =>
      subst same
      exact kept
    case isFalse => exact Or.inl rfl
  case rheap => rfl
  case queue => rfl
  case workers => rfl

end Rules

section Pool

variable {server after : Server}

theorem aside_zd (cfg : Config) (server : Server) (c : ConnId) (now : Int) :
    Aside server (zdClosesocketProc cfg server c now) [] := by
  have same := congrArg recvState (forget_close_zd cfg server c now)
  exact aside_of_recvs same

/-- A connection that goes back to the free list frees what it was filling. -/
theorem aside_free_connection (server : Server) (c : ConnId) :
    Aside server (ngxFreeConnection server c) [] := by
  have freed : (ngxFreeConnection server c).rheap =
      BlockHeap.free server.rheap (server.conns c).recv.precvMemPointer := rfl
  apply aside_of_heap
  case pointers =>
    intro d
    rw [free_connection_pointers]
    split
    · exact Or.inr (Or.inl rfl)
    · exact Or.inl rfl
  case next => rw [freed, BlockHeap.free_next]
  case content =>
    intro address msg shelved
    rw [freed, BlockHeap.free_block, if_neg fun both => shelved.unfilled c both.2.symm]
    exact shelved.content
  case dead =>
    intro address buried
    rw [freed, BlockHeap.free_block, buried.dead, ite_self]
  case queue => exact (List.append_nil _).symm
  case workers => rfl

theorem aside_close_if_open (server : Server) (c : ConnId) :
    Aside server (closeIfOpen server c) [] := by
  have same := congrArg recvState (forget_close_close_if_open server c)
  exact aside_of_recvs same

theorem aside_close_connection (server : Server) (c : ConnId) :
    Aside server (ngxCloseConnection server c) [] :=
  aside_trans (aside_free_connection server c) (aside_close_if_open _ c)

theorem aside_get_connection (server : Server) (isock now : Int) :
    Aside server (ngxGetConnection server isock now).2 [] := by
  obtain ⟨base, _, _, _, _, _, -, same⟩ := ngx_get_connection_frame server isock now
  rw [same]
  apply aside_of_same
  case pointers =>
    intro c
    dsimp only
    by_cases issued : c = (ngxGetConnection server isock now).1
    · rw [issued, Function.update_self]
      exact Or.inr rfl
    · rw [Function.update_of_ne issued]
      exact Or.inl rfl
  case rheap => rfl
  case queue => rfl
  case workers => rfl

theorem aside_register_connection (cfg : Config) (server : Server) (newc : ConnId) (s : Int)
    (nonblockOk ctlOk : Bool) (now : Int) :
    Aside server (registerConnection cfg server newc s nonblockOk ctlOk now) [] := by
  have handled : Aside server
      (server.modConn newc fun p => { p with rhandler := .ngxReadRequestHandler }) [] :=
    aside_mod_conn server newc _ (Or.inl rfl)
  have operated := forget_send_epoll_oper
    (server.modConn newc fun p => { p with rhandler := .ngxReadRequestHandler }) s .add
    (epollIn ||| epollRdhup) 0 newc ctlOk
  have registered := aside_trans handled (aside_of_send operated)
  unfold registerConnection
  split
  · exact aside_close_connection server newc
  · dsimp only
    split
    · exact aside_trans registered (aside_close_connection _ newc)
    · apply aside_trans registered
      split
      · exact aside_of_recvs rfl
      · exact aside_of_recvs rfl

theorem aside_event_accept (cfg : Config) (nonblockOk ctlOk : Bool) (now : Int)
    (outcomes : List AcceptOutcome) (server : Server) :
    Aside server (ngxEventAccept cfg server nonblockOk ctlOk now outcomes) [] := by
  induction outcomes generalizing server with
  | nil => exact aside_refl server
  | cons outcome rest ih =>
      cases outcome with
      | err code =>
          have switched : Aside server { server with useAccept4 := false } [] :=
            aside_of_recvs rfl
          unfold ngxEventAccept
          split_ifs
          · exact aside_refl server
          · exact aside_trans switched (ih _)
          · exact aside_refl server
      | ok s =>
          have opened : Aside server (openSocket server s) [] := aside_of_recvs rfl
          have issued := aside_get_connection (openSocket server s) s now
          have served : Aside (ngxGetConnection (openSocket server s) s now).2
              (openOccupancy (ngxGetConnection (openSocket server s) s now).2
                (ngxGetConnection (openSocket server s) s now).1) [] := aside_of_recvs rfl
          apply aside_trans opened
          change Aside (openSocket server s)
            (acceptSocket cfg (openSocket server s) s nonblockOk ctlOk now) []
          unfold acceptSocket
          split_ifs
          · exact aside_of_recvs rfl
          · exact aside_of_recvs rfl
          · exact aside_trans issued
              (aside_trans served (aside_register_connection cfg _ _ s nonblockOk ctlOk now))

theorem aside_add_free_connection (now : Int) (server : Server) :
    Aside server (addFreeConnection now server) [] := by
  have added : Aside server
      (server.modConn server.connObjects fun _ => getOneToUse now NgxConnection.construct) [] :=
    aside_mod_conn server server.connObjects _ (Or.inr rfl)
  have listed : Aside
      (server.modConn server.connObjects fun _ => getOneToUse now NgxConnection.construct)
      (addFreeConnection now server) [] := aside_of_recvs rfl
  exact aside_trans added listed

theorem aside_initconnection (cfg : Config) (now : Int) (server : Server) :
    Aside server (initconnection cfg now server) [] := by
  have filled : ∀ count state,
      Aside state (Nat.iterate (addFreeConnection now) count state) [] := by
    intro count
    induction count with
    | zero => exact fun state => aside_refl state
    | succ count ih =>
        intro state
        exact aside_trans (aside_add_free_connection now state) (ih (addFreeConnection now state))
  exact aside_trans (filled cfg.workerConnections server) (aside_of_recvs rfl)

theorem aside_mark_listening (server : Server) (c : ConnId) :
    Aside server (markListening server c) [] := by
  have listed : Aside server { server with listenConns := server.listenConns ++ [c] } [] :=
    aside_of_recvs rfl
  exact aside_trans listed
    (aside_mod_conn _ c (fun p => { p with rhandler := .ngxEventAccept }) (Or.inl rfl))

theorem aside_listen_on {ctl : Int → Bool} {now fd : Int}
    (done : listenOn ctl now server fd = some after) : Aside server after [] := by
  have issued := aside_get_connection server fd now
  have marked := aside_mark_listening (ngxGetConnection server fd now).2
    (ngxGetConnection server fd now).1
  unfold listenOn at done
  dsimp only at done
  split at done
  · cases done
  · cases done
    exact aside_trans issued (aside_trans marked
      (aside_of_send (forget_send_epoll_oper _ _ _ _ _ _ _)))

theorem aside_epoll_init {cfg : Config} {ctl : Int → Bool} {now : Int}
    (done : ngxEpollInit cfg server ctl now = some after) : Aside server after [] := by
  have reserved : ∀ fds state,
      List.foldlM (listenOn ctl now) state fds = some after → Aside state after [] := by
    intro fds
    induction fds with
    | nil =>
        intro state same
        cases same
        exact aside_refl _
    | cons fd rest ih =>
        intro state loops
        rw [List.foldlM_cons] at loops
        obtain ⟨next, listens, later⟩ := Option.bind_eq_some_iff.mp loops
        exact aside_trans (aside_listen_on listens) (ih next later)
  exact aside_trans (aside_initconnection cfg now server) (reserved server.listenFds _ done)

theorem aside_recy_connection_pass (cfg : Config) (currtime gStopEvent : Int)
    (server : Server) :
    Aside server (serverRecyConnectionPass cfg server currtime gStopEvent) [] := by
  have released : ∀ state c, Aside state (releaseConnection state c) [] := by
    intro state c
    have erased : Aside state
        { state with
          totolRecyconnectionN := state.totolRecyconnectionN - 1
          recyconnectionList := state.recyconnectionList.erase c } [] := aside_of_recvs rfl
    exact aside_trans erased (aside_free_connection _ c)
  have looped : ∀ rounds state,
      Aside state (lblRRTD cfg currtime gStopEvent rounds state) [] := by
    intro rounds
    induction rounds with
    | zero => exact fun state => aside_refl state
    | succ rounds ih =>
        intro state
        unfold lblRRTD
        split
        · exact aside_refl state
        case h_2 c found => exact aside_trans (released state c) (ih _)
  unfold serverRecyConnectionPass
  split
  · exact looped _ server
  · exact aside_refl server

end Pool

section Receiving

variable {server after : Server} {c : ConnId}

theorem aside_flood_check (cfg : Config) (server : Server) (c : ConnId) (nowMs : Nat) :
    Aside server (floodCheck cfg server c nowMs).1 [] := by
  unfold floodCheck
  split
  · dsimp only [testFlood]
    exact aside_mod_conn server c _ (Or.inl rfl)
  · exact aside_refl server

/-- A complete message is handed over, or freed if it is the end of a flood. -/
theorem aside_plast (server : Server) (c : ConnId) (isflood : Bool) :
    ∃ more, Aside server (ngxWaitRequestHandlerProcPlast server c isflood) more := by
  have forgotten : ∀ handedOver : Server, Aside handedOver
      (handedOver.modConn c fun p => headWindow { p with recv.precvMemPointer := null }) [] :=
    fun handedOver => aside_mod_conn handedOver c _ (Or.inr rfl)
  cases isflood with
  | false =>
      have queued : Aside server
          (inMsgRecvQueueAndSignal server (server.conns c).recv.precvMemPointer)
          [(server.conns c).recv.precvMemPointer] :=
        ⟨fun _ _ shelved => ⟨shelved.notNull, shelved.old, shelved.content, shelved.unfilled⟩,
          fun _ gone => ⟨gone.old, gone.dead⟩, rfl, rfl⟩
      exact ⟨_, aside_trans queued (forgotten _)⟩
  | true =>
      refine ⟨[], ?_⟩
      apply aside_of_heap
      case pointers =>
        intro d
        rw [plast_pointers]
        split
        · exact Or.inr (Or.inl rfl)
        · exact Or.inl rfl
      case next => exact (BlockHeap.free_next _ _).ge
      case content =>
        intro address msg shelved
        rw [plast_block true (shelved.unfilled c).symm]
        exact shelved.content
      case dead =>
        intro address gone
        exact (BlockHeap.free_block _ _ _).trans (by rw [gone.dead, ite_self])
      case queue => exact (List.append_nil _).symm
      case workers => rfl

theorem aside_alloc_buffer (server : Server) (c : ConnId) (ePkgLen : Nat) (junk : Nat → Byte) :
    Aside server (allocBuffer server c ePkgLen junk) [] := by
  have heap : (allocBuffer server c ePkgLen junk).rheap =
      BlockHeap.alloc server.rheap (stampedBuffer server c ePkgLen junk) := rfl
  apply aside_of_heap
  case pointers =>
    intro d
    rw [allocBuffer, mod_conn_conns]
    split
    · exact Or.inr (Or.inr (Nat.le_refl _))
    · exact Or.inl rfl
  case next => exact Nat.le_succ _
  case content =>
    intro address msg shelved
    rw [heap, BlockHeap.alloc_block, if_neg (Nat.ne_of_lt shelved.old)]
    exact shelved.content
  case dead =>
    intro address gone
    rw [heap, BlockHeap.alloc_block, if_neg (Nat.ne_of_lt gone.old)]
    exact gone.dead
  case queue => exact (List.append_nil _).symm
  case workers => rfl

theorem aside_tested_plast (cfg : Config) (server : Server) (c : ConnId) (nowMs : Nat) :
    ∃ more, Aside server (bodyComplete cfg server c nowMs).1 more := by
  obtain ⟨more, finished⟩ := aside_plast (floodCheck cfg server c nowMs).1 c
    (floodCheck cfg server c nowMs).2
  exact ⟨_, aside_trans (aside_flood_check cfg server c nowMs) finished⟩

theorem aside_receive_states (cfg : Config) (server : Server) (c : ConnId) (reco : Nat)
    (junk : Nat → Byte) (nowMs : Nat) :
    ∃ more, Aside server (receiveStates cfg server c reco junk nowMs).1 more := by
  have windowed : ∀ (state : Server) (change : NgxConnection → NgxConnection),
      (change (state.conns c)).recv.precvMemPointer = (state.conns c).recv.precvMemPointer →
      ∃ more, Aside state (state.modConn c change) more :=
    fun state change kept => ⟨[], aside_mod_conn state c change (Or.inl kept)⟩
  rcases receive_states_cases cfg server c reco junk nowMs with
    ⟨stat, same⟩ | ⟨-, same⟩ | ⟨-, same⟩
  · rw [same]
    exact windowed server _ rfl
  · rw [same]
    unfold ngxWaitRequestHandlerProcP1
    dsimp only
    have allocated := aside_alloc_buffer server c (pkgLen (server.conns c).recv.dataHeadInfo) junk
    split_ifs
    · exact windowed server _ rfl
    · exact windowed server _ rfl
    · obtain ⟨more, finished⟩ := aside_tested_plast cfg
        (allocBuffer server c (pkgLen (server.conns c).recv.dataHeadInfo) junk) c nowMs
      exact ⟨_, aside_trans allocated finished⟩
    · obtain ⟨more, opened⟩ := windowed
        (allocBuffer server c (pkgLen (server.conns c).recv.dataHeadInfo) junk)
        (bodyWindow (pkgLen (server.conns c).recv.dataHeadInfo)) rfl
      exact ⟨_, aside_trans allocated opened⟩
  · rw [same]
    exact aside_tested_plast cfg server c nowMs

theorem aside_store_bytes {rest : List Byte} (holding : Holding server c rest)
    (bytes : List Byte) : Aside server (storeBytes server c bytes) [] := by
  apply aside_of_heap
  case pointers => exact fun d => Or.inl (store_bytes_pointer server c d bytes)
  case next =>
    unfold storeBytes
    split
    · exact Nat.le_refl _
    · exact Nat.le_refl _
  case content =>
    intro address msg shelved
    rw [store_bytes_block holding (shelved.unfilled c).symm]
    exact shelved.content
  case dead =>
    intro address gone
    unfold storeBytes
    split
    · exact gone.dead
    · exact (BlockHeap.modify_block _ _ _ _).trans (by rw [gone.dead]; exact ite_self _)
  case queue => rw [store_bytes_queue, List.append_nil]
  case workers =>
    unfold storeBytes
    split
    · rfl
    · rfl

theorem aside_read_request_handler {cfg : Config} (receives : (server.conns c).fd ≠ -1 →
      ∃ rest, Holding server c rest) (outcome : RecvOutcome) (junk : Nat → Byte) (nowMs : Nat)
    (now : Int) :
    ∃ more, Aside server (ngxReadRequestHandler cfg server c outcome junk nowMs now) more := by
  have closed : ∃ more, Aside server (zdClosesocketProc cfg server c now) more :=
    ⟨[], aside_zd cfg server c now⟩
  unfold ngxReadRequestHandler recvproc
  split_ifs with opened
  · exact closed
  · cases outcome with
    | data bytes =>
        obtain ⟨rest, holding⟩ := receives opened
        obtain ⟨more, handled⟩ := aside_receive_states cfg (storeBytes server c bytes) c
          bytes.length junk nowMs
        have received := aside_trans (aside_store_bytes holding bytes) handled
        dsimp only
        split
        · exact ⟨_, aside_trans received (aside_zd cfg _ c now)⟩
        · exact ⟨_, received⟩
    | closed => exact closed
    | again => exact ⟨[], aside_refl server⟩
    | error => exact closed

end Receiving

section Steps

variable {cfg : Config} {server after : Server} {act : Act}

theorem aside_process_message (cfg : Config) (server : Server) (jobbuf : Nat)
    (junk : Nat → Byte) (now : Int) :
    Aside server (processMessage cfg server jobbuf junk now) [] := by
  have queued : ∀ (state : Server) (answer : MsgBuf),
      Aside state (queueReply cfg state answer now) [] := by
    intro state answer
    obtain ⟨sent, same, ends⟩ := queue_reply_frame cfg state answer now
    rcases ends with queued | ⟨-, closed⟩
    · rw [queued]
      exact aside_of_send same
    · rw [closed]
      exact aside_trans (aside_of_send same) (aside_zd cfg sent _ now)
  rcases process_message_cases cfg server jobbuf junk now with
    same | ⟨msg, dispatched, live, current, logged, ends⟩
  · rw [same]
    exact aside_refl server
  · have early : Aside server dispatched [] := by
      rw [logged]
      exact aside_of_recvs rfl
    rcases ends with silent | ⟨answer, noted, header, -, notes, replies⟩
    · rw [silent]
      exact early
    · rw [replies]
      apply aside_trans early
      rcases notes with same | same
      · rw [same]
        exact queued dispatched answer
      · rw [same]
        exact aside_trans (aside_mod_conn dispatched _ _ (Or.inl rfl)) (queued _ answer)

theorem aside_ping_check (cfg : Config) (server : Server) (tmpmsg : Nat) (curTime now : Int) :
    Aside server (procPingTimeOutChecking cfg server tmpmsg curTime now) [] := by
  unfold procPingTimeOutChecking
  split
  · exact aside_refl server
  case h_2 record found =>
    have freed : ∀ checked : Server, Aside checked (freeRecord checked tmpmsg) [] :=
      fun _ => aside_of_recvs rfl
    have kicked : Aside server (kickOverdue cfg server record curTime now) [] := by
      unfold kickOverdue
      split_ifs
      · have logged : Aside server (logKick server record) [] := aside_of_recvs rfl
        exact aside_trans logged (aside_zd cfg _ record.pConn now)
      · exact aside_refl server
      · exact aside_refl server
    exact aside_trans kicked (freed _)

def OfWorker : Act → Prop
  | .take _ | .process _ _ _ | .release _ => True
  | _ => False

def Reads : Act → Prop
  | .event _ _ _ _ _ _ _ _ => True
  | _ => False

/-- Only the event loop hands messages over, and only a worker disposes of one. -/
theorem aside_step (attributed : Attributed server) (receiving : Receiving server)
    (disciplined : Disciplined server act) (idle : ¬ OfWorker act)
    (taken : step cfg server act = some after) :
    ∃ more, Aside server after more ∧ (¬ Reads act → more = []) := by
  have quietly : Aside server after [] →
      ∃ more, Aside server after more ∧ (¬ Reads act → more = []) :=
    fun aside => ⟨[], aside, fun _ => rfl⟩
  cases stepped_of_step taken with
  | epollInit ctl now _ empty done => exact quietly (aside_epoll_init done)
  | accept oldc outcomes nonblockOk ctlOk now =>
      exact quietly (aside_event_accept cfg nonblockOk ctlOk now outcomes server)
  | event c revents recv send ctlOk junk nowMs now =>
      have receives : (server.conns c).fd ≠ -1 → ∃ rest, Holding server c rest := fun opened =>
        receiving.holds c (open_in_service attributed.settled disciplined opened)
      have read : ∃ more,
          Aside server (readSide cfg server c revents recv junk nowMs now) more := by
        unfold readSide
        split
        · exact aside_read_request_handler receives recv junk nowMs now
        · exact ⟨[], aside_refl server⟩
      obtain ⟨more, aside⟩ := read
      have written := aside_of_send (forget_send_write_side
        (readSide cfg server c revents recv junk nowMs now) c revents send ctlOk)
      exact ⟨_, aside_trans aside written, fun quiet => absurd trivial quiet⟩
  | msgSend msg now =>
      obtain ⟨sent, same, ends⟩ := queue_reply_frame cfg server msg now
      rcases ends with queued | ⟨-, closed⟩
      · rw [queued] at quietly ⊢
        exact quietly (aside_of_send same)
      · rw [closed] at quietly ⊢
        exact quietly (aside_trans (aside_of_send same) (aside_zd cfg sent _ now))
  | semWait interrupted => exact quietly (aside_of_recvs rfl)
  | beginPass => exact quietly (aside_of_recvs rfl)
  | element outcome ctlOk pos pMsgBuf =>
      exact quietly (aside_of_send (forget_send_send_element server pos pMsgBuf outcome ctlOk))
  | endPass => exact quietly (aside_of_recvs rfl)
  | take => exact absurd trivial idle
  | process => exact absurd trivial idle
  | release => exact absurd trivial idle
  | monitorPop curTime =>
      have same := congrArg recvState (forget_monitor_pop cfg server curTime)
      exact quietly (aside_of_recvs same)
  | monitorCheck now tmpmsg rest =>
      have popped : Aside server { server with lsIdleList := rest } [] := aside_of_recvs rfl
      exact quietly (aside_trans popped
        (aside_ping_check cfg { server with lsIdleList := rest } tmpmsg server.monitorTime now))
  | recycle currtime => exact quietly (aside_recy_connection_pass cfg currtime 0 server)
  | close c now => exact quietly (aside_zd cfg server c now)

/-- What waits for a worker, or is in the hands of one, lies aside. -/
theorem held_shelved (owned : Owned server) {holder : BufHolder} {address : Nat}
    (held : Holds server holder address) (aside : ∀ c, holder ≠ .conn c) :
    ∃ msg, Shelved server address msg := by
  have notNull := Ownership.held_ne_null owned.exclusive held
  obtain ⟨msg, content⟩ :=
    Option.isSome_iff_exists.mp (owned.exclusive.live holder address held)
  refine ⟨msg, notNull, (owned.exclusive.wellFormed.bounded address msg content).2, content, ?_⟩
  intro c same
  exact aside c (owned.exclusive.unique holder (.conn c) address held ⟨same, notNull⟩)

end Steps

end NgxServer.Messages
