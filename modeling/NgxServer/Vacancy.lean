import NgxServer.Messages
import NgxServer.PoolPartition
import NgxServer.SendAccounting
import NgxServer.TimerCoverage

/-!
# A process that everybody has left

When no client is connected, nobody waits for recycling and nothing is queued,
a worker process is as it was before the first client came: every buffer,
packet and timer record has been freed, once, every connection object is free
again, and only the listening sockets are open. This is so whatever the run
was that led there.
-/

namespace NgxServer.Vacancy

open NgxServer.Comm NgxServer.State NgxServer.ConnPool NgxServer.TimerQueue NgxServer.Socket
open NgxServer.Request NgxServer.Accept NgxServer.Logic NgxServer.System NgxServer.Frames
open NgxServer.PoolRefinement NgxServer.Occupancy NgxServer.Session NgxServer.TimerClock
open NgxServer.Clients NgxServer.SendMachine NgxServer.SendFraming NgxServer.SendAccounting
open NgxServer.RecvOwnership (OthersSame others_refl others_trans others_mod_conn plast_others
  alloc_buffer_others flood_check_recv)
open BlockHeap (Returned null)
open QuarantinePool (Settled InService)

set_option autoImplicit false

def BuffersKept (server : Server) : Prop := BlockHeap.Accounted server.rheap

section Buffers

variable {cfg : Config} {server after : Server}

theorem buffers_of_same (kept : BuffersKept server)
    (same : after.rheap = server.rheap) : BuffersKept after := by
  rw [BuffersKept, same]
  exact kept

theorem buffers_zd (kept : BuffersKept server) (cfg : Config) (c : ConnId)
    (now : Int) : BuffersKept (zdClosesocketProc cfg server c now) := by
  have same := congrArg Server.rheap (forget_close_zd cfg server c now)
  exact buffers_of_same kept same

theorem buffers_store_bytes (kept : BuffersKept server) (c : ConnId)
    (bytes : List Byte) : BuffersKept (storeBytes server c bytes) := by
  unfold storeBytes
  split
  · exact kept
  · exact BlockHeap.modify_accounted kept _ _

theorem buffers_plast (kept : BuffersKept server) (c : ConnId) (isflood : Bool) :
    BuffersKept (ngxWaitRequestHandlerProcPlast server c isflood) := by
  cases isflood with
  | false => exact kept
  | true => exact BlockHeap.free_accounted kept _

theorem buffers_flood_plast (kept : BuffersKept server) (cfg : Config) (c : ConnId)
    (nowMs : Nat) (isflood : Bool) :
    BuffersKept (ngxWaitRequestHandlerProcPlast (floodCheck cfg server c nowMs).1 c
      isflood) := by
  apply buffers_plast
  exact buffers_of_same kept (flood_check_rheap cfg server c nowMs)

theorem buffers_proc_p1 (kept : BuffersKept server) (cfg : Config) (c : ConnId)
    (junk : Nat → Byte) (nowMs : Nat) :
    BuffersKept (ngxWaitRequestHandlerProcP1 cfg server c junk nowMs).1 := by
  have allocated : ∀ ePkgLen, BuffersKept (allocBuffer server c ePkgLen junk) :=
    fun _ => BlockHeap.alloc_accounted kept _
  unfold ngxWaitRequestHandlerProcP1
  dsimp only
  split_ifs
  · exact kept
  · exact kept
  · exact buffers_flood_plast (allocated _) cfg c nowMs _
  · exact allocated _

theorem buffers_receive_states (kept : BuffersKept server) (cfg : Config)
    (c : ConnId) (reco : Nat) (junk : Nat → Byte) (nowMs : Nat) :
    BuffersKept (receiveStates cfg server c reco junk nowMs).1 := by
  have header := buffers_proc_p1 kept cfg c junk nowMs
  have body : BuffersKept (bodyComplete cfg server c nowMs).1 :=
    buffers_flood_plast kept cfg c nowMs _
  unfold receiveStates
  dsimp only
  split
  all_goals
    split
    · assumption
    · exact kept

theorem buffers_read_side (kept : BuffersKept server) (cfg : Config) (c : ConnId)
    (revents : BitVec 32) (recv : RecvOutcome) (junk : Nat → Byte) (nowMs : Nat) (now : Int) :
    BuffersKept (readSide cfg server c revents recv junk nowMs now) := by
  have closed := buffers_zd kept cfg c now
  unfold readSide
  split
  case isFalse => exact kept
  case isTrue =>
    unfold ngxReadRequestHandler recvproc
    split_ifs
    · exact closed
    · cases recv with
      | data bytes =>
          have stored := buffers_store_bytes kept c bytes
          have handled := buffers_receive_states stored cfg c bytes.length junk nowMs
          dsimp only
          split
          · exact buffers_zd handled cfg c now
          · exact handled
      | again => exact kept
      | closed | error => exact closed

theorem buffers_of_send (kept : BuffersKept server)
    (same : forgetSend after = forgetSend server) : BuffersKept after := by
  have rheap := congrArg Server.rheap same
  exact buffers_of_same kept rheap

theorem buffers_queue_reply (kept : BuffersKept server) (cfg : Config)
    (msg : MsgBuf) (now : Int) : BuffersKept (queueReply cfg server msg now) := by
  obtain ⟨sent, same, ends⟩ := queue_reply_frame cfg server msg now
  have quiet := buffers_of_send kept same
  rcases ends with queued | closed
  · rw [queued]
    exact quiet
  · rw [closed.2]
    exact buffers_zd quiet cfg _ now

theorem buffers_process (kept : BuffersKept server) (cfg : Config) (jobbuf : Nat)
    (junk : Nat → Byte) (now : Int) :
    BuffersKept (processMessage cfg server jobbuf junk now) := by
  rcases process_message_cases cfg server jobbuf junk now with
    same | ⟨msg, dispatched, -, -, logged, ends⟩
  · rw [same]
    exact kept
  · have early : BuffersKept dispatched := by
      rw [logged]
      exact kept
    rcases ends with silent | ⟨answer, noted, -, -, notes, replies⟩
    · rw [silent]
      exact early
    · rw [replies]
      apply buffers_queue_reply
      rcases notes with same | same
      · rw [same]
        exact early
      · rw [same]
        exact early

theorem buffers_ping_check (kept : BuffersKept server) (cfg : Config) (tmpmsg : Nat)
    (curTime now : Int) :
    BuffersKept (procPingTimeOutChecking cfg server tmpmsg curTime now) := by
  unfold procPingTimeOutChecking
  split
  · exact kept
  case h_2 record live =>
    have logged : BuffersKept (logKick server record) := kept
    have kicked : BuffersKept (kickOverdue cfg server record curTime now) := by
      unfold kickOverdue
      split_ifs
      · exact buffers_zd logged cfg record.pConn now
      · exact kept
      · exact kept
    exact kicked

theorem buffers_close_connection (kept : BuffersKept server) (c : ConnId) :
    BuffersKept (ngxCloseConnection server c) := by
  have freed : BuffersKept (ngxFreeConnection server c) :=
    BlockHeap.free_accounted kept _
  unfold ngxCloseConnection closeIfOpen
  split
  · exact freed
  · exact freed

theorem buffers_get_connection (kept : BuffersKept server) (isock now : Int) :
    BuffersKept (ngxGetConnection server isock now).2 := by
  unfold ngxGetConnection
  split
  · exact kept
  · exact kept

theorem buffers_epoll_oper (kept : BuffersKept server) (fd : Int)
    (eventtype : EpollCtl) (flag : BitVec 32) (bcaction : Nat) (c : ConnId) (ctlOk : Bool) :
    BuffersKept (ngxEpollOperEvent server fd eventtype flag bcaction c ctlOk).1 :=
  buffers_of_send kept
    (forget_send_epoll_oper server fd eventtype flag bcaction c ctlOk)

theorem buffers_register (kept : BuffersKept server) (cfg : Config) (newc : ConnId)
    (s : Int) (nonblockOk ctlOk : Bool) (now : Int) :
    BuffersKept (registerConnection cfg server newc s nonblockOk ctlOk now) := by
  have handled : BuffersKept
      (server.modConn newc fun p => { p with rhandler := .ngxReadRequestHandler }) :=
    kept
  have registered := buffers_epoll_oper handled s .add (epollIn ||| epollRdhup) 0 newc ctlOk
  unfold registerConnection
  split
  · exact buffers_close_connection kept newc
  · dsimp only
    split
    · exact buffers_close_connection registered newc
    · split
      · exact registered
      · exact registered

theorem buffers_accept_socket (kept : BuffersKept server) (cfg : Config) (s : Int)
    (nonblockOk ctlOk : Bool) (now : Int) :
    BuffersKept (acceptSocket cfg server s nonblockOk ctlOk now) := by
  have issued := buffers_get_connection kept s now
  have opened : BuffersKept (openOccupancy (ngxGetConnection server s now).2
      (ngxGetConnection server s now).1) := issued
  unfold acceptSocket
  split_ifs
  · exact kept
  · exact kept
  · exact buffers_register opened cfg _ s nonblockOk ctlOk now

theorem buffers_listen_on (kept : BuffersKept server) (ctl : Int → Bool)
    (now fd : Int) (listens : listenOn ctl now server fd = some after) :
    BuffersKept after := by
  have issued := buffers_get_connection kept fd now
  have marked : BuffersKept (markListening (ngxGetConnection server fd now).2
      (ngxGetConnection server fd now).1) := issued
  unfold listenOn at listens
  dsimp only at listens
  split at listens
  · cases listens
  · cases listens
    exact buffers_epoll_oper marked fd .add _ 0 _ (ctl fd)

theorem buffers_step {act : Act} (kept : BuffersKept server)
    (taken : step cfg server act = some after) : BuffersKept after := by
  cases stepped_of_step taken with
  | epollInit ctl now _ empty done =>
      apply epoll_init_keeps ?_ ?_ ?_ done kept
      · exact fun _ held => held
      · exact fun _ _ held => held
      · exact fun _ fd _ listens held => buffers_listen_on held ctl now fd listens
  | accept oldc outcomes nonblockOk ctlOk now =>
      apply event_accept_keeps ?_ ?_ outcomes kept
      · exact fun _ held => held
      · intro state s held
        have opened : BuffersKept (openSocket state s) := held
        exact buffers_accept_socket opened cfg s nonblockOk ctlOk now
  | event c revents recv send ctlOk junk nowMs now =>
      have read := buffers_read_side kept cfg c revents recv junk nowMs now
      exact buffers_of_send read (forget_send_write_side _ c revents send ctlOk)
  | msgSend msg now => exact buffers_queue_reply kept cfg msg now
  | element outcome ctlOk pos pMsgBuf =>
      exact buffers_of_send kept
        (forget_send_send_element server pos pMsgBuf outcome ctlOk)
  | process worker jobbuf junk now => exact buffers_process kept cfg jobbuf junk now
  | release worker jobbuf => exact BlockHeap.free_accounted kept jobbuf
  | monitorPop curTime =>
      have same := congrArg Server.rheap (forget_monitor_pop cfg server curTime)
      exact buffers_of_same kept same
  | monitorCheck now tmpmsg rest =>
      have popped : BuffersKept { server with lsIdleList := rest } := kept
      exact buffers_ping_check popped cfg tmpmsg server.monitorTime now
  | recycle currtime =>
      apply recy_pass_keeps ?_ currtime 0 kept
      exact fun _ _ held => BlockHeap.free_accounted held _
  | close c now => exact buffers_zd kept cfg c now
  | semWait | beginPass | endPass | take => exact kept

theorem reachable_buffers {allowed : Server → Act → Prop}
    (reached : Reachable cfg allowed server) : BuffersKept server := by
  apply TransitionSystem.invariant_of_step _ ?_ ?_ reached
  · intro start fresh
    obtain ⟨listenFds, -, -, rfl⟩ := fresh
    exact BlockHeap.empty_accounted
  · exact fun _ _ _ held _ taken => buffers_step held taken

end Buffers

def HoldsNothing (p : NgxConnection) : Prop :=
  p.recv.precvMemPointer = null ∧ p.send.psendMemPointer = null

/-- Listening sockets, and objects that the pool does not have, hold nothing. -/
def Spotless (server : Server) : Prop :=
  ∀ c, c ∈ server.listenConns ∨ c ∉ server.connectionList → HoldsNothing (server.conns c)

/-- Among the objects of `which`, none gets a buffer or a packet. -/
def Cleans (which : ConnId → Prop) (before after : Server) : Prop :=
  ∀ c, which c → HoldsNothing (before.conns c) → HoldsNothing (after.conns c)

def CleansAll : Server → Server → Prop := Cleans fun _ => True

def CleansBut (c : ConnId) : Server → Server → Prop := Cleans fun d => d ≠ c

section Objects

variable {cfg : Config} {server middle after : Server} {which : ConnId → Prop}

theorem cleans_trans (early : Cleans which server middle) (late : Cleans which middle after) :
    Cleans which server after :=
  fun c among clean => late c among (early c among clean)

theorem cleans_all (clean : CleansAll server after) : Cleans which server after :=
  fun c _ => clean c trivial

theorem cleans_pointers
    (recv : ∀ c, which c → (after.conns c).recv.precvMemPointer =
      (server.conns c).recv.precvMemPointer)
    (send : ∀ c, which c → (after.conns c).send.psendMemPointer =
      (server.conns c).send.psendMemPointer) : Cleans which server after := by
  intro c among clean
  constructor
  · rw [recv c among]
    exact clean.1
  · rw [send c among]
    exact clean.2

theorem cleans_mod_conn (server : Server) (c : ConnId) (change : NgxConnection → NgxConnection)
    (kept : HoldsNothing (server.conns c) → HoldsNothing (change (server.conns c))) :
    CleansAll server (server.modConn c change) := by
  intro d _ clean
  rw [mod_conn_conns]
  split
  case isTrue same =>
    rw [same] at clean
    exact kept clean
  case isFalse => exact clean

theorem cleans_but_mod_conn (server : Server) (c : ConnId)
    (change : NgxConnection → NgxConnection) : CleansBut c server (server.modConn c change) := by
  intro d other clean
  rw [mod_conn_conns, if_neg other]
  exact clean

theorem cleans_zd (cfg : Config) (server : Server) (c : ConnId) (now : Int) :
    CleansAll server (zdClosesocketProc cfg server c now) := by
  have conns := congrArg Server.conns (forget_close_zd cfg server c now)
  intro d _ clean
  have same := congrArg (fun conns : ConnId → NgxConnection => HoldsNothing (conns d)) conns
  have kept : HoldsNothing ((zdClosesocketProc cfg server c now).conns d) =
      HoldsNothing (server.conns d) := same
  rw [kept]
  exact clean

theorem cleans_epoll_oper (server : Server) (fd : Int) (eventtype : EpollCtl)
    (flag : BitVec 32) (bcaction : Nat) (c : ConnId) (ctlOk : Bool) :
    CleansAll server (ngxEpollOperEvent server fd eventtype flag bcaction c ctlOk).1 := by
  obtain ⟨events, kmask, same⟩ :=
    ngx_epoll_oper_event_frame server fd eventtype flag bcaction c ctlOk
  rw [same]
  exact cleans_mod_conn { server with kmask := kmask } c _ id

theorem cleans_push (server : Server) (psendbuf : Nat) (msg : MsgBuf) :
    CleansAll server (pushSendPkg server psendbuf msg) :=
  cleans_mod_conn
    { server with
      msgSendQueue := server.msgSendQueue ++ [psendbuf]
      iSendMsgQueueCount := server.iSendMsgQueueCount + 1
      semEventSendQueue := server.semEventSendQueue + 1
      ghost.queued := server.ghost.queued ++ [(psendbuf, msg)] } msg.hdr.pConn _ id

theorem cleans_queue_reply (cfg : Config) (server : Server) (msg : MsgBuf) (now : Int) :
    CleansAll server (queueReply cfg server msg now) := by
  have discarded : CleansAll server
      (discardSendPkg (allocReply server msg) server.sheap.next) := fun _ _ => id
  rcases queue_reply_cases cfg server msg now with same | ⟨-, closed⟩ | queued
  · rw [same]
    exact discarded
  · rw [closed]
    exact cleans_trans discarded (cleans_zd cfg _ _ now)
  · rw [queued]
    exact cleans_push (allocReply server msg) _ msg

theorem cleans_process (cfg : Config) (server : Server) (jobbuf : Nat) (junk : Nat → Byte)
    (now : Int) : CleansAll server (processMessage cfg server jobbuf junk now) := by
  rcases process_message_cases cfg server jobbuf junk now with
    same | ⟨msg, dispatched, -, -, logged, ends⟩
  · rw [same]
    exact fun _ _ => id
  · have early : CleansAll server dispatched := by
      rw [logged]
      exact fun _ _ => id
    rcases ends with silent | ⟨answer, noted, -, -, notes, replies⟩
    · rw [silent]
      exact early
    · have marked : CleansAll server noted := by
        rcases notes with same | same
        · rw [same]
          exact early
        · rw [same]
          exact cleans_trans early (cleans_mod_conn dispatched _ _ id)
      rw [replies]
      exact cleans_trans marked (cleans_queue_reply cfg noted answer now)

theorem cleans_ping_check (cfg : Config) (server : Server) (tmpmsg : Nat) (curTime now : Int) :
    CleansAll server (procPingTimeOutChecking cfg server tmpmsg curTime now) := by
  unfold procPingTimeOutChecking
  split
  · exact fun _ _ => id
  case h_2 record live =>
    have kicked : CleansAll server (kickOverdue cfg server record curTime now) := by
      unfold kickOverdue
      split_ifs
      · exact cleans_zd cfg (logKick server record) record.pConn now
      · exact fun _ _ => id
      · exact fun _ _ => id
    exact kicked

theorem cleans_free_connection (server : Server) (c : ConnId) :
    CleansAll server (ngxFreeConnection server c) := by
  have freed := cleans_mod_conn server c (fun q =>
    { q with
      iCurrsequence := q.iCurrsequence + 1
      recv.precvMemPointer := null
      send := { q.send with psendMemPointer := null, iThrowsendCount := 0 } }) fun _ => ⟨rfl, rfl⟩
  exact freed

theorem cleans_close_connection (server : Server) (c : ConnId) :
    CleansAll server (ngxCloseConnection server c) := by
  have freed := cleans_free_connection server c
  unfold ngxCloseConnection closeIfOpen
  split
  · apply cleans_trans freed
    exact cleans_mod_conn ((ngxFreeConnection server c).closeFd _) c
      (fun p => { p with fd := -1 }) id
  · exact freed

/-- An object is issued without a buffer and without a packet. -/
theorem get_connection_clean (server : Server) (isock now : Int) :
    CleansAll server (ngxGetConnection server isock now).2 ∧
      HoldsNothing ((ngxGetConnection server isock now).2.conns
        (ngxGetConnection server isock now).1) := by
  unfold ngxGetConnection
  split
  case h_1 c rest front =>
    constructor
    · exact cleans_mod_conn server c (fun p => { getOneToUse now p with fd := isock })
        fun _ => ⟨rfl, rfl⟩
    · dsimp only
      rw [mod_conn_conns_self]
      exact ⟨rfl, rfl⟩
  case h_2 exhausted =>
    constructor
    · exact cleans_mod_conn server server.connObjects
        (fun _ => { getOneToUse now NgxConnection.construct with fd := isock }) fun _ => ⟨rfl, rfl⟩
    · dsimp only
      rw [mod_conn_conns_self]
      exact ⟨rfl, rfl⟩

theorem cleans_register (cfg : Config) (server : Server) (newc : ConnId) (s : Int)
    (nonblockOk ctlOk : Bool) (now : Int) :
    CleansAll server (registerConnection cfg server newc s nonblockOk ctlOk now) := by
  have handled := cleans_mod_conn server newc
    (fun p => { p with rhandler := .ngxReadRequestHandler }) id
  have registered := cleans_trans handled (cleans_epoll_oper _ s .add
    (epollIn ||| epollRdhup) 0 newc ctlOk)
  unfold registerConnection
  split
  · exact cleans_close_connection server newc
  · dsimp only
    split
    · exact cleans_trans registered (cleans_close_connection _ newc)
    · split
      · exact registered
      · exact registered

theorem cleans_accept_socket (cfg : Config) (server : Server) (s : Int)
    (nonblockOk ctlOk : Bool) (now : Int) :
    CleansAll server (acceptSocket cfg server s nonblockOk ctlOk now) := by
  have issued := (get_connection_clean server s now).1
  have opened : CleansAll server (openOccupancy (ngxGetConnection server s now).2
      (ngxGetConnection server s now).1) := issued
  unfold acceptSocket
  split_ifs
  · exact fun _ _ => id
  · exact fun _ _ => id
  · exact cleans_trans opened (cleans_register cfg _ _ s nonblockOk ctlOk now)

theorem cleans_event_accept (cfg : Config) (server : Server) (nonblockOk ctlOk : Bool)
    (now : Int) (outcomes : List AcceptOutcome) :
    CleansAll server (ngxEventAccept cfg server nonblockOk ctlOk now outcomes) := by
  apply event_accept_keeps ?_ ?_ outcomes
  · exact fun _ _ => id
  · exact fun _ clean => clean
  · intro state s clean
    have opened : CleansAll server (openSocket state s) := clean
    exact cleans_trans opened (cleans_accept_socket cfg _ s nonblockOk ctlOk now)

theorem cleans_recy_pass (cfg : Config) (server : Server) (currtime gStopEvent : Int) :
    CleansAll server (serverRecyConnectionPass cfg server currtime gStopEvent) := by
  apply recy_pass_keeps ?_ currtime gStopEvent
  · exact fun _ _ => id
  · intro state c clean
    have erased : CleansAll server
        { state with
          totolRecyconnectionN := state.totolRecyconnectionN - 1
          recyconnectionList := state.recyconnectionList.erase c } := clean
    exact cleans_trans erased (cleans_free_connection _ c)

theorem others_proc_p1 (cfg : Config) (server : Server) (c : ConnId) (junk : Nat → Byte)
    (nowMs : Nat) :
    OthersSame server (ngxWaitRequestHandlerProcP1 cfg server c junk nowMs).1 c := by
  have allocated := alloc_buffer_others server c
  unfold ngxWaitRequestHandlerProcP1
  dsimp only
  split_ifs
  · exact others_mod_conn server c _
  · exact others_mod_conn server c _
  · apply others_trans (allocated _ junk)
    exact others_trans (fun d _ => flood_check_recv cfg _ c d nowMs) (plast_others _ c _)
  · exact others_trans (allocated _ junk) (others_mod_conn _ c _)

theorem others_receive_states (cfg : Config) (server : Server) (c : ConnId) (reco : Nat)
    (junk : Nat → Byte) (nowMs : Nat) :
    OthersSame server (receiveStates cfg server c reco junk nowMs).1 c := by
  have header := others_proc_p1 cfg server c junk nowMs
  have body : OthersSame server (bodyComplete cfg server c nowMs).1 c :=
    others_trans (fun d _ => flood_check_recv cfg server c d nowMs) (plast_others _ c _)
  have advanced : ∀ stat, OthersSame server (server.modConn c (advanceRecv stat reco)) c :=
    fun stat => others_mod_conn server c _
  unfold receiveStates
  dsimp only
  split
  all_goals
    split
    · assumption
    · exact advanced _

theorem others_store_bytes (server : Server) (c : ConnId) (bytes : List Byte) :
    OthersSame server (storeBytes server c bytes) c := by
  unfold storeBytes
  split
  · exact others_mod_conn server c _
  · exact others_refl server c

theorem cleans_but_recv {c : ConnId} (same : forgetRecv after = forgetRecv server)
    (others : OthersSame server after c) : CleansBut c server after := by
  have conns := congrArg Server.conns same
  apply cleans_pointers
  · intro d other
    rw [others d other]
  · intro d _
    have pending := congrArg (fun conns : ConnId → NgxConnection =>
      (conns d).send.psendMemPointer) conns
    exact pending

theorem cleans_but_read_side (cfg : Config) (server : Server) (c : ConnId)
    (revents : BitVec 32) (recv : RecvOutcome) (junk : Nat → Byte) (nowMs : Nat) (now : Int) :
    CleansBut c server (readSide cfg server c revents recv junk nowMs now) := by
  have closed : CleansBut c server (zdClosesocketProc cfg server c now) :=
    cleans_all (cleans_zd cfg server c now)
  unfold readSide
  split
  case isFalse => exact fun _ _ => id
  case isTrue =>
    unfold ngxReadRequestHandler recvproc
    split_ifs
    · exact closed
    · cases recv with
      | data bytes =>
          have same := (forget_recv_receive_states cfg (storeBytes server c bytes) c
            bytes.length junk nowMs).trans (forget_recv_store_bytes server c bytes)
          have others := others_trans (others_store_bytes server c bytes)
            (others_receive_states cfg _ c bytes.length junk nowMs)
          have received := cleans_but_recv same others
          dsimp only
          split
          · exact cleans_trans received (cleans_all (cleans_zd cfg _ c now))
          · exact received
      | again => exact fun _ _ => id
      | closed | error => exact closed

theorem cleans_but_send {c : ConnId} (same : forgetSend after = forgetSend server)
    (others : ∀ d, d ≠ c → (after.conns d).send = (server.conns d).send) :
    CleansBut c server after := by
  have conns := congrArg Server.conns same
  apply cleans_pointers
  · intro d _
    have buffer := congrArg (fun conns : ConnId → NgxConnection =>
      (conns d).recv.precvMemPointer) conns
    exact buffer
  · intro d other
    rw [others d other]

theorem cleans_but_write_side (server : Server) (c : ConnId) (revents : BitVec 32)
    (send : SendOutcome) (ctlOk : Bool) :
    CleansBut c server (writeSide server c revents send ctlOk) := by
  have same := forget_send_write_side server c revents send ctlOk
  unfold writeSide at same ⊢
  split_ifs at same ⊢
  · exact cleans_but_mod_conn server c _
  · apply cleans_but_send same
    intro d other
    have written := congrArg SendState.send
      (SendRefinement.ngx_write_request_handler_send_state server c send ctlOk)
    rw [write_send] at written
    exact (congrFun written d).trans (Function.update_of_ne other _ _)
  · exact fun _ _ => id

/-- The send thread gives a packet to a connected client only. -/
theorem element_clean (attributed : Attributed server) {pos pMsgBuf : Nat}
    (outcome : SendOutcome) (ctlOk : Bool) :
    Cleans (fun c => server.ghost.occ c = none) server
      (sendElement server pos pMsgBuf outcome ctlOk) := by
  have same := forget_send_send_element server pos pMsgBuf outcome ctlOk
  unfold sendElement at same ⊢
  split at same
  case h_1 => exact fun _ _ => id
  case h_2 msg content =>
    dsimp only at same ⊢
    split_ifs at same ⊢ with stale busy
    · exact fun _ _ => id
    · exact fun _ _ => id
    · have stamped := attributed.replies msg.hdr ⟨pMsgBuf, msg, content, rfl⟩
      obtain ⟨owns, live⟩ := current_owner attributed.settled stamped (not_not.mp stale)
      have started := congrArg SendState.send
        (SendRefinement.send_element_now_send_state server pos pMsgBuf msg outcome ctlOk)
      rw [start_send] at started
      have but : CleansBut msg.hdr.pConn server
          (sendElementNow server pos pMsgBuf msg outcome ctlOk) := by
        apply cleans_but_send same
        intro d other
        exact (congrFun started d).trans (Function.update_of_ne other _ _)
      intro c idle clean
      apply but c ?_ clean
      rintro rfl
      exact live (owns.symm.trans idle)

def KeepsLists (before after : Server) : Prop :=
  after.listenConns = before.listenConns ∧
    ∀ c ∈ before.connectionList, c ∈ after.connectionList

theorem keeps_lists_trans (early : KeepsLists server middle) (late : KeepsLists middle after) :
    KeepsLists server after :=
  ⟨late.1.trans early.1, fun c listed => late.2 c (early.2 c listed)⟩

theorem keeps_lists_of_view (all : (poolView after).all = (poolView server).all)
    (pinned : (poolView after).pinned = (poolView server).pinned) : KeepsLists server after := by
  have lists : after.connectionList = server.connectionList := all
  apply And.intro pinned
  intro c listed
  rw [lists]
  exact listed

theorem keeps_lists_zd (cfg : Config) (server : Server) (c : ConnId) (now : Int) :
    KeepsLists server (zdClosesocketProc cfg server c now) := by
  have same := forget_close_zd cfg server c now
  have all := congrArg Server.connectionList same
  have pinned := congrArg Server.listenConns same
  exact keeps_lists_of_view all pinned

theorem keeps_lists_works {now : Int} (works : Works cfg now server after) :
    KeepsLists server after := by
  obtain ⟨marked, marks, ends⟩ := works
  have of_session : ∀ before later, session later = session before → KeepsLists before later := by
    intro before later same
    have view : poolView later = poolView before := congrArg View.pool same
    exact keeps_lists_of_view (congrArg QuarantinePool.Pool.all view)
      (congrArg QuarantinePool.Pool.pinned view)
  have early : KeepsLists server marked := by
    rcases marks with same | ⟨c, -, same⟩
    · exact of_session server marked same
    · exact of_session (notePing server c now) marked same
  apply keeps_lists_trans early
  rcases ends with same | ⟨c, middle, -, same, closed⟩
  · exact of_session marked after same
  · apply keeps_lists_trans (of_session marked middle same)
    exact keeps_lists_trans (keeps_lists_zd cfg middle c now) (of_session _ after closed)

theorem keeps_lists_get_connection (server : Server) (isock now : Int) :
    KeepsLists server (ngxGetConnection server isock now).2 := by
  unfold ngxGetConnection
  split
  · exact ⟨rfl, fun _ => id⟩
  · exact ⟨rfl, fun _ listed => List.mem_append_left _ listed⟩

theorem keeps_lists_epoll_oper (server : Server) (fd : Int) (eventtype : EpollCtl)
    (flag : BitVec 32) (bcaction : Nat) (c : ConnId) (ctlOk : Bool) :
    KeepsLists server (ngxEpollOperEvent server fd eventtype flag bcaction c ctlOk).1 := by
  have same := forget_send_epoll_oper server fd eventtype flag bcaction c ctlOk
  have all := congrArg Server.connectionList same
  have pinned := congrArg Server.listenConns same
  exact keeps_lists_of_view all pinned

theorem keeps_lists_close_connection (server : Server) (c : ConnId) :
    KeepsLists server (ngxCloseConnection server c) := by
  unfold ngxCloseConnection closeIfOpen
  split
  · exact ⟨rfl, fun _ => id⟩
  · exact ⟨rfl, fun _ => id⟩

theorem keeps_lists_register (cfg : Config) (server : Server) (newc : ConnId) (s : Int)
    (nonblockOk ctlOk : Bool) (now : Int) :
    KeepsLists server (registerConnection cfg server newc s nonblockOk ctlOk now) := by
  have registered : KeepsLists server (ngxEpollOperEvent
      (server.modConn newc fun p => { p with rhandler := .ngxReadRequestHandler }) s .add
      (epollIn ||| epollRdhup) 0 newc ctlOk).1 :=
    keeps_lists_epoll_oper (server.modConn newc fun p =>
      { p with rhandler := .ngxReadRequestHandler }) s .add _ 0 newc ctlOk
  unfold registerConnection
  split
  · exact keeps_lists_close_connection server newc
  · dsimp only
    split
    · exact keeps_lists_trans registered (keeps_lists_close_connection _ newc)
    · split
      · exact registered
      · exact registered

theorem keeps_lists_accept_socket (cfg : Config) (server : Server) (s : Int)
    (nonblockOk ctlOk : Bool) (now : Int) :
    KeepsLists server (acceptSocket cfg server s nonblockOk ctlOk now) := by
  have issued := keeps_lists_get_connection server s now
  have opened : KeepsLists server (openOccupancy (ngxGetConnection server s now).2
      (ngxGetConnection server s now).1) := issued
  unfold acceptSocket
  split_ifs
  · exact ⟨rfl, fun _ => id⟩
  · exact ⟨rfl, fun _ => id⟩
  · exact keeps_lists_trans opened (keeps_lists_register cfg _ _ s nonblockOk ctlOk now)

theorem keeps_lists_step {act : Act} (attributed : Attributed server)
    (disciplined : Disciplined server act) (taken : step cfg server act = some after)
    (running : ∀ ctl now, act ≠ .epollInit ctl now) : KeepsLists server after := by
  by_cases moves : MovesBytes act
  · rcases step_works attributed disciplined moves taken with same | ⟨now, -, works⟩
    · have view : poolView after = poolView server := congrArg View.pool same
      exact keeps_lists_of_view (congrArg QuarantinePool.Pool.all view)
        (congrArg QuarantinePool.Pool.pinned view)
    · exact keeps_lists_works works
  · cases stepped_of_step taken with
    | epollInit ctl now => exact absurd rfl (running ctl now)
    | accept oldc outcomes nonblockOk ctlOk now =>
        apply event_accept_keeps ?_ ?_ outcomes
        · exact ⟨rfl, fun _ => id⟩
        · exact fun _ kept => kept
        · intro state s kept
          have opened : KeepsLists server (openSocket state s) := kept
          exact keeps_lists_trans opened (keeps_lists_accept_socket cfg _ s nonblockOk ctlOk now)
    | monitorPop curTime =>
        have view := pool_view_of_monitor (forget_monitor_pop cfg server curTime)
        exact keeps_lists_of_view (congrArg QuarantinePool.Pool.all view)
          (congrArg QuarantinePool.Pool.pinned view)
    | monitorCheck now tmpmsg rest =>
        unfold procPingTimeOutChecking
        split
        · exact ⟨rfl, fun _ => id⟩
        case h_2 record found =>
          have kicked : KeepsLists server
              (kickOverdue cfg { server with lsIdleList := rest } record server.monitorTime
                now) := by
            unfold kickOverdue
            split_ifs
            · exact keeps_lists_zd cfg (logKick { server with lsIdleList := rest } record)
                record.pConn now
            · exact ⟨rfl, fun _ => id⟩
            · exact ⟨rfl, fun _ => id⟩
          exact kicked
    | recycle currtime =>
        apply recy_pass_keeps ?_ currtime 0
        · exact ⟨rfl, fun _ => id⟩
        · exact fun _ _ kept => kept
    | _ => exact absurd trivial moves

theorem spotless_of_cleans (spotless : Spotless server) (lists : KeepsLists server after)
    (cleans : Cleans which server after)
    (among : ∀ c, c ∈ server.listenConns ∨ c ∉ server.connectionList → which c) :
    Spotless after := by
  intro c unserved
  have before : c ∈ server.listenConns ∨ c ∉ server.connectionList := by
    rcases unserved with listens | unlisted
    · apply Or.inl
      rwa [← lists.1]
    · exact Or.inr fun listed => unlisted (lists.2 c listed)
  exact cleans c (among c before) (spotless c before)

theorem spotless_add_free (spotless : Spotless server) (now : Int) :
    Spotless (addFreeConnection now server) := by
  have added := cleans_mod_conn server server.connObjects
    (fun _ => getOneToUse now NgxConnection.construct) fun _ => ⟨rfl, rfl⟩
  intro c unserved
  by_cases new : c = server.connObjects
  · have fresh : (addFreeConnection now server).conns c =
        getOneToUse now NgxConnection.construct := by
      rw [new]
      exact mod_conn_conns_self server server.connObjects
        fun _ => getOneToUse now NgxConnection.construct
    rw [fresh]
    exact ⟨rfl, rfl⟩
  · apply added c trivial
    apply spotless c
    exact unserved.imp_right fun unlisted listed => unlisted (List.mem_append_left _ listed)

theorem spotless_listen_on (spotless : Spotless server) {ctl : Int → Bool} {now fd : Int}
    (listens : listenOn ctl now server fd = some after) : Spotless after := by
  obtain ⟨issued, clean⟩ := get_connection_clean server fd now
  have taken := keeps_lists_get_connection server fd now
  unfold listenOn at listens
  generalize ngxGetConnection server fd now = pair at issued clean taken listens
  obtain ⟨newc, middle⟩ := pair
  have marked : CleansAll middle (markListening middle newc) :=
    cleans_mod_conn { middle with listenConns := middle.listenConns ++ [newc] } newc _ id
  have registered := cleans_trans marked (cleans_epoll_oper (markListening middle newc) fd .add
    (epollIn ||| epollRdhup) 0 newc (ctl fd))
  have lists := keeps_lists_epoll_oper (markListening middle newc) fd .add
    (epollIn ||| epollRdhup) 0 newc (ctl fd)
  simp only [Option.ite_none_left_eq_some, Option.some.injEq] at listens
  obtain ⟨-, rfl⟩ := listens
  intro c unserved
  apply registered c trivial
  by_cases this : c = newc
  · rw [this]
    exact clean
  · apply issued c trivial
    apply spotless c
    rcases unserved with listening | unlisted
    · have member : c ∈ (markListening middle newc).listenConns := by
        rwa [← lists.1]
      rcases List.mem_append.mp member with older | new
      · exact Or.inl (taken.1 ▸ older)
      · exact absurd (List.mem_singleton.mp new) this
    · apply Or.inr
      intro listed
      exact unlisted (lists.2 c (taken.2 c listed))

theorem spotless_epoll_init (spotless : Spotless server) {ctl : Int → Bool} {now : Int}
    (done : ngxEpollInit cfg server ctl now = some after) : Spotless after := by
  apply epoll_init_keeps ?_ ?_ ?_ done spotless
  · exact fun _ held => spotless_add_free held now
  · exact fun _ _ held => held
  · exact fun _ fd _ listens held => spotless_listen_on held listens

theorem spotless_step {act : Act} (spotless : Spotless server) (attributed : Attributed server)
    (disciplined : Disciplined server act) (taken : step cfg server act = some after) :
    Spotless after := by
  have everywhere : CleansAll server after → (∀ ctl now, act ≠ .epollInit ctl now) →
      Spotless after := fun cleans running =>
    spotless_of_cleans spotless (keeps_lists_step attributed disciplined taken running) cleans
      fun _ _ => trivial
  cases stepped_of_step taken with
  | epollInit ctl now _ empty done => exact spotless_epoll_init spotless done
  | accept oldc outcomes nonblockOk ctlOk now =>
      exact everywhere (cleans_event_accept cfg server nonblockOk ctlOk now outcomes) nofun
  | event c revents recv send ctlOk junk nowMs now =>
      have lists := keeps_lists_step attributed disciplined taken nofun
      have read := cleans_but_read_side cfg server c revents recv junk nowMs now
      apply spotless_of_cleans spotless lists
        (cleans_trans read (cleans_but_write_side _ c revents send ctlOk))
      rintro d unserved rfl
      exact unserved.elim disciplined.2.2 fun unlisted => unlisted disciplined.1
  | msgSend msg now => exact everywhere (cleans_queue_reply cfg server msg now) nofun
  | element outcome ctlOk pos pMsgBuf =>
      have lists := keeps_lists_step attributed disciplined taken nofun
      apply spotless_of_cleans spotless lists (element_clean attributed outcome ctlOk)
      intro d unserved
      by_contra serves
      have inService := owner_in_service attributed.settled serves
      exact unserved.elim inService.2.2 fun unlisted => unlisted inService.1
  | process worker jobbuf junk now =>
      exact everywhere (cleans_process cfg server jobbuf junk now) nofun
  | monitorPop curTime =>
      have conns := congrArg Server.conns (forget_monitor_pop cfg server curTime)
      have same : (serverTimerQueuePop cfg server curTime).conns = server.conns := conns
      apply everywhere ?_ nofun
      apply cleans_pointers
      · exact fun c _ => by rw [same]
      · exact fun c _ => by rw [same]
  | monitorCheck now tmpmsg rest =>
      have checked := cleans_ping_check cfg { server with lsIdleList := rest } tmpmsg
        server.monitorTime now
      exact everywhere checked nofun
  | recycle currtime => exact everywhere (cleans_recy_pass cfg server currtime 0) nofun
  | close c now => exact everywhere (cleans_zd cfg server c now) nofun
  | semWait | beginPass | endPass | take | release => exact everywhere (fun _ _ => id) nofun

theorem reachable_spotless (reached : Reachable cfg Disciplined server) : Spotless server := by
  apply TransitionSystem.invariant_of_reachable _ ?_ ?_ reached
  · intro start fresh
    obtain ⟨listenFds, -, -, rfl⟩ := fresh
    exact fun _ _ => ⟨rfl, rfl⟩
  · intro before act after soFar spotless disciplined taken
    have attributed := reachable_attributed (fun _ _ => id) soFar
    exact spotless_step spotless attributed disciplined taken

end Objects

section Untimed

variable {cfg : Config} {server after : Server}

theorem untimed_of_clock (untimed : Untimed server) (same : clock after = clock server) :
    Untimed after := by
  have entries : after.timerQueuemap = server.timerQueuemap := congrArg Clock.timerQueuemap same
  have size : after.curSize = server.curSize := congrArg Clock.curSize same
  have hand : after.lsIdleList = server.lsIdleList := congrArg Clock.lsIdleList same
  have theap : after.theap = server.theap := congrArg Clock.theap same
  rw [Untimed, entries, size, hand, theap]
  exact untimed

theorem zd_clock_off (disabled : cfg.ifkickTimeCount ≠ 1) (server : Server) (c : ConnId)
    (now : Int) : clock (zdClosesocketProc cfg server c now) = clock server := by
  have ended : ∀ shut : Server, clock (endOccupancy shut c) = clock shut := fun _ => rfl
  unfold zdClosesocketProc
  rw [if_neg disabled, in_recy_queue_clock, drop_throwsend_clock, ended, close_if_open_clock]

theorem works_clock_off (disabled : cfg.ifkickTimeCount ≠ 1) {now : Int}
    (works : Works cfg now server after) : clock after = clock server := by
  obtain ⟨marked, marks, ends⟩ := works
  have early : clock marked = clock server := by
    rcases marks with same | ⟨c, -, same⟩
    · exact (same_clients_of_session same).clock
    · exact (same_clients_of_session same).clock
  rcases ends with same | ⟨c, middle, -, same, closed⟩
  · exact (same_clients_of_session same).clock.trans early
  · have late := (same_clients_of_session closed).clock
    have kept := (same_clients_of_session same).clock
    rw [late, zd_clock_off disabled, kept, early]

theorem register_clock_off (disabled : cfg.ifkickTimeCount ≠ 1) (server : Server)
    (newc : ConnId) (s : Int) (nonblockOk ctlOk : Bool) (now : Int) :
    clock (registerConnection cfg server newc s nonblockOk ctlOk now) = clock server := by
  have registered := (same_clients_of_session (session_of_send (forget_send_epoll_oper
    (server.modConn newc fun p => { p with rhandler := .ngxReadRequestHandler }) s .add
    (epollIn ||| epollRdhup) 0 newc ctlOk))).clock
  unfold registerConnection
  split
  · exact close_connection_clock server newc
  · dsimp only
    split
    · exact (close_connection_clock _ newc).trans registered
    · exact registered

theorem accept_socket_clock_off (disabled : cfg.ifkickTimeCount ≠ 1) (server : Server) (s : Int)
    (nonblockOk ctlOk : Bool) (now : Int) :
    clock (acceptSocket cfg server s nonblockOk ctlOk now) = clock server := by
  by_cases refused : Refused cfg server
  · rw [accept_socket_refused refused]
    rfl
  · rw [accept_socket_issues refused, register_clock_off disabled]
    exact get_connection_clock server s now

/-- Without the kick clock nothing is ever entered in the timer queue. -/
theorem untimed_step (disabled : cfg.ifkickTimeCount ≠ 1) {act : Act}
    (attributed : Attributed server) (disciplined : Disciplined server act)
    (untimed : Untimed server) (taken : step cfg server act = some after) : Untimed after := by
  have later := attributed_step attributed disciplined taken
  by_cases moves : MovesBytes act
  · rcases step_works attributed disciplined moves taken with same | ⟨now, -, works⟩
    · exact untimed_of_clock untimed (same_clients_of_session same).clock
    · exact untimed_of_clock untimed (works_clock_off disabled works)
  · cases stepped_of_step taken with
    | epollInit ctl now _ empty done =>
        exact untimed_of_clock untimed (epoll_init_clients attributed empty done).clock
    | accept oldc outcomes nonblockOk ctlOk now =>
        apply event_accept_keeps ?_ ?_ outcomes untimed
        · exact fun _ held => held
        · intro state s held
          have opened : Untimed (openSocket state s) := held
          exact untimed_of_clock opened (accept_socket_clock_off disabled _ s nonblockOk ctlOk now)
    | recycle currtime =>
        exact untimed_of_clock untimed (recycle_clients currtime attributed later).clock
    | monitorPop curTime =>
        have empty : ¬ (server.curSize > 0 ∧ server.timerValue < curTime) := by
          rw [untimed.2.1]
          exact fun both => Nat.lt_irrefl 0 both.1
        rw [serverTimerQueuePop, if_neg empty]
        exact untimed
    | monitorCheck now tmpmsg rest front =>
        rw [untimed.2.2.1] at front
        cases front
    | _ => exact absurd trivial moves

theorem reachable_untimed (disabled : cfg.ifkickTimeCount ≠ 1)
    (reached : Reachable cfg Disciplined server) : Untimed server := by
  apply TransitionSystem.invariant_of_reachable _ ?_ ?_ reached
  · intro start fresh
    obtain ⟨listenFds, -, -, rfl⟩ := fresh
    exact ⟨rfl, rfl, rfl, rfl⟩
  · intro before act after soFar untimed disciplined taken
    have attributed := reachable_attributed (fun _ _ => id) soFar
    exact untimed_step disabled attributed disciplined untimed taken

end Untimed

/-- Nobody is connected, nobody waits for recycling, and nothing waits to be handled,
sent or checked. -/
structure Vacant (server : Server) : Prop where
  online : server.onlineUserCount = 0
  recycled : server.totolRecyconnectionN = 0
  received : server.msgRecvQueue = []
  idle : ∀ worker, server.workers worker = .idle
  sent : server.msgSendQueue = []
  checked : server.lsIdleList = []

/-- All that was allocated has been freed, once, no timer is set, every connection object
but those that listen is free, and the open descriptors are those that listen. -/
structure Cleared (server : Server) : Prop where
  buffers : Returned server.rheap
  packets : Returned server.sheap
  records : Returned server.theap
  timers : server.timerQueuemap = [] ∧ server.curSize = 0
  objects : server.connectionList.Perm (server.freeconnectionList ++ server.listenConns)
  descriptors : server.openFds.Perm server.listenFds

section Rest

variable {cfg : Config} {server : Server}

theorem reachable_anchored (reached : Reachable cfg Disciplined server) :
    QuarantinePool.Anchored (poolView server) := by
  apply TransitionSystem.invariant_of_reachable
    (fun state => QuarantinePool.Anchored (poolView state)) ?_ ?_ reached
  · intro start fresh
    obtain ⟨listenFds, -, -, rfl⟩ := fresh
    exact fun ready => absurd rfl ready
  · intro before act after soFar anchored disciplined taken
    have attributed := reachable_attributed (fun _ _ => id) soFar
    have moves := step_refines attributed disciplined taken
    exact (QuarantinePool.steps_anchored attributed.settled anchored moves).2

/-- Without a client and without a wait every object is free, listens or is not listed. -/
theorem vacant_lists (settled : Settled (poolView server)) (vacant : Vacant server) :
    server.recyconnectionList = [] ∧ PoolPartition.inUseClients server = [] ∧
      ∀ c, server.ghost.occ c = none := by
  have parts := PoolPartition.settled_partitioned settled
  have waiting : server.recyconnectionList = [] := by
    have count := parts.recy_count
    rw [vacant.recycled] at count
    apply List.eq_nil_of_length_eq_zero
    omega
  have clients : PoolPartition.inUseClients server = [] := by
    have count := parts.online_count
    rw [vacant.online] at count
    apply List.eq_nil_of_length_eq_zero
    omega
  apply And.intro waiting
  apply And.intro clients
  intro c
  by_contra serves
  obtain ⟨o, owns⟩ := Option.ne_none_iff_exists'.mp serves
  obtain ⟨used, unpinned⟩ := (settled_stamps settled).owner_used c o owns
  have client : c ∈ PoolPartition.inUseClients server :=
    List.mem_filter.mpr ⟨used, decide_eq_true unpinned⟩
  rw [clients] at client
  cases client

theorem vacant_holds_nothing (settled : Settled (poolView server)) (vacant : Vacant server)
    (spotless : Spotless server) (sound : RecvOwnership.Sound server) (kept : Kept server)
    (c : ConnId) : HoldsNothing (server.conns c) := by
  obtain ⟨waiting, clients, -⟩ := vacant_lists settled vacant
  by_cases listed : c ∈ server.connectionList
  · have places := (PoolPartition.connection_list_perm
      (PoolPartition.settled_invariant settled).choose_spec.1.places).mem_iff.mp listed
    rw [waiting, clients, List.append_nil, List.append_nil] at places
    rcases List.mem_append.mp places with free | listens
    · exact ⟨sound.states.spare_empty c (Or.inl free), kept.lossless.idle c (Or.inl free)⟩
    · exact spotless c (Or.inl listens)
  · exact spotless c (Or.inr listed)

theorem vacant_timers (reached : Reachable cfg Disciplined server) (vacant : Vacant server) :
    Returned server.theap ∧ server.timerQueuemap = [] ∧ server.curSize = 0 := by
  by_cases enabled : cfg.ifkickTimeCount = 1
  · obtain ⟨attributed, covered, -, accounted⟩ := TimerCoverage.reachable_kept enabled reached
    have filed := covered.filed
    obtain ⟨-, -, nobody⟩ := vacant_lists attributed.settled vacant
    have entries : server.timerQueuemap = [] := by
      apply List.eq_nil_iff_forall_not_mem.mpr
      intro entry member
      obtain ⟨c, o, -, serves⟩ := covered.sound _ (List.mem_map_of_mem member)
      rw [nobody c] at serves
      cases serves
    have none : held server.lsIdleList server = [] := by
      rw [held, vacant.checked, entries]
      rfl
    constructor
    · apply BlockHeap.returned_of_dead filed.wellFormed accounted
      intro address
      rw [← Option.not_isSome_iff_eq_none, filed.live address, none]
      exact List.not_mem_nil
    · have size := filed.size
      rw [entries] at size
      exact ⟨entries, size⟩
  · obtain ⟨entries, size, -, theap⟩ := reachable_untimed enabled reached
    rw [theap]
    constructor
    · apply BlockHeap.returned_of_dead BlockHeap.empty_well_formed BlockHeap.empty_accounted
      exact fun _ => rfl
    · exact ⟨entries, size⟩

end Rest

theorem cleared_of_vacant {cfg : Config} {server : Server}
    (reached : Reachable cfg (fun server act => AnyEvent server act ∧ WritableOk cfg server act)
      server) (vacant : Vacant server) : Cleared server := by
  have disciplined : Reachable cfg Disciplined server :=
    TransitionSystem.reachable_mono (fun _ _ both => both.1.1) reached
  obtain ⟨attributed, sending, kept⟩ := reachable_kept reached
  obtain ⟨-, sound⟩ := RecvOwnership.reachable_sound (fun _ _ both => both.1.1) reached
  obtain ⟨waiting, clients, -⟩ := vacant_lists attributed.settled vacant
  obtain ⟨records, timers⟩ := vacant_timers disciplined vacant
  have nothing := vacant_holds_nothing attributed.settled vacant (reachable_spotless disciplined)
    sound kept
  constructor
  case buffers =>
    apply BlockHeap.returned_of_dead sound.owned.exclusive.wellFormed (reachable_buffers reached)
    intro address
    by_contra live
    obtain ⟨holder, held⟩ := sound.owned.complete address (Option.isSome_iff_ne_none.mpr live)
    cases holder with
    | conn c => exact held.2 (held.1.symm.trans (nothing c).1)
    | slot index =>
        rw [RecvOwnership.Holds, vacant.received] at held
        cases held
    | worker worker =>
        rw [RecvOwnership.Holds, vacant.idle worker] at held
        rcases held with taken | processed
        · cases taken
        · cases processed
  case packets =>
    apply BlockHeap.returned_of_dead sending.exclusive.wellFormed kept.lossless.accounted
    intro address
    by_contra live
    obtain ⟨holder, held⟩ := kept.lossless.complete address (Option.isSome_iff_ne_none.mpr live)
    cases holder with
    | slot index =>
        have queued : server.msgSendQueue[index]? = some address := held
        rw [vacant.sent] at queued
        cases queued
    | conn c => exact held.2 (held.1.symm.trans (nothing c).2)
  case records => exact records
  case timers => exact timers
  case objects =>
    obtain ⟨stray, holds, -⟩ := PoolPartition.settled_invariant attributed.settled
    have lists := PoolPartition.connection_list_perm holds.places
    rw [waiting, clients, List.append_nil, List.append_nil] at lists
    exact lists
  case descriptors =>
    apply QuarantinePool.opened_of_pinned attributed.settled (reachable_anchored disciplined)
    intro c used
    by_contra client
    have member : c ∈ PoolPartition.inUseClients server :=
      List.mem_filter.mpr ⟨used, decide_eq_true client⟩
    rw [clients] at member
    cases member

/-- In every run in which no event breaks the framing of packets: when everybody has left
and nothing waits any more, nothing remains of those who were there. -/
theorem vacant_cleared (cfg : Config) (server : Server)
    (reached : Reachable cfg (fun server act => AnyEvent server act ∧ WritableOk cfg server act)
      server) (vacant : Vacant server) : Cleared server :=
  cleared_of_vacant reached vacant

theorem idle_step {cfg : Config} {server after : Server} {act : Act} {worker : Nat}
    (attributed : Attributed server) (receiving : ByteStream.Receiving server)
    (disciplined : Disciplined server act) (idle : server.workers worker = .idle)
    (other : act ≠ .take worker) (taken : step cfg server act = some after) :
    after.workers worker = .idle := by
  by_cases works : Messages.OfWorker act
  · cases stepped_of_step taken with
    | take busy jobbuf rest =>
        have apart : worker ≠ busy := fun same => other (by rw [same])
        exact (Function.update_of_ne apart _ _).trans idle
    | process busy jobbuf junk now holds =>
        have apart : worker ≠ busy := by
          rintro rfl
          rw [idle] at holds
          cases holds
        exact (Function.update_of_ne apart _ _).trans idle
    | release busy jobbuf holds =>
        have apart : worker ≠ busy := by
          rintro rfl
          rw [idle] at holds
          cases holds
        exact (Function.update_of_ne apart _ _).trans idle
    | _ => exact works.elim
  · obtain ⟨more, aside, -⟩ := Messages.aside_step attributed receiving disciplined works taken
    rw [aside.workers]
    exact idle

def OneWorker : Act → Prop
  | .take worker => worker = 0
  | _ => True

instance : DecidablePred OneWorker
  | .take worker => inferInstanceAs (Decidable (worker = 0))
  | .epollInit _ _ | .accept _ _ _ _ _ | .event _ _ _ _ _ _ _ _ | .msgSend _ _ | .semWait _
  | .beginPass | .element _ _ | .endPass | .process _ _ _ | .release _ | .monitorPop _
  | .monitorCheck _ | .recycle _ | .close _ _ => isTrue trivial

theorem others_idle {cfg : Config} {server : Server}
    (reached : Reachable cfg (fun server act => Disciplined server act ∧ OneWorker act) server)
    {worker : Nat} (other : worker ≠ 0) : server.workers worker = .idle := by
  apply TransitionSystem.invariant_of_reachable (fun state => state.workers worker = .idle)
    ?_ ?_ reached
  · intro start fresh
    obtain ⟨listenFds, -, -, rfl⟩ := fresh
    rfl
  · rintro before act after soFar idle ⟨disciplined, one⟩ taken
    have known := TransitionSystem.reachable_mono (fun _ _ both => both.1) soFar
    obtain ⟨⟨attributed, -⟩, receiving⟩ := ByteStream.reachable_receiving known
    apply idle_step attributed receiving disciplined idle ?_ taken
    rintro rfl
    exact other one

def briefVisit : List Act :=
  [.epollInit (fun _ => true) 1000, .accept 0 [.ok 5] true true 1001,
    .event 1 epollIn (.data (encodeHeader 8 0 0)) .eagain true (fun _ => 7) 0 1002, .take 0,
    .process 0 (fun _ => 7) 1002, .release 0, .semWait false, .beginPass, .element (.sent 3) true,
    .endPass, .event 1 epollIn (.data [0, 20, 0, 5, 0, 0, 0, 0]) .eagain true (fun _ => 7) 0 1003,
    .close 1 1004, .recycle 1064]

theorem vacant_cleared_sample :
    ∃ server : Server, server.rheap.next = 3 ∧ server.sheap.next = 2 ∧ Cleared server := by
  have seen : (run sampleConfig
      (fun server act => (AnyEvent server act ∧ WritableOk sampleConfig server act) ∧
        OneWorker act) briefVisit).map (fun server =>
        ((server.rheap.next, server.sheap.next, server.onlineUserCount,
          server.totolRecyconnectionN),
          (server.msgRecvQueue, server.msgSendQueue, server.lsIdleList, server.workers 0))) =
      some ((3, 2, 0, 0), ([], [], [], .idle)) := by
    decide
  obtain ⟨server, reached, same⟩ := reachable_of_seen seen
  simp only [Prod.mk.injEq] at same
  obtain ⟨⟨buffers, packets, online, recycled⟩, received, sent, checked, first⟩ := same
  have idle : ∀ worker, server.workers worker = .idle := by
    intro worker
    by_cases other : worker = 0
    · rw [other, first]
    · exact others_idle (TransitionSystem.reachable_mono
        (fun _ _ both => ⟨both.1.1.1, both.2⟩) reached) other
  have vacant : Vacant server := ⟨online, recycled, received, idle, sent, checked⟩
  exact ⟨server, buffers, packets, vacant_cleared sampleConfig server
    (TransitionSystem.reachable_mono (fun _ _ both => both.1) reached) vacant⟩

end NgxServer.Vacancy
