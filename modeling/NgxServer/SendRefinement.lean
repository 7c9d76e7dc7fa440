import NgxServer.Occupancy
import NgxServer.SendMachine

/-!
# The process moves as the sending machine does

Every function is looked at through `sendState`: those that do not send leave
it alone, the others are an operation of the machine. A disciplined step of
the process is then a sequence of moves, where the connection pool answers for
what a move must know about occupancies.
-/

namespace NgxServer.SendRefinement

open NgxServer.Comm NgxServer.State NgxServer.ConnPool NgxServer.TimerQueue NgxServer.Socket
open NgxServer.Request NgxServer.Accept NgxServer.Logic NgxServer.System NgxServer.Frames
open NgxServer.PoolRefinement NgxServer.Occupancy NgxServer.SendMachine
open BlockHeap (null)
open QuarantinePool (Pool PoolSteps Settled InService)

set_option autoImplicit false

theorem send_state_of_timers {before after : Server}
    (same : forgetTimers after = forgetTimers before) : sendState after = sendState before := by
  have forgotten := congrArg sendState same
  exact forgotten

theorem send_state_of_monitor {before after : Server}
    (same : forgetMonitor after = forgetMonitor before) :
    sendState after = sendState before := by
  have forgotten := congrArg sendState same
  exact forgotten

theorem send_state_of_recv {before after : Server}
    (same : forgetRecv after = forgetRecv before) : sendState after = sendState before := by
  have forgotten := congrArg sendState same
  exact forgotten

theorem send_state_update (server : Server) (c : ConnId)
    (change : NgxConnection → NgxConnection) :
    sendState (server.modConn c change) =
      { sendState server with
        send := Function.update (sendState server).send c (change (server.conns c)).send
        events := Function.update (sendState server).events c (change (server.conns c)).events } := by
  have send : (sendState (server.modConn c change)).send =
      Function.update (sendState server).send c (change (server.conns c)).send := by
    funext d
    simp only [sendState, mod_conn_conns, Function.update_apply]
    split_ifs <;> rfl
  have events : (sendState (server.modConn c change)).events =
      Function.update (sendState server).events c (change (server.conns c)).events := by
    funext d
    simp only [sendState, mod_conn_conns, Function.update_apply]
    split_ifs <;> rfl
  rw [← send, ← events]
  rfl

theorem send_state_set (server : Server) (c : ConnId) (change : NgxConnection → NgxConnection)
    (part : SendPart → SendPart) (send : (change (server.conns c)).send = part (server.conns c).send)
    (events : (change (server.conns c)).events = (server.conns c).events) :
    sendState (server.modConn c change) = (sendState server).setSend c part := by
  rw [send_state_update, send, events]
  have kept := Function.update_eq_self c (sendState server).events
  exact congrArg (fun events => { (sendState server).setSend c part with events := events }) kept

theorem send_state_mod_conn (server : Server) (c : ConnId)
    (change : NgxConnection → NgxConnection)
    (send : (change (server.conns c)).send = (server.conns c).send)
    (events : (change (server.conns c)).events = (server.conns c).events) :
    sendState (server.modConn c change) = sendState server := by
  rw [send_state_set server c change id send events]
  have kept := Function.update_eq_self c (sendState server).send
  exact congrArg (fun send => { sendState server with send := send }) kept

theorem epoll_oper_send_state (server : Server) (fd : Int) (eventtype : EpollCtl)
    (flag : BitVec 32) (bcaction : Nat) (c : ConnId) (ctlOk : Bool) (changes : eventtype ≠ .del) :
    sendState (ngxEpollOperEvent server fd eventtype flag bcaction c ctlOk).1 =
      (sendState server).setMask c
        (if eventtype = .add then flag
          else if bcaction = 0 then (server.conns c).events ||| flag
          else if bcaction = 1 then (server.conns c).events &&& ~~~flag
          else flag) (decide (ctlOk = true ∧ fd ≠ -1)) := by
  have kept := Function.update_eq_self c (sendState server).send
  unfold ngxEpollOperEvent
  split
  · exact absurd rfl changes
  · dsimp only
    split
    case isTrue done =>
      rw [send_state_update, decide_eq_true done]
      exact congrArg (fun send => { (sendState server).setMask c _ true with send := send }) kept
    case isFalse failed =>
      rw [send_state_update, decide_eq_false failed]
      exact congrArg (fun send => { (sendState server).setMask c _ false with send := send }) kept

theorem close_if_open_send_state (server : Server) (c : ConnId) :
    sendState (closeIfOpen server c) =
      { sendState server with
        kmask :=
          if decide ((server.conns c).fd ≠ -1) = true then Function.update server.kmask c none
          else server.kmask } := by
  unfold closeIfOpen
  split
  case isTrue opened =>
    rw [decide_eq_true opened]
    have kept := send_state_mod_conn (server.closeFd (server.conns c).fd) c
      (fun p => { p with fd := -1 }) rfl rfl
    exact congrArg (fun state : SendState =>
      { state with kmask := Function.update server.kmask c none }) kept
  case isFalse closed =>
    rw [decide_eq_false closed]
    rfl

theorem drop_throwsend_send_state (server : Server) (c : ConnId) :
    sendState (dropThrowsend server c) = (sendState server).setSend c fun part =>
      { part with
        iThrowsendCount :=
          if part.iThrowsendCount > 0 then part.iThrowsendCount - 1 else part.iThrowsendCount } := by
  unfold dropThrowsend
  split
  case isTrue positive =>
    refine send_state_set server c _ _ ?_ rfl
    dsimp only
    rw [if_pos positive]
  case isFalse rest =>
    have same : server.modConn c id = server := by simp [Server.modConn]
    have kept := send_state_set server c id (fun part =>
      { part with
        iThrowsendCount :=
          if part.iThrowsendCount > 0 then part.iThrowsendCount - 1 else part.iThrowsendCount })
      (by rw [if_neg rest]; rfl) rfl
    rwa [same] at kept

theorem in_recy_connect_queue_send_state (server : Server) (c : ConnId) (now : Int) :
    sendState (inRecyConnectQueue server c now) = sendState server := by
  unfold inRecyConnectQueue
  split
  · rfl
  · exact send_state_mod_conn server c
      (fun p => { p with inRecyTime := now, iCurrsequence := p.iCurrsequence + 1 }) rfl rfl

theorem zd_closesocket_proc_send_state (cfg : Config) (server : Server) (c : ConnId) (now : Int) :
    sendState (zdClosesocketProc cfg server c now) =
      (sendState server).close c (decide ((server.conns c).fd ≠ -1)) := by
  have closes : ∀ untimed : Server, sendState untimed = sendState server →
      (untimed.conns c).fd = (server.conns c).fd →
      sendState (inRecyConnectQueue (dropThrowsend (endOccupancy (closeIfOpen untimed c) c) c) c
        now) = (sendState server).close c (decide ((server.conns c).fd ≠ -1)) := by
    intro untimed same fd
    have shut := close_if_open_send_state untimed c
    rw [fd, same] at shut
    have kmask : untimed.kmask = server.kmask := congrArg SendState.kmask same
    rw [in_recy_connect_queue_send_state, drop_throwsend_send_state]
    have ended : sendState (endOccupancy (closeIfOpen untimed c) c) =
        { sendState (closeIfOpen untimed c) with
          occ := Function.update (sendState (closeIfOpen untimed c)).occ c none } := rfl
    rw [ended, shut, kmask]
    rfl
  unfold zdClosesocketProc
  dsimp only
  split
  · have deleted := forget_timers_delete server c
    apply closes _ (send_state_of_timers deleted)
    have fd := congrArg (fun server => (server.conns c).fd) deleted
    exact fd
  · exact closes server rfl rfl

theorem ngx_free_connection_send_state (server : Server) (c : ConnId) :
    sendState (ngxFreeConnection server c) = (sendState server).release c := by
  have changed := send_state_set server c (fun q =>
    { q with
      iCurrsequence := q.iCurrsequence + 1
      recv.precvMemPointer := null
      send := { q.send with psendMemPointer := null, iThrowsendCount := 0 } })
    (fun part => { part with psendMemPointer := null, iThrowsendCount := 0 }) rfl rfl
  exact congrArg (fun state : SendState =>
    { state with
      sheap := BlockHeap.free server.sheap (server.conns c).send.psendMemPointer
      occ := Function.update server.ghost.occ c none }) changed

/-- An object that was issued or constructed is one that was reset. -/
theorem send_state_reset (server : Server) (c : ConnId) (now : Int) (base : NgxConnection)
    (change : NgxConnection → NgxConnection)
    (send : (change (server.conns c)).send = (getOneToUse now base).send)
    (events : (change (server.conns c)).events = 0) :
    sendState (server.modConn c change) = (sendState server).reset c base.send := by
  rw [send_state_update, send, events]
  rfl

theorem ngx_get_connection_send_state (server : Server) (isock now : Int) :
    ∃ part, sendState (ngxGetConnection server isock now).2 =
      (sendState server).reset (ngxGetConnection server isock now).1 part := by
  unfold ngxGetConnection
  split
  case h_1 c rest front =>
    exact ⟨_, send_state_reset server c now (server.conns c)
      (fun p => { getOneToUse now p with fd := isock }) rfl rfl⟩
  case h_2 exhausted =>
    exact ⟨_, send_state_reset server server.connObjects now NgxConnection.construct
      (fun _ => { getOneToUse now NgxConnection.construct with fd := isock }) rfl rfl⟩

theorem add_free_connection_send_state (now : Int) (server : Server) :
    sendState (addFreeConnection now server) =
      (sendState server).reset server.connObjects NgxConnection.construct.send :=
  send_state_reset server server.connObjects now NgxConnection.construct
    (fun _ => getOneToUse now NgxConnection.construct) rfl rfl

theorem discard_send_pkg_send_state (server : Server) (msg : MsgBuf) :
    sendState (discardSendPkg (allocReply server msg) server.sheap.next) =
      (sendState server).discard msg := rfl

theorem push_send_pkg_send_state (server : Server) (msg : MsgBuf) :
    sendState (pushSendPkg (allocReply server msg) server.sheap.next msg) =
      (sendState server).push msg := by
  have kept := send_state_mod_conn (allocReply server msg) msg.hdr.pConn
    (fun p => { p with security.iSendCount := p.security.iSendCount + 1 }) rfl rfl
  exact congrArg (fun state : SendState =>
    { state with
      queue := server.msgSendQueue ++ [server.sheap.next]
      queueCount := server.iSendMsgQueueCount + 1
      sem := server.semEventSendQueue + 1
      queued := server.ghost.queued ++ [(server.sheap.next, msg)] }) kept

def sendsizeOn (server : Server) (c : ConnId) (outcome : SendOutcome) : Int :=
  if (server.conns c).fd = -1 then -2 else outcome.result

def armedOn (server : Server) (c : ConnId) (ctlOk : Bool) : Bool :=
  decide (ctlOk = true ∧ (server.conns c).fd ≠ -1)

theorem armed_on_of_fd {before after : Server} {c : ConnId} (ctlOk : Bool)
    (fd : (after.conns c).fd = (before.conns c).fd) :
    armedOn after c ctlOk = armedOn before c ctlOk := by
  rw [armedOn, armedOn, fd]

theorem sendproc_send_state (server : Server) (c : ConnId) (byWriteHandler partlySent : Bool)
    (outcome : SendOutcome) :
    sendState (sendproc server c byWriteHandler partlySent outcome).1 =
        (sendState server).logCall c byWriteHandler partlySent (sendsizeOn server c outcome) ∧
      (sendproc server c byWriteHandler partlySent outcome).2 = sendsizeOn server c outcome :=
  ⟨rfl, rfl⟩

theorem advance_send_state (server : Server) (c : ConnId) (count : Int) :
    sendState (server.modConn c (advanceSend count)) = (sendState server).advance c count.toNat :=
  send_state_set server c (advanceSend count) _ rfl rfl

theorem finish_send_state (server : Server) (c : ConnId) :
    sendState ({ server with
        sheap := BlockHeap.free server.sheap (server.conns c).send.psendMemPointer
        semEventSendQueue := server.semEventSendQueue + 1 }.modConn c fun p =>
        { p with
          send :=
            { p.send with
              psendMemPointer := null
              iThrowsendCount := p.send.iThrowsendCount - 1 } }) =
      { sendState server with sem := (sendState server).sem + 1 }.dropPending c
        (((sendState server).send c).iThrowsendCount - 1) :=
  send_state_set _ c _ (fun part =>
    { part with
      psendMemPointer := null
      iThrowsendCount := (server.conns c).send.iThrowsendCount - 1 }) rfl rfl

theorem drop_packet_send_state (server : Server) (c : ConnId) :
    sendState (dropPacket server c) = (sendState server).dropPending c 0 :=
  send_state_set _ c _ (fun part =>
    { part with psendMemPointer := null, iThrowsendCount := 0 }) rfl rfl

theorem progress_of_done {isendlen : Nat} {sendsize : Int}
    (notPart : ¬(sendsize > 0 ∧ sendsize ≠ isendlen)) (notBlocked : sendsize ≠ -1) :
    progressOf isendlen sendsize = .done sendsize := by
  rw [progressOf, if_neg notPart, if_neg notBlocked]

theorem progress_of_blocked (isendlen : Nat) : progressOf isendlen (-1) = .blocked := by
  rw [progressOf, if_neg (by omega), if_pos rfl]

theorem ngx_write_request_handler_send_state (server : Server) (c : ConnId)
    (outcome : SendOutcome) (ctlOk : Bool) :
    sendState (ngxWriteRequestHandler server c outcome ctlOk) =
      (sendState server).write c
        (progressOf (server.conns c).send.isendlen (sendsizeOn server c outcome))
        (armedOn server c ctlOk) := by
  obtain ⟨logged, size⟩ := sendproc_send_state server c true false outcome
  have conns : (sendproc server c true false outcome).1.conns = server.conns := rfl
  unfold ngxWriteRequestHandler
  dsimp only
  rw [size]
  split
  case isTrue part =>
    rw [advance_send_state, logged, progressOf, if_pos part]
    have whole : ((sendsizeOn server c outcome).toNat : Int) = sendsizeOn server c outcome :=
      Int.toNat_of_nonneg (by omega)
    simp only [SendState.write, Progress.sendsize, whole]
  case isFalse notPart =>
    split
    case isTrue full =>
      rw [logged, full, progress_of_blocked]
      rfl
    case isFalse notBlocked =>
      rw [progress_of_done notPart notBlocked, SendState.write]
      dsimp only [Progress.sendsize]
      by_cases sent : sendsizeOn server c outcome > 0
      · rw [if_pos sent, if_pos ⟨sent, by omega⟩]
        have disarmed := epoll_oper_send_state (sendproc server c true false outcome).1
          ((sendproc server c true false outcome).1.conns c).fd .mod epollOut 1 c ctlOk
          EpollCtl.noConfusion
        rw [finish_send_state, disarmed, logged, conns]
        rfl
      · rw [if_neg sent, if_neg (fun both => sent both.1), finish_send_state, logged]

theorem start_packet_send_state (server : Server) (pos pMsgBuf : Nat) (msg : MsgBuf) :
    sendState (startPacket server pos pMsgBuf msg) =
      (sendState server).begin pos pMsgBuf msg :=
  send_state_set (eraseElement server pos) msg.hdr.pConn _ _ rfl rfl

theorem await_writable_send_state (server : Server) (c : ConnId) (ctlOk : Bool) :
    sendState (awaitWritable server c ctlOk) =
      (sendState server).await c (armedOn server c ctlOk) := by
  have counted := send_state_set server c
    (fun p => { p with send.iThrowsendCount := p.send.iThrowsendCount + 1 })
    (fun part => { part with iThrowsendCount := part.iThrowsendCount + 1 }) rfl rfl
  have armed := epoll_oper_send_state
    (server.modConn c fun p => { p with send.iThrowsendCount := p.send.iThrowsendCount + 1 })
    (server.conns c).fd .mod epollOut 0 c ctlOk nofun
  rw [counted, mod_conn_conns_self] at armed
  unfold awaitWritable
  dsimp only
  rw [mod_conn_conns_self]
  exact armed

theorem send_element_now_send_state (server : Server) (pos pMsgBuf : Nat) (msg : MsgBuf)
    (outcome : SendOutcome) (ctlOk : Bool) :
    sendState (sendElementNow server pos pMsgBuf msg outcome ctlOk) =
      (sendState server).start pos pMsgBuf msg
        (progressOf (pkgLen msg.pkg) (sendsizeOn server msg.hdr.pConn outcome))
        (armedOn server msg.hdr.pConn ctlOk) := by
  have begun := start_packet_send_state server pos pMsgBuf msg
  have current : (startPacket server pos pMsgBuf msg).conns msg.hdr.pConn =
      { server.conns msg.hdr.pConn with
        security.iSendCount := (server.conns msg.hdr.pConn).security.iSendCount - 1
        send :=
          { (server.conns msg.hdr.pConn).send with
            psendMemPointer := pMsgBuf
            psendbuf := (pMsgBuf, lenMsgHeader)
            isendlen := pkgLen msg.pkg } } :=
    mod_conn_conns_self (eraseElement server pos) msg.hdr.pConn _
  have fd : ((startPacket server pos pMsgBuf msg).conns msg.hdr.pConn).fd =
      (server.conns msg.hdr.pConn).fd := by rw [current]
  have isendlen : ((startPacket server pos pMsgBuf msg).conns msg.hdr.pConn).send.isendlen =
      pkgLen msg.pkg := by rw [current]
  have result : sendsizeOn (startPacket server pos pMsgBuf msg) msg.hdr.pConn outcome =
      sendsizeOn server msg.hdr.pConn outcome := by rw [sendsizeOn, sendsizeOn, fd]
  obtain ⟨logged, size⟩ := sendproc_send_state (startPacket server pos pMsgBuf msg)
    msg.hdr.pConn false (decide ((server.conns msg.hdr.pConn).send.psendMemPointer ≠ null)) outcome
  rw [result, begun] at logged
  rw [result] at size
  have triedFd : ((sendproc (startPacket server pos pMsgBuf msg) msg.hdr.pConn false
      (decide ((server.conns msg.hdr.pConn).send.psendMemPointer ≠ null)) outcome).1.conns
      msg.hdr.pConn).fd = (server.conns msg.hdr.pConn).fd := fd
  unfold sendElementNow
  dsimp only
  rw [isendlen]
  generalize sendproc (startPacket server pos pMsgBuf msg) msg.hdr.pConn false
    (decide ((server.conns msg.hdr.pConn).send.psendMemPointer ≠ null)) outcome = tried
    at logged size triedFd ⊢
  rw [size]
  generalize sendsizeOn server msg.hdr.pConn outcome = sendsize at logged
  have armed : armedOn tried.1 msg.hdr.pConn ctlOk = armedOn server msg.hdr.pConn ctlOk :=
    armed_on_of_fd ctlOk triedFd
  split_ifs with sent whole zero full
  · rw [drop_packet_send_state, logged, progress_of_done (by omega) (by omega)]
    rfl
  · have advancedArmed : armedOn (tried.1.modConn msg.hdr.pConn (advanceSend sendsize))
        msg.hdr.pConn ctlOk = armedOn server msg.hdr.pConn ctlOk := by
      apply armed_on_of_fd ctlOk
      rw [mod_conn_conns_self]
      exact triedFd
    have count : (sendsize.toNat : Int) = sendsize := Int.toNat_of_nonneg (by omega)
    rw [await_writable_send_state, advance_send_state, logged, advancedArmed, progressOf,
      if_pos ⟨sent, whole⟩]
    simp only [SendState.start, Progress.sendsize, count]
    rfl
  · rw [drop_packet_send_state, logged, progress_of_done (by omega) (by omega)]
    rfl
  · rw [await_writable_send_state, logged, armed, full, progress_of_blocked]
    rfl
  · rw [drop_packet_send_state, logged, progress_of_done (by omega) full]
    rfl

theorem live_open {server : Server} {c : ConnId} (settled : Settled (poolView server))
    (live : server.ghost.occ c ≠ none) : (server.conns c).fd ≠ -1 := by
  obtain ⟨o, serves⟩ := Option.ne_none_iff_exists'.mp live
  have holds : QuarantinePool.Invariant (poolView server) [] _ := settled
  have used := (holds.stamps.owner_used c o serves).1
  have nonneg : 0 ≤ (server.conns c).fd := QuarantinePool.used_nonneg holds.handles used
  omega

theorem result_le {isendlen : Nat} (outcome : SendOutcome)
    (possible : outcome.possible isendlen = true) : outcome.result ≤ isendlen := by
  induction outcome with
  | sent count =>
      have bounds := of_decide_eq_true possible
      simp only [SendOutcome.result]
      omega
  | zero => simp [SendOutcome.result]
  | eagain => simp only [SendOutcome.result]; omega
  | eintr next ih => exact ih possible
  | error => simp only [SendOutcome.result]; omega

theorem progress_of_fits {isendlen : Nat} {sendsize : Int} (bound : sendsize ≤ isendlen) :
    (progressOf isendlen sendsize).Fits isendlen := by
  unfold progressOf
  split_ifs with part full
  · exact ⟨by omega, by omega⟩
  · trivial
  · by_cases sent : sendsize > 0
    · exact Or.inl (by omega)
    · exact Or.inr (by omega)

theorem sendsize_on_le {server : Server} {isendlen : Nat} (c : ConnId) {outcome : SendOutcome}
    (possible : outcome.possible isendlen = true) : sendsizeOn server c outcome ≤ isendlen := by
  unfold sendsizeOn
  split
  · omega
  · exact result_le outcome possible

theorem sendsize_on_live {server : Server} {c : ConnId} (settled : Settled (poolView server))
    (live : server.ghost.occ c ≠ none) (outcome : SendOutcome) (ctlOk : Bool) :
    sendsizeOn server c outcome = outcome.result ∧ armedOn server c ctlOk = ctlOk := by
  have opened := live_open settled live
  exact ⟨if_neg opened, by simp [armedOn, opened]⟩

/-- What an action of the process must fulfil for its moves to obey the rules.
The event loop's part behind the read handler is what the rules are about. -/
def Permits (rules : Rules) (cfg : Config) (server : Server) : Act → Prop
  | .event c revents recv send ctlOk junk nowMs now =>
      let served := readSide cfg server c revents recv junk nowMs now
      hasFlag revents epollOut = true →
        if hasFlag revents (epollErr ||| epollHup ||| epollRdhup) = true then
          rules.mayUncount (sendState served) c
        else
          served.ghost.occ c ≠ none → rules.mayWrite (sendState served) c
            (progressOf (served.conns c).send.isendlen send.result) ctlOk
  | .element outcome ctlOk =>
      ∀ isendlen, rules.mayStart (progressOf isendlen outcome.result) ctlOk
  | .msgSend msg _ => Sized msg
  | _ => True

section Moves

variable {rules : Rules} {server : Server}

theorem moves_single {before after : SendState} (move : SendMove rules before after) :
    SendMoves rules before after :=
  Relation.ReflTransGen.single move

theorem moves_of_eq {before after : SendState} (same : after = before) :
    SendMoves rules before after := by
  rw [same]
  exact Relation.ReflTransGen.refl

theorem zd_closesocket_proc_moves (settled : Settled (poolView server)) (cfg : Config)
    (c : ConnId) (now : Int) :
    SendMoves rules (sendState server) (sendState (zdClosesocketProc cfg server c now)) := by
  rw [zd_closesocket_proc_send_state]
  exact moves_single (SendMove.close c _ fun live => decide_eq_true (live_open settled live))

theorem read_side_moves (settled : Settled (poolView server)) (cfg : Config) (c : ConnId)
    (revents : BitVec 32) (recv : RecvOutcome) (junk : Nat → Byte) (nowMs : Nat) (now : Int) :
    SendMoves rules (sendState server)
      (sendState (readSide cfg server c revents recv junk nowMs now)) := by
  unfold readSide
  split
  · obtain ⟨received, same, ends⟩ :=
      ngx_read_request_handler_frame cfg server c recv junk nowMs now
    have kept := send_state_of_recv same
    rcases ends with read | closed
    · rw [read]
      exact moves_of_eq kept
    · rw [closed, ← kept]
      exact zd_closesocket_proc_moves (by rwa [pool_view_of_recv same]) cfg c now
  · exact Relation.ReflTransGen.refl

/-- The pool is settled behind the read handler too, and the connection is
still in service. -/
theorem read_side_settled (settled : Settled (poolView server)) (cfg : Config) (c : ConnId)
    (serves : InService (poolView server) c) (revents : BitVec 32) (recv : RecvOutcome)
    (junk : Nat → Byte) (nowMs : Nat) (now : Int) :
    Settled (poolView (readSide cfg server c revents recv junk nowMs now)) ∧
      InService (poolView (readSide cfg server c revents recv junk nowMs now)) c := by
  have retires : MayRetire server (readSide cfg server c revents recv junk nowMs now) c := by
    unfold readSide
    split
    · exact ngx_read_request_handler_view cfg server c recv junk nowMs now
    · exact Or.inl rfl
  refine ⟨QuarantinePool.settled_steps settled (steps_of_may_retire retires serves), ?_⟩
  rcases retires with same | retired
  · rw [same]
    exact serves
  · rw [retired]
    exact QuarantinePool.retire_in_service _ c serves

theorem read_side_isendlen (cfg : Config) (c : ConnId) (revents : BitVec 32) (recv : RecvOutcome)
    (junk : Nat → Byte) (nowMs : Nat) (now : Int) :
    ((readSide cfg server c revents recv junk nowMs now).conns c).send.isendlen =
      (server.conns c).send.isendlen := by
  unfold readSide
  split
  · obtain ⟨received, same, ends⟩ :=
      ngx_read_request_handler_frame cfg server c recv junk nowMs now
    have kept := congrArg (fun server => (server.conns c).send.isendlen) same
    rcases ends with read | closed
    · rw [read]
      exact kept
    · have shut := congrArg (fun server => (server.conns c).send.isendlen)
        (forget_close_zd cfg received c now)
      rw [closed]
      exact Eq.trans shut kept
  · rfl

theorem write_side_moves (settled : Settled (poolView server)) (c : ConnId)
    (serves : InService (poolView server) c) (revents : BitVec 32) (send : SendOutcome)
    (ctlOk : Bool) (possible : send.possible (server.conns c).send.isendlen = true)
    (permits : hasFlag revents epollOut = true →
      if hasFlag revents (epollErr ||| epollHup ||| epollRdhup) = true then
        rules.mayUncount (sendState server) c
      else server.ghost.occ c ≠ none → rules.mayWrite (sendState server) c
        (progressOf (server.conns c).send.isendlen send.result) ctlOk) :
    SendMoves rules (sendState server) (sendState (writeSide server c revents send ctlOk)) := by
  unfold writeSide
  split
  case isTrue out =>
    have may := permits out
    split
    case isTrue hangup =>
      rw [if_pos hangup] at may
      have uncounted := send_state_set server c
        (fun p => { p with send.iThrowsendCount := p.send.iThrowsendCount - 1 })
        (fun part => { part with iThrowsendCount := part.iThrowsendCount - 1 }) rfl rfl
      rw [uncounted]
      exact moves_single (SendMove.uncount c may)
    case isFalse plain =>
      rw [if_neg plain] at may
      rw [ngx_write_request_handler_send_state]
      refine moves_single (SendMove.write c _ _ (progress_of_fits (sendsize_on_le c possible))
        ?_ ?_)
      · intro dead
        have shut : (server.conns c).fd = -1 := by
          by_contra opened
          exact open_in_service settled serves opened dead
        have result : sendsizeOn server c send = -2 := if_pos shut
        rw [result]
        exact progress_of_done (by omega) (by omega)
      · intro live
        obtain ⟨result, armed⟩ := sendsize_on_live settled live send ctlOk
        rw [result, armed]
        exact may live
  case isFalse => exact Relation.ReflTransGen.refl

theorem queue_reply_moves (settled : Settled (poolView server)) (cfg : Config) (msg : MsgBuf)
    (now : Int) (stamped : Stamped (poolView server) msg.hdr) (sized : Sized msg) :
    SendMoves rules (sendState server) (sendState (queueReply cfg server msg now)) := by
  have discarded : SendMoves rules (sendState server)
      (sendState (discardSendPkg (allocReply server msg) server.sheap.next)) := by
    rw [discard_send_pkg_send_state]
    exact moves_single (SendMove.discard msg)
  rcases queue_reply_cases cfg server msg now with dropped | ⟨-, closed⟩ | queued
  · rw [dropped]
    exact discarded
  · have still : Settled (poolView
        (discardSendPkg (allocReply server msg) server.sheap.next)) := settled
    rw [closed]
    exact discarded.trans (zd_closesocket_proc_moves still cfg msg.hdr.pConn now)
  · obtain ⟨o, started, occ, stamp⟩ := stamped
    rw [queued, push_send_pkg_send_state]
    refine moves_single (SendMove.push msg sized o started occ ?_)
    intro c serves
    have current := (settled_stamps settled).current c o serves
    rw [stamp] at current
    exact (Prod.mk.inj current).1.symm

theorem process_message_moves (attributed : Attributed server) (cfg : Config) (jobbuf : Nat)
    (junk : Nat → Byte) (now : Int) :
    SendMoves rules (sendState server)
      (sendState (processMessage cfg server jobbuf junk now)) := by
  rcases process_message_cases cfg server jobbuf junk now with
    same | ⟨msg, dispatched, live, current, logged, ends⟩
  · exact moves_of_eq (by rw [same])
  · have kept : sendState dispatched = sendState server := by rw [logged]; rfl
    have view : poolView dispatched = poolView server := by rw [logged]; rfl
    rcases ends with silent | ⟨answer, noted, header, sized, notes, replies⟩
    · exact moves_of_eq (by rw [silent, kept])
    · have notedKept : sendState noted = sendState server ∧ poolView noted = poolView server := by
        rcases notes with same | same
        · rw [same, kept, view]
          exact ⟨rfl, rfl⟩
        · rw [same, send_state_mod_conn dispatched msg.hdr.pConn _ rfl rfl,
            pool_view_mod_conn dispatched _ _ rfl rfl, kept, view]
          exact ⟨rfl, rfl⟩
      rw [replies, ← notedKept.1]
      refine queue_reply_moves (by rw [notedKept.2]; exact attributed.settled) cfg answer now ?_
        sized
      rw [notedKept.2, header]
      exact attributed.requests msg.hdr ⟨jobbuf, msg, live, rfl⟩

theorem ping_check_moves (settled : Settled (poolView server)) (cfg : Config) (tmpmsg : Nat)
    (curTime now : Int) :
    SendMoves rules (sendState server)
      (sendState (procPingTimeOutChecking cfg server tmpmsg curTime now)) := by
  unfold procPingTimeOutChecking
  split
  · exact Relation.ReflTransGen.refl
  case h_2 record found =>
    have freed : ∀ checked : Server, sendState (freeRecord checked tmpmsg) = sendState checked :=
      fun _ => rfl
    rw [freed]
    unfold kickOverdue
    split_ifs
    · have logged : sendState (logKick server record) = sendState server := rfl
      have still : Settled (poolView (logKick server record)) := settled
      rw [← logged]
      exact zd_closesocket_proc_moves still cfg record.pConn now
    · exact Relation.ReflTransGen.refl
    · exact Relation.ReflTransGen.refl

theorem recy_connection_pass_moves (settled : Settled (poolView server)) (cfg : Config)
    (currtime gStopEvent : Int) :
    SendMoves rules (sendState server)
      (sendState (serverRecyConnectionPass cfg server currtime gStopEvent)) := by
  have looped : ∀ rounds (state : Server), Settled (poolView state) →
      SendMoves rules (sendState state)
        (sendState (lblRRTD cfg currtime gStopEvent rounds state)) := by
    intro rounds
    induction rounds with
    | zero => exact fun _ _ => Relation.ReflTransGen.refl
    | succ rounds ih =>
        intro state holds
        unfold lblRRTD
        split
        · exact Relation.ReflTransGen.refl
        case h_2 c found =>
          have waits : c ∈ (poolView state).quarantine := List.mem_of_find?_eq_some found
          have unowned : state.ghost.occ c = none := by
            by_contra live
            exact live_open holds live (holds.handles.idle c (Or.inr waits))
          have released : sendState (releaseConnection state c) = (sendState state).release c :=
            ngx_free_connection_send_state _ c
          have first : SendMoves rules (sendState state)
              (sendState (releaseConnection state c)) := by
            rw [released]
            exact moves_single (SendMove.release c (Or.inl unowned))
          refine first.trans (ih _ ?_)
          rw [release_connection_view]
          exact QuarantinePool.settled_step holds (QuarantinePool.PoolStep.release c waits)
  unfold serverRecyConnectionPass
  split
  · exact looped _ server settled
  · exact Relation.ReflTransGen.refl

theorem ngx_close_connection_moves (c : ConnId)
    (idle : (server.conns c).send.psendMemPointer = null) :
    SendMoves rules (sendState server) (sendState (ngxCloseConnection server c)) := by
  have freed := ngx_free_connection_send_state server c
  have shut : sendState (ngxCloseConnection server c) =
      (sendState (ngxFreeConnection server c)).close c
        (decide (((ngxFreeConnection server c).conns c).fd ≠ -1)) := by
    rw [ngxCloseConnection, close_if_open_send_state, freed]
    simp [SendState.release, SendState.dropPending, SendState.close, SendState.setSend, sendState,
      ngxFreeConnection, putOneToFree, Server.modConn]
  rw [shut, freed]
  refine (moves_single (SendMove.release c (Or.inr idle))).trans (moves_single ?_)
  refine SendMove.close c _ fun live => absurd ?_ live
  simp [SendState.release, SendState.dropPending, SendState.setSend]

theorem register_connection_moves (cfg : Config) (newc : ConnId) (s : Int)
    (nonblockOk ctlOk : Bool) (now : Int)
    (idle : (server.conns newc).send.psendMemPointer = null) :
    SendMoves rules (sendState server)
      (sendState (registerConnection cfg server newc s nonblockOk ctlOk now)) := by
  have handled := send_state_mod_conn server newc
    (fun p => { p with rhandler := .ngxReadRequestHandler }) rfl rfl
  have armed := epoll_oper_send_state
    (server.modConn newc fun p => { p with rhandler := .ngxReadRequestHandler }) s .add
    (epollIn ||| epollRdhup) 0 newc ctlOk nofun
  rw [handled, if_pos rfl] at armed
  unfold registerConnection
  split
  · exact ngx_close_connection_moves newc idle
  · dsimp only
    generalize ngxEpollOperEvent
      (server.modConn newc fun p => { p with rhandler := .ngxReadRequestHandler }) s .add
      (epollIn ||| epollRdhup) 0 newc ctlOk = registered at armed ⊢
    have arms : SendMoves rules (sendState server) (sendState registered.1) := by
      rw [armed]
      exact moves_single (SendMove.arm newc _ _ idle (by decide))
    have still : (registered.1.conns newc).send.psendMemPointer = null := by
      have send := congrArg (fun state : SendState => (state.send newc).psendMemPointer) armed
      exact Eq.trans send idle
    split
    · exact arms.trans (ngx_close_connection_moves newc still)
    · split <;> exact arms

theorem accept_socket_moves (cfg : Config) (s : Int) (nonblockOk ctlOk : Bool) (now : Int)
    (unowned : server.ghost.occ (ngxGetConnection server s now).1 = none) :
    SendMoves rules (sendState server)
      (sendState (acceptSocket cfg server s nonblockOk ctlOk now)) := by
  obtain ⟨part, issued⟩ := ngx_get_connection_send_state server s now
  unfold acceptSocket
  split_ifs
  · exact moves_of_eq rfl
  · exact moves_of_eq rfl
  · dsimp only
    generalize ngxGetConnection server s now = issue at unowned issued ⊢
    have resets : SendMoves rules (sendState server) (sendState issue.2) := by
      rw [issued]
      exact moves_single (SendMove.reset issue.1 part unowned)
    have idle : (sendState issue.2).send issue.1 =
        { part with iThrowsendCount := 0, psendMemPointer := null } := by
      rw [issued]
      exact Function.update_self _ _ _
    have free : (sendState issue.2).occ issue.1 = none := by
      rw [issued]
      exact unowned
    have owns : SendMoves rules (sendState issue.2) (sendState (openOccupancy issue.2 issue.1)) :=
      moves_single (SendMove.own issue.1 free (by rw [idle]) (by rw [idle]))
    apply (resets.trans owns).trans
    apply register_connection_moves cfg issue.1 s nonblockOk ctlOk now
    exact congrArg SendPart.psendMemPointer idle

theorem event_accept_moves (settled : Settled (poolView server)) (cfg : Config)
    (nonblockOk ctlOk : Bool) (now : Int) (outcomes : List AcceptOutcome)
    (possible : outcomes.all (AcceptOutcome.possible server) = true)
    (ready : server.connectionList ≠ []) :
    SendMoves rules (sendState server)
      (sendState (ngxEventAccept cfg server nonblockOk ctlOk now outcomes)) := by
  induction outcomes generalizing server with
  | nil => exact Relation.ReflTransGen.refl
  | cons outcome rest ih =>
      rw [List.all_cons, Bool.and_eq_true] at possible
      cases outcome with
      | ok s =>
          obtain ⟨nonneg, fresh⟩ := of_decide_eq_true possible.1
          have opened := QuarantinePool.open_invariant
            (QuarantinePool.settled_ready settled ready) nonneg fresh
          have kept : sendState (openSocket server s) = sendState server := rfl
          have moves : SendMoves rules (sendState (openSocket server s))
              (sendState (acceptSocket cfg (openSocket server s) s nonblockOk ctlOk now)) := by
            apply accept_socket_moves cfg s nonblockOk ctlOk now
            have unowned : (QuarantinePool.issue (QuarantinePool.openFd (poolView server) s) s).2.owner
                (QuarantinePool.issue (QuarantinePool.openFd (poolView server) s) s).1 = none :=
              QuarantinePool.issue_unowned opened
            rw [QuarantinePool.issue_owner, ← open_socket_view,
              ← (ngx_get_connection_view (openSocket server s) s now).1] at unowned
            exact unowned
          rw [kept] at moves
          exact moves
      | err code =>
          unfold ngxEventAccept
          split_ifs
          · exact Relation.ReflTransGen.refl
          · have still : Settled (poolView { server with useAccept4 := false }) := settled
            exact ih still possible.2 ready
          · exact Relation.ReflTransGen.refl

theorem listen_on_moves (ctl : Int → Bool) (now fd : Int) {after : Server}
    (nobody : ∀ c, server.ghost.occ c = none) (done : listenOn ctl now server fd = some after) :
    SendMoves rules (sendState server) (sendState after) ∧ ∀ c, after.ghost.occ c = none := by
  obtain ⟨part, issued⟩ := ngx_get_connection_send_state server fd now
  unfold listenOn at done
  dsimp only at done
  generalize ngxGetConnection server fd now = issue at issued done
  have marked : sendState (markListening issue.2 issue.1) = sendState issue.2 :=
    send_state_mod_conn { issue.2 with listenConns := issue.2.listenConns ++ [issue.1] } issue.1
      (fun p => { p with rhandler := .ngxEventAccept }) rfl rfl
  have armed := epoll_oper_send_state (markListening issue.2 issue.1) fd .add
    (epollIn ||| epollRdhup) 0 issue.1 (ctl fd) nofun
  rw [marked, issued, if_pos rfl] at armed
  generalize ngxEpollOperEvent (markListening issue.2 issue.1) fd .add (epollIn ||| epollRdhup) 0
    issue.1 (ctl fd) = registered at armed done
  split at done
  · cases done
  · cases done
    refine ⟨?_, fun c => (congrArg (fun state : SendState => state.occ c) armed).trans (nobody c)⟩
    rw [armed]
    refine (moves_single (SendMove.reset issue.1 part (nobody issue.1))).trans
      (moves_single (SendMove.arm issue.1 _ _ ?_ (by decide)))
    simp [SendState.reset]

theorem epoll_init_moves (cfg : Config) (ctl : Int → Bool) (now : Int) {after : Server}
    (nobody : ∀ c, server.ghost.occ c = none)
    (done : ngxEpollInit cfg server ctl now = some after) :
    SendMoves rules (sendState server) (sendState after) := by
  have grown : ∀ count (state : Server), (∀ c, state.ghost.occ c = none) →
      SendMoves rules (sendState state)
          (sendState (Nat.iterate (addFreeConnection now) count state)) ∧
        ∀ c, (Nat.iterate (addFreeConnection now) count state).ghost.occ c = none := by
    intro count
    induction count with
    | zero => exact fun state none => ⟨Relation.ReflTransGen.refl, none⟩
    | succ count ih =>
        intro state none
        have first : SendMoves rules (sendState state) (sendState (addFreeConnection now state)) := by
          rw [add_free_connection_send_state]
          exact moves_single (SendMove.reset _ _ (none _))
        obtain ⟨rest, still⟩ := ih (addFreeConnection now state) none
        exact ⟨first.trans rest, still⟩
  have reserved : ∀ fds (state : Server), (∀ c, state.ghost.occ c = none) →
      List.foldlM (listenOn ctl now) state fds = some after →
      SendMoves rules (sendState state) (sendState after) := by
    intro fds
    induction fds with
    | nil =>
        intro state _ same
        cases same
        exact Relation.ReflTransGen.refl
    | cons fd rest ih =>
        intro state none loops
        rw [List.foldlM_cons] at loops
        obtain ⟨next, listens, later⟩ := Option.bind_eq_some_iff.mp loops
        obtain ⟨first, still⟩ := listen_on_moves ctl now fd none listens
        exact first.trans (ih next still later)
  obtain ⟨filled, still⟩ := grown cfg.workerConnections server nobody
  exact filled.trans (reserved server.listenFds (initconnection cfg now server) still done)

theorem send_element_moves (attributed : Attributed server) {pos pMsgBuf : Nat}
    {outcome : SendOutcome} (ctlOk : Bool) (iterator : server.sendPc = .pass pos)
    (current : server.msgSendQueue[pos]? = some pMsgBuf)
    (possible : outcome.possible
      (((server.sheap.block pMsgBuf).map fun msg => pkgLen msg.pkg).getD 0) = true)
    (permits : ∀ isendlen, rules.mayStart (progressOf isendlen outcome.result) ctlOk) :
    SendMoves rules (sendState server)
      (sendState (sendElement server pos pMsgBuf outcome ctlOk)) := by
  unfold sendElement
  split
  · exact Relation.ReflTransGen.refl
  case h_2 msg content =>
    have here : Current (sendState server) pos pMsgBuf msg := ⟨iterator, current, content⟩
    have stamped := attributed.replies msg.hdr ⟨pMsgBuf, msg, content, rfl⟩
    have owner := stamped_current (settled_stamps attributed.settled) stamped
    dsimp only
    split_ifs with stale busy
    · refine moves_single (SendMove.dropStale pos pMsgBuf msg here ?_)
      exact fun owns => stale (owner.mpr owns).symm
    · exact moves_single (SendMove.skip pos pMsgBuf msg here busy)
    · obtain ⟨owns, live⟩ :=
        current_owner attributed.settled stamped (not_not.mp stale)
      have serving : server.ghost.occ msg.hdr.pConn ≠ none := by
        rw [owns]
        exact live
      obtain ⟨result, armed⟩ := sendsize_on_live attributed.settled serving outcome ctlOk
      rw [send_element_now_send_state, result, armed]
      rw [content] at possible
      exact moves_single (SendMove.start pos pMsgBuf msg _ ctlOk here owns live (not_lt.mp busy)
        (progress_of_fits (result_le outcome possible)) (permits _))

/-- A disciplined step of the process is a sequence of moves. -/
theorem send_moves_of_step {cfg : Config} {after : Server} {act : Act}
    (attributed : Attributed server) (disciplined : Disciplined server act)
    (permits : Permits rules cfg server act) (taken : step cfg server act = some after) :
    SendMoves rules (sendState server) (sendState after) := by
  have settled := attributed.settled
  cases stepped_of_step taken with
  | epollInit ctl now _ empty done =>
      refine epoll_init_moves cfg ctl now ?_ done
      intro c
      by_contra live
      have used := (owner_in_service settled live).1
      rw [show (poolView server).all = [] from empty] at used
      cases used
  | accept oldc outcomes nonblockOk ctlOk now listening possible =>
      apply event_accept_moves settled cfg nonblockOk ctlOk now outcomes possible
      have pinned : oldc ∈ QuarantinePool.placed (poolView server) [] := by
        simp [QuarantinePool.placed, poolView, listening]
      exact List.ne_nil_of_mem (settled.places.placed_all oldc pinned)
  | event c revents recv send ctlOk junk nowMs now handler reported recvPossible sendPossible =>
      obtain ⟨still, serves⟩ := read_side_settled settled cfg c disciplined revents recv junk nowMs
        now
      refine (read_side_moves settled cfg c revents recv junk nowMs now).trans
        (write_side_moves still c serves revents send ctlOk ?_ permits)
      rw [read_side_isendlen]
      exact sendPossible
  | msgSend msg now => exact queue_reply_moves settled cfg msg now disciplined.1 permits
  | semWait interrupted waits wakes =>
      exact moves_single (SendMove.wake interrupted waits wakes)
  | beginPass woken => exact moves_single (SendMove.beginPass woken)
  | element outcome ctlOk pos pMsgBuf iterator current possible =>
      exact send_element_moves attributed ctlOk iterator current possible permits
  | endPass pos iterator finished => exact moves_single (SendMove.endPass pos iterator finished)
  | take worker jobbuf rest => exact moves_of_eq rfl
  | process worker jobbuf junk now =>
      exact process_message_moves attributed cfg jobbuf junk now
  | release worker jobbuf => exact moves_of_eq rfl
  | monitorPop curTime =>
      exact moves_of_eq (send_state_of_monitor (forget_monitor_pop cfg server curTime))
  | monitorCheck now tmpmsg rest =>
      have popped : Settled (poolView { server with lsIdleList := rest }) := settled
      exact ping_check_moves popped cfg tmpmsg server.monitorTime now
  | recycle currtime => exact recy_connection_pass_moves settled cfg currtime 0
  | close c now => exact zd_closesocket_proc_moves settled cfg c now

end Moves

theorem fresh_sound {server : Server} (fresh : Fresh server) : SendSound (sendState server) := by
  obtain ⟨listenFds, -, -, rfl⟩ := fresh
  refine ⟨⟨BlockHeap.empty_well_formed, ?_, ?_⟩, nofun, ?_, rfl⟩
  · intro holder buf held
    cases holder with
    | slot index => cases held
    | conn c => exact absurd held.1.symm held.2
  · intro holder other buf held
    cases holder with
    | slot index => cases held
    | conn c => exact absurd held.1.symm held.2
  · exact fun c pending => absurd rfl pending

/-- What every move under the rules keeps holds in every state that a run
reaches whose actions the rules permit. -/
theorem reachable_send_state {cfg : Config} {allowed : Server → Act → Prop} {rules : Rules}
    {invariant : SendState → Prop} {server : Server}
    (starts : ∀ server, Fresh server → invariant (sendState server))
    (preserved : ∀ before after, SendSound before → invariant before →
      SendMove rules before after → invariant after)
    (disciplined : ∀ server act, allowed server act → Disciplined server act)
    (permits : ∀ server act, allowed server act → Permits rules cfg server act)
    (reached : Reachable cfg allowed server) :
    Attributed server ∧ SendSound (sendState server) ∧ invariant (sendState server) := by
  refine TransitionSystem.invariant_of_step (fun server =>
    Attributed server ∧ SendSound (sendState server) ∧ invariant (sendState server)) ?_ ?_ reached
  · exact fun server fresh => ⟨fresh_attributed fresh, fresh_sound fresh, starts server fresh⟩
  · rintro before act after ⟨attributed, sound, holds⟩ permitted taken
    have moves := send_moves_of_step attributed (disciplined _ _ permitted)
      (permits _ _ permitted) taken
    exact ⟨attributed_step attributed (disciplined _ _ permitted) taken,
      moves_preserve preserved sound holds moves⟩

end NgxServer.SendRefinement
