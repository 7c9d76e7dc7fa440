import NgxServer.Accept
import NgxServer.Logic
import NgxServer.Request
import NgxServer.Lib.TransitionSystem

/-!
# The worker process as a transition system

One action for each piece of code that a thread executes without another
thread's conflicting step in between: an accept, one event of an epoll batch,
one element of the send queue, the parts of a worker's loop, the monitor's pop
and each of its checks, a recycler pass. An action carries what its system
calls return. The step is `none` where the action cannot happen: the kernel
would not return that, or the mutex of the send queue is held by a pass.
-/

namespace NgxServer.System

open NgxServer.Comm NgxServer.State NgxServer.ConnPool NgxServer.TimerQueue
open NgxServer.Socket NgxServer.Request NgxServer.Accept NgxServer.Logic

set_option autoImplicit false

inductive Act
  /-- `ngx_epoll_init`, once, before the event loop -/
  | epollInit (ctl : Int → Bool) (now : Int)
  | accept (oldc : ConnId) (outcomes : List AcceptOutcome) (nonblockOk ctlOk : Bool) (now : Int)
  /-- one iteration of the loop of `ngx_epoll_process_events` -/
  | event (c : ConnId) (revents : BitVec 32) (recv : RecvOutcome) (send : SendOutcome)
      (ctlOk : Bool) (junk : Nat → Byte) (nowMs : Nat) (now : Int)
  /-- a call of `msgSend` with a message of any stamp -/
  | msgSend (msg : MsgBuf) (now : Int)
  | semWait (interrupted : Bool)
  | beginPass
  | element (outcome : SendOutcome) (ctlOk : Bool)
  | endPass
  | take (worker : Nat)
  | process (worker : Nat) (junk : Nat → Byte) (now : Int)
  | release (worker : Nat)
  | monitorPop (curTime : Int)
  | monitorCheck (now : Int)
  | recycle (currtime : Int)
  /-- `zdClosesocketProc` called by any thread -/
  | close (c : ConnId) (now : Int)

/-- The body of the event loop behind the read handler. -/
def writeSide (server : Server) (c : ConnId) (revents : BitVec 32) (send : SendOutcome)
    (ctlOk : Bool) : Server :=
  if hasFlag revents epollOut then
    if hasFlag revents (epollErr ||| epollHup ||| epollRdhup) then
      server.modConn c fun p =>
        { p with send.iThrowsendCount := p.send.iThrowsendCount - 1 }
    else ngxWriteRequestHandler server c send ctlOk
  else server

def readSide (cfg : Config) (server : Server) (c : ConnId) (revents : BitVec 32)
    (recv : RecvOutcome) (junk : Nat → Byte) (nowMs : Nat) (now : Int) : Server :=
  if hasFlag revents epollIn then ngxReadRequestHandler cfg server c recv junk nowMs now
  else server

/-- `EPOLLOUT` is only reported where it is registered, or was until the
connection was closed since the batch was fetched. -/
def eventPossible (server : Server) (c : ConnId) (revents : BitVec 32) : Bool :=
  match server.kmask c with
  | none => true
  | some mask => !hasFlag revents epollOut || hasFlag mask epollOut

def elementAt (server : Server) : Option (Nat × Nat) :=
  match server.sendPc with
  | .pass pos => (server.msgSendQueue[pos]?).map fun pMsgBuf => (pos, pMsgBuf)
  | _ => none

def inPass (server : Server) : Bool :=
  match server.sendPc with
  | .pass _ => true
  | _ => false

def step (cfg : Config) (server : Server) : Act → Option Server
  | .epollInit ctl now =>
      if server.connectionList = [] then ngxEpollInit cfg server ctl now else none
  | .accept oldc outcomes nonblockOk ctlOk now =>
      if oldc ∈ server.listenConns ∧ outcomes.all (AcceptOutcome.possible server) then
        some (ngxEventAccept cfg server nonblockOk ctlOk now outcomes)
      else none
  | .event c revents recv send ctlOk junk nowMs now =>
      if (server.conns c).rhandler = .ngxReadRequestHandler ∧
          eventPossible server c revents = true ∧
          recv.possible (server.conns c).fd (server.conns c).recv.irecvlen = true ∧
          send.possible (server.conns c).send.isendlen = true then
        some (writeSide (readSide cfg server c revents recv junk nowMs now) c revents send ctlOk)
      else none
  | .msgSend msg now =>
      if inPass server = false then some (queueReply cfg server msg now) else none
  | .semWait interrupted =>
      if server.sendPc = .semWait ∧ (interrupted = true ∨ server.semEventSendQueue > 0) then
        some (sendThreadWake server interrupted)
      else none
  | .beginPass => if server.sendPc = .woken then some (sendThreadBegin server) else none
  | .element outcome ctlOk =>
      match elementAt server with
      | none => none
      | some (pos, pMsgBuf) =>
          if outcome.possible (((server.sheap.block pMsgBuf).map fun msg => pkgLen msg.pkg).getD 0)
          then some (sendElement server pos pMsgBuf outcome ctlOk)
          else none
  | .endPass =>
      if inPass server = true ∧ elementAt server = none then
        some { server with sendPc := .semWait }
      else none
  | .take worker =>
      match server.workers worker, server.msgRecvQueue with
      | .idle, jobbuf :: rest =>
          some
            { server with
              workers := Function.update server.workers worker (.taken jobbuf)
              msgRecvQueue := rest
              iRecvMsgQueueCount := server.iRecvMsgQueueCount - 1 }
      | _, _ => none
  | .process worker junk now =>
      match server.workers worker with
      | .taken jobbuf =>
          if inPass server = true ∧ processReplies server jobbuf junk = true then none
          else
            some
              { processMessage cfg server jobbuf junk now with
                workers := Function.update server.workers worker (.processed jobbuf) }
      | _ => none
  | .release worker =>
      match server.workers worker with
      | .processed jobbuf =>
          some
            { server with
              workers := Function.update server.workers worker .idle
              rheap := BlockHeap.free server.rheap jobbuf }
      | _ => none
  | .monitorPop curTime =>
      if server.lsIdleList = [] then some (serverTimerQueuePop cfg server curTime) else none
  | .monitorCheck now =>
      match server.lsIdleList with
      | [] => none
      | tmpmsg :: rest =>
          some (procPingTimeOutChecking cfg { server with lsIdleList := rest } tmpmsg
            server.monitorTime now)
  | .recycle currtime => some (serverRecyConnectionPass cfg server currtime 0)
  | .close c now => some (zdClosesocketProc cfg server c now)

inductive Stepped (cfg : Config) (server : Server) : Act → Server → Prop
  | epollInit (ctl : Int → Bool) (now : Int) (after : Server)
      (empty : server.connectionList = []) (done : ngxEpollInit cfg server ctl now = some after) :
      Stepped cfg server (.epollInit ctl now) after
  | accept (oldc : ConnId) (outcomes : List AcceptOutcome) (nonblockOk ctlOk : Bool) (now : Int)
      (listening : oldc ∈ server.listenConns)
      (possible : outcomes.all (AcceptOutcome.possible server) = true) :
      Stepped cfg server (.accept oldc outcomes nonblockOk ctlOk now)
        (ngxEventAccept cfg server nonblockOk ctlOk now outcomes)
  | event (c : ConnId) (revents : BitVec 32) (recv : RecvOutcome) (send : SendOutcome)
      (ctlOk : Bool) (junk : Nat → Byte) (nowMs : Nat) (now : Int)
      (handler : (server.conns c).rhandler = .ngxReadRequestHandler)
      (reported : eventPossible server c revents = true)
      (recvPossible : recv.possible (server.conns c).fd (server.conns c).recv.irecvlen = true)
      (sendPossible : send.possible (server.conns c).send.isendlen = true) :
      Stepped cfg server (.event c revents recv send ctlOk junk nowMs now)
        (writeSide (readSide cfg server c revents recv junk nowMs now) c revents send ctlOk)
  | msgSend (msg : MsgBuf) (now : Int) (unlocked : inPass server = false) :
      Stepped cfg server (.msgSend msg now) (queueReply cfg server msg now)
  | semWait (interrupted : Bool) (waits : server.sendPc = .semWait)
      (wakes : interrupted = true ∨ server.semEventSendQueue > 0) :
      Stepped cfg server (.semWait interrupted) (sendThreadWake server interrupted)
  | beginPass (woken : server.sendPc = .woken) :
      Stepped cfg server .beginPass (sendThreadBegin server)
  | element (outcome : SendOutcome) (ctlOk : Bool) (pos pMsgBuf : Nat)
      (iterator : server.sendPc = .pass pos) (current : server.msgSendQueue[pos]? = some pMsgBuf)
      (possible : outcome.possible
        (((server.sheap.block pMsgBuf).map fun msg => pkgLen msg.pkg).getD 0) = true) :
      Stepped cfg server (.element outcome ctlOk) (sendElement server pos pMsgBuf outcome ctlOk)
  | endPass (pos : Nat) (iterator : server.sendPc = .pass pos)
      (finished : server.msgSendQueue[pos]? = none) :
      Stepped cfg server .endPass { server with sendPc := .semWait }
  | take (worker jobbuf : Nat) (rest : List Nat) (idle : server.workers worker = .idle)
      (front : server.msgRecvQueue = jobbuf :: rest) :
      Stepped cfg server (.take worker)
        { server with
          workers := Function.update server.workers worker (.taken jobbuf)
          msgRecvQueue := rest
          iRecvMsgQueueCount := server.iRecvMsgQueueCount - 1 }
  | process (worker jobbuf : Nat) (junk : Nat → Byte) (now : Int)
      (holds : server.workers worker = .taken jobbuf)
      (unlocked : inPass server = true → processReplies server jobbuf junk = false) :
      Stepped cfg server (.process worker junk now)
        { processMessage cfg server jobbuf junk now with
          workers := Function.update server.workers worker (.processed jobbuf) }
  | release (worker jobbuf : Nat) (holds : server.workers worker = .processed jobbuf) :
      Stepped cfg server (.release worker)
        { server with
          workers := Function.update server.workers worker .idle
          rheap := BlockHeap.free server.rheap jobbuf }
  | monitorPop (curTime : Int) (drained : server.lsIdleList = []) :
      Stepped cfg server (.monitorPop curTime) (serverTimerQueuePop cfg server curTime)
  | monitorCheck (now : Int) (tmpmsg : Nat) (rest : List Nat)
      (front : server.lsIdleList = tmpmsg :: rest) :
      Stepped cfg server (.monitorCheck now)
        (procPingTimeOutChecking cfg { server with lsIdleList := rest } tmpmsg
          server.monitorTime now)
  | recycle (currtime : Int) :
      Stepped cfg server (.recycle currtime) (serverRecyConnectionPass cfg server currtime 0)
  | close (c : ConnId) (now : Int) :
      Stepped cfg server (.close c now) (zdClosesocketProc cfg server c now)

theorem element_at_eq {server : Server} {pos pMsgBuf : Nat}
    (found : elementAt server = some (pos, pMsgBuf)) :
    server.sendPc = .pass pos ∧ server.msgSendQueue[pos]? = some pMsgBuf := by
  unfold elementAt at found
  split at found
  case h_1 iterator here =>
    obtain ⟨address, current, same⟩ := Option.map_eq_some_iff.mp found
    cases same
    exact ⟨here, current⟩
  case h_2 => cases found

theorem stepped_of_step {cfg : Config} {server after : Server} {act : Act}
    (taken : step cfg server act = some after) : Stepped cfg server act after := by
  cases act with
  | epollInit ctl now =>
      simp only [step, Option.ite_none_right_eq_some] at taken
      exact Stepped.epollInit ctl now after taken.1 taken.2
  | accept oldc outcomes nonblockOk ctlOk now =>
      simp only [step, Option.ite_none_right_eq_some, Option.some.injEq] at taken
      obtain ⟨⟨listening, possible⟩, rfl⟩ := taken
      exact Stepped.accept oldc outcomes nonblockOk ctlOk now listening possible
  | event c revents recv send ctlOk junk nowMs now =>
      simp only [step, Option.ite_none_right_eq_some, Option.some.injEq] at taken
      obtain ⟨⟨handler, reported, recvPossible, sendPossible⟩, rfl⟩ := taken
      exact Stepped.event c revents recv send ctlOk junk nowMs now handler reported recvPossible
        sendPossible
  | msgSend msg now =>
      simp only [step, Option.ite_none_right_eq_some, Option.some.injEq] at taken
      obtain ⟨unlocked, rfl⟩ := taken
      exact Stepped.msgSend msg now unlocked
  | semWait interrupted =>
      simp only [step, Option.ite_none_right_eq_some, Option.some.injEq] at taken
      obtain ⟨⟨waits, wakes⟩, rfl⟩ := taken
      exact Stepped.semWait interrupted waits wakes
  | beginPass =>
      simp only [step, Option.ite_none_right_eq_some, Option.some.injEq] at taken
      obtain ⟨woken, rfl⟩ := taken
      exact Stepped.beginPass woken
  | element outcome ctlOk =>
      simp only [step] at taken
      split at taken
      · cases taken
      case h_2 pos pMsgBuf found =>
        simp only [Option.ite_none_right_eq_some, Option.some.injEq] at taken
        obtain ⟨possible, rfl⟩ := taken
        obtain ⟨iterator, current⟩ := element_at_eq found
        exact Stepped.element outcome ctlOk pos pMsgBuf iterator current possible
  | endPass =>
      simp only [step, Option.ite_none_right_eq_some, Option.some.injEq] at taken
      obtain ⟨⟨passing, finished⟩, rfl⟩ := taken
      cases iterator : server.sendPc with
      | semWait => simp [inPass, iterator] at passing
      | woken => simp [inPass, iterator] at passing
      | pass pos =>
          rw [elementAt, iterator, Option.map_eq_none_iff] at finished
          exact Stepped.endPass pos iterator finished
  | take worker =>
      simp only [step] at taken
      split at taken
      case h_1 jobbuf rest idle front =>
        cases taken
        exact Stepped.take worker jobbuf rest idle front
      case h_2 => cases taken
  | process worker junk now =>
      simp only [step] at taken
      split at taken
      case h_1 jobbuf holds =>
        simp only [Option.ite_none_left_eq_some, Option.some.injEq] at taken
        obtain ⟨unlocked, rfl⟩ := taken
        apply Stepped.process worker jobbuf junk now holds
        intro passing
        by_contra replies
        exact unlocked ⟨passing, by simpa using replies⟩
      case h_2 => cases taken
  | release worker =>
      simp only [step] at taken
      split at taken
      case h_1 jobbuf holds =>
        cases taken
        exact Stepped.release worker jobbuf holds
      case h_2 => cases taken
  | monitorPop curTime =>
      simp only [step, Option.ite_none_right_eq_some, Option.some.injEq] at taken
      obtain ⟨drained, rfl⟩ := taken
      exact Stepped.monitorPop curTime drained
  | monitorCheck now =>
      simp only [step] at taken
      split at taken
      case h_1 => cases taken
      case h_2 tmpmsg rest front =>
        cases taken
        exact Stepped.monitorCheck now tmpmsg rest front
  | recycle currtime =>
      cases taken
      exact Stepped.recycle currtime
  | close c now =>
      cases taken
      exact Stepped.close c now

/-- A worker process before `ngx_epoll_init`, with its listening sockets. -/
def Fresh (server : Server) : Prop :=
  ∃ listenFds : List Int,
    listenFds.Nodup ∧ (∀ fd ∈ listenFds, 0 ≤ fd) ∧ server = Server.construct listenFds

def Reachable (cfg : Config) (allowed : Server → Act → Prop) : Server → Prop :=
  TransitionSystem.Reachable Fresh (step cfg) allowed

def run (cfg : Config) (allowed : Server → Act → Prop)
    [∀ server act, Decidable (allowed server act)] (acts : List Act) : Option Server :=
  TransitionSystem.exec (step cfg) (fun server act => decide (allowed server act))
    (Server.construct [3]) acts

theorem reachable_of_run {cfg : Config} {allowed : Server → Act → Prop}
    [∀ server act, Decidable (allowed server act)] {acts : List Act} {server : Server}
    (executed : run cfg allowed acts = some server) : Reachable cfg allowed server := by
  refine ⟨Server.construct [3], ⟨[3], by simp, by simp, rfl⟩, ?_⟩
  exact TransitionSystem.steps_of_exec (fun _ _ => of_decide_eq_true) executed

/-- What a run shows of its last state holds in a reachable state. -/
theorem reachable_of_seen {cfg : Config} {allowed : Server → Act → Prop}
    [∀ server act, Decidable (allowed server act)] {acts : List Act} {Value : Type}
    {look : Server → Value} {value : Value}
    (seen : (run cfg allowed acts).map look = some value) :
    ∃ server, Reachable cfg allowed server ∧ look server = value := by
  obtain ⟨server, executed, same⟩ := Option.map_eq_some_iff.mp seen
  exact ⟨server, reachable_of_run executed, same⟩

def sampleConfig : Config where
  workerConnections := 1
  recyConnectionWaitTime := 60
  ifkickTimeCount := 1
  iWaitTime := 20
  ifTimeOutKick := 0
  floodAkEnable := 1
  floodTimeInterval := 100
  floodKickCount := 10

end NgxServer.System
