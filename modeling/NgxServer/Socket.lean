import NgxServer.ConnPool
import NgxServer.TimerQueue

/-!
# Closing, flood detection, epoll masks and sending

The functions of `ngx_c_socket.cxx` that act on one connection, `sendproc`
and `ngx_write_request_handler` of `ngx_c_socket_request.cxx`, and the send
thread, cut at the points where another thread can come in between: at
`sem_wait`, at the start of a pass and after each element of the queue.
-/

namespace NgxServer.Socket

open NgxServer.Comm NgxServer.State NgxServer.ConnPool NgxServer.TimerQueue
open BlockHeap (null)

set_option autoImplicit false

/-- `ReadConf`, on the defaults of the constructor. `m_iWaitTime` has none: its
default is whatever the member held. -/
def readConf (getIntDefault : String → Int → Int) (iWaitTime : Int) : Config :=
  let maxWaitTime := getIntDefault "Sock_MaxWaitTime" iWaitTime
  { workerConnections := (getIntDefault "worker_connections" 1).toNat
    recyConnectionWaitTime := getIntDefault "Sock_RecyConnectionWaitTime" 60
    ifkickTimeCount := getIntDefault "Sock_WaitTimeEnable" 0
    iWaitTime := if maxWaitTime > 5 then maxWaitTime else 5
    ifTimeOutKick := getIntDefault "Sock_TimeOutKick" 0
    floodAkEnable := getIntDefault "Sock_FloodAttackKickEnable" 0
    floodTimeInterval := (getIntDefault "Sock_FloodTimeInterval" 100 % 2 ^ 32).toNat
    floodKickCount := getIntDefault "Sock_FloodKickCounter" 10 }

theorem read_conf_wait_time (getIntDefault : String → Int → Int) (iWaitTime : Int) :
    5 ≤ (readConf getIntDefault iWaitTime).iWaitTime := by
  dsimp only [readConf]
  split <;> omega

def dropThrowsend (server : Server) (c : ConnId) : Server :=
  if (server.conns c).send.iThrowsendCount > 0 then
    server.modConn c fun p =>
      { p with send.iThrowsendCount := p.send.iThrowsendCount - 1 }
  else server

/-- Ghost: the occupancy of a connection is over. -/
def endOccupancy (server : Server) (c : ConnId) : Server :=
  { server with ghost.occ := Function.update server.ghost.occ c none }

def zdClosesocketProc (cfg : Config) (server : Server) (c : ConnId) (now : Int) : Server :=
  let untimed := if cfg.ifkickTimeCount = 1 then deleteFromTimerQueue server c else server
  let closed := endOccupancy (closeIfOpen untimed c) c
  inRecyConnectQueue (dropThrowsend closed c) c now

def subU64 (left right : Nat) : Nat := (left + 2 ^ 64 - right) % 2 ^ 64

def testFlood (cfg : Config) (server : Server) (c : ConnId) (iCurrTime : Nat) :
    Server × Bool :=
  let p := (server.conns c).security
  let counted :=
    if subU64 iCurrTime p.floodkickLastTime < cfg.floodTimeInterval then p.floodAttackCount + 1
    else 0
  (server.modConn c fun q =>
      { q with
        security :=
          { q.security with floodAttackCount := counted, floodkickLastTime := iCurrTime } },
    decide (counted ≥ cfg.floodKickCount))

def epollIn : BitVec 32 := 0x1
def epollOut : BitVec 32 := 0x4
def epollErr : BitVec 32 := 0x8
def epollHup : BitVec 32 := 0x10
def epollRdhup : BitVec 32 := 0x2000

def hasFlag (mask flags : BitVec 32) : Bool := mask &&& flags != 0

inductive EpollCtl
  | add
  | mod
  | del
  deriving DecidableEq, Repr

/-- `ngx_epoll_oper_event`, where `ctlOk` is the outcome of `epoll_ctl` on an
open descriptor. The new mask is recorded before the call. -/
def ngxEpollOperEvent (server : Server) (fd : Int) (eventtype : EpollCtl) (flag : BitVec 32)
    (bcaction : Nat) (c : ConnId) (ctlOk : Bool) : Server × Int :=
  match eventtype with
  | .del => (server, 1)
  | _ =>
      let old := (server.conns c).events
      let ev :=
        if eventtype = .add then flag
        else if bcaction = 0 then old ||| flag
        else if bcaction = 1 then old &&& ~~~flag
        else flag
      let record := fun p : NgxConnection => { p with events := ev }
      if ctlOk ∧ fd ≠ -1 then
        ({ server with kmask := Function.update server.kmask c (some ev) }.modConn c record, 1)
      else (server.modConn c record, -1)

inductive SendOutcome
  | sent (count : Nat)
  | zero
  | eagain
  | eintr (next : SendOutcome)
  | error
  deriving DecidableEq, Repr

/-- The result of the loop in `sendproc`: the bytes sent, 0, -1 for a full
socket buffer, -2 for any other error. -/
def SendOutcome.result : SendOutcome → Int
  | .sent count => count
  | .zero => 0
  | .eagain => -1
  | .eintr next => next.result
  | .error => -2

/-- `send` takes at least one byte and at most what it is given, or fails. -/
def SendOutcome.possible (len : Nat) : SendOutcome → Bool
  | .sent count => decide (1 ≤ count ∧ count ≤ len)
  | .eintr next => next.possible len
  | _ => true

def sendSource (server : Server) (c : ConnId) : Option MsgBuf :=
  server.sheap.block (server.conns c).send.psendbuf.1

/-- All bytes of `[psendbuf, psendbuf + isendlen)` lie behind the message
header of the live message at `psendMemPointer`, and there is at least one. -/
def sendsFromLive (server : Server) (c : ConnId) : Bool :=
  let send := (server.conns c).send
  match server.sheap.block send.psendMemPointer with
  | none => false
  | some msg =>
      decide (send.psendMemPointer ≠ null ∧ send.psendbuf.1 = send.psendMemPointer ∧
        lenMsgHeader ≤ send.psendbuf.2 ∧ 1 ≤ send.isendlen ∧
        send.psendbuf.2 + send.isendlen = lenMsgHeader + msg.pkg.length)

/-- `sendproc(c, c->psendbuf, c->isendlen)`; on a closed descriptor every
`send` fails. The call is recorded. -/
def sendproc (server : Server) (c : ConnId) (byWriteHandler partlySent : Bool)
    (outcome : SendOutcome) : Server × Int :=
  let p := server.conns c
  let sendsize := if p.fd = -1 then -2 else outcome.result
  let bytes :=
    match sendSource server c with
    | none => []
    | some msg => (msg.pkg.drop (p.send.psendbuf.2 - lenMsgHeader)).take sendsize.toNat
  let call : SendCall :=
    { byWriteHandler := byWriteHandler
      conn := c
      occ := server.ghost.occ c
      source := (sendSource server c).map MsgBuf.hdr
      partlySent := partlySent
      whole := sendsFromLive server c
      sendsize := sendsize
      written := bytes }
  ({ server with ghost.sends := server.ghost.sends ++ [call] }, sendsize)

def advanceSend (count : Int) (p : NgxConnection) : NgxConnection :=
  { p with
    send :=
      { p.send with
        psendbuf := (p.send.psendbuf.1, p.send.psendbuf.2 + count.toNat)
        isendlen := p.send.isendlen - count.toNat } }

def ngxWriteRequestHandler (server : Server) (c : ConnId) (outcome : SendOutcome)
    (ctlOk : Bool) : Server :=
  let isendlen : Int := (server.conns c).send.isendlen
  let (tried, sendsize) := sendproc server c true false outcome
  if sendsize > 0 ∧ sendsize ≠ isendlen then tried.modConn c (advanceSend sendsize)
  else if sendsize = -1 then tried
  else
    let disarmed :=
      if sendsize > 0 ∧ sendsize = isendlen then
        (ngxEpollOperEvent tried (tried.conns c).fd .mod epollOut 1 c ctlOk).1
      else tried
    { disarmed with
      sheap := BlockHeap.free disarmed.sheap (disarmed.conns c).send.psendMemPointer
      semEventSendQueue := disarmed.semEventSendQueue + 1 }.modConn c fun p =>
        { p with
          send :=
            { p.send with
              psendMemPointer := null
              iThrowsendCount := p.send.iThrowsendCount - 1 } }

def discardSendPkg (server : Server) (psendbuf : Nat) : Server :=
  { server with
    iDiscardSendPkgCount := server.iDiscardSendPkgCount + 1
    sheap := BlockHeap.free server.sheap psendbuf }

def pushSendPkg (server : Server) (psendbuf : Nat) (msg : MsgBuf) : Server :=
  { server with
    msgSendQueue := server.msgSendQueue ++ [psendbuf]
    iSendMsgQueueCount := server.iSendMsgQueueCount + 1
    semEventSendQueue := server.semEventSendQueue + 1
    ghost.queued := server.ghost.queued ++ [(psendbuf, msg)] }.modConn msg.hdr.pConn fun p =>
      { p with security.iSendCount := p.security.iSendCount + 1 }

def msgSend (cfg : Config) (server : Server) (psendbuf : Nat) (now : Int) : Server :=
  if server.iSendMsgQueueCount > 50000 then discardSendPkg server psendbuf
  else
    match server.sheap.block psendbuf with
    | none => server
    | some msg =>
        if (server.conns msg.hdr.pConn).security.iSendCount > 400 then
          zdClosesocketProc cfg (discardSendPkg server psendbuf) msg.hdr.pConn now
        else pushSendPkg server psendbuf msg

def allocReply (server : Server) (msg : MsgBuf) : Server :=
  { server with sheap := BlockHeap.alloc server.sheap msg }

def queueReply (cfg : Config) (server : Server) (msg : MsgBuf) (now : Int) : Server :=
  msgSend cfg (allocReply server msg) server.sheap.next now

/-- `sem_wait`; a signal makes it return without taking the semaphore. -/
def sendThreadWake (server : Server) (interrupted : Bool) : Server :=
  { server with
    sendPc := .woken
    semEventSendQueue :=
      if interrupted then server.semEventSendQueue else server.semEventSendQueue - 1 }

/-- The test of `m_iSendMsgQueueCount`, and with it the locking of the queue. -/
def sendThreadBegin (server : Server) : Server :=
  { server with sendPc := if server.iSendMsgQueueCount > 0 then .pass 0 else .semWait }

def eraseElement (server : Server) (pos : Nat) : Server :=
  { server with
    msgSendQueue := server.msgSendQueue.eraseIdx pos
    iSendMsgQueueCount := server.iSendMsgQueueCount - 1 }

/-- Takes the element under the iterator out of the queue and makes it the
packet that the connection is sending. -/
def startPacket (server : Server) (pos pMsgBuf : Nat) (msg : MsgBuf) : Server :=
  (eraseElement server pos).modConn msg.hdr.pConn fun p =>
    { p with
      security.iSendCount := p.security.iSendCount - 1
      send :=
        { p.send with
          psendMemPointer := pMsgBuf
          psendbuf := (pMsgBuf, lenMsgHeader)
          isendlen := pkgLen msg.pkg } }

def dropPacket (server : Server) (c : ConnId) : Server :=
  { server with
    sheap := BlockHeap.free server.sheap (server.conns c).send.psendMemPointer }.modConn c fun p =>
      { p with send := { p.send with psendMemPointer := null, iThrowsendCount := 0 } }

/-- Leaves the rest of the packet to `ngx_write_request_handler`. -/
def awaitWritable (server : Server) (c : ConnId) (ctlOk : Bool) : Server :=
  let counted := server.modConn c fun p =>
    { p with send.iThrowsendCount := p.send.iThrowsendCount + 1 }
  (ngxEpollOperEvent counted (counted.conns c).fd .mod epollOut 0 c ctlOk).1

/-- The loop body for one element whose connection is free to send. -/
def sendElementNow (server : Server) (pos pMsgBuf : Nat) (msg : MsgBuf)
    (outcome : SendOutcome) (ctlOk : Bool) : Server :=
  let c := msg.hdr.pConn
  let partlySent := decide ((server.conns c).send.psendMemPointer ≠ null)
  let started := startPacket server pos pMsgBuf msg
  let isendlen : Int := (started.conns c).send.isendlen
  let (tried, sendsize) := sendproc started c false partlySent outcome
  if sendsize > 0 then
    if sendsize = isendlen then dropPacket tried c
    else awaitWritable (tried.modConn c (advanceSend sendsize)) c ctlOk
  else if sendsize = 0 then dropPacket tried c
  else if sendsize = -1 then awaitWritable tried c ctlOk
  else dropPacket tried c

def sendElement (server : Server) (pos pMsgBuf : Nat) (outcome : SendOutcome)
    (ctlOk : Bool) : Server :=
  match server.sheap.block pMsgBuf with
  | none => server
  | some msg =>
      let p := server.conns msg.hdr.pConn
      if p.iCurrsequence ≠ msg.hdr.iCurrsequence then
        { eraseElement server pos with sheap := BlockHeap.free server.sheap pMsgBuf }
      else if p.send.iThrowsendCount > 0 then { server with sendPc := .pass (pos + 1) }
      else sendElementNow server pos pMsgBuf msg outcome ctlOk

end NgxServer.Socket
