import NgxServer.Comm
import NgxServer.Lib.Heap

/-!
# The state of a worker process

`ngx_connection_s`, the members of `CSocekt` and `CThreadPool` that its
network code works on, and the kernel objects behind them. A connection's
members are grouped as the comments of `ngx_c_socket.h` group them. Buffers
live in one heap for each allocation site, so a pointer's type says what it
points to; `null` is the null pointer. What only the proofs observe is
collected in `Ghost`.
-/

namespace NgxServer.State

open NgxServer.Comm
open BlockHeap (Heap null)

set_option autoImplicit false

inductive CurStat
  | hdInit
  | hdRecving
  | bdInit
  | bdRecving
  deriving DecidableEq, Repr

/-- Where `precvbuf` can point: into `dataHeadInfo`, or into an allocated
message at an offset that counts the message header. -/
inductive RecvPtr
  | head (offset : Nat)
  | mem (base offset : Nat)
  deriving DecidableEq, Repr

def RecvPtr.advance (count : Nat) : RecvPtr → RecvPtr
  | .head offset => .head (offset + count)
  | .mem base offset => .mem base (offset + count)

structure RecvPart where
  curStat : CurStat
  dataHeadInfo : List Byte
  precvbuf : RecvPtr
  irecvlen : Nat
  precvMemPointer : Nat
  deriving DecidableEq, Repr

/-- `psendbuf` is an allocated message and an offset that counts the message
header. -/
structure SendPart where
  iThrowsendCount : Int
  psendMemPointer : Nat
  psendbuf : Nat × Nat
  isendlen : Nat
  deriving DecidableEq, Repr

structure SecurityPart where
  floodkickLastTime : Nat
  floodAttackCount : Int
  iSendCount : Int
  deriving DecidableEq, Repr

inductive ReadHandler
  | unset
  | ngxEventAccept
  | ngxReadRequestHandler
  deriving DecidableEq, Repr

/-- `ngx_connection_s`. The counter `iCurrsequence` is a `uint64_t`; a natural
number is exact as long as it is incremented fewer than 2^64 times. -/
structure NgxConnection where
  fd : Int
  iCurrsequence : Nat
  rhandler : ReadHandler
  events : BitVec 32
  recv : RecvPart
  send : SendPart
  inRecyTime : Int
  lastPingTime : Int
  security : SecurityPart
  deriving DecidableEq, Repr

def NgxConnection.construct : NgxConnection where
  fd := 0
  iCurrsequence := 0
  rhandler := .unset
  events := 0
  recv :=
    { curStat := .hdInit
      dataHeadInfo := List.replicate dataBufsize 0
      precvbuf := .mem null 0
      irecvlen := 0
      precvMemPointer := null }
  send := { iThrowsendCount := 0, psendMemPointer := null, psendbuf := (null, 0), isendlen := 0 }
  inRecyTime := 0
  lastPingTime := 0
  security := { floodkickLastTime := 0, floodAttackCount := 0, iSendCount := 0 }

structure Config where
  workerConnections : Nat
  recyConnectionWaitTime : Int
  ifkickTimeCount : Int
  iWaitTime : Int
  ifTimeOutKick : Int
  floodAkEnable : Int
  floodTimeInterval : Nat
  floodKickCount : Int
  deriving DecidableEq, Repr

/-- Where the send thread is: at `sem_wait`, past it, or in a pass over the
send queue with its iterator at an index. -/
inductive SendPc
  | semWait
  | woken
  | pass (pos : Nat)
  deriving DecidableEq, Repr

/-- A pool worker: without a message, holding one that it has still to
process, or holding one that it has still to free. -/
inductive Worker
  | idle
  | taken (jobbuf : Nat)
  | processed (jobbuf : Nat)
  deriving DecidableEq, Repr

/-- One call of `sendproc`. `source` is the header of the live message that
the bytes come from, `whole` says that all of `[psendbuf, psendbuf + isendlen)`
lies in the message at `psendMemPointer`, `written` are the bytes of that
message among the `sendsize` that were sent. -/
structure SendCall where
  byWriteHandler : Bool
  conn : ConnId
  occ : Option OccId
  source : Option MsgHeader
  partlySent : Bool
  whole : Bool
  sendsize : Int
  written : List Byte
  deriving DecidableEq, Repr

/-- What the proofs observe of a run. No modelled function reads it. -/
structure Ghost where
  /-- the occupancy that a connection object serves -/
  occ : ConnId → Option OccId
  nextOcc : OccId
  /-- connection and sequence number at the start of an occupancy -/
  stampOf : OccId → ConnId × Nat
  /-- every message that `msgSend` put into the send queue -/
  queued : List (Nat × MsgBuf)
  sends : List SendCall
  /-- handler calls: the header of the request, and who owns its connection -/
  dispatches : List (MsgHeader × Option OccId)
  /-- heartbeat kicks: the timer record, and who owns its connection -/
  pingKicks : List (MsgHeader × Option OccId)
  /-- allocations of `proc_p1` over a non-null `precvMemPointer` -/
  p1Overwrites : Nat
  /-- every descriptor that `accept` returned -/
  accepted : List Int
  /-- every call of `close` -/
  closed : List Int

structure Server where
  conns : ConnId → NgxConnection
  /-- connection objects allocated so far -/
  connObjects : Nat
  connectionList : List ConnId
  freeconnectionList : List ConnId
  recyconnectionList : List ConnId
  totalConnectionN : Int
  freeConnectionN : Int
  totolRecyconnectionN : Int
  onlineUserCount : Int
  listenFds : List Int
  listenConns : List ConnId
  useAccept4 : Bool
  /-- kernel: open descriptors -/
  openFds : List Int
  /-- kernel: the epoll mask of a connection's descriptor, if registered -/
  kmask : ConnId → Option (BitVec 32)
  msgSendQueue : List Nat
  iSendMsgQueueCount : Int
  semEventSendQueue : Nat
  iDiscardSendPkgCount : Int
  sendPc : SendPc
  msgRecvQueue : List Nat
  iRecvMsgQueueCount : Int
  workers : Nat → Worker
  timerQueuemap : List (Int × Nat)
  curSize : Nat
  timerValue : Int
  lsIdleList : List Nat
  monitorTime : Int
  rheap : Heap MsgBuf
  sheap : Heap MsgBuf
  theap : Heap MsgHeader
  ghost : Ghost

def Ghost.start : Ghost where
  occ := fun _ => none
  nextOcc := 0
  stampOf := fun _ => (0, 0)
  queued := []
  sends := []
  dispatches := []
  pingKicks := []
  p1Overwrites := 0
  accepted := []
  closed := []

def Server.construct (listenFds : List Int) : Server where
  conns := fun _ => NgxConnection.construct
  connObjects := 0
  connectionList := []
  freeconnectionList := []
  recyconnectionList := []
  totalConnectionN := 0
  freeConnectionN := 0
  totolRecyconnectionN := 0
  onlineUserCount := 0
  listenFds := listenFds
  listenConns := []
  useAccept4 := true
  openFds := listenFds
  kmask := fun _ => none
  msgSendQueue := []
  iSendMsgQueueCount := 0
  semEventSendQueue := 0
  iDiscardSendPkgCount := 0
  sendPc := .semWait
  msgRecvQueue := []
  iRecvMsgQueueCount := 0
  workers := fun _ => .idle
  timerQueuemap := []
  curSize := 0
  timerValue := 0
  lsIdleList := []
  monitorTime := 0
  rheap := BlockHeap.empty
  sheap := BlockHeap.empty
  theap := BlockHeap.empty
  ghost := Ghost.start

def Server.modConn (server : Server) (c : ConnId) (change : NgxConnection → NgxConnection) :
    Server :=
  { server with conns := Function.update server.conns c (change (server.conns c)) }

theorem mod_conn_conns (server : Server) (c other : ConnId)
    (change : NgxConnection → NgxConnection) :
    (server.modConn c change).conns other =
      if other = c then change (server.conns c) else server.conns other := by
  simp [Server.modConn, Function.update_apply]

@[simp] theorem mod_conn_conns_self (server : Server) (c : ConnId)
    (change : NgxConnection → NgxConnection) :
    (server.modConn c change).conns c = change (server.conns c) := by
  simp [mod_conn_conns]

/-- A member that a change leaves alone has its old value in every object. -/
theorem mod_conn_keeps {Value : Type} (view : NgxConnection → Value) (server : Server)
    (c other : ConnId) (change : NgxConnection → NgxConnection)
    (kept : view (change (server.conns c)) = view (server.conns c)) :
    view ((server.modConn c change).conns other) = view (server.conns other) := by
  rw [mod_conn_conns]
  by_cases same : other = c
  · simp [same, kept]
  · simp [same]

def Server.closeFd (server : Server) (fd : Int) : Server :=
  { server with
    openFds := server.openFds.erase fd
    ghost.closed := server.ghost.closed ++ [fd] }

theorem live_elsewhere {c d : ConnId} {occ : ConnId → Option OccId}
    (live : Function.update occ c none d ≠ none) : d ≠ c ∧ occ d ≠ none := by
  have other : d ≠ c := by
    rintro rfl
    exact live (Function.update_self _ _ _)
  rw [Function.update_of_ne other] at live
  exact ⟨other, live⟩

theorem serves_elsewhere {c d : ConnId} {o : OccId} {occ : ConnId → Option OccId}
    (serves : Function.update occ c none d = some o) : d ≠ c ∧ occ d = some o := by
  obtain ⟨other, -⟩ := live_elsewhere (show Function.update occ c none d ≠ none by simp [serves])
  rw [Function.update_of_ne other] at serves
  exact ⟨other, serves⟩

end NgxServer.State
