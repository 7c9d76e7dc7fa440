import NgxServer.State

/-!
# The connection pool

`ngx_c_socket_conn.cxx`: issuing a connection object, returning it to the
free list at once or through the recycle list, and the pass of the recycle
thread.
-/

namespace NgxServer.ConnPool

open NgxServer.Comm NgxServer.State
open BlockHeap (null)

set_option autoImplicit false

/-- `ngx_connection_s::GetOneToUse`. It leaves `psendbuf`, `isendlen` and
`inRecyTime` as they were. -/
def getOneToUse (now : Int) (p : NgxConnection) : NgxConnection :=
  { p with
    iCurrsequence := p.iCurrsequence + 1
    fd := -1
    recv :=
      { p.recv with
        curStat := .hdInit
        precvbuf := .head 0
        irecvlen := lenPkgHeader
        precvMemPointer := null }
    send := { p.send with iThrowsendCount := 0, psendMemPointer := null }
    events := 0
    lastPingTime := now
    security := { floodkickLastTime := 0, floodAttackCount := 0, iSendCount := 0 } }

def putOneToFree (server : Server) (c : ConnId) : Server :=
  let p := server.conns c
  { server.modConn c fun q =>
      { q with
        iCurrsequence := q.iCurrsequence + 1
        recv.precvMemPointer := null
        send := { q.send with psendMemPointer := null, iThrowsendCount := 0 } } with
    rheap := BlockHeap.free server.rheap p.recv.precvMemPointer
    sheap := BlockHeap.free server.sheap p.send.psendMemPointer
    ghost.occ := Function.update server.ghost.occ c none }

def addFreeConnection (now : Int) (server : Server) : Server :=
  let c := server.connObjects
  { server.modConn c fun _ => getOneToUse now NgxConnection.construct with
    connObjects := c + 1
    connectionList := server.connectionList ++ [c]
    freeconnectionList := server.freeconnectionList ++ [c] }

def initconnection (cfg : Config) (now : Int) (server : Server) : Server :=
  let filled := Nat.iterate (addFreeConnection now) cfg.workerConnections server
  { filled with
    freeConnectionN := filled.connectionList.length
    totalConnectionN := filled.connectionList.length }

def ngxGetConnection (server : Server) (isock now : Int) : ConnId × Server :=
  match server.freeconnectionList with
  | c :: rest =>
      (c, { server.modConn c fun p => { getOneToUse now p with fd := isock } with
        freeconnectionList := rest
        freeConnectionN := server.freeConnectionN - 1 })
  | [] =>
      let c := server.connObjects
      (c, { server.modConn c fun _ =>
            { getOneToUse now NgxConnection.construct with fd := isock } with
        connObjects := c + 1
        connectionList := server.connectionList ++ [c]
        totalConnectionN := server.totalConnectionN + 1 })

def ngxFreeConnection (server : Server) (c : ConnId) : Server :=
  { putOneToFree server c with
    freeconnectionList := server.freeconnectionList ++ [c]
    freeConnectionN := server.freeConnectionN + 1 }

def inRecyConnectQueue (server : Server) (c : ConnId) (now : Int) : Server :=
  if c ∈ server.recyconnectionList then server
  else
    { server.modConn c fun p =>
        { p with inRecyTime := now, iCurrsequence := p.iCurrsequence + 1 } with
      recyconnectionList := server.recyconnectionList ++ [c]
      totolRecyconnectionN := server.totolRecyconnectionN + 1
      onlineUserCount := server.onlineUserCount - 1 }

/-- `if (p_Conn->fd != -1) { close(p_Conn->fd); p_Conn->fd = -1; }`. Closing a
descriptor removes it from epoll. -/
def closeIfOpen (server : Server) (c : ConnId) : Server :=
  if (server.conns c).fd ≠ -1 then
    { (server.closeFd (server.conns c).fd).modConn c fun p => { p with fd := -1 } with
      kmask := Function.update server.kmask c none }
  else server

/-- `ngx_close_connection`, for a socket that fails right after `accept`. -/
def ngxCloseConnection (server : Server) (c : ConnId) : Server :=
  closeIfOpen (ngxFreeConnection server c) c

/-- The test in `ServerRecyConnectionThread` that makes the loop release a
connection instead of skipping it. -/
def recyDue (cfg : Config) (server : Server) (currtime gStopEvent : Int) (c : ConnId) : Bool :=
  !(decide ((server.conns c).inRecyTime + cfg.recyConnectionWaitTime > currtime) &&
    decide (gStopEvent = 0))

def releaseConnection (server : Server) (c : ConnId) : Server :=
  ngxFreeConnection
    { server with
      totolRecyconnectionN := server.totolRecyconnectionN - 1
      recyconnectionList := server.recyconnectionList.erase c } c

/-- The loop at `lblRRTD`: finds the first connection that is due, releases it
and starts over. Each round shortens the list, so its length bounds the
number of rounds. -/
def lblRRTD (cfg : Config) (currtime gStopEvent : Int) : Nat → Server → Server
  | 0, server => server
  | rounds + 1, server =>
      match server.recyconnectionList.find? (recyDue cfg server currtime gStopEvent) with
      | none => server
      | some c => lblRRTD cfg currtime gStopEvent rounds (releaseConnection server c)

/-- One wake-up of `ServerRecyConnectionThread`, up to its final test of
`g_stopEvent`. -/
def serverRecyConnectionPass (cfg : Config) (server : Server) (currtime gStopEvent : Int) :
    Server :=
  if server.totolRecyconnectionN > 0 then
    lblRRTD cfg currtime gStopEvent server.recyconnectionList.length server
  else server

end NgxServer.ConnPool
