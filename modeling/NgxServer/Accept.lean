import NgxServer.Socket

/-!
# Accepting connections

`ngx_event_accept` of `ngx_c_socket_accept.cxx` with every outcome of its
system calls, and `ngx_epoll_init`, which sets up the pool and registers the
listening sockets.
-/

namespace NgxServer.Accept

open NgxServer.Comm NgxServer.State NgxServer.ConnPool NgxServer.TimerQueue NgxServer.Socket

set_option autoImplicit false

inductive Errno
  | eagain
  | econnaborted
  | emfile
  | enfile
  | enosys
  | other
  deriving DecidableEq, Repr

inductive AcceptOutcome
  | ok (s : Int)
  | err (code : Errno)
  deriving DecidableEq, Repr

def openOccupancy (server : Server) (c : ConnId) : Server :=
  { server with
    ghost.occ := Function.update server.ghost.occ c (some server.ghost.nextOcc)
    ghost.nextOcc := server.ghost.nextOcc + 1
    ghost.stampOf := Function.update server.ghost.stampOf server.ghost.nextOcc
      (c, (server.conns c).iCurrsequence) }

/-- The part of `ngx_event_accept` behind `ngx_get_connection`. -/
def registerConnection (cfg : Config) (server : Server) (newc : ConnId) (s : Int)
    (nonblockOk ctlOk : Bool) (now : Int) : Server :=
  if !server.useAccept4 && !nonblockOk then ngxCloseConnection server newc
  else
    let handled := server.modConn newc fun p => { p with rhandler := .ngxReadRequestHandler }
    let (registered, result) :=
      ngxEpollOperEvent handled s .add (epollIn ||| epollRdhup) 0 newc ctlOk
    if result = -1 then ngxCloseConnection registered newc
    else
      let timed :=
        if cfg.ifkickTimeCount = 1 then addToTimerQueue cfg registered newc now else registered
      { timed with onlineUserCount := timed.onlineUserCount + 1 }

/-- The part of `ngx_event_accept` behind a successful `accept`. -/
def acceptSocket (cfg : Config) (server : Server) (s : Int) (nonblockOk ctlOk : Bool)
    (now : Int) : Server :=
  if server.onlineUserCount ≥ cfg.workerConnections then server.closeFd s
  else if server.connectionList.length > cfg.workerConnections * 5 ∧
      server.freeconnectionList.length < cfg.workerConnections then server.closeFd s
  else
    let (newc, issued) := ngxGetConnection server s now
    registerConnection cfg (openOccupancy issued newc) newc s nonblockOk ctlOk now

def Refused (cfg : Config) (server : Server) : Prop :=
  server.onlineUserCount ≥ cfg.workerConnections ∨
    server.connectionList.length > cfg.workerConnections * 5 ∧
      server.freeconnectionList.length < cfg.workerConnections

theorem accept_socket_refused {cfg : Config} {server : Server} (refused : Refused cfg server)
    (s : Int) (nonblockOk ctlOk : Bool) (now : Int) :
    acceptSocket cfg server s nonblockOk ctlOk now = server.closeFd s := by
  unfold acceptSocket
  split_ifs with full crowded
  · rfl
  · rfl
  · exact absurd refused (not_or.mpr ⟨full, crowded⟩)

theorem accept_socket_issues {cfg : Config} {server : Server} (accepted : ¬ Refused cfg server)
    (s : Int) (nonblockOk ctlOk : Bool) (now : Int) :
    acceptSocket cfg server s nonblockOk ctlOk now =
      registerConnection cfg
        (openOccupancy (ngxGetConnection server s now).2 (ngxGetConnection server s now).1)
        (ngxGetConnection server s now).1 s nonblockOk ctlOk now := by
  obtain ⟨room, spare⟩ := not_or.mp accepted
  rw [acceptSocket, if_neg room, if_neg spare]

def openSocket (server : Server) (s : Int) : Server :=
  { server with
    openFds := s :: server.openFds
    ghost.accepted := server.ghost.accepted ++ [s] }

/-- `ngx_event_accept`. The list holds the results of the calls that the loop
makes: a missing `accept4` makes it go round once more with `accept`. -/
def ngxEventAccept (cfg : Config) (server : Server) (nonblockOk ctlOk : Bool) (now : Int) :
    List AcceptOutcome → Server
  | [] => server
  | .err code :: rest =>
      if code = .eagain then server
      else if server.useAccept4 ∧ code = .enosys then
        ngxEventAccept cfg { server with useAccept4 := false } nonblockOk ctlOk now rest
      else server
  | .ok s :: _ =>
      acceptSocket cfg (openSocket server s) s nonblockOk ctlOk now

def AcceptOutcome.possible (server : Server) : AcceptOutcome → Bool
  | .ok s => decide (0 ≤ s ∧ s ∉ server.openFds)
  | .err _ => true

def markListening (server : Server) (c : ConnId) : Server :=
  { server with listenConns := server.listenConns ++ [c] }.modConn c fun p =>
    { p with rhandler := .ngxEventAccept }

/-- The loop body of `ngx_epoll_init` for one listening socket; `none` is
`exit(2)`. -/
def listenOn (ctl : Int → Bool) (now : Int) (server : Server) (fd : Int) : Option Server :=
  let (c, issued) := ngxGetConnection server fd now
  let (registered, result) :=
    ngxEpollOperEvent (markListening issued c) fd .add (epollIn ||| epollRdhup) 0 c (ctl fd)
  if result = -1 then none else some registered

def ngxEpollInit (cfg : Config) (server : Server) (ctl : Int → Bool) (now : Int) :
    Option Server :=
  server.listenFds.foldlM (listenOn ctl now) (initconnection cfg now server)

end NgxServer.Accept
