import NgxServer.Socket

/-!
# Receiving packages

The receiving half of `ngx_c_socket_request.cxx`: one `recv` into the window
`[precvbuf, precvbuf + irecvlen)`, the four receive states, and what happens
when a package header or a whole package is complete.
-/

namespace NgxServer.Request

open NgxServer.Comm NgxServer.State NgxServer.Socket
open BlockHeap (null)

set_option autoImplicit false

/-- What `recv` returns: bytes, 0 at the end of the stream, `EAGAIN`,
`EWOULDBLOCK` or `EINTR`, or any other error. -/
inductive RecvOutcome
  | data (bytes : List Byte)
  | closed
  | again
  | error
  deriving DecidableEq, Repr

def RecvOutcome.possible (fd : Int) (len : Nat) : RecvOutcome → Bool
  | .data bytes => decide (fd ≠ -1 ∧ 1 ≤ bytes.length ∧ bytes.length ≤ len)
  | _ => true

def storeBytes (server : Server) (c : ConnId) (bytes : List Byte) : Server :=
  match (server.conns c).recv.precvbuf with
  | .head offset =>
      server.modConn c fun p =>
        { p with recv.dataHeadInfo := overwrite p.recv.dataHeadInfo offset bytes }
  | .mem base offset =>
      { server with
        rheap := BlockHeap.modify server.rheap base fun msg =>
          { msg with pkg := overwrite msg.pkg (offset - lenMsgHeader) bytes } }

/-- `recvproc`; `none` is its return value -1. On a closed descriptor `recv`
fails with `EBADF`. -/
def recvproc (cfg : Config) (server : Server) (c : ConnId) (outcome : RecvOutcome)
    (now : Int) : Server × Option Nat :=
  if (server.conns c).fd = -1 then (zdClosesocketProc cfg server c now, none)
  else
    match outcome with
    | .data bytes => (storeBytes server c bytes, some bytes.length)
    | .closed => (zdClosesocketProc cfg server c now, none)
    | .again => (server, none)
    | .error => (zdClosesocketProc cfg server c now, none)

def headWindow (p : NgxConnection) : NgxConnection :=
  { p with
    recv :=
      { p.recv with
        curStat := .hdInit
        precvbuf := .head 0
        irecvlen := lenPkgHeader } }

def inMsgRecvQueueAndSignal (server : Server) (buf : Nat) : Server :=
  { server with
    msgRecvQueue := server.msgRecvQueue ++ [buf]
    iRecvMsgQueueCount := server.iRecvMsgQueueCount + 1 }

def ngxWaitRequestHandlerProcPlast (server : Server) (c : ConnId) (isflood : Bool) : Server :=
  let buf := (server.conns c).recv.precvMemPointer
  let handedOver :=
    if isflood = false then inMsgRecvQueueAndSignal server buf
    else { server with rheap := BlockHeap.free server.rheap buf }
  handedOver.modConn c fun p => headWindow { p with recv.precvMemPointer := null }

def floodCheck (cfg : Config) (server : Server) (c : ConnId) (nowMs : Nat) : Server × Bool :=
  if cfg.floodAkEnable = 1 then testFlood cfg server c nowMs else (server, false)

/-- The message that `proc_p1` allocates: the header is stamped and the
package header copied in, the rest is what the allocator left there. -/
def stampedBuffer (server : Server) (c : ConnId) (ePkgLen : Nat) (junk : Nat → Byte) : MsgBuf where
  hdr :=
    { pConn := c
      iCurrsequence := (server.conns c).iCurrsequence
      occ := server.ghost.occ c }
  pkg := overwrite ((List.range ePkgLen).map junk) 0
    ((server.conns c).recv.dataHeadInfo.take lenPkgHeader)

def allocBuffer (server : Server) (c : ConnId) (ePkgLen : Nat) (junk : Nat → Byte) : Server :=
  let overwritten := if (server.conns c).recv.precvMemPointer = null then 0 else 1
  { server with
    rheap := BlockHeap.alloc server.rheap (stampedBuffer server c ePkgLen junk)
    ghost.p1Overwrites := server.ghost.p1Overwrites + overwritten }.modConn c fun p =>
      { p with recv.precvMemPointer := server.rheap.next }

def bodyWindow (ePkgLen : Nat) (p : NgxConnection) : NgxConnection :=
  { p with
    recv :=
      { p.recv with
        curStat := .bdInit
        precvbuf := .mem p.recv.precvMemPointer (lenMsgHeader + lenPkgHeader)
        irecvlen := ePkgLen - lenPkgHeader } }

/-- `ngx_wait_request_handler_proc_p1`; returns the final `isflood`. -/
def ngxWaitRequestHandlerProcP1 (cfg : Config) (server : Server) (c : ConnId)
    (junk : Nat → Byte) (nowMs : Nat) : Server × Bool :=
  let ePkgLen := pkgLen (server.conns c).recv.dataHeadInfo
  if ePkgLen < lenPkgHeader then (server.modConn c headWindow, false)
  else if ePkgLen > pkgMaxLength - 1000 then (server.modConn c headWindow, false)
  else
    let allocated := allocBuffer server c ePkgLen junk
    if ePkgLen = lenPkgHeader then
      let (tested, isflood) := floodCheck cfg allocated c nowMs
      (ngxWaitRequestHandlerProcPlast tested c isflood, isflood)
    else (allocated.modConn c (bodyWindow ePkgLen), false)

def advanceRecv (stat : CurStat) (reco : Nat) (p : NgxConnection) : NgxConnection :=
  { p with
    recv :=
      { p.recv with
        curStat := stat
        precvbuf := p.recv.precvbuf.advance reco
        irecvlen := p.recv.irecvlen - reco } }

def bodyComplete (cfg : Config) (server : Server) (c : ConnId) (nowMs : Nat) : Server × Bool :=
  let (tested, isflood) := floodCheck cfg server c nowMs
  (ngxWaitRequestHandlerProcPlast tested c isflood, isflood)

/-- The branches of `ngx_read_request_handler` on `curStat`, after `reco`
bytes have arrived. -/
def receiveStates (cfg : Config) (server : Server) (c : ConnId) (reco : Nat)
    (junk : Nat → Byte) (nowMs : Nat) : Server × Bool :=
  let recv := (server.conns c).recv
  match recv.curStat with
  | .hdInit =>
      if reco = lenPkgHeader then ngxWaitRequestHandlerProcP1 cfg server c junk nowMs
      else (server.modConn c (advanceRecv .hdRecving reco), false)
  | .hdRecving =>
      if recv.irecvlen = reco then ngxWaitRequestHandlerProcP1 cfg server c junk nowMs
      else (server.modConn c (advanceRecv .hdRecving reco), false)
  | .bdInit =>
      if reco = recv.irecvlen then bodyComplete cfg server c nowMs
      else (server.modConn c (advanceRecv .bdRecving reco), false)
  | .bdRecving =>
      if recv.irecvlen = reco then bodyComplete cfg server c nowMs
      else (server.modConn c (advanceRecv .bdRecving reco), false)

def ngxReadRequestHandler (cfg : Config) (server : Server) (c : ConnId) (outcome : RecvOutcome)
    (junk : Nat → Byte) (nowMs : Nat) (now : Int) : Server :=
  match recvproc cfg server c outcome now with
  | (received, none) => received
  | (received, some reco) =>
      let (handled, isflood) := receiveStates cfg received c reco junk nowMs
      if isflood = true then zdClosesocketProc cfg handled c now else handled

end NgxServer.Request
