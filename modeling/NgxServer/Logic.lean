import NgxServer.Crc32
import NgxServer.Socket

/-!
# Dispatch and replies

`ngx_c_slogic.cxx`: the checks of `threadRecvProcFunc` in their order, the
handler table, the replies of the handlers, and the heartbeat check.
Conversions that a handler makes in place on the request it was given are
left out: that buffer is freed as soon as the handler returns.
-/

namespace NgxServer.Logic

open NgxServer.Comm NgxServer.State NgxServer.Socket NgxServer.Crc32

set_option autoImplicit false

inductive Handler
  | handlePing
  | handleRegister
  | handleLogIn
  deriving DecidableEq, Repr

def statusHandler : List (Option Handler) :=
  [some .handlePing, none, none, none, none, some .handleRegister, some .handleLogIn]

/-- The arguments of a handler call; `pPkgBody` is `none` for `NULL`. -/
structure Invocation where
  handler : Handler
  pMsgHeader : MsgHeader
  pPkgBody : Option (List Byte)
  iBodyLength : Nat
  deriving DecidableEq, Repr

inductive Drop
  | emptyCrc
  | crcMismatch (calccrc crc : BitVec 32)
  | stale
  | badMsgCode (imsgCode : Nat)
  | noHandler (imsgCode : Nat)
  deriving DecidableEq, Repr

def requestBody (pkg : List Byte) : List Byte :=
  (pkgBody pkg).take (pkgLen pkg - lenPkgHeader)

/-- The first part of `threadRecvProcFunc`: the checksum, and the body that the
handler gets. -/
def checkCrc (pkg : List Byte) : Except Drop (Option (List Byte)) :=
  if lenPkgHeader = pkgLen pkg then
    if crc32 pkg ≠ 0 then .error .emptyCrc else .ok none
  else if getCrc (requestBody pkg) ≠ crc32 pkg then
    .error (.crcMismatch (getCrc (requestBody pkg)) (crc32 pkg))
  else .ok (some (requestBody pkg))

/-- The second part: the connection must still be the one that the message came
from, and the message code must have a handler. -/
def findHandler (iCurrsequence : Nat) (msg : MsgBuf) : Except Drop Handler :=
  let imsgCode := msgCode msg.pkg
  if iCurrsequence ≠ msg.hdr.iCurrsequence then .error .stale
  else if imsgCode ≥ statusHandler.length then .error (.badMsgCode imsgCode)
  else
    match statusHandler[imsgCode]?.join with
    | none => .error (.noHandler imsgCode)
    | some handler => .ok handler

/-- `threadRecvProcFunc` up to the handler call, where `iCurrsequence` is that
of the connection named in the message. -/
def threadRecvProcFunc (iCurrsequence : Nat) (msg : MsgBuf) : Except Drop Invocation := do
  let pPkgBody ← checkCrc msg.pkg
  let handler ← findHandler iCurrsequence msg
  pure
    { handler := handler
      pMsgHeader := msg.hdr
      pPkgBody := pPkgBody
      iBodyLength := pkgLen msg.pkg - lenPkgHeader }

theorem check_crc_ok {pkg : List Byte} {body : Option (List Byte)} :
    checkCrc pkg = .ok body ↔
      pkgLen pkg = lenPkgHeader ∧ crc32 pkg = 0 ∧ body = none ∨
        pkgLen pkg ≠ lenPkgHeader ∧ getCrc (requestBody pkg) = crc32 pkg ∧
          body = some (requestBody pkg) := by
  unfold checkCrc
  split_ifs with empty zero same
  · have nonzero : ¬ crc32 pkg = 0 := zero
    simp only [← empty, nonzero, false_and, and_false, ne_eq, not_true_eq_false, or_self]
  · simp [empty.symm, not_not.mp zero, eq_comm]
  · simp [Ne.symm empty, same]
  · simp [Ne.symm empty, not_not.mp same, eq_comm]

theorem find_handler_ok {iCurrsequence : Nat} {msg : MsgBuf} {handler : Handler} :
    findHandler iCurrsequence msg = .ok handler ↔
      iCurrsequence = msg.hdr.iCurrsequence ∧
        statusHandler[msgCode msg.pkg]?.join = some handler := by
  unfold findHandler
  dsimp only
  split_ifs with stale large
  · simp [stale]
  · simp [large]
  · rw [not_not.mp stale]
    split
    case h_1 missing => simp [missing]
    case h_2 found known => simp [known]

theorem thread_recv_proc_func_ok {iCurrsequence : Nat} {msg : MsgBuf} {call : Invocation} :
    threadRecvProcFunc iCurrsequence msg = .ok call ↔
      checkCrc msg.pkg = .ok call.pPkgBody ∧
        findHandler iCurrsequence msg = .ok call.handler ∧
        call.pMsgHeader = msg.hdr ∧ call.iBodyLength = pkgLen msg.pkg - lenPkgHeader := by
  unfold threadRecvProcFunc
  cases checked : checkCrc msg.pkg with
  | error why => simp [bind, Except.bind]
  | ok body =>
      cases found : findHandler iCurrsequence msg with
      | error why => simp [bind, Except.bind]
      | ok handler =>
          simp only [bind, Except.bind, pure, Except.pure, Except.ok.injEq]
          constructor
          · rintro rfl
            exact ⟨rfl, rfl, rfl, rfl⟩
          · rintro ⟨rfl, rfl, header, length⟩
            rw [← header, ← length]

def sendNoBodyPkgToClient (pMsgHeader : MsgHeader) (iMsgCode : Nat) : MsgBuf where
  hdr := pMsgHeader
  pkg := encodeHeader lenPkgHeader iMsgCode 0

/-- The message that `_HandleRegister` and `_HandleLogIn` queue. The body is
never written: it is what the allocator left in the new buffer. -/
def bodyReply (pMsgHeader : MsgHeader) (iMsgCode iSendLen : Nat) (junk : Nat → Byte) : MsgBuf where
  hdr := pMsgHeader
  pkg :=
    let body := (List.range iSendLen).map junk
    encodeHeader (lenPkgHeader + iSendLen) iMsgCode (getCrc body) ++ body

def bodyHandler (size code : Nat) (call : Invocation) (junk : Nat → Byte) : Option MsgBuf :=
  if call.pPkgBody = none then none
  else if size ≠ call.iBodyLength then none
  else some (bodyReply call.pMsgHeader code size junk)

def handleRegister (call : Invocation) (junk : Nat → Byte) : Option MsgBuf :=
  bodyHandler sizeofRegister cmdRegister call junk

def handleLogIn (call : Invocation) (junk : Nat → Byte) : Option MsgBuf :=
  bodyHandler sizeofLogin cmdLogin call junk

def handlePing (call : Invocation) : Option MsgBuf :=
  if call.iBodyLength ≠ 0 then none
  else some (sendNoBodyPkgToClient call.pMsgHeader cmdPing)

def reply (call : Invocation) (junk : Nat → Byte) : Option MsgBuf :=
  match call.handler with
  | .handlePing => handlePing call
  | .handleRegister => handleRegister call junk
  | .handleLogIn => handleLogIn call junk

/-- A reply goes to the connection that the request came from. -/
theorem reply_header {call : Invocation} {junk : Nat → Byte} {msg : MsgBuf}
    (replies : reply call junk = some msg) : msg.hdr = call.pMsgHeader := by
  unfold reply handlePing handleRegister handleLogIn bodyHandler at replies
  split at replies
  case h_1 =>
    split at replies <;> cases replies
    rfl
  case h_2 =>
    split_ifs at replies
    cases replies
    rfl
  case h_3 =>
    split_ifs at replies
    cases replies
    rfl

theorem sized_encode (hdr : MsgHeader) (code : Nat) (crc : BitVec 32) (body : List Byte)
    (bound : lenPkgHeader + body.length < 65536) :
    Sized { hdr := hdr, pkg := encodeHeader (lenPkgHeader + body.length) code crc ++ body } := by
  constructor
  · rw [pkg_len_encode _ _ _ _ bound, List.length_append, encode_header_length]
  · rw [List.length_append, encode_header_length]
    omega

theorem body_reply_sized (pMsgHeader : MsgHeader) (iMsgCode iSendLen : Nat) (junk : Nat → Byte)
    (bound : lenPkgHeader + iSendLen < 65536) :
    Sized (bodyReply pMsgHeader iMsgCode iSendLen junk) := by
  have size : ((List.range iSendLen).map junk).length = iSendLen := by simp
  have sized := sized_encode pMsgHeader iMsgCode (getCrc ((List.range iSendLen).map junk))
    ((List.range iSendLen).map junk) (by rwa [size])
  rwa [size] at sized

theorem reply_sized {call : Invocation} {junk : Nat → Byte} {msg : MsgBuf}
    (replies : reply call junk = some msg) : Sized msg := by
  unfold reply handlePing handleRegister handleLogIn bodyHandler at replies
  split at replies
  case h_1 =>
    split at replies <;> cases replies
    exact sized_encode call.pMsgHeader cmdPing 0 [] (by decide)
  case h_2 =>
    split_ifs at replies
    cases replies
    exact body_reply_sized _ _ _ _ (by decide)
  case h_3 =>
    split_ifs at replies
    cases replies
    exact body_reply_sized _ _ _ _ (by decide)

/-- A handler call: a ping is noted in `lastPingTime`, and the reply goes to
`msgSend`. -/
def runHandler (cfg : Config) (server : Server) (call : Invocation) (junk : Nat → Byte)
    (now : Int) : Server :=
  match reply call junk with
  | none => server
  | some msg =>
      let noted :=
        match call.handler with
        | .handlePing =>
            server.modConn call.pMsgHeader.pConn fun p => { p with lastPingTime := now }
        | _ => server
      queueReply cfg noted msg now

def processMessage (cfg : Config) (server : Server) (jobbuf : Nat) (junk : Nat → Byte)
    (now : Int) : Server :=
  match server.rheap.block jobbuf with
  | none => server
  | some msg =>
      match threadRecvProcFunc (server.conns msg.hdr.pConn).iCurrsequence msg with
      | .error _ => server
      | .ok call =>
          runHandler cfg
            { server with
              ghost.dispatches := server.ghost.dispatches ++
                [(msg.hdr, server.ghost.occ msg.hdr.pConn)] } call junk now

def processReplies (server : Server) (jobbuf : Nat) (junk : Nat → Byte) : Bool :=
  match server.rheap.block jobbuf with
  | none => false
  | some msg =>
      match threadRecvProcFunc (server.conns msg.hdr.pConn).iCurrsequence msg with
      | .error _ => false
      | .ok call => (reply call junk).isSome

/-- Whether `procPingTimeOutChecking` closes a connection that is not stale. -/
def pingOverdue (cfg : Config) (p : NgxConnection) (curTime : Int) : Bool :=
  decide (cfg.ifTimeOutKick = 1) ||
    decide (curTime - p.lastPingTime > cfg.iWaitTime * 3 + 10)

def logKick (server : Server) (record : MsgHeader) : Server :=
  { server with
    ghost.pingKicks := server.ghost.pingKicks ++ [(record, server.ghost.occ record.pConn)] }

def kickOverdue (cfg : Config) (server : Server) (record : MsgHeader) (curTime now : Int) :
    Server :=
  if record.iCurrsequence = (server.conns record.pConn).iCurrsequence then
    if pingOverdue cfg (server.conns record.pConn) curTime then
      zdClosesocketProc cfg (logKick server record) record.pConn now
    else server
  else server

def freeRecord (server : Server) (tmpmsg : Nat) : Server :=
  { server with theap := BlockHeap.free server.theap tmpmsg }

def procPingTimeOutChecking (cfg : Config) (server : Server) (tmpmsg : Nat) (curTime now : Int) :
    Server :=
  match server.theap.block tmpmsg with
  | none => server
  | some record => freeRecord (kickOverdue cfg server record curTime now) tmpmsg

end NgxServer.Logic
