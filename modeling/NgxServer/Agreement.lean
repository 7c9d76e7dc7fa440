import NgxServer.BufferSizes

/-!
# Client and server agree on the package format

The client encodes, the server decodes, in different programs. Each package of
the client is accepted and gets to its handler whole. In a run of the server,
whatever gets to a handler is a package that the client could have built, and
so is everything that the server queues itself.
-/

namespace NgxServer.Agreement

open NgxServer.Comm NgxServer.State NgxServer.Crc32 NgxServer.Socket NgxServer.Request
open NgxServer.Logic NgxServer.System NgxServer.Occupancy NgxServer.Reassembly
open NgxServer.ByteStream NgxServer.Codec NgxServer.BufferSizes

set_option autoImplicit false

/-- The server takes the client's package for `code` and `body` apart again. -/
structure Understood (code : Nat) (handler : Handler) (body : List Byte) : Prop where
  /-- its header passes the check of the length -/
  accepted : ∀ cfg server c junk nowMs,
    (server.conns c).recv.dataHeadInfo.take lenPkgHeader =
        (funcsendrecvData code body).take lenPkgHeader →
      ngxWaitRequestHandlerProcP1 cfg server c junk nowMs =
        acceptHeader cfg server c junk nowMs
  /-- the reference parser emits it as it is -/
  whole : emitted (funcsendrecvData code body) = [funcsendrecvData code body]
  /-- as long as the client is connected, its handler gets the body -/
  dispatched : ∀ hdr : MsgHeader,
    threadRecvProcFunc hdr.iCurrsequence { hdr := hdr, pkg := funcsendrecvData code body } =
      .ok
        { handler := handler
          pMsgHeader := hdr
          pPkgBody := handlerBody body
          iBodyLength := body.length }

def Encoded (msg : MsgBuf) (call : Invocation) : Prop :=
  ∃ code body, statusHandler[code]?.join = some call.handler ∧ body.length ≤ 28992 ∧
    msg.pkg = funcsendrecvData code body ∧ call.pMsgHeader = msg.hdr ∧
    call.pPkgBody = handlerBody body ∧ call.iBodyLength = body.length

/-- A package that the server queues has the client's form and its real length. -/
def Queued (msg : MsgBuf) (code : Nat) : Prop :=
  ∃ body, msg.pkg = funcsendrecvData code body ∧ pkgLen msg.pkg = msg.pkg.length

theorem header_accepted {code : Nat} {body : List Byte} (size : body.length ≤ 28992)
    {server : Server} {c : ConnId}
    (received : (server.conns c).recv.dataHeadInfo.take lenPkgHeader =
      (funcsendrecvData code body).take lenPkgHeader) (cfg : Config) (junk : Nat → Byte)
    (nowMs : Nat) :
    ngxWaitRequestHandlerProcP1 cfg server c junk nowMs = acceptHeader cfg server c junk nowMs := by
  have front : ∀ pkg, pkgLen (pkg.take lenPkgHeader) = pkgLen pkg :=
    fun pkg => pkg_len_take (by decide)
  have announced : pkgLen (server.conns c).recv.dataHeadInfo = lenPkgHeader + body.length := by
    rw [← front, received, front, encoded_pkg_len code size]
  apply proc_p1_accepts
  · rw [announced]
    exact Nat.le_add_right _ _
  · rw [announced]
    simp only [lenPkgHeader, pkgMaxLength]
    omega

theorem encoded_emitted {body : List Byte} (code : Nat) (size : body.length ≤ 28992) :
    emitted (funcsendrecvData code body) = [funcsendrecvData code body] := by
  have announced := encoded_pkg_len code size
  have length : (funcsendrecvData code body).length = lenPkgHeader + body.length :=
    encoded_length code
  simp only [lenPkgHeader] at announced length
  rw [emitted, cut_package (by omega) (by omega) (by omega)]
  rfl

theorem encoded_understood {code : Nat} {handler : Handler} {body : List Byte}
    (known : statusHandler[code]?.join = some handler) (size : body.length ≤ 28992) :
    Understood code handler body where
  accepted := fun cfg _ _ junk nowMs received => header_accepted size received cfg junk nowMs
  whole := encoded_emitted code size
  dispatched := fun hdr => encoded_dispatches hdr known size

theorem accepted_encoded {iCurrsequence : Nat} {msg : MsgBuf} {call : Invocation}
    (accepted : Accepted msg) (dispatched : threadRecvProcFunc iCurrsequence msg = .ok call) :
    Encoded msg call := by
  obtain ⟨code, body, known, encodes, argument, length⟩ :=
    dispatched_encoded accepted.sized dispatched
  have header := (thread_recv_proc_func_ok.mp dispatched).2.2.1
  have bound := accepted.bound
  rw [encodes, encoded_length] at bound
  simp only [lenPkgHeader, pkgMaxLength] at bound
  exact ⟨code, body, known, by omega, encodes, header, argument, length⟩

theorem no_body_pkg_queued (hdr : MsgHeader) (code : Nat) :
    Queued (sendNoBodyPkgToClient hdr code) code := by
  refine ⟨[], no_body_pkg_encoded hdr code, ?_⟩
  rw [no_body_pkg_encoded, encoded_pkg_len code (Nat.zero_le _), encoded_length]

/-- The client's encoder and the server's decoder are inverse to each other: for every code
with a handler and every body, in every run, and for what the server sends. -/
theorem codec_agreement :
    (∀ code handler body, statusHandler[code]?.join = some handler → body.length ≤ 28992 →
      Understood code handler body) ∧
    (∀ cfg server worker jobbuf msg call, Reachable cfg Disciplined server →
      server.workers worker = .taken jobbuf → server.rheap.block jobbuf = some msg →
      threadRecvProcFunc (server.conns msg.hdr.pConn).iCurrsequence msg = .ok call →
        Encoded msg call) ∧
    (∀ hdr code, Queued (sendNoBodyPkgToClient hdr code) code) ∧
    ∀ call junk msg, reply call junk = some msg → Queued msg (replyCode call.handler) := by
  refine ⟨fun code handler body => encoded_understood, ?_, no_body_pkg_queued, ?_⟩
  · intro cfg server worker jobbuf msg call reached taken live dispatched
    exact accepted_encoded (reachable_all_sized reached jobbuf msg live) dispatched
  · intro call junk msg replies
    obtain ⟨body, encodes⟩ := reply_encoded replies
    exact ⟨body, encodes, (reply_sized replies).1⟩

def heartbeat : MsgBuf where
  hdr := { pConn := 1, iCurrsequence := 1, occ := some 0 }
  pkg := funcsendrecvData cmdPing []

def heartbeatCall : Invocation where
  handler := .handlePing
  pMsgHeader := heartbeat.hdr
  pPkgBody := none
  iBodyLength := 0

/-- A registration of two bytes, and a heartbeat that a worker has taken and answers. -/
theorem codec_agreement_sample :
    Understood cmdRegister .handleRegister [1, 2] ∧ Encoded heartbeat heartbeatCall ∧
      ∃ answer, reply heartbeatCall (fun _ => 7) = some answer ∧ Queued answer cmdPing := by
  obtain ⟨understood, converse, -, replies⟩ := codec_agreement
  have seen : (run unflooded Disciplined [.epollInit (fun _ => true) 1000,
      .accept 0 [.ok 5] true true 1001, recvBytes heartbeat.pkg, .take 0]).map
        (fun server => decide (server.workers 0 = .taken 1 ∧
          server.rheap.block 1 = some heartbeat ∧ (server.conns 1).iCurrsequence = 1)) =
      some true := by
    decide
  obtain ⟨server, reached, shown⟩ := reachable_of_seen seen
  obtain ⟨taken, live, current⟩ := of_decide_eq_true shown
  have dispatched : threadRecvProcFunc (server.conns heartbeat.hdr.pConn).iCurrsequence heartbeat =
      .ok heartbeatCall :=
    (congrArg (threadRecvProcFunc · heartbeat) current).trans (by decide)
  refine ⟨understood cmdRegister .handleRegister [1, 2] (by decide) (by decide),
    converse unflooded server 0 1 heartbeat heartbeatCall reached taken live dispatched,
    sendNoBodyPkgToClient heartbeat.hdr cmdPing, by decide, ?_⟩
  exact replies heartbeatCall (fun _ => 7) _ (by decide)

end NgxServer.Agreement
