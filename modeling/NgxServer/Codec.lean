import NgxServer.Logic
import NgxServer.Request

/-!
# The package format, on both sides

The test client builds a package in `FuncsendrecvData`, the server takes it
apart in `ngx_wait_request_handler_proc_p1` and `threadRecvProcFunc`. Every
package that the client can build is accepted, nothing else reaches a handler,
and the server's own packages have the same form.
-/

namespace NgxServer.Codec

open NgxServer.Comm NgxServer.State NgxServer.Crc32 NgxServer.Socket
open NgxServer.Request NgxServer.Logic

set_option autoImplicit false

/-- The package that `FuncsendrecvData` of the client passes to `send`. -/
def funcsendrecvData (code : Nat) (body : List Byte) : List Byte :=
  encodeHeader (lenPkgHeader + body.length) code (if body = [] then 0 else getCrc body) ++ body

/-- The body as a handler gets it: `NULL` for an empty one. -/
def handlerBody (body : List Byte) : Option (List Byte) :=
  if body = [] then none else some body

/-- What `ngx_wait_request_handler_proc_p1` does behind its two checks of the
length. -/
def acceptHeader (cfg : Config) (server : Server) (c : ConnId) (junk : Nat → Byte) (nowMs : Nat) :
    Server × Bool :=
  let ePkgLen := pkgLen (server.conns c).recv.dataHeadInfo
  let allocated := allocBuffer server c ePkgLen junk
  if ePkgLen = lenPkgHeader then
    let (tested, isflood) := floodCheck cfg allocated c nowMs
    (ngxWaitRequestHandlerProcPlast tested c isflood, isflood)
  else (allocated.modConn c (bodyWindow ePkgLen), false)

theorem proc_p1_accepts {server : Server} {c : ConnId}
    (low : lenPkgHeader ≤ pkgLen (server.conns c).recv.dataHeadInfo)
    (high : pkgLen (server.conns c).recv.dataHeadInfo ≤ pkgMaxLength - 1000) (cfg : Config)
    (junk : Nat → Byte) (nowMs : Nat) :
    ngxWaitRequestHandlerProcP1 cfg server c junk nowMs = acceptHeader cfg server c junk nowMs := by
  unfold ngxWaitRequestHandlerProcP1
  dsimp only
  rw [if_neg (Nat.not_lt.mpr low), if_neg (Nat.not_lt.mpr high)]
  rfl

section Fields

variable {body : List Byte} (code : Nat)

theorem encoded_length : (funcsendrecvData code body).length = lenPkgHeader + body.length := by
  rw [funcsendrecvData, List.length_append, encode_header_length]

theorem encoded_pkg_len (size : body.length ≤ 28992) :
    pkgLen (funcsendrecvData code body) = lenPkgHeader + body.length :=
  pkg_len_encode _ _ _ _ (by simp only [lenPkgHeader]; omega)

theorem encoded_request_body (size : body.length ≤ 28992) :
    requestBody (funcsendrecvData code body) = body := by
  rw [requestBody, encoded_pkg_len code size, funcsendrecvData, pkg_body_encode,
    Nat.add_sub_cancel_left, List.take_length]

theorem encoded_check_crc (size : body.length ≤ 28992) :
    checkCrc (funcsendrecvData code body) = .ok (handlerBody body) := by
  have fields := encoded_pkg_len code size
  have whole := encoded_request_body code size
  rw [check_crc_ok, fields, whole, handlerBody]
  by_cases empty : body = []
  · refine Or.inl ⟨by simp [empty], ?_, by simp [empty]⟩
    rw [funcsendrecvData, crc32_encode, if_pos empty]
  · have some : 0 < body.length := List.length_pos_iff.mpr empty
    refine Or.inr ⟨by omega, ?_, by rw [if_neg empty]⟩
    rw [funcsendrecvData, crc32_encode, if_neg empty]

end Fields

/-- The client's package reaches the handler of its code with its body. -/
theorem encoded_dispatches {code : Nat} {handler : Handler} {body : List Byte} (hdr : MsgHeader)
    (known : statusHandler[code]?.join = some handler) (size : body.length ≤ 28992) :
    threadRecvProcFunc hdr.iCurrsequence { hdr := hdr, pkg := funcsendrecvData code body } =
      .ok
        { handler := handler
          pMsgHeader := hdr
          pPkgBody := handlerBody body
          iBodyLength := body.length } := by
  have small : code < 65536 := by
    by_contra large
    have missing : statusHandler[code]? = none :=
      List.getElem?_eq_none (by simp only [statusHandler, List.length_cons, List.length_nil]; omega)
    rw [missing] at known
    cases known
  have field : msgCode (funcsendrecvData code body) = code := msg_code_encode _ _ _ _ small
  rw [thread_recv_proc_func_ok, find_handler_ok]
  refine ⟨encoded_check_crc code size, ⟨rfl, ?_⟩, rfl, ?_⟩
  · rw [field]
    exact known
  · dsimp only
    rw [encoded_pkg_len code size, Nat.add_sub_cancel_left]

/-- A message that reaches a handler is the client's package for its code and
body. -/
theorem dispatched_encoded {iCurrsequence : Nat} {msg : MsgBuf} {call : Invocation}
    (sized : Sized msg) (dispatched : threadRecvProcFunc iCurrsequence msg = .ok call) :
    ∃ code body, statusHandler[code]?.join = some call.handler ∧
      msg.pkg = funcsendrecvData code body ∧ call.pPkgBody = handlerBody body ∧
      call.iBodyLength = body.length := by
  obtain ⟨checked, found, -, length⟩ := thread_recv_proc_func_ok.mp dispatched
  obtain ⟨-, known⟩ := find_handler_ok.mp found
  obtain ⟨real, covers⟩ := sized
  have fields := encode_header_of_fields covers
  have bodyLength : (pkgBody msg.pkg).length = pkgLen msg.pkg - lenPkgHeader := by
    rw [pkgBody, List.length_drop, real]
  have whole : requestBody msg.pkg = pkgBody msg.pkg := by
    rw [requestBody, ← bodyLength, List.take_length]
  have total : pkgLen msg.pkg = lenPkgHeader + (pkgBody msg.pkg).length := by omega
  refine ⟨msgCode msg.pkg, pkgBody msg.pkg, known, ?_, ?_, length.trans bodyLength.symm⟩
  · rw [funcsendrecvData, ← total]
    rcases check_crc_ok.mp checked with ⟨empty, zero, -⟩ | ⟨nonempty, same, -⟩
    · have none : pkgBody msg.pkg = [] := List.eq_nil_of_length_eq_zero (by omega)
      rw [if_pos none, ← zero]
      exact fields.symm
    · have some : pkgBody msg.pkg ≠ [] := by
        intro none
        rw [none, List.length_nil] at total
        exact nonempty total
      rw [if_neg some, ← whole, same, whole]
      exact fields.symm
  · rw [handlerBody]
    rcases check_crc_ok.mp checked with ⟨empty, -, noBody⟩ | ⟨nonempty, -, body⟩
    · have none : pkgBody msg.pkg = [] := List.eq_nil_of_length_eq_zero (by omega)
      rw [if_pos none, noBody]
    · have some : pkgBody msg.pkg ≠ [] := by
        intro none
        rw [none, List.length_nil] at total
        exact nonempty total
      rw [if_neg some, body, whole]

def replyCode : Handler → Nat
  | .handlePing => cmdPing
  | .handleRegister => cmdRegister
  | .handleLogIn => cmdLogin

theorem no_body_pkg_encoded (hdr : MsgHeader) (code : Nat) :
    (sendNoBodyPkgToClient hdr code).pkg = funcsendrecvData code [] := rfl

theorem body_reply_encoded (hdr : MsgHeader) {code iSendLen : Nat} (some : 0 < iSendLen)
    (junk : Nat → Byte) :
    (bodyReply hdr code iSendLen junk).pkg =
      funcsendrecvData code ((List.range iSendLen).map junk) := by
  have nonempty : (List.range iSendLen).map junk ≠ [] := by
    intro none
    have length := congrArg List.length none
    simp only [List.length_map, List.length_range, List.length_nil] at length
    omega
  simp [bodyReply, funcsendrecvData, nonempty]

theorem body_handler_encoded {size code : Nat} {call : Invocation} {junk : Nat → Byte}
    {msg : MsgBuf} (some : 0 < size) (replies : bodyHandler size code call junk = Option.some msg) :
    ∃ body, msg.pkg = funcsendrecvData code body := by
  unfold bodyHandler at replies
  split_ifs at replies
  cases replies
  exact ⟨_, body_reply_encoded _ some junk⟩

theorem reply_encoded {call : Invocation} {junk : Nat → Byte} {msg : MsgBuf}
    (replies : reply call junk = some msg) :
    ∃ body, msg.pkg = funcsendrecvData (replyCode call.handler) body := by
  unfold reply at replies
  cases handler : call.handler with
  | handlePing =>
      rw [handler] at replies
      simp only [handlePing] at replies
      split_ifs at replies
      cases replies
      exact ⟨[], no_body_pkg_encoded _ _⟩
  | handleRegister =>
      rw [handler] at replies
      exact body_handler_encoded (by decide) replies
  | handleLogIn =>
      rw [handler] at replies
      exact body_handler_encoded (by decide) replies

theorem stamped_buffer_length {server : Server} {c : ConnId} (junk : Nat → Byte)
    (header : lenPkgHeader ≤ (server.conns c).recv.dataHeadInfo.length)
    (low : lenPkgHeader ≤ pkgLen (server.conns c).recv.dataHeadInfo) :
    (stampedBuffer server c (pkgLen (server.conns c).recv.dataHeadInfo) junk).pkg.length =
      pkgLen (server.conns c).recv.dataHeadInfo := by
  have copied : ((server.conns c).recv.dataHeadInfo.take lenPkgHeader).length = lenPkgHeader := by
    rw [List.length_take]
    omega
  have size : ((List.range (pkgLen (server.conns c).recv.dataHeadInfo)).map junk).length =
      pkgLen (server.conns c).recv.dataHeadInfo := by simp
  rw [stampedBuffer, overwrite_length (by rw [copied, size]; omega), size]

/-- A buffer of `proc_p1` has as many package bytes as its header says. -/
theorem stamped_buffer_sized {server : Server} {c : ConnId} (junk : Nat → Byte)
    (header : lenPkgHeader ≤ (server.conns c).recv.dataHeadInfo.length)
    (low : lenPkgHeader ≤ pkgLen (server.conns c).recv.dataHeadInfo) :
    Sized (stampedBuffer server c (pkgLen (server.conns c).recv.dataHeadInfo) junk) := by
  have copied : ((server.conns c).recv.dataHeadInfo.take lenPkgHeader).length = lenPkgHeader := by
    rw [List.length_take]
    omega
  have length := stamped_buffer_length junk header low
  refine ⟨?_, by rw [length]; exact low⟩
  rw [length, stampedBuffer, overwrite, List.take_zero, List.nil_append,
    pkg_len_append (by rw [copied]; decide), pkg_len_take (by decide)]

/-- The receive window of a body lies behind the package header, so a body
changes neither the length nor its field. -/
theorem overwrite_sized {msg : MsgBuf} {offset : Nat} {bytes : List Byte} (sized : Sized msg)
    (behind : lenPkgHeader ≤ offset) (fits : offset + bytes.length ≤ msg.pkg.length) :
    Sized { msg with pkg := overwrite msg.pkg offset bytes } := by
  obtain ⟨real, covers⟩ := sized
  have length := overwrite_length fits
  refine ⟨?_, by rw [length]; exact covers⟩
  have kept : lenPkgHeader ≤ (msg.pkg.take offset).length := by
    rw [List.length_take]
    omega
  dsimp only
  rw [length, overwrite, List.append_assoc, pkg_len_append (Nat.le_trans (by decide) kept),
    pkg_len_take (Nat.le_trans (by decide) behind), real]

end NgxServer.Codec
