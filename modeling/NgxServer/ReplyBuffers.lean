import NgxServer.Logic

/-!
# The buffers of the replies

The handlers of `ngx_c_slogic.cxx` write their replies into a buffer that
`AllocMemory` does not clear. What they do not write goes to the client as the
allocator left it: the whole body of a reply that has one.
-/

namespace NgxServer.ReplyBuffers

open NgxServer.Comm NgxServer.Crc32 NgxServer.Logic

set_option autoImplicit false

/-- `AllocMemory`; `heap` is what the cells of the new block held before. -/
def allocMemory (heap : Nat → Byte) (memCount : Nat) (ifmemset : Bool) : List Byte :=
  if ifmemset then List.replicate memCount 0 else (List.range memCount).map heap

def memcpy (buf : List Byte) (offset : Nat) (bytes : List Byte) : List Byte :=
  buf.take offset ++ bytes ++ buf.drop (offset + bytes.length)

def word (value : Nat) : List Byte := (List.range 8).map fun i => BitVec.ofNat 8 (value / 256 ^ i)

def msgHeaderBytes (hdr : MsgHeader) : List Byte := word hdr.pConn ++ word hdr.iCurrsequence

def msgCodeOffset : Nat := 2
def crc32Offset : Nat := 4

def noBodyBuffer (pMsgHeader : MsgHeader) (iMsgCode : Nat) (heap : Nat → Byte) : List Byte :=
  let p_sendbuf := allocMemory heap (lenMsgHeader + lenPkgHeader) false
  let p_sendbuf := memcpy p_sendbuf 0 (msgHeaderBytes pMsgHeader)
  let p_sendbuf := memcpy p_sendbuf (lenMsgHeader + msgCodeOffset) (htons iMsgCode)
  let p_sendbuf := memcpy p_sendbuf lenMsgHeader (htons lenPkgHeader)
  memcpy p_sendbuf (lenMsgHeader + crc32Offset) (htonl 0)

/-- The buffer of `_HandleRegister` and `_HandleLogIn`: nothing is stored at `p_sendInfo`. -/
def bodyBuffer (pMsgHeader : MsgHeader) (iMsgCode iSendLen : Nat) (heap : Nat → Byte) :
    List Byte :=
  let p_sendbuf := allocMemory heap (lenMsgHeader + lenPkgHeader + iSendLen) false
  let p_sendbuf := memcpy p_sendbuf 0 (msgHeaderBytes pMsgHeader)
  let p_sendbuf := memcpy p_sendbuf (lenMsgHeader + msgCodeOffset) (htons iMsgCode)
  let p_sendbuf := memcpy p_sendbuf lenMsgHeader (htons (lenPkgHeader + iSendLen))
  let p_sendInfo := (p_sendbuf.drop (lenMsgHeader + lenPkgHeader)).take iSendLen
  memcpy p_sendbuf (lenMsgHeader + crc32Offset) (htonl (getCrc p_sendInfo))

/-- What a handler with a body passes to `msgSend`. -/
def bodyHandlerBuffer (size code : Nat) (call : Invocation) (heap : Nat → Byte) :
    Option (List Byte) :=
  if call.pPkgBody = none then none
  else if size ≠ call.iBodyLength then none
  else some (bodyBuffer call.pMsgHeader code size heap)

def replyBuffer (call : Invocation) (heap : Nat → Byte) : Option (List Byte) :=
  match call.handler with
  | .handlePing =>
      if call.iBodyLength ≠ 0 then none else some (noBodyBuffer call.pMsgHeader cmdPing heap)
  | .handleRegister => bodyHandlerBuffer sizeofRegister cmdRegister call heap
  | .handleLogIn => bodyHandlerBuffer sizeofLogin cmdLogin call heap

def replyPacket (call : Invocation) (heap : Nat → Byte) : Option (List Byte) :=
  (replyBuffer call heap).map fun p_sendbuf => p_sendbuf.drop lenMsgHeader

theorem memcpy_here {old bytes : List Byte} (size : old.length = bytes.length)
    (after : List Byte) : memcpy (old ++ after) 0 bytes = bytes ++ after := by
  rw [memcpy, List.take_zero, List.nil_append, Nat.zero_add, ← size, List.drop_left]

theorem memcpy_behind {front : List Byte} {place : Nat} (size : front.length = place)
    (rest : List Byte) (offset : Nat) (bytes : List Byte) :
    memcpy (front ++ rest) (place + offset) bytes = front ++ memcpy rest offset bytes := by
  rw [memcpy, memcpy, ← size, List.take_length_add_append, Nat.add_assoc,
    List.drop_length_add_append]
  simp only [List.append_assoc]

def bodyCells (heap : Nat → Byte) (iSendLen : Nat) : List Byte :=
  (List.range iSendLen).map fun i => heap (lenMsgHeader + lenPkgHeader + i)

theorem msg_header_bytes_length (hdr : MsgHeader) :
    (msgHeaderBytes hdr).length = lenMsgHeader := rfl

theorem alloc_memory_fields (heap : Nat → Byte) (iSendLen : Nat) :
    ∃ header len code crc : List Byte, header.length = lenMsgHeader ∧ len.length = 2 ∧
      code.length = 2 ∧ crc.length = 4 ∧
      allocMemory heap (lenMsgHeader + lenPkgHeader + iSendLen) false =
        header ++ (len ++ (code ++ (crc ++ bodyCells heap iSendLen))) := by
  refine ⟨(List.range 16).map heap, (List.range 2).map fun i => heap (16 + i),
    (List.range 2).map fun i => heap (18 + i), (List.range 4).map fun i => heap (20 + i),
    rfl, rfl, rfl, rfl, ?_⟩
  show (List.range (24 + iSendLen)).map heap = _
  rw [List.range_add, List.map_append, List.map_map]
  rfl

theorem stores_fields {header len code crc bytes newLen newCode newCrc : List Byte}
    (body : List Byte)
    (headerSize : header.length = lenMsgHeader) (lenSize : len.length = 2)
    (codeSize : code.length = 2) (crcSize : crc.length = 4)
    (bytesSize : bytes.length = lenMsgHeader) (newLenSize : newLen.length = 2)
    (newCodeSize : newCode.length = 2) (newCrcSize : newCrc.length = 4) :
    let stored := memcpy (memcpy (memcpy (header ++ (len ++ (code ++ (crc ++ body)))) 0 bytes)
      (lenMsgHeader + msgCodeOffset) newCode) lenMsgHeader newLen
    stored.drop (lenMsgHeader + lenPkgHeader) = body ∧
      memcpy stored (lenMsgHeader + crc32Offset) newCrc =
        bytes ++ (newLen ++ newCode ++ newCrc ++ body) := by
  have first := memcpy_here (headerSize.trans bytesSize.symm) (len ++ (code ++ (crc ++ body)))
  have second : memcpy (bytes ++ (len ++ (code ++ (crc ++ body)))) (lenMsgHeader + msgCodeOffset)
      newCode = bytes ++ (len ++ (newCode ++ (crc ++ body))) := by
    rw [memcpy_behind bytesSize, show msgCodeOffset = 2 + 0 from rfl, memcpy_behind lenSize,
      memcpy_here (codeSize.trans newCodeSize.symm)]
  have third : memcpy (bytes ++ (len ++ (newCode ++ (crc ++ body)))) lenMsgHeader newLen =
      bytes ++ (newLen ++ (newCode ++ (crc ++ body))) := by
    have place := memcpy_behind bytesSize (len ++ (newCode ++ (crc ++ body))) 0 newLen
    rw [memcpy_here (lenSize.trans newLenSize.symm)] at place
    exact place
  have fourth : memcpy (bytes ++ (newLen ++ (newCode ++ (crc ++ body))))
      (lenMsgHeader + crc32Offset) newCrc = bytes ++ (newLen ++ newCode ++ newCrc ++ body) := by
    rw [memcpy_behind bytesSize, show crc32Offset = 2 + (2 + 0) from rfl, memcpy_behind newLenSize,
      memcpy_behind newCodeSize, memcpy_here (crcSize.trans newCrcSize.symm)]
    simp only [List.append_assoc]
  simp only [first, second, third, fourth, and_true]
  have front : (bytes ++ newLen ++ newCode ++ crc).length = lenMsgHeader + lenPkgHeader := by
    simp only [List.length_append, bytesSize, newLenSize, newCodeSize, crcSize]
    rfl
  have split : bytes ++ (newLen ++ (newCode ++ (crc ++ body))) =
      bytes ++ newLen ++ newCode ++ crc ++ body := by
    simp only [List.append_assoc]
  rw [split, ← front, List.drop_left]

theorem body_buffer_eq (pMsgHeader : MsgHeader) (iMsgCode iSendLen : Nat) (heap : Nat → Byte) :
    bodyBuffer pMsgHeader iMsgCode iSendLen heap =
      msgHeaderBytes pMsgHeader ++
        (encodeHeader (lenPkgHeader + iSendLen) iMsgCode (getCrc (bodyCells heap iSendLen)) ++
          bodyCells heap iSendLen) := by
  obtain ⟨header, len, code, crc, headerSize, lenSize, codeSize, crcSize, fields⟩ :=
    alloc_memory_fields heap iSendLen
  have whole : (bodyCells heap iSendLen).take iSendLen = bodyCells heap iSendLen := by
    apply List.take_of_length_le
    simp [bodyCells]
  have stores (newCrc : BitVec 32) := stores_fields (bodyCells heap iSendLen) headerSize lenSize
    codeSize crcSize (msg_header_bytes_length pMsgHeader) (htons_length (lenPkgHeader + iSendLen))
    (htons_length iMsgCode) (htonl_length newCrc)
  simp only [bodyBuffer, fields]
  rw [(stores 0).1, whole, (stores _).2]
  rfl

theorem no_body_buffer_eq (pMsgHeader : MsgHeader) (iMsgCode : Nat) (heap : Nat → Byte) :
    noBodyBuffer pMsgHeader iMsgCode heap =
      msgHeaderBytes pMsgHeader ++ encodeHeader lenPkgHeader iMsgCode 0 := by
  obtain ⟨header, len, code, crc, headerSize, lenSize, codeSize, crcSize, fields⟩ :=
    alloc_memory_fields heap 0
  have stores := stores_fields (bodyCells heap 0) headerSize lenSize codeSize crcSize
    (msg_header_bytes_length pMsgHeader) (htons_length lenPkgHeader) (htons_length iMsgCode)
    (htonl_length 0)
  rw [Nat.add_zero] at fields
  simp only [noBodyBuffer, fields]
  rw [stores.2]
  exact congrArg (msgHeaderBytes pMsgHeader ++ ·) (List.append_nil _)

/-- The packet of the buffer is the one that the model of the handlers queues. -/
theorem reply_packet_reply (call : Invocation) (heap : Nat → Byte) :
    replyPacket call heap =
      (reply call fun i => heap (lenMsgHeader + lenPkgHeader + i)).map fun msg => msg.pkg := by
  have body (code size : Nat) : (bodyHandlerBuffer size code call heap).map
        (fun p_sendbuf => p_sendbuf.drop lenMsgHeader) =
      (bodyHandler size code call fun i => heap (lenMsgHeader + lenPkgHeader + i)).map
        fun msg => msg.pkg := by
    unfold bodyHandlerBuffer bodyHandler
    split
    · rfl
    split
    · rfl
    · rw [Option.map_some, Option.map_some, body_buffer_eq,
        ← msg_header_bytes_length call.pMsgHeader, List.drop_left]
      rfl
  unfold replyPacket replyBuffer reply
  cases call.handler with
  | handlePing =>
      simp only [handlePing]
      split
      · rfl
      · rw [Option.map_some, Option.map_some, no_body_buffer_eq,
          ← msg_header_bytes_length call.pMsgHeader, List.drop_left]
        rfl
  | handleRegister => exact body cmdRegister sizeofRegister
  | handleLogIn => exact body cmdLogin sizeofLogin

/-- The handler does not return `false`. -/
def Accepted (call : Invocation) : Prop :=
  match call.handler with
  | .handlePing => call.iBodyLength = 0
  | .handleRegister => call.pPkgBody ≠ none ∧ call.iBodyLength = sizeofRegister
  | .handleLogIn => call.pPkgBody ≠ none ∧ call.iBodyLength = sizeofLogin

def sendLen : Handler → Nat
  | .handlePing => 0
  | .handleRegister => sizeofRegister
  | .handleLogIn => sizeofLogin

def replyCode : Handler → Nat
  | .handlePing => cmdPing
  | .handleRegister => cmdRegister
  | .handleLogIn => cmdLogin

/-- The reply to an accepted request: its body is what the cells held before. -/
theorem accepted_packet {call : Invocation} (accepted : Accepted call) (heap : Nat → Byte) :
    replyPacket call heap =
      some (encodeHeader (lenPkgHeader + sendLen call.handler) (replyCode call.handler)
          (if call.handler = .handlePing then 0 else getCrc (bodyCells heap (sendLen call.handler)))
        ++ bodyCells heap (sendLen call.handler)) := by
  have packet (bytes : List Byte) :
      (msgHeaderBytes call.pMsgHeader ++ bytes).drop lenMsgHeader = bytes := by
    rw [← msg_header_bytes_length call.pMsgHeader, List.drop_left]
  unfold Accepted at accepted
  unfold replyPacket replyBuffer
  cases handler : call.handler with
  | handlePing =>
      rw [handler] at accepted
      simp only [accepted, ne_eq, not_true_eq_false, if_false, Option.map_some, no_body_buffer_eq,
        packet]
      rfl
  | handleRegister =>
      rw [handler] at accepted
      simp only [bodyHandlerBuffer, accepted.1, accepted.2, ne_eq, not_true_eq_false, if_false,
        Option.map_some, body_buffer_eq, packet]
      rfl
  | handleLogIn =>
      rw [handler] at accepted
      simp only [bodyHandlerBuffer, accepted.1, accepted.2, ne_eq, not_true_eq_false, if_false,
        Option.map_some, body_buffer_eq, packet]
      rfl

theorem body_cells_same_iff (heap other : Nat → Byte) (iSendLen : Nat) :
    bodyCells heap iSendLen = bodyCells other iSendLen ↔
      ∀ i < iSendLen, heap (lenMsgHeader + lenPkgHeader + i) =
        other (lenMsgHeader + lenPkgHeader + i) := by
  rw [bodyCells, bodyCells, List.map_inj_left]
  simp only [List.mem_range]

theorem packets_same_iff {call : Invocation} (accepted : Accepted call)
    (heap other : Nat → Byte) :
    replyPacket call heap = replyPacket call other ↔
      ∀ i < sendLen call.handler, heap (lenMsgHeader + lenPkgHeader + i) =
        other (lenMsgHeader + lenPkgHeader + i) := by
  rw [accepted_packet accepted, accepted_packet accepted, ← body_cells_same_iff, Option.some.injEq]
  constructor
  · intro same
    exact (List.append_inj same rfl).2
  · intro same
    rw [same]

/-- The packets of two runs are the same exactly when the cells of the body held the same; so the
reply does not depend on the old contents exactly when it has no body, for a ping. -/
theorem replies_same_iff (call : Invocation) (accepted : Accepted call) :
    (∀ heap other, replyPacket call heap = replyPacket call other ↔
      ∀ i < sendLen call.handler, heap (lenMsgHeader + lenPkgHeader + i) =
        other (lenMsgHeader + lenPkgHeader + i)) ∧
    ((∀ heap other, replyPacket call heap = replyPacket call other) ↔
      call.handler = .handlePing) := by
  refine ⟨packets_same_iff accepted, ?_⟩
  constructor
  · intro same
    by_contra other_handler
    have some_body : 0 < sendLen call.handler := by
      cases handler : call.handler with
      | handlePing => exact absurd handler other_handler
      | handleRegister => decide
      | handleLogIn => decide
    have equal := (packets_same_iff accepted (fun _ => 0) (fun _ => 1)).mp (same _ _) 0 some_body
    exact absurd equal (by decide)
  · intro ping heap other
    rw [packets_same_iff accepted, ping]
    intro i below
    cases below

def registerCall : Invocation where
  handler := .handleRegister
  pMsgHeader := ⟨3, 1, none⟩
  pPkgBody := some (List.replicate sizeofRegister 0)
  iBodyLength := sizeofRegister

def pingCall : Invocation where
  handler := .handlePing
  pMsgHeader := ⟨3, 1, none⟩
  pPkgBody := none
  iBodyLength := 0

theorem replies_same_sample :
    (∀ heap other, replyPacket pingCall heap = replyPacket pingCall other) ∧
      ¬∀ heap other, replyPacket registerCall heap = replyPacket registerCall other := by
  refine ⟨(replies_same_iff pingCall rfl).2.mpr rfl, ?_⟩
  intro same
  have ping := (replies_same_iff registerCall ⟨Option.some_ne_none _, rfl⟩).2.mp same
  cases ping

theorem register_reply_leaks :
    ¬∀ call : Invocation, Accepted call →
      ∀ heap other, replyPacket call heap = replyPacket call other := by
  intro same
  have accepted : Accepted registerCall := ⟨Option.some_ne_none _, rfl⟩
  have equal := (packets_same_iff accepted (fun _ => 0) (fun _ => 1)).mp
    (same registerCall accepted _ _) 0 (by decide)
  exact absurd equal (by decide)

end NgxServer.ReplyBuffers
