import NgxServer.Lib.StreamSplitter
import NgxServer.RecvOwnership

/-!
# Packages out of a byte stream

What the receive states make of the bytes of one connection is what a parser
of the whole stream finds: a header whose length is out of bounds is dropped,
and any other header starts a package. `Holding` says which bytes of an
incomplete package a connection holds, and where.
-/

namespace NgxServer.Reassembly

open NgxServer.Comm NgxServer.State NgxServer.ConnPool NgxServer.TimerQueue NgxServer.Socket
open NgxServer.Request NgxServer.Accept NgxServer.Logic NgxServer.System NgxServer.Frames
open NgxServer.PoolRefinement NgxServer.Occupancy NgxServer.RecvOwnership
open BlockHeap (null)
open StreamSplitter (Splitter cut)

set_option autoImplicit false

/-- What the reference parser finds: eight bytes that are no valid header, or
a whole package. -/
inductive Piece
  | dropped (header : List Byte)
  | package (pkg : List Byte)
  deriving DecidableEq, Repr

def Piece.bytes : Piece → List Byte
  | .dropped header => header
  | .package pkg => pkg

def Piece.package? : Piece → Option (List Byte)
  | .dropped _ => none
  | .package pkg => some pkg

/-- Takes eight header bytes. If the length they announce is below 8 or above
29000 just these eight bytes are dropped, otherwise that many bytes are a
package. -/
def firstPiece (input : List Byte) : Option (Piece × List Byte) :=
  if input.length < 8 then none
  else if pkgLen input < 8 ∨ pkgLen input > 29000 then
    some (.dropped (input.take 8), input.drop 8)
  else if input.length < pkgLen input then none
  else some (.package (input.take (pkgLen input)), input.drop (pkgLen input))

theorem first_piece_cases {input rest : List Byte} {piece : Piece}
    (found : firstPiece input = some (piece, rest)) :
    8 ≤ input.length ∧
      ((pkgLen input < 8 ∨ pkgLen input > 29000) ∧
          piece = .dropped (input.take 8) ∧ rest = input.drop 8 ∨
        8 ≤ pkgLen input ∧ pkgLen input ≤ 29000 ∧ pkgLen input ≤ input.length ∧
          piece = .package (input.take (pkgLen input)) ∧ rest = input.drop (pkgLen input)) := by
  unfold firstPiece at found
  split_ifs at found with short bad waits
  · cases found
    exact ⟨by omega, Or.inl ⟨bad, rfl, rfl⟩⟩
  · cases found
    exact ⟨by omega, Or.inr ⟨by omega, by omega, by omega, rfl, rfl⟩⟩

theorem first_piece_stable (input rest more : List Byte) (piece : Piece)
    (found : firstPiece input = some (piece, rest)) :
    firstPiece (input ++ more) = some (piece, rest ++ more) := by
  obtain ⟨size, ⟨bad, rfl, rfl⟩ | ⟨low, high, covered, rfl, rfl⟩⟩ := first_piece_cases found
  · have same : pkgLen (input ++ more) = pkgLen input := pkg_len_append (by omega)
    rw [firstPiece, same, if_neg (by rw [List.length_append]; omega), if_pos bad,
      List.take_append_of_le_length size, List.drop_append_of_le_length size]
  · have same : pkgLen (input ++ more) = pkgLen input := pkg_len_append (by omega)
    rw [firstPiece, same, if_neg (by rw [List.length_append]; omega), if_neg (by omega),
      if_neg (by rw [List.length_append]; omega), List.take_append_of_le_length covered,
      List.drop_append_of_le_length covered]

def packages : Splitter Byte Piece where
  first := firstPiece
  symbols := Piece.bytes
  exact := by
    intro input piece rest found
    obtain ⟨-, ⟨-, rfl, rfl⟩ | ⟨-, -, -, rfl, rfl⟩⟩ := first_piece_cases found
    · exact List.take_append_drop 8 input
    · exact List.take_append_drop (pkgLen input) input
  nonempty := by
    intro input piece rest found
    obtain ⟨size, ⟨-, rfl, -⟩ | ⟨low, -, covered, rfl, -⟩⟩ := first_piece_cases found
    · exact List.length_pos_iff.mp (by simp only [Piece.bytes, List.length_take]; omega)
    · exact List.length_pos_iff.mp (by simp only [Piece.bytes, List.length_take]; omega)
  stable := fun input piece rest more => first_piece_stable input rest more piece

def emitted (stream : List Byte) : List (List Byte) :=
  (cut packages stream).1.filterMap Piece.package?

/-- The packages of a longer prefix, from what the shorter one has left over. -/
theorem emitted_append (stream more : List Byte) :
    emitted (stream ++ more) = emitted stream ++ emitted ((cut packages stream).2 ++ more) := by
  rw [emitted, emitted, emitted, StreamSplitter.cut_append packages stream more,
    List.filterMap_append]

/-- What a connection may hold of the stream: nothing that a piece could be
cut from. -/
theorem cut_short {input : List Byte} (short : input.length < 8) :
    cut packages input = ([], input) :=
  StreamSplitter.cut_none packages (if_pos short)

theorem cut_waiting {input : List Byte} (low : 8 ≤ pkgLen input) (high : pkgLen input ≤ 29000)
    (waits : input.length < pkgLen input) : cut packages input = ([], input) := by
  apply StreamSplitter.cut_none packages
  change firstPiece input = none
  rw [firstPiece, if_neg (c := pkgLen input < 8 ∨ pkgLen input > 29000) (by omega), if_pos waits]
  exact ite_self none

theorem cut_dropped {input : List Byte} (header : input.length = 8)
    (bad : pkgLen input < 8 ∨ pkgLen input > 29000) :
    cut packages input = ([.dropped input], []) := by
  have found : packages.first input = some (.dropped (input.take 8), input.drop 8) := by
    change firstPiece input = _
    rw [firstPiece, if_neg (by omega), if_pos bad]
  rw [StreamSplitter.cut_some packages found, List.take_of_length_le (by omega),
    List.drop_eq_nil_of_le (by omega), StreamSplitter.cut_nil]

theorem cut_package {input : List Byte} (low : 8 ≤ pkgLen input) (high : pkgLen input ≤ 29000)
    (whole : input.length = pkgLen input) : cut packages input = ([.package input], []) := by
  have found : packages.first input =
      some (.package (input.take (pkgLen input)), input.drop (pkgLen input)) := by
    change firstPiece input = _
    rw [firstPiece, if_neg (by omega), if_neg (by omega), if_neg (by omega)]
  rw [StreamSplitter.cut_some packages found, List.take_of_length_le (by omega),
    List.drop_eq_nil_of_le (by omega), StreamSplitter.cut_nil]

structure HoldsHead (recv : RecvPart) (rest : List Byte) : Prop where
  states : recv.curStat = .hdInit ∧ rest = [] ∨ recv.curStat = .hdRecving
  window : recv.precvbuf = .head rest.length
  missing : rest.length + recv.irecvlen = lenPkgHeader
  waits : 0 < recv.irecvlen
  bytes : recv.dataHeadInfo.take rest.length = rest

structure HoldsBody (server : Server) (c : ConnId) (rest : List Byte) : Prop where
  states : ¬ InHeader (server.conns c).recv
  window : (server.conns c).recv.precvbuf =
    .mem (server.conns c).recv.precvMemPointer (lenMsgHeader + rest.length)
  missing : rest.length + (server.conns c).recv.irecvlen = pkgLen rest
  waits : 0 < (server.conns c).recv.irecvlen
  header : lenPkgHeader ≤ rest.length
  bound : pkgLen rest ≤ 29000
  buffer : ∃ pkg, server.rheap.block (server.conns c).recv.precvMemPointer =
      some { hdr := stampNow server c, pkg := pkg } ∧
    pkg.length = pkgLen rest ∧ pkg.take rest.length = rest

/-- The bytes of an incomplete package that connection `c` holds. -/
def Holding (server : Server) (c : ConnId) (rest : List Byte) : Prop :=
  HoldsHead (server.conns c).recv rest ∨ HoldsBody server c rest

theorem holding_incomplete {server : Server} {c : ConnId} {rest : List Byte}
    (holding : Holding server c rest) : cut packages rest = ([], rest) := by
  rcases holding with head | body
  · have missing := head.missing
    have waits := head.waits
    simp only [lenPkgHeader] at missing
    exact cut_short (by omega)
  · have missing := body.missing
    have waits := body.waits
    have header := body.header
    have bound := body.bound
    simp only [lenPkgHeader] at header
    exact cut_waiting (by omega) bound (by omega)

/-- `input` is what connection `c` held, with the bytes that arrived. The
packages cut from it are handed over, and the rest is held. -/
structure Parsed (before after : Server) (c : ConnId) (input : List Byte) : Prop where
  handed : ∃ bufs, after.msgRecvQueue = before.msgRecvQueue ++ bufs ∧
    bufs.map after.rheap.block =
      (emitted input).map fun pkg => some { hdr := stampNow before c, pkg := pkg }
  holding : Holding after c (cut packages input).2

theorem parsed_of_waiting {before after : Server} {c : ConnId} {input : List Byte}
    (queue : after.msgRecvQueue = before.msgRecvQueue) (holding : Holding after c input) :
    Parsed before after c input := by
  have whole := holding_incomplete holding
  refine ⟨⟨[], by rw [queue, List.append_nil], ?_⟩, ?_⟩
  · rw [emitted, whole]
    rfl
  · rw [whole]
    exact holding

section Receive

variable {server : Server} {c : ConnId}

/-- The receive states: more is needed, a header is complete, or a body is. -/
theorem receive_states_cases (cfg : Config) (server : Server) (c : ConnId) (reco : Nat)
    (junk : Nat → Byte) (nowMs : Nat) :
    (∃ stat, receiveStates cfg server c reco junk nowMs =
        (server.modConn c (advanceRecv stat reco), false)) ∨
      InHeader (server.conns c).recv ∧ receiveStates cfg server c reco junk nowMs =
        ngxWaitRequestHandlerProcP1 cfg server c junk nowMs ∨
      ¬ InHeader (server.conns c).recv ∧ receiveStates cfg server c reco junk nowMs =
        bodyComplete cfg server c nowMs := by
  have body : ∀ stat, stat ≠ .hdInit → stat ≠ .hdRecving →
      (server.conns c).recv.curStat = stat → ¬ InHeader (server.conns c).recv := by
    rintro stat notInit notRecving rfl (init | receiving)
    · exact notInit init
    · exact notRecving receiving
  unfold receiveStates
  cases state : (server.conns c).recv.curStat with
  | hdInit =>
      simp only [state]
      split
      · exact Or.inr (Or.inl ⟨Or.inl state, rfl⟩)
      · exact Or.inl ⟨_, rfl⟩
  | hdRecving =>
      simp only [state]
      split
      · exact Or.inr (Or.inl ⟨Or.inr state, rfl⟩)
      · exact Or.inl ⟨_, rfl⟩
  | bdInit =>
      simp only [state]
      split
      · exact Or.inr (Or.inr ⟨body .bdInit nofun nofun state, rfl⟩)
      · exact Or.inl ⟨_, rfl⟩
  | bdRecving =>
      simp only [state]
      split
      · exact Or.inr (Or.inr ⟨body .bdRecving nofun nofun state, rfl⟩)
      · exact Or.inl ⟨_, rfl⟩

theorem head_window_holds (p : NgxConnection) : HoldsHead (headWindow p).recv [] where
  states := Or.inl ⟨rfl, rfl⟩
  window := rfl
  missing := rfl
  waits := Nat.zero_lt_succ _
  bytes := rfl

/-- A whole package that lies in the buffer of a connection is handed over. -/
theorem parsed_plast {before : Server} {input : List Byte}
    (queue : server.msgRecvQueue = before.msgRecvQueue)
    (complete : cut packages input = ([.package input], []))
    (filled : server.rheap.block (server.conns c).recv.precvMemPointer =
      some { hdr := stampNow before c, pkg := input }) :
    Parsed before (ngxWaitRequestHandlerProcPlast server c false) c input := by
  refine ⟨⟨[(server.conns c).recv.precvMemPointer], ?_, ?_⟩, Or.inl ?_⟩
  · rw [← queue]
    rfl
  · rw [emitted, complete]
    exact congrArg (fun found => [found]) filled
  · rw [complete, ngxWaitRequestHandlerProcPlast, mod_conn_conns_self]
    exact head_window_holds _

theorem take_all {pkg input : List Byte} (size : pkg.length = input.length)
    (known : pkg.take input.length = input) : pkg = input := by
  rwa [← size, List.take_length] at known

theorem stamped_buffer_pkg {header : List Byte} {ePkgLen : Nat} (junk : Nat → Byte)
    (size : header.length = lenPkgHeader) (fits : lenPkgHeader ≤ ePkgLen)
    (received : (server.conns c).recv.dataHeadInfo.take lenPkgHeader = header) :
    (stampedBuffer server c ePkgLen junk).pkg.length = ePkgLen ∧
      (stampedBuffer server c ePkgLen junk).pkg.take header.length = header := by
  have room : 0 + header.length ≤ ((List.range ePkgLen).map junk).length := by
    rw [List.length_map, List.length_range]
    omega
  simp only [stampedBuffer, received]
  refine ⟨by rw [overwrite_length room, List.length_map, List.length_range], ?_⟩
  simpa using overwrite_take room

theorem alloc_buffer_filled (ePkgLen : Nat) (junk : Nat → Byte) :
    (allocBuffer server c ePkgLen junk).rheap.block
        ((allocBuffer server c ePkgLen junk).conns c).recv.precvMemPointer =
      some (stampedBuffer server c ePkgLen junk) := by
  have pointer : ((allocBuffer server c ePkgLen junk).conns c).recv.precvMemPointer =
      server.rheap.next := by
    rw [allocBuffer, mod_conn_conns_self]
  rw [pointer]
  exact BlockHeap.alloc_block_self _ _

theorem stamp_now_mod_conn (server : Server) (c : ConnId) (change : NgxConnection → NgxConnection)
    (seq : (change (server.conns c)).iCurrsequence = (server.conns c).iCurrsequence) :
    stampNow (server.modConn c change) c = stampNow server c := by
  simp only [stampNow, mod_conn_conns_self, seq]
  rfl

theorem stamp_now_alloc_buffer (ePkgLen : Nat) (junk : Nat → Byte) :
    stampNow (allocBuffer server c ePkgLen junk) c = stampNow server c := by
  have kept := stamp_now_mod_conn server c
    (fun p => { p with recv.precvMemPointer := server.rheap.next }) rfl
  exact kept

/-- A valid header of a package with a body starts to be filled in. -/
theorem holds_body_window {header : List Byte} (junk : Nat → Byte)
    (size : header.length = lenPkgHeader) (more : lenPkgHeader < pkgLen header)
    (bound : pkgLen header ≤ 29000)
    (received : (server.conns c).recv.dataHeadInfo.take lenPkgHeader = header) :
    HoldsBody ((allocBuffer server c (pkgLen header) junk).modConn c (bodyWindow (pkgLen header)))
      c header := by
  obtain ⟨length, known⟩ := stamped_buffer_pkg junk size more.le received
  refine ⟨?_, ?_, ?_, ?_, size.ge, bound, ?_⟩
  · rw [mod_conn_conns_self]
    rintro (init | receiving)
    · cases init
    · cases receiving
  · rw [mod_conn_conns_self, size]
    rfl
  · rw [mod_conn_conns_self]
    simp only [bodyWindow]
    omega
  · rw [mod_conn_conns_self]
    simp only [bodyWindow]
    omega
  · refine ⟨(stampedBuffer server c (pkgLen header) junk).pkg, ?_, length, known⟩
    rw [mod_conn_conns_self, stamp_now_mod_conn _ _ _ rfl, stamp_now_alloc_buffer]
    exact alloc_buffer_filled _ _

theorem flood_check_queue (cfg : Config) (server : Server) (c : ConnId) (nowMs : Nat) :
    (floodCheck cfg server c nowMs).1.msgRecvQueue = server.msgRecvQueue ∧
      (floodCheck cfg server c nowMs).1.rheap = server.rheap := by
  unfold floodCheck
  split
  · exact ⟨rfl, rfl⟩
  · exact ⟨rfl, rfl⟩

/-- A complete header is dropped, is a whole package, or starts one. -/
theorem parsed_proc_p1 {cfg : Config} {header : List Byte} {junk : Nat → Byte} {nowMs : Nat}
    (passes : (ngxWaitRequestHandlerProcP1 cfg server c junk nowMs).2 = false)
    (size : header.length = lenPkgHeader)
    (received : (server.conns c).recv.dataHeadInfo.take lenPkgHeader = header) :
    Parsed server (ngxWaitRequestHandlerProcP1 cfg server c junk nowMs).1 c header := by
  have len : pkgLen (server.conns c).recv.dataHeadInfo = pkgLen header := by
    rw [← received, pkg_len_take (by decide)]
  have dropped : (pkgLen header < 8 ∨ pkgLen header > 29000) →
      Parsed server (server.modConn c headWindow) c header := by
    intro bad
    have whole := cut_dropped size bad
    refine ⟨⟨[], (List.append_nil _).symm, ?_⟩, Or.inl ?_⟩
    · rw [emitted, whole]
      rfl
    · rw [whole, mod_conn_conns_self]
      exact head_window_holds _
  unfold ngxWaitRequestHandlerProcP1 at passes ⊢
  simp only [len] at passes ⊢
  split_ifs at passes ⊢ with short long alone
  · exact dropped (Or.inl short)
  · simp only [pkgMaxLength] at long
    exact dropped (Or.inr (by omega))
  · simp only [lenPkgHeader, pkgMaxLength] at size alone short long
    obtain ⟨length, known⟩ := stamped_buffer_pkg junk size alone.ge received
    obtain ⟨queue, rheap⟩ :=
      flood_check_queue cfg (allocBuffer server c (pkgLen header) junk) c nowMs
    dsimp only at passes ⊢
    rw [passes]
    refine parsed_plast queue (cut_package (by omega) (by omega) (by omega)) ?_
    have filled : (stampedBuffer server c (pkgLen header) junk).pkg = header :=
      take_all (by omega) known
    rw [rheap, flood_check_recv, alloc_buffer_filled]
    exact congrArg (fun pkg => some (MsgBuf.mk (stampNow server c) pkg)) filled
  · simp only [lenPkgHeader, pkgMaxLength] at short long alone
    have holds := holds_body_window junk size (by simp only [lenPkgHeader]; omega)
      (by omega) received
    exact parsed_of_waiting rfl (Or.inr holds)

theorem parsed_of_same {before stored after : Server} {input : List Byte}
    (queue : stored.msgRecvQueue = before.msgRecvQueue)
    (stamp : stampNow stored c = stampNow before c) (parsed : Parsed stored after c input) :
    Parsed before after c input := by
  obtain ⟨⟨bufs, appended, contents⟩, holding⟩ := parsed
  exact ⟨⟨bufs, by rw [appended, queue], by rw [contents, stamp]⟩, holding⟩

theorem receive_states_head (cfg : Config) {rest : List Byte} (reco : Nat)
    (head : HoldsHead (server.conns c).recv rest) (junk : Nat → Byte) (nowMs : Nat) :
    receiveStates cfg server c reco junk nowMs =
      if reco = (server.conns c).recv.irecvlen then
        ngxWaitRequestHandlerProcP1 cfg server c junk nowMs
      else (server.modConn c (advanceRecv .hdRecving reco), false) := by
  have missing := head.missing
  unfold receiveStates
  rcases head.states with ⟨init, none⟩ | receiving
  · have width : (server.conns c).recv.irecvlen = lenPkgHeader := by simpa [none] using missing
    simp only [init, width]
  · simp only [receiving, eq_comm]

theorem stored_head {rest bytes : List Byte} (head : HoldsHead (server.conns c).recv rest)
    (size : (server.conns c).recv.dataHeadInfo.length = dataBufsize)
    (fits : bytes.length ≤ (server.conns c).recv.irecvlen) :
    storeBytes server c bytes = server.modConn c (fun p =>
        { p with recv.dataHeadInfo := overwrite p.recv.dataHeadInfo rest.length bytes }) ∧
      ((storeBytes server c bytes).conns c).recv.dataHeadInfo.take (rest.length + bytes.length) =
        rest ++ bytes := by
  have missing := head.missing
  have room : rest.length + bytes.length ≤ (server.conns c).recv.dataHeadInfo.length := by
    simp only [lenPkgHeader, dataBufsize] at missing size
    omega
  have stored : storeBytes server c bytes = server.modConn c fun p =>
      { p with recv.dataHeadInfo := overwrite p.recv.dataHeadInfo rest.length bytes } := by
    rw [storeBytes, head.window]
  refine ⟨stored, ?_⟩
  rw [stored, mod_conn_conns_self]
  dsimp only
  rw [overwrite_take room, head.bytes]

/-- The states of a header see whether the bytes that were stored complete it. -/
theorem receive_states_stored (cfg : Config) {rest bytes : List Byte}
    (head : HoldsHead (server.conns c).recv rest)
    (size : (server.conns c).recv.dataHeadInfo.length = dataBufsize)
    (fits : bytes.length ≤ (server.conns c).recv.irecvlen) (junk : Nat → Byte) (nowMs : Nat) :
    receiveStates cfg (storeBytes server c bytes) c bytes.length junk nowMs =
      if bytes.length = (server.conns c).recv.irecvlen then
        ngxWaitRequestHandlerProcP1 cfg (storeBytes server c bytes) c junk nowMs
      else
        ((storeBytes server c bytes).modConn c (advanceRecv .hdRecving bytes.length), false) := by
  obtain ⟨stored, received⟩ := stored_head head size fits
  have stillHead : HoldsHead ((storeBytes server c bytes).conns c).recv rest := by
    have known := congrArg (List.take rest.length) received
    rw [stored, mod_conn_conns_self] at known ⊢
    refine ⟨head.states, head.window, head.missing, head.waits, ?_⟩
    simpa [List.take_take] using known
  have width : ((storeBytes server c bytes).conns c).recv.irecvlen =
      (server.conns c).recv.irecvlen := by
    rw [stored, mod_conn_conns_self]
  rw [receive_states_head cfg _ stillHead, width]

theorem parsed_head_bytes {cfg : Config} {rest bytes : List Byte} {junk : Nat → Byte} {nowMs : Nat}
    (passes :
      (receiveStates cfg (storeBytes server c bytes) c bytes.length junk nowMs).2 = false)
    (head : HoldsHead (server.conns c).recv rest)
    (size : (server.conns c).recv.dataHeadInfo.length = dataBufsize)
    (fits : bytes.length ≤ (server.conns c).recv.irecvlen) :
    Parsed server (receiveStates cfg (storeBytes server c bytes) c bytes.length junk nowMs).1 c
      (rest ++ bytes) := by
  have missing := head.missing
  obtain ⟨stored, received⟩ := stored_head head size fits
  rw [receive_states_stored cfg head size fits] at passes ⊢
  split at passes
  case isTrue complete =>
    rw [if_pos complete]
    have header : (rest ++ bytes).length = lenPkgHeader := by
      rw [List.length_append]
      omega
    rw [← List.length_append, header] at received
    refine parsed_of_same ?_ ?_ (parsed_proc_p1 passes header received)
    · rw [stored]
      rfl
    · rw [stored, stamp_now_mod_conn _ _ _ rfl]
  case isFalse incomplete =>
    rw [if_neg incomplete]
    refine parsed_of_waiting (by rw [stored]; rfl) (Or.inl ?_)
    rw [stored, mod_conn_conns_self] at received
    rw [mod_conn_conns_self, stored, mod_conn_conns_self]
    refine ⟨Or.inr rfl, ?_, ?_, ?_, ?_⟩
    · simp [advanceRecv, head.window, RecvPtr.advance]
    · simp only [advanceRecv, List.length_append]
      omega
    · simp only [advanceRecv]
      omega
    · simpa [advanceRecv] using received

theorem receive_states_body (cfg : Config) (reco : Nat)
    (body : ¬ InHeader (server.conns c).recv) (junk : Nat → Byte) (nowMs : Nat) :
    receiveStates cfg server c reco junk nowMs =
      if reco = (server.conns c).recv.irecvlen then bodyComplete cfg server c nowMs
      else (server.modConn c (advanceRecv .bdRecving reco), false) := by
  unfold receiveStates
  cases state : (server.conns c).recv.curStat with
  | hdInit => exact absurd (Or.inl state) body
  | hdRecving => exact absurd (Or.inr state) body
  | bdInit => simp only [state]
  | bdRecving =>
      simp only [state]
      exact if_congr eq_comm rfl rfl

/-- In a body `recv` writes into the buffer, right behind what is there. -/
theorem store_bytes_body {rest : List Byte} (body : HoldsBody server c rest)
    (bytes : List Byte) :
    storeBytes server c bytes =
      { server with
        rheap := BlockHeap.modify server.rheap (server.conns c).recv.precvMemPointer fun msg =>
          { msg with pkg := overwrite msg.pkg rest.length bytes } } := by
  rw [storeBytes, body.window]
  simp only [Nat.add_sub_cancel_left]

/-- The buffer after `recv`: the body that was there with the new bytes behind it. -/
theorem store_bytes_filled {rest bytes : List Byte} (body : HoldsBody server c rest)
    (fits : bytes.length ≤ (server.conns c).recv.irecvlen) :
    ∃ pkg, (storeBytes server c bytes).rheap.block (server.conns c).recv.precvMemPointer =
        some { hdr := stampNow server c, pkg := pkg } ∧
      pkg.length = pkgLen rest ∧ pkg.take (rest ++ bytes).length = rest ++ bytes := by
  have missing := body.missing
  obtain ⟨pkg, live, size, known⟩ := body.buffer
  have room : rest.length + bytes.length ≤ pkg.length := by omega
  refine ⟨overwrite pkg rest.length bytes, ?_, ?_, ?_⟩
  · rw [store_bytes_body body, BlockHeap.modify_block, if_pos rfl, live]
    rfl
  · rw [overwrite_length room]
    exact size
  · rw [List.length_append, overwrite_take room, known]

theorem holds_body_more {rest bytes : List Byte} (body : HoldsBody server c rest)
    (incomplete : bytes.length < (server.conns c).recv.irecvlen) :
    HoldsBody ((storeBytes server c bytes).modConn c (advanceRecv .bdRecving bytes.length)) c
      (rest ++ bytes) := by
  have missing := body.missing
  have header := body.header
  have bound := body.bound
  simp only [lenPkgHeader] at header
  have len : pkgLen (rest ++ bytes) = pkgLen rest := pkg_len_append (by omega)
  obtain ⟨pkg, filled, size, known⟩ := store_bytes_filled body (Nat.le_of_lt incomplete)
  have conns : (storeBytes server c bytes).conns = server.conns := by rw [store_bytes_body body]
  have same : stampNow ((storeBytes server c bytes).modConn c
      (advanceRecv .bdRecving bytes.length)) c = stampNow server c := by
    rw [stamp_now_mod_conn _ _ _ rfl, store_bytes_body body]
    rfl
  constructor
  case states =>
    rw [mod_conn_conns_self]
    rintro (init | receiving)
    · cases init
    · cases receiving
  case window =>
    rw [mod_conn_conns_self, conns]
    simp [advanceRecv, body.window, RecvPtr.advance, Nat.add_assoc]
  case missing =>
    rw [mod_conn_conns_self, conns]
    simp only [advanceRecv, List.length_append]
    omega
  case waits =>
    rw [mod_conn_conns_self, conns]
    simp only [advanceRecv]
    omega
  case header =>
    simp only [lenPkgHeader, List.length_append]
    omega
  case bound => omega
  case buffer =>
    rw [mod_conn_conns_self, conns, same]
    exact ⟨pkg, filled, by omega, known⟩

theorem parsed_body_bytes {cfg : Config} {rest bytes : List Byte} {junk : Nat → Byte} {nowMs : Nat}
    (passes :
      (receiveStates cfg (storeBytes server c bytes) c bytes.length junk nowMs).2 = false)
    (body : HoldsBody server c rest)
    (fits : bytes.length ≤ (server.conns c).recv.irecvlen) :
    Parsed server (receiveStates cfg (storeBytes server c bytes) c bytes.length junk nowMs).1 c
      (rest ++ bytes) := by
  have missing := body.missing
  have bound := body.bound
  have header := body.header
  simp only [lenPkgHeader] at header
  have len : pkgLen (rest ++ bytes) = pkgLen rest := pkg_len_append (by omega)
  have conns : (storeBytes server c bytes).conns = server.conns := by rw [store_bytes_body body]
  have queue : (storeBytes server c bytes).msgRecvQueue = server.msgRecvQueue := by
    rw [store_bytes_body body]
  rw [receive_states_body cfg _ (by rw [conns]; exact body.states), conns] at passes ⊢
  split at passes
  case isTrue complete =>
    rw [if_pos complete]
    obtain ⟨pkg, filled, size, known⟩ := store_bytes_filled body fits
    have whole : pkg = rest ++ bytes := by
      apply take_all _ known
      rw [List.length_append]
      omega
    obtain ⟨sameQueue, rheap⟩ := flood_check_queue cfg (storeBytes server c bytes) c nowMs
    rw [bodyComplete] at passes ⊢
    dsimp only at passes ⊢
    rw [passes]
    apply parsed_plast (sameQueue.trans queue)
    · apply cut_package (by omega) (by omega)
      rw [List.length_append]
      omega
    · rw [rheap, flood_check_recv, conns, filled, whole]
  case isFalse incomplete =>
    rw [if_neg incomplete]
    have more : bytes.length < (server.conns c).recv.irecvlen := by omega
    exact parsed_of_waiting queue (Or.inr (holds_body_more body more))

theorem receive_states_passes {cfg : Config} (flood : cfg.floodAkEnable ≠ 1) (reco : Nat)
    (junk : Nat → Byte) (nowMs : Nat) :
    (receiveStates cfg server c reco junk nowMs).2 = false := by
  have parsed : (ngxWaitRequestHandlerProcP1 cfg server c junk nowMs).2 = false := by
    unfold ngxWaitRequestHandlerProcP1 floodCheck
    simp only [if_neg flood]
    split_ifs <;> rfl
  have completed : (bodyComplete cfg server c nowMs).2 = false := by
    rw [bodyComplete, floodCheck, if_neg flood]
  rcases receive_states_cases cfg server c reco junk nowMs with ⟨stat, same⟩ | ⟨-, same⟩ | ⟨-, same⟩
  · rw [same]
  · rw [same, parsed]
  · rw [same, completed]

theorem read_request_handler_data (cfg : Config) (bytes : List Byte)
    (opened : (server.conns c).fd ≠ -1) (junk : Nat → Byte) (nowMs : Nat) (now : Int) :
    ngxReadRequestHandler cfg server c (.data bytes) junk nowMs now =
      if (receiveStates cfg (storeBytes server c bytes) c bytes.length junk nowMs).2 = true then
        zdClosesocketProc cfg
          (receiveStates cfg (storeBytes server c bytes) c bytes.length junk nowMs).1 c now
      else (receiveStates cfg (storeBytes server c bytes) c bytes.length junk nowMs).1 := by
  unfold ngxReadRequestHandler recvproc
  simp only [if_neg opened]

theorem parsed_receive_states {cfg : Config} {rest bytes : List Byte} {junk : Nat → Byte}
    {nowMs : Nat}
    (passes :
      (receiveStates cfg (storeBytes server c bytes) c bytes.length junk nowMs).2 = false)
    (holding : Holding server c rest)
    (size : (server.conns c).recv.dataHeadInfo.length = dataBufsize)
    (fits : bytes.length ≤ (server.conns c).recv.irecvlen) :
    Parsed server (receiveStates cfg (storeBytes server c bytes) c bytes.length junk nowMs).1 c
      (rest ++ bytes) := by
  rcases holding with head | body
  · exact parsed_head_bytes passes head size fits
  · exact parsed_body_bytes passes body fits

end Receive

end NgxServer.Reassembly
