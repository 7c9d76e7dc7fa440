import NgxServer.Comm

/-!
# The reader of the test client

`RecvCommonData` of the client reads one package: the header in one loop, the
body in another. Both loops wait for a number of bytes that may come in any
pieces. However the network cuts a stream of packages, the calls return them
one after the other and leave the rest of the stream alone.
-/

namespace NgxServer.ClientReader

open NgxServer.Comm

set_option autoImplicit false

def socketError : Int := -1

/-- A connected socket: the bytes that are still to come, and how many of them the `n`-th
call of `recv` gets. When there are no more, `recv` returns 0, or `SOCKET_ERROR` if the
connection is broken. -/
structure Sock where
  stream : List Byte
  cut : Nat → Nat
  calls : Nat
  broken : Bool

/-- `recv(sock, buf, len, 0)`: between one and `len` bytes. -/
def recv (sock : Sock) (len : Int) : Int × List Byte × Sock :=
  if len < 0 then (socketError, [], sock)
  else if sock.stream = [] then (if sock.broken then socketError else 0, [], sock)
  else
    let bytes := sock.stream.take (max 1 (min (sock.cut sock.calls) len.toNat))
    (bytes.length, bytes,
      { sock with stream := sock.stream.drop bytes.length, calls := sock.calls + 1 })

structure Reader where
  sock : Sock
  precvBuffer : List Byte

def recvAt (reader : Reader) (ptmpbuf : Nat) (len : Int) : Int × Reader :=
  let (bytes, content, sock) := recv reader.sock len
  (bytes, { sock := sock, precvBuffer := overwrite reader.precvBuffer ptmpbuf content })

def failed (bytes : Int) : Bool := bytes == socketError || bytes == 0

/-- The loop at `contrecv2`: `none` if it is still receiving after `rounds` rounds. -/
def contrecv2 : (rounds : Nat) → Reader → (ptmpbuf : Nat) → (allowbytes rbytes : Int) →
    Option (Int × Reader)
  | 0, _, _, _, _ => none
  | rounds + 1, reader, ptmpbuf, allowbytes, rbytes =>
      let (bytes, received) := recvAt reader ptmpbuf allowbytes
      if failed bytes then some (socketError, received)
      else if bytes < allowbytes then
        contrecv2 rounds received (ptmpbuf + bytes.toNat) (allowbytes - bytes) (rbytes + bytes)
      else some (rbytes + bytes, received)

def recvqita (reader : Reader) (rbytes : Int) : Option (Int × Reader) :=
  let iLen := pkgLen reader.precvBuffer
  if iLen = lenPkgHeader then some (iLen, reader)
  else
    contrecv2 (iLen + 1) reader lenPkgHeader ((iLen : Int) - lenPkgHeader) rbytes

def contrecvhead : (rounds : Nat) → Reader → (ptmpbuf : Nat) → (allowbytes bytes rbytes : Int) →
    Option (Int × Reader)
  | 0, _, _, _, _, _ => none
  | rounds + 1, reader, ptmpbuf, allowbytes, bytes, rbytes =>
      let allowed := allowbytes - bytes
      let moved := ptmpbuf + bytes.toNat
      let (more, received) := recvAt reader moved allowed
      if failed more then some (socketError, received)
      else if more < allowed then
        contrecvhead rounds received moved allowed more (rbytes + more)
      else recvqita received (rbytes + more)

def recvCommonData (reader : Reader) : Option (Int × Reader) :=
  let (bytes, received) := recvAt reader 0 lenPkgHeader
  if failed bytes then some (socketError, received)
  else if bytes < lenPkgHeader then
    contrecvhead lenPkgHeader received 0 lenPkgHeader bytes bytes
  else recvqita received bytes

/-- Receives until `missing` bytes are there, and goes on with `next`. -/
def gather (next : Reader → Int → Option (Int × Reader)) :
    (rounds : Nat) → Reader → (ptmpbuf : Nat) → (missing rbytes : Int) → Option (Int × Reader)
  | 0, _, _, _, _ => none
  | rounds + 1, reader, ptmpbuf, missing, rbytes =>
      let (bytes, received) := recvAt reader ptmpbuf missing
      if failed bytes then some (socketError, received)
      else if bytes < missing then
        gather next rounds received (ptmpbuf + bytes.toNat) (missing - bytes) (rbytes + bytes)
      else next received (rbytes + bytes)

theorem contrecv2_eq (rounds : Nat) (reader : Reader) (ptmpbuf : Nat) (allowbytes rbytes : Int) :
    contrecv2 rounds reader ptmpbuf allowbytes rbytes =
      gather (fun received total => some (total, received)) rounds reader ptmpbuf allowbytes
        rbytes := by
  induction rounds generalizing reader ptmpbuf allowbytes rbytes with
  | zero => rfl
  | succ rounds ih =>
      rw [contrecv2, gather]
      simp only [ih]

theorem contrecvhead_eq (rounds : Nat) (reader : Reader) (ptmpbuf : Nat)
    (allowbytes bytes rbytes : Int) :
    contrecvhead rounds reader ptmpbuf allowbytes bytes rbytes =
      gather recvqita rounds reader (ptmpbuf + bytes.toNat) (allowbytes - bytes) rbytes := by
  induction rounds generalizing reader ptmpbuf allowbytes bytes rbytes with
  | zero => rfl
  | succ rounds ih =>
      rw [contrecvhead, gather]
      simp only [ih]

theorem recv_common_data_eq (reader : Reader) :
    recvCommonData reader =
      gather recvqita (lenPkgHeader + 1) reader 0 lenPkgHeader 0 := by
  rw [recvCommonData, gather]
  simp only [contrecvhead_eq, zero_add]

theorem overwrite_overwrite {target first : List Byte} {offset : Nat}
    (fits : offset + first.length ≤ target.length) (second : List Byte) :
    overwrite (overwrite target offset first) (offset + first.length) second =
      overwrite target offset (first ++ second) := by
  have size : (target.take offset ++ first).length = offset + first.length := by
    rw [List.length_append, List.length_take]
    omega
  have later : (overwrite target offset first).drop (offset + first.length + second.length) =
      target.drop (offset + (first ++ second).length) := by
    rw [overwrite, ← List.drop_drop, ← size, List.drop_left, List.drop_drop, size,
      List.length_append, Nat.add_assoc]
  rw [overwrite, later, overwrite_take fits, overwrite, List.append_assoc (target.take offset)]

def Reader.after (reader : Reader) (ptmpbuf count calls : Nat) : Reader where
  sock := { reader.sock with stream := reader.sock.stream.drop count, calls := calls }
  precvBuffer := overwrite reader.precvBuffer ptmpbuf (reader.sock.stream.take count)

theorem after_length {reader : Reader} {ptmpbuf count : Nat}
    (room : ptmpbuf + count ≤ reader.precvBuffer.length) (calls : Nat) :
    (reader.after ptmpbuf count calls).precvBuffer.length = reader.precvBuffer.length := by
  apply overwrite_length
  rw [List.length_take]
  omega

theorem after_after {reader : Reader} {ptmpbuf first : Nat}
    (arrives : first ≤ reader.sock.stream.length)
    (room : ptmpbuf + first ≤ reader.precvBuffer.length) (second calls later : Nat) :
    (reader.after ptmpbuf first calls).after (ptmpbuf + first) second later =
      reader.after ptmpbuf (first + second) later := by
  have size : (reader.sock.stream.take first).length = first := by
    rw [List.length_take]
    omega
  have fits : ptmpbuf + (reader.sock.stream.take first).length ≤ reader.precvBuffer.length := by
    rw [size]
    exact room
  have joined := overwrite_overwrite fits ((reader.sock.stream.drop first).take second)
  rw [size] at joined
  simp only [Reader.after, joined, List.drop_drop, List.take_add]

theorem not_failed {count : Nat} (some : 0 < count) : failed count = false := by
  simp only [failed, socketError, Bool.or_eq_false_iff, beq_eq_false_iff_ne]
  omega

theorem recv_at_some {reader : Reader} (ptmpbuf : Nat) {missing : Nat}
    (arrives : reader.sock.stream ≠ []) (asks : 0 < missing) :
    ∃ count, 0 < count ∧ count ≤ missing ∧ count ≤ reader.sock.stream.length ∧
      recvAt reader ptmpbuf missing =
        ((count : Int), reader.after ptmpbuf count (reader.sock.calls + 1)) := by
  have some : 0 < reader.sock.stream.length := List.length_pos_iff.mpr arrives
  generalize bound : max 1 (min (reader.sock.cut reader.sock.calls) missing) = most
  refine ⟨min most reader.sock.stream.length, by omega, by omega, by omega, ?_⟩
  have size : (reader.sock.stream.take most).length = min most reader.sock.stream.length :=
    List.length_take
  have same : reader.sock.stream.take most =
      reader.sock.stream.take (min most reader.sock.stream.length) := by
    rw [List.take_eq_take_min]
  rw [recvAt, recv, if_neg (by omega), if_neg arrives]
  simp only [Int.toNat_natCast, bound]
  rw [size, same]
  rfl

theorem recv_at_none {reader : Reader} (ptmpbuf : Nat) (ended : reader.sock.stream = [])
    (missing : Nat) : failed (recvAt reader ptmpbuf missing).1 = true := by
  rw [recvAt, recv, if_neg (by omega), if_pos ended]
  cases reader.sock.broken <;> rfl

theorem gather_fills (next : Reader → Int → Option (Int × Reader)) (rounds : Nat) (reader : Reader)
    (ptmpbuf missing : Nat) (rbytes : Int) (enough : missing ≤ rounds) (asks : 0 < missing)
    (arrives : missing ≤ reader.sock.stream.length)
    (room : ptmpbuf + missing ≤ reader.precvBuffer.length) :
    ∃ calls, gather next rounds reader ptmpbuf missing rbytes =
      next (reader.after ptmpbuf missing calls) (rbytes + missing) := by
  induction rounds generalizing reader ptmpbuf missing rbytes with
  | zero => omega
  | succ rounds ih =>
      have more : reader.sock.stream ≠ [] := List.length_pos_iff.mp (by omega)
      obtain ⟨count, some, most, there, same⟩ := recv_at_some ptmpbuf more asks
      rw [gather, same]
      dsimp only
      rw [not_failed some, if_neg Bool.false_ne_true]
      by_cases short : count < missing
      · have left : (missing : Int) - count = ((missing - count : Nat) : Int) := by omega
        obtain ⟨calls, rest⟩ := ih (reader.after ptmpbuf count (reader.sock.calls + 1))
          (ptmpbuf + count) (missing - count) (rbytes + count) (by omega) (by omega)
          (by simp only [Reader.after, List.length_drop]; omega)
          (by rw [after_length (by omega)]; omega)
        refine ⟨calls, ?_⟩
        rw [if_pos (by omega), left, Int.toNat_natCast, rest, after_after there (by omega)]
        congr 1
        · congr 1
          omega
        · omega
      · have whole : count = missing := by omega
        rw [if_neg (by omega), whole]
        exact ⟨_, rfl⟩

/-- A stream that ends too early is an error: each round receives a byte of it, so the
rounds do not run out. -/
theorem gather_fails (next : Reader → Int → Option (Int × Reader)) (rounds : Nat)
    (reader : Reader) (ptmpbuf missing : Nat) (rbytes : Int) (enough : missing ≤ rounds)
    (short : reader.sock.stream.length < missing) :
    ∃ received, gather next rounds reader ptmpbuf missing rbytes =
      some (socketError, received) := by
  induction rounds generalizing reader ptmpbuf missing rbytes with
  | zero => omega
  | succ rounds ih =>
      rw [gather]
      by_cases ended : reader.sock.stream = []
      · have failure := recv_at_none ptmpbuf ended missing
        dsimp only
        rw [failure, if_pos rfl]
        exact ⟨_, rfl⟩
      · have wanted : 0 < missing := by omega
        obtain ⟨count, some, most, there, same⟩ := recv_at_some ptmpbuf ended wanted
        have left : (missing : Int) - count = ((missing - count : Nat) : Int) := by omega
        rw [same]
        dsimp only
        rw [not_failed some, if_neg Bool.false_ne_true, if_pos (by omega), left]
        exact ih _ _ _ _ (by omega) (by simp only [Reader.after, List.length_drop]; omega)

/-- A loop that asks for something returns, if what comes after it does. -/
theorem gather_returns {next : Reader → Int → Option (Int × Reader)}
    (returns : ∀ received total, ∃ result, next received total = some result) (rounds : Nat)
    (reader : Reader) (ptmpbuf missing : Nat) (rbytes : Int) (enough : missing ≤ rounds)
    (asks : 0 < missing) :
    ∃ result, gather next rounds reader ptmpbuf missing rbytes = some result := by
  induction rounds generalizing reader ptmpbuf missing rbytes with
  | zero => omega
  | succ rounds ih =>
      rw [gather]
      by_cases ended : reader.sock.stream = []
      · have failure := recv_at_none ptmpbuf ended missing
        dsimp only
        rw [failure, if_pos rfl]
        exact ⟨_, rfl⟩
      · obtain ⟨count, some, most, there, same⟩ := recv_at_some ptmpbuf ended asks
        rw [same]
        dsimp only
        rw [not_failed some, if_neg Bool.false_ne_true]
        by_cases short : count < missing
        · have left : (missing : Int) - count = ((missing - count : Nat) : Int) := by omega
          rw [if_pos (by omega), left]
          exact ih _ _ _ _ (by omega) (by omega)
        · rw [if_neg (by omega)]
          exact returns _ _

theorem recvqita_returns (reader : Reader) (rbytes : Int) :
    ∃ result, recvqita reader rbytes = some result := by
  rw [recvqita]
  by_cases alone : pkgLen reader.precvBuffer = lenPkgHeader
  · rw [if_pos alone]
    exact ⟨_, rfl⟩
  rw [if_neg alone, contrecv2_eq]
  by_cases below : pkgLen reader.precvBuffer < lenPkgHeader
  · -- `recv` refuses a negative length
    have refused : ((pkgLen reader.precvBuffer : Int) - lenPkgHeader) < 0 := by omega
    rw [gather, recvAt, recv, if_pos refused]
    exact ⟨_, rfl⟩
  · have missing : (pkgLen reader.precvBuffer : Int) - lenPkgHeader =
        ((pkgLen reader.precvBuffer - lenPkgHeader : Nat) : Int) := by
      omega
    rw [missing]
    exact gather_returns (fun received total => ⟨_, rfl⟩) _ _ _ _ _ (by omega) (by omega)

/-- A call returns whatever the peer sends, be it a package or not. -/
theorem recv_common_data_returns (reader : Reader) :
    ∃ result, recvCommonData reader = some result := by
  rw [recv_common_data_eq]
  exact gather_returns recvqita_returns _ _ _ _ _ (Nat.le_succ _) (by decide)

structure Framed (packet : List Byte) : Prop where
  header : lenPkgHeader ≤ packet.length
  length : pkgLen packet = packet.length

theorem framed_bound {packet : List Byte} (framed : Framed packet) : packet.length ≤ 65535 := by
  have first := (packet.getD 0 0).isLt
  have second := (packet.getD 1 0).isLt
  have length := framed.length
  simp only [pkgLen, ntohs] at length
  omega

section Packet

variable {reader : Reader} {packet : List Byte}

/-- When the header has arrived the client knows the length of the package. -/
theorem after_header (framed : Framed packet) {count : Nat} {rest : List Byte}
    (header : lenPkgHeader ≤ count) (stream : reader.sock.stream = packet.take count ++ rest)
    (calls : Nat) :
    pkgLen (reader.after 0 lenPkgHeader calls).precvBuffer = packet.length := by
  have covers := framed.header
  simp only [lenPkgHeader] at covers header
  have first : reader.sock.stream.take lenPkgHeader = packet.take lenPkgHeader := by
    rw [stream, List.take_append_of_le_length
      (by rw [List.length_take]; simp only [lenPkgHeader]; omega), List.take_take]
    congr 1
    simp only [lenPkgHeader]
    omega
  have size : (packet.take lenPkgHeader).length = lenPkgHeader := by
    rw [List.length_take]
    simp only [lenPkgHeader]
    omega
  simp only [Reader.after, first, overwrite, List.take_zero, List.nil_append]
  rw [pkg_len_append (by rw [size]; decide), pkg_len_take (by decide), framed.length]

theorem recv_packet (framed : Framed packet) (room : reader.precvBuffer.length = 100000)
    {rest : List Byte} (stream : reader.sock.stream = packet ++ rest) :
    ∃ calls, recvCommonData reader =
      some ((packet.length : Int),
        { sock := { reader.sock with stream := rest, calls := calls }
          precvBuffer := packet ++ reader.precvBuffer.drop packet.length }) := by
  have header := framed.header
  have bound := framed_bound framed
  simp only [lenPkgHeader] at header
  have length : reader.sock.stream.length = packet.length + rest.length := by
    rw [stream, List.length_append]
  have whole : ∀ calls, reader.after 0 packet.length calls =
      { sock := { reader.sock with stream := rest, calls := calls }
        precvBuffer := packet ++ reader.precvBuffer.drop packet.length } := by
    intro calls
    simp [Reader.after, stream, overwrite]
  obtain ⟨calls, received⟩ := gather_fills recvqita (lenPkgHeader + 1) reader 0 lenPkgHeader 0
    (Nat.le_succ _) (by decide) (by simp only [lenPkgHeader]; omega)
    (by simp only [lenPkgHeader]; omega)
  have known : pkgLen (reader.after 0 lenPkgHeader calls).precvBuffer = packet.length :=
    after_header framed framed.header (by rw [List.take_length]; exact stream) calls
  rw [recv_common_data_eq, received, recvqita, known]
  dsimp only
  by_cases alone : packet.length = lenPkgHeader
  · rw [if_pos alone, ← alone, whole]
    exact ⟨calls, rfl⟩
  · rw [if_neg alone, contrecv2_eq]
    have missing : (packet.length : Int) - lenPkgHeader =
        ((packet.length - lenPkgHeader : Nat) : Int) := by
      simp only [lenPkgHeader]
      omega
    simp only [lenPkgHeader] at alone
    obtain ⟨later, filled⟩ := gather_fills (fun received total => some (total, received))
      (packet.length + 1) (reader.after 0 lenPkgHeader calls) lenPkgHeader
      (packet.length - lenPkgHeader) (0 + (lenPkgHeader : Int)) (by omega)
      (by simp only [lenPkgHeader]; omega)
      (by simp only [Reader.after, List.length_drop, lenPkgHeader]; omega)
      (by rw [after_length (by simp only [lenPkgHeader]; omega)]; simp only [lenPkgHeader]; omega)
    have covered : lenPkgHeader ≤ reader.sock.stream.length := by
      simp only [lenPkgHeader]
      omega
    have fits : 0 + lenPkgHeader ≤ reader.precvBuffer.length := by
      simp only [lenPkgHeader]
      omega
    have joined : (reader.after 0 lenPkgHeader calls).after lenPkgHeader
        (packet.length - lenPkgHeader) later = reader.after 0 packet.length later := by
      have twice := after_after covered fits (packet.length - lenPkgHeader) calls later
      rwa [Nat.zero_add, Nat.add_sub_cancel' framed.header] at twice
    rw [missing, filled, joined, whole]
    have total : 0 + (lenPkgHeader : Int) + ((packet.length - lenPkgHeader : Nat) : Int) =
        packet.length := by
      simp only [lenPkgHeader]
      omega
    rw [total]
    exact ⟨later, rfl⟩

theorem recv_truncated (framed : Framed packet) (room : reader.precvBuffer.length = 100000)
    {count : Nat} (inside : count < packet.length)
    (stream : reader.sock.stream = packet.take count) :
    ∃ received, recvCommonData reader = some (socketError, received) := by
  have bound := framed_bound framed
  have length : reader.sock.stream.length = count := by
    rw [stream, List.length_take]
    omega
  rw [recv_common_data_eq]
  by_cases short : count < lenPkgHeader
  · exact gather_fails recvqita _ reader 0 lenPkgHeader 0 (Nat.le_succ _) (by omega)
  · obtain ⟨calls, received⟩ := gather_fills recvqita (lenPkgHeader + 1) reader 0 lenPkgHeader 0
      (Nat.le_succ _) (by decide) (by omega) (by simp only [lenPkgHeader]; omega)
    have known : pkgLen (reader.after 0 lenPkgHeader calls).precvBuffer = packet.length :=
      after_header framed (Nat.not_lt.mp short) (by rw [List.append_nil]; exact stream) calls
    have missing : (packet.length : Int) - lenPkgHeader =
        ((packet.length - lenPkgHeader : Nat) : Int) := by
      omega
    rw [received, recvqita, known, if_neg (by omega), contrecv2_eq, missing]
    apply gather_fails _ _ _ _ _ _ (by omega)
    simp only [Reader.after, List.length_drop]
    omega

end Packet

structure Call where
  result : Int
  precvBuffer : List Byte
  left : List Byte
  deriving DecidableEq, Repr

def recvPackets : Sock → List (List Byte) → Option (List Call × Sock)
  | sock, [] => some ([], sock)
  | sock, buffer :: more => do
      let (result, reader) ← recvCommonData { sock := sock, precvBuffer := buffer }
      let (calls, last) ← recvPackets reader.sock more
      return ({ result := result, precvBuffer := reader.precvBuffer,
                left := reader.sock.stream } :: calls, last)

/-- Each call returns the next package, at the start of its buffer, and takes nothing of the
ones after it. -/
def packetCalls (rest : List Byte) : List (List Byte) → List (List Byte) → List Call
  | packet :: packets, buffer :: more =>
      { result := packet.length
        precvBuffer := packet ++ buffer.drop packet.length
        left := packets.flatten ++ rest } :: packetCalls rest packets more
  | _, _ => []

theorem recv_packets {packets : List (List Byte)} (framed : ∀ packet ∈ packets, Framed packet)
    {buffers : List (List Byte)} (count : buffers.length = packets.length)
    (room : ∀ buffer ∈ buffers, buffer.length = 100000) {sock : Sock} {rest : List Byte}
    (stream : sock.stream = packets.flatten ++ rest) :
    ∃ last, recvPackets sock buffers = some (packetCalls rest packets buffers, last) ∧
      last.stream = rest := by
  induction packets generalizing buffers sock with
  | nil =>
      rw [List.length_eq_zero_iff.mp count]
      exact ⟨sock, rfl, stream⟩
  | cons packet packets ih =>
      cases buffers with
      | nil => cases count
      | cons buffer more =>
          rw [List.flatten_cons, List.append_assoc] at stream
          obtain ⟨calls, received⟩ := recv_packet (framed packet (List.mem_cons_self ..))
            (room buffer (List.mem_cons_self ..)) (show ({ sock := sock, precvBuffer := buffer } :
              Reader).sock.stream = packet ++ (packets.flatten ++ rest) from stream)
          have left : ({ sock with stream := packets.flatten ++ rest, calls := calls } :
              Sock).stream = packets.flatten ++ rest := rfl
          obtain ⟨last, later, ended⟩ := ih
            (fun other more => framed other (List.mem_cons_of_mem _ more))
            (Nat.succ.inj count) (fun other more => room other (List.mem_cons_of_mem _ more)) left
          rw [recvPackets, received]
          dsimp only [Option.bind_eq_bind, Option.bind_some]
          rw [later]
          exact ⟨last, rfl, ended⟩

/-- However `recv` cuts a stream of packages, the calls of `RecvCommonData` return them one by
one, and a stream that ends inside a package is an error. -/
theorem client_reader_exact {packets : List (List Byte)}
    (framed : ∀ packet ∈ packets, Framed packet) {buffers : List (List Byte)}
    (count : buffers.length = packets.length)
    (room : ∀ buffer ∈ buffers, buffer.length = 100000) {sock : Sock} {rest : List Byte}
    (stream : sock.stream = packets.flatten ++ rest) :
    ∃ last, recvPackets sock buffers = some (packetCalls rest packets buffers, last) ∧
      last.stream = rest ∧
      ∀ packet inside buffer, Framed packet → inside < packet.length →
        rest = packet.take inside → buffer.length = 100000 →
        ∃ received, recvCommonData { sock := last, precvBuffer := buffer } =
          some (socketError, received) := by
  obtain ⟨last, calls, ended⟩ := recv_packets framed count room stream
  refine ⟨last, calls, ended, fun packet inside buffer whole fewer same size => ?_⟩
  exact recv_truncated whole size fewer (ended.trans same)

def twoPackets : List (List Byte) := [[0, 8, 0, 0, 0, 0, 0, 0], [0, 9, 0, 5, 1, 2, 3, 4, 5]]

def recvBuffers : List (List Byte) := List.replicate 2 (List.replicate 100000 0)

def cutSock : Sock where
  stream := [0, 8, 0, 0, 0, 0, 0, 0, 0, 9, 0, 5, 1, 2, 3, 4, 5, 0, 8]
  cut := fun _ => 3
  calls := 0
  broken := false

theorem client_reader_exact_sample :
    ∃ last, recvPackets cutSock recvBuffers =
        some (packetCalls [0, 8] twoPackets recvBuffers, last) ∧
      ∃ received, recvCommonData { sock := last, precvBuffer := List.replicate 100000 0 } =
        some (socketError, received) := by
  have framed : ∀ packet ∈ twoPackets, Framed packet := by
    intro packet listed
    rcases List.mem_pair.mp listed with rfl | rfl
    · exact ⟨by decide, by decide⟩
    · exact ⟨by decide, by decide⟩
  have count : recvBuffers.length = twoPackets.length := List.length_replicate
  have room : ∀ buffer ∈ recvBuffers, buffer.length = 100000 := by
    intro buffer listed
    rw [List.eq_of_mem_replicate listed, List.length_replicate]
  have stream : cutSock.stream = twoPackets.flatten ++ [0, 8] := rfl
  obtain ⟨last, calls, -, truncated⟩ := client_reader_exact framed count room stream
  have next : Framed [0, 8, 0, 0, 0, 0, 0, 0] := framed _ (List.mem_cons_self ..)
  exact ⟨last, calls, truncated _ 2 _ next (by decide) rfl List.length_replicate⟩

end NgxServer.ClientReader
