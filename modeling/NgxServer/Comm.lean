import Mathlib.Data.List.Basic
import Mathlib.Data.BitVec

/-!
# Wire formats

`ngx_comm.h` and `ngx_logiccomm.h`: the package header that client and
server exchange, the message header that the server puts in front of every
package it holds, and the sizes and command codes both sides use. Fields are
read from and written to the bytes of a package, in network order.
-/

namespace NgxServer.Comm

set_option autoImplicit false

abbrev Byte := BitVec 8

/-- Whether a byte occurs is decided by comparing, whatever else a module imports. -/
instance decidableByteMem (c : Byte) (string : List Byte) : Decidable (c ∈ string) :=
  List.instDecidableMemOfLawfulBEq c string

abbrev ConnId := Nat

/-- Ghost: one successful accept, from its issue of a connection object to
the closing of that connection. -/
abbrev OccId := Nat

def pkgMaxLength : Nat := 30000

def dataBufsize : Nat := 20

/-- `m_iLenPkgHeader = sizeof(COMM_PKG_HEADER)`, packed to one byte. -/
def lenPkgHeader : Nat := 8

/-- `m_iLenMsgHeader = sizeof(STRUC_MSG_HEADER)`: a pointer and a `uint64_t`. -/
def lenMsgHeader : Nat := 16

def cmdPing : Nat := 0
def cmdRegister : Nat := 5
def cmdLogin : Nat := 6

def sizeofRegister : Nat := 4 + 56 + 40
def sizeofLogin : Nat := 56 + 40

def htons (value : Nat) : List Byte :=
  [BitVec.ofNat 8 (value / 256), BitVec.ofNat 8 value]

def ntohs (high low : Byte) : Nat := high.toNat * 256 + low.toNat

def htonl (value : BitVec 32) : List Byte :=
  [BitVec.ofNat 8 (value.toNat / 2 ^ 24), BitVec.ofNat 8 (value.toNat / 2 ^ 16),
    BitVec.ofNat 8 (value.toNat / 2 ^ 8), BitVec.ofNat 8 value.toNat]

def ntohl (first second third fourth : Byte) : BitVec 32 :=
  BitVec.ofNat 32 (first.toNat * 2 ^ 24 + second.toNat * 2 ^ 16 +
    third.toNat * 2 ^ 8 + fourth.toNat)

@[simp] theorem htons_length (value : Nat) : (htons value).length = 2 := rfl

@[simp] theorem htonl_length (value : BitVec 32) : (htonl value).length = 4 := rfl

theorem ntohs_htons (value : Nat) (bound : value < 65536) :
    ntohs (BitVec.ofNat 8 (value / 256)) (BitVec.ofNat 8 value) = value := by
  simp only [ntohs, BitVec.toNat_ofNat]
  omega

theorem htons_ntohs (high low : Byte) : htons (ntohs high low) = [high, low] := by
  have highBound := high.isLt
  have lowBound := low.isLt
  have highByte : BitVec.ofNat 8 (ntohs high low / 256) = high := by
    apply BitVec.eq_of_toNat_eq
    simp only [ntohs, BitVec.toNat_ofNat]
    omega
  have lowByte : BitVec.ofNat 8 (ntohs high low) = low := by
    apply BitVec.eq_of_toNat_eq
    simp only [ntohs, BitVec.toNat_ofNat]
    omega
  simp only [htons, highByte, lowByte]

theorem ntohl_htonl (value : BitVec 32) :
    ntohl (BitVec.ofNat 8 (value.toNat / 2 ^ 24)) (BitVec.ofNat 8 (value.toNat / 2 ^ 16))
      (BitVec.ofNat 8 (value.toNat / 2 ^ 8)) (BitVec.ofNat 8 value.toNat) = value := by
  apply BitVec.eq_of_toNat_eq
  have bound := value.isLt
  simp only [ntohl, BitVec.toNat_ofNat]
  omega

theorem htonl_ntohl (first second third fourth : Byte) :
    htonl (ntohl first second third fourth) = [first, second, third, fourth] := by
  have bounds := And.intro (And.intro first.isLt second.isLt) (And.intro third.isLt fourth.isLt)
  have value : (ntohl first second third fourth).toNat =
      first.toNat * 2 ^ 24 + second.toNat * 2 ^ 16 + third.toNat * 2 ^ 8 + fourth.toNat := by
    simp only [ntohl, BitVec.toNat_ofNat]
    omega
  simp only [htonl, value, List.cons.injEq, and_true]
  refine ⟨?_, ?_, ?_, ?_⟩ <;>
  · apply BitVec.eq_of_toNat_eq
    simp only [BitVec.toNat_ofNat]
    omega

def pkgLen (pkg : List Byte) : Nat := ntohs (pkg.getD 0 0) (pkg.getD 1 0)

def msgCode (pkg : List Byte) : Nat := ntohs (pkg.getD 2 0) (pkg.getD 3 0)

/-- `ntohl(pPkgHeader->crc32)`. It is zero exactly when the field is. -/
def crc32 (pkg : List Byte) : BitVec 32 :=
  ntohl (pkg.getD 4 0) (pkg.getD 5 0) (pkg.getD 6 0) (pkg.getD 7 0)

def pkgBody (pkg : List Byte) : List Byte := pkg.drop lenPkgHeader

def encodeHeader (len code : Nat) (crc : BitVec 32) : List Byte :=
  htons len ++ htons code ++ htonl crc

@[simp] theorem encode_header_length (len code : Nat) (crc : BitVec 32) :
    (encodeHeader len code crc).length = lenPkgHeader := rfl

section EncodeHeader

variable (len code : Nat) (crc : BitVec 32) (body : List Byte)

theorem pkg_len_encode (bound : len < 65536) :
    pkgLen (encodeHeader len code crc ++ body) = len := ntohs_htons len bound

theorem msg_code_encode (bound : code < 65536) :
    msgCode (encodeHeader len code crc ++ body) = code := ntohs_htons code bound

theorem crc32_encode : crc32 (encodeHeader len code crc ++ body) = crc := ntohl_htonl crc

theorem pkg_body_encode : pkgBody (encodeHeader len code crc ++ body) = body := rfl

end EncodeHeader

/-- Any package of at least header size is its header, re-encoded, and its
body. -/
theorem encode_header_of_fields {pkg : List Byte} (size : lenPkgHeader ≤ pkg.length) :
    encodeHeader (pkgLen pkg) (msgCode pkg) (crc32 pkg) ++ pkgBody pkg = pkg := by
  match pkg, size with
  | b0 :: b1 :: b2 :: b3 :: b4 :: b5 :: b6 :: b7 :: rest, _ =>
      have lenBytes : htons (pkgLen (b0 :: b1 :: b2 :: b3 :: b4 :: b5 :: b6 :: b7 :: rest)) =
          [b0, b1] := htons_ntohs b0 b1
      have codeBytes : htons (msgCode (b0 :: b1 :: b2 :: b3 :: b4 :: b5 :: b6 :: b7 :: rest)) =
          [b2, b3] := htons_ntohs b2 b3
      have crcBytes : htonl (crc32 (b0 :: b1 :: b2 :: b3 :: b4 :: b5 :: b6 :: b7 :: rest)) =
          [b4, b5, b6, b7] := htonl_ntohl b4 b5 b6 b7
      rw [encodeHeader, lenBytes, codeBytes, crcBytes]
      rfl

theorem pkg_len_take {pkg : List Byte} {count : Nat} (covers : 2 ≤ count) :
    pkgLen (pkg.take count) = pkgLen pkg := by
  simp only [pkgLen, List.getD_eq_getElem?_getD, List.getElem?_take]
  rw [if_pos (by omega), if_pos (by omega)]

theorem pkg_len_append {pkg more : List Byte} (covers : 2 ≤ pkg.length) :
    pkgLen (pkg ++ more) = pkgLen pkg := by
  simp only [pkgLen, List.getD_eq_getElem?_getD]
  rw [List.getElem?_append_left (by omega), List.getElem?_append_left (by omega)]

/-- `STRUC_MSG_HEADER`. The member `occ` is a ghost: the occupancy of `pConn`
at the moment the header was stamped. -/
structure MsgHeader where
  pConn : ConnId
  iCurrsequence : Nat
  occ : Option OccId
  deriving DecidableEq, Repr

structure MsgBuf where
  hdr : MsgHeader
  pkg : List Byte
  deriving DecidableEq, Repr

/-- A package as `SendNoBodyPkgToClient`, `_HandleRegister` and `_HandleLogIn`
build it: `pkgLen` is its real length. -/
def Sized (msg : MsgBuf) : Prop :=
  pkgLen msg.pkg = msg.pkg.length ∧ lenPkgHeader ≤ msg.pkg.length

instance (msg : MsgBuf) : Decidable (Sized msg) :=
  inferInstanceAs (Decidable (pkgLen msg.pkg = msg.pkg.length ∧ lenPkgHeader ≤ msg.pkg.length))

def overwrite (target : List Byte) (offset : Nat) (bytes : List Byte) : List Byte :=
  target.take offset ++ bytes ++ target.drop (offset + bytes.length)

theorem overwrite_length {target bytes : List Byte} {offset : Nat}
    (fits : offset + bytes.length ≤ target.length) :
    (overwrite target offset bytes).length = target.length := by
  simp only [overwrite, List.length_append, List.length_take, List.length_drop]
  omega

/-- What an overwrite that extends a known prefix leaves as known prefix. -/
theorem overwrite_take {target bytes : List Byte} {offset : Nat}
    (fits : offset + bytes.length ≤ target.length) :
    (overwrite target offset bytes).take (offset + bytes.length) =
      target.take offset ++ bytes := by
  have size : (target.take offset ++ bytes).length = offset + bytes.length := by
    simp only [List.length_append, List.length_take]
    omega
  rw [overwrite, List.take_append_of_le_length (by omega), List.take_of_length_le (by omega)]

end NgxServer.Comm
