import NgxServer.Comm

/-!
# `CCRC32`

A transcription of `ngx_c_crc32.cxx`: the reflection helper, the table that
the constructor fills, and the table-driven checksum. All values are the
32-bit patterns of `unsigned int`.
-/

namespace NgxServer.Crc32

open NgxServer.Comm

set_option autoImplicit false

def ulPolynomial : BitVec 32 := 0x04c11db7

/-- One pass of the loop in `Reflect`: `step` is the loop variable less one. -/
def reflectStep (ch : Nat) (cursor : BitVec 32 × BitVec 32) (step : Nat) :
    BitVec 32 × BitVec 32 :=
  (cursor.1 >>> 1,
    if cursor.1 &&& 1 ≠ 0 then cursor.2 ||| ((1 : BitVec 32) <<< (ch - (step + 1)))
    else cursor.2)

/-- `Reflect(ref, ch)`: swaps bit 0 with bit `ch - 1`, bit 1 with bit
`ch - 2`, and so on. -/
def reflect (ref : BitVec 32) (ch : Nat) : BitVec 32 :=
  ((List.range ch).foldl (reflectStep ch) (ref, 0)).2

def divideStep (entry : BitVec 32) : BitVec 32 :=
  (entry <<< 1) ^^^
    (if entry &&& ((1 : BitVec 32) <<< 31) ≠ 0 then ulPolynomial else 0)

/-- `crc32_table[index]` after `Init_CRC32_Table`. -/
def crc32Table (index : Byte) : BitVec 32 :=
  reflect (Nat.iterate divideStep 8 (reflect (index.setWidth 32) 8 <<< 24)) 32

def crcStep (crc : BitVec 32) (byte : Byte) : BitVec 32 :=
  (crc >>> 8) ^^^ crc32Table (crc.setWidth 8 ^^^ byte)

def getCrc (buffer : List Byte) : BitVec 32 :=
  buffer.foldl crcStep 0xffffffff ^^^ 0xffffffff

/-- The check value of CRC-32 on the digits 1 to 9. -/
example : getCrc [0x31, 0x32, 0x33, 0x34, 0x35, 0x36, 0x37, 0x38, 0x39] = 0xcbf43926 := by
  decide

end NgxServer.Crc32
