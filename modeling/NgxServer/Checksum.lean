import NgxServer.Lib.ShiftRegister
import NgxServer.Logic

/-!
# What the checksum detects

The table of `CCRC32` holds eight steps of a shift register with the reflected
polynomial, so `Get_CRC` is the checksum that is defined bit by bit. A burst of
at most 32 bits therefore never leaves it unchanged, and the body that it hits
is dropped.
-/

namespace NgxServer.Checksum

open NgxServer.Comm NgxServer.State NgxServer.Crc32 NgxServer.Logic
open ShiftRegister (run advance divide pack)

set_option autoImplicit false

def reflectedPolynomial : BitVec 32 := 0xedb88320

def byteBits (byte : Byte) : List Bool := (List.range 8).map byte.getLsbD

/-- The bits of a buffer in the order in which the checksum consumes them. -/
def bitsOf (buffer : List Byte) : List Bool := buffer.flatMap byteBits

def bitwiseCrc (buffer : List Byte) : BitVec 32 :=
  ~~~ run reflectedPolynomial (BitVec.allOnes 32) (bitsOf buffer)

theorem get_single (place i : Nat) (inside : place < 32) :
    ((1 : BitVec 32) <<< place).getLsbD i = decide (i = place) := by
  rw [BitVec.getLsbD_shiftLeft, show (1 : BitVec 32) = 1#32 from rfl, BitVec.getLsbD_one]
  by_cases same : i = place
  · simp [same, inside]
  · rw [decide_eq_false same]
    simp only [Bool.and_eq_false_iff, decide_eq_false_iff_not, Bool.not_eq_false',
      decide_eq_true_iff]
    omega

theorem masked_bit (value : BitVec 32) (place : Nat) (inside : place < 32) :
    value &&& ((1 : BitVec 32) <<< place) ≠ 0 ↔ value.getLsbD place = true := by
  constructor
  · intro masked
    by_contra clear
    refine masked (BitVec.eq_of_getLsbD_eq fun i _ => ?_)
    rw [BitVec.getLsbD_and, get_single place i inside]
    refine Eq.trans ?_ BitVec.getLsbD_zero.symm
    by_cases same : i = place
    · rw [same, Bool.eq_false_of_not_eq_true clear, Bool.false_and]
    · rw [decide_eq_false same, Bool.and_false]
  · intro one masked
    have bit := congrArg (fun word : BitVec 32 => word.getLsbD place) masked
    rw [BitVec.getLsbD_and, get_single place place inside, one] at bit
    simp at bit

/-- After some rounds of `Reflect`, as many bits have been moved, from the top down. -/
theorem reflect_rounds (ref : BitVec 32) {ch : Nat} (width : ch ≤ 32) (count : Nat)
    (inside : count ≤ ch) :
    ((List.range count).foldl (reflectStep ch) (ref, 0)).1 = ref >>> count ∧
      ∀ i, ((List.range count).foldl (reflectStep ch) (ref, 0)).2.getLsbD i =
        (decide (ch - count ≤ i ∧ i < ch) && ref.getLsbD (ch - 1 - i)) := by
  induction count with
  | zero =>
      refine ⟨(BitVec.ushiftRight_zero ref).symm, fun i => ?_⟩
      rw [decide_eq_false (by omega)]
      simp
  | succ count ih =>
      obtain ⟨moved, bits⟩ := ih (by omega)
      rw [List.range_succ, List.foldl_append, List.foldl_cons, List.foldl_nil]
      generalize (List.range count).foldl (reflectStep ch) (ref, 0) = cursor at moved bits
      refine ⟨by rw [reflectStep, moved, ← BitVec.shiftRight_add], fun i => ?_⟩
      have tested : cursor.1 &&& 1 ≠ 0 ↔ ref.getLsbD count = true := by
        have first := masked_bit cursor.1 0 (by decide)
        rw [BitVec.shiftLeft_zero, moved, BitVec.getLsbD_ushiftRight, Nat.add_zero] at first
        rw [moved]
        exact first
      have added : (reflectStep ch cursor count).2.getLsbD i =
          (cursor.2.getLsbD i || (ref.getLsbD count && decide (i = ch - (count + 1)))) := by
        rw [reflectStep]
        dsimp only
        cases one : ref.getLsbD count with
        | true =>
            rw [if_pos (tested.mpr one), BitVec.getLsbD_or, get_single _ _ (by omega),
              Bool.true_and]
        | false =>
            have clear : ¬ cursor.1 &&& 1 ≠ 0 := by
              rw [tested, one]
              exact Bool.false_ne_true
            rw [if_neg clear, Bool.false_and, Bool.or_false]
      rw [added, bits]
      by_cases here : i = ch - (count + 1)
      · have place : ch - 1 - i = count := by omega
        rw [place, decide_eq_true here, decide_eq_false (by omega), decide_eq_true (by omega)]
        simp
      · rw [decide_eq_false here, Bool.and_false, Bool.or_false]
        congr 2
        rw [eq_iff_iff]
        omega

theorem reflect_bits (ref : BitVec 32) {ch : Nat} (width : ch ≤ 32) (i : Nat) :
    (reflect ref ch).getLsbD i = (decide (i < ch) && ref.getLsbD (ch - 1 - i)) := by
  have bits := (reflect_rounds ref width ch le_rfl).2 i
  rw [reflect, bits]
  simp

theorem reflect_word (ref : BitVec 32) : reflect ref 32 = ref.reverse := by
  apply BitVec.eq_of_getLsbD_eq
  intro i inside
  rw [reflect_bits ref le_rfl, BitVec.getLsbD_reverse, BitVec.getMsbD_eq_getLsbD]

theorem reflect_byte (index : Byte) :
    reflect (index.setWidth 32) 8 <<< 24 = (index.setWidth 32 : BitVec 32).reverse := by
  apply BitVec.eq_of_getLsbD_eq
  intro i inside
  rw [BitVec.getLsbD_shiftLeft, reflect_bits _ (by decide), BitVec.getLsbD_reverse,
    BitVec.getMsbD_eq_getLsbD, BitVec.getLsbD_setWidth, BitVec.getLsbD_setWidth]
  by_cases high : i < 24
  · rw [BitVec.getLsbD_of_ge index (32 - 1 - i) (by omega)]
    simp [high]
  · have place : 8 - 1 - (i - 24) = 32 - 1 - i := by omega
    rw [place]
    simp [inside, high]
    omega

theorem divide_step_eq (entry : BitVec 32) : divideStep entry = divide ulPolynomial entry := by
  have test := masked_bit entry 31 (by decide)
  rw [divideStep, divide, BitVec.msb_eq_getLsbD_last]
  congr 1
  exact if_congr test rfl rfl

theorem reflected_polynomial : reflectedPolynomial.reverse = ulPolynomial := by
  rw [← reflect_word]
  decide

/-- Every entry of the table: eight steps of the shift register from the index. -/
theorem crc32_table_eq (index : Byte) :
    crc32Table index = advance reflectedPolynomial (index.setWidth 32) 8 := by
  have step : divideStep = divide reflectedPolynomial.reverse := by
    funext entry
    rw [divide_step_eq, reflected_polynomial]
  rw [crc32Table, step, reflect_byte, ShiftRegister.divides_reverse, reflect_word,
    BitVec.reverse_reverse_eq]

theorem pack_byte_bits (byte : Byte) : (pack (byteBits byte) : BitVec 32) = byte.setWidth 32 := by
  apply BitVec.eq_of_getLsbD_eq
  intro i inside
  rw [ShiftRegister.get_pack, BitVec.getLsbD_setWidth, byteBits, List.getD_eq_getElem?_getD,
    List.getElem?_map]
  by_cases low : i < 8
  · rw [List.getElem?_range low]
    rfl
  · rw [List.getElem?_eq_none (by rw [List.length_range]; omega),
      BitVec.getLsbD_of_ge byte i (by omega)]
    rfl

/-- The part of a word that the table does not see, and the part that it does. -/
theorem split_low (word : BitVec 32) :
    word = (word >>> 8) <<< 8 ^^^ (word.setWidth 8).setWidth 32 := by
  apply BitVec.eq_of_getLsbD_eq
  intro i inside
  rw [BitVec.getLsbD_xor, BitVec.getLsbD_shiftLeft, BitVec.getLsbD_ushiftRight,
    BitVec.getLsbD_setWidth, BitVec.getLsbD_setWidth]
  by_cases low : i < 8
  · simp [low, inside]
  · have place : 8 + (i - 8) = i := by omega
    simp [low, inside, place]

/-- One round of `Get_CRC` takes in the eight bits of a byte. -/
theorem crc_step_eq (crc : BitVec 32) (byte : Byte) :
    crcStep crc byte = run reflectedPolynomial crc (byteBits byte) := by
  have whole : crc ^^^ byte.setWidth 32 =
      (crc >>> 8) <<< 8 ^^^ (crc.setWidth 8 ^^^ byte).setWidth 32 := by
    rw [BitVec.setWidth_xor, ← BitVec.xor_assoc, ← split_low]
  have high : ∀ i, 32 ≤ i + 8 → (crc >>> 8).getLsbD i = false := by
    intro i outside
    rw [BitVec.getLsbD_ushiftRight, BitVec.getLsbD_of_ge crc (8 + i) (by omega)]
  have bits : (byteBits byte).length = 8 := by simp [byteBits]
  rw [ShiftRegister.run_eq_advance _ _ (by rw [bits]; decide), bits, pack_byte_bits, whole,
    ShiftRegister.advance_xor, ShiftRegister.advance_shifted _ 8 high, crcStep, crc32_table_eq]

theorem crc_rounds_eq (register : BitVec 32) (buffer : List Byte) :
    buffer.foldl crcStep register = run reflectedPolynomial register (bitsOf buffer) := by
  induction buffer generalizing register with
  | nil => rfl
  | cons byte rest ih =>
      rw [List.foldl_cons, ih, crc_step_eq, bitsOf, bitsOf, List.flatMap_cons,
        ShiftRegister.run_append]

theorem get_crc_eq (buffer : List Byte) : getCrc buffer = bitwiseCrc buffer := by
  rw [getCrc, crc_rounds_eq, bitwiseCrc]
  exact BitVec.xor_allOnes

/-- `Get_CRC` with its table is CRC-32 as it is defined bit by bit, and the register that a
prefix leaves is all that the rest needs. -/
theorem get_crc_is_bitwise (buffer : List Byte) :
    getCrc buffer = bitwiseCrc buffer ∧
      ∀ rest, getCrc (buffer ++ rest) =
        rest.foldl crcStep (getCrc buffer ^^^ 0xffffffff) ^^^ 0xffffffff := by
  refine ⟨get_crc_eq buffer, fun rest => ?_⟩
  have register : getCrc buffer ^^^ 0xffffffff = buffer.foldl crcStep 0xffffffff := by
    rw [getCrc, BitVec.xor_assoc, BitVec.xor_self]
    exact BitVec.xor_zero
  rw [register, getCrc, List.foldl_append]

/-- Two bodies of one length differ only within 32 bits in a row. -/
def Burst (sent received : List Byte) : Prop :=
  received.length = sent.length ∧
    ∃ start, ∀ i, (bitsOf sent)[i]? ≠ (bitsOf received)[i]? → start ≤ i ∧ i < start + 32

theorem byte_bits_injective {left right : Byte} (same : byteBits left = byteBits right) :
    left = right := by
  apply BitVec.eq_of_getLsbD_eq
  intro i inside
  have bit := congrArg (fun bits => bits[i]?) same
  simpa [byteBits, List.getElem?_range inside] using bit

theorem bits_of_length (buffer : List Byte) : (bitsOf buffer).length = 8 * buffer.length := by
  induction buffer with
  | nil => rfl
  | cons byte rest ih =>
      rw [bitsOf, List.flatMap_cons, List.length_append, ← bitsOf, ih]
      simp only [byteBits, List.length_map, List.length_range, List.length_cons]
      omega

theorem bits_of_injective {left right : List Byte} (size : left.length = right.length)
    (same : bitsOf left = bitsOf right) : left = right := by
  induction left generalizing right with
  | nil => exact (List.length_eq_zero_iff.mp size.symm).symm
  | cons byte rest ih =>
      cases right with
      | nil => cases size
      | cons other more =>
          rw [bitsOf, bitsOf, List.flatMap_cons, List.flatMap_cons] at same
          have widths : (byteBits byte).length = (byteBits other).length := by simp [byteBits]
          obtain ⟨first, later⟩ := List.append_inj same widths
          rw [byte_bits_injective first, ih (Nat.succ.inj size) later]

theorem burst_changes_crc {sent received : List Byte} (burst : Burst sent received)
    (different : received ≠ sent) : getCrc received ≠ getCrc sent := by
  obtain ⟨size, start, inside⟩ := burst
  have top : reflectedPolynomial.msb = true := by decide
  have bits : bitsOf sent ≠ bitsOf received :=
    fun same => different (bits_of_injective size.symm same).symm
  have widths : (bitsOf sent).length = (bitsOf received).length := by
    rw [bits_of_length, bits_of_length, size]
  have changed := ShiftRegister.burst_detected top (BitVec.allOnes 32) widths inside bits
  intro same
  rw [get_crc_eq, get_crc_eq, bitwiseCrc, bitwiseCrc, BitVec.not_inj] at same
  exact changed same.symm

/-- A packet with a body that `threadRecvProcFunc` accepts, hit by a burst of at most 32 bits
in its body, has another checksum, and is dropped for that. -/
theorem burst_rejected {iCurrsequence : Nat} {hdr : MsgHeader} {header sent received : List Byte}
    {call : Invocation} (size : header.length = lenPkgHeader)
    (announced : pkgLen header = lenPkgHeader + sent.length) (body : sent ≠ [])
    (accepted : threadRecvProcFunc iCurrsequence { hdr := hdr, pkg := header ++ sent } = .ok call)
    (burst : Burst sent received) (different : received ≠ sent) :
    getCrc received ≠ getCrc sent ∧
      ∀ later, threadRecvProcFunc later { hdr := hdr, pkg := header ++ received } =
        .error (.crcMismatch (getCrc received) (crc32 header)) := by
  have changed := burst_changes_crc burst different
  have length : received.length = sent.length := burst.1
  have nonempty : 0 < sent.length := List.length_pos_iff.mpr body
  have request : ∀ content : List Byte, content.length = sent.length →
      requestBody (header ++ content) = content := by
    intro content same
    rw [requestBody, pkgBody, pkg_len_append (by rw [size]; decide), announced,
      List.drop_left' size, Nat.add_sub_cancel_left, ← same, List.take_length]
  have announces : ∀ content, pkgLen (header ++ content) = lenPkgHeader + sent.length := by
    intro content
    rw [pkg_len_append (by rw [size]; decide), announced]
  have carried : ∀ content, crc32 (header ++ content) = crc32 header := by
    intro content
    simp only [lenPkgHeader] at size
    simp [crc32, List.getElem?_append, size]
  refine ⟨changed, fun later => ?_⟩
  have valid : getCrc sent = crc32 header := by
    have checked := (thread_recv_proc_func_ok.mp accepted).1
    rcases check_crc_ok.mp checked with ⟨empty, -, -⟩ | ⟨-, same, -⟩
    · dsimp only at empty
      rw [announces] at empty
      omega
    · dsimp only at same
      rw [request sent rfl, carried] at same
      exact same
  have dropped : checkCrc (header ++ received) =
      .error (.crcMismatch (getCrc received) (crc32 header)) := by
    rw [checkCrc, announces, if_neg (by omega), request received length, carried,
      if_pos (by rw [← valid]; exact changed)]
  rw [threadRecvProcFunc, dropped]
  rfl

def sentBody : List Byte := [0x01, 0x23, 0x45, 0x67, 0x89, 0xab, 0xcd, 0xef]

/-- The last four bits of the second byte to the first four of the sixth arrive inverted. -/
def receivedBody : List Byte := [0x01, 0xd3, 0xba, 0x98, 0x76, 0xa4, 0xcd, 0xef]

theorem received_burst : Burst sentBody receivedBody := by
  have inside : ∀ i < 64, (bitsOf sentBody)[i]? ≠ (bitsOf receivedBody)[i]? →
      12 ≤ i ∧ i < 12 + 32 := by
    decide
  refine ⟨rfl, 12, fun i other => inside i ?_ other⟩
  by_contra late
  apply other
  rw [List.getElem?_eq_none (Nat.le_of_not_lt late), List.getElem?_eq_none (Nat.le_of_not_lt late)]

theorem burst_rejected_sample :
    getCrc receivedBody ≠ getCrc sentBody ∧
      ∀ later, threadRecvProcFunc later
          { hdr := { pConn := 1, iCurrsequence := 3, occ := some 0 }
            pkg := encodeHeader 16 0 (getCrc sentBody) ++ receivedBody } =
        .error (.crcMismatch (getCrc receivedBody)
          (crc32 (encodeHeader 16 0 (getCrc sentBody)))) := by
  have accepted : threadRecvProcFunc 3
      { hdr := { pConn := 1, iCurrsequence := 3, occ := some 0 }
        pkg := encodeHeader 16 0 (getCrc sentBody) ++ sentBody } =
      .ok { handler := .handlePing
            pMsgHeader := { pConn := 1, iCurrsequence := 3, occ := some 0 }
            pPkgBody := some sentBody
            iBodyLength := 8 } := by
    decide +kernel
  exact burst_rejected (by decide) (by decide) (by decide) accepted received_burst (by decide)

end NgxServer.Checksum
