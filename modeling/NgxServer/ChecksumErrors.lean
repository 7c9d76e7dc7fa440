import Mathlib.Data.Fintype.Card
import Mathlib.Tactic.NormNum.Prime
import NgxServer.Checksum
import NgxServer.Lib.RegisterPeriod

/-!
# What the checksum misses

The polynomial has the longest period that a register of 32 bits can have, far
longer than any body, so two inverted bits are always noticed. Of the bodies
with a given beginning exactly one in 2^32 has the checksum that the header
carries.
-/

namespace NgxServer.ChecksumErrors

open NgxServer.Comm NgxServer.State NgxServer.Crc32 NgxServer.Logic NgxServer.Checksum
open ShiftRegister (run advance)
open RegisterPeriod (unit power exponent period)

set_option autoImplicit false

theorem prime_factors {prime : Nat} (isPrime : prime.Prime) (divides : prime ∣ 2 ^ 32 - 1) :
    prime = 3 ∨ prime = 5 ∨ prime = 17 ∨ prime = 257 ∨ prime = 65537 := by
  have factors : 2 ^ 32 - 1 = 3 * (5 * (17 * (257 * 65537))) := by decide
  rw [factors, isPrime.dvd_mul, isPrime.dvd_mul, isPrime.dvd_mul, isPrime.dvd_mul,
    Nat.prime_dvd_prime_iff_eq isPrime (by norm_num),
    Nat.prime_dvd_prime_iff_eq isPrime (by norm_num),
    Nat.prime_dvd_prime_iff_eq isPrime (by norm_num),
    Nat.prime_dvd_prime_iff_eq isPrime (by norm_num),
    Nat.prime_dvd_prime_iff_eq isPrime (by norm_num)] at divides
  exact divides

/-- The binary digits of 2^32 - 1 divided by 2^(2^k) + 1. -/
def parts : List (List Bool) :=
  [(List.replicate 16 [false, true]).flatten, (List.replicate 8 [false, false, true, true]).flatten,
    (List.replicate 4 (List.replicate 4 false ++ List.replicate 4 true)).flatten,
    (List.replicate 2 (List.replicate 8 false ++ List.replicate 8 true)).flatten,
    List.replicate 16 false ++ List.replicate 16 true]

theorem parts_exponents :
    parts.map exponent = [3, 5, 17, 257, 65537].map fun prime => (2 ^ 32 - 1) / prime := by
  decide +kernel

theorem parts_return_not : ∀ bits ∈ parts, power reflectedPolynomial bits ≠ unit := by
  decide +kernel

theorem whole_returns : power reflectedPolynomial (List.replicate 32 true) = unit := by
  decide +kernel

theorem period_reflected : period reflectedPolynomial = 2 ^ 32 - 1 := by
  apply RegisterPeriod.period_eq
  case returns =>
    have whole : exponent (List.replicate 32 true) = 2 ^ 32 - 1 := by decide
    rw [← whole, ← RegisterPeriod.power_eq]
    exact whole_returns
  case early =>
    intro prime isPrime divides
    have listed : (2 ^ 32 - 1) / prime ∈ parts.map exponent := by
      rw [parts_exponents]
      apply List.mem_map_of_mem
      simpa using prime_factors isPrime divides
    obtain ⟨bits, member, same⟩ := List.mem_map.mp listed
    rw [← same, ← RegisterPeriod.power_eq]
    exact parts_return_not bits member

/-- Two bodies of one length differ in exactly two bits. -/
def TwoBits (sent received : List Byte) : Prop :=
  received.length = sent.length ∧ ∃ first second : Nat, first < second ∧
    ∀ i, (bitsOf sent)[i]? ≠ (bitsOf received)[i]? ↔ i = first ∨ i = second

theorem two_bits_change_crc {sent received : List Byte} (short : sent.length < 65536)
    (flips : TwoBits sent received) : getCrc received ≠ getCrc sent := by
  obtain ⟨length, first, second, order, differ⟩ := flips
  have top : reflectedPolynomial.msb = true := by decide
  have widths : (bitsOf sent).length = (bitsOf received).length := by
    rw [bits_of_length, bits_of_length, length]
  have inside : second < 8 * sent.length := by
    by_contra beyond
    have both := (differ second).mpr (Or.inr rfl)
    apply both
    rw [List.getElem?_eq_none (by rw [bits_of_length]; omega),
      List.getElem?_eq_none (by rw [← widths, bits_of_length]; omega)]
  intro same
  rw [get_crc_eq, get_crc_eq, bitwiseCrc, bitwiseCrc, BitVec.not_inj] at same
  have apart := (RegisterPeriod.flips_unseen_iff top _ widths order differ).mp same.symm
  rw [period_reflected] at apart
  have far := Nat.le_of_dvd (by omega) apart
  omega

theorem check_crc_body {header body : List Byte} (size : header.length = lenPkgHeader)
    (announced : pkgLen header = lenPkgHeader + body.length) (filled : body ≠ []) :
    checkCrc (header ++ body) =
      if getCrc body = crc32 header then .ok (some body)
      else .error (.crcMismatch (getCrc body) (crc32 header)) := by
  have some : 0 < body.length := List.length_pos_iff.mpr filled
  have announces : pkgLen (header ++ body) = lenPkgHeader + body.length := by
    rw [pkg_len_append (by rw [size]; decide), announced]
  have request : requestBody (header ++ body) = body := by
    rw [requestBody, pkgBody, announces, List.drop_left' size, Nat.add_sub_cancel_left,
      List.take_length]
  have carried : crc32 (header ++ body) = crc32 header := by
    simp only [lenPkgHeader] at size
    simp [crc32, List.getElem?_append, size]
  rw [checkCrc, announces, if_neg (by omega), request, carried]
  by_cases same : getCrc body = crc32 header
  · rw [if_neg (not_not.mpr same), if_pos same]
  · rw [if_pos same, if_neg same]

theorem pkg_len_bounded (pkg : List Byte) : pkgLen pkg < 65536 := by
  have high := (pkg.getD 0 0).isLt
  have low := (pkg.getD 1 0).isLt
  rw [pkgLen, ntohs]
  omega

/-- A packet with a body that `threadRecvProcFunc` accepts is dropped for its checksum, on
every connection, if any two bits of the body are inverted, however far from each other. -/
theorem two_bits_rejected {iCurrsequence : Nat} {hdr : MsgHeader}
    {header sent received : List Byte} {call : Invocation} (size : header.length = lenPkgHeader)
    (announced : pkgLen header = lenPkgHeader + sent.length)
    (accepted : threadRecvProcFunc iCurrsequence { hdr := hdr, pkg := header ++ sent } = .ok call)
    (flips : TwoBits sent received) (later : Nat) :
    threadRecvProcFunc later { hdr := hdr, pkg := header ++ received } =
      .error (.crcMismatch (getCrc received) (getCrc sent)) := by
  have short := pkg_len_bounded header
  have changed := two_bits_change_crc (by omega) flips
  have length : received.length = sent.length := flips.1
  have filled : sent ≠ [] := by
    intro empty
    rw [empty, List.length_nil, List.length_eq_zero_iff] at length
    rw [empty, length] at changed
    exact changed rfl
  have other : received ≠ [] := by
    rw [← List.length_pos_iff, length, List.length_pos_iff]
    exact filled
  have valid : getCrc sent = crc32 header := by
    have checked := (thread_recv_proc_func_ok.mp accepted).1
    rw [check_crc_body size announced filled] at checked
    by_contra differs
    rw [if_neg differs] at checked
    cases checked
  have dropped := check_crc_body size (announced.trans (by rw [length])) other
  rw [if_neg (valid ▸ changed), ← valid] at dropped
  rw [threadRecvProcFunc, dropped]
  rfl

/-- The first bit and the last one of a body of six bytes. -/
theorem two_bits_rejected_sample :
    threadRecvProcFunc 4
        { hdr := { pConn := 1, iCurrsequence := 3, occ := some 0 }
          pkg := encodeHeader 14 0 (getCrc [1, 2, 3, 4, 5, 6]) ++ [0, 2, 3, 4, 5, 134] } =
      .error (.crcMismatch (getCrc [0, 2, 3, 4, 5, 134]) (getCrc [1, 2, 3, 4, 5, 6])) := by
  have accepted : threadRecvProcFunc 3
      { hdr := { pConn := 1, iCurrsequence := 3, occ := some 0 }
        pkg := encodeHeader 14 0 (getCrc [1, 2, 3, 4, 5, 6]) ++ [1, 2, 3, 4, 5, 6] } =
      .ok { handler := .handlePing
            pMsgHeader := { pConn := 1, iCurrsequence := 3, occ := some 0 }
            pPkgBody := some [1, 2, 3, 4, 5, 6]
            iBodyLength := 6 } := by
    decide +kernel
  have size : (encodeHeader 14 0 (getCrc [1, 2, 3, 4, 5, 6])).length = lenPkgHeader := rfl
  have announced : pkgLen (encodeHeader 14 0 (getCrc [1, 2, 3, 4, 5, 6])) =
      lenPkgHeader + [1, 2, 3, 4, 5, (6 : Byte)].length := by
    decide +kernel
  have flips : TwoBits [1, 2, 3, 4, 5, 6] [0, 2, 3, 4, 5, 134] := by
    refine ⟨rfl, 0, 47, by decide, fun i => ?_⟩
    by_cases inside : i < 48
    · revert i
      decide +kernel
    · have beyond : 8 * 6 ≤ i := not_lt.mp inside
      rw [List.getElem?_eq_none (by rw [bits_of_length]; exact beyond),
        List.getElem?_eq_none (by rw [bits_of_length]; exact beyond)]
      simp only [ne_eq, not_true_eq_false, false_iff]
      omega
  exact two_bits_rejected size announced accepted flips 4

def wordBytes (word : BitVec 32) : List Byte :=
  [word.setWidth 8, (word >>> 8).setWidth 8, (word >>> 16).setWidth 8, (word >>> 24).setWidth 8]

theorem word_bytes_injective {left right : BitVec 32} (same : wordBytes left = wordBytes right) :
    left = right := by
  simp only [wordBytes, List.cons.injEq, and_true] at same
  obtain ⟨first, second, third, fourth⟩ := same
  have shifted : ∀ (place i : Nat), i < 8 →
      (left >>> place).setWidth 8 = (right >>> place).setWidth 8 →
        left.getLsbD (place + i) = right.getLsbD (place + i) := by
    intro place i low equal
    have bit := congrArg (fun byte : Byte => byte.getLsbD i) equal
    simpa [BitVec.getLsbD_setWidth, low] using bit
  apply BitVec.eq_of_getLsbD_eq
  intro i inside
  rcases Nat.lt_or_ge i 8 with low | high
  · have bit := shifted 0 i low (by simpa using first)
    rwa [Nat.zero_add] at bit
  rcases Nat.lt_or_ge i 16 with low | high
  · have bit := shifted 8 (i - 8) (by omega) second
    rwa [Nat.add_sub_cancel' (by omega)] at bit
  rcases Nat.lt_or_ge i 24 with low | high
  · have bit := shifted 16 (i - 16) (by omega) third
    rwa [Nat.add_sub_cancel' (by omega)] at bit
  · have bit := shifted 24 (i - 24) (by omega) fourth
    rwa [Nat.add_sub_cancel' (by omega)] at bit

/-- Two endings of four bytes lie in one window of the register. -/
theorem endings_differ (beginning : List Byte) {ending other : List Byte}
    (size : ending.length = 4) (length : other.length = 4)
    (same : getCrc (beginning ++ other) = getCrc (beginning ++ ending)) : other = ending := by
  by_contra different
  have burst : Burst (beginning ++ ending) (beginning ++ other) := by
    refine ⟨by rw [List.length_append, List.length_append, size, length],
      8 * beginning.length, fun i differs => ?_⟩
    constructor
    · by_contra early
      apply differs
      rw [bitsOf, bitsOf, List.flatMap_append, List.flatMap_append, ← bitsOf,
        List.getElem?_append_left (by rw [bits_of_length]; omega),
        List.getElem?_append_left (by rw [bits_of_length]; omega)]
    · by_contra late
      apply differs
      rw [List.getElem?_eq_none (by rw [bits_of_length, List.length_append]; omega),
        List.getElem?_eq_none (by rw [bits_of_length, List.length_append]; omega)]
  apply burst_changes_crc burst ?_ same
  intro equal
  exact different (List.append_cancel_left equal)

/-- Whatever a buffer begins with, every checksum is that of exactly one ending. -/
theorem ending_exists (beginning : List Byte) (crc : BitVec 32) :
    ∃ ending : List Byte, ending.length = 4 ∧ getCrc (beginning ++ ending) = crc := by
  have finite : Finite (BitVec 32) :=
    Finite.of_injective BitVec.toFin fun _ _ => BitVec.eq_of_toFin_eq
  have injective : Function.Injective fun word => getCrc (beginning ++ wordBytes word) := by
    intro left right same
    exact word_bytes_injective (endings_differ beginning rfl rfl same)
  obtain ⟨word, found⟩ := Finite.injective_iff_surjective.mp injective crc
  exact ⟨wordBytes word, rfl, found⟩

theorem find_handler_unchecked (iCurrsequence : Nat) (msg : MsgBuf)
    (calculated carried : BitVec 32) :
    findHandler iCurrsequence msg ≠ .error (.crcMismatch calculated carried) := by
  unfold findHandler
  dsimp only
  split
  · simp
  split
  · simp
  split
  · simp
  · simp

theorem passes_iff (iCurrsequence : Nat) (hdr : MsgHeader) {header body : List Byte}
    (size : header.length = lenPkgHeader)
    (announced : pkgLen header = lenPkgHeader + body.length) (filled : body ≠ []) :
    (∀ calculated carried,
      threadRecvProcFunc iCurrsequence { hdr := hdr, pkg := header ++ body } ≠
        .error (.crcMismatch calculated carried)) ↔ getCrc body = crc32 header := by
  have checked := check_crc_body size announced filled
  constructor
  · intro passes
    by_contra differs
    rw [if_neg differs] at checked
    apply passes (getCrc body) (crc32 header)
    rw [threadRecvProcFunc, checked]
    rfl
  · intro same calculated carried dropped
    rw [if_pos same] at checked
    rw [threadRecvProcFunc, checked] at dropped
    have later := find_handler_unchecked iCurrsequence { hdr := hdr, pkg := header ++ body }
      calculated carried
    cases found : findHandler iCurrsequence { hdr := hdr, pkg := header ++ body } with
    | error why =>
        rw [found] at dropped later
        cases dropped
        exact later rfl
    | ok handler =>
        rw [found] at dropped
        cases dropped

/-- Of the bodies that begin with given bytes and have a given length, exactly one in 2^32
is not dropped for its checksum: whatever the header carries and whatever comes before them,
the last four bytes are determined. -/
theorem one_ending_passes (iCurrsequence : Nat) (hdr : MsgHeader) (header beginning : List Byte)
    (size : header.length = lenPkgHeader)
    (announced : pkgLen header = lenPkgHeader + beginning.length + 4) :
    ∃! ending : List Byte, ending.length = 4 ∧ ∀ calculated carried,
      threadRecvProcFunc iCurrsequence { hdr := hdr, pkg := header ++ (beginning ++ ending) } ≠
        .error (.crcMismatch calculated carried) := by
  have exact_iff : ∀ ending : List Byte, ending.length = 4 → ((∀ calculated carried,
      threadRecvProcFunc iCurrsequence { hdr := hdr, pkg := header ++ (beginning ++ ending) } ≠
        .error (.crcMismatch calculated carried)) ↔
          getCrc (beginning ++ ending) = crc32 header) := by
    intro ending length
    apply passes_iff iCurrsequence hdr size
    case announced => rw [announced, List.length_append, length, Nat.add_assoc]
    case filled =>
      intro empty
      rw [(List.append_eq_nil_iff.mp empty).2] at length
      cases length
  obtain ⟨ending, length, found⟩ := ending_exists beginning (crc32 header)
  refine ⟨ending, ⟨length, (exact_iff ending length).mpr found⟩, ?_⟩
  intro other both
  obtain ⟨same, passes⟩ := both
  have valid := (exact_iff other same).mp passes
  exact endings_differ beginning length same (valid.trans found.symm)

theorem one_ending_passes_sample :
    ∃! ending : List Byte, ending.length = 4 ∧ ∀ calculated carried,
      threadRecvProcFunc 3
          { hdr := { pConn := 1, iCurrsequence := 3, occ := some 0 }
            pkg := encodeHeader 14 5 0x1234 ++ ([1, 2] ++ ending) } ≠
        .error (.crcMismatch calculated carried) :=
  one_ending_passes 3 _ (encodeHeader 14 5 0x1234) [1, 2] (by decide) (by decide)

end NgxServer.ChecksumErrors
