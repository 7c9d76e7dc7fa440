import Mathlib.Data.List.TakeWhile
import NgxServer.Comm
import NgxServer.Lib.BoundedSink
import NgxServer.Lib.Numeral

/-!
# Formatting

`ngx_printf.cxx`: `ngx_vslprintf` and `ngx_sprintf_num`. A buffer is the list of
the bytes from its start up to where the next one goes, and `last` counts the
cells that it has; a store behind `last` has no result, nor has a read behind the
terminator of the format or of an argument that was not passed.
-/

namespace NgxServer.Printf

open NgxServer.Comm BoundedSink

set_option autoImplicit false

def chr (c : Char) : Byte := BitVec.ofNat 8 c.toNat

structure CString where
  bytes : List Byte
  no_nul : 0 ∉ bytes

def cString (buffer : List Byte) : CString where
  bytes := buffer.takeWhile (· ≠ 0)
  no_nul listed := by simpa using List.mem_takeWhile_imp listed

theorem c_string_bytes {buffer : List Byte} (no_nul : 0 ∉ buffer) :
    (cString buffer).bytes = buffer := by
  apply List.takeWhile_eq_self_iff.mpr
  intro c listed
  simpa using fun same : c = 0 => no_nul (same ▸ listed)

/-- A variable argument. `%f` uses the sign of a `double` and, for each number of decimals, the
integer part and the fraction that it renders: the floating-point arithmetic is not modelled. -/
inductive VaArg where
  | int (value : BitVec 32)
  | long (value : BitVec 64)
  | str (text : CString)
  | double (negative : Bool) (parts : Nat → BitVec 64 × BitVec 64)

def ngxInt64Len : Nat := 20

def hexTable : List Byte := "0123456789abcdef".toList.map chr
def upperHexTable : List Byte := "0123456789ABCDEF".toList.map chr

/-- The `do` loops: `temp` is filled from its end, and there is no result when its cells do not
suffice. -/
def digitLoop {width : Nat} (cell : BitVec width → Byte) (next : BitVec width → BitVec width) :
    (cells : Nat) → (value : BitVec width) → (temp : List Byte) → Option (List Byte)
  | 0, _, _ => none
  | cells + 1, value, temp =>
      let temp := cell value :: temp
      let value := next value
      if value = 0 then some temp else digitLoop cell next cells value temp

def decimalCell {width : Nat} (value : BitVec width) : Byte :=
  (value % 10 + BitVec.ofNat width '0'.toNat).setWidth 8

def decimalDigits {width : Nat} (value : BitVec width) : Option (List Byte) :=
  digitLoop decimalCell (· / 10) ngxInt64Len value []

def hexDigits (table : List Byte) (ui64 : BitVec 64) : Option (List Byte) :=
  digitLoop (fun value => table.getD ((value &&& 0xf).setWidth 32).toNat 0) (· >>> 4) ngxInt64Len
    ui64 []

/-- The digits in `temp`. A number that `ui32` can hold is divided there. -/
def numberDigits (ui64 : BitVec 64) (hexadecimal : Nat) : Option (List Byte) :=
  if hexadecimal = 0 then
    if ui64.toNat ≤ 0xffffffff then decimalDigits (ui64.setWidth 32) else decimalDigits ui64
  else if hexadecimal = 1 then hexDigits hexTable ui64
  else hexDigits upperHexTable ui64

def padLoop (zero : Byte) : (missing : Nat) → Writer Byte
  | 0, _, buf => some buf
  | missing + 1, last, buf =>
      if buf.length < last then (put last buf zero).bind (padLoop zero missing last) else some buf

def ngxSprintfNum (ui64 : BitVec 64) (zero : Byte) (hexadecimal width : Nat) : Writer Byte :=
  fun last buf => do
    let p ← numberDigits ui64 hexadecimal
    let buf ← padLoop zero (width - p.length) last buf
    let len := if buf.length + p.length ≥ last then last - buf.length else p.length
    copy last buf (p.take len)

structure Spec where
  zero : Byte
  width : Nat
  sign : Bool
  hex : Nat
  fracWidth : Nat

def scanWidth (width : Nat) : List Byte → Nat × List Byte
  | [] => (width, [])
  | c :: fmt =>
      if chr '0' ≤ c ∧ c ≤ chr '9' then
        scanWidth ((width * 10 + (c.toNat - '0'.toNat)) % 2 ^ 64) fmt
      else (width, c :: fmt)

def scanFlags (spec : Spec) : List Byte → Spec × List Byte
  | [] => (spec, [])
  | c :: fmt =>
      if c = chr 'u' then scanFlags { spec with sign := false } fmt
      else if c = chr 'X' then scanFlags { spec with hex := 2, sign := false } fmt
      else if c = chr 'x' then scanFlags { spec with hex := 1, sign := false } fmt
      else if c = chr '.' then
        let (fracWidth, fmt) := scanWidth spec.fracWidth fmt
        ({ spec with fracWidth := fracWidth }, fmt)
      else (spec, c :: fmt)

/-- What stands between a `%` and the byte that the `switch` looks at. -/
def readSpec (fmt : List Byte) : Spec × List Byte :=
  let zero := if fmt.head? = some (chr '0') then chr '0' else chr ' '
  let (width, fmt) := scanWidth 0 fmt
  scanFlags { zero := zero, width := width, sign := true, hex := 0, fracWidth := 0 } fmt

def putString : (p : List Byte) → Writer Byte
  | [], _, buf => some buf
  | c :: p, last, buf =>
      if buf.length < last then (put last buf c).bind (putString p last) else some buf

/-- `i64` or `ui64`, whichever `sign` says, of the conversions of integers. -/
def integerArg (spec : Spec) (c : Byte) : List VaArg → Option (Spec × BitVec 64 × List VaArg)
  | .int value :: args =>
      if c = chr 'd' then
        some (spec, if spec.sign then value.signExtend 64 else value.setWidth 64, args)
      else if c = chr 'P' then some ({ spec with sign := true }, value.signExtend 64, args)
      else none
  | .long value :: args =>
      if c = chr 'i' ∨ c = chr 'L' then some (spec, value, args)
      else if c = chr 'p' then
        some ({ spec with hex := 2, sign := false, zero := chr '0', width := 16 }, value, args)
      else none
  | _ => none

def putInteger (spec : Spec) (value : BitVec 64) : Writer Byte :=
  if spec.sign ∧ value.slt 0 then
    Writer.next (fun last buf => put last buf (chr '-'))
      (ngxSprintfNum (-value) spec.zero spec.hex spec.width)
  else ngxSprintfNum value spec.zero spec.hex spec.width

def putFraction (spec : Spec) (frac : BitVec 64) : Writer Byte :=
  if spec.fracWidth = 0 then fun _ buf => some buf
  else Writer.next (fun last buf => if buf.length < last then put last buf (chr '.') else some buf)
    (ngxSprintfNum frac (chr '0') 0 spec.fracWidth)

def putDouble (spec : Spec) (negative : Bool) (parts : Nat → BitVec 64 × BitVec 64) :
    Writer Byte :=
  let ui64 := (parts spec.fracWidth).1
  let frac := (parts spec.fracWidth).2
  let number := Writer.next (ngxSprintfNum ui64 spec.zero 0 spec.width) (putFraction spec frac)
  if negative then Writer.next (fun last buf => put last buf (chr '-')) number else number

def isInteger (c : Byte) : Prop :=
  c = chr 'd' ∨ c = chr 'i' ∨ c = chr 'L' ∨ c = chr 'p' ∨ c = chr 'P'

instance (c : Byte) : Decidable (isInteger c) := by
  unfold isInteger
  infer_instance

/-- What a conversion writes, and the format and the arguments behind it. -/
def conversion (fmt : List Byte) (args : List VaArg) :
    Option (Writer Byte × List Byte × List VaArg) :=
  match readSpec fmt with
  -- The default branch copies the terminator and leaves `fmt` behind it.
  | (_, []) => none
  | (spec, c :: fmt) =>
      if c = chr 's' then
        match args with
        | .str p :: args => some (putString p.bytes, fmt, args)
        | _ => none
      else if c = chr 'f' then
        match args with
        | .double negative parts :: args => some (putDouble spec negative parts, fmt, args)
        | _ => none
      else if isInteger c then
        (integerArg spec c args).map fun (spec, value, args) => (putInteger spec value, fmt, args)
      -- `%%`, and the bytes that are no conversion.
      else some (fun last buf => put last buf c, fmt, args)

/-- The main loop; the rounds are counted, since each takes some of the format. -/
def formatLoop (last : Nat) :
    (rounds : Nat) → (buf fmt : List Byte) → List VaArg → Option (List Byte)
  | _, buf, [], _ => some buf
  | 0, _, _ :: _, _ => none
  | rounds + 1, buf, c :: fmt, args =>
      if last ≤ buf.length then some buf
      else if c = chr '%' then do
        let (writer, fmt, args) ← conversion fmt args
        let buf ← writer last buf
        formatLoop last rounds buf fmt args
      else (put last buf c).bind fun buf => formatLoop last rounds buf fmt args

def ngxVslprintf (last : Nat) (buf : List Byte) (fmt : CString) (args : List VaArg) :
    Option (List Byte) :=
  formatLoop last fmt.bytes.length buf fmt.bytes args

theorem scan_width_suffix (width : Nat) (fmt : List Byte) : (scanWidth width fmt).2 <:+ fmt := by
  induction fmt generalizing width with
  | nil => exact List.suffix_refl []
  | cons c fmt ih =>
      rw [scanWidth]
      split
      · exact (ih _).trans (List.suffix_cons c fmt)
      · exact List.suffix_refl _

theorem scan_flags_suffix (spec : Spec) (fmt : List Byte) : (scanFlags spec fmt).2 <:+ fmt := by
  induction fmt generalizing spec with
  | nil => exact List.suffix_refl []
  | cons c fmt ih =>
      have skip := List.suffix_cons c fmt
      rw [scanFlags]
      split
      · exact (ih _).trans skip
      split
      · exact (ih _).trans skip
      split
      · exact (ih _).trans skip
      split
      · exact (scan_width_suffix spec.fracWidth fmt).trans skip
      · exact List.suffix_refl _

theorem read_spec_suffix (fmt : List Byte) : (readSpec fmt).2 <:+ fmt :=
  (scan_flags_suffix _ _).trans (scan_width_suffix 0 fmt)

theorem read_spec_length (fmt : List Byte) : (readSpec fmt).2.length ≤ fmt.length :=
  (read_spec_suffix fmt).length_le

/-- A conversion ends behind the byte that its `switch` looked at. -/
theorem conversion_reads {fmt rest : List Byte} {args left : List VaArg} {writer : Writer Byte}
    (converts : conversion fmt args = some (writer, rest, left)) :
    ∃ spec c, readSpec fmt = (spec, c :: rest) := by
  unfold conversion at converts
  split at converts
  · cases converts
  case h_2 spec c after reads =>
    refine ⟨spec, c, ?_⟩
    rw [reads]
    split at converts
    · split at converts <;> cases converts
      rfl
    split at converts
    · split at converts <;> cases converts
      rfl
    split at converts
    · obtain ⟨⟨spec, value, args⟩, -, same⟩ := Option.map_eq_some_iff.mp converts
      cases same
      rfl
    · cases converts
      rfl

theorem conversion_shorter {fmt rest : List Byte} {args left : List VaArg} {writer : Writer Byte}
    (converts : conversion fmt args = some (writer, rest, left)) : rest.length < fmt.length := by
  obtain ⟨spec, c, reads⟩ := conversion_reads converts
  have bound := read_spec_length fmt
  rw [reads] at bound
  exact bound

/-- Rounds that are left do not matter. -/
theorem format_loop_rounds (last : Nat) {rounds more : Nat} (buf fmt : List Byte)
    (args : List VaArg) (enough : fmt.length ≤ rounds) (enoughToo : fmt.length ≤ more) :
    formatLoop last rounds buf fmt args = formatLoop last more buf fmt args := by
  induction rounds generalizing more buf fmt args with
  | zero =>
      cases List.length_eq_zero_iff.mp (Nat.le_zero.mp enough)
      rw [formatLoop, formatLoop]
  | succ rounds ih =>
      cases fmt with
      | nil => rw [formatLoop, formatLoop]
      | cons c fmt =>
          rw [List.length_cons] at enough enoughToo
          obtain ⟨more, rfl⟩ : ∃ other, more = other + 1 := ⟨more - 1, by omega⟩
          rw [formatLoop, formatLoop]
          split
          · rfl
          split
          · cases converts : conversion fmt args with
            | none => rfl
            | some result =>
                obtain ⟨writer, rest, left⟩ := result
                have shorter := conversion_shorter converts
                cases writes : writer last buf with
                | none => simp [writes]
                | some buf =>
                    simp only [Option.bind_eq_bind, Option.bind_some, writes]
                    exact ih buf rest left (by omega) (by omega)
          · cases writes : put last buf c with
            | none => rfl
            | some buf => exact ih buf fmt args (by omega) (by omega)

theorem format_loop_conversion {last rounds : Nat} {buf body rest : List Byte}
    {args left : List VaArg} {writer : Writer Byte} (room : buf.length < last)
    (converts : conversion body args = some (writer, rest, left)) (enough : body.length ≤ rounds) :
    formatLoop last (rounds + 1) buf (chr '%' :: body) args =
      (writer last buf).bind fun buf => formatLoop last rest.length buf rest left := by
  have shorter := conversion_shorter converts
  rw [formatLoop, if_neg (by omega), if_pos rfl, converts]
  cases writes : writer last buf with
  | none => simp [writes]
  | some buf =>
      simp only [Option.bind_eq_bind, Option.bind_some, writes]
      exact format_loop_rounds last buf rest left (by omega) (Nat.le_refl _)

theorem format_loop_ordinary {last rounds : Nat} {buf fmt : List Byte} {c : Byte}
    {args : List VaArg} (room : buf.length < last) (ordinary : c ≠ chr '%') :
    formatLoop last (rounds + 1) buf (c :: fmt) args =
      formatLoop last rounds (buf ++ [c]) fmt args := by
  rw [formatLoop, if_neg (by omega), if_neg ordinary, put, if_pos room, Option.bind_some]

end NgxServer.Printf
