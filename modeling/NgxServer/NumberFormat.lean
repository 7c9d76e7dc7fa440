import NgxServer.Printf

/-!
# Rendered numbers

The digit loops of `ngx_sprintf_num` spell a number in the decimal system or in
one of the two hexadecimal ones. Twenty cells are enough for every number of 64
bits, so what is written is the padding and the spelling, as far as they fit.
-/

namespace NgxServer.NumberFormat

open NgxServer.Comm NgxServer.Printf BoundedSink

set_option autoImplicit false

def decimal : Numeral.Alphabet Byte :=
  .ofTable 0 ("0123456789".toList.map chr) (by decide) (by decide)

def lowerHex : Numeral.Alphabet Byte := .ofTable 0 hexTable (by decide) (by decide)

def upperHex : Numeral.Alphabet Byte := .ofTable 0 upperHexTable (by decide) (by decide)

/-- The system that `hexadecimal` asks for. -/
def system (hexadecimal : Nat) : Numeral.Alphabet Byte :=
  if hexadecimal = 0 then decimal else if hexadecimal = 1 then lowerHex else upperHex

def spelled (hexadecimal : Nat) (ui64 : BitVec 64) : List Byte :=
  Numeral.spell (system hexadecimal) ui64.toNat

theorem decimal_symbol {digit : Nat} (small : digit < 10) :
    decimal.symbol digit = BitVec.ofNat 8 ('0'.toNat + digit) := by
  have all : ∀ digit < 10, decimal.symbol digit = BitVec.ofNat 8 ('0'.toNat + digit) := by decide
  exact all digit small

theorem decimal_base : decimal.base = 10 := rfl

theorem ten_le_base (hexadecimal : Nat) : 10 ≤ (system hexadecimal).base := by
  unfold system
  split
  · decide
  · split <;> decide

/-- A loop whose cell shows the last digit and which goes on with the digits before it. -/
theorem digit_loop_spell {width : Nat} {cell : BitVec width → Byte}
    {next : BitVec width → BitVec width} (alphabet : Numeral.Alphabet Byte)
    (shows : ∀ value, cell value = alphabet.symbol (value.toNat % alphabet.base))
    (drops : ∀ value, (next value).toNat = value.toNat / alphabet.base) (cells : Nat)
    (value : BitVec width) (temp : List Byte)
    (enough : (Numeral.spell alphabet value.toNat).length ≤ cells) :
    digitLoop cell next cells value temp =
      some (Numeral.spell alphabet value.toNat ++ temp) := by
  induction cells generalizing value temp with
  | zero =>
      rw [Numeral.spell, List.length_map] at enough
      exact absurd (List.length_eq_zero_iff.mp (Nat.le_zero.mp enough))
        (Numeral.digits_ne_nil _ _)
  | succ cells ih =>
      have ends := Numeral.digits_eq alphabet.two_le value.toNat
      have stop : next value = 0 ↔ value.toNat / alphabet.base = 0 := by
        rw [← drops, ← BitVec.toNat_inj, show (0 : BitVec width).toNat = 0 from Nat.zero_mod _]
      rw [digitLoop]
      split
      case isTrue last =>
          rw [if_pos (stop.mp last), List.nil_append] at ends
          rw [Numeral.spell, ends, List.map_singleton, shows, List.singleton_append]
      case isFalse more =>
          rw [if_neg (mt stop.mpr more)] at ends
          have front : Numeral.spell alphabet value.toNat =
              Numeral.spell alphabet (next value).toNat ++ [cell value] := by
            rw [Numeral.spell, ends, List.map_append, List.map_singleton, ← shows, ← drops,
              Numeral.spell]
          rw [front, List.length_append, List.length_singleton] at enough
          rw [ih (next value) (cell value :: temp) (by omega), front, List.append_assoc,
            List.singleton_append]

theorem decimal_cell_symbol {width : Nat} (wide : 6 ≤ width) (value : BitVec width) :
    decimalCell value = decimal.symbol (value.toNat % decimal.base) := by
  have room : 2 ^ 6 ≤ 2 ^ width := Nat.pow_le_pow_right two_pos wide
  rw [decimal_base, decimal_symbol (Nat.mod_lt _ (by decide))]
  apply BitVec.eq_of_toNat_eq
  have ten : (10 : BitVec width).toNat = 10 :=
    Nat.mod_eq_of_lt (show 10 < 2 ^ width by omega)
  have zero : '0'.toNat = 48 := rfl
  rw [decimalCell, BitVec.toNat_setWidth, BitVec.toNat_add, BitVec.toNat_umod, ten,
    BitVec.toNat_ofNat, BitVec.toNat_ofNat, zero, Nat.mod_eq_of_lt (a := 48) (by omega),
    Nat.mod_eq_of_lt (b := 2 ^ width) (by omega), Nat.add_comm]

theorem decimal_next {width : Nat} (wide : 6 ≤ width) (value : BitVec width) :
    (value / 10).toNat = value.toNat / decimal.base := by
  have room : 2 ^ 6 ≤ 2 ^ width := Nat.pow_le_pow_right two_pos wide
  have ten : (10 : BitVec width).toNat = 10 :=
    Nat.mod_eq_of_lt (show 10 < 2 ^ width by omega)
  rw [BitVec.toNat_udiv, ten, decimal_base]

/-- Fewer than twenty digits in the decimal system, at most sixteen in the hexadecimal ones. -/
theorem spelled_length_le (hexadecimal : Nat) (ui64 : BitVec 64) :
    (spelled hexadecimal ui64).length ≤ ngxInt64Len := by
  apply Numeral.spell_length_le (system hexadecimal) (by decide)
  calc
    ui64.toNat < 2 ^ 64 := ui64.isLt
    _ ≤ 10 ^ ngxInt64Len := by decide
    _ ≤ (system hexadecimal).base ^ ngxInt64Len := Nat.pow_le_pow_left (ten_le_base _) _

theorem decimal_digits_spell {width : Nat} (wide : 6 ≤ width) (value : BitVec width)
    (small : value.toNat < 2 ^ 64) :
    decimalDigits value = some (Numeral.spell decimal value.toNat) := by
  rw [decimalDigits, digit_loop_spell decimal (decimal_cell_symbol wide) (decimal_next wide),
    List.append_nil]
  apply Numeral.spell_length_le decimal (by decide)
  rw [decimal_base]
  exact Nat.lt_of_lt_of_le small (by decide)

theorem hex_digits_spell (table : List Byte) (sixteen : table.length = 16) (two : 2 ≤ table.length)
    (distinct : table.Nodup) (ui64 : BitVec 64) :
    hexDigits table ui64 = some (Numeral.spell (.ofTable 0 table two distinct) ui64.toNat) := by
  have shows (value : BitVec 64) : table.getD ((value &&& 0xf).setWidth 32).toNat 0 =
      table.getD (value.toNat % table.length) 0 := by
    have low : ((value &&& 0xf).setWidth 32).toNat = value.toNat % 16 := by
      rw [BitVec.toNat_setWidth, BitVec.toNat_and]
      have mask := Nat.and_two_pow_sub_one_eq_mod value.toNat 4
      norm_num at mask
      rw [show (0xf : BitVec 64).toNat = 15 from rfl, mask]
      omega
    rw [low, sixteen]
  have drops (value : BitVec 64) : (value >>> 4).toNat = value.toNat / table.length := by
    rw [BitVec.toNat_ushiftRight, Nat.shiftRight_eq_div_pow, sixteen]
  rw [hexDigits, digit_loop_spell (.ofTable 0 table two distinct) shows drops, List.append_nil]
  apply Numeral.spell_length_le _ (by decide)
  show ui64.toNat < table.length ^ ngxInt64Len
  rw [sixteen]
  exact Nat.lt_of_lt_of_le ui64.isLt (by decide)

/-- Whichever loop renders it, a number is spelled in its system. -/
theorem number_digits_spelled (ui64 : BitVec 64) (hexadecimal : Nat) :
    numberDigits ui64 hexadecimal = some (spelled hexadecimal ui64) := by
  unfold numberDigits spelled system
  split
  case isTrue =>
    split
    case isTrue small =>
      have same : (ui64.setWidth 32).toNat = ui64.toNat := by
        rw [BitVec.toNat_setWidth, Nat.mod_eq_of_lt (by omega)]
      rw [decimal_digits_spell (by decide) _ (by omega), same]
    case isFalse => exact decimal_digits_spell (by decide) ui64 ui64.isLt
  case isFalse =>
    split
    · exact hex_digits_spell hexTable rfl _ _ ui64
    · exact hex_digits_spell upperHexTable rfl _ _ ui64

def rendered (ui64 : BitVec 64) (zero : Byte) (hexadecimal width : Nat) : List Byte :=
  List.replicate (width - (spelled hexadecimal ui64).length) zero ++ spelled hexadecimal ui64

theorem pad_loop_emits (zero : Byte) (missing : Nat) :
    Emits 0 (padLoop zero missing) (List.replicate missing zero) := by
  induction missing with
  | zero => exact emits_nothing
  | succ missing ih =>
      apply emits_congr (emits_guarded (emits_next (emits_put zero) ih))
      intro last buf
      rfl

/-- The digits are clipped to the room that the padding has left. -/
theorem ngx_sprintf_num_emits (ui64 : BitVec 64) (zero : Byte) (hexadecimal width : Nat) :
    Emits 0 (ngxSprintfNum ui64 zero hexadecimal width)
      (rendered ui64 zero hexadecimal width) := by
  apply emits_congr (emits_next (pad_loop_emits zero _) (emits_clipped (spelled hexadecimal ui64)))
  intro last buf
  have clipped (buf : List Byte) : (spelled hexadecimal ui64).take
      (if buf.length + (spelled hexadecimal ui64).length ≥ last then last - buf.length
        else (spelled hexadecimal ui64).length) =
      (spelled hexadecimal ui64).take (last - buf.length) := by
    split
    case isTrue => rfl
    case isFalse => rw [List.take_length, List.take_of_length_le (by omega)]
  rw [ngxSprintfNum, number_digits_spelled]
  simp only [Option.bind_eq_bind, Option.bind_some, clipped]
  rfl

def integerText (spec : Spec) (value : BitVec 64) : List Byte :=
  if spec.sign ∧ value.slt 0 then chr '-' :: rendered (-value) spec.zero spec.hex spec.width
  else rendered value spec.zero spec.hex spec.width

/-- The sign is stored without a look at the room, so there must be some. -/
theorem put_integer_emits (spec : Spec) (value : BitVec 64) :
    Emits 1 (putInteger spec value) (integerText spec value) := by
  unfold putInteger integerText
  split
  · exact emits_next (emits_put (chr '-')) (ngx_sprintf_num_emits _ _ _ _)
  · exact emits_more (ngx_sprintf_num_emits _ _ _ _) (Nat.zero_le 1)

def doubleText (spec : Spec) (negative : Bool) (parts : Nat → BitVec 64 × BitVec 64) :
    List Byte :=
  (if negative then [chr '-'] else []) ++
    (rendered (parts spec.fracWidth).1 spec.zero 0 spec.width ++
      if spec.fracWidth = 0 then []
      else [chr '.'] ++ rendered (parts spec.fracWidth).2 (chr '0') 0 spec.fracWidth)

theorem put_string_emits (p : List Byte) : Emits 0 (putString p) p := by
  induction p with
  | nil => exact emits_nothing
  | cons c p ih =>
      apply emits_congr (emits_guarded (emits_next (emits_put c) ih))
      intro last buf
      rfl

theorem put_double_emits (spec : Spec) (negative : Bool) (parts : Nat → BitVec 64 × BitVec 64) :
    Emits 1 (putDouble spec negative parts) (doubleText spec negative parts) := by
  have fraction : Emits 0 (putFraction spec (parts spec.fracWidth).2)
      (if spec.fracWidth = 0 then []
        else [chr '.'] ++ rendered (parts spec.fracWidth).2 (chr '0') 0 spec.fracWidth) := by
    unfold putFraction
    split
    · exact emits_nothing
    · exact emits_next (emits_guarded (emits_put (chr '.'))) (ngx_sprintf_num_emits _ _ _ _)
  have number := emits_next
    (ngx_sprintf_num_emits (parts spec.fracWidth).1 spec.zero 0 spec.width) fraction
  cases negative with
  | false => exact emits_more number (Nat.zero_le 1)
  | true => exact emits_next (emits_put (chr '-')) number

theorem conversion_emits {body rest : List Byte} {args left : List VaArg} {writer : Writer Byte}
    (converts : conversion body args = some (writer, rest, left)) :
    ∃ text, Emits 1 writer text := by
  unfold conversion at converts
  split at converts
  · cases converts
  split at converts
  · split at converts <;> cases converts
    exact ⟨_, emits_more (put_string_emits _) (Nat.zero_le 1)⟩
  split at converts
  · split at converts <;> cases converts
    exact ⟨_, put_double_emits _ _ _⟩
  split at converts
  · obtain ⟨⟨used, value, others⟩, -, same⟩ := Option.map_eq_some_iff.mp converts
    cases same
    exact ⟨_, put_integer_emits _ _⟩
  · cases converts
    exact ⟨_, emits_put _⟩

theorem format_loop_extends {last rounds : Nat} {buf fmt out : List Byte} {args : List VaArg}
    (done : formatLoop last rounds buf fmt args = some out) : buf <+: out := by
  induction rounds generalizing buf fmt args with
  | zero =>
      cases fmt with
      | nil =>
          rw [formatLoop] at done
          exact Option.some.inj done ▸ List.prefix_refl buf
      | cons c fmt => cases done
  | succ rounds ih =>
      cases fmt with
      | nil =>
          rw [formatLoop] at done
          exact Option.some.inj done ▸ List.prefix_refl buf
      | cons c fmt =>
          by_cases full : last ≤ buf.length
          · rw [formatLoop, if_pos full] at done
            exact Option.some.inj done ▸ List.prefix_refl buf
          have room : buf.length < last := Nat.lt_of_not_le full
          by_cases percent : c = chr '%'
          · rw [formatLoop, if_neg full, if_pos percent] at done
            obtain ⟨⟨writer, rest, left⟩, converts, written⟩ := Option.bind_eq_some_iff.mp done
            obtain ⟨appended, writes, later⟩ := Option.bind_eq_some_iff.mp written
            obtain ⟨text, emits⟩ := conversion_emits converts
            have cut := emits buf (last - buf.length) (by omega)
            rw [Nat.add_sub_cancel' (Nat.le_of_lt room), writes] at cut
            have grown : buf <+: appended := Option.some.inj cut ▸ List.prefix_append _ _
            exact grown.trans (ih later)
          · rw [format_loop_ordinary room percent] at done
            exact (List.prefix_append buf [c]).trans (ih done)

/-- The value of a decimal number with an optional sign. -/
def readSigned : List Byte → Option Int
  | [] => none
  | c :: text =>
      if c = chr '-' then (Numeral.read decimal text).map fun (value : Nat) => -(value : Int)
      else (Numeral.read decimal (c :: text)).map Int.ofNat

theorem read_signed_minus (number : Nat) :
    readSigned (chr '-' :: Numeral.spell decimal number) = some (-(number : Int)) := by
  rw [readSigned, if_pos rfl, Numeral.read_spell, Option.map_some]

/-- No digit is a sign. -/
theorem read_signed_plain (number : Nat) :
    readSigned (Numeral.spell decimal number) = some (number : Int) := by
  cases listed : Numeral.spell decimal number with
  | nil => exact absurd (List.map_eq_nil_iff.mp listed) (Numeral.digits_ne_nil _ _)
  | cons c text =>
      have digit : c ∈ Numeral.spell decimal number := listed ▸ List.mem_cons_self ..
      obtain ⟨value, member, shown⟩ := List.mem_map.mp digit
      have none_signs : ∀ value < 10, decimal.symbol value ≠ chr '-' := by decide
      have unsigned : c ≠ chr '-' :=
        shown ▸ none_signs value (Numeral.digits_lt decimal.two_le member)
      rw [readSigned, if_neg unsigned, ← listed, Numeral.read_spell]
      rfl

theorem scan_flags_signed (spec : Spec) (fmt : List Byte) (plain : spec.sign → spec.hex = 0) :
    (scanFlags spec fmt).1.sign → (scanFlags spec fmt).1.hex = 0 := by
  induction fmt generalizing spec with
  | nil => exact plain
  | cons c fmt ih =>
      rw [scanFlags]
      split
      · apply ih
        intro signed
        cases signed
      split
      · apply ih
        intro signed
        cases signed
      split
      · apply ih
        intro signed
        cases signed
      split <;> exact plain

theorem read_spec_signed (fmt : List Byte) (signed : (readSpec fmt).1.sign) :
    (readSpec fmt).1.hex = 0 :=
  scan_flags_signed _ _ (fun _ => rfl) signed

/-- Without a width, a signed number is read back, the least one too. -/
theorem integer_text_reads (spec : Spec) (value : BitVec 64) (signed : spec.sign)
    (plain : spec.hex = 0) (narrow : spec.width = 0) :
    readSigned (integerText spec value) = some value.toInt := by
  have unpadded (ui64 : BitVec 64) :
      rendered ui64 spec.zero spec.hex spec.width = Numeral.spell decimal ui64.toNat := by
    rw [rendered, narrow, Nat.zero_sub, List.replicate_zero, List.nil_append, plain]
    rfl
  have bound := value.isLt
  have negative_iff : value.slt 0 ↔ value.toInt < 0 := by
    rw [BitVec.slt_iff_toInt_lt]
    rfl
  rw [integerText, unpadded, unpadded]
  split
  case isTrue negative =>
    have below := negative_iff.mp negative.2
    rw [read_signed_minus, BitVec.toNat_neg]
    rw [BitVec.toInt_eq_toNat_cond] at below ⊢
    split at below <;> split <;> congr 1 <;> omega
  case isFalse nonnegative =>
    have above : ¬value.toInt < 0 := fun below => nonnegative ⟨signed, negative_iff.mpr below⟩
    rw [read_signed_plain]
    rw [BitVec.toInt_eq_toNat_cond] at above ⊢
    split at above
    · rw [if_pos (by assumption)]
    · omega

theorem conversion_integer {body rest : List Byte} {spec used : Spec} {c : Byte}
    {args left : List VaArg} {value : BitVec 64} (reads : readSpec body = (spec, c :: rest))
    (integer : isInteger c) (found : integerArg spec c args = some (used, value, left)) :
    conversion body args = some (putInteger used value, rest, left) := by
  have no_text : c ≠ chr 's' ∧ c ≠ chr 'f' := by
    rcases integer with rfl | rfl | rfl | rfl | rfl <;> decide
  rw [conversion, reads]
  simp only [no_text.1, no_text.2, if_false, if_pos integer, found, Option.map_some]

theorem conversion_long {body rest : List Byte} {spec : Spec} {c : Byte}
    (reads : readSpec body = (spec, c :: rest)) (long : c = chr 'i' ∨ c = chr 'L')
    (value : BitVec 64) (args : List VaArg) :
    conversion body (.long value :: args) = some (putInteger spec value, rest, args) := by
  apply conversion_integer reads
  · rcases long with rfl | rfl <;> decide
  · rw [integerArg, if_pos long]

theorem ngx_vslprintf_long {last : Nat} {buf body : List Byte} {fmt rest : CString} {spec : Spec}
    {c : Byte} (starts : fmt.bytes = chr '%' :: body)
    (reads : readSpec body = (spec, c :: rest.bytes)) (long : c = chr 'i' ∨ c = chr 'L')
    (value : BitVec 64) (args : List VaArg) (room : buf.length < last)
    (fits : buf.length + (integerText spec value).length ≤ last) :
    ngxVslprintf last buf fmt (.long value :: args) =
      ngxVslprintf last (buf ++ integerText spec value) rest args := by
  rw [ngxVslprintf, starts, List.length_cons,
    format_loop_conversion room (conversion_long reads long value args) (Nat.le_refl _),
    emits_whole (put_integer_emits spec value) room fits]
  rfl

theorem ngx_sprintf_num_room (ui64 : BitVec 64) (zero : Byte) (hexadecimal width : Nat)
    (buf : List Byte) (last : Nat)
    (room : buf.length + max width (spelled hexadecimal ui64).length ≤ last) :
    ngxSprintfNum ui64 zero hexadecimal width last buf =
      some (buf ++ (List.replicate (width - (spelled hexadecimal ui64).length) zero ++
        spelled hexadecimal ui64)) := by
  apply emits_whole (ngx_sprintf_num_emits ui64 zero hexadecimal width)
  · omega
  · rw [rendered, List.length_append, List.length_replicate]
    omega

theorem spelled_zero (hexadecimal : Nat) : spelled hexadecimal 0 = [chr '0'] := by
  unfold spelled system
  split
  · decide
  · split <;> decide

/-- The loop for 32 bits does what the one for 64 bits does. -/
theorem decimal_digits_narrow {ui64 : BitVec 64} (small : ui64.toNat ≤ 0xffffffff) :
    decimalDigits (ui64.setWidth 32) = decimalDigits ui64 := by
  have same : (ui64.setWidth 32).toNat = ui64.toNat := by
    rw [BitVec.toNat_setWidth, Nat.mod_eq_of_lt (by omega)]
  rw [decimal_digits_spell (by decide) _ (by omega), decimal_digits_spell (by decide) _ ui64.isLt,
    same]

/-- A signed conversion without a width writes what reads back to its argument, and what comes
behind it in the format is written behind that. -/
theorem ngx_vslprintf_signed {value : BitVec 64} {fmt rest : CString} {body : List Byte}
    {spec : Spec} {c : Byte} (starts : fmt.bytes = chr '%' :: body)
    (reads : readSpec body = (spec, c :: rest.bytes)) (long : c = chr 'i' ∨ c = chr 'L')
    (signed : spec.sign) (narrow : spec.width = 0) :
    readSigned (integerText spec value) = some value.toInt ∧
      ∀ args buf last, buf.length + (integerText spec value).length ≤ last →
        (rest.bytes = [] →
          ngxVslprintf last buf fmt (.long value :: args) =
            some (buf ++ integerText spec value)) ∧
        (∀ out, ngxVslprintf last buf fmt (.long value :: args) = some out →
          buf ++ integerText spec value <+: out) ∧
        ngxVslprintf last buf fmt (.long value :: args) =
          ngxVslprintf last (buf ++ integerText spec value) rest args := by
  have plain : spec.hex = 0 := by
    have bare := read_spec_signed body
    rw [reads] at bare
    exact bare signed
  have exact := integer_text_reads spec value signed plain narrow
  refine ⟨exact, fun args buf last fits => ?_⟩
  have written : integerText spec value ≠ [] := by
    intro empty
    rw [empty] at exact
    cases exact
  have some_text := List.length_pos_iff.mpr written
  have goes_on := ngx_vslprintf_long starts reads long value args (by omega) fits
  rw [goes_on]
  refine ⟨fun ended => ?_, fun out done => format_loop_extends done, rfl⟩
  rw [ngxVslprintf, ended, formatLoop]

/-- A number is rendered as padding and as the one spelling that reads back to it; both ways to
divide agree; and a signed conversion without a width writes what reads back to its argument,
which is all of the output when the format ends there and the start of it otherwise. -/
theorem number_rendering :
    (∀ ui64 zero hexadecimal width buf last,
      buf.length + max width (spelled hexadecimal ui64).length ≤ last →
      ngxSprintfNum ui64 zero hexadecimal width last buf =
        some (buf ++ (List.replicate (width - (spelled hexadecimal ui64).length) zero ++
          spelled hexadecimal ui64))) ∧
    (∀ hexadecimal ui64,
      Numeral.read (system hexadecimal) (spelled hexadecimal ui64) = some ui64.toNat ∧
      Numeral.Trimmed (system hexadecimal) (spelled hexadecimal ui64) ∧
      (spelled hexadecimal ui64).length ≤ ngxInt64Len ∧
      ∀ text, Numeral.read (system hexadecimal) text = some ui64.toNat →
        Numeral.Trimmed (system hexadecimal) text → text = spelled hexadecimal ui64) ∧
    (∀ hexadecimal, spelled hexadecimal 0 = [chr '0']) ∧
    (∀ ui64 : BitVec 64, ui64.toNat ≤ 0xffffffff →
      decimalDigits (ui64.setWidth 32) = decimalDigits ui64) ∧
    ∀ (value : BitVec 64) (fmt rest : CString) (body : List Byte) (spec : Spec) (c : Byte),
      fmt.bytes = chr '%' :: body → readSpec body = (spec, c :: rest.bytes) →
      (c = chr 'i' ∨ c = chr 'L') → spec.sign → spec.width = 0 →
      readSigned (integerText spec value) = some value.toInt ∧
        ∀ args buf last, buf.length + (integerText spec value).length ≤ last →
          (rest.bytes = [] →
            ngxVslprintf last buf fmt (.long value :: args) =
              some (buf ++ integerText spec value)) ∧
          (∀ out, ngxVslprintf last buf fmt (.long value :: args) = some out →
            buf ++ integerText spec value <+: out) ∧
          ngxVslprintf last buf fmt (.long value :: args) =
            ngxVslprintf last (buf ++ integerText spec value) rest args := by
  refine ⟨ngx_sprintf_num_room, ?_, spelled_zero, fun ui64 => decimal_digits_narrow, ?_⟩
  · intro hexadecimal ui64
    refine ⟨Numeral.read_spell _ _, Numeral.spell_trimmed _ _, spelled_length_le _ _, ?_⟩
    intro text reads trimmed
    exact Numeral.spell_unique (system hexadecimal) reads trimmed
  · intro value fmt rest body spec c starts reads long signed narrow
    exact ngx_vslprintf_signed starts reads long signed narrow

theorem number_rendering_sample :
    ngxSprintfNum 1234567 (chr ' ') 1 10 30 [chr '='] =
        some ([chr '='] ++ (List.replicate 4 (chr ' ') ++ "12d687".toList.map chr)) ∧
      decimalDigits ((0xffffffff : BitVec 64).setWidth 32) =
        decimalDigits (0xffffffff : BitVec 64) ∧
      readSigned ("-9223372036854775808".toList.map chr) = some (-9223372036854775808) ∧
      ngxVslprintf 40 [chr '='] ⟨"%L".toList.map chr, by decide⟩ [.long 0x8000000000000000#64] =
        some ([chr '='] ++ "-9223372036854775808".toList.map chr) := by
  refine ⟨?_, ?_, ?_⟩
  · exact number_rendering.1 1234567 (chr ' ') 1 10 [chr '='] 30 (by decide)
  · exact number_rendering.2.2.2.1 0xffffffff (by decide)
  · have least := number_rendering.2.2.2.2 0x8000000000000000#64
      ⟨"%L".toList.map chr, by decide⟩ ⟨[], by decide⟩ [chr 'L']
      ⟨chr ' ', 0, true, 0, 0⟩ (chr 'L') (by decide) (by rfl) (by decide) (by decide) (by decide)
    exact ⟨least.1, (least.2 [] [chr '='] 40 (by decide)).1 rfl⟩

end NgxServer.NumberFormat
