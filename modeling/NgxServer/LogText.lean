import NgxServer.Log
import NgxServer.Truncation

/-!
# The text in the log file

`ngx_log_stderr` hands its finished message to `ngx_log_error_core` as a format.
The message is formatted once more, without arguments, so what reaches the log
file is what the message spells when its bytes are read as ordinary bytes and
escapes. It is the message itself just when there is no `%` in it, as long as the
line is not cut off.
-/

namespace NgxServer.LogText

open NgxServer.Comm NgxServer.Printf NgxServer.NumberFormat NgxServer.Truncation NgxServer.Log
open BoundedSink

set_option autoImplicit false

/-- A text is read as a format that has no arguments, until `room` bytes are out: an ordinary
byte stands for itself, and a complete escape, which is no conversion, for its last byte. -/
inductive Reads : (room : Nat) → (text out : List Byte) → Prop
  | full (text : List Byte) : Reads 0 text []
  | ended (room : Nat) : Reads room [] []
  | ordinary {room : Nat} {c : Byte} {text out : List Byte} :
      c ≠ chr '%' → Reads room text out → Reads (room + 1) (c :: text) (c :: out)
  | escape {room : Nat} {body rest out : List Byte} {spec : Spec} {c : Byte} :
      readSpec body = (spec, c :: rest) → ¬isInteger c → c ≠ chr 's' → c ≠ chr 'f' →
      Reads room rest out → Reads (room + 1) (chr '%' :: body) (c :: out)

/-- A text that spells its own first bytes; the last two that there is room for give way to the
newline, and must only be readable. -/
def SpellsItself (room : Nat) (text : List Byte) : Prop :=
  ∃ out, Reads room text out ∧ out.take (room - 2) = text.take (room - 2)

theorem reads_shorter {room : Nat} {text out : List Byte} (reads : Reads room text out) :
    out.length ≤ text.length := by
  induction reads with
  | full text => exact Nat.zero_le _
  | ended room => exact Nat.le_refl 0
  | ordinary _ _ ih => exact Nat.succ_le_succ ih
  | @escape room body rest out spec c found _ _ _ _ ih =>
      have inside := read_spec_length body
      rw [found] at inside
      simp only [List.length_cons] at inside ⊢
      omega

theorem reads_all {room : Nat} {text out : List Byte} (reads : Reads room text out)
    (all : text.length ≤ out.length) : chr '%' ∉ text := by
  induction reads with
  | full text =>
      rw [List.length_eq_zero_iff.mp (Nat.le_zero.mp all)]
      exact List.not_mem_nil
  | ended room => exact List.not_mem_nil
  | ordinary ordinary _ ih =>
      have later := ih (Nat.le_of_succ_le_succ all)
      simp only [List.mem_cons, not_or]
      exact ⟨fun same => ordinary same.symm, later⟩
  | @escape room body rest out spec c found _ _ _ reads _ =>
      have inside := read_spec_length body
      rw [found] at inside
      have shorter := reads_shorter reads
      simp only [List.length_cons] at inside all
      omega

theorem reads_plain (room : Nat) {text : List Byte} (plain : chr '%' ∉ text.take room) :
    Reads room text (text.take room) := by
  induction room generalizing text with
  | zero => exact .full text
  | succ room ih =>
      cases text with
      | nil => exact .ended _
      | cons c text =>
          rw [List.take_succ_cons, List.mem_cons, not_or] at plain
          exact .ordinary (Ne.symm plain.1) (ih plain.2)

theorem plain_spells_itself (room : Nat) {text : List Byte}
    (plain : chr '%' ∉ text.take room) : SpellsItself room text := by
  refine ⟨text.take room, reads_plain room plain, ?_⟩
  rw [List.take_take, Nat.min_eq_left (Nat.sub_le room 2)]

/-- Where nothing is cut off, only a text without `%` spells itself. -/
theorem spells_itself_iff {room : Nat} {text : List Byte} (fits : text.length ≤ room - 2) :
    SpellsItself room text ↔ chr '%' ∉ text := by
  constructor
  · rintro ⟨out, reads, same⟩
    apply reads_all reads
    calc
      text.length = (out.take (room - 2)).length := by rw [same, List.take_of_length_le fits]
      _ ≤ out.length := List.length_take_le' _ _
  · intro plain
    exact plain_spells_itself room fun listed => plain (List.mem_of_mem_take listed)

theorem conversion_no_args (body : List Byte) :
    conversion body [] = match readSpec body with
      | (_, []) => none
      | (_, c :: rest) =>
          if isInteger c ∨ c = chr 's' ∨ c = chr 'f' then none
          else some (fun last buf => put last buf c, rest, []) := by
  rw [conversion]
  cases reads : readSpec body with
  | mk spec rest =>
      cases rest with
      | nil => rfl
      | cons c rest =>
          dsimp only
          by_cases string : c = chr 's'
          · rw [if_pos string, if_pos (.inr (.inl string))]
          by_cases double : c = chr 'f'
          · rw [if_neg string, if_pos double, if_pos (.inr (.inr double))]
          by_cases integer : isInteger c
          · rw [if_neg string, if_neg double, if_pos integer, if_pos (.inl integer)]
            rfl
          · rw [if_neg string, if_neg double, if_neg integer,
              if_neg (by simp [string, double, integer])]

theorem reads_end_iff {room : Nat} {text : List Byte} (ended_now : room = 0 ∨ text = [])
    (result buf : List Byte) :
    (∃ out, result = buf ++ out ∧ Reads room text out) ↔ buf = result := by
  constructor
  · rintro ⟨out, same, reads⟩
    cases reads with
    | full => rw [same, List.append_nil]
    | ended => rw [same, List.append_nil]
    | ordinary => simp at ended_now
    | escape => simp at ended_now
  · rintro rfl
    refine ⟨[], (List.append_nil buf).symm, ?_⟩
    rcases ended_now with rfl | rfl
    · exact .full text
    · exact .ended room

theorem reads_ordinary_iff {room : Nat} {c : Byte} {text : List Byte} (ordinary : c ≠ chr '%')
    (result buf : List Byte) :
    (∃ out, result = buf ++ out ∧ Reads (room + 1) (c :: text) out) ↔
      ∃ out, result = buf ++ (c :: out) ∧ Reads room text out := by
  constructor
  · rintro ⟨out, same, reads⟩
    cases reads with
    | ordinary _ later => exact ⟨_, same, later⟩
    | escape => exact absurd rfl ordinary
  · rintro ⟨out, same, later⟩
    exact ⟨c :: out, same, .ordinary ordinary later⟩

theorem reads_escape_iff {room : Nat} {body rest : List Byte} {spec : Spec} {c : Byte}
    (found : readSpec body = (spec, c :: rest)) (result buf : List Byte) :
    (∃ out, result = buf ++ out ∧ Reads (room + 1) (chr '%' :: body) out) ↔
      ¬(isInteger c ∨ c = chr 's' ∨ c = chr 'f') ∧
        ∃ out, result = buf ++ (c :: out) ∧ Reads room rest out := by
  constructor
  · rintro ⟨out, same, reads⟩
    cases reads with
    | ordinary ordinary => exact absurd rfl ordinary
    | escape foundToo not_integer not_s not_f later =>
        rw [found] at foundToo
        cases foundToo
        exact ⟨by simp [not_integer, not_s, not_f], _, same, later⟩
  · rintro ⟨literal, out, same, later⟩
    simp only [not_or] at literal
    exact ⟨c :: out, same, .escape found literal.1 literal.2.1 literal.2.2 later⟩

theorem format_loop_no_conversion {last rounds : Nat} {buf body : List Byte}
    (room : buf.length < last) (stuck : conversion body [] = none) :
    formatLoop last (rounds + 1) buf (chr '%' :: body) [] = none := by
  rw [formatLoop, if_neg (Nat.not_le.mpr room), if_pos rfl, stuck]
  rfl

/-- One round at a `%`: a conversion asks for an argument, and an unfinished one leaves the
text. -/
theorem format_loop_percent {rounds room : Nat} {buf body result : List Byte}
    (enough : body.length ≤ rounds)
    (later : ∀ buf text, text.length ≤ rounds →
      (formatLoop (buf.length + room) rounds buf text [] = some result ↔
        ∃ out, result = buf ++ out ∧ Reads room text out)) :
    formatLoop (buf.length + (room + 1)) (rounds + 1) buf (chr '%' :: body) [] = some result ↔
      ∃ out, result = buf ++ out ∧ Reads (room + 1) (chr '%' :: body) out := by
  have space : buf.length < buf.length + (room + 1) := by omega
  have taken := conversion_no_args body
  cases found : readSpec body with
  | mk spec rest =>
      rw [found] at taken
      cases rest with
      | nil =>
          rw [format_loop_no_conversion space taken]
          constructor
          · rintro ⟨⟩
          · rintro ⟨out, -, reads⟩
            cases reads with
            | ordinary ordinary => exact absurd rfl ordinary
            | escape foundToo =>
                rw [found] at foundToo
                cases foundToo
      | cons c rest =>
          have inside := read_spec_length body
          rw [found, List.length_cons] at inside
          have stored : buf.length + (room + 1) = (buf ++ [c]).length + room := by
            rw [List.length_append, List.length_singleton]
            omega
          rw [reads_escape_iff found]
          by_cases asks : isInteger c ∨ c = chr 's' ∨ c = chr 'f'
          · rw [format_loop_no_conversion space (taken.trans (if_pos asks))]
            simp [asks]
          · have goes_on := later (buf ++ [c]) rest (by omega)
            rw [format_loop_conversion space (taken.trans (if_neg asks)) enough, put,
              if_pos space, Option.bind_some, stored,
              format_loop_rounds _ _ _ _ (Nat.le_refl _) (show rest.length ≤ rounds by omega),
              goes_on]
            simp only [asks, not_false_eq_true, true_and, List.append_assoc,
              List.singleton_append]

/-- A pass without arguments has the result that the text spells, and none when it asks for an
argument or leaves the text. -/
theorem format_loop_reads (rounds room : Nat) (buf text result : List Byte)
    (enough : text.length ≤ rounds) :
    formatLoop (buf.length + room) rounds buf text [] = some result ↔
      ∃ out, result = buf ++ out ∧ Reads room text out := by
  induction rounds generalizing room buf text with
  | zero =>
      have empty := List.length_eq_zero_iff.mp (Nat.le_zero.mp enough)
      rw [reads_end_iff (.inr empty), empty, formatLoop, Option.some.injEq]
  | succ rounds ih =>
      cases text with
      | nil => rw [reads_end_iff (.inr rfl), formatLoop, Option.some.injEq]
      | cons c text =>
          have enough_left := Nat.le_of_succ_le_succ enough
          cases room with
          | zero =>
              rw [reads_end_iff (.inl rfl), Nat.add_zero,
                loop_full _ _ _ _ _ (Nat.le_refl _) enough, Option.some.injEq]
          | succ room =>
              have stored (c : Byte) :
                  buf.length + (room + 1) = (buf ++ [c]).length + room := by
                rw [List.length_append, List.length_singleton]
                omega
              have space : buf.length < buf.length + (room + 1) := by omega
              by_cases percent : c = chr '%'
              · subst percent
                exact format_loop_percent enough_left (ih room)
              · rw [format_loop_ordinary space percent, stored c, ih _ _ _ enough_left,
                  reads_ordinary_iff percent]
                simp only [List.append_assoc, List.singleton_append]

theorem spelled_no_nul (hexadecimal : Nat) (ui64 : BitVec 64) : 0 ∉ spelled hexadecimal ui64 := by
  have visible : ∀ digit < (system hexadecimal).base, (system hexadecimal).symbol digit ≠ 0 := by
    unfold system
    split
    · decide
    · split <;> decide
  intro listed
  obtain ⟨digit, member, shown⟩ := List.mem_map.mp listed
  exact visible digit (Numeral.digits_lt (system hexadecimal).two_le member) shown

theorem rendered_no_nul {zero : Byte} (visible : zero ≠ 0) (ui64 : BitVec 64)
    (hexadecimal width : Nat) : 0 ∉ rendered ui64 zero hexadecimal width := by
  rw [rendered, List.mem_append, not_or]
  refine ⟨?_, spelled_no_nul hexadecimal ui64⟩
  intro listed
  exact visible (List.eq_of_mem_replicate listed).symm

theorem scan_flags_zero (spec : Spec) (fmt : List Byte) :
    (scanFlags spec fmt).1.zero = spec.zero := by
  induction fmt generalizing spec with
  | nil => rfl
  | cons c fmt ih =>
      rw [scanFlags]
      split
      · exact ih _
      split
      · exact ih _
      split
      · exact ih _
      split <;> rfl

theorem read_spec_zero (fmt : List Byte) : (readSpec fmt).1.zero ≠ 0 := by
  unfold readSpec
  rw [scan_flags_zero]
  show (if fmt.head? = some (chr '0') then chr '0' else chr ' ') ≠ 0
  split <;> decide

theorem integer_arg_zero {spec used : Spec} {c : Byte} {args left : List VaArg}
    {value : BitVec 64} (found : integerArg spec c args = some (used, value, left))
    (visible : spec.zero ≠ 0) : used.zero ≠ 0 := by
  unfold integerArg at found
  split at found
  · split at found
    · cases found
      exact visible
    split at found
    · cases found
      exact visible
    · cases found
  · split at found
    · cases found
      exact visible
    split at found
    · cases found
      exact (by decide : chr '0' ≠ 0)
    · cases found
  · cases found

theorem integer_text_no_nul {spec : Spec} (visible : spec.zero ≠ 0) (value : BitVec 64) :
    0 ∉ integerText spec value := by
  unfold integerText
  split
  · rw [List.mem_cons, not_or]
    exact ⟨by decide, rendered_no_nul visible _ _ _⟩
  · exact rendered_no_nul visible _ _ _

theorem double_text_no_nul {spec : Spec} (visible : spec.zero ≠ 0) (negative : Bool)
    (parts : Nat → BitVec 64 × BitVec 64) : 0 ∉ doubleText spec negative parts := by
  have sign : (0 : Byte) ∉ (if negative then [chr '-'] else []) := by cases negative <;> decide
  have fraction : (0 : Byte) ∉ (if spec.fracWidth = 0 then []
      else [chr '.'] ++ rendered (parts spec.fracWidth).2 (chr '0') 0 spec.fracWidth) := by
    split
    · exact List.not_mem_nil
    · rw [List.mem_append, not_or]
      exact ⟨by decide, rendered_no_nul (by decide) _ _ _⟩
  rw [doubleText, List.mem_append, List.mem_append, not_or, not_or]
  exact ⟨sign, rendered_no_nul visible _ _ _, fraction⟩

theorem converts_no_nul {body rest text : List Byte} {args left : List VaArg}
    (converts : Converts body args rest left text) (no_nul : 0 ∉ body) :
    0 ∉ text ∧ 0 ∉ rest := by
  have visible := read_spec_zero body
  have inside := (read_spec_suffix body).subset
  cases converts with
  | string p args reads =>
      rw [reads] at inside
      exact ⟨p.no_nul, fun listed => no_nul (inside (List.mem_cons_of_mem _ listed))⟩
  | double negative parts args reads =>
      rw [reads] at inside visible
      exact ⟨double_text_no_nul visible negative parts,
        fun listed => no_nul (inside (List.mem_cons_of_mem _ listed))⟩
  | integer reads integer found =>
      rw [reads] at inside visible
      exact ⟨integer_text_no_nul (integer_arg_zero found visible) _,
        fun listed => no_nul (inside (List.mem_cons_of_mem _ listed))⟩
  | literal args reads =>
      rw [reads] at inside
      refine ⟨?_, fun listed => no_nul (inside (List.mem_cons_of_mem _ listed))⟩
      rintro (listed | ⟨_, ⟨⟩⟩)
      exact no_nul (inside (List.mem_cons_self ..))

theorem formats_no_nul {fmt out : List Byte} {args : List VaArg} (formats : Formats fmt args out)
    (no_nul : 0 ∉ fmt) : 0 ∉ out := by
  induction formats with
  | done => exact no_nul
  | @ordinary c _ _ _ _ _ ih =>
      rw [List.mem_cons, not_or] at no_nul
      simpa using ⟨no_nul.1, ih no_nul.2⟩
  | conversion converts _ ih =>
      rw [List.mem_cons, not_or] at no_nul
      have parts := converts_no_nul converts no_nul.2
      rw [List.mem_append, not_or]
      exact ⟨parts.1, ih parts.2⟩

/-- The error code is at most five characters long, as those of the system are, or it is 0. -/
def LeftFits (err : BitVec 32) : Prop := err = 0 ∨ (leftstr err).length < leftstrSize

instance (err : BitVec 32) : Decidable (LeftFits err) := by
  unfold LeftFits
  infer_instance

def errnoText (strerror : BitVec 32 → CString) (err : BitVec 32) : List Byte :=
  leftstr err ++ (strerror err).bytes ++ rightstr

def withErrno (strerror : BitVec 32 → CString) (err : BitVec 32) (line : List Byte) : List Byte :=
  if err ≠ 0 ∧ line.length + (errnoText strerror err).length < ngxMaxErrorStr then
    line ++ errnoText strerror err
  else line

def message (strerror : BitVec 32 → CString) (err : BitVec 32) (out : List Byte) : List Byte :=
  (withErrno strerror err ((text "nginx: " ++ out).take ngxMaxErrorStr)).take (ngxMaxErrorStr - 2)

theorem before_newline_take (p : List Byte) : beforeNewline p = p.take (ngxMaxErrorStr - 2) := by
  unfold beforeNewline
  split
  case isTrue => rfl
  case isFalse short =>
    rw [List.take_of_length_le]
    have size : ngxMaxErrorStr = 2048 := rfl
    omega

theorem append_errno_fits {err : BitVec 32} (fits : LeftFits err)
    (strerror : BitVec 32 → CString) (line : List Byte) :
    appendErrno strerror ngxMaxErrorStr line err = some (withErrno strerror err line) := by
  unfold appendErrno withErrno
  by_cases fine : err = 0
  · rw [if_pos fine, if_neg (fun both => both.1 fine)]
  · rw [if_neg fine, ngxLogErrno, if_pos (fits.resolve_left fine)]
    have whole : (errnoText strerror err).length =
        (strerror err).bytes.length + ((leftstr err).length + rightstr.length) := by
      simp only [errnoText, List.length_append]
      omega
    by_cases room : line.length + (errnoText strerror err).length < ngxMaxErrorStr
    · rw [if_pos (by omega), if_pos ⟨fine, room⟩]
      simp only [copy, Option.bind_eq_bind]
      rw [if_pos (by omega), Option.bind_some, List.length_append, if_pos (by omega),
        Option.bind_some, List.length_append, List.length_append, if_pos (by omega)]
      simp only [errnoText, List.append_assoc]
    · rw [if_neg (by omega), if_neg (fun both => room both.2)]

theorem append_errno_overflow {err : BitVec 32} (long : ¬LeftFits err)
    (strerror : BitVec 32 → CString) (line : List Byte) :
    appendErrno strerror ngxMaxErrorStr line err = none := by
  rw [LeftFits, not_or] at long
  rw [appendErrno, if_neg long.1, ngxLogErrno, if_neg long.2]

theorem sprintf_int_no_nul (value : BitVec 32) : 0 ∉ sprintfInt value := by
  have digits (number : Nat) : 0 ∉ Numeral.spell decimal number := by
    have visible : ∀ digit < decimal.base, decimal.symbol digit ≠ 0 := by decide
    intro listed
    obtain ⟨digit, member, shown⟩ := List.mem_map.mp listed
    exact visible digit (Numeral.digits_lt decimal.two_le member) shown
  unfold sprintfInt
  split
  · rw [List.mem_cons, not_or]
    exact ⟨by decide, digits _⟩
  · exact digits _

theorem message_no_nul (strerror : BitVec 32 → CString) (err : BitVec 32) {out : List Byte}
    (no_nul : 0 ∉ out) : 0 ∉ message strerror err out := by
  have line : 0 ∉ (text "nginx: " ++ out).take ngxMaxErrorStr := by
    intro listed
    rcases List.mem_append.mp (List.mem_of_mem_take listed) with front | back
    · exact absurd front (by decide)
    · exact no_nul back
  have added : 0 ∉ errnoText strerror err := by
    simp only [errnoText, leftstr, List.mem_append, not_or]
    exact ⟨⟨⟨⟨by decide, sprintf_int_no_nul err⟩, by decide⟩, (strerror err).no_nul⟩, by decide⟩
  intro listed
  have inside := List.mem_of_mem_take listed
  unfold withErrno at inside
  split at inside
  · rcases List.mem_append.mp inside with front | back
    · exact line front
    · exact added back
  · exact line inside

def Short (bound : Nat) (fmt : List Byte) (args : List VaArg) : Prop :=
  ∃ out, Formats fmt args out ∧ out.length ≤ bound

theorem rendered_length_le (ui64 : BitVec 64) (zero : Byte) (hexadecimal : Nat) {width : Nat}
    (narrow : width ≤ ngxInt64Len) :
    (rendered ui64 zero hexadecimal width).length ≤ ngxInt64Len := by
  have digits := spelled_length_le hexadecimal ui64
  rw [rendered, List.length_append, List.length_replicate]
  omega

theorem integer_text_length_le {spec : Spec} (narrow : spec.width ≤ ngxInt64Len)
    (value : BitVec 64) : (integerText spec value).length ≤ ngxInt64Len + 1 := by
  unfold integerText
  split
  · exact Nat.succ_le_succ (rendered_length_le _ _ _ narrow)
  · exact Nat.le_succ_of_le (rendered_length_le _ _ _ narrow)

theorem short_done (args : List VaArg) : Short 0 [] args := ⟨[], .done args, Nat.le_refl 0⟩

theorem short_ordinary {bound : Nat} {c : Byte} {fmt : List Byte} {args : List VaArg}
    (ordinary : c ≠ chr '%') (rest : Short bound fmt args) : Short (bound + 1) (c :: fmt) args := by
  obtain ⟨out, formats, short⟩ := rest
  exact ⟨[c] ++ out, .ordinary ordinary formats, Nat.succ_le_succ short⟩

theorem short_int {bound : Nat} {body rest : List Byte} {spec : Spec} {c : Byte}
    {args : List VaArg} (value : BitVec 32) (reads : readSpec body = (spec, c :: rest))
    (int : c = chr 'd' ∨ c = chr 'P') (narrow : spec.width ≤ ngxInt64Len)
    (later : Short bound rest args) :
    Short (bound + (ngxInt64Len + 1)) (chr '%' :: body) (.int value :: args) := by
  obtain ⟨out, formats, short⟩ := later
  obtain ⟨used, wide, found, same⟩ : ∃ used wide,
      integerArg spec c (.int value :: args) = some (used, wide, args) ∧
        used.width = spec.width := by
    rcases int with rfl | rfl
    · exact ⟨_, _, rfl, rfl⟩
    · exact ⟨_, _, rfl, rfl⟩
  have integer : isInteger c := by
    rcases int with rfl | rfl <;> decide
  refine ⟨_, .conversion (.integer reads integer found) formats, ?_⟩
  have narrow_used : used.width ≤ ngxInt64Len := same ▸ narrow
  have written := integer_text_length_le narrow_used wide
  rw [List.length_append]
  omega

theorem short_string {bound : Nat} {body rest : List Byte} {spec : Spec} {args : List VaArg}
    (p : CString) (reads : readSpec body = (spec, chr 's' :: rest))
    (later : Short bound rest args) :
    Short (bound + p.bytes.length) (chr '%' :: body) (.str p :: args) := by
  obtain ⟨out, formats, short⟩ := later
  refine ⟨_, .conversion (.string p args reads) formats, ?_⟩
  rw [List.length_append]
  omega

theorem ngx_vslprintf_short {bound : Nat} {fmt : CString} {args : List VaArg} (last : Nat)
    (buf : List Byte) (short : Short bound fmt.bytes args) (room : buf.length ≤ last) :
    ∃ line, ngxVslprintf last buf fmt args = some line ∧ line.length ≤ buf.length + bound := by
  obtain ⟨out, formats, few⟩ := short
  have writes := ngx_vslprintf_formats formats buf (last - buf.length)
  rw [Nat.add_sub_cancel' room] at writes
  refine ⟨_, writes, ?_⟩
  have cut := List.length_take_le' (last - buf.length) out
  rw [List.length_append]
  omega

theorem time_short (year mon mday hour min sec : BitVec 32) :
    Short 131 timeFormat.bytes
      [.int year, .int mon, .int mday, .int hour, .int min, .int sec] := by
  have four (rest : List Byte) :
      readSpec (text "4d" ++ rest) = (⟨chr ' ', 4, true, 0, 0⟩, chr 'd' :: rest) := rfl
  have two (rest : List Byte) :
      readSpec (text "02d" ++ rest) = (⟨chr '0', 2, true, 0, 0⟩, chr 'd' :: rest) := rfl
  apply short_int year (four _) (by decide) (by decide)
  apply short_ordinary (by decide)
  apply short_int mon (two _) (by decide) (by decide)
  apply short_ordinary (by decide)
  apply short_int mday (two _) (by decide) (by decide)
  apply short_ordinary (by decide)
  apply short_int hour (two _) (by decide) (by decide)
  apply short_ordinary (by decide)
  apply short_int min (two _) (by decide) (by decide)
  apply short_ordinary (by decide)
  apply short_int sec (two []) (by decide) (by decide)
  exact short_done []

theorem level_short (name : CString) :
    Short (2 + name.bytes.length + 2) (literal " [%s] ").bytes [.str name] := by
  have string : readSpec (text "s] ") = (⟨chr ' ', 0, true, 0, 0⟩, chr 's' :: text "] ") := rfl
  have back : Short 2 (text "] ") [] :=
    short_ordinary (by decide) (short_ordinary (by decide) (short_done []))
  have front : Short (2 + name.bytes.length + 2) (text " [" ++ (chr '%' :: text "s] "))
      [.str name] :=
    short_ordinary (by decide) (short_ordinary (by decide) (short_string name string back))
  exact front

theorem pid_short (pid : BitVec 32) : Short 23 (literal "%P: ").bytes [.int pid] := by
  have process : readSpec (text "P: ") = (⟨chr ' ', 0, true, 0, 0⟩, chr 'P' :: text ": ") := rfl
  apply short_int pid process (by decide) (by decide)
  exact short_ordinary (by decide) (short_ordinary (by decide) (short_done []))

/-- The front of the line leaves room for most of the text. -/
theorem line_prefix_some (env : LogEnv) :
    ∃ front, linePrefix env ngxLogStderrLevel = some front ∧
      front.length ≤ ngxMaxErrorStr - 2 := by
  obtain ⟨strcurrtime, first, timeBound⟩ := ngx_vslprintf_short farLast []
    (time_short (env.tm.tmYear + 1900) (env.tm.tmMon + 1) env.tm.tmMday env.tm.tmHour
      env.tm.tmMin env.tm.tmSec) (Nat.zero_le _)
  have cut : (cString strcurrtime).bytes.length ≤ 131 := by
    have shorter := (List.takeWhile_prefix (· ≠ 0) (l := strcurrtime)).length_le
    exact Nat.le_trans shorter timeBound
  have size : ngxMaxErrorStr = 2048 := rfl
  have copied : copy ngxMaxErrorStr [] (cString strcurrtime).bytes =
      some (cString strcurrtime).bytes := by
    rw [copy, if_pos, List.nil_append]
    rw [List.length_nil]
    omega
  obtain ⟨second, levelled, levelBound⟩ := ngx_vslprintf_short ngxMaxErrorStr
    (cString strcurrtime).bytes (level_short (literal "stderr")) (by omega)
  have six : (literal "stderr").bytes.length = 6 := rfl
  obtain ⟨front, done, frontBound⟩ := ngx_vslprintf_short ngxMaxErrorStr second
    (pid_short env.ngxPid) (by omega)
  refine ⟨front, ?_, by omega⟩
  have named : errLevels[ngxLogStderrLevel]? = some (literal "stderr") := rfl
  simp only [linePrefix, first, copied, named, levelled, done, Option.bind_eq_bind,
    Option.bind_some]

/-- The terminal gets the message, and the log file the same behind the front of the line, as far
as the line goes. -/
def LogsSame (env : LogEnv) (err : BitVec 32) (fmt : CString) (args : List VaArg)
    (front msg : List Byte) : Prop :=
  ngxLogStderr env err fmt args =
    some (msg ++ [chr '\n'], (front ++ msg).take (ngxMaxErrorStr - 2) ++ [chr '\n'])

theorem log_line {env : LogEnv} {front msg : List Byte} (admitted : env.logLevel ≥ 0)
    (begins : linePrefix env ngxLogStderrLevel = some front)
    (short : front.length ≤ ngxMaxErrorStr) (no_nul : 0 ∉ msg) (line : List Byte) :
    ngxLogErrorCore env ngxLogStderrLevel 0 (cString msg) [] = some line ↔
      ∃ out, Reads (ngxMaxErrorStr - front.length) msg out ∧
        line = (front ++ out).take (ngxMaxErrorStr - 2) ++ [chr '\n'] := by
  have pass (result : List Byte) := format_loop_reads msg.length (ngxMaxErrorStr - front.length)
    front msg result (Nat.le_refl _)
  rw [Nat.add_sub_cancel' short] at pass
  have shown : ¬((ngxLogStderrLevel : Int) > env.logLevel) := by
    have level : (ngxLogStderrLevel : Int) = 0 := rfl
    omega
  have second (p : List Byte) : appendErrno env.strerror ngxMaxErrorStr p 0 = some p := if_pos rfl
  simp only [ngxLogErrorCore, begins, ngxVslprintf, c_string_bytes no_nul, second, shown, if_false,
    Option.bind_eq_bind, Option.bind_some, Option.bind_eq_some_iff, pass, Option.some.injEq,
    before_newline_take]
  constructor
  · rintro ⟨p, ⟨out, rfl, reads⟩, rfl⟩
    exact ⟨out, reads, rfl⟩
  · rintro ⟨out, reads, rfl⟩
    exact ⟨front ++ out, ⟨out, rfl, reads⟩, rfl⟩

theorem first_pass {fmt : CString} {args : List VaArg} {out : List Byte}
    (formats : Formats fmt.bytes args out) :
    ngxVslprintf ngxMaxErrorStr (text "nginx: ") fmt args =
      some ((text "nginx: " ++ out).take ngxMaxErrorStr) := by
  have writes := ngx_vslprintf_formats formats (text "nginx: ") (ngxMaxErrorStr - 7)
  have front : (text "nginx: ").length = 7 := rfl
  have size : ngxMaxErrorStr = 2048 := rfl
  rw [front, Nat.add_sub_cancel' (by omega)] at writes
  have whole : (text "nginx: ").take ngxMaxErrorStr = text "nginx: " :=
    List.take_of_length_le (by omega)
  rw [writes, List.take_append, front, whole]

theorem ngx_log_stderr_eq {env : LogEnv} {fmt : CString} {args : List VaArg} {out : List Byte}
    (formats : Formats fmt.bytes args out) (opened : env.fd > stderrFileno) (err : BitVec 32) :
    ngxLogStderr env err fmt args =
      if LeftFits err then
        (ngxLogErrorCore env ngxLogStderrLevel 0 (cString (message env.strerror err out)) []).map
          fun logged => (message env.strerror err out ++ [chr '\n'], logged)
      else none := by
  have begins : copy ngxMaxErrorStr [] (text "nginx: ") = some (text "nginx: ") := rfl
  rw [ngxLogStderr, begins]
  simp only [Option.bind_eq_bind, Option.bind_some, first_pass formats, if_pos opened]
  by_cases fits : LeftFits err
  · rw [if_pos fits, append_errno_fits fits, Option.bind_some, before_newline_take, ← message]
    cases ngxLogErrorCore env ngxLogStderrLevel 0 (cString (message env.strerror err out)) [] <;>
      rfl
  · rw [if_neg fits, append_errno_overflow fits, Option.bind_none]

/-- Both lines have the same message exactly when it spells itself; in a line that is not cut off,
when there is no `%` in it. -/
theorem log_same_text_iff (env : LogEnv) (err : BitVec 32) (fmt : CString) (args : List VaArg)
    (out : List Byte) (formats : Formats fmt.bytes args out) (opened : env.fd > stderrFileno)
    (admitted : env.logLevel ≥ 0) :
    ∃ front, linePrefix env ngxLogStderrLevel = some front ∧
      let msg := message env.strerror err out
      (LogsSame env err fmt args front msg ↔
        LeftFits err ∧ SpellsItself (ngxMaxErrorStr - front.length) msg) ∧
      (front.length + msg.length ≤ ngxMaxErrorStr - 2 →
        (LogsSame env err fmt args front msg ↔ LeftFits err ∧ chr '%' ∉ msg)) ∧
      (LeftFits err → chr '%' ∉ msg.take (ngxMaxErrorStr - front.length) →
        LogsSame env err fmt args front msg) := by
  obtain ⟨front, begins, short⟩ := line_prefix_some env
  have size : ngxMaxErrorStr = 2048 := rfl
  have no_nul := message_no_nul env.strerror err (formats_no_nul formats fmt.no_nul)
  have same_iff : LogsSame env err fmt args front (message env.strerror err out) ↔
      LeftFits err ∧
        SpellsItself (ngxMaxErrorStr - front.length) (message env.strerror err out) := by
    have line := log_line admitted begins (by omega) no_nul
    rw [LogsSame, ngx_log_stderr_eq formats opened]
    split
    case isFalse long => simp [long]
    case isTrue fits =>
      have room : ngxMaxErrorStr - front.length - 2 = ngxMaxErrorStr - 2 - front.length := by omega
      simp only [Option.map_eq_some_iff, Prod.mk.injEq, true_and, exists_eq_right, line, fits,
        SpellsItself, List.append_left_inj, List.take_append, List.append_cancel_left_eq, room,
        eq_comm]
  refine ⟨front, begins, same_iff, ?_, ?_⟩
  · intro whole
    rw [same_iff, spells_itself_iff (by omega)]
  · intro fits plain
    exact same_iff.mpr ⟨fits, plain_spells_itself _ plain⟩

def sampleEnv : LogEnv where
  fd := 3
  logLevel := 6
  tm := ⟨119, 0, 8, 20, 50, 11⟩
  ngxPid := 2037
  strerror _ := literal "No such file or directory"

theorem log_same_text_sample :
    ∃ front, linePrefix sampleEnv ngxLogStderrLevel = some front ∧
      LogsSame sampleEnv 2 (literal "%s") [.str (literal "nginx.conf")] front
        (text "nginx: nginx.conf (2: No such file or directory) ") := by
  obtain ⟨front, begins, -, -, plain⟩ := log_same_text_iff sampleEnv 2 (literal "%s")
    [.str (literal "nginx.conf")] ((literal "nginx.conf").bytes ++ [])
    (.conversion (.string _ [] rfl) (.done [])) (by decide) (by decide)
  refine ⟨front, begins, plain (by decide) ?_⟩
  intro listed
  exact absurd (List.mem_of_mem_take listed) (by decide)

/-- A file name with `%d` in it makes the second pass ask for an argument. -/
theorem log_differs :
    ¬∀ (env : LogEnv) (err : BitVec 32) (fmt : CString) (args : List VaArg) (out front : List Byte),
      Formats fmt.bytes args out → env.fd > stderrFileno → env.logLevel ≥ 0 →
      linePrefix env ngxLogStderrLevel = some front →
      LogsSame env err fmt args front (message env.strerror err out) := by
  intro same
  have logged := same sampleEnv 0 (literal "%s") [.str (literal "a%d.log")]
    ((literal "a%d.log").bytes ++ []) (text "2019/01/08 20:50:11 [stderr] 2037: ")
    (.conversion (.string _ [] rfl) (.done [])) (by decide) (by decide) (by decide)
  have asks : ngxLogStderr sampleEnv 0 (literal "%s") [.str (literal "a%d.log")] = none := by decide
  rw [LogsSame, asks] at logged
  cases logged

-- An escape loses a byte.
example : (ngxLogStderr sampleEnv 0 (literal "%s") [.str (literal "a%%.log")]).map Prod.snd =
    some (text "2019/01/08 20:50:11 [stderr] 2037: nginx: a%.log\n") := by decide

end NgxServer.LogText
