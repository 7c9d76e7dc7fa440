import NgxServer.NumberFormat

/-!
# Truncated output

A format whose conversions are complete has one whole output, and a buffer of
any size gets the first bytes of it. The stores that are not guarded come first
in a round of the loop, which has seen that there is room.
-/

namespace NgxServer.Truncation

open NgxServer.Comm NgxServer.Printf NgxServer.NumberFormat BoundedSink

set_option autoImplicit false

/-- Every `%` begins a complete conversion, other than `%f`, and finds its argument; arguments
that are left are ignored. -/
inductive WellFormatted : (fmt : List Byte) → List VaArg → Prop
  | done (args : List VaArg) : WellFormatted [] args
  | ordinary {c : Byte} {fmt : List Byte} {args : List VaArg} :
      c ≠ chr '%' → WellFormatted fmt args → WellFormatted (c :: fmt) args
  | string {body rest : List Byte} {spec : Spec} {p : CString} {args : List VaArg} :
      readSpec body = (spec, chr 's' :: rest) → WellFormatted rest args →
      WellFormatted (chr '%' :: body) (.str p :: args)
  | int {body rest : List Byte} {spec : Spec} {c : Byte} {value : BitVec 32}
      {args : List VaArg} :
      readSpec body = (spec, c :: rest) → c = chr 'd' ∨ c = chr 'P' → WellFormatted rest args →
      WellFormatted (chr '%' :: body) (.int value :: args)
  | long {body rest : List Byte} {spec : Spec} {c : Byte} {value : BitVec 64}
      {args : List VaArg} :
      readSpec body = (spec, c :: rest) → c = chr 'i' ∨ c = chr 'L' ∨ c = chr 'p' →
      WellFormatted rest args → WellFormatted (chr '%' :: body) (.long value :: args)
  | literal {body rest : List Byte} {spec : Spec} {c : Byte} {args : List VaArg} :
      readSpec body = (spec, c :: rest) → ¬isInteger c → c ≠ chr 's' → c ≠ chr 'f' →
      WellFormatted rest args → WellFormatted (chr '%' :: body) args

/-- A conversion behind its `%`, with the format and the arguments that it leaves and its text. -/
inductive Converts : (body : List Byte) → List VaArg → (rest : List Byte) → List VaArg →
    (text : List Byte) → Prop
  | string {body rest : List Byte} {spec : Spec} (p : CString) (args : List VaArg) :
      readSpec body = (spec, chr 's' :: rest) → Converts body (.str p :: args) rest args p.bytes
  | double {body rest : List Byte} {spec : Spec} (negative : Bool)
      (parts : Nat → BitVec 64 × BitVec 64) (args : List VaArg) :
      readSpec body = (spec, chr 'f' :: rest) →
      Converts body (.double negative parts :: args) rest args (doubleText spec negative parts)
  | integer {body rest : List Byte} {spec used : Spec} {c : Byte} {value : BitVec 64}
      {args left : List VaArg} :
      readSpec body = (spec, c :: rest) → isInteger c →
      integerArg spec c args = some (used, value, left) →
      Converts body args rest left (integerText used value)
  | literal {body rest : List Byte} {spec : Spec} {c : Byte} (args : List VaArg) :
      readSpec body = (spec, c :: rest) → ¬isInteger c → c ≠ chr 's' → c ≠ chr 'f' →
      Converts body args rest args [c]

/-- The whole output of a format, which a `%f` may be in. -/
inductive Formats : (fmt : List Byte) → List VaArg → (out : List Byte) → Prop
  | done (args : List VaArg) : Formats [] args []
  | ordinary {c : Byte} {fmt out : List Byte} {args : List VaArg} :
      c ≠ chr '%' → Formats fmt args out → Formats (c :: fmt) args ([c] ++ out)
  | conversion {body rest text out : List Byte} {args left : List VaArg} :
      Converts body args rest left text → Formats rest left out →
      Formats (chr '%' :: body) args (text ++ out)

theorem well_formatted_formats {fmt : List Byte} {args : List VaArg}
    (well : WellFormatted fmt args) : ∃ out, Formats fmt args out := by
  induction well with
  | done args => exact ⟨[], .done args⟩
  | ordinary ordinary _ ih =>
      obtain ⟨out, formats⟩ := ih
      exact ⟨_, .ordinary ordinary formats⟩
  | string reads _ ih =>
      obtain ⟨out, formats⟩ := ih
      exact ⟨_, .conversion (.string _ _ reads) formats⟩
  | int reads int _ ih =>
      obtain ⟨out, formats⟩ := ih
      rcases int with rfl | rfl
      · exact ⟨_, .conversion (.integer reads (by decide) rfl) formats⟩
      · exact ⟨_, .conversion (.integer reads (by decide) rfl) formats⟩
  | long reads long _ ih =>
      obtain ⟨out, formats⟩ := ih
      rcases long with rfl | rfl | rfl
      · exact ⟨_, .conversion (.integer reads (by decide) rfl) formats⟩
      · exact ⟨_, .conversion (.integer reads (by decide) rfl) formats⟩
      · exact ⟨_, .conversion (.integer reads (by decide) rfl) formats⟩
  | literal reads not_integer not_s not_f _ ih =>
      obtain ⟨out, formats⟩ := ih
      exact ⟨_, .conversion (.literal _ reads not_integer not_s not_f) formats⟩

theorem conversion_literal {body rest : List Byte} {spec : Spec} {c : Byte}
    (reads : readSpec body = (spec, c :: rest)) (not_integer : ¬isInteger c) (not_s : c ≠ chr 's')
    (not_f : c ≠ chr 'f') (args : List VaArg) :
    conversion body args = some (fun last buf => put last buf c, rest, args) := by
  rw [conversion, reads]
  simp only [not_s, not_f, not_integer, if_false]

theorem converts_emits {body rest text : List Byte} {args left : List VaArg}
    (converts : Converts body args rest left text) :
    ∃ writer, conversion body args = some (writer, rest, left) ∧ Emits 1 writer text := by
  cases converts with
  | string p args reads =>
      refine ⟨putString p.bytes, ?_, emits_more (put_string_emits p.bytes) (Nat.zero_le 1)⟩
      rw [conversion, reads]
      rfl
  | double negative parts args reads =>
      refine ⟨_, ?_, put_double_emits _ negative parts⟩
      rw [conversion, reads]
      rfl
  | integer reads integer found =>
      refine ⟨_, ?_, put_integer_emits _ _⟩
      rw [conversion_integer reads integer found]
  | literal args reads not_integer not_s not_f =>
      exact ⟨_, conversion_literal reads not_integer not_s not_f args, emits_put _⟩

def LoopEmits (fmt : List Byte) (args : List VaArg) (out : List Byte) : Prop :=
  ∀ rounds, fmt.length ≤ rounds →
    Emits 0 (fun last buf => formatLoop last rounds buf fmt args) out

theorem loop_full (last rounds : Nat) (buf fmt : List Byte) (args : List VaArg)
    (full : last ≤ buf.length) (enough : fmt.length ≤ rounds) :
    formatLoop last rounds buf fmt args = some buf := by
  cases fmt with
  | nil => rw [formatLoop]
  | cons c fmt =>
      cases rounds with
      | zero => cases enough
      | succ rounds => rw [formatLoop, if_pos full]

theorem loop_emits_ordinary {c : Byte} {fmt out : List Byte} {args : List VaArg}
    (ordinary : c ≠ chr '%') (rest : LoopEmits fmt args out) :
    LoopEmits (c :: fmt) args ([c] ++ out) := by
  intro rounds enough
  obtain ⟨rounds, rfl⟩ : ∃ fewer, rounds = fewer + 1 := ⟨rounds - 1, by simp at enough; omega⟩
  have enough_left : fmt.length ≤ rounds := by simpa using enough
  apply emits_congr (emits_guarded (emits_next (emits_put c) (rest rounds enough_left)))
  intro last buf
  split
  case isTrue room =>
    rw [format_loop_ordinary room ordinary, Writer.next, put, if_pos room]
    rfl
  case isFalse full => exact loop_full _ _ _ _ _ (Nat.le_of_not_lt full) enough

theorem loop_emits_conversion {body rest text out : List Byte} {args left : List VaArg}
    (converts : Converts body args rest left text) (later : LoopEmits rest left out) :
    LoopEmits (chr '%' :: body) args (text ++ out) := by
  obtain ⟨writer, taken, emits⟩ := converts_emits converts
  intro rounds enough
  obtain ⟨rounds, rfl⟩ : ∃ fewer, rounds = fewer + 1 := ⟨rounds - 1, by simp at enough; omega⟩
  have enough_left : body.length ≤ rounds := by simpa using enough
  apply emits_congr (emits_guarded (emits_next emits (later rest.length (Nat.le_refl _))))
  intro last buf
  split
  case isTrue room => exact format_loop_conversion room taken enough_left
  case isFalse full => exact loop_full _ _ _ _ _ (Nat.le_of_not_lt full) enough

/-- By induction on the format: its items are emitted one after the other. -/
theorem formats_emits {fmt out : List Byte} {args : List VaArg} (formats : Formats fmt args out) :
    LoopEmits fmt args out := by
  induction formats with
  | done args =>
      intro rounds _
      apply emits_congr emits_nothing
      intro last buf
      rw [formatLoop]
  | ordinary ordinary _ ih => exact loop_emits_ordinary ordinary ih
  | conversion converts _ ih => exact loop_emits_conversion converts ih

/-- The first bytes of the whole output are written, as many as there is room for. -/
theorem ngx_vslprintf_formats {fmt : CString} {args : List VaArg} {out : List Byte}
    (formats : Formats fmt.bytes args out) (buf : List Byte) (n : Nat) :
    ngxVslprintf (buf.length + n) buf fmt args = some (buf ++ out.take n) :=
  formats_emits formats fmt.bytes.length (Nat.le_refl _) buf n (Nat.zero_le n)

/-- However many cells there are, no store is behind them, and they get the first bytes of the
output that unlimited room would get. -/
theorem truncated_is_prefix {fmt : CString} {args : List VaArg}
    (well : WellFormatted fmt.bytes args) :
    ∃ out, Formats fmt.bytes args out ∧
      (∀ buf n, out.length ≤ n →
        ngxVslprintf (buf.length + n) buf fmt args = some (buf ++ out)) ∧
      ∀ buf n, ∃ written, ngxVslprintf (buf.length + n) buf fmt args = some (buf ++ written) ∧
        written.length = min n out.length ∧ written = out.take n := by
  obtain ⟨out, formats⟩ := well_formatted_formats well
  have cut (buf : List Byte) (n : Nat) := ngx_vslprintf_formats formats buf n
  refine ⟨out, formats, ?_, ?_⟩
  · intro buf n room
    have whole := cut buf n
    rwa [List.take_of_length_le room] at whole
  · intro buf n
    exact ⟨out.take n, cut buf n, List.length_take, rfl⟩

def sampleFormat : CString := ⟨"=%5d%s%%".toList.map chr, by decide⟩

def sampleArgs : List VaArg := [.int (-42), .str ⟨"ab".toList.map chr, by decide⟩]

theorem sample_well_formatted : WellFormatted sampleFormat.bytes sampleArgs := by
  have number : readSpec ("5d%s%%".toList.map chr) =
      (⟨chr ' ', 5, true, 0, 0⟩, chr 'd' :: "%s%%".toList.map chr) := rfl
  have text : readSpec ("s%%".toList.map chr) =
      (⟨chr ' ', 0, true, 0, 0⟩, chr 's' :: "%%".toList.map chr) := rfl
  have percent : readSpec [chr '%'] = (⟨chr ' ', 0, true, 0, 0⟩, [chr '%']) := rfl
  apply WellFormatted.ordinary (by decide)
  apply WellFormatted.int number (by decide)
  apply WellFormatted.string text
  apply WellFormatted.literal percent (by decide) (by decide) (by decide)
  exact WellFormatted.done []

theorem truncated_is_prefix_sample :
    ∃ out, Formats sampleFormat.bytes sampleArgs out ∧
      (∀ buf n, out.length ≤ n →
        ngxVslprintf (buf.length + n) buf sampleFormat sampleArgs = some (buf ++ out)) ∧
      ∀ buf n, ∃ written,
        ngxVslprintf (buf.length + n) buf sampleFormat sampleArgs = some (buf ++ written) ∧
          written.length = min n out.length ∧ written = out.take n :=
  truncated_is_prefix sample_well_formatted

-- The sign and the padding are cut off from the number.
example : ngxVslprintf 4 [] sampleFormat sampleArgs = some ("=-  ".toList.map chr) := by decide

end NgxServer.Truncation
