import Mathlib.Tactic.Tauto
import NgxServer.Config

/-!
# What a configuration file says

The file line by line, as its own comments describe it: a comment line says
nothing, and another line with a `=` in it is an item. `Load` agrees with it as
long as no long comment line has a `=` in a block that does not look like a
comment.
-/

namespace NgxServer.ConfigFile

open NgxServer.Comm NgxServer.Printf NgxServer.Config PieceReader

set_option autoImplicit false

def newline : Byte := chr '\n'

def lines (file : List Byte) : List (List Byte) := file.splitOn newline

def isComment : (line : List Byte) → Prop
  | [] => False
  | c :: _ => c = chr ';' ∨ c = chr '#' ∨ c = chr '[' ∨ c = chr ' ' ∨ c = chr '\t'

instance (line : List Byte) : Decidable (isComment line) := by
  cases line <;> (unfold isComment; infer_instance)

def nameOf (line : List Byte) : List Byte := line.takeWhile (· ≠ chr '=')
def valueOf (line : List Byte) : List Byte := (line.dropWhile (· ≠ chr '=')).tail

def withoutSpaces (part : List Byte) : List Byte :=
  (part.rdropWhile (· = chr ' ')).dropWhile (· = chr ' ')

/-- The item of a line: CR, LF and spaces at its end do not count, nor do the spaces around the
name and the value. -/
def lineItem (line : List Byte) : Option CConfItem :=
  if isComment line ∨ chr '=' ∉ line then none
  else
    let text := line.rdropWhile fun c => c = chr '\r' ∨ c = chr '\n' ∨ c = chr ' '
    some ⟨withoutSpaces (nameOf text), withoutSpaces (valueOf text)⟩

/-- The items of a file, in its order. -/
def reference (file : List Byte) : List CConfItem := (lines file).filterMap lineItem

/-- The limits of a setting line. -/
def KeepsLimits (line : List Byte) : Prop :=
  ¬isComment line → chr '=' ∈ line → (nameOf line).length ≤ 40 ∧ (valueOf line).length ≤ 400

instance (line : List Byte) : Decidable (KeepsLimits line) := by
  unfold KeepsLimits
  infer_instance

def lineBlocks (line : List Byte) : List (List Byte) :=
  blocks (linebufSize - 1) (line ++ [newline])

/-- `Load` passes over the block, as it begins like a comment line. -/
def LooksSkipped : (block : List Byte) → Prop
  | [] => True
  | c :: _ => isSkipped c ∨ c = chr '['

instance (block : List Byte) : Decidable (LooksSkipped block) := by
  cases block <;> (unfold LooksSkipped; infer_instance)

/-- No block of a comment line, after the first, looks like a setting. -/
def BlocksQuiet (line : List Byte) : Prop :=
  isComment line → ∀ block ∈ (lineBlocks line).tail, chr '=' ∈ block → LooksSkipped block

theorem equals_stays {line : List Byte} (equals : chr '=' ∈ line) :
    chr '=' ∈ lblprocstring line := by
  have parts : lblprocstring line ++ line.rtakeWhile isLineEnd = line :=
    List.rdropWhile_append_rtakeWhile
  rw [← parts, List.mem_append] at equals
  rcases equals with kept | dropped
  · exact kept
  · have ends : isLineEnd (chr '=') := List.mem_rtakeWhile_imp dropped
    exact absurd ends (by decide)

theorem procstring_cons {c : Byte} {line : List Byte} (equals : chr '=' ∈ c :: line) :
    ∃ rest, lblprocstring (c :: line) = c :: rest ∧ chr '=' ∈ c :: rest := by
  have kept := equals_stays equals
  have front : lblprocstring (c :: line) <+: c :: line :=
    List.rdropWhile_prefix isLineEnd _
  cases trimmed : lblprocstring (c :: line) with
  | nil =>
      rw [trimmed] at kept
      cases kept
  | cons first rest =>
      rw [trimmed] at kept front
      obtain ⟨back, whole⟩ := front
      rw [List.cons_append, List.cons.injEq] at whole
      rw [← whole.1]
      exact ⟨rest, rfl, kept⟩

/-- A block with a `=` that does not look like a comment makes an item, or does not fit. -/
theorem take_line_item {block : List Byte} (no_nul : 0 ∉ block) (equals : chr '=' ∈ block)
    (shown : ¬LooksSkipped block) :
    takeLine block = (confItem (lblprocstring block)).map fun item => [item] := by
  cases block with
  | nil => cases equals
  | cons c block =>
      rw [LooksSkipped, not_or] at shown
      obtain ⟨rest, trimmed, kept⟩ := procstring_cons equals
      rw [takeLine, c_string_bytes no_nul]
      simp only [if_neg shown.1, trimmed, if_neg shown.2, if_pos kept]

theorem take_line_quiet {block : List Byte} (no_nul : 0 ∉ block)
    (quiet : chr '=' ∈ block → LooksSkipped block) : takeLine block = some [] := by
  rw [takeLine, c_string_bytes no_nul]
  cases block with
  | nil => rfl
  | cons c block =>
      simp only
      split
      · rfl
      case isFalse shown =>
        by_cases equals : chr '=' ∈ c :: block
        · obtain ⟨rest, trimmed, -⟩ := procstring_cons equals
          simp only [trimmed, if_pos ((quiet equals).resolve_left shown)]
        · cases trimmed : lblprocstring (c :: block) with
          | nil => rfl
          | cons first rest =>
              have inside : chr '=' ∉ first :: rest := by
                intro listed
                rw [← trimmed] at listed
                exact equals ((List.rdropWhile_prefix isLineEnd _).subset listed)
              simp only [if_neg inside]
              split <;> rfl

def takeLines : (blocks : List (List Byte)) → Option (List CConfItem)
  | [] => some []
  | block :: blocks => (takeLine block).bind fun new => (takeLines blocks).map (new ++ ·)

theorem take_lines_append (first second : List (List Byte)) :
    takeLines (first ++ second) =
      (takeLines first).bind fun new => (takeLines second).map (new ++ ·) := by
  induction first with
  | nil =>
      rw [List.nil_append, takeLines, Option.bind_some]
      cases takeLines second <;> rfl
  | cons block first ih =>
      rw [List.cons_append, takeLines, takeLines, ih]
      cases takeLine block with
      | none => rfl
      | some new =>
          cases takeLines first with
          | none => rfl
          | some more => cases takeLines second <;> simp

theorem take_lines_quiet {blocks : List (List Byte)} (no_nul : ∀ block ∈ blocks, 0 ∉ block)
    (quiet : ∀ block ∈ blocks, chr '=' ∈ block → LooksSkipped block) :
    takeLines blocks = some [] := by
  induction blocks with
  | nil => rfl
  | cons block blocks ih =>
      rw [List.forall_mem_cons] at no_nul quiet
      rw [takeLines, take_line_quiet no_nul.1 quiet.1, ih no_nul.2 quiet.2]
      rfl

theorem take_lines_member {blocks : List (List Byte)} {items : List CConfItem}
    (taken : takeLines blocks = some items) {block : List Byte} (listed : block ∈ blocks) :
    ∃ new, takeLine block = some new ∧ new ⊆ items := by
  induction blocks generalizing items with
  | nil => cases listed
  | cons first blocks ih =>
      obtain ⟨new, one, rest⟩ := Option.bind_eq_some_iff.mp taken
      obtain ⟨more, others, rfl⟩ := Option.map_eq_some_iff.mp rest
      rcases List.mem_cons.mp listed with rfl | later
      · exact ⟨new, one, List.subset_append_left new more⟩
      · obtain ⟨found, same, inside⟩ := ih others later
        exact ⟨found, same, List.Subset.trans inside (List.subset_append_right new more)⟩

/-- A block that looks like a setting leaves an item, if it fits. -/
theorem take_lines_noisy {blocks : List (List Byte)} {items : List CConfItem}
    (taken : takeLines blocks = some items) {block : List Byte} (listed : block ∈ blocks)
    (no_nul : 0 ∉ block) (equals : chr '=' ∈ block) (shown : ¬LooksSkipped block) :
    items ≠ [] := by
  obtain ⟨new, one, inside⟩ := take_lines_member taken listed
  rw [take_line_item no_nul equals shown] at one
  obtain ⟨item, -, rfl⟩ := Option.map_eq_some_iff.mp one
  exact List.ne_nil_of_mem (inside (List.mem_singleton_self item))

theorem fgets_some {file : List Byte} (more : file ≠ []) :
    fgets linebufSize file =
      (some (readPiece newline (linebufSize - 2 + 1) file).1,
        (readPiece newline (linebufSize - 2 + 1) file).2.1,
        (readPiece newline (linebufSize - 2 + 1) file).2.2) := by
  have piece := read_some newline (Nat.succ_pos (linebufSize - 2)) more
  show (if (readPiece newline (linebufSize - 2 + 1) file).1 = [] then none else some _, _, _) = _
  rw [if_neg piece]
  rfl

theorem load_loop_ended (rounds : Nat) (file : List Byte) (items : List CConfItem) :
    loadLoop rounds file true items = some items := by
  cases rounds <;> rfl

theorem load_loop_pieces (rounds : Nat) (file : List Byte) (items : List CConfItem)
    (enough : file.length < rounds) :
    loadLoop rounds file false items =
      (takeLines (pieces newline (linebufSize - 2) file)).map (items ++ ·) := by
  induction rounds generalizing file items with
  | zero => cases enough
  | succ rounds ih =>
      by_cases empty : file = []
      · subst empty
        show loadLoop rounds [] true items = _
        rw [load_loop_ended, pieces_nil, takeLines, Option.map_some, List.append_nil]
      · have shorter := read_shorter newline (Nat.succ_pos (linebufSize - 2)) empty
        have ended := read_ended newline (linebufSize - 2 + 1) file
        rw [pieces_cons newline (linebufSize - 2) empty, takeLines, loadLoop, fgets_some empty]
        dsimp only
        cases takeLine (readPiece newline (linebufSize - 2 + 1) file).1 with
        | none => rfl
        | some new =>
            simp only [Option.bind_some, Option.map_map]
            have onward : ((items ++ ·) ∘ (new ++ ·)) = (items ++ new ++ ·) := by
              funext later
              exact (List.append_assoc items new later).symm
            cases feof : (readPiece newline (linebufSize - 2 + 1) file).2.2 with
            | true =>
                rw [load_loop_ended, ended feof, pieces_nil, takeLines, Option.map_some]
                simp
            | false =>
                rw [ih _ _ (Nat.lt_of_lt_of_le shorter (Nat.le_of_lt_succ enough)), onward]

theorem take_line_newline {block : List Byte} (more : block ≠ []) (no_nul : 0 ∉ block) :
    takeLine (block ++ [newline]) = takeLine block := by
  cases block with
  | nil => exact absurd rfl more
  | cons c block =>
      have no_nul_with : 0 ∉ c :: block ++ [newline] := by
        rw [List.mem_append, not_or]
        exact ⟨no_nul, by decide⟩
      have trimmed : lblprocstring (c :: (block ++ [newline])) = lblprocstring (c :: block) :=
        List.rdropWhile_concat_pos isLineEnd (c :: block) newline (by decide)
      rw [takeLine, takeLine, c_string_bytes no_nul, c_string_bytes no_nul_with]
      simp only [List.cons_append, trimmed]

/-- A missing newline at the end of the file changes nothing. -/
theorem last_line (size : Nat) {line : List Byte} (no_nul : 0 ∉ line) :
    takeLines (blocks (size + 1) line) = takeLines (blocks (size + 1) (line ++ [newline])) := by
  induction bound : line.length using Nat.strongRecOn generalizing line with
  | ind length ih =>
      by_cases empty : line = []
      · have alone : takeLine [newline] = some [] := by decide
        rw [empty, blocks_nil, List.nil_append, blocks_short (List.cons_ne_nil _ _) (by simp),
          takeLines, takeLines, alone]
        rfl
      by_cases fits : line.length < size + 1
      · rw [blocks_short empty (by omega),
          blocks_short (by simp) (by simpa using Nat.le_of_lt_succ fits)]
        simp only [takeLines, take_line_newline empty no_nul]
      · have long : size + 1 ≤ line.length := by omega
        have later : 0 ∉ line.drop (size + 1) := fun listed => no_nul (List.mem_of_mem_drop listed)
        have block : blocks (size + 1) line =
            line.take (size + 1) :: blocks (size + 1) (line.drop (size + 1)) :=
          blocks_cons (Nat.succ_pos size) empty
        have block_too : blocks (size + 1) (line ++ [newline]) =
            line.take (size + 1) :: blocks (size + 1) (line.drop (size + 1) ++ [newline]) := by
          rw [blocks_cons (Nat.succ_pos size) (by simp), List.take_append_of_le_length long,
            List.drop_append_of_le_length long]
        have same := ih _ (by rw [List.length_drop]; omega) later rfl
        rw [block, block_too, takeLines, takeLines, same]

theorem line_blocks_no_nul {line : List Byte} (no_nul : 0 ∉ line) :
    ∀ block ∈ lineBlocks line, 0 ∉ block := by
  intro block listed nul
  rcases List.mem_append.mp (blocks_subset listed nul) with inside | ends
  · exact no_nul inside
  · exact absurd ends (by decide)

theorem line_blocks_equals {line block : List Byte} (listed : block ∈ lineBlocks line)
    (equals : chr '=' ∈ block) : chr '=' ∈ line := by
  rcases List.mem_append.mp (blocks_subset listed equals) with inside | ends
  · exact inside
  · exact absurd ends (by decide)

/-- `Load` passes over the comment lines, and over the empty ones. -/
theorem looks_skipped_iff (c : Byte) (line : List Byte) :
    LooksSkipped (c :: line) ↔ isComment (c :: line) ∨ c = newline := by
  simp only [LooksSkipped, isSkipped, isComment, newline]
  tauto

/-- The first block of a comment line begins like the line. -/
theorem comment_head {line : List Byte} (comment : isComment line) :
    ∃ first later, lineBlocks line = first :: later ∧ LooksSkipped first := by
  cases line with
  | nil => exact absurd comment id
  | cons c line =>
      refine ⟨_, _, blocks_cons (by decide) (by simp), ?_⟩
      exact (looks_skipped_iff c _).mpr (.inl comment)

theorem parts_eq {name : List Byte} (clean : chr '=' ∉ name) (value : List Byte) :
    nameOf (name ++ chr '=' :: value) = name ∧ valueOf (name ++ chr '=' :: value) = value := by
  have passes : ∀ c ∈ name, decide (c ≠ chr '=') = true := by
    intro c listed
    rw [decide_eq_true_eq]
    rintro rfl
    exact clean listed
  rw [nameOf, valueOf, List.takeWhile_append_of_pos passes, List.dropWhile_append_of_pos passes]
  simp

/-- What is trimmed from the end of a line is not in front of its first `=`. -/
theorem parts_of_prefix {line front : List Byte} (starts : front <+: line)
    (equals : chr '=' ∈ front) :
    nameOf line = nameOf front ∧ (valueOf front).length ≤ (valueOf line).length := by
  obtain ⟨back, rfl⟩ := starts
  obtain ⟨name, value, rfl, clean⟩ := List.eq_append_cons_of_mem equals
  rw [List.append_assoc, List.cons_append, (parts_eq clean value).1, (parts_eq clean value).2,
    (parts_eq clean (value ++ back)).1, (parts_eq clean (value ++ back)).2, List.length_append]
  exact ⟨rfl, Nat.le_add_right _ _⟩

theorem line_length {line : List Byte} (equals : chr '=' ∈ line) :
    line.length = (nameOf line).length + 1 + (valueOf line).length := by
  obtain ⟨name, value, rfl, clean⟩ := List.eq_append_cons_of_mem equals
  rw [(parts_eq clean value).1, (parts_eq clean value).2, List.length_append, List.length_cons]
  omega

theorem line_end_eq : (fun c : Byte => decide (c = chr '\r' ∨ c = chr '\n' ∨ c = chr ' ')) =
    isLineEnd := by
  funext c
  have codes : chr '\r' = 13 ∧ chr '\n' = 10 ∧ chr ' ' = 32 := by decide
  rw [isLineEnd, codes.1, codes.2.1, codes.2.2]
  exact decide_eq_decide.mpr or_left_comm

theorem setting_loads {line : List Byte} (clean : newline ∉ line) (no_nul : 0 ∉ line)
    (plain : ¬isComment line) (equals : chr '=' ∈ line) (limits : KeepsLimits line) :
    takeLines (lineBlocks line) = some (lineItem line).toList := by
  obtain ⟨nameFits, valueFits⟩ := limits plain equals
  have more : line ≠ [] := List.ne_nil_of_mem equals
  have whole := line_length equals
  have one : lineBlocks line = [line ++ [newline]] := by
    apply blocks_short (by simp)
    rw [List.length_append, List.length_singleton]
    have size : linebufSize - 1 = 499 := rfl
    omega
  have shown : ¬LooksSkipped line := by
    cases line with
    | nil => exact absurd rfl more
    | cons c line =>
        rw [looks_skipped_iff, not_or]
        exact ⟨plain, fun ends => clean (ends ▸ List.mem_cons_self ..)⟩
  have parts := parts_of_prefix (List.rdropWhile_prefix isLineEnd line) (equals_stays equals)
  rw [one, takeLines, takeLines, take_line_newline more no_nul, take_line_item no_nul equals shown,
    lineItem, if_neg (by simp [plain, equals]), line_end_eq, confItem, if_pos]
  · rfl
  · have sizes : itemNameSize = 50 ∧ itemContentSize = 500 := ⟨rfl, rfl⟩
    change (nameOf (lblprocstring line)).length < itemNameSize ∧
      (valueOf (lblprocstring line)).length < itemContentSize
    have name : (nameOf (lblprocstring line)).length ≤ 40 := parts.1 ▸ nameFits
    have value : (valueOf (lblprocstring line)).length ≤ 400 := Nat.le_trans parts.2 valueFits
    omega

/-- A line without an item leaves none, when its later blocks are quiet. -/
theorem itemless_loads {line : List Byte} (no_nul : 0 ∉ line)
    (itemless : isComment line ∨ chr '=' ∉ line) (quiet : BlocksQuiet line) :
    takeLines (lineBlocks line) = some [] := by
  apply take_lines_quiet (line_blocks_no_nul no_nul)
  intro block listed equals
  rcases itemless with comment | plain
  · obtain ⟨first, later, blocks, skipped⟩ := comment_head comment
    have rest := quiet comment
    rw [blocks] at listed rest
    rcases List.mem_cons.mp listed with rfl | listed
    · exact skipped
    · exact rest block listed equals
  · exact absurd (line_blocks_equals listed equals) plain

theorem line_loads {line : List Byte} (clean : newline ∉ line) (no_nul : 0 ∉ line)
    (limits : KeepsLimits line) (quiet : BlocksQuiet line) :
    takeLines (lineBlocks line) = some (lineItem line).toList := by
  by_cases itemless : isComment line ∨ chr '=' ∉ line
  · rw [itemless_loads no_nul itemless quiet, lineItem, if_pos itemless, Option.toList_none]
  · rw [not_or, not_not] at itemless
    exact setting_loads clean no_nul itemless.1 itemless.2 limits

/-- A line never leaves fewer items than it says, and more when a block is not quiet. -/
theorem line_counts {line : List Byte} {items : List CConfItem} (clean : newline ∉ line)
    (no_nul : 0 ∉ line) (limits : KeepsLimits line)
    (taken : takeLines (lineBlocks line) = some items) :
    (lineItem line).toList.length ≤ items.length ∧
      (¬BlocksQuiet line → (lineItem line).toList.length < items.length) := by
  by_cases quiet : BlocksQuiet line
  · rw [line_loads clean no_nul limits quiet, Option.some.injEq] at taken
    rw [taken]
    exact ⟨Nat.le_refl _, fun loud => absurd quiet loud⟩
  · simp only [BlocksQuiet, not_forall] at quiet
    obtain ⟨comment, block, listed, equals, shown⟩ := quiet
    have inside := List.mem_of_mem_tail listed
    have some_item := take_lines_noisy taken inside (line_blocks_no_nul no_nul block inside) equals
      shown
    rw [lineItem, if_pos (.inl comment)]
    exact ⟨Nat.zero_le _, fun _ => List.length_pos_iff.mpr some_item⟩

theorem lines_cons {line : List Byte} (clean : newline ∉ line) (rest : List Byte) :
    lines (line ++ newline :: rest) = line :: lines rest :=
  List.splitOn_append_cons_self_of_not_mem clean rest

theorem lines_last {line : List Byte} (clean : newline ∉ line) : lines line = [line] :=
  List.splitOn_eq_singleton clean

theorem lines_clean (file : List Byte) : ∀ line ∈ lines file, newline ∉ line := by
  induction file using by_lines newline with
  | last line clean =>
      rw [lines_last clean]
      rintro other (_ | ⟨_, ⟨⟩⟩)
      exact clean
  | next line rest clean ih =>
      rw [lines_cons clean]
      rintro other (_ | ⟨_, later⟩)
      · exact clean
      · exact ih other later

theorem lines_no_nul {file : List Byte} (no_nul : 0 ∉ file) : ∀ line ∈ lines file, 0 ∉ line := by
  induction file using by_lines newline with
  | last line clean =>
      rw [lines_last clean]
      rintro other (_ | ⟨_, ⟨⟩⟩)
      exact no_nul
  | next line rest clean ih =>
      rw [List.mem_append, List.mem_cons, not_or, not_or] at no_nul
      rw [lines_cons clean]
      rintro other (_ | ⟨_, later⟩)
      · exact no_nul.1
      · exact ih no_nul.2.2 other later

/-- What is taken from the pieces is taken from the blocks of the lines. -/
theorem pieces_lines {file : List Byte} (no_nul : 0 ∉ file) :
    takeLines (pieces newline (linebufSize - 2) file) =
      takeLines ((lines file).flatMap lineBlocks) := by
  induction file using by_lines newline with
  | last line clean =>
      rw [pieces_last _ clean, lines_last clean, List.flatMap_singleton,
        last_line (linebufSize - 2) no_nul]
      rfl
  | next line rest clean ih =>
      rw [List.mem_append, List.mem_cons, not_or, not_or] at no_nul
      rw [pieces_line _ clean, lines_cons clean, List.flatMap_cons, take_lines_append,
        take_lines_append, ih no_nul.2.2]
      rfl

structure Proper (line : List Byte) : Prop where
  clean : newline ∉ line
  no_nul : 0 ∉ line
  limits : KeepsLimits line

theorem quiet_lines_load {listed : List (List Byte)} (proper : ∀ line ∈ listed, Proper line)
    (quiet : ∀ line ∈ listed, BlocksQuiet line) :
    takeLines (listed.flatMap lineBlocks) = some (listed.filterMap lineItem) := by
  induction listed with
  | nil => rfl
  | cons line listed ih =>
      rw [List.forall_mem_cons] at proper quiet
      rw [List.flatMap_cons, take_lines_append,
        line_loads proper.1.clean proper.1.no_nul proper.1.limits quiet.1, ih proper.2 quiet.2,
        List.filterMap_cons]
      cases lineItem line <;> rfl

/-- No items are lost, so one that is too many is never made up for. -/
theorem lines_count {listed : List (List Byte)} {items : List CConfItem}
    (proper : ∀ line ∈ listed, Proper line)
    (taken : takeLines (listed.flatMap lineBlocks) = some items) :
    (listed.filterMap lineItem).length ≤ items.length ∧
      ((∃ line ∈ listed, ¬BlocksQuiet line) →
        (listed.filterMap lineItem).length < items.length) := by
  induction listed generalizing items with
  | nil => exact ⟨Nat.zero_le _, fun ⟨_, listed, _⟩ => absurd listed List.not_mem_nil⟩
  | cons line listed ih =>
      rw [List.forall_mem_cons] at proper
      rw [List.flatMap_cons, take_lines_append] at taken
      obtain ⟨new, first, rest⟩ := Option.bind_eq_some_iff.mp taken
      obtain ⟨more, later, rfl⟩ := Option.map_eq_some_iff.mp rest
      have one := line_counts proper.1.clean proper.1.no_nul proper.1.limits first
      have others := ih proper.2 later
      have said : ((line :: listed).filterMap lineItem).length =
          (lineItem line).toList.length + (listed.filterMap lineItem).length := by
        rw [List.filterMap_cons]
        cases lineItem line with
        | none => simp
        | some item => simp [Nat.add_comm]
      rw [said, List.length_append]
      refine ⟨Nat.add_le_add one.1 others.1, ?_⟩
      rintro ⟨loud, inside, noisy⟩
      rcases List.mem_cons.mp inside with rfl | inside
      · exact Nat.add_lt_add_of_lt_of_le (one.2 noisy) others.1
      · exact Nat.add_lt_add_of_le_of_lt one.1 (others.2 ⟨loud, inside, noisy⟩)

theorem load_lines {file : List Byte} (no_nul : 0 ∉ file) :
    load (some file) [] =
      (takeLines ((lines file).flatMap lineBlocks)).map fun items => (true, items) := by
  rw [load, load_loop_pieces _ _ _ (Nat.lt_succ_self _), pieces_lines no_nul, Option.map_map]
  rfl

theorem load_reference_iff {file : List Byte} (no_nul : 0 ∉ file)
    (limits : ∀ line ∈ lines file, KeepsLimits line) :
    load (some file) [] = some (true, reference file) ↔
      ∀ line ∈ lines file, BlocksQuiet line := by
  have proper : ∀ line ∈ lines file, Proper line := fun line listed =>
    ⟨lines_clean file line listed, lines_no_nul no_nul line listed, limits line listed⟩
  rw [load_lines no_nul]
  constructor
  · intro loaded
    obtain ⟨items, taken, same⟩ := Option.map_eq_some_iff.mp loaded
    rw [Prod.mk.injEq] at same
    by_contra quiet
    have loud : ∃ line ∈ lines file, ¬BlocksQuiet line := by
      simpa only [not_forall, exists_prop] using quiet
    have more := (lines_count proper taken).2 loud
    rw [same.2] at more
    exact Nat.lt_irrefl _ more
  · intro quiet
    rw [quiet_lines_load proper quiet]
    rfl

def SameName (name key : List Byte) : Prop := name.map tolower = key.map tolower

/-- The value of the first item with the name, or nothing. -/
def FirstMatch (key : List Byte) (items : List CConfItem) (value : Option (List Byte)) : Prop :=
  (value = none ∧ ∀ item ∈ items, ¬SameName item.itemName key) ∨
    ∃ before item after, items = before ++ item :: after ∧
      (∀ other ∈ before, ¬SameName other.itemName key) ∧ SameName item.itemName key ∧
      value = some item.itemContent

theorem strcasecmp_iff (s1 s2 : List Byte) : strcasecmpEqual s1 s2 ↔ SameName s1 s2 := by
  unfold SameName
  induction s1 generalizing s2 with
  | nil => cases s2 <;> simp [strcasecmpEqual]
  | cons c1 s1 ih =>
      cases s2 with
      | nil => simp [strcasecmpEqual]
      | cons c2 s2 => simp [strcasecmpEqual, ih]

theorem get_string_first (key : List Byte) (items : List CConfItem) :
    FirstMatch key items (getString key items) := by
  induction items with
  | nil => exact .inl ⟨rfl, fun item listed => absurd listed List.not_mem_nil⟩
  | cons item items ih =>
      rw [getString]
      by_cases same : strcasecmpEqual item.itemName key
      · rw [if_pos same]
        exact .inr ⟨[], item, items, rfl, fun other listed => absurd listed List.not_mem_nil,
          (strcasecmp_iff _ _).mp same, rfl⟩
      · rw [if_neg same]
        have different : ¬SameName item.itemName key := mt (strcasecmp_iff _ _).mpr same
        rcases ih with ⟨nothing, all⟩ | ⟨before, found, after, rfl, earlier, matching, value⟩
        · exact .inl ⟨nothing, List.forall_mem_cons.mpr ⟨different, all⟩⟩
        · exact .inr ⟨item :: before, found, after, rfl,
            List.forall_mem_cons.mpr ⟨different, earlier⟩, matching, value⟩

/-- `Load` makes the items of the reference, in which `GetString` finds the first match, exactly
when no later block of a comment line looks like a setting. -/
theorem config_reads_reference_iff (file : List Byte) (no_nul : 0 ∉ file)
    (limits : ∀ line ∈ lines file, KeepsLimits line) :
    (load (some file) [] = some (true, reference file) ∧
        ∀ key, FirstMatch key (reference file) (getString key (reference file))) ↔
      ∀ line ∈ lines file, BlocksQuiet line := by
  rw [load_reference_iff no_nul limits]
  exact and_iff_left fun key => get_string_first key (reference file)

theorem short_quiet {line : List Byte} (short : line.length < linebufSize - 1) :
    BlocksQuiet line := by
  intro _ block listed
  have one : lineBlocks line = [line ++ [newline]] := by
    apply blocks_short (by simp)
    rw [List.length_append, List.length_singleton]
    omega
  rw [one] at listed
  exact absurd listed List.not_mem_nil

def sampleFile : List Byte := "#log\n[Log]\nLogLevel = 8 \r\n\nlog==b".toList.map chr

theorem config_reads_reference_sample :
    load (some sampleFile) [] = some (true, [⟨"LogLevel".toList.map chr, [chr '8']⟩,
        ⟨"log".toList.map chr, "=b".toList.map chr⟩]) ∧
      ∀ key, FirstMatch key (reference sampleFile) (getString key (reference sampleFile)) := by
  have short : ∀ line ∈ lines sampleFile, line.length < linebufSize - 1 := by decide
  exact (config_reads_reference_iff sampleFile (by decide) (by decide)).mpr
    fun line listed => short_quiet (short line listed)

def longComment : List Byte :=
  chr '#' :: List.replicate 498 (chr 'x') ++ "a=b\n".toList.map chr

theorem long_comment_is_item :
    ¬∀ file : List Byte, 0 ∉ file → (∀ line ∈ lines file, KeepsLimits line) →
      load (some file) [] = some (true, reference file) ∧
        ∀ key, FirstMatch key (reference file) (getString key (reference file)) := by
  intro agrees
  have loaded := (agrees longComment (by decide +kernel) (by decide +kernel)).1
  have item : load (some longComment) [] = some (true, [⟨[chr 'a'], [chr 'b']⟩]) := by
    decide +kernel
  have nothing : reference longComment = [] := by decide +kernel
  rw [item, nothing] at loaded
  cases loaded

end NgxServer.ConfigFile
