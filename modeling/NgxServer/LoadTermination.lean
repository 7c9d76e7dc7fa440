import NgxServer.ConfigFile
import NgxServer.ConfigSteps

/-!
# When `Load` returns

Every round of the loop at `lblprocstring` takes one byte off `linebuf`, and every round
of the outer loop one result off the stream. Behind the last result the outer loop ends
with the end of the file; a read error leaves `feof` false, and the loop runs on.
-/

namespace NgxServer.LoadTermination

open NgxServer.Comm NgxServer.Printf NgxServer.Config NgxServer.ConfigSteps
open CMemory Halting

set_option autoImplicit false

structure Replaced (before after : Memory Byte) (addr : Nat) (text result : List Byte) :
    Prop where
  size : after.cells.length = before.cells.length
  held : Holds after addr (result ++ [0])
  outside : ∀ i, i < addr ∨ addr + text.length ≤ i → after.cells[i]? = before.cells[i]?

theorem replaced_refl {memory : Memory Byte} {addr : Nat} {text : List Byte}
    (held : Holds memory addr (text ++ [0])) : Replaced memory memory addr text text where
  size := rfl
  held := held
  outside := fun _ _ => rfl

theorem replaced_trans {first second third : Memory Byte} {addr : Nat}
    {text middle result : List Byte} (one : Replaced first second addr text middle)
    (two : Replaced second third addr middle result) (shorter : middle.length ≤ text.length) :
    Replaced first third addr text result where
  size := two.size.trans one.size
  held := two.held
  outside := by
    intro i beyond
    rw [two.outside i (by omega), one.outside i beyond]

theorem replaced_cut {before after : Memory Byte} {addr : Nat} {text : List Byte} (c : Byte)
    (held : Holds before addr text) (wrote : Wrote before after (addr + text.length) [0]) :
    Replaced before after addr (text ++ [c]) text where
  size := wrote.size
  held := by
    rw [holds_append]
    exact ⟨wrote_keeps wrote held (.inl (Nat.le_refl _)), wrote_holds wrote⟩
  outside := by
    intro i beyond
    rw [List.length_append, List.length_singleton] at beyond
    rw [wrote.cells, List.length_singleton, if_neg (by omega)]

theorem replaced_of_wrote {before after : Memory Byte} {addr : Nat} {text result : List Byte}
    (wrote : Wrote before after addr (result ++ [0])) (shorter : result.length < text.length) :
    Replaced before after addr text result where
  size := wrote.size
  held := wrote_holds wrote
  outside := by
    intro i beyond
    rw [wrote.cells, List.length_append, List.length_singleton, if_neg (by omega)]

theorem rtrim_loop_replaced {addr : Nat} {text : List Byte} {memory : Memory Byte}
    (held : Holds memory addr (text ++ [0])) :
    ∃ after, rtrimLoop addr text.length memory = some after ∧
      Replaced memory after addr text (rtrim text) := by
  induction text using List.reverseRecOn generalizing memory with
  | nil => exact ⟨memory, rfl, replaced_refl held⟩
  | append_singleton text c ih =>
      have front := holds_append.mp (holds_append.mp held).1
      have last : memory.cells[addr + text.length]? = some c := front.2 0 (by simp)
      have inside := holds_inside held (by simp)
      simp only [List.length_append, List.length_singleton] at inside ⊢
      by_cases space : c = chr ' '
      · have cell_inside : addr + text.length + [(0 : Byte)].length ≤ memory.cells.length := by
          rw [List.length_singleton]
          omega
        obtain ⟨cut, cuts, wrote⟩ := store_wrote cell_inside
        have shortened := replaced_cut c front.1 wrote
        obtain ⟨after, trims, replaced⟩ := ih shortened.held
        have same : rtrim (text ++ [c]) = rtrim text := by
          simp [rtrim, space]
        refine ⟨after, ?_, ?_⟩
        · rw [rtrimLoop, last, if_pos (congrArg some space), cuts, Option.bind_some, trims]
        · rw [same]
          exact replaced_trans shortened replaced (by simp)
      · have same : rtrim (text ++ [c]) = text ++ [c] := by
          simp [rtrim, space]
        refine ⟨memory, ?_, ?_⟩
        · rw [rtrimLoop, last, if_neg (by simpa using space)]
        · rw [same]
          exact replaced_refl held

theorem rtrim_at_replaced {addr : Nat} {text : List Byte} {memory : Memory Byte}
    (read : string 0 memory addr = some text) :
    ∃ after, rtrimAt addr memory = some after ∧ Replaced memory after addr text (rtrim text) := by
  rw [rtrimAt, read]
  exact rtrim_loop_replaced (holds_of_string read).1

theorem ltrim_at_replaced {addr : Nat} {text : List Byte} {memory : Memory Byte}
    (read : string 0 memory addr = some text) :
    ∃ after, ltrimAt addr memory = some after ∧ Replaced memory after addr text (ltrim text) := by
  have held := (holds_of_string read).1
  have inside := holds_inside held (by simp)
  rw [List.length_append, List.length_singleton] at inside
  rw [ltrimAt, read, Option.bind_some]
  cases text with
  | nil => exact ⟨memory, rfl, replaced_refl held⟩
  | cons c text =>
      have head : (c :: text).head? = some (chr ' ') ↔ c = chr ' ' := by simp
      by_cases space : c = chr ' '
      · have rest : (c :: text).dropWhile isSpace = text.dropWhile isSpace :=
          List.dropWhile_cons_of_pos (by simpa [isSpace] using space)
        have shorter := (List.dropWhile_suffix (l := text) isSpace).length_le
        have moved_inside : addr + (text.dropWhile isSpace ++ [0]).length ≤
            memory.cells.length := by
          rw [List.length_cons] at inside
          rw [List.length_append, List.length_singleton]
          omega
        obtain ⟨after, stores, wrote⟩ := store_wrote moved_inside
        have same : ltrim (c :: text) = text.dropWhile isSpace := rest
        rw [if_pos (head.mpr space), rest, same]
        exact ⟨after, stores, replaced_of_wrote wrote (Nat.lt_succ_of_le shorter)⟩
      · have same : ltrim (c :: text) = c :: text :=
          List.dropWhile_cons_of_neg (by simpa using space)
        rw [if_neg (fun listed => space (head.mp listed)), same]
        exact ⟨memory, rfl, replaced_refl held⟩

theorem trims_replaced {addr : Nat} {text : List Byte} {memory : Memory Byte}
    (read : string 0 memory addr = some text) :
    ∃ middle after, rtrimAt addr memory = some middle ∧ ltrimAt addr middle = some after ∧
      Replaced memory after addr text (ltrim (rtrim text)) := by
  obtain ⟨middle, right, first⟩ := rtrim_at_replaced read
  have front : rtrim text <+: text := List.rdropWhile_prefix _ text
  have clean : 0 ∉ rtrim text := fun listed => (holds_of_string read).2 (front.subset listed)
  obtain ⟨after, left, second⟩ := ltrim_at_replaced (string_of_holds first.held clean)
  exact ⟨middle, after, right, left, replaced_trans first second front.length_le⟩

/-- The bytes of a `CConfItem`: so many, and the last one never written to. -/
structure ItemBytes (memory : Memory Byte) : Prop where
  size : memory.cells.length = itemNameSize + itemContentSize
  last : memory.cells[itemNameSize + itemContentSize - 1]? = some 0

theorem replaced_item {before after : Memory Byte} {addr : Nat} {text result : List Byte}
    (item : ItemBytes before)
    (bound : addr + text.length ≤ itemNameSize + itemContentSize - 1)
    (replaced : Replaced before after addr text result) : ItemBytes after where
  size := replaced.size.trans item.size
  last := (replaced.outside _ (.inr bound)).trans item.last

theorem wrote_item {before after : Memory Byte} {addr : Nat} {block : List Byte}
    (item : ItemBytes before)
    (bound : addr + block.length ≤ itemNameSize + itemContentSize - 1)
    (wrote : Wrote before after addr block) : ItemBytes after where
  size := wrote.size.trans item.size
  last := by
    rw [wrote.cells, if_neg (by omega)]
    exact item.last

theorem trims_item {memory : Memory Byte} {addr : Nat} (item : ItemBytes memory)
    (inside : addr ≤ itemNameSize + itemContentSize - 1) :
    ∃ text middle after, string 0 memory addr = some text ∧ rtrimAt addr memory = some middle ∧
      ltrimAt addr middle = some after ∧ ItemBytes after ∧
      Replaced memory after addr text (ltrim (rtrim text)) := by
  obtain ⟨text, read, bound⟩ := string_bound item.last inside
  obtain ⟨middle, after, right, left, replaced⟩ := trims_replaced read
  exact ⟨text, middle, after, read, right, left, replaced_item item bound replaced, replaced⟩

theorem blank_item : ItemBytes blankItem := by
  constructor
  case size => simp [blankItem]
  case last =>
    rw [blankItem, List.getElem?_replicate]
    rfl

theorem trimmed_sublist (text : List Byte) : (ltrim (rtrim text)).Sublist text :=
  (List.dropWhile_suffix _).sublist.trans (List.rdropWhile_prefix _ text).sublist

theorem filled_item {name value : List Byte}
    (short : name.length + 1 + value.length < linebufSize) :
    ∃ named filled, store blankItem nameAt name = some named ∧
      store named contentAt (value ++ [0]) = some filled ∧ ItemBytes filled ∧
      Holds filled contentAt (value ++ [0]) ∧
      (name.length < itemNameSize → Holds filled nameAt (name ++ [0])) := by
  simp only [linebufSize] at short
  have size := blank_item.size
  have name_bound : nameAt + name.length ≤ itemNameSize + itemContentSize - 1 := by
    simp only [nameAt, itemNameSize, itemContentSize]
    omega
  have name_inside : nameAt + name.length ≤ blankItem.cells.length := by omega
  obtain ⟨named, names, first⟩ := store_wrote name_inside
  have named_item := wrote_item blank_item name_bound first
  have value_bound : contentAt + (value ++ [0]).length ≤ itemNameSize + itemContentSize - 1 := by
    simp only [contentAt, itemNameSize, itemContentSize, List.length_append,
      List.length_singleton]
    omega
  have value_inside : contentAt + (value ++ [0]).length ≤ named.cells.length := by
    rw [named_item.size]
    omega
  obtain ⟨filled, fills, second⟩ := store_wrote value_inside
  refine ⟨named, filled, names, fills, wrote_item named_item value_bound second,
    wrote_holds second, ?_⟩
  intro fits
  have blank : Holds blankItem (nameAt + name.length) [0] := by
    intro i bound
    rw [List.length_singleton, Nat.lt_one_iff] at bound
    subst bound
    simp only [nameAt, itemNameSize, blankItem, itemContentSize] at fits ⊢
    rw [List.getElem?_replicate, if_pos (by omega)]
    rfl
  have whole : Holds named nameAt (name ++ [0]) := by
    rw [holds_append]
    exact ⟨wrote_holds first, wrote_keeps first blank (.inr (Nat.le_refl _))⟩
  apply wrote_keeps second whole
  left
  simp only [nameAt, contentAt, List.length_append, List.length_singleton]
  omega

theorem trimmed_clean {text : List Byte} (clean : 0 ∉ text) : 0 ∉ ltrim (rtrim text) :=
  fun listed => clean ((trimmed_sublist text).subset listed)

/-- When the name ends in front of the content, neither is touched by the other's trims. -/
theorem parts_trimmed {filled left object : Memory Byte} {name value nameText text : List Byte}
    (name_clean : 0 ∉ name) (value_clean : 0 ∉ value)
    (before : nameAt + name.length < contentAt)
    (name_held : Holds filled nameAt (name ++ [0]))
    (value_held : Holds filled contentAt (value ++ [0]))
    (name_read : string 0 filled nameAt = some nameText)
    (read : string 0 left contentAt = some text)
    (name_done : Replaced filled left nameAt nameText (ltrim (rtrim nameText)))
    (content_done : Replaced left object contentAt text (ltrim (rtrim text))) :
    string 0 object nameAt = some (ltrim (rtrim name)) ∧
      string 0 object contentAt = some (ltrim (rtrim value)) := by
  have name_same := (string_of_holds name_held name_clean).symm.trans name_read
  cases name_same
  have still : Holds left contentAt (value ++ [0]) := by
    apply holds_congr value_held
    intro i above _
    apply name_done.outside i
    exact .inr (Nat.le_trans (Nat.le_of_lt before) above)
  have value_same := (string_of_holds still value_clean).symm.trans read
  cases value_same
  have kept : Holds object nameAt (ltrim (rtrim name) ++ [0]) := by
    apply holds_congr name_done.held
    intro i _ below
    apply content_done.outside i
    have shorter := (trimmed_sublist name).length_le
    rw [List.length_append, List.length_singleton] at below
    left
    omega
  constructor
  · exact string_of_holds kept (trimmed_clean name_clean)
  · exact string_of_holds content_done.held (trimmed_clean value_clean)

/-- The object of a `linebuf` with a `=`; where the parts fit it has the strings of the item. -/
theorem new_item_reads {linebuf : List Byte} (equals : chr '=' ∈ linebuf)
    (short : linebuf.length < linebufSize) :
    ∃ object, newItem linebuf = some object ∧
      ∀ item, confItem linebuf = some item → 0 ∉ linebuf →
        string 0 object nameAt = some item.itemName ∧
          string 0 object contentAt = some item.itemContent := by
  rw [ConfigFile.line_length equals] at short
  obtain ⟨named, filled, names, fills, item, content, name_fits⟩ := filled_item short
  have name_inside : nameAt ≤ itemNameSize + itemContentSize - 1 := by decide
  have content_inside : contentAt ≤ itemNameSize + itemContentSize - 1 := by decide
  obtain ⟨nameText, right, left, name_read, name_right, name_left, named_item, name_done⟩ :=
    trims_item item name_inside
  obtain ⟨text, last, object, read, content_right, content_left, -, content_done⟩ :=
    trims_item named_item content_inside
  refine ⟨object, ?_, ?_⟩
  · simp only [ConfigFile.nameOf, ConfigFile.valueOf] at names fills
    rw [newItem, names, Option.bind_some, fills, Option.bind_some, name_right, Option.bind_some,
      name_left, Option.bind_some, content_right, Option.bind_some, content_left]
  · intro found made no_nul
    have name_clean : 0 ∉ ConfigFile.nameOf linebuf := fun listed =>
      no_nul ((List.takeWhile_prefix _).subset listed)
    have value_clean : 0 ∉ ConfigFile.valueOf linebuf := fun listed =>
      no_nul ((List.dropWhile_suffix _).subset (List.mem_of_mem_tail listed))
    rw [confItem] at made
    split at made
    case isFalse => cases made
    case isTrue fits =>
      cases made
      have before : nameAt + (ConfigFile.nameOf linebuf).length < contentAt := by
        rw [nameAt, Nat.zero_add]
        exact fits.1
      exact parts_trimmed name_clean value_clean before (name_fits fits.1) content name_read read
        name_done content_done

def trimmedItems : (linebuf : List Byte) → List (Memory Byte)
  | [] => []
  | c :: linebuf =>
      if c = chr '[' then []
      else if chr '=' ∈ c :: linebuf then (newItem (c :: linebuf)).toList
      else []

/-- The objects that one result of `fgets` adds. -/
def pieceItems (piece : List Byte) : List (Memory Byte) :=
  match (cString piece).bytes with
  | [] => []
  | c :: linebuf => if isSkipped c then [] else trimmedItems (lblprocstring (c :: linebuf))

theorem procstring_reaches (fp : Stream) (linebuf : List Byte) (items : List (Memory Byte)) :
    Reaches loadStep ⟨.lblprocstring, fp, linebuf, items⟩
      ⟨.item, fp, lblprocstring linebuf, items⟩ := by
  induction linebuf using List.reverseRecOn with
  | nil => exact reaches_step rfl (reaches_refl _)
  | append_singleton linebuf c ih =>
      by_cases ends : isLineEnd c = true
      · have trimmed : lblprocstring (linebuf ++ [c]) = lblprocstring linebuf := by
          simp [lblprocstring, ends]
        rw [trimmed]
        apply reaches_step _ ih
        simp [loadStep, ends]
      · have kept : lblprocstring (linebuf ++ [c]) = linebuf ++ [c] := by
          simp [lblprocstring, ends]
        rw [kept]
        apply reaches_step _ (reaches_refl _)
        simp [loadStep, ends, LoadState.goto]

theorem item_step (fp : Stream) (linebuf : List Byte) (items : List (Memory Byte))
    (short : linebuf.length < linebufSize) :
    loadStep ⟨.item, fp, linebuf, items⟩ =
      ⟨.test, fp, linebuf, items ++ trimmedItems linebuf⟩ := by
  cases linebuf with
  | nil => simp [loadStep, LoadState.goto, trimmedItems]
  | cons c linebuf =>
      simp only [loadStep, trimmedItems]
      by_cases group : c = chr '['
      · simp [group, LoadState.goto]
      · by_cases equals : chr '=' ∈ c :: linebuf
        · obtain ⟨object, made, -⟩ := new_item_reads equals short
          simp only [if_neg group, if_pos equals, made, appendItem, Option.toList_some]
        · simp only [if_neg group, if_neg equals, LoadState.goto, List.append_nil]

theorem piece_reaches (fp : Stream) (piece : Piece) (items : List (Memory Byte)) :
    ∃ linebuf, Reaches loadStep ⟨.skips, fp, (cString piece.1).bytes, items⟩
      ⟨.test, fp, linebuf, items ++ pieceItems piece.1⟩ := by
  have short : (cString piece.1).bytes.length < linebufSize :=
    Nat.lt_of_le_of_lt (List.takeWhile_prefix _).length_le piece.2.2
  unfold pieceItems
  cases string : (cString piece.1).bytes with
  | nil => exact ⟨[], reaches_step (by simp [loadStep, LoadState.goto]) (reaches_refl _)⟩
  | cons c linebuf =>
      rw [string] at short
      dsimp only
      by_cases skipped : isSkipped c
      · rw [if_pos skipped]
        exact ⟨c :: linebuf, reaches_step (by simp [loadStep, LoadState.goto, skipped])
          (reaches_refl _)⟩
      · rw [if_neg skipped]
        have trimmed_short : (lblprocstring (c :: linebuf)).length < linebufSize :=
          Nat.lt_of_le_of_lt (List.rdropWhile_prefix _ _).length_le short
        have opened : loadStep ⟨.skips, fp, c :: linebuf, items⟩ =
            ⟨.lblprocstring, fp, c :: linebuf, items⟩ := by
          simp [loadStep, LoadState.goto, skipped]
        have trimmed := procstring_reaches fp (c :: linebuf) items
        have closed := item_step fp _ items trimmed_short
        exact ⟨lblprocstring (c :: linebuf),
          reaches_step opened (reaches_trans trimmed (reaches_step closed (reaches_refl _)))⟩

/-- Up to the end of the file, and out of the loop. -/
theorem stream_reaches (results : List Piece) (withLast feof : Bool) (linebuf : List Byte)
    (items : List (Memory Byte)) (more : results ≠ [] → feof = false) :
    ∃ last, Reaches loadStep ⟨.test, ⟨results, .endOfFile withLast, feof⟩, linebuf, items⟩ last ∧
      HasReturned last ∧
      last.configItemList = items ++ results.flatMap fun piece => pieceItems piece.1 := by
  induction results generalizing feof linebuf items with
  | nil =>
      have closes : Reaches loadStep ⟨.test, ⟨[], .endOfFile withLast, true⟩, linebuf, items⟩
          ⟨.returned, ⟨[], .endOfFile withLast, true⟩, linebuf, items⟩ :=
        reaches_step rfl (reaches_step rfl (reaches_refl _))
      refine ⟨⟨.returned, ⟨[], .endOfFile withLast, true⟩, linebuf, items⟩, ?_, rfl, by simp⟩
      cases feof with
      | true => exact closes
      | false => exact reaches_step rfl (reaches_step rfl closes)
  | cons piece results ih =>
      rw [more (List.cons_ne_nil _ _)]
      let fp : Stream :=
        { results := results
          ending := .endOfFile withLast
          feof := decide (results = [] ∧ Ending.endOfFile withLast = .endOfFile true) }
      have onward : results ≠ [] → fp.feof = false := by
        intro another
        simp [fp, another]
      obtain ⟨linebuf', round⟩ := piece_reaches fp piece items
      obtain ⟨last, way, returned, listed⟩ :=
        ih fp.feof linebuf' (items ++ pieceItems piece.1) onward
      refine ⟨last, ?_, returned, ?_⟩
      · exact reaches_step rfl (reaches_step rfl (reaches_trans round way))
      · rw [listed, List.append_assoc, List.flatMap_cons]

/-- The loop never leaves a stream whose error persists. -/
structure Stuck (state : LoadState) : Prop where
  ending : state.fp.ending = .readError
  feof : state.fp.feof = false
  open_pc : state.pc ≠ .fclose ∧ state.pc ≠ .returned

theorem stuck_fgets {fp : Stream} (ending : fp.ending = .readError) (feof : fp.feof = false) :
    fp.fgets.2.ending = .readError ∧ fp.fgets.2.feof = false := by
  rcases fp with ⟨results, ending', feof'⟩
  cases ending
  cases results with
  | nil => exact ⟨rfl, feof⟩
  | cons piece results => simp [Stream.fgets]

/-- A step that does not touch the stream stays in the loop. -/
theorem stuck_same_stream {state after : LoadState} (stuck : Stuck state)
    (fp : after.fp = state.fp) (not_closing : after.pc ≠ .fclose)
    (not_returned : after.pc ≠ .returned) : Stuck after where
  ending := fp ▸ stuck.ending
  feof := fp ▸ stuck.feof
  open_pc := ⟨not_closing, not_returned⟩

theorem stuck_goto {state : LoadState} {pc : Pc} (stuck : Stuck state)
    (inside : pc ≠ .fclose ∧ pc ≠ .returned) : Stuck (state.goto pc) :=
  stuck_same_stream stuck rfl inside.1 inside.2

theorem stuck_append {state : LoadState} (stuck : Stuck state) (item : Option (Memory Byte)) :
    Stuck (appendItem state item) := by
  cases item with
  | none => exact stuck_goto stuck (by decide)
  | some item => exact stuck_same_stream stuck rfl (by simp [appendItem]) (by simp [appendItem])

theorem stuck_step (state : LoadState) (stuck : Stuck state) : Stuck (loadStep state) := by
  unfold loadStep
  split
  case h_1 =>
    rw [stuck.feof]
    exact stuck_goto stuck (by decide)
  case h_2 =>
    have kept := stuck_fgets stuck.ending stuck.feof
    split
    case h_1 piece fp read =>
      rw [read] at kept
      exact ⟨kept.1, kept.2, by simp⟩
    case h_2 fp read =>
      rw [read] at kept
      exact ⟨kept.1, kept.2, by simp⟩
  case h_3 =>
    split
    · exact stuck_goto stuck (by decide)
    · split <;> exact stuck_goto stuck (by decide)
  case h_4 here =>
    split
    · split
      · exact stuck_same_stream stuck rfl (by simp [here]) (by simp [here])
      · exact stuck_goto stuck (by decide)
    · exact stuck_goto stuck (by decide)
  case h_5 =>
    split
    · exact stuck_goto stuck (by decide)
    · split
      · exact stuck_goto stuck (by decide)
      · split
        · exact stuck_append stuck _
        · exact stuck_goto stuck (by decide)
  case h_6 here => exact absurd here stuck.open_pc.1
  case h_7 => exact stuck
  case h_8 => exact stuck

theorem stuck_start (results : List Piece) (linebuf : List Byte) (items : List (Memory Byte)) :
    Stuck (loadStart results .readError linebuf items) :=
  ⟨rfl, rfl, by simp [loadStart]⟩

theorem stuck_forever {state : LoadState} (stuck : Stuck state) :
    ¬Halts loadStep HasReturned state :=
  runs_forever Stuck stuck_step (fun _ stuck => stuck.open_pc.2) stuck

/-- `Load` returns exactly when what ends the stream is the end of the file. -/
theorem load_returns_iff (results : List Piece) (ending : Ending) (linebuf : List Byte)
    (items : List (Memory Byte)) :
    Halts loadStep HasReturned (loadStart results ending linebuf items) ↔
      ending ≠ .readError := by
  cases ending with
  | endOfFile withLast =>
      obtain ⟨last, way, returned, -⟩ :=
        stream_reaches results withLast false linebuf items fun _ => rfl
      have halts : Halts loadStep HasReturned _ := halts_of_reaches way returned
      exact ⟨fun _ => by simp, fun _ => halts⟩
  | readError =>
      have forever := stuck_forever (stuck_start results linebuf items)
      exact ⟨fun halts => absurd halts forever, fun other => absurd rfl other⟩

/-- A directory opens, and every `fgets` fails without the end of the file. -/
theorem directory_loads_forever :
    ¬Halts loadStep HasReturned (loadStart [] .readError [] []) :=
  stuck_forever (stuck_start [] [] [])

def readItem (object : Memory Byte) : Option CConfItem :=
  (string 0 object nameAt).bind fun name =>
    (string 0 object contentAt).map fun content => ⟨name, content⟩

theorem new_item_read {linebuf : List Byte} (no_nul : 0 ∉ linebuf)
    (short : linebuf.length < linebufSize) (equals : chr '=' ∈ linebuf) {item : CConfItem}
    (made : confItem linebuf = some item) :
    (newItem linebuf).toList.map readItem = [some item] := by
  obtain ⟨object, created, reads⟩ := new_item_reads equals short
  obtain ⟨name, content⟩ := reads item made no_nul
  rw [created, Option.toList_some, List.map_singleton, readItem, name, Option.bind_some, content]
  rfl

/-- Where the items of a result fit, the objects have their strings. -/
theorem piece_items_read {piece : List Byte} {items : List CConfItem}
    (short : piece.length < linebufSize) (taken : takeLine piece = some items) :
    (pieceItems piece).map readItem = items.map some := by
  have string_short : (cString piece).bytes.length < linebufSize :=
    Nat.lt_of_le_of_lt (List.takeWhile_prefix _).length_le short
  have clean := (cString piece).no_nul
  rw [takeLine] at taken
  rw [pieceItems]
  cases string : (cString piece).bytes with
  | nil =>
      rw [string] at taken
      cases taken
      rfl
  | cons c linebuf =>
      rw [string] at taken clean string_short
      dsimp only at taken ⊢
      have front : lblprocstring (c :: linebuf) <+: c :: linebuf := List.rdropWhile_prefix _ _
      by_cases skipped : isSkipped c
      · rw [if_pos skipped] at taken ⊢
        cases taken
        rfl
      · rw [if_neg skipped] at taken ⊢
        cases trimmed : lblprocstring (c :: linebuf) with
        | nil =>
            rw [trimmed] at taken
            cases taken
            rfl
        | cons first rest =>
            rw [trimmed] at taken front
            dsimp only at taken
            rw [trimmedItems]
            by_cases group : first = chr '['
            · rw [if_pos group] at taken ⊢
              cases taken
              rfl
            · rw [if_neg group] at taken ⊢
              by_cases equals : chr '=' ∈ first :: rest
              · rw [if_pos equals] at taken ⊢
                obtain ⟨item, made, rfl⟩ := Option.map_eq_some_iff.mp taken
                exact new_item_read (fun listed => clean (front.subset listed))
                  (Nat.lt_of_le_of_lt front.length_le string_short) equals made
              · rw [if_neg equals] at taken ⊢
                cases taken
                rfl

theorem results_read {results : List Piece} {items : List CConfItem}
    (taken : ConfigFile.takeLines (results.map (·.1)) = some items) :
    (results.flatMap fun piece => pieceItems piece.1).map readItem = items.map some := by
  induction results generalizing items with
  | nil =>
      cases taken
      rfl
  | cons piece results ih =>
      rw [List.map_cons, ConfigFile.takeLines] at taken
      obtain ⟨new, first, rest⟩ := Option.bind_eq_some_iff.mp taken
      obtain ⟨later, others, rfl⟩ := Option.map_eq_some_iff.mp rest
      rw [List.flatMap_cons, List.map_append, List.map_append, ih others,
        piece_items_read piece.2.2 first]

def fileResults (file : List Byte) : List Piece :=
  (PieceReader.pieces ConfigFile.newline (linebufSize - 2) file).pmap Subtype.mk
    fun piece listed =>
      let bounds := PieceReader.pieces_bounds ConfigFile.newline (linebufSize - 2) file piece listed
      ⟨bounds.1, Nat.lt_of_le_of_lt bounds.2 (by decide)⟩

/-- On the reads of a file the machine returns with the items of `load`, where those fit. -/
theorem steps_load {file : List Byte} {items : List CConfItem}
    (loaded : load (some file) [] = some (true, items)) (withLast : Bool) (linebuf : List Byte) :
    ∃ last, Reaches loadStep (loadStart (fileResults file) (.endOfFile withLast) linebuf []) last ∧
      HasReturned last ∧ last.configItemList.map readItem = items.map some := by
  rw [load, ConfigFile.load_loop_pieces _ _ _ (Nat.lt_succ_self _), Option.map_map] at loaded
  obtain ⟨taken, listed, same⟩ := Option.map_eq_some_iff.mp loaded
  have results : (fileResults file).map (·.1) =
      PieceReader.pieces ConfigFile.newline (linebufSize - 2) file := by
    rw [fileResults, List.map_pmap]
    simp
  obtain ⟨last, way, returned, objects⟩ :=
    stream_reaches (fileResults file) withLast false linebuf [] fun _ => rfl
  refine ⟨last, way, returned, ?_⟩
  have equal : taken = items := congrArg Prod.snd same
  rw [objects, List.nil_append, results_read (results ▸ listed), equal]

end NgxServer.LoadTermination
