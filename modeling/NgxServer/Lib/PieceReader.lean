import Mathlib.Data.List.Basic
import Mathlib.Tactic.Common

/-!
# Reading lines in pieces

A reader with a buffer of bounded size stops at a separator or when its buffer
is full. So a line comes as its blocks of that size, the separator at the end of
the last one, and no piece has parts of two lines.
-/

namespace PieceReader

set_option autoImplicit false

variable {Item : Type}

def blocks (size : Nat) (text : List Item) : List (List Item) :=
  if text = [] ∨ size = 0 then [] else text.take size :: blocks size (text.drop size)
termination_by text.length
decreasing_by
  rename_i goes_on
  rw [not_or, ← List.length_eq_zero_iff] at goes_on
  rw [List.length_drop]
  omega

theorem blocks_nil (size : Nat) : blocks size ([] : List Item) = [] := by
  rw [blocks, if_pos (.inl rfl)]

theorem blocks_cons {size : Nat} (positive : 0 < size) {text : List Item} (more : text ≠ []) :
    blocks size text = text.take size :: blocks size (text.drop size) := by
  rw [blocks, if_neg]
  simp [more, Nat.ne_of_gt positive]

theorem blocks_short {size : Nat} {text : List Item} (more : text ≠ [])
    (short : text.length ≤ size) : blocks size text = [text] := by
  have some_text := List.length_pos_iff.mpr more
  rw [blocks_cons (by omega) more, List.take_of_length_le short, List.drop_of_length_le short,
    blocks_nil]

theorem blocks_subset {size : Nat} {text block : List Item} (listed : block ∈ blocks size text) :
    block ⊆ text := by
  induction bound : text.length using Nat.strongRecOn generalizing text with
  | ind length ih =>
      rw [blocks] at listed
      split at listed
      · cases listed
      case isFalse goes_on =>
        rw [not_or, ← List.length_eq_zero_iff] at goes_on
        rcases List.mem_cons.mp listed with rfl | later
        · exact List.take_subset size text
        · have shorter : (text.drop size).length < length := by
            rw [List.length_drop]
            omega
          exact List.Subset.trans (ih _ shorter later rfl) (List.drop_subset size text)

variable [DecidableEq Item]

/-- A piece of at most `size` items, what is left, and whether the end was met. -/
def readPiece (sep : Item) : (size : Nat) → List Item → List Item × List Item × Bool
  | 0, text => ([], text, false)
  | _ + 1, [] => ([], [], true)
  | size + 1, item :: text =>
      if item = sep then ([item], text, false)
      else
        let (piece, rest, ended) := readPiece sep size text
        (item :: piece, rest, ended)

theorem read_partition (sep : Item) (size : Nat) (text : List Item) :
    (readPiece sep size text).1 ++ (readPiece sep size text).2.1 = text := by
  induction size generalizing text with
  | zero => rfl
  | succ size ih =>
      cases text with
      | nil => rfl
      | cons item text =>
          rw [readPiece]
          split
          · rfl
          · exact congrArg (item :: ·) (ih text)

theorem read_some (sep : Item) {size : Nat} (positive : 0 < size) {text : List Item}
    (more : text ≠ []) : (readPiece sep size text).1 ≠ [] := by
  obtain ⟨fewer, rfl⟩ : ∃ fewer, size = fewer + 1 := ⟨size - 1, by omega⟩
  cases text with
  | nil => exact absurd rfl more
  | cons item text =>
      rw [readPiece]
      split
      · exact List.cons_ne_nil item []
      · exact List.cons_ne_nil item _

theorem read_shorter (sep : Item) {size : Nat} (positive : 0 < size) {text : List Item}
    (more : text ≠ []) : (readPiece sep size text).2.1.length < text.length := by
  have parts := congrArg List.length (read_partition sep size text)
  have piece := List.length_pos_iff.mpr (read_some sep positive more)
  rw [List.length_append] at parts
  omega

theorem read_length (sep : Item) (size : Nat) (text : List Item) :
    (readPiece sep size text).1.length ≤ size := by
  induction size generalizing text with
  | zero => exact Nat.le_refl 0
  | succ size ih =>
      cases text with
      | nil => exact Nat.zero_le _
      | cons item text =>
          rw [readPiece]
          split
          · exact Nat.succ_le_succ (Nat.zero_le size)
          · exact Nat.succ_le_succ (ih text)

theorem read_ended (sep : Item) (size : Nat) (text : List Item)
    (ended : (readPiece sep size text).2.2 = true) : (readPiece sep size text).2.1 = [] := by
  induction size generalizing text with
  | zero => cases ended
  | succ size ih =>
      cases text with
      | nil => rfl
      | cons item text =>
          rw [readPiece] at ended ⊢
          split at ended
          · cases ended
          case isFalse other =>
            rw [if_neg other]
            exact ih text ended

theorem read_line {sep : Item} {size : Nat} {line : List Item} (clean : sep ∉ line)
    (fits : line.length < size) (rest : List Item) :
    readPiece sep size (line ++ sep :: rest) = (line ++ [sep], rest, false) := by
  induction line generalizing size with
  | nil =>
      obtain ⟨fewer, rfl⟩ : ∃ fewer, size = fewer + 1 := ⟨size - 1, by omega⟩
      rw [List.nil_append, readPiece, if_pos rfl, List.nil_append]
  | cons item line ih =>
      obtain ⟨fewer, rfl⟩ : ∃ fewer, size = fewer + 1 := ⟨size - 1, by omega⟩
      rw [List.mem_cons, not_or] at clean
      rw [List.cons_append, readPiece, if_neg (Ne.symm clean.1),
        ih clean.2 (by simpa using fits)]
      rfl

theorem read_block {sep : Item} {size : Nat} {line : List Item} (clean : sep ∉ line)
    (long : size ≤ line.length) (rest : List Item) :
    readPiece sep size (line ++ rest) = (line.take size, line.drop size ++ rest, false) := by
  induction size generalizing line with
  | zero => rfl
  | succ size ih =>
      cases line with
      | nil => cases long
      | cons item line =>
          rw [List.mem_cons, not_or] at clean
          rw [List.cons_append, readPiece, if_neg (Ne.symm clean.1),
            ih clean.2 (by simpa using long)]
          rfl

theorem read_last {sep : Item} {size : Nat} {line : List Item} (clean : sep ∉ line)
    (fits : line.length < size) : readPiece sep size line = (line, [], true) := by
  induction line generalizing size with
  | nil =>
      obtain ⟨fewer, rfl⟩ : ∃ fewer, size = fewer + 1 := ⟨size - 1, by omega⟩
      rfl
  | cons item line ih =>
      obtain ⟨fewer, rfl⟩ : ∃ fewer, size = fewer + 1 := ⟨size - 1, by omega⟩
      rw [List.mem_cons, not_or] at clean
      rw [readPiece, if_neg (Ne.symm clean.1), ih clean.2 (by simpa using fits)]

/-- The pieces that a reader with a buffer of `size + 1` items gets of a text. -/
def pieces (sep : Item) (size : Nat) (text : List Item) : List (List Item) :=
  if text = [] then []
  else (readPiece sep (size + 1) text).1 :: pieces sep size (readPiece sep (size + 1) text).2.1
termination_by text.length
decreasing_by exact read_shorter sep (Nat.succ_pos size) (by assumption)

theorem pieces_nil (sep : Item) (size : Nat) : pieces sep size [] = [] := by
  rw [pieces, if_pos rfl]

theorem pieces_cons (sep : Item) (size : Nat) {text : List Item} (more : text ≠ []) :
    pieces sep size text = (readPiece sep (size + 1) text).1 ::
      pieces sep size (readPiece sep (size + 1) text).2.1 := by
  rw [pieces, if_neg more]

theorem pieces_bounds (sep : Item) (size : Nat) (text : List Item) :
    ∀ piece ∈ pieces sep size text, piece ≠ [] ∧ piece.length ≤ size + 1 := by
  induction bound : text.length using Nat.strongRecOn generalizing text with
  | ind length ih =>
      intro piece listed
      by_cases empty : text = []
      · rw [empty, pieces_nil] at listed
        cases listed
      · rw [pieces_cons sep size empty] at listed
        rcases List.mem_cons.mp listed with rfl | later
        · exact ⟨read_some sep (Nat.succ_pos size) empty, read_length sep (size + 1) text⟩
        · have shorter := read_shorter sep (Nat.succ_pos size) empty
          exact ih _ (bound ▸ shorter) _ rfl piece later

/-- A line comes in blocks, the separator with the last one. -/
theorem pieces_line {sep : Item} (size : Nat) {line : List Item} (clean : sep ∉ line)
    (rest : List Item) :
    pieces sep size (line ++ sep :: rest) =
      blocks (size + 1) (line ++ [sep]) ++ pieces sep size rest := by
  induction bound : line.length using Nat.strongRecOn generalizing line with
  | ind length ih =>
      rw [pieces_cons sep size (by simp)]
      by_cases fits : line.length < size + 1
      · rw [read_line clean fits, blocks_short (by simp) (by simpa using Nat.le_of_lt_succ fits)]
        rfl
      · have long : size + 1 ≤ line.length := by omega
        have later : sep ∉ line.drop (size + 1) := fun listed => clean (List.mem_of_mem_drop listed)
        rw [read_block clean long, blocks_cons (Nat.succ_pos size) (by simp),
          ih _ (by rw [List.length_drop]; omega) later rfl, List.take_append_of_le_length long,
          List.drop_append_of_le_length long, List.cons_append]

theorem pieces_last {sep : Item} (size : Nat) {line : List Item} (clean : sep ∉ line) :
    pieces sep size line = blocks (size + 1) line := by
  induction bound : line.length using Nat.strongRecOn generalizing line with
  | ind length ih =>
      by_cases empty : line = []
      · rw [empty, pieces_nil, blocks_nil]
      rw [pieces_cons sep size empty]
      by_cases fits : line.length < size + 1
      · rw [read_last clean fits, pieces_nil, blocks_short empty (by omega)]
      · have long : size + 1 ≤ line.length := by omega
        have later : sep ∉ line.drop (size + 1) := fun listed => clean (List.mem_of_mem_drop listed)
        have block := read_block clean long []
        rw [List.append_nil, List.append_nil] at block
        rw [block, blocks_cons (Nat.succ_pos size) empty,
          ih _ (by rw [List.length_drop]; omega) later rfl]

/-- A text is a last line, or a line in front of a text. -/
theorem by_lines (sep : Item) {motive : List Item → Prop}
    (last : ∀ line, sep ∉ line → motive line)
    (next : ∀ line rest, sep ∉ line → motive rest → motive (line ++ sep :: rest))
    (text : List Item) : motive text := by
  induction bound : text.length using Nat.strongRecOn generalizing text with
  | ind length ih =>
      by_cases separated : sep ∈ text
      · obtain ⟨line, rest, rfl, clean⟩ := List.eq_append_cons_of_mem separated
        have shorter : rest.length < length := by
          rw [← bound, List.length_append, List.length_cons]
          omega
        exact next line rest clean (ih rest.length shorter rest rfl)
      · exact last text separated

end PieceReader
