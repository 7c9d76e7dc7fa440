import Mathlib.Data.List.Basic
import Mathlib.Tactic.Common

/-!
# Bounded sinks

Output is appended to a buffer that ends at a fixed place. A store behind that
place is an error, so a writer that succeeds has stayed in the buffer. A writer
emits a text when, however little room is left, it appends as much of the text
as fits; emitted texts append.
-/

namespace BoundedSink

set_option autoImplicit false

variable {Item : Type}

def put (last : Nat) (buf : List Item) (item : Item) : Option (List Item) :=
  if buf.length < last then some (buf ++ [item]) else none

def copy (last : Nat) (buf items : List Item) : Option (List Item) :=
  if buf.length + items.length ≤ last then some (buf ++ items) else none

abbrev Writer (Item : Type) := (last : Nat) → (buf : List Item) → Option (List Item)

def Writer.next (first second : Writer Item) : Writer Item :=
  fun last buf => (first last buf).bind (second last)

/-- With `least` cells left or more, the writer appends what fits of a text. -/
def Emits (least : Nat) (writer : Writer Item) (text : List Item) : Prop :=
  ∀ buf room, least ≤ room → writer (buf.length + room) buf = some (buf ++ text.take room)

theorem emits_more {least more : Nat} {writer : Writer Item} {text : List Item}
    (emits : Emits least writer text) (le : least ≤ more) : Emits more writer text := by
  intro buf room enough
  exact emits buf room (Nat.le_trans le enough)

theorem emits_congr {least : Nat} {writer other : Writer Item} {text : List Item}
    (emits : Emits least writer text) (same : ∀ last buf, other last buf = writer last buf) :
    Emits least other text := by
  intro buf room enough
  rw [same]
  exact emits buf room enough

theorem emits_nothing : Emits 0 (fun _ buf => some buf) ([] : List Item) := by
  intro buf room _
  rw [List.take_nil, List.append_nil]

theorem emits_put (item : Item) : Emits 1 (fun last buf => put last buf item) [item] := by
  intro buf room enough
  show put (buf.length + room) buf item = _
  rw [put, if_pos (by omega), List.take_of_length_le (by simpa using enough)]

/-- What is left of the room after the first text is the room of the second. -/
theorem emits_next {least : Nat} {first second : Writer Item} {text more : List Item}
    (one : Emits least first text) (two : Emits 0 second more) :
    Emits least (first.next second) (text ++ more) := by
  intro buf room enough
  have room_left : buf.length + room =
      (buf ++ text.take room).length + (room - text.length) := by
    rw [List.length_append, List.length_take]
    omega
  show (first (buf.length + room) buf).bind (second (buf.length + room)) = _
  rw [one buf room enough, Option.bind_some, room_left, two _ _ (Nat.zero_le _),
    List.append_assoc, List.take_append]

/-- A guard makes a writer that needs room into one that needs none. -/
theorem emits_guarded {writer : Writer Item} {text : List Item} (emits : Emits 1 writer text) :
    Emits 0 (fun last buf => if buf.length < last then writer last buf else some buf) text := by
  intro buf room _
  show (if buf.length < buf.length + room then writer (buf.length + room) buf else some buf) = _
  split
  case isTrue room_left => exact emits buf room (by omega)
  case isFalse full =>
    have none_left : room = 0 := by omega
    rw [none_left, List.take_zero, List.append_nil]

theorem emits_clipped (items : List Item) :
    Emits 0 (fun last buf => copy last buf (items.take (last - buf.length))) items := by
  intro buf room _
  show copy _ buf (items.take (buf.length + room - buf.length)) = _
  rw [Nat.add_sub_cancel_left, copy, if_pos]
  rw [List.length_take]
  omega

theorem emits_whole {least : Nat} {writer : Writer Item} {text buf : List Item} {last : Nat}
    (emits : Emits least writer text) (enough : buf.length + least ≤ last)
    (fits : buf.length + text.length ≤ last) : writer last buf = some (buf ++ text) := by
  have all := emits buf (last - buf.length) (by omega)
  rwa [Nat.add_sub_cancel' (by omega), List.take_of_length_le (by omega)] at all

end BoundedSink
