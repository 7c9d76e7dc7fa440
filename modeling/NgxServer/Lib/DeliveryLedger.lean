import Mathlib.Data.List.Perm.Subperm

/-!
# A ledger of deliveries over a stream

Items are accepted, wait, and are sent over a stream of symbols one after
another, each in one or more pieces. The ledger balances when every accepted
item is delivered, under way or waiting, and the stream is made of whole
delivered items and the part of the item under way that has been sent. Items
may overtake each other while they wait.
-/

namespace DeliveryLedger

set_option autoImplicit false

variable {Item Symbol : Type}

/-- `underway` is the item that is being sent and how much of it was sent. -/
structure Ledger (Item Symbol : Type) where
  accepted : List Item
  waiting : List Item
  underway : Option (Item × Nat)
  stream : List Symbol

def underwayItems : Option (Item × Nat) → List Item
  | none => []
  | some (item, _) => [item]

def sentPart (content : Item → List Symbol) : Option (Item × Nat) → List Symbol
  | none => []
  | some (item, sent) => (content item).take sent

def Balanced (content : Item → List Symbol) (ledger : Ledger Item Symbol) : Prop :=
  ∃ delivered : List Item,
    ledger.accepted.Perm (delivered ++ underwayItems ledger.underway ++ ledger.waiting) ∧
      ledger.stream = delivered.flatMap content ++ sentPart content ledger.underway

section Rules

variable {content : Item → List Symbol} {accepted waiting rest : List Item} {item : Item}
  {underway : Option (Item × Nat)} {stream : List Symbol} {sent : Nat}

theorem balanced_empty :
    Balanced content { accepted := [], waiting := [], underway := none, stream := [] } :=
  ⟨[], List.Perm.refl _, rfl⟩

theorem balanced_accept (balanced : Balanced content ⟨accepted, waiting, underway, stream⟩)
    (item : Item) :
    Balanced content ⟨accepted ++ [item], waiting ++ [item], underway, stream⟩ := by
  obtain ⟨delivered, parts, bytes⟩ := balanced
  refine ⟨delivered, ?_, bytes⟩
  have extended := parts.append_right [item]
  rw [List.append_assoc] at extended
  exact extended

theorem balanced_reorder (balanced : Balanced content ⟨accepted, waiting, underway, stream⟩)
    (same : waiting.Perm rest) : Balanced content ⟨accepted, rest, underway, stream⟩ := by
  obtain ⟨delivered, parts, bytes⟩ := balanced
  exact ⟨delivered, parts.trans (same.append_left _), bytes⟩

/-- A waiting item is taken up while none is under way. -/
theorem balanced_begin (balanced : Balanced content ⟨accepted, waiting, none, stream⟩)
    (taken : waiting.Perm (item :: rest)) :
    Balanced content ⟨accepted, rest, some (item, 0), stream⟩ := by
  obtain ⟨delivered, parts, bytes⟩ := balanced
  refine ⟨delivered, ?_, by simpa [sentPart] using bytes⟩
  have moved := parts.trans (taken.append_left (delivered ++ []))
  simpa [underwayItems] using moved

/-- The next `count` symbols of the item under way are sent. -/
theorem balanced_send (balanced : Balanced content ⟨accepted, waiting, some (item, sent), stream⟩)
    (count : Nat) :
    Balanced content ⟨accepted, waiting, some (item, sent + count),
      stream ++ ((content item).drop sent).take count⟩ := by
  obtain ⟨delivered, parts, bytes⟩ := balanced
  refine ⟨delivered, parts, ?_⟩
  simp only [sentPart] at bytes ⊢
  rw [bytes, List.append_assoc, List.take_add]

theorem balanced_finish
    (balanced : Balanced content ⟨accepted, waiting, some (item, sent), stream⟩)
    (whole : (content item).length ≤ sent) :
    Balanced content ⟨accepted, waiting, none, stream⟩ := by
  obtain ⟨delivered, parts, bytes⟩ := balanced
  refine ⟨delivered ++ [item], ?_, ?_⟩
  · simpa [underwayItems] using parts
  · simp only [sentPart] at bytes ⊢
    rw [bytes, List.take_of_length_le whole]
    simp

end Rules

section Stream

variable {content : Item → List Symbol} {ledger : Ledger Item Symbol}

/-- The stream is the beginning of accepted items, each at most once. -/
theorem stream_begins (balanced : Balanced content ledger) :
    ∃ sent : List Item, sent.Subperm ledger.accepted ∧ ledger.stream <+: sent.flatMap content := by
  obtain ⟨delivered, parts, bytes⟩ := balanced
  refine ⟨delivered ++ underwayItems ledger.underway, ?_, ?_⟩
  · exact (List.sublist_append_left _ ledger.waiting).subperm.trans parts.symm.subperm
  · rw [bytes, List.flatMap_append]
    apply (List.prefix_append_right_inj _).mpr
    cases ledger.underway with
    | none => exact List.nil_prefix
    | some part =>
        obtain ⟨item, sent⟩ := part
        simp only [sentPart, underwayItems, List.flatMap_cons, List.flatMap_nil, List.append_nil]
        exact List.take_prefix sent (content item)

/-- With nothing left to send the stream is all that was accepted. -/
theorem stream_complete (balanced : Balanced content ledger) (waiting : ledger.waiting = [])
    (idle : ledger.underway = none) :
    ∃ sent : List Item, sent.Perm ledger.accepted ∧ ledger.stream = sent.flatMap content := by
  obtain ⟨delivered, parts, bytes⟩ := balanced
  rw [waiting, idle] at parts
  rw [idle] at bytes
  refine ⟨delivered, ?_, bytes.trans (List.append_nil _)⟩
  simpa [underwayItems] using parts.symm

end Stream

section Origins

variable {Source : Type} {origin : Source → Item} {sources : List Source} {items : List Item}

/-- A rearrangement of an image is the image of a rearrangement. -/
theorem exists_perm_map (same : items.Perm (sources.map origin)) :
    ∃ found : List Source, found.Perm sources ∧ found.map origin = items := by
  have paired : List.Forall₂ (fun item source => origin source = item)
      (sources.map origin) sources := by
    clear same
    induction sources with
    | nil => exact List.Forall₂.nil
    | cons source rest ih => exact List.Forall₂.cons rfl ih
  obtain ⟨found, matched, arranged⟩ := List.perm_comp_forall₂ same paired
  refine ⟨found, arranged, ?_⟩
  clear same paired arranged
  induction matched with
  | nil => rfl
  | cons same _ ih => rw [List.map_cons, same, ih]

theorem exists_subperm_map (fewer : items.Subperm (sources.map origin)) :
    ∃ found : List Source, found.Subperm sources ∧ found.map origin = items := by
  obtain ⟨arranged, same, within⟩ := fewer
  obtain ⟨chosen, listed, rfl⟩ := List.sublist_map_iff.mp within
  obtain ⟨found, shuffled, image⟩ := exists_perm_map same.symm
  exact ⟨found, ⟨chosen, shuffled.symm, listed⟩, image⟩

end Origins

end DeliveryLedger
