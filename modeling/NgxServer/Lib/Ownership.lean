import NgxServer.Lib.Heap

/-!
# Exclusive ownership of heap blocks

A holder is whatever can hold the address of a block: a variable, a slot of a
queue, a thread. `Exclusive` says that holders hold live blocks and no block
has two of them, `Complete` that no block is without one. The rules say how
allocation, hand-over and freeing keep both.
-/

namespace Ownership

open BlockHeap (Heap WellFormed null)

set_option autoImplicit false

variable {Block Holder : Type}

structure Exclusive (heap : Heap Block) (holds : Holder → Nat → Prop) : Prop where
  wellFormed : WellFormed heap
  live : ∀ holder address, holds holder address → (heap.block address).isSome
  unique : ∀ holder other address, holds holder address → holds other address → holder = other

def Complete (heap : Heap Block) (holds : Holder → Nat → Prop) : Prop :=
  ∀ address, (heap.block address).isSome → ∃ holder, holds holder address

section Rules

variable {heap : Heap Block} {holds later : Holder → Nat → Prop}

theorem held_ne_null (exclusive : Exclusive heap holds) {holder : Holder} {address : Nat}
    (held : holds holder address) : address ≠ null := by
  rintro rfl
  have live := exclusive.live holder null held
  rw [BlockHeap.null_not_live exclusive.wellFormed] at live
  cases live

theorem next_unheld (exclusive : Exclusive heap holds) (holder : Holder) :
    ¬ holds holder heap.next := by
  intro held
  have live := exclusive.live holder heap.next held
  rw [BlockHeap.next_not_live exclusive.wellFormed] at live
  cases live

/-- Blocks change hands: every holder gets its blocks from one old holder. -/
theorem exclusive_move (exclusive : Exclusive heap holds) (move : Holder → Nat → Holder)
    (moved : ∀ holder address, later holder address →
      ∃ old, holds old address ∧ move old address = holder) : Exclusive heap later where
  wellFormed := exclusive.wellFormed
  live := by
    intro holder address held
    obtain ⟨old, before, -⟩ := moved holder address held
    exact exclusive.live old address before
  unique := by
    intro holder other address left right
    obtain ⟨old, before, same⟩ := moved holder address left
    obtain ⟨older, earlier, equal⟩ := moved other address right
    rw [← same, ← equal, exclusive.unique old older address before earlier]

theorem exclusive_mono (exclusive : Exclusive heap holds)
    (fewer : ∀ holder address, later holder address → holds holder address) :
    Exclusive heap later :=
  exclusive_move exclusive (fun holder _ => holder)
    fun holder address held => ⟨holder, fewer holder address held, rfl⟩

theorem complete_move (complete : Complete heap holds)
    (moved : ∀ holder address, holds holder address → ∃ new, later new address) :
    Complete heap later := by
  intro address live
  obtain ⟨holder, held⟩ := complete address live
  exact moved holder address held

theorem exclusive_alloc (exclusive : Exclusive heap holds) (content : Block) (owner : Holder)
    (held : ∀ holder address, later holder address →
      holds holder address ∨ holder = owner ∧ address = heap.next) :
    Exclusive (BlockHeap.alloc heap content) later where
  wellFormed := BlockHeap.alloc_well_formed exclusive.wellFormed content
  live := by
    intro holder address now
    rw [BlockHeap.alloc_block]
    split
    · rfl
    case isFalse old =>
      rcases held holder address now with before | ⟨-, new⟩
      · exact exclusive.live holder address before
      · exact absurd new old
  unique := by
    intro holder other address left right
    rcases held holder address left with before | ⟨isOwner, new⟩
    · rcases held other address right with earlier | ⟨-, new⟩
      · exact exclusive.unique holder other address before earlier
      · exact absurd (new ▸ before) (next_unheld exclusive holder)
    · rcases held other address right with earlier | ⟨owns, -⟩
      · exact absurd (new ▸ earlier) (next_unheld exclusive other)
      · rw [isOwner, owns]

theorem complete_alloc (complete : Complete heap holds) (content : Block) (owner : Holder)
    (kept : ∀ holder address, holds holder address → later holder address)
    (owns : later owner heap.next) : Complete (BlockHeap.alloc heap content) later := by
  intro address live
  rw [BlockHeap.alloc_block] at live
  split at live
  case isTrue new => exact ⟨owner, new ▸ owns⟩
  case isFalse =>
    obtain ⟨holder, held⟩ := complete address live
    exact ⟨holder, kept holder address held⟩

/-- A block that is freed as soon as it is allocated needs no holder. -/
theorem exclusive_discard (exclusive : Exclusive heap holds) (content : Block) :
    Exclusive (BlockHeap.free (BlockHeap.alloc heap content) heap.next) holds where
  wellFormed := by
    apply BlockHeap.free_well_formed
      (BlockHeap.alloc_well_formed exclusive.wellFormed content)
    intro _
    rw [BlockHeap.alloc_block_self]
    rfl
  live := by
    intro holder address held
    have old : address ≠ heap.next := by
      rintro rfl
      exact next_unheld exclusive holder held
    rw [BlockHeap.free_block, if_neg (fun both => old both.2), BlockHeap.alloc_block, if_neg old]
    exact exclusive.live holder address held
  unique := exclusive.unique

theorem exclusive_free (exclusive : Exclusive heap holds) {owner : Holder} {address : Nat}
    (owns : holds owner address)
    (kept : ∀ holder other, later holder other → holds holder other ∧ other ≠ address) :
    Exclusive (BlockHeap.free heap address) later where
  wellFormed := BlockHeap.free_well_formed exclusive.wellFormed
    fun _ => exclusive.live owner address owns
  live := by
    intro holder other held
    obtain ⟨before, different⟩ := kept holder other held
    rw [BlockHeap.free_block, if_neg (fun same => different same.2)]
    exact exclusive.live holder other before
  unique := fun holder other address left right =>
    exclusive.unique holder other address (kept holder address left).1 (kept other address right).1

theorem complete_free (complete : Complete heap holds) {address : Nat} (notNull : address ≠ null)
    (kept : ∀ holder other, holds holder other → other ≠ address → later holder other) :
    Complete (BlockHeap.free heap address) later := by
  intro other live
  rw [BlockHeap.free_block] at live
  split at live
  · cases live
  case isFalse survives =>
    obtain ⟨holder, held⟩ := complete other live
    exact ⟨holder, kept holder other held fun same => survives ⟨notNull, same⟩⟩

theorem exclusive_modify (exclusive : Exclusive heap holds) (address : Nat)
    (change : Block → Block) : Exclusive (BlockHeap.modify heap address change) holds where
  wellFormed := BlockHeap.modify_well_formed exclusive.wellFormed address change
  live := by
    intro holder other held
    rw [BlockHeap.modify_live]
    exact exclusive.live holder other held
  unique := exclusive.unique

theorem complete_modify (complete : Complete heap holds) (address : Nat)
    (change : Block → Block) : Complete (BlockHeap.modify heap address change) holds := by
  intro other live
  rw [BlockHeap.modify_live] at live
  exact complete other live

end Rules

end Ownership
