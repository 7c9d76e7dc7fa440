import Mathlib.Data.List.Nodup
import Mathlib.Logic.Function.Basic

/-!
# A heap of separately allocated blocks

Addresses are handed out once, `null` never. Freeing `null` does nothing, as
`delete[]` does; freeing any other address is recorded, so that a second free
of one block shows as a duplicate in the record.
-/

namespace BlockHeap

set_option autoImplicit false

def null : Nat := 0

structure Heap (Block : Type) where
  next : Nat
  block : Nat → Option Block
  frees : List Nat

variable {Block : Type}

def empty : Heap Block where
  next := 1
  block := fun _ => none
  frees := []

def alloc (heap : Heap Block) (content : Block) : Heap Block where
  next := heap.next + 1
  block := Function.update heap.block heap.next (some content)
  frees := heap.frees

def free (heap : Heap Block) (address : Nat) : Heap Block :=
  if address = null then heap
  else
    { heap with
      block := Function.update heap.block address none
      frees := address :: heap.frees }

/-- Overwrites a live block; a write through a dangling pointer is lost. -/
def modify (heap : Heap Block) (address : Nat) (change : Block → Block) : Heap Block :=
  { heap with block := Function.update heap.block address ((heap.block address).map change) }

/-- Live blocks have handed-out addresses, and a freed address is dead and was
freed once. -/
structure WellFormed (heap : Heap Block) : Prop where
  positive : null < heap.next
  bounded : ∀ address content, heap.block address = some content →
    null < address ∧ address < heap.next
  dead : ∀ address ∈ heap.frees, address < heap.next ∧ heap.block address = none
  once : heap.frees.Nodup

theorem empty_well_formed : WellFormed (empty : Heap Block) where
  positive := by simp [empty, null]
  bounded := by simp [empty]
  dead := by simp [empty]
  once := by simp [empty]

theorem next_not_live {heap : Heap Block} (wellFormed : WellFormed heap) :
    heap.block heap.next = none := by
  cases found : heap.block heap.next with
  | none => rfl
  | some content => exact absurd (wellFormed.bounded _ _ found).2 (Nat.lt_irrefl _)

theorem null_not_live {heap : Heap Block} (wellFormed : WellFormed heap) :
    heap.block null = none := by
  cases found : heap.block null with
  | none => rfl
  | some content => exact absurd (wellFormed.bounded _ _ found).1 (Nat.lt_irrefl _)

@[simp] theorem alloc_next (heap : Heap Block) (content : Block) :
    (alloc heap content).next = heap.next + 1 := rfl

@[simp] theorem alloc_frees (heap : Heap Block) (content : Block) :
    (alloc heap content).frees = heap.frees := rfl

theorem alloc_block (heap : Heap Block) (content : Block) (address : Nat) :
    (alloc heap content).block address =
      if address = heap.next then some content else heap.block address := by
  simp [alloc, Function.update_apply]

@[simp] theorem alloc_block_self (heap : Heap Block) (content : Block) :
    (alloc heap content).block heap.next = some content := by
  simp [alloc]

@[simp] theorem free_null (heap : Heap Block) : free heap null = heap := by
  simp [free]

@[simp] theorem free_next (heap : Heap Block) (address : Nat) :
    (free heap address).next = heap.next := by
  unfold free
  split <;> rfl

theorem free_block (heap : Heap Block) (address other : Nat) :
    (free heap address).block other =
      if address ≠ null ∧ other = address then none else heap.block other := by
  unfold free
  by_cases isNull : address = null
  · simp [isNull]
  · simp [isNull, Function.update_apply]

theorem block_of_free {heap : Heap Block} {address other : Nat} {content : Block}
    (live : (free heap address).block other = some content) : heap.block other = some content := by
  rw [free_block] at live
  split at live
  · cases live
  · exact live

/-- Whatever is live in a heap was live in an earlier one, with the same content. -/
def Within (later earlier : Heap Block) : Prop :=
  ∀ address content, later.block address = some content → earlier.block address = some content

theorem within_refl (heap : Heap Block) : Within heap heap := fun _ _ => id

theorem within_trans {first second third : Heap Block} (late : Within third second)
    (early : Within second first) : Within third first :=
  fun address content live => early address content (late address content live)

theorem within_free (heap : Heap Block) (address : Nat) : Within (free heap address) heap :=
  fun _ _ => block_of_free

theorem mem_free_frees (heap : Heap Block) (address other : Nat) :
    other ∈ (free heap address).frees ↔ address ≠ null ∧ other = address ∨ other ∈ heap.frees := by
  unfold free
  by_cases isNull : address = null
  · simp [isNull]
  · simp [isNull]

@[simp] theorem modify_next (heap : Heap Block) (address : Nat) (change : Block → Block) :
    (modify heap address change).next = heap.next := rfl

@[simp] theorem modify_frees (heap : Heap Block) (address : Nat) (change : Block → Block) :
    (modify heap address change).frees = heap.frees := rfl

theorem modify_block (heap : Heap Block) (address other : Nat) (change : Block → Block) :
    (modify heap address change).block other =
      if other = address then (heap.block other).map change else heap.block other := by
  unfold modify
  by_cases same : other = address
  · simp [same]
  · simp [same, Function.update_of_ne]

theorem modify_live (heap : Heap Block) (address other : Nat) (change : Block → Block) :
    ((modify heap address change).block other).isSome = (heap.block other).isSome := by
  rw [modify_block]
  split <;> simp

theorem alloc_well_formed {heap : Heap Block} (wellFormed : WellFormed heap)
    (content : Block) : WellFormed (alloc heap content) where
  positive := by have := wellFormed.positive; simp only [alloc_next]; omega
  bounded := by
    intro address found live
    rw [alloc_block] at live
    split at live
    · have := wellFormed.positive
      simp only [alloc_next]
      omega
    · have := wellFormed.bounded address found live
      simp only [alloc_next]
      omega
  dead := by
    intro address freed
    obtain ⟨bound, gone⟩ := wellFormed.dead address freed
    rw [alloc_block, if_neg (by omega)]
    exact ⟨by simp only [alloc_next]; omega, gone⟩
  once := wellFormed.once

theorem modify_well_formed {heap : Heap Block} (wellFormed : WellFormed heap)
    (address : Nat) (change : Block → Block) : WellFormed (modify heap address change) where
  positive := wellFormed.positive
  bounded := by
    intro other content live
    have before : (heap.block other).isSome = true := by
      rw [← modify_live heap address other change, live]
      rfl
    obtain ⟨old, found⟩ := Option.isSome_iff_exists.mp before
    exact wellFormed.bounded other old found
  dead := by
    intro other freed
    obtain ⟨bound, gone⟩ := wellFormed.dead other freed
    refine ⟨bound, ?_⟩
    rw [modify_block]
    simp [gone]
  once := wellFormed.once

/-- Freeing a live block, or `null`, never frees anything twice. -/
theorem free_well_formed {heap : Heap Block} (wellFormed : WellFormed heap)
    {address : Nat} (live : address ≠ null → (heap.block address).isSome) :
    WellFormed (free heap address) := by
  by_cases isNull : address = null
  · subst isNull
    simpa using wellFormed
  · obtain ⟨content, found⟩ := Option.isSome_iff_exists.mp (live isNull)
    have fresh : address ∉ heap.frees := by
      intro freed
      rw [(wellFormed.dead address freed).2] at found
      cases found
    have record : (free heap address).frees = address :: heap.frees := by simp [free, isNull]
    refine { positive := by simpa using wellFormed.positive, bounded := ?_, dead := ?_, once := ?_ }
    · intro other kept survives
      rw [free_block] at survives
      split at survives
      · cases survives
      · simpa using wellFormed.bounded other kept survives
    · intro other freed
      rw [record, List.mem_cons] at freed
      rw [free_block, free_next]
      rcases freed with same | older
      · subst same
        exact ⟨(wellFormed.bounded _ _ found).2, by simp [isNull]⟩
      · obtain ⟨bound, gone⟩ := wellFormed.dead other older
        exact ⟨bound, by simp [gone]⟩
    · rw [record]
      exact List.nodup_cons.mpr ⟨fresh, wellFormed.once⟩

def Accounted (heap : Heap Block) : Prop :=
  ∀ address, null < address → address < heap.next → heap.block address = none →
    address ∈ heap.frees

theorem empty_accounted : Accounted (empty : Heap Block) := by
  intro address positive bounded
  exact absurd bounded (Nat.not_lt.mpr positive)

theorem alloc_accounted {heap : Heap Block} (accounted : Accounted heap) (content : Block) :
    Accounted (alloc heap content) := by
  intro address positive bounded dead
  rw [alloc_block] at dead
  split at dead
  · cases dead
  case isFalse older =>
    rw [alloc_next] at bounded
    exact accounted address positive (by omega) dead

theorem free_accounted {heap : Heap Block} (accounted : Accounted heap) (address : Nat) :
    Accounted (free heap address) := by
  intro other positive bounded dead
  rw [free_next] at bounded
  rw [free_block] at dead
  rw [mem_free_frees]
  split at dead
  case isTrue freed => exact Or.inl freed
  case isFalse kept => exact Or.inr (accounted other positive bounded dead)

theorem modify_accounted {heap : Heap Block} (accounted : Accounted heap) (address : Nat)
    (change : Block → Block) : Accounted (modify heap address change) := by
  intro other positive bounded dead
  apply accounted other positive bounded
  rw [← Option.not_isSome_iff_eq_none, ← modify_live heap address other change, dead]
  exact Bool.false_ne_true

def Returned (heap : Heap Block) : Prop :=
  (∀ address, heap.block address = none) ∧
    ∀ address, null < address → address < heap.next → heap.frees.count address = 1

theorem returned_of_dead {heap : Heap Block} (wellFormed : WellFormed heap)
    (accounted : Accounted heap) (dead : ∀ address, heap.block address = none) :
    Returned heap := by
  apply And.intro dead
  intro address positive bounded
  apply List.count_eq_one_of_mem wellFormed.once
  exact accounted address positive bounded (dead address)

end BlockHeap
