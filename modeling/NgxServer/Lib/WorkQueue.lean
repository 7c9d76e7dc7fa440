import Mathlib.Data.List.Nodup
import Mathlib.Data.List.Perm.Subperm
import Mathlib.Logic.Function.Basic

/-!
# A queue of work

Items are offered, handed out in the order they were offered, each to one
worker, who works on it and then disposes of it. The history of a queue is
part of it, so that what has happened to an item can be said of a state.
-/

namespace WorkQueue

set_option autoImplicit false

abbrev Hand (Item : Type) := Option (Item × Bool)

structure Queue (Worker Item : Type) where
  offered : List Item
  pending : List Item
  taken : List (Worker × Item)
  hand : Worker → Hand Item
  processed : List Item
  freed : List Item

section Moves

variable {Worker Item : Type} [DecidableEq Worker]

inductive Move (before : Queue Worker Item) : Queue Worker Item → Prop
  | offer (item : Item) (fresh : item ∉ before.offered) :
      Move before
        { before with
          offered := before.offered ++ [item]
          pending := before.pending ++ [item] }
  | take (worker : Worker) (item : Item) (rest : List Item) (idle : before.hand worker = none)
      (first : before.pending = item :: rest) :
      Move before
        { before with
          pending := rest
          taken := before.taken ++ [(worker, item)]
          hand := Function.update before.hand worker (some (item, false)) }
  | process (worker : Worker) (item : Item) (holds : before.hand worker = some (item, false)) :
      Move before
        { before with
          processed := before.processed ++ [item]
          hand := Function.update before.hand worker (some (item, true)) }
  | free (worker : Worker) (item : Item) (holds : before.hand worker = some (item, true)) :
      Move before
        { before with
          freed := before.freed ++ [item]
          hand := Function.update before.hand worker none }

end Moves

section Invariants

variable {Worker Item : Type}

/-- Handed out in order and once; what was taken is in the hand of the one
who took it or was freed, and nothing is freed before it was processed. -/
structure Fair (queue : Queue Worker Item) : Prop where
  order : queue.offered = queue.taken.map Prod.snd ++ queue.pending
  distinct : queue.offered.Nodup
  held : ∀ worker item worked, queue.hand worker = some (item, worked) →
    (worker, item) ∈ queue.taken ∧ item ∉ queue.freed ∧ (item ∈ queue.processed ↔ worked = true)
  accounted : ∀ worker item, (worker, item) ∈ queue.taken →
    (∃ worked, queue.hand worker = some (item, worked)) ∨ item ∈ queue.freed
  processedOnce : queue.processed.Nodup
  freedOnce : queue.freed.Nodup
  processedFirst : ∀ item ∈ queue.freed, item ∈ queue.processed
  takenFirst : ∀ item ∈ queue.processed, ∃ worker, (worker, item) ∈ queue.taken

variable {before after : Queue Worker Item}

theorem fair_taken_nodup (fair : Fair before) : (before.taken.map Prod.snd).Nodup := by
  have distinct := fair.distinct
  rw [fair.order] at distinct
  exact (List.nodup_append.mp distinct).1

theorem fair_taken_unique (fair : Fair before) {one other : Worker} {item : Item}
    (first : (one, item) ∈ before.taken) (second : (other, item) ∈ before.taken) :
    one = other := by
  have same := List.inj_on_of_nodup_map (fair_taken_nodup fair) first second rfl
  exact congrArg Prod.fst same

theorem fair_pending_untaken (fair : Fair before) {item : Item} (waits : item ∈ before.pending)
    (worker : Worker) : (worker, item) ∉ before.taken := by
  intro listed
  have distinct := fair.distinct
  rw [fair.order] at distinct
  have member : item ∈ before.taken.map Prod.snd := List.mem_map_of_mem (f := Prod.snd) listed
  exact (List.nodup_append.mp distinct).2.2 item member item waits rfl

theorem fair_freed_taken (fair : Fair before) {item : Item} (freed : item ∈ before.freed) :
    ∃ worker, (worker, item) ∈ before.taken :=
  fair.takenFirst item (fair.processedFirst item freed)

theorem nodup_snoc {items : List Item} {item : Item} (distinct : items.Nodup)
    (fresh : item ∉ items) : (items ++ [item]).Nodup := by
  rw [← List.concat_eq_append]
  exact distinct.concat fresh

theorem fair_offer (fair : Fair before) {item : Item} (fresh : item ∉ before.offered) :
    Fair
      { before with
        offered := before.offered ++ [item]
        pending := before.pending ++ [item] } where
  order := by rw [fair.order, List.append_assoc]
  distinct := nodup_snoc fair.distinct fresh
  held := fair.held
  accounted := fair.accounted
  processedOnce := fair.processedOnce
  freedOnce := fair.freedOnce
  processedFirst := fair.processedFirst
  takenFirst := fair.takenFirst

variable [DecidableEq Worker]

theorem fair_take (fair : Fair before) {worker : Worker} {item : Item} {rest : List Item}
    (idle : before.hand worker = none) (first : before.pending = item :: rest) :
    Fair
      { before with
        pending := rest
        taken := before.taken ++ [(worker, item)]
        hand := Function.update before.hand worker (some (item, false)) } := by
  have untaken : ∀ found, (found, item) ∉ before.taken :=
    fair_pending_untaken fair (first ▸ List.mem_cons_self)
  have unprocessed : item ∉ before.processed := fun listed =>
    (fair.takenFirst item listed).elim untaken
  refine ⟨?_, fair.distinct, ?_, ?_, fair.processedOnce, fair.freedOnce, fair.processedFirst, ?_⟩
  · rw [fair.order, first, List.map_append, List.append_assoc]
    rfl
  · intro found other worked holds
    by_cases same : found = worker
    · subst same
      simp only [Function.update_self, Option.some.injEq, Prod.mk.injEq] at holds
      obtain ⟨rfl, rfl⟩ := holds
      exact ⟨by simp, fun freed => unprocessed (fair.processedFirst item freed),
        by simp [unprocessed]⟩
    · simp only [Function.update_of_ne same] at holds
      obtain ⟨listed, kept, worked⟩ := fair.held found other worked holds
      exact ⟨List.mem_append_left _ listed, kept, worked⟩
  · intro found other listed
    rcases List.mem_append.mp listed with old | new
    · by_cases same : found = worker
      · subst same
        rcases fair.accounted found other old with ⟨worked, holds⟩ | freed
        · rw [idle] at holds
          cases holds
        · exact Or.inr freed
      · simp only [Function.update_of_ne same]
        exact fair.accounted found other old
    · cases List.mem_singleton.mp new
      exact Or.inl ⟨false, by simp⟩
  · intro other listed
    obtain ⟨found, old⟩ := fair.takenFirst other listed
    exact ⟨found, List.mem_append_left _ old⟩

theorem fair_process (fair : Fair before) {worker : Worker} {item : Item}
    (holds : before.hand worker = some (item, false)) :
    Fair
      { before with
        processed := before.processed ++ [item]
        hand := Function.update before.hand worker (some (item, true)) } := by
  obtain ⟨mine, kept, worked⟩ := fair.held worker item false holds
  have unprocessed : item ∉ before.processed := by simp [worked]
  refine ⟨fair.order, fair.distinct, ?_, ?_, ?_, fair.freedOnce, ?_, ?_⟩
  · intro found other state inHand
    by_cases same : found = worker
    · subst same
      simp only [Function.update_self, Option.some.injEq, Prod.mk.injEq] at inHand
      obtain ⟨rfl, rfl⟩ := inHand
      exact ⟨mine, kept, by simp⟩
    · simp only [Function.update_of_ne same] at inHand
      obtain ⟨listed, unfreed, done⟩ := fair.held found other state inHand
      have apart : other ≠ item := by
        rintro rfl
        exact same (fair_taken_unique fair listed mine)
      exact ⟨listed, unfreed, by simpa [apart] using done⟩
  · intro found other listed
    by_cases same : found = worker
    · subst same
      rcases fair.accounted found other listed with ⟨state, inHand⟩ | freed
      · rw [holds] at inHand
        cases inHand
        exact Or.inl ⟨true, by simp⟩
      · exact Or.inr freed
    · simp only [Function.update_of_ne same]
      exact fair.accounted found other listed
  · exact nodup_snoc fair.processedOnce unprocessed
  · exact fun other freed => List.mem_append_left _ (fair.processedFirst other freed)
  · intro other listed
    rcases List.mem_append.mp listed with old | new
    · exact fair.takenFirst other old
    · exact ⟨worker, List.mem_singleton.mp new ▸ mine⟩

theorem fair_free (fair : Fair before) {worker : Worker} {item : Item}
    (holds : before.hand worker = some (item, true)) :
    Fair
      { before with
        freed := before.freed ++ [item]
        hand := Function.update before.hand worker none } := by
  obtain ⟨mine, kept, worked⟩ := fair.held worker item true holds
  refine ⟨fair.order, fair.distinct, ?_, ?_, fair.processedOnce, ?_, ?_, fair.takenFirst⟩
  · intro found other state inHand
    by_cases same : found = worker
    · subst same
      simp at inHand
    · simp only [Function.update_of_ne same] at inHand
      obtain ⟨listed, unfreed, done⟩ := fair.held found other state inHand
      have apart : other ≠ item := by
        rintro rfl
        exact same (fair_taken_unique fair listed mine)
      exact ⟨listed, by simpa [apart] using unfreed, done⟩
  · intro found other listed
    by_cases same : found = worker
    · subst same
      rcases fair.accounted found other listed with ⟨state, inHand⟩ | freed
      · rw [holds] at inHand
        cases inHand
        exact Or.inr (by simp)
      · exact Or.inr (List.mem_append_left _ freed)
    · simp only [Function.update_of_ne same]
      exact (fair.accounted found other listed).imp id (List.mem_append_left _)
  · exact nodup_snoc fair.freedOnce kept
  · intro other listed
    rcases List.mem_append.mp listed with old | new
    · exact fair.processedFirst other old
    · rw [List.mem_singleton.mp new]
      exact worked.mpr rfl

theorem fair_move (fair : Fair before) (move : Move before after) : Fair after := by
  cases move with
  | offer item fresh => exact fair_offer fair fresh
  | take worker item rest idle first => exact fair_take fair idle first
  | process worker item holds => exact fair_process fair holds
  | free worker item holds => exact fair_free fair holds

end Invariants

section Places

variable {Worker Item : Type} {queue : Queue Worker Item}

/-- An item that was taken is in hand, unprocessed, or was processed. -/
theorem fair_unprocessed (fair : Fair queue) {item : Item} :
    item ∈ queue.taken.map Prod.snd ∧ item ∉ queue.processed ↔
      ∃ worker, queue.hand worker = some (item, false) := by
  constructor
  · rintro ⟨took, waits⟩
    obtain ⟨⟨worker, found⟩, listed, rfl⟩ := List.mem_map.mp took
    rcases fair.accounted worker found listed with ⟨worked, hand⟩ | freed
    · cases worked with
      | false => exact ⟨worker, hand⟩
      | true => exact absurd ((fair.held worker found true hand).2.2.mpr rfl) waits
    · exact absurd (fair.processedFirst found freed) waits
  · rintro ⟨worker, hand⟩
    obtain ⟨listed, -, worked⟩ := fair.held worker item false hand
    refine ⟨List.mem_map_of_mem (f := Prod.snd) listed, ?_⟩
    intro processed
    cases worked.mp processed

/-- Every item is in one place: processed, in a hand, or waiting. -/
theorem fair_places [DecidableEq Item] (fair : Fair queue) :
    ∃ held : List Item,
      (∀ item, item ∈ held ↔ ∃ worker, queue.hand worker = some (item, false)) ∧
        queue.offered.Perm (queue.processed ++ held ++ queue.pending) := by
  refine ⟨(queue.taken.map Prod.snd).filter fun item => decide (item ∉ queue.processed), ?_, ?_⟩
  · intro item
    rw [List.mem_filter, decide_eq_true_iff]
    exact fair_unprocessed fair
  · rw [fair.order]
    apply List.Perm.append_right
    have taken := fair_taken_nodup fair
    have parts := List.filter_append_perm (fun item => decide (item ∈ queue.processed))
      (queue.taken.map Prod.snd)
    have worked : ((queue.taken.map Prod.snd).filter fun item =>
        decide (item ∈ queue.processed)).Perm queue.processed := by
      apply (List.perm_ext_iff_of_nodup (taken.filter _) fair.processedOnce).mpr
      intro item
      rw [List.mem_filter, decide_eq_true_iff]
      constructor
      · exact And.right
      · intro processed
        obtain ⟨worker, listed⟩ := fair.takenFirst item processed
        exact ⟨List.mem_map_of_mem (f := Prod.snd) listed, processed⟩
    have split := parts.symm.trans (worked.append_right _)
    simpa only [decide_not] using split

end Places

section Undone

variable {Worker Item : Type} {before after : Queue Worker Item}

def undone (queue : Queue Worker Item) : Nat :=
  3 * queue.offered.length -
    (queue.taken.length + queue.processed.length + queue.freed.length)

theorem fair_lengths (fair : Fair before) : before.taken.length ≤ before.offered.length ∧
    before.processed.length ≤ before.offered.length ∧
    before.freed.length ≤ before.offered.length := by
  have order := congrArg List.length fair.order
  rw [List.length_append, List.length_map] at order
  have processed : before.processed.Subperm (before.taken.map Prod.snd) := by
    apply List.subperm_of_subset fair.processedOnce
    intro item listed
    obtain ⟨worker, took⟩ := fair.takenFirst item listed
    exact List.mem_map_of_mem (f := Prod.snd) took
  have freed := (List.subperm_of_subset fair.freedOnce fair.processedFirst).length_le
  have worked := processed.length_le
  rw [List.length_map] at worked
  omega

variable [DecidableEq Worker]

theorem undone_move (fair : Fair before) (move : Move before after)
    (same : after.offered = before.offered) : undone after < undone before := by
  have later := fair_lengths (fair_move fair move)
  cases move with
  | offer item fresh =>
      have longer := congrArg List.length same
      rw [List.length_append, List.length_singleton] at longer
      omega
  | take worker item rest idle first =>
      simp only [undone, List.length_append, List.length_singleton] at later ⊢
      omega
  | process worker item holds =>
      simp only [undone, List.length_append, List.length_singleton] at later ⊢
      omega
  | free worker item holds =>
      simp only [undone, List.length_append, List.length_singleton] at later ⊢
      omega

end Undone

end WorkQueue
