import Mathlib.Data.List.Basic
import Mathlib.Data.List.Pairwise
import Mathlib.Logic.Function.Basic

/-!
# Passes over a queue whose items belong to lanes

Passes go over a queue from its front. An item whose lane has something
pending is skipped and stays, any other is started and leaves. What is pending
may be completed at any time, in a pass too. From what was seen of a run it can
be told how an item came to be started before an older one of its kind.
-/

namespace LaneSweep

set_option autoImplicit false

inductive Seen (Item Lane Token : Type*)
  | passBegins
  | passEnds
  | skipped (item : Item) (pending : Option Token)
  | started (item : Item)
  | completed (lane : Lane) (pending : Option Token)
  deriving DecidableEq

variable {Item Lane Token : Type*}

def Seen.Inside : Seen Item Lane Token → Prop
  | .passBegins | .passEnds => False
  | _ => True

/-- The log ends in a pass of which `current` was seen. -/
def During (log current : List (Seen Item Lane Token)) : Prop :=
  (∃ past, log = past ++ .passBegins :: current) ∧ ∀ seen ∈ current, seen.Inside

/-- In the pass that the log ends in, an item was skipped because something was
pending, and this was completed afterwards. -/
def Overtakable (log : List (Seen Item Lane Token)) (item : Item) (lane : Lane) : Prop :=
  ∃ token first second third, During log
    (first ++ .skipped item (some token) :: (second ++ .completed lane (some token) :: third))

def CompletedInPass (log : List (Seen Item Lane Token)) (lane : Lane) : Prop :=
  ∃ before pending rest current,
    log = before ++ .completed lane pending :: rest ∧ During before current

@[ext]
structure Queue (Item Lane Token : Type*) where
  waiting : List Item
  /-- everything that was ever put into the queue -/
  queued : List Item
  live : Item → Prop
  pending : Lane → Option Token
  /-- where a pass is -/
  iterator : Option Nat

section Moves

variable [DecidableEq Lane] (lane : Item → Lane) (rank : Item → Nat) (kin : Item → Item → Prop)

/-- An item was skipped in the pass under way; what was pending still is, or was
completed since. -/
def Passed (queue : Queue Item Lane Token) (current : List (Seen Item Lane Token))
    (item : Item) : Prop :=
  ∃ token first second, current = first ++ .skipped item (some token) :: second ∧
    (queue.pending (lane item) = some token ∨ .completed (lane item) (some token) ∈ second)

/-- What makes an item overtake an older one of its kind. -/
def Caused (queued : List Item) (log : List (Seen Item Lane Token)) : Prop :=
  ∀ older ∈ queued, ∀ item ∈ queued, rank older < rank item → kin older item →
    ∀ before rest, log = before ++ .started item :: rest → .started older ∉ before →
      Overtakable before older (lane item)

structure Ordered (queue : Queue Item Lane Token) (log : List (Seen Item Lane Token)) : Prop where
  sorted : queue.queued.Pairwise fun older item => rank older < rank item
  waits : queue.waiting.Sublist queue.queued
  known : ∀ item, .started item ∈ log → item ∈ queue.queued
  present : ∀ item ∈ queue.queued, queue.live item →
    item ∈ queue.waiting ∨ .started item ∈ log
  passed : ∀ pos, queue.iterator = some pos → ∃ current, During log current ∧
    ∀ index < pos, ∀ item, queue.waiting[index]? = some item → queue.live item →
      Passed lane queue current item
  caused : Caused lane rank kin queue.queued log

end Moves

section Logs

variable {log current before rest : List (Seen Item Lane Token)} {seen other : Seen Item Lane Token}

theorem split_append (same : log ++ [seen] = before ++ other :: rest) :
    before = log ∧ other = seen ∨ ∃ shorter, log = before ++ other :: shorter := by
  rcases List.eq_nil_or_concat rest with rfl | ⟨shorter, last, rfl⟩
  · obtain ⟨front, back⟩ := List.append_inj' same rfl
    exact Or.inl ⟨front.symm, (List.cons.inj back).1.symm⟩
  · rw [List.concat_eq_append, ← List.cons_append, ← List.append_assoc] at same
    exact Or.inr ⟨shorter, (List.append_inj' same rfl).1⟩

theorem during_append (during : During log current) (inside : seen.Inside) :
    During (log ++ [seen]) (current ++ [seen]) := by
  obtain ⟨⟨past, rfl⟩, all⟩ := during
  refine ⟨⟨past, by rw [List.append_assoc, List.cons_append]⟩, fun seen' member => ?_⟩
  rcases List.mem_append.mp member with old | new
  · exact all seen' old
  · rw [List.mem_singleton.mp new]
    exact inside

/-- A completion that lets an item overtake another lies in a pass. -/
theorem completed_of_overtakable {item : Item} {lane : Lane}
    (overtakable : Overtakable log item lane) : CompletedInPass log lane := by
  obtain ⟨token, first, second, third, ⟨past, rfl⟩, all⟩ := overtakable
  refine ⟨past ++ .passBegins :: (first ++ .skipped item (some token) :: second), some token,
    third, first ++ .skipped item (some token) :: second, ?_, ⟨past, rfl⟩, fun seen member => ?_⟩
  · simp only [List.append_assoc, List.cons_append]
  · apply all seen
    rw [← List.cons_append, ← List.append_assoc]
    exact List.mem_append_left _ member

theorem completed_in_pass_append {lane : Lane} (completed : CompletedInPass before lane) :
    CompletedInPass (before ++ rest) lane := by
  obtain ⟨early, pending, late, current, rfl, during⟩ := completed
  exact ⟨early, pending, late ++ rest, current, by simp only [List.append_assoc, List.cons_append],
    during⟩

end Logs

section Rules

variable {lane : Item → Lane} {rank : Item → Nat} {kin : Item → Item → Prop}
  {queue after : Queue Item Lane Token} {log current : List (Seen Item Lane Token)}

theorem caused_append {queued : List Item} {seen : Seen Item Lane Token}
    (caused : Caused lane rank kin queued log)
    (starts : ∀ older ∈ queued, ∀ item ∈ queued, rank older < rank item → kin older item →
      seen = .started item → .started older ∉ log → Overtakable log older (lane item)) :
    Caused lane rank kin queued (log ++ [seen]) := by
  intro older olderIn item itemIn less kindred before rest same late
  rcases split_append same with ⟨rfl, started⟩ | ⟨shorter, earlier⟩
  · exact starts older olderIn item itemIn less kindred started.symm late
  · exact caused older olderIn item itemIn less kindred before shorter earlier late

/-- What is seen next in a pass leaves an item passed, as long as what is
pending in its lane stays or is what was completed. -/
theorem passed_append {seen : Seen Item Lane Token} {item : Item}
    (passed : Passed lane queue current item)
    (pending : after.pending (lane item) = queue.pending (lane item) ∨
      ∀ token, queue.pending (lane item) = some token →
        seen = .completed (lane item) (some token)) :
    Passed lane after (current ++ [seen]) item := by
  obtain ⟨token, first, second, rfl, why⟩ := passed
  refine ⟨token, first, second ++ [seen], by rw [List.append_assoc, List.cons_append], ?_⟩
  rcases why with waits | completed
  · rcases pending with same | freed
    · exact Or.inl (same.trans waits)
    · refine Or.inr (List.mem_append_right _ ?_)
      rw [freed token waits]
      exact List.mem_singleton_self _
  · exact Or.inr (List.mem_append_left _ completed)

theorem mem_erase_idx {waiting : List Item} {pos : Nat} {item other : Item}
    (here : waiting[pos]? = some item) (waits : other ∈ waiting) (apart : other ≠ item) :
    other ∈ waiting.eraseIdx pos := by
  obtain ⟨index, there⟩ := List.mem_iff_getElem?.mp waits
  refine List.mem_eraseIdx_iff_getElem?.mpr ⟨index, ?_, there⟩
  rintro rfl
  exact apart (Option.some.inj (there.symm.trans here))

/-- In a sorted queue the older of two items stands before the other. -/
theorem older_before {waiting : List Item} {older item : Item} {index pos : Nat}
    (sorted : waiting.Pairwise fun older item => rank older < rank item)
    (there : waiting[index]? = some older) (here : waiting[pos]? = some item)
    (less : rank older < rank item) : index < pos := by
  obtain ⟨indexIn, isOlder⟩ := List.getElem?_eq_some_iff.mp there
  obtain ⟨posIn, isItem⟩ := List.getElem?_eq_some_iff.mp here
  by_contra behind
  rcases Nat.lt_or_eq_of_le (Nat.not_lt.mp behind) with earlier | same
  · have more := List.pairwise_iff_getElem.mp sorted pos index posIn indexIn earlier
    rw [isOlder, isItem] at more
    omega
  · subst same
    rw [isOlder] at isItem
    subst isItem
    omega

theorem ordered_quiet (ordered : Ordered lane rank kin queue log) {live : Item → Prop}
    {pending : Lane → Option Token}
    (fewer : ∀ item ∈ queue.queued, live item →
      queue.live item ∧ pending (lane item) = queue.pending (lane item)) :
    Ordered lane rank kin { queue with live := live, pending := pending } log where
  sorted := ordered.sorted
  waits := ordered.waits
  known := ordered.known
  present := fun item member now => ordered.present item member (fewer item member now).1
  passed := by
    intro pos iterator
    obtain ⟨current, during, passed⟩ := ordered.passed pos iterator
    refine ⟨current, during, fun index before item here now => ?_⟩
    have member := ordered.waits.subset (List.mem_of_getElem? here)
    obtain ⟨live, same⟩ := fewer item member now
    obtain ⟨token, first, second, split, why⟩ := passed index before item here live
    exact ⟨token, first, second, split, why.imp_left same.trans⟩
  caused := ordered.caused

theorem ordered_push (ordered : Ordered lane rank kin queue log) {item : Item}
    {live : Item → Prop} (idle : queue.iterator = none)
    (newest : ∀ other ∈ queue.queued, rank other < rank item)
    (same : ∀ other ∈ queue.queued, live other → queue.live other) :
    Ordered lane rank kin
      { queue with
        waiting := queue.waiting ++ [item]
        queued := queue.queued ++ [item]
        live := live } log where
  sorted := by
    refine List.pairwise_append.mpr ⟨ordered.sorted, List.pairwise_singleton _ _, ?_⟩
    intro other member new isNew
    rw [List.mem_singleton.mp isNew]
    exact newest other member
  waits := ordered.waits.append (List.Sublist.refl [item])
  known := fun other started => List.mem_append_left _ (ordered.known other started)
  present := by
    intro other member now
    rcases List.mem_append.mp member with old | new
    · exact (ordered.present other old (same other old now)).imp_left (List.mem_append_left _)
    · exact Or.inl (List.mem_append_right _ new)
  passed := by
    intro pos iterator
    exact absurd (idle.symm.trans iterator) nofun
  caused := by
    intro older olderIn other otherIn less kindred before rest log late
    have started : .started other ∈ before ++ .started other :: rest :=
      List.mem_append_right _ (List.mem_cons_self ..)
    have otherOld := ordered.known other (log ▸ started)
    rcases List.mem_append.mp olderIn with olderOld | new
    · exact ordered.caused older olderOld other otherOld less kindred before rest log late
    · rw [List.mem_singleton.mp new] at less
      exact absurd less (Nat.lt_asymm (newest other otherOld))

theorem ordered_pass_begins (ordered : Ordered lane rank kin queue log) :
    Ordered lane rank kin { queue with iterator := some 0 } (log ++ [.passBegins]) where
  sorted := ordered.sorted
  waits := ordered.waits
  known := fun item started => ordered.known item (by simpa using started)
  present := fun item member now =>
    (ordered.present item member now).imp_right (List.mem_append_left _)
  passed := by
    intro pos iterator
    cases iterator
    exact ⟨[], ⟨⟨log, rfl⟩, nofun⟩, nofun⟩
  caused := caused_append ordered.caused nofun

theorem ordered_pass_ends (ordered : Ordered lane rank kin queue log) :
    Ordered lane rank kin { queue with iterator := none } (log ++ [.passEnds]) where
  sorted := ordered.sorted
  waits := ordered.waits
  known := fun item started => ordered.known item (by simpa using started)
  present := fun item member now =>
    (ordered.present item member now).imp_right (List.mem_append_left _)
  passed := nofun
  caused := caused_append ordered.caused nofun

theorem ordered_skip (ordered : Ordered lane rank kin queue log) {pos : Nat} {item : Item}
    {pending : Option Token} (iterator : queue.iterator = some pos)
    (here : queue.waiting[pos]? = some item)
    (busy : queue.live item → pending ≠ none ∧ queue.pending (lane item) = pending) :
    Ordered lane rank kin { queue with iterator := some (pos + 1) }
      (log ++ [.skipped item pending]) where
  sorted := ordered.sorted
  waits := ordered.waits
  known := fun item started => ordered.known item (by simpa using started)
  present := fun item member now =>
    (ordered.present item member now).imp_right (List.mem_append_left _)
  passed := by
    intro next moved
    cases moved
    obtain ⟨current, during, passed⟩ := ordered.passed pos iterator
    have inside : (Seen.skipped item pending : Seen Item Lane Token).Inside := trivial
    refine ⟨current ++ [.skipped item pending], during_append during inside, ?_⟩
    intro index before other there live
    rcases Nat.lt_succ_iff_lt_or_eq.mp before with earlier | rfl
    · exact passed_append (passed index earlier other there live) (Or.inl rfl)
    · -- The item at the iterator itself: its lane is busy.
      cases here.symm.trans there
      obtain ⟨some, now⟩ := busy live
      obtain ⟨token, rfl⟩ := Option.ne_none_iff_exists'.mp some
      exact ⟨token, current, [], rfl, Or.inl now⟩
  caused := caused_append ordered.caused nofun

theorem ordered_drop (ordered : Ordered lane rank kin queue log) {pos : Nat} {item : Item}
    (iterator : queue.iterator = some pos) (here : queue.waiting[pos]? = some item)
    (ended : ¬ queue.live item) :
    Ordered lane rank kin { queue with waiting := queue.waiting.eraseIdx pos } log where
  sorted := ordered.sorted
  waits := (List.eraseIdx_sublist _ _).trans ordered.waits
  known := ordered.known
  present := by
    intro other member live
    apply (ordered.present other member live).imp_left
    intro waits
    apply mem_erase_idx here waits
    rintro rfl
    exact ended live
  passed := by
    intro place still
    cases iterator.symm.trans still
    obtain ⟨current, during, passed⟩ := ordered.passed pos iterator
    refine ⟨current, during, fun index before other there live => ?_⟩
    rw [List.getElem?_eraseIdx_of_lt before] at there
    exact passed index before other there live
  caused := ordered.caused

theorem ordered_complete [DecidableEq Lane] (ordered : Ordered lane rank kin queue log)
    {freed : Lane} {pending : Option Token}
    (was : queue.pending freed = none ∨ queue.pending freed = pending) :
    Ordered lane rank kin { queue with pending := Function.update queue.pending freed none }
      (log ++ [.completed freed pending]) where
  sorted := ordered.sorted
  waits := ordered.waits
  known := fun item started => ordered.known item (by simpa using started)
  present := fun item member now =>
    (ordered.present item member now).imp_right (List.mem_append_left _)
  passed := by
    intro pos iterator
    obtain ⟨current, during, passed⟩ := ordered.passed pos iterator
    have inside : (Seen.completed freed pending : Seen Item Lane Token).Inside := trivial
    refine ⟨current ++ [.completed freed pending], during_append during inside, ?_⟩
    intro index before item there live
    apply passed_append (passed index before item there live)
    by_cases same : lane item = freed
    · apply Or.inr
      intro token waits
      rw [same] at waits ⊢
      rcases was with idle | busy
      · cases idle.symm.trans waits
      · rw [← busy, waits]
    · exact Or.inl (Function.update_of_ne same _ _)
  caused := caused_append ordered.caused nofun

/-- The item that is started was the next of its kind, or what an older one had
to wait for was completed behind the iterator. -/
theorem ordered_start [DecidableEq Lane] (ordered : Ordered lane rank kin queue log) {pos : Nat}
    {item : Item} {pending : Option Token} (iterator : queue.iterator = some pos)
    (here : queue.waiting[pos]? = some item) (free : queue.pending (lane item) = none)
    (kindred : ∀ other ∈ queue.queued, kin other item →
      queue.live other ∧ lane other = lane item) :
    Ordered lane rank kin
      { queue with
        waiting := queue.waiting.eraseIdx pos
        pending := Function.update queue.pending (lane item) pending }
      (log ++ [.started item]) where
  sorted := ordered.sorted
  waits := (List.eraseIdx_sublist _ _).trans ordered.waits
  known := by
    intro other started
    rcases List.mem_append.mp started with old | new
    · exact ordered.known other old
    · cases List.mem_singleton.mp new
      exact ordered.waits.subset (List.mem_of_getElem? here)
  present := by
    intro other member live
    rcases ordered.present other member live with waits | started
    · by_cases same : other = item
      · subst same
        exact Or.inr (List.mem_append_right _ (List.mem_singleton_self _))
      · exact Or.inl (mem_erase_idx here waits same)
    · exact Or.inr (List.mem_append_left _ started)
  passed := by
    intro place still
    cases iterator.symm.trans still
    obtain ⟨current, during, passed⟩ := ordered.passed pos iterator
    have inside : (Seen.started item : Seen Item Lane Token).Inside := trivial
    refine ⟨current ++ [.started item], during_append during inside, ?_⟩
    intro index before other there live
    rw [List.getElem?_eraseIdx_of_lt before] at there
    apply passed_append (passed index before other there live)
    by_cases same : lane other = lane item
    · apply Or.inr
      intro token waits
      rw [same, free] at waits
      cases waits
    · exact Or.inl (Function.update_of_ne same _ _)
  caused := by
    apply caused_append ordered.caused
    intro older olderIn other otherIn less related is late
    cases is
    obtain ⟨live, same⟩ := kindred older olderIn related
    obtain ⟨current, during, passed⟩ := ordered.passed pos iterator
    have waits : older ∈ queue.waiting :=
      (ordered.present older olderIn live).resolve_right late
    obtain ⟨index, there⟩ := List.mem_iff_getElem?.mp waits
    have before : index < pos :=
      older_before (ordered.sorted.sublist ordered.waits) there here less
    obtain ⟨token, first, second, rfl, why⟩ := passed index before older there live
    rw [same, free] at why
    have completed := why.resolve_left nofun
    obtain ⟨middle, third, rfl⟩ := List.append_of_mem completed
    exact ⟨token, first, middle, third, during⟩

/-- An item that overtakes an older one of its kind does so because of a completion
in the pass that starts it. -/
theorem overtaken (ordered : Ordered lane rank kin queue log) {older item : Item}
    (order : [older, item].Sublist queue.queued) (related : kin older item)
    {before rest : List (Seen Item Lane Token)} (same : log = before ++ .started item :: rest)
    (late : .started older ∉ before) : Overtakable before older (lane item) := by
  have olderIn : older ∈ queue.queued := order.subset (List.mem_cons_self ..)
  have itemIn : item ∈ queue.queued := order.subset (List.mem_cons_of_mem _ (List.mem_cons_self ..))
  have less := List.rel_of_pairwise_cons (ordered.sorted.sublist order) (List.mem_cons_self ..)
  exact ordered.caused older olderIn item itemIn less related before rest same late

/-- Without completions in passes a lane's items are started in their order. -/
theorem in_order (ordered : Ordered lane rank kin queue log) {older item : Item}
    (order : [older, item].Sublist queue.queued) (related : kin older item)
    (never : ¬ CompletedInPass log (lane item)) {before rest : List (Seen Item Lane Token)}
    (same : log = before ++ .started item :: rest) : .started older ∈ before := by
  by_contra late
  apply never
  rw [same]
  exact completed_in_pass_append
    (completed_of_overtakable (overtaken ordered order related same late))

end Rules

end LaneSweep
