import Mathlib.Data.List.Nodup
import Mathlib.Data.List.Perm.Basic
import Mathlib.Logic.Function.Basic
import Mathlib.Logic.Function.Iterate
import Mathlib.Logic.Relation

/-!
# A pool of reusable objects with a quarantine

Objects are issued with a resource handle (a descriptor), serve one owner at a
time, and return to the free list either at once or through a quarantine
list. Pinned objects are issued for good. Each object carries a generation
number that is advanced whenever it changes hands; `stampOf` remembers under
which object and number an owner started. Counters shadow the lengths of the
lists. Handle -1 means that an object holds no resource.
-/

namespace QuarantinePool

set_option autoImplicit false

@[ext]
structure Pool where
  handle : Nat → Int
  generation : Nat → Nat
  objects : Nat
  all : List Nat
  free : List Nat
  quarantine : List Nat
  pinned : List Nat
  allN : Int
  freeN : Int
  quarantineN : Int
  clients : Int
  opened : List Int
  /-- every handle that the system ever handed out -/
  taken : List Int
  /-- every handle that was closed -/
  closed : List Int
  owner : Nat → Option Nat
  nextOwner : Nat
  stampOf : Nat → Nat × Nat
  /-- handles that are open from the start, for the pinned objects -/
  reserve : List Int

def inUse (pool : Pool) : List Nat :=
  pool.all.filter fun c => decide (c ∉ pool.free ∧ c ∉ pool.quarantine)

/-- The objects on some list but that of all objects, where `limbo` are those
that have been issued and not yet been pinned, counted or discarded. -/
def placed (pool : Pool) (limbo : List Nat) : List Nat :=
  pool.free ++ pool.quarantine ++ pool.pinned ++ limbo

/-- An object in the hands of a client, or given up by one and still in
quarantine. -/
def InService (pool : Pool) (c : Nat) : Prop :=
  c ∈ pool.all ∧ c ∉ pool.free ∧ c ∉ pool.pinned

theorem mem_in_use (pool : Pool) (c : Nat) :
    c ∈ inUse pool ↔ c ∈ pool.all ∧ c ∉ pool.free ∧ c ∉ pool.quarantine := by
  simp [inUse]

def grow (pool : Pool) : Pool :=
  { pool with
    handle := Function.update pool.handle pool.objects (-1)
    generation := Function.update pool.generation pool.objects 1
    objects := pool.objects + 1
    all := pool.all ++ [pool.objects]
    free := pool.free ++ [pool.objects] }

def recount (pool : Pool) : Pool :=
  { pool with freeN := pool.all.length, allN := pool.all.length }

def reissue (pool : Pool) (c : Nat) (rest : List Nat) (fd : Int) : Pool :=
  { pool with
    handle := Function.update pool.handle c fd
    generation := Function.update pool.generation c (pool.generation c + 1)
    free := rest
    freeN := pool.freeN - 1 }

def issueNew (pool : Pool) (fd : Int) : Pool :=
  { pool with
    handle := Function.update pool.handle pool.objects fd
    generation := Function.update pool.generation pool.objects 1
    objects := pool.objects + 1
    all := pool.all ++ [pool.objects]
    allN := pool.allN + 1 }

def issue (pool : Pool) (fd : Int) : Nat × Pool :=
  match pool.free with
  | c :: rest => (c, reissue pool c rest fd)
  | [] => (pool.objects, issueNew pool fd)

def pin (pool : Pool) (c : Nat) : Pool :=
  { pool with pinned := pool.pinned ++ [c] }

def own (pool : Pool) (c : Nat) : Pool :=
  { pool with
    owner := Function.update pool.owner c (some pool.nextOwner)
    nextOwner := pool.nextOwner + 1
    stampOf := Function.update pool.stampOf pool.nextOwner (c, pool.generation c) }

def countClient (pool : Pool) : Pool :=
  { pool with clients := pool.clients + 1 }

def openFd (pool : Pool) (fd : Int) : Pool :=
  { pool with opened := fd :: pool.opened, taken := pool.taken ++ [fd] }

def closeFd (pool : Pool) (fd : Int) : Pool :=
  { pool with opened := pool.opened.erase fd, closed := pool.closed ++ [fd] }

def putBack (pool : Pool) (c : Nat) : Pool :=
  { pool with
    generation := Function.update pool.generation c (pool.generation c + 1)
    owner := Function.update pool.owner c none
    free := pool.free ++ [c]
    freeN := pool.freeN + 1 }

def shut (pool : Pool) (c : Nat) : Pool :=
  if pool.handle c ≠ -1 then
    { closeFd pool (pool.handle c) with handle := Function.update pool.handle c (-1) }
  else pool

def discard (pool : Pool) (c : Nat) : Pool := shut (putBack pool c) c

def isolate (pool : Pool) (c : Nat) : Pool :=
  if c ∈ pool.quarantine then pool
  else
    { pool with
      generation := Function.update pool.generation c (pool.generation c + 1)
      quarantine := pool.quarantine ++ [c]
      quarantineN := pool.quarantineN + 1
      clients := pool.clients - 1 }

def disown (pool : Pool) (c : Nat) : Pool :=
  { pool with owner := Function.update pool.owner c none }

def retire (pool : Pool) (c : Nat) : Pool := isolate (disown (shut pool c) c) c

def release (pool : Pool) (c : Nat) : Pool :=
  putBack
    { pool with
      quarantineN := pool.quarantineN - 1
      quarantine := pool.quarantine.erase c } c

-- In the invariants `stray` holds open handles that no object has. Both `limbo` and `stray`
-- are empty between operations.
structure Placed (pool : Pool) (limbo : List Nat) : Prop where
  all_lt : ∀ c ∈ pool.all, c < pool.objects
  all_nodup : pool.all.Nodup
  placed_nodup : (placed pool limbo).Nodup
  placed_all : ∀ c ∈ placed pool limbo, c ∈ pool.all

/-- The open handles are those of the objects in use, each of a single one,
and every handle ever handed out is still open or was closed, once. -/
structure Held (pool : Pool) (stray : List Int) : Prop where
  idle : ∀ c, c ∈ pool.free ∨ c ∈ pool.quarantine → pool.handle c = -1
  opened_nodup : pool.opened.Nodup
  opened_nonneg : ∀ fd ∈ pool.opened, 0 ≤ fd
  held : pool.opened.Perm (stray ++ (inUse pool).map pool.handle)
  history : pool.taken.Perm (pool.closed ++ pool.opened)

structure Counted (pool : Pool) (limbo : List Nat) : Prop where
  all_count : pool.allN = pool.all.length
  free_count : pool.freeN = pool.free.length
  quarantine_count : pool.quarantineN = pool.quarantine.length
  client_count : pool.clients = (pool.all.length : Int) - pool.free.length -
    pool.quarantine.length - pool.pinned.length - limbo.length

structure Stamps (pool : Pool) (limbo : List Nat) : Prop where
  owner_used : ∀ c o, pool.owner c = some o → c ∈ inUse pool ∧ c ∉ pool.pinned
  used_owner : ∀ c ∈ inUse pool, c ∉ pool.pinned → c ∉ limbo → pool.owner c ≠ none
  owner_lt : ∀ c o, pool.owner c = some o → o < pool.nextOwner
  stamp_lt : ∀ o < pool.nextOwner, (pool.stampOf o).1 < pool.objects
  current : ∀ c o, pool.owner c = some o → pool.stampOf o = (c, pool.generation c)
  past : ∀ o < pool.nextOwner, pool.owner (pool.stampOf o).1 ≠ some o →
    (pool.stampOf o).2 < pool.generation (pool.stampOf o).1

structure Invariant (pool : Pool) (limbo : List Nat) (stray : List Int) : Prop where
  places : Placed pool limbo
  handles : Held pool stray
  counts : Counted pool limbo
  stamps : Stamps pool limbo

section Consequences

variable {pool : Pool} {limbo : List Nat} {stray : List Int}

theorem in_use_nodup (places : Placed pool limbo) : (inUse pool).Nodup :=
  places.all_nodup.filter _

theorem limbo_in_use (places : Placed pool limbo) {c : Nat} (member : c ∈ limbo) :
    c ∈ inUse pool ∧ c ∉ pool.pinned := by
  have distinct := places.placed_nodup
  have inAll := places.placed_all c (by simp [placed, member])
  simp only [placed, List.nodup_append', List.disjoint_right] at distinct
  have apart := distinct.2.2 member
  simp only [List.mem_append, not_or] at apart
  exact ⟨(mem_in_use pool c).mpr ⟨inAll, apart.1.1, apart.1.2⟩, apart.2⟩

theorem quarantine_not_free (places : Placed pool limbo) {c : Nat}
    (member : c ∈ pool.quarantine) : c ∈ pool.all ∧ c ∉ pool.free := by
  have distinct := places.placed_nodup
  have inAll := places.placed_all c (by simp [placed, member])
  simp only [placed, List.nodup_append', List.disjoint_right] at distinct
  exact ⟨inAll, distinct.1.1.2.2 member⟩

theorem used_open (handles : Held pool stray) {c : Nat} (used : c ∈ inUse pool) :
    pool.handle c ∈ pool.opened :=
  handles.held.mem_iff.mpr (List.mem_append_right _ (List.mem_map_of_mem used))

theorem used_nonneg (handles : Held pool stray) {c : Nat} (used : c ∈ inUse pool) :
    0 ≤ pool.handle c :=
  handles.opened_nonneg _ (used_open handles used)

theorem used_injective (handles : Held pool stray) {c d : Nat} (left : c ∈ inUse pool)
    (right : d ∈ inUse pool) (same : pool.handle c = pool.handle d) : c = d := by
  have distinct := handles.held.nodup_iff.mp handles.opened_nodup
  exact List.inj_on_of_nodup_map (List.nodup_append.mp distinct).2.1 left right same

/-- The stamp of an owner is current exactly as long as it owns its object. -/
theorem stamp_current_iff (stamps : Stamps pool limbo) {o : Nat} (started : o < pool.nextOwner) :
    (pool.stampOf o).2 = pool.generation (pool.stampOf o).1 ↔
      pool.owner (pool.stampOf o).1 = some o := by
  constructor
  · intro same
    by_contra ended
    exact absurd same (Nat.ne_of_lt (stamps.past o started ended))
  · intro owns
    have stamp := stamps.current _ _ owns
    exact congrArg Prod.snd stamp

end Consequences

section Lists

variable {pool after : Pool} {limbo rest : List Nat} {c : Nat}

theorem placed_of_perm (places : Placed pool limbo) (objects : after.objects = pool.objects)
    (all : after.all = pool.all) (moved : (placed after rest).Perm (placed pool limbo)) :
    Placed after rest where
  all_lt := by rw [all, objects]; exact places.all_lt
  all_nodup := by rw [all]; exact places.all_nodup
  placed_nodup := moved.nodup_iff.mpr places.placed_nodup
  placed_all := by
    intro d member
    rw [all]
    exact places.placed_all d (moved.mem_iff.mp member)

/-- An object that is on no list is put on one. -/
theorem placed_of_perm_cons (places : Placed pool limbo) (objects : after.objects = pool.objects)
    (all : after.all = pool.all) (member : c ∈ pool.all) (absent : c ∉ placed pool limbo)
    (moved : (placed after rest).Perm (c :: placed pool limbo)) : Placed after rest where
  all_lt := by rw [all, objects]; exact places.all_lt
  all_nodup := by rw [all]; exact places.all_nodup
  placed_nodup := moved.nodup_iff.mpr (List.nodup_cons.mpr ⟨absent, places.placed_nodup⟩)
  placed_all := by
    intro d found
    rw [all]
    rcases List.mem_cons.mp (moved.mem_iff.mp found) with same | older
    · rw [same]
      exact member
    · exact places.placed_all d older

theorem placed_of_new (places : Placed pool limbo) (objects : after.objects = pool.objects + 1)
    (all : after.all = pool.all ++ [pool.objects])
    (moved : (placed after rest).Perm (pool.objects :: placed pool limbo)) :
    Placed after rest where
  all_lt := by
    rw [all, objects]
    intro d member
    rcases List.mem_append.mp member with older | new
    · exact Nat.lt_succ_of_lt (places.all_lt d older)
    · rw [List.mem_singleton.mp new]
      exact Nat.lt_succ_self _
  all_nodup := by
    rw [all]
    refine List.nodup_append.mpr ⟨places.all_nodup, by simp, ?_⟩
    intro d older e new
    rw [List.mem_singleton.mp new]
    exact Nat.ne_of_lt (places.all_lt d older)
  placed_nodup := by
    refine moved.nodup_iff.mpr (List.nodup_cons.mpr ⟨?_, places.placed_nodup⟩)
    intro member
    exact Nat.lt_irrefl _ (places.all_lt _ (places.placed_all _ member))
  placed_all := by
    intro d found
    rw [all]
    rcases List.mem_cons.mp (moved.mem_iff.mp found) with same | older
    · simp [same]
    · exact List.mem_append_left _ (places.placed_all d older)

theorem in_use_perm_cons (before : Placed pool limbo) (later : Placed after rest)
    (absent : c ∉ inUse pool)
    (gains : ∀ d, d ∈ inUse after ↔ d = c ∨ d ∈ inUse pool) :
    (inUse after).Perm (c :: inUse pool) := by
  apply (List.perm_ext_iff_of_nodup (in_use_nodup later)
    (List.nodup_cons.mpr ⟨absent, in_use_nodup before⟩)).mpr
  intro d
  rw [gains d, List.mem_cons]

theorem in_use_perm (before : Placed pool limbo) (later : Placed after rest)
    (same : ∀ d, d ∈ inUse after ↔ d ∈ inUse pool) : (inUse after).Perm (inUse pool) :=
  (List.perm_ext_iff_of_nodup (in_use_nodup later) (in_use_nodup before)).mpr same

/-- The handles of the objects in use, when another object gets a handle. -/
theorem map_update_absent {objects : List Nat} (absent : c ∉ objects) (handle : Nat → Int)
    (fd : Int) : objects.map (Function.update handle c fd) = objects.map handle := by
  apply List.map_congr_left
  intro d member
  rw [Function.update_of_ne]
  intro same
  exact absent (same ▸ member)

end Lists

section Operations

variable {pool : Pool} {limbo : List Nat} {stray : List Int} {c : Nat} {fd : Int}

theorem free_disjoint (places : Placed pool limbo) (member : c ∈ pool.free) :
    c ∉ pool.quarantine ∧ c ∉ pool.pinned ∧ c ∉ limbo := by
  have distinct := places.placed_nodup
  simp only [placed, List.nodup_append', List.disjoint_left] at distinct
  refine ⟨distinct.1.1.2.2 member, distinct.1.2.2 ?_, distinct.2.2 ?_⟩ <;> simp [member]

theorem held_of_issue {after : Pool} (handles : Held pool (fd :: stray))
    (absent : c ∉ inUse pool) (gains : (inUse after).Perm (c :: inUse pool))
    (handle : after.handle = Function.update pool.handle c fd)
    (idle : ∀ d, d ∈ after.free ∨ d ∈ after.quarantine →
      d ≠ c ∧ (d ∈ pool.free ∨ d ∈ pool.quarantine))
    (opened : after.opened = pool.opened) (taken : after.taken = pool.taken)
    (closed : after.closed = pool.closed) : Held after stray where
  idle := by
    intro d member
    obtain ⟨different, older⟩ := idle d member
    rw [handle, Function.update_of_ne different]
    exact handles.idle d older
  opened_nodup := by rw [opened]; exact handles.opened_nodup
  opened_nonneg := by rw [opened]; exact handles.opened_nonneg
  held := by
    have used : ((inUse after).map after.handle).Perm (fd :: (inUse pool).map pool.handle) := by
      rw [handle]
      apply (gains.map _).trans
      rw [List.map_cons, Function.update_self, map_update_absent absent]
    calc List.Perm after.opened (fd :: stray ++ (inUse pool).map pool.handle) := by
          rw [opened]; exact handles.held
      List.Perm _ (stray ++ fd :: (inUse pool).map pool.handle) := List.perm_middle.symm
      List.Perm _ (stray ++ (inUse after).map after.handle) := used.symm.append_left stray
  history := by rw [opened, taken, closed]; exact handles.history

/-- The handle of an object that goes out of use is closed. -/
theorem held_of_close {after : Pool} (handles : Held pool stray)
    (used : c ∈ inUse pool) (loses : (inUse pool).Perm (c :: inUse after))
    (handle : after.handle = Function.update pool.handle c (-1))
    (idle : ∀ d, d ∈ after.free ∨ d ∈ after.quarantine →
      d = c ∨ d ∈ pool.free ∨ d ∈ pool.quarantine)
    (opened : after.opened = pool.opened.erase (pool.handle c))
    (taken : after.taken = pool.taken)
    (closed : after.closed = pool.closed ++ [pool.handle c]) : Held after stray where
  idle := by
    intro d member
    rw [handle, Function.update_apply]
    split_ifs with same
    · rfl
    · exact handles.idle d ((idle d member).resolve_left same)
  opened_nodup := by rw [opened]; exact handles.opened_nodup.erase _
  opened_nonneg := by
    rw [opened]
    intro fd member
    exact handles.opened_nonneg fd (List.mem_of_mem_erase member)
  held := by
    have gone : c ∉ inUse after := (List.nodup_cons.mp
      (loses.nodup_iff.mp (List.Nodup.of_map _ (List.nodup_append.mp
        (handles.held.nodup_iff.mp handles.opened_nodup)).2.1))).1
    have rest : (inUse after).map after.handle = (inUse after).map pool.handle := by
      rw [handle, map_update_absent gone]
    have before : pool.opened.Perm
        (pool.handle c :: (stray ++ (inUse after).map pool.handle)) :=
      handles.held.trans (((loses.map pool.handle).append_left stray).trans List.perm_middle)
    rw [opened, rest]
    simpa using before.erase (pool.handle c)
  history := by
    have live := List.perm_cons_erase (used_open handles used)
    rw [opened, taken, closed, List.append_assoc]
    exact handles.history.trans (live.append_left pool.closed)

theorem held_of_idle {after : Pool} (handles : Held pool stray)
    (same : (inUse after).Perm (inUse pool))
    (handle : ∀ d ∈ inUse pool, after.handle d = pool.handle d)
    (idle : ∀ d, d ∈ after.free ∨ d ∈ after.quarantine → after.handle d = -1)
    (opened : after.opened = pool.opened) (taken : after.taken = pool.taken)
    (closed : after.closed = pool.closed) : Held after stray where
  idle := idle
  opened_nodup := by rw [opened]; exact handles.opened_nodup
  opened_nonneg := by rw [opened]; exact handles.opened_nonneg
  held := by
    have used : ((inUse after).map after.handle).Perm ((inUse pool).map pool.handle) := by
      rw [← List.map_congr_left handle]
      exact same.map _
    rw [opened]
    exact handles.held.trans (used.symm.append_left stray)
  history := by rw [opened, taken, closed]; exact handles.history

/-- Owners that stay keep their object and its generation; an object whose
owner goes away gets a greater generation. -/
theorem stamps_of_step {after : Pool} {rest : List Nat} (stamps : Stamps pool limbo)
    (objects : pool.objects ≤ after.objects) (nextOwner : after.nextOwner = pool.nextOwner)
    (stampOf : after.stampOf = pool.stampOf)
    (generation : ∀ d < pool.objects, pool.generation d ≤ after.generation d)
    (stays : ∀ d o, after.owner d = some o → pool.owner d = some o ∧
      after.generation d = pool.generation d ∧ d ∈ inUse after ∧ d ∉ after.pinned)
    (ends : ∀ d o, pool.owner d = some o → after.owner d = none →
      pool.generation d < after.generation d)
    (owned : ∀ d ∈ inUse after, d ∉ after.pinned → d ∉ rest → after.owner d ≠ none) :
    Stamps after rest where
  owner_used := fun d o owns => (stays d o owns).2.2
  used_owner := owned
  owner_lt := by
    intro d o owns
    rw [nextOwner]
    exact stamps.owner_lt d o (stays d o owns).1
  stamp_lt := by
    intro o started
    rw [nextOwner] at started
    rw [stampOf]
    exact Nat.lt_of_lt_of_le (stamps.stamp_lt o started) objects
  current := by
    intro d o owns
    obtain ⟨before, same, -, -⟩ := stays d o owns
    rw [stampOf, same]
    exact stamps.current d o before
  past := by
    intro o started ended
    rw [nextOwner] at started
    rw [stampOf] at ended ⊢
    by_cases owned : pool.owner (pool.stampOf o).1 = some o
    · have gone : after.owner (pool.stampOf o).1 = none := by
        cases next : after.owner (pool.stampOf o).1 with
        | none => rfl
        | some other =>
            rw [(stays _ _ next).1] at owned
            exact absurd (next.trans owned) ended
      have stamp := congrArg Prod.snd (stamps.current _ _ owned)
      rw [stamp]
      exact ends _ _ owned gone
    · exact Nat.lt_of_lt_of_le (stamps.past o started owned)
        (generation _ (stamps.stamp_lt o started))

theorem unused_unowned (stamps : Stamps pool limbo) (unused : c ∉ inUse pool) :
    pool.owner c = none := by
  cases owns : pool.owner c with
  | none => rfl
  | some o => exact absurd (stamps.owner_used c o owns).1 unused

theorem reissue_invariant {rest : List Nat} (holds : Invariant pool limbo (fd :: stray))
    (front : pool.free = c :: rest) :
    Invariant (reissue pool c rest fd) (c :: limbo) stray := by
  obtain ⟨places, handles, counts, stamps⟩ := holds
  have isFree : c ∈ pool.free := by simp [front]
  obtain ⟨notQuarantined, -, -⟩ := free_disjoint places isFree
  have inAll : c ∈ pool.all := places.placed_all c (by simp [placed, isFree])
  have unused : c ∉ inUse pool := by simp [mem_in_use, isFree]
  have notRest : c ∉ rest := by
    have distinct := places.placed_nodup
    simp only [placed, List.nodup_append', front, List.nodup_cons] at distinct
    exact distinct.1.1.1.1
  have later : Placed (reissue pool c rest fd) (c :: limbo) := by
    refine placed_of_perm places rfl rfl ?_
    simp only [placed, reissue, front, List.cons_append]
    exact List.perm_middle
  have gains : ∀ d, d ∈ inUse (reissue pool c rest fd) ↔ d = c ∨ d ∈ inUse pool := by
    intro d
    simp only [mem_in_use, reissue, front, List.mem_cons]
    by_cases same : d = c
    · simp [same, inAll, notRest, notQuarantined]
    · simp [same]
  refine ⟨later, ?_, ⟨counts.all_count, ?_, counts.quarantine_count, ?_⟩, ?_⟩
  · refine held_of_issue handles unused (in_use_perm_cons places later unused gains) rfl ?_
      rfl rfl rfl
    intro d member
    constructor
    · rintro rfl
      exact member.elim notRest notQuarantined
    · simp only [reissue, front, List.mem_cons] at member ⊢
      tauto
  · have := counts.free_count
    simp only [front, List.length_cons] at this
    simp only [reissue]
    omega
  · have := counts.client_count
    simp only [front, List.length_cons] at this
    simp only [reissue, List.length_cons]
    omega
  · refine stamps_of_step stamps (Nat.le_refl _) rfl rfl ?_ ?_ ?_ ?_
    · intro d _
      simp only [reissue, Function.update_apply]
      split_ifs with same
      · rw [same]
        exact Nat.le_succ _
      · exact Nat.le_refl _
    · intro d o owns
      have used := stamps.owner_used d o owns
      have different : d ≠ c := by
        rintro rfl
        exact unused used.1
      exact ⟨owns, Function.update_of_ne different _ _, (gains d).mpr (Or.inr used.1), used.2⟩
    · intro d o owns gone
      exact absurd (owns.symm.trans gone) (by simp)
    · intro d used notPinned notLimbo
      rw [List.mem_cons, not_or] at notLimbo
      exact stamps.used_owner d (((gains d).mp used).resolve_left notLimbo.1) notPinned
        notLimbo.2

theorem issue_new_invariant (holds : Invariant pool limbo (fd :: stray))
    (exhausted : pool.free = []) :
    Invariant (issueNew pool fd) (pool.objects :: limbo) stray := by
  obtain ⟨places, handles, counts, stamps⟩ := holds
  have unused : pool.objects ∉ inUse pool := by
    intro used
    exact Nat.lt_irrefl _ (places.all_lt _ ((mem_in_use _ _).mp used).1)
  have later : Placed (issueNew pool fd) (pool.objects :: limbo) :=
    placed_of_new places rfl rfl List.perm_middle
  have outside : ∀ d ∈ pool.quarantine, d ≠ pool.objects := by
    intro d member
    exact Nat.ne_of_lt (places.all_lt d (places.placed_all d (by simp [placed, member])))
  have gains : ∀ d, d ∈ inUse (issueNew pool fd) ↔ d = pool.objects ∨ d ∈ inUse pool := by
    intro d
    simp only [mem_in_use, issueNew, exhausted, List.mem_append, List.mem_singleton]
    by_cases same : d = pool.objects
    · simpa [same] using fun member => outside _ member rfl
    · simp [same]
  refine ⟨later, ?_, ⟨?_, counts.free_count, counts.quarantine_count, ?_⟩, ?_⟩
  · refine held_of_issue handles unused (in_use_perm_cons places later unused gains) rfl ?_
      rfl rfl rfl
    intro d member
    simp only [issueNew, exhausted, List.not_mem_nil, false_or] at member ⊢
    exact ⟨outside d member, member⟩
  · have := counts.all_count
    simp only [issueNew, List.length_append, List.length_singleton]
    omega
  · have := counts.client_count
    simp only [issueNew, List.length_append, List.length_cons, List.length_nil]
    omega
  · refine stamps_of_step stamps (Nat.le_succ _) rfl rfl ?_ ?_ ?_ ?_
    · intro d bound
      exact Nat.le_of_eq (Function.update_of_ne (Nat.ne_of_lt bound) _ _).symm
    · intro d o owns
      have used := stamps.owner_used d o owns
      have different : d ≠ pool.objects := by
        rintro rfl
        exact unused used.1
      exact ⟨owns, Function.update_of_ne different _ _, (gains d).mpr (Or.inr used.1), used.2⟩
    · intro d o owns gone
      exact absurd (owns.symm.trans gone) (by simp)
    · intro d used notPinned notLimbo
      rw [List.mem_cons, not_or] at notLimbo
      exact stamps.used_owner d (((gains d).mp used).resolve_left notLimbo.1) notPinned
        notLimbo.2

/-- Issuing an object moves a stray handle to an object in limbo. -/
theorem issue_invariant (holds : Invariant pool limbo (fd :: stray)) :
    Invariant (issue pool fd).2 ((issue pool fd).1 :: limbo) stray := by
  unfold issue
  split
  case h_1 c rest front => exact reissue_invariant holds front
  case h_2 exhausted => exact issue_new_invariant holds exhausted

theorem issue_owner (pool : Pool) (fd : Int) : (issue pool fd).2.owner = pool.owner := by
  unfold issue
  split <;> rfl

theorem issue_unowned (holds : Invariant pool limbo stray) :
    (issue pool fd).2.owner (issue pool fd).1 = none := by
  unfold issue
  split
  case h_1 c rest front =>
    have unused : c ∉ inUse pool := by simp [mem_in_use, front]
    have unowned : pool.owner c = none := unused_unowned holds.stamps unused
    exact unowned
  case h_2 exhausted =>
    have unused : pool.objects ∉ inUse pool := by
      intro used
      exact Nat.lt_irrefl _ (holds.places.all_lt _ ((mem_in_use _ _).mp used).1)
    have unowned : pool.owner pool.objects = none := unused_unowned holds.stamps unused
    exact unowned

theorem pin_invariant (holds : Invariant pool (c :: limbo) stray)
    (unowned : pool.owner c = none) : Invariant (pin pool c) limbo stray := by
  obtain ⟨places, handles, counts, stamps⟩ := holds
  have moved : (placed (pin pool c) limbo).Perm (placed pool (c :: limbo)) := by
    simp [placed, pin]
  have used : inUse (pin pool c) = inUse pool := rfl
  refine ⟨placed_of_perm places rfl rfl moved, ?_,
    ⟨counts.all_count, counts.free_count, counts.quarantine_count, ?_⟩, ?_⟩
  · exact held_of_idle handles (List.Perm.refl _) (fun _ _ => rfl) handles.idle rfl rfl rfl
  · have := counts.client_count
    simp only [pin, List.length_append, List.length_cons, List.length_nil] at this ⊢
    omega
  · refine stamps_of_step stamps (Nat.le_refl _) rfl rfl (fun _ _ => Nat.le_refl _) ?_ ?_ ?_
    · intro d o owns
      have different : d ≠ c := by
        rintro rfl
        exact absurd (unowned.symm.trans owns) (by simp)
      have served := stamps.owner_used d o owns
      exact ⟨owns, rfl, served.1, by simp [pin, served.2, different]⟩
    · intro d o owns gone
      exact absurd (owns.symm.trans gone) (by simp)
    · intro d member notPinned notLimbo
      simp only [pin, List.mem_append, List.mem_singleton, not_or] at notPinned
      exact stamps.used_owner d member notPinned.1 (by simp [notPinned.2, notLimbo])

theorem own_invariant (holds : Invariant pool (c :: limbo) stray)
    (unowned : pool.owner c = none) : Invariant (own pool c) (c :: limbo) stray := by
  obtain ⟨places, handles, counts, stamps⟩ := holds
  have served := limbo_in_use places (List.mem_cons_self (a := c) (l := limbo))
  refine ⟨placed_of_perm places rfl rfl (List.Perm.refl _),
    held_of_idle handles (List.Perm.refl _) (fun _ _ => rfl) handles.idle rfl rfl rfl,
    ⟨counts.all_count, counts.free_count, counts.quarantine_count, counts.client_count⟩,
    { owner_used := ?_, used_owner := ?_, owner_lt := ?_, stamp_lt := ?_, current := ?_,
      past := ?_ }⟩
  · intro d o owns
    simp only [own, Function.update_apply] at owns
    split_ifs at owns with same
    · rw [same]
      exact served
    · exact stamps.owner_used d o owns
  · intro d used notPinned notLimbo
    have different : d ≠ c := fun same => notLimbo (same ▸ List.mem_cons_self)
    simp only [own, Function.update_of_ne different]
    exact stamps.used_owner d used notPinned notLimbo
  · intro d o owns
    simp only [own, Function.update_apply] at owns ⊢
    split_ifs at owns with same
    · cases owns
      exact Nat.lt_succ_self _
    · exact Nat.lt_succ_of_lt (stamps.owner_lt d o owns)
  · intro o started
    simp only [own, Function.update_apply] at started ⊢
    split_ifs with newest
    · exact places.all_lt c ((mem_in_use pool c).mp served.1).1
    · exact stamps.stamp_lt o (by omega)
  · intro d o owns
    simp only [own, Function.update_apply] at owns ⊢
    split_ifs at owns with same
    · cases owns
      simp [same]
    · rw [if_neg (Nat.ne_of_lt (stamps.owner_lt d o owns))]
      exact stamps.current d o owns
  · intro o started ended
    have older : o ≠ pool.nextOwner := by
      rintro rfl
      simp [own] at ended
    simp only [own, Function.update_of_ne older] at started ended ⊢
    apply stamps.past o (by omega)
    by_cases same : (pool.stampOf o).1 = c
    · rw [same, unowned]
      simp
    · rwa [Function.update_of_ne same] at ended

theorem count_client_invariant (holds : Invariant pool (c :: limbo) stray)
    (owned : pool.owner c ≠ none) : Invariant (countClient pool) limbo stray := by
  obtain ⟨places, handles, counts, stamps⟩ := holds
  refine ⟨⟨places.all_lt, places.all_nodup, ?_, ?_⟩,
    held_of_idle handles (List.Perm.refl _) (fun _ _ => rfl) handles.idle rfl rfl rfl,
    ⟨counts.all_count, counts.free_count, counts.quarantine_count, ?_⟩, ?_⟩
  · have moved : (placed pool (c :: limbo)).Perm (c :: placed pool limbo) := List.perm_middle
    exact (List.nodup_cons.mp (moved.nodup_iff.mp places.placed_nodup)).2
  · intro d member
    apply places.placed_all d
    simp only [placed, countClient, List.mem_append, List.mem_cons] at member ⊢
    tauto
  · have := counts.client_count
    simp only [countClient, List.length_cons] at this ⊢
    omega
  · refine stamps_of_step stamps (Nat.le_refl _) rfl rfl (fun _ _ => Nat.le_refl _) ?_ ?_ ?_
    · intro d o owns
      exact ⟨owns, rfl, stamps.owner_used d o owns⟩
    · intro d o owns gone
      exact absurd (owns.symm.trans gone) (by simp)
    · intro d used notPinned notLimbo
      by_cases same : d = c
      · rw [same]
        exact owned
      · exact stamps.used_owner d used notPinned (by simp [same, notLimbo])

theorem open_invariant (holds : Invariant pool limbo stray) (nonneg : 0 ≤ fd)
    (fresh : fd ∉ pool.opened) : Invariant (openFd pool fd) limbo (fd :: stray) := by
  obtain ⟨places, handles, counts, stamps⟩ := holds
  refine ⟨placed_of_perm places rfl rfl (List.Perm.refl _),
    ⟨handles.idle, List.nodup_cons.mpr ⟨fresh, handles.opened_nodup⟩, ?_,
      handles.held.cons fd, ?_⟩,
    ⟨counts.all_count, counts.free_count, counts.quarantine_count, counts.client_count⟩,
    stamps_of_step stamps (Nat.le_refl _) rfl rfl (fun _ _ => Nat.le_refl _)
      (fun d o owns => ⟨owns, rfl, stamps.owner_used d o owns⟩)
      (fun d o owns gone => absurd (owns.symm.trans gone) (by simp)) stamps.used_owner⟩
  · intro other member
    rcases List.mem_cons.mp member with same | older
    · rw [same]
      exact nonneg
    · exact handles.opened_nonneg other older
  · calc List.Perm (pool.taken ++ [fd]) (fd :: pool.taken) := List.perm_append_singleton _ _
      List.Perm _ (fd :: (pool.closed ++ pool.opened)) := handles.history.cons fd
      List.Perm _ (pool.closed ++ fd :: pool.opened) := List.perm_middle.symm

theorem close_stray_invariant (holds : Invariant pool limbo (fd :: stray)) :
    Invariant (closeFd pool fd) limbo stray := by
  obtain ⟨places, handles, counts, stamps⟩ := holds
  have live : fd ∈ pool.opened := handles.held.mem_iff.mpr (by simp)
  refine ⟨placed_of_perm places rfl rfl (List.Perm.refl _),
    ⟨handles.idle, handles.opened_nodup.erase _, ?_, ?_, ?_⟩,
    ⟨counts.all_count, counts.free_count, counts.quarantine_count, counts.client_count⟩,
    stamps_of_step stamps (Nat.le_refl _) rfl rfl (fun _ _ => Nat.le_refl _)
      (fun d o owns => ⟨owns, rfl, stamps.owner_used d o owns⟩)
      (fun d o owns gone => absurd (owns.symm.trans gone) (by simp)) stamps.used_owner⟩
  · intro other member
    exact handles.opened_nonneg other (List.mem_of_mem_erase member)
  · have rest := handles.held.erase fd
    rwa [List.cons_append, List.erase_cons_head] at rest
  · have parts := List.perm_cons_erase live
    simp only [closeFd, List.append_assoc]
    exact handles.history.trans (parts.append_left pool.closed)

theorem shut_open (opened : pool.handle c ≠ -1) :
    shut pool c =
      { closeFd pool (pool.handle c) with handle := Function.update pool.handle c (-1) } :=
  if_pos opened

theorem shut_closed (closed : ¬ pool.handle c ≠ -1) : shut pool c = pool := if_neg closed

theorem isolate_new (absent : c ∉ pool.quarantine) :
    isolate pool c =
      { pool with
        generation := Function.update pool.generation c (pool.generation c + 1)
        quarantine := pool.quarantine ++ [c]
        quarantineN := pool.quarantineN + 1
        clients := pool.clients - 1 } :=
  if_neg absent

theorem isolate_again (present : c ∈ pool.quarantine) : isolate pool c = pool := if_pos present

theorem shut_owner (pool : Pool) (c : Nat) : (shut pool c).owner = pool.owner := by
  unfold shut
  split <;> rfl

theorem retire_handle (pool : Pool) (c : Nat) : (retire pool c).handle c = -1 := by
  unfold retire isolate disown shut closeFd
  by_cases opened : pool.handle c = -1
  · rw [if_neg (not_not.mpr opened)]
    split <;> exact opened
  · rw [if_pos opened]
    split <;> exact Function.update_self c (-1) pool.handle

theorem retire_owner (pool : Pool) (c : Nat) :
    (retire pool c).owner = Function.update pool.owner c none := by
  have disowned : (disown (shut pool c) c).owner = Function.update pool.owner c none := by
    rw [disown, shut_owner]
  unfold retire isolate
  split <;> exact disowned

theorem shut_free (pool : Pool) (c : Nat) : (shut pool c).free = pool.free := by
  unfold shut
  split <;> rfl

theorem retire_free (pool : Pool) (c : Nat) : (retire pool c).free = pool.free := by
  have kept : (disown (shut pool c) c).free = pool.free := shut_free pool c
  unfold retire isolate
  split <;> exact kept

theorem retire_in_service {d : Nat} (pool : Pool) (c : Nat) (serves : InService pool d) :
    InService (retire pool c) d := by
  have shut : InService (disown (shut pool c) c) d := by
    unfold disown QuarantinePool.shut
    split <;> exact serves
  unfold retire isolate
  split <;> exact shut

theorem shut_of_used (handles : Held pool stray) (used : c ∈ inUse pool) :
    shut pool c =
      { closeFd pool (pool.handle c) with handle := Function.update pool.handle c (-1) } := by
  have nonneg := used_nonneg handles used
  exact shut_open (by omega)

theorem shut_of_idle (handles : Held pool stray) (idle : c ∈ pool.free ∨ c ∈ pool.quarantine) :
    shut pool c = pool :=
  shut_closed (by simp [handles.idle c idle])

/-- An object that loses its owner and gets the next generation. -/
theorem stamps_of_leave {after : Pool} {rest : List Nat} (stamps : Stamps pool limbo)
    (objects : after.objects = pool.objects) (nextOwner : after.nextOwner = pool.nextOwner)
    (stampOf : after.stampOf = pool.stampOf) (pinned : after.pinned = pool.pinned)
    (owner : after.owner = Function.update pool.owner c none)
    (generation : after.generation =
      Function.update pool.generation c (pool.generation c + 1))
    (stays : ∀ d, d ∈ inUse after ↔ d ∈ inUse pool ∧ d ≠ c)
    (counted : ∀ d, d ≠ c → d ∉ rest → d ∉ limbo) : Stamps after rest := by
  refine stamps_of_step stamps (Nat.le_of_eq objects.symm) nextOwner stampOf ?_ ?_ ?_ ?_
  · intro d _
    rw [generation, Function.update_apply]
    split_ifs with same
    · rw [same]
      exact Nat.le_succ _
    · exact Nat.le_refl _
  · intro d o owns
    rw [owner, Function.update_apply] at owns
    split_ifs at owns with same
    have served := stamps.owner_used d o owns
    rw [generation, Function.update_of_ne same, pinned]
    exact ⟨owns, rfl, (stays d).mpr ⟨served.1, same⟩, served.2⟩
  · intro d o owns gone
    rw [owner, Function.update_apply] at gone
    split_ifs at gone with same
    · rw [generation, same, Function.update_self]
      exact Nat.lt_succ_self _
    · exact absurd (owns.symm.trans gone) (by simp)
  · intro d used notPinned notLimbo
    obtain ⟨before, different⟩ := (stays d).mp used
    rw [owner, Function.update_of_ne different]
    rw [pinned] at notPinned
    exact stamps.used_owner d before notPinned (counted d different notLimbo)

/-- An object that was issued and then given up before it was counted. -/
theorem discard_invariant (holds : Invariant pool (c :: limbo) stray) :
    Invariant (discard pool c) limbo stray := by
  obtain ⟨places, handles, counts, stamps⟩ := holds
  obtain ⟨used, unpinned⟩ := limbo_in_use places (List.mem_cons_self (a := c) (l := limbo))
  have member := (mem_in_use pool c).mp used
  have nonneg := used_nonneg handles used
  have closes : discard pool c =
      { closeFd (putBack pool c) (pool.handle c) with
        handle := Function.update pool.handle c (-1) } := by
    have holder : (putBack pool c).handle c ≠ -1 := by
      simp only [putBack]
      omega
    rw [discard, shut, if_pos holder]
    rfl
  have later : Placed (discard pool c) limbo := by
    rw [closes]
    refine placed_of_perm places rfl rfl ?_
    simp only [placed, closeFd, putBack, List.append_assoc, List.singleton_append]
    apply List.Perm.append_left pool.free
    have moved : (pool.quarantine ++ pool.pinned ++ c :: limbo).Perm
        (c :: (pool.quarantine ++ pool.pinned ++ limbo)) := List.perm_middle
    simpa using moved.symm
  have stays : ∀ d, d ∈ inUse (discard pool c) ↔ d ∈ inUse pool ∧ d ≠ c := by
    intro d
    simp only [closes, mem_in_use, closeFd, putBack, List.mem_append, List.mem_singleton]
    tauto
  have loses := in_use_perm_cons (c := c) later places (by simp [stays]) (by
    intro d
    rw [stays]
    by_cases same : d = c
    · simp [same, used]
    · simp [same])
  have apart : c ∉ limbo := by
    have distinct := places.placed_nodup
    simp only [placed, List.nodup_append', List.nodup_cons] at distinct
    exact distinct.2.1.1
  refine ⟨later, held_of_close handles used loses (by rw [closes]) ?_ (by rw [closes]; rfl)
    (by rw [closes]; rfl) (by rw [closes]; rfl), ?_,
    stamps_of_leave stamps (by rw [closes]; rfl) (by rw [closes]; rfl) (by rw [closes]; rfl)
      (by rw [closes]; rfl) (by rw [closes]; rfl) (by rw [closes]; rfl) stays ?_⟩
  · intro d
    simp only [closes, closeFd, putBack, List.mem_append, List.mem_singleton]
    tauto
  · rw [closes]
    refine ⟨counts.all_count, ?_, counts.quarantine_count, ?_⟩
    · have := counts.free_count
      simp only [closeFd, putBack, List.length_append, List.length_singleton]
      omega
    · have := counts.client_count
      simp only [closeFd, putBack, List.length_append, List.length_cons, List.length_nil] at this ⊢
      omega
  · intro d different notLimbo
    simp [different, notLimbo]

/-- A client that gives up its object once more changes nothing. -/
theorem retire_again (holds : Invariant pool limbo stray) (waits : c ∈ pool.quarantine) :
    retire pool c = pool := by
  have unused : c ∉ inUse pool := by simp [mem_in_use, waits]
  have unowned := unused_unowned holds.stamps unused
  have same : disown pool c = pool := by
    rw [disown, ← unowned, Function.update_eq_self]
  rw [retire, shut_of_idle holds.handles (Or.inr waits), same]
  exact isolate_again waits

theorem retire_invariant (holds : Invariant pool limbo stray) (serves : InService pool c)
    (notLimbo : c ∉ limbo) : Invariant (retire pool c) limbo stray := by
  by_cases waits : c ∈ pool.quarantine
  · rw [retire_again holds waits]
    exact holds
  obtain ⟨places, handles, counts, stamps⟩ := holds
  obtain ⟨inAll, notFree, unpinned⟩ := serves
  have used : c ∈ inUse pool := (mem_in_use pool c).mpr ⟨inAll, notFree, waits⟩
  have retires : retire pool c =
      { closeFd pool (pool.handle c) with
        handle := Function.update pool.handle c (-1)
        owner := Function.update pool.owner c none
        generation := Function.update pool.generation c (pool.generation c + 1)
        quarantine := pool.quarantine ++ [c]
        quarantineN := pool.quarantineN + 1
        clients := pool.clients - 1 } := by
    rw [retire, shut_of_used handles used]
    exact isolate_new waits
  have later : Placed (retire pool c) limbo := by
    rw [retires]
    refine placed_of_perm_cons (c := c) places rfl rfl inAll ?_ ?_
    · simp [placed, notFree, waits, unpinned, notLimbo]
    · simp only [placed, closeFd, List.append_assoc]
      apply (List.Perm.append_left pool.free List.perm_middle).trans
      exact List.perm_middle
  have stays : ∀ d, d ∈ inUse (retire pool c) ↔ d ∈ inUse pool ∧ d ≠ c := by
    intro d
    simp only [retires, mem_in_use, closeFd, List.mem_append, List.mem_singleton]
    tauto
  have loses := in_use_perm_cons (c := c) later places (by simp [stays]) (by
    intro d
    rw [stays]
    by_cases same : d = c
    · simp [same, used]
    · simp [same])
  refine ⟨later, held_of_close handles used loses (by rw [retires]) ?_ (by rw [retires]; rfl)
    (by rw [retires]; rfl) (by rw [retires]; rfl), ?_,
    stamps_of_leave stamps (by rw [retires]; rfl) (by rw [retires]; rfl) (by rw [retires]; rfl)
      (by rw [retires]; rfl) (by rw [retires]) (by rw [retires]) stays
      (fun d _ outside => outside)⟩
  · intro d
    simp only [retires, closeFd, List.mem_append, List.mem_singleton]
    tauto
  · rw [retires]
    refine ⟨counts.all_count, counts.free_count, ?_, ?_⟩
    · have := counts.quarantine_count
      simp only [List.length_append, List.length_singleton]
      omega
    · have := counts.client_count
      simp only [closeFd, List.length_append, List.length_singleton]
      omega

theorem release_invariant (holds : Invariant pool limbo stray) (waits : c ∈ pool.quarantine) :
    Invariant (release pool c) limbo stray := by
  obtain ⟨places, handles, counts, stamps⟩ := holds
  obtain ⟨inAll, notFree⟩ := quarantine_not_free places waits
  have unused : c ∉ inUse pool := by simp [mem_in_use, waits]
  have nodup : pool.quarantine.Nodup := by
    have distinct := places.placed_nodup
    simp only [placed, List.nodup_append'] at distinct
    exact distinct.1.1.2.1
  have later : Placed (release pool c) limbo := by
    refine placed_of_perm places rfl rfl ?_
    simp only [placed, release, putBack, List.append_assoc, List.singleton_append]
    apply List.Perm.append_left pool.free
    exact (List.perm_cons_erase waits).symm.append_right _
  have stays : ∀ d, d ∈ inUse (release pool c) ↔ d ∈ inUse pool ∧ d ≠ c := by
    intro d
    simp only [release, putBack, mem_in_use, List.mem_append, List.mem_singleton,
      nodup.mem_erase_iff]
    by_cases same : d = c
    · simp [same]
    · simp [same]
  refine ⟨later, ?_, ⟨counts.all_count, ?_, ?_, ?_⟩, ?_⟩
  · refine held_of_idle handles (in_use_perm places later ?_) (fun _ _ => rfl) ?_ rfl rfl rfl
    · intro d
      rw [stays]
      refine ⟨fun member => member.1, fun member => ⟨member, ?_⟩⟩
      rintro rfl
      exact unused member
    · intro d member
      apply handles.idle d
      simp only [release, putBack, List.mem_append, List.mem_singleton,
        nodup.mem_erase_iff] at member
      rcases member with (isFree | same) | quarantined
      · exact Or.inl isFree
      · exact Or.inr (same ▸ waits)
      · exact Or.inr quarantined.2
  · have := counts.free_count
    simp only [release, putBack, List.length_append, List.length_singleton]
    omega
  · have := counts.quarantine_count
    have := List.length_pos_of_mem waits
    simp only [release, putBack, List.length_erase_of_mem waits]
    omega
  · have := counts.client_count
    have := List.length_pos_of_mem waits
    simp only [release, putBack, List.length_append, List.length_singleton,
      List.length_erase_of_mem waits]
    omega
  · exact stamps_of_leave (c := c) stamps rfl rfl rfl rfl rfl rfl stays
      (fun d _ outside => outside)

end Operations

section Setup

variable {pool : Pool} {stray : List Int}

/-- A pool in which every object is free, before the counters are set. -/
structure Filling (pool : Pool) (stray : List Int) : Prop where
  places : Placed pool []
  handles : Held pool stray
  stamps : Stamps pool []
  all_free : pool.free = pool.all
  no_quarantine : pool.quarantine = []
  no_pinned : pool.pinned = []
  no_client : pool.clients = 0
  quarantine_count : pool.quarantineN = 0

theorem in_use_of_all_free (allFree : pool.free = pool.all) : inUse pool = [] := by
  apply List.filter_eq_nil_iff.mpr
  intro c member
  simp [allFree, member]

theorem filling_of_empty (holds : Invariant pool [] stray) (empty : pool.all = []) :
    Filling pool stray := by
  have none_of_subset : ∀ objects : List Nat, (∀ c ∈ objects, c ∈ placed pool []) →
      objects = [] := by
    intro objects inside
    apply List.eq_nil_iff_forall_not_mem.mpr
    intro c member
    have inAll := holds.places.placed_all c (inside c member)
    simp [empty] at inAll
  have noFree := none_of_subset pool.free (by simp +contextual [placed])
  have noQuarantine := none_of_subset pool.quarantine (by simp +contextual [placed])
  have noPinned := none_of_subset pool.pinned (by simp +contextual [placed])
  have clients := holds.counts.client_count
  have quarantined := holds.counts.quarantine_count
  simp only [empty, noFree, noQuarantine, noPinned, List.length_nil] at clients quarantined
  exact ⟨holds.places, holds.handles, holds.stamps, noFree.trans empty.symm, noQuarantine,
    noPinned, by simpa using clients, by simpa using quarantined⟩

theorem grow_filling (filling : Filling pool stray) : Filling (grow pool) stray := by
  have later : Placed (grow pool) [] := by
    apply placed_of_new filling.places rfl rfl
    simp only [placed, grow, filling.no_quarantine, filling.no_pinned, List.append_nil]
    exact List.perm_append_singleton _ _
  have allFree : (grow pool).free = (grow pool).all := by simp [grow, filling.all_free]
  have unused := in_use_of_all_free filling.all_free
  have unusedLater := in_use_of_all_free allFree
  have same : ∀ d, d ∈ inUse (grow pool) ↔ d ∈ inUse pool := by simp [unused, unusedLater]
  have unowned : ∀ d, pool.owner d = none := by
    intro d
    exact unused_unowned filling.stamps (by simp [unused])
  refine ⟨later, held_of_idle filling.handles (in_use_perm filling.places later same) ?_ ?_
    rfl rfl rfl, ?_, allFree, filling.no_quarantine, filling.no_pinned, filling.no_client,
    filling.quarantine_count⟩
  · simp [unused]
  · intro d member
    simp only [grow, filling.no_quarantine, List.not_mem_nil, or_false, List.mem_append,
      List.mem_singleton] at member
    simp only [grow, Function.update_apply]
    split_ifs with newest
    · rfl
    · exact filling.handles.idle d (Or.inl (member.resolve_right newest))
  · refine stamps_of_step filling.stamps (Nat.le_succ _) rfl rfl ?_ ?_ ?_ ?_
    · intro d bound
      exact Nat.le_of_eq (Function.update_of_ne (Nat.ne_of_lt bound) _ _).symm
    · intro d o owns
      exact absurd ((unowned d).symm.trans owns) (by simp)
    · intro d o owns
      exact absurd ((unowned d).symm.trans owns) (by simp)
    · simp [unusedLater]

theorem recount_invariant (filling : Filling pool stray) : Invariant (recount pool) [] stray where
  places := placed_of_perm filling.places rfl rfl (List.Perm.refl _)
  handles := held_of_idle filling.handles (List.Perm.refl _) (fun _ _ => rfl)
    filling.handles.idle rfl rfl rfl
  counts :=
    { all_count := rfl
      free_count := by simp [recount, filling.all_free]
      quarantine_count := by simp [recount, filling.no_quarantine, filling.quarantine_count]
      client_count := by
        simp [recount, filling.all_free, filling.no_quarantine, filling.no_pinned,
          filling.no_client] }
  stamps :=
    { owner_used := filling.stamps.owner_used
      used_owner := filling.stamps.used_owner
      owner_lt := filling.stamps.owner_lt
      stamp_lt := filling.stamps.stamp_lt
      current := filling.stamps.current
      past := filling.stamps.past }

def reserveOne (pool : Pool) (fd : Int) : Pool :=
  pin (issue pool fd).2 (issue pool fd).1

/-- Fills an empty pool with `count` objects and issues one for each reserved
handle. -/
def setUp (count : Nat) (pool : Pool) : Pool :=
  pool.reserve.foldl reserveOne (recount (Nat.iterate grow count pool))

theorem reserve_one_invariant {fd : Int} (holds : Invariant pool [] (fd :: stray)) :
    Invariant (reserveOne pool fd) [] stray :=
  pin_invariant (issue_invariant holds) (issue_unowned holds)

theorem reserve_all_invariant (holds : Invariant pool [] stray) :
    Invariant (stray.foldl reserveOne pool) [] [] := by
  induction stray generalizing pool with
  | nil => exact holds
  | cons fd rest ih => exact ih (reserve_one_invariant holds)

theorem grow_all_filling (count : Nat) (filling : Filling pool stray) :
    Filling (Nat.iterate grow count pool) stray := by
  induction count generalizing pool with
  | zero => exact filling
  | succ count ih => exact ih (grow_filling filling)

theorem set_up_invariant (count : Nat) (holds : Invariant pool [] pool.reserve)
    (empty : pool.all = []) : Invariant (setUp count pool) [] [] :=
  reserve_all_invariant (recount_invariant (grow_all_filling count (filling_of_empty holds empty)))

end Setup

/-- Owners are numbered upwards, and a started owner keeps its stamp. -/
def KeepsStamps (before after : Pool) : Prop :=
  before.nextOwner ≤ after.nextOwner ∧
    ∀ o < before.nextOwner, after.stampOf o = before.stampOf o

theorem keeps_stamps_refl (pool : Pool) : KeepsStamps pool pool :=
  ⟨Nat.le_refl _, fun _ _ => rfl⟩

theorem keeps_stamps_trans {first second third : Pool} (early : KeepsStamps first second)
    (late : KeepsStamps second third) : KeepsStamps first third := by
  refine ⟨Nat.le_trans early.1 late.1, ?_⟩
  intro o started
  rw [late.2 o (Nat.lt_of_lt_of_le started early.1), early.2 o started]

theorem keeps_stamps_of_eq {before after : Pool} (nextOwner : after.nextOwner = before.nextOwner)
    (stampOf : after.stampOf = before.stampOf) : KeepsStamps before after :=
  ⟨Nat.le_of_eq nextOwner.symm, fun _ _ => by rw [stampOf]⟩

theorem own_keeps_stamps (pool : Pool) (c : Nat) : KeepsStamps pool (own pool c) := by
  refine ⟨Nat.le_succ _, ?_⟩
  intro o started
  exact Function.update_of_ne (Nat.ne_of_lt started) _ _

theorem set_up_owner (count : Nat) (pool : Pool) : (setUp count pool).owner = pool.owner := by
  have grown : ∀ start : Pool, (Nat.iterate grow count start).owner = start.owner := by
    induction count with
    | zero => exact fun _ => rfl
    | succ count ih => exact fun start => ih (grow start)
  have reserved : ∀ (fds : List Int) (start : Pool),
      (fds.foldl reserveOne start).owner = start.owner := by
    intro fds
    induction fds with
    | nil => exact fun _ => rfl
    | cons fd rest ih => exact fun start => (ih (reserveOne start fd)).trans (issue_owner start fd)
  exact (reserved _ _).trans (grown pool)

/-- What can happen to a pool between two moments at which no operation is
under way. -/
inductive PoolStep (pool : Pool) : Pool → Prop
  | setUp (count : Nat) (empty : pool.all = []) : PoolStep pool (setUp count pool)
  /-- a handle is closed as soon as it is handed out -/
  | refuse (fd : Int) (nonneg : 0 ≤ fd) (fresh : fd ∉ pool.opened) :
      PoolStep pool (closeFd (openFd pool fd) fd)
  /-- a client gets an object and fails to become active -/
  | reject (fd : Int) (nonneg : 0 ≤ fd) (fresh : fd ∉ pool.opened) (ready : pool.all ≠ []) :
      PoolStep pool (discard (own (issue (openFd pool fd) fd).2 (issue (openFd pool fd) fd).1)
        (issue (openFd pool fd) fd).1)
  | welcome (fd : Int) (nonneg : 0 ≤ fd) (fresh : fd ∉ pool.opened) (ready : pool.all ≠ []) :
      PoolStep pool
        (countClient (own (issue (openFd pool fd) fd).2 (issue (openFd pool fd) fd).1))
  | retire (c : Nat) (serves : InService pool c) : PoolStep pool (retire pool c)
  | release (c : Nat) (waits : c ∈ pool.quarantine) : PoolStep pool (release pool c)

abbrev PoolSteps : Pool → Pool → Prop := Relation.ReflTransGen PoolStep

/-- The invariant between operations: the reserved handles are stray until the
pool is set up. -/
def Settled (pool : Pool) : Prop :=
  Invariant pool [] (if pool.all = [] then pool.reserve else [])

section Runs

variable {pool after : Pool}

theorem settled_ready (settled : Settled pool) (ready : pool.all ≠ []) : Invariant pool [] [] := by
  rwa [Settled, if_neg ready] at settled

theorem settled_of_ready (holds : Invariant pool [] []) (ready : pool.all ≠ []) :
    Settled pool := by
  rwa [Settled, if_neg ready]

theorem shut_keeps (pool : Pool) (c : Nat) :
    (shut pool c).all = pool.all ∧ (shut pool c).reserve = pool.reserve := by
  unfold shut
  split <;> exact ⟨rfl, rfl⟩

theorem retire_keeps (pool : Pool) (c : Nat) :
    (retire pool c).all = pool.all ∧ (retire pool c).reserve = pool.reserve := by
  unfold retire isolate
  split <;> exact shut_keeps pool c

theorem issue_keeps (pool : Pool) (fd : Int) :
    (issue pool fd).2.pinned = pool.pinned ∧ (issue pool fd).2.reserve = pool.reserve ∧
      (pool.all ≠ [] → (issue pool fd).2.all ≠ []) := by
  unfold issue
  split
  case h_1 c rest front => exact ⟨rfl, rfl, id⟩
  case h_2 exhausted => exact ⟨rfl, rfl, fun _ => by simp [issueNew]⟩

theorem grow_all_keeps (count : Nat) (pool : Pool) :
    (Nat.iterate grow count pool).reserve = pool.reserve := by
  induction count generalizing pool with
  | zero => rfl
  | succ count ih => exact ih (grow pool)

theorem reserve_all_keeps (fds : List Int) (pool : Pool) :
    (fds.foldl reserveOne pool).reserve = pool.reserve ∧
      (fds.foldl reserveOne pool).pinned.length = pool.pinned.length + fds.length := by
  induction fds generalizing pool with
  | nil => exact ⟨rfl, rfl⟩
  | cons fd rest ih =>
      obtain ⟨pinned, reserve, -⟩ := issue_keeps pool fd
      obtain ⟨reserveLater, pinnedLater⟩ := ih (reserveOne pool fd)
      refine ⟨reserveLater.trans reserve, pinnedLater.trans ?_⟩
      simp only [reserveOne, pin, pinned, List.length_append, List.length_cons, List.length_nil]
      omega

theorem shut_clients (pool : Pool) (c : Nat) : (shut pool c).clients = pool.clients := by
  unfold shut
  split <;> rfl

theorem retire_clients_le (pool : Pool) (c : Nat) : (retire pool c).clients ≤ pool.clients := by
  have shut := shut_clients pool c
  unfold retire isolate
  split
  · exact Int.le_of_eq shut
  · have one : (disown (QuarantinePool.shut pool c) c).clients - 1 ≤ pool.clients := by
      rw [disown, shut]
      omega
    exact one

theorem discard_keeps (pool : Pool) (c : Nat) :
    (discard pool c).all = pool.all ∧ (discard pool c).clients = pool.clients ∧
      (discard pool c).reserve = pool.reserve :=
  ⟨(shut_keeps (putBack pool c) c).1, shut_clients (putBack pool c) c,
    (shut_keeps (putBack pool c) c).2⟩

theorem issue_size (pool : Pool) (fd : Int) :
    (issue pool fd).2.all.length = pool.all.length + (1 - pool.free.length) ∧
      (issue pool fd).2.free.length = pool.free.length - 1 ∧
      (issue pool fd).2.clients = pool.clients := by
  unfold issue
  split
  case h_1 c rest front =>
    rw [front, List.length_cons]
    exact ⟨by simp [reissue], rfl, rfl⟩
  case h_2 exhausted =>
    rw [exhausted]
    exact ⟨List.length_append, by rw [issueNew, exhausted]; rfl, rfl⟩

theorem grow_all_size (count : Nat) (pool : Pool) :
    (Nat.iterate grow count pool).all.length = pool.all.length + count ∧
      (Nat.iterate grow count pool).free.length = pool.free.length + count ∧
      (Nat.iterate grow count pool).clients = pool.clients := by
  induction count generalizing pool with
  | zero => exact ⟨rfl, rfl, rfl⟩
  | succ count ih =>
      obtain ⟨all, free, clients⟩ := ih (grow pool)
      have allGrown : (grow pool).all.length = pool.all.length + 1 := List.length_append
      have freeGrown : (grow pool).free.length = pool.free.length + 1 := List.length_append
      rw [Function.iterate_succ_apply]
      exact ⟨by omega, by omega, clients⟩

theorem reserve_all_size (fds : List Int) (pool : Pool) :
    (fds.foldl reserveOne pool).all.length =
        pool.all.length + (fds.length - pool.free.length) ∧
      (fds.foldl reserveOne pool).clients = pool.clients := by
  induction fds generalizing pool with
  | nil => exact ⟨by simp, rfl⟩
  | cons fd rest ih =>
      obtain ⟨all, free, clients⟩ := issue_size pool fd
      obtain ⟨allLater, clientsLater⟩ := ih (reserveOne pool fd)
      refine ⟨?_, clientsLater.trans clients⟩
      rw [List.foldl_cons, allLater, List.length_cons]
      simp only [reserveOne, pin, all, free]
      omega

/-- The objects of a new pool: those filled in, or one for each pinned handle. -/
theorem set_up_size {pool : Pool} (empty : pool.all = []) (noFree : pool.free = []) (count : Nat) :
    (setUp count pool).all.length = max count pool.reserve.length ∧
      (setUp count pool).clients = pool.clients := by
  obtain ⟨all, free, clients⟩ := grow_all_size count pool
  obtain ⟨allLater, clientsLater⟩ :=
    reserve_all_size pool.reserve (recount (Nat.iterate grow count pool))
  rw [empty, List.length_nil, Nat.zero_add] at all
  rw [noFree, List.length_nil, Nat.zero_add] at free
  refine ⟨?_, clientsLater.trans clients⟩
  rw [setUp, allLater]
  simp only [recount, all, free]
  omega

/-- The owners from `first` on have got other objects. -/
def IssuedOthers (pool : Pool) (first c : Nat) : Prop :=
  ∀ o, first ≤ o → o < pool.nextOwner → (pool.stampOf o).1 ≠ c

theorem issue_other {c : Nat} (notFree : c ∉ pool.free) (old : c < pool.objects) (fd : Int) :
    (issue pool fd).1 ≠ c := by
  unfold issue
  split
  case h_1 d rest front =>
    rintro rfl
    exact notFree (front ▸ List.mem_cons_self)
  case h_2 exhausted => exact Nat.ne_of_gt old

theorem issued_others_of_eq {first c : Nat} (others : IssuedOthers pool first c)
    (nextOwner : after.nextOwner = pool.nextOwner) (stampOf : after.stampOf = pool.stampOf) :
    IssuedOthers after first c := by
  intro o later started
  rw [nextOwner] at started
  rw [stampOf]
  exact others o later started

theorem issued_others_own {first c d : Nat} (others : IssuedOthers pool first c)
    (different : d ≠ c) : IssuedOthers (own pool d) first c := by
  intro o later started
  rcases Nat.lt_succ_iff_lt_or_eq.mp started with older | rfl
  · have kept : (own pool d).stampOf o = pool.stampOf o :=
      Function.update_of_ne (Nat.ne_of_lt older) _ _
    rw [kept]
    exact others o later older
  · have new : (own pool d).stampOf pool.nextOwner = (d, pool.generation d) :=
      Function.update_self _ _ _
    rw [new]
    exact different

theorem issue_stamps (pool : Pool) (fd : Int) :
    (issue pool fd).2.nextOwner = pool.nextOwner ∧ (issue pool fd).2.stampOf = pool.stampOf ∧
      (issue pool fd).2.quarantine = pool.quarantine := by
  unfold issue
  split <;> exact ⟨rfl, rfl, rfl⟩

theorem shut_stamps (pool : Pool) (c : Nat) :
    (shut pool c).nextOwner = pool.nextOwner ∧ (shut pool c).stampOf = pool.stampOf ∧
      (shut pool c).quarantine = pool.quarantine := by
  unfold shut
  split <;> exact ⟨rfl, rfl, rfl⟩

theorem retire_stamps (pool : Pool) (c : Nat) :
    (retire pool c).nextOwner = pool.nextOwner ∧ (retire pool c).stampOf = pool.stampOf := by
  obtain ⟨nextOwner, stampOf, -⟩ := shut_stamps pool c
  unfold retire isolate
  split <;> exact ⟨nextOwner, stampOf⟩

/-- A client that gives up its object sends it into quarantine. -/
theorem mem_retire_quarantine (pool : Pool) (c d : Nat) :
    d ∈ (retire pool c).quarantine ↔ d = c ∨ d ∈ pool.quarantine := by
  have list : (disown (shut pool c) c).quarantine = pool.quarantine := (shut_stamps pool c).2.2
  unfold retire isolate
  rw [list]
  split
  case isTrue waits =>
    rw [list]
    constructor
    · exact Or.inr
    · rintro (rfl | member)
      · exact waits
      · exact member
  case isFalse => simp [or_comm]

/-- Only a pool without reserved handles is still empty when it is set up. -/
theorem set_up_ready (count : Nat) (pool : Pool) (holds : Invariant (setUp count pool) [] [])
    (empty : (setUp count pool).all = []) : (setUp count pool).reserve = [] := by
  obtain ⟨reserve, pinned⟩ := reserve_all_keeps pool.reserve (recount (Nat.iterate grow count pool))
  have noPinned := (filling_of_empty holds empty).no_pinned
  rw [setUp] at noPinned ⊢
  rw [noPinned, List.length_nil] at pinned
  have none : pool.reserve = [] := List.eq_nil_of_length_eq_zero (by omega)
  exact reserve.trans ((grow_all_keeps count pool).trans none)

theorem settled_step (settled : Settled pool) (next : PoolStep pool after) : Settled after := by
  cases next with
  | setUp count empty =>
      rw [Settled, if_pos empty] at settled
      have holds := set_up_invariant count settled empty
      by_cases still : (setUp count pool).all = []
      · rw [Settled, if_pos still, set_up_ready count pool holds still]
        exact holds
      · exact settled_of_ready holds still
  | refuse fd nonneg fresh => exact close_stray_invariant (open_invariant settled nonneg fresh)
  | reject fd nonneg fresh ready =>
      have opened := open_invariant (settled_ready settled ready) nonneg fresh
      have owned := own_invariant (issue_invariant opened) (issue_unowned opened)
      apply settled_of_ready (discard_invariant owned)
      rw [discard, (shut_keeps _ _).1]
      exact (issue_keeps (openFd pool fd) fd).2.2 ready
  | welcome fd nonneg fresh ready =>
      have opened := open_invariant (settled_ready settled ready) nonneg fresh
      have owned := own_invariant (issue_invariant opened) (issue_unowned opened)
      apply settled_of_ready (count_client_invariant owned (by simp [own]))
      exact (issue_keeps (openFd pool fd) fd).2.2 ready
  | retire c serves =>
      have ready := List.ne_nil_of_mem serves.1
      refine settled_of_ready ?_ (by rwa [(retire_keeps pool c).1])
      exact retire_invariant (settled_ready settled ready) serves (by simp)
  | release c waits => exact release_invariant settled waits

/-- A pool that has been set up has the reserved handles at its pinned objects. -/
def Anchored (pool : Pool) : Prop :=
  pool.all ≠ [] → pool.pinned.map pool.handle = pool.reserve

def KeepsPinned (before after : Pool) : Prop :=
  after.pinned = before.pinned ∧ after.reserve = before.reserve ∧
    ∀ d ∈ before.pinned, after.handle d = before.handle d

theorem keeps_pinned_trans {first second third : Pool} (early : KeepsPinned first second)
    (late : KeepsPinned second third) : KeepsPinned first third := by
  obtain ⟨pinned, reserve, handles⟩ := early
  apply And.intro (late.1.trans pinned)
  apply And.intro (late.2.1.trans reserve)
  intro d member
  exact (late.2.2 d (pinned ▸ member)).trans (handles d member)

theorem anchored_of_kept (anchored : Anchored pool) (ready : pool.all ≠ [])
    (kept : KeepsPinned pool after) : Anchored after := by
  intro _
  rw [kept.1, kept.2.1, ← anchored ready]
  exact List.map_congr_left kept.2.2

theorem pinned_apart {limbo : List Nat} (places : Placed pool limbo) {d : Nat}
    (member : d ∈ pool.pinned) : d ∉ pool.free ∧ d ∈ pool.all ∧ d < pool.objects := by
  have distinct := places.placed_nodup
  have listed := places.placed_all d (by simp [placed, member])
  simp only [placed, List.nodup_append', List.disjoint_right] at distinct
  have notPlaced := distinct.1.2.2 member
  exact ⟨fun free => notPlaced (List.mem_append_left _ free), listed, places.all_lt d listed⟩

theorem issue_keeps_pinned {limbo : List Nat} (places : Placed pool limbo) (fd : Int) :
    KeepsPinned pool (issue pool fd).2 := by
  obtain ⟨pinned, reserve, -⟩ := issue_keeps pool fd
  apply And.intro pinned
  apply And.intro reserve
  intro d member
  obtain ⟨notFree, -, old⟩ := pinned_apart places member
  have other := issue_other notFree old fd
  unfold issue at other ⊢
  split at other
  case h_1 c rest front => exact Function.update_of_ne (Ne.symm other) _ _
  case h_2 exhausted => exact Function.update_of_ne (Ne.symm other) _ _

theorem shut_keeps_pinned {c : Nat} (other : c ∉ pool.pinned) :
    KeepsPinned pool (shut pool c) := by
  unfold shut
  split
  · apply And.intro rfl
    apply And.intro rfl
    intro d member
    apply Function.update_of_ne
    rintro rfl
    exact other member
  · exact ⟨rfl, rfl, fun _ _ => rfl⟩

theorem reserve_all_anchored {fds : List Int} (holds : Invariant pool [] fds) :
    (fds.foldl reserveOne pool).pinned.map (fds.foldl reserveOne pool).handle =
      pool.pinned.map pool.handle ++ fds := by
  induction fds generalizing pool with
  | nil => exact (List.append_nil _).symm
  | cons fd rest ih =>
      have kept := issue_keeps_pinned holds.places fd
      have got : (issue pool fd).2.handle (issue pool fd).1 = fd := by
        unfold issue
        split
        · exact Function.update_self _ _ _
        · exact Function.update_self _ _ _
      have one : (reserveOne pool fd).pinned.map (reserveOne pool fd).handle =
          pool.pinned.map pool.handle ++ [fd] := by
        have old : (issue pool fd).2.pinned.map (issue pool fd).2.handle =
            pool.pinned.map pool.handle := by
          rw [kept.1]
          exact List.map_congr_left kept.2.2
        simp only [reserveOne, pin, List.map_append, List.map_singleton, got, old]
      rw [List.foldl_cons, ih (reserve_one_invariant holds), one, List.append_assoc]
      rfl

theorem anchored_step (settled : Settled pool) (anchored : Anchored pool)
    (next : PoolStep pool after) : Anchored after := by
  cases next with
  | setUp count empty =>
      intro _
      rw [Settled, if_pos empty] at settled
      have filling := grow_all_filling count (filling_of_empty settled empty)
      have filled := recount_invariant filling
      have reserve := (reserve_all_keeps pool.reserve (recount (Nat.iterate grow count pool))).1
      have none : (recount (Nat.iterate grow count pool)).pinned = [] := filling.no_pinned
      have all := reserve_all_anchored filled
      rw [none] at all
      exact all.trans (reserve.trans (grow_all_keeps count pool)).symm
  | refuse fd nonneg fresh => exact anchored
  | reject fd nonneg fresh ready =>
      have opened := open_invariant (settled_ready settled ready) nonneg fresh
      have issued := issue_keeps_pinned opened.places fd
      have limbo := limbo_in_use (issue_invariant opened).places (List.mem_singleton_self _)
      apply anchored_of_kept anchored ready
      have given : KeepsPinned pool
          (putBack (own (issue (openFd pool fd) fd).2 (issue (openFd pool fd) fd).1)
            (issue (openFd pool fd) fd).1) := issued
      exact keeps_pinned_trans given (shut_keeps_pinned limbo.2)
  | welcome fd nonneg fresh ready =>
      have opened := open_invariant (settled_ready settled ready) nonneg fresh
      exact anchored_of_kept anchored ready (issue_keeps_pinned opened.places fd)
  | retire c serves =>
      apply anchored_of_kept anchored (List.ne_nil_of_mem serves.1)
      have shut := shut_keeps_pinned serves.2.2
      unfold retire isolate
      split
      · exact shut
      · exact shut
  | release c waits => exact anchored

theorem steps_anchored (settled : Settled pool) (anchored : Anchored pool)
    (steps : PoolSteps pool after) : Settled after ∧ Anchored after := by
  induction steps with
  | refl => exact ⟨settled, anchored⟩
  | tail _ next ih => exact ⟨settled_step ih.1 next, anchored_step ih.1 ih.2 next⟩

/-- The handles that are open when no object but the pinned ones is in use. -/
theorem opened_of_pinned (settled : Settled pool) (anchored : Anchored pool)
    (clients : ∀ c ∈ inUse pool, c ∈ pool.pinned) : pool.opened.Perm pool.reserve := by
  by_cases ready : pool.all = []
  · have held := settled.handles.held
    have none : inUse pool = [] := by rw [inUse, ready]; rfl
    rw [if_pos ready, none, List.map_nil, List.append_nil] at held
    exact held
  · have holds := settled_ready settled ready
    have pinned : (inUse pool).Perm pool.pinned := by
      have once : pool.pinned.Nodup := by
        have distinct := holds.places.placed_nodup
        simp only [placed, List.nodup_append'] at distinct
        exact distinct.1.2.1
      apply (List.perm_ext_iff_of_nodup (in_use_nodup holds.places) once).mpr
      intro c
      constructor
      · exact clients c
      · intro member
        obtain ⟨notFree, listed, -⟩ := pinned_apart holds.places member
        have distinct := holds.places.placed_nodup
        simp only [placed, List.nodup_append', List.disjoint_right] at distinct
        have apart := distinct.1.2.2 member
        exact (mem_in_use pool c).mpr
          ⟨listed, notFree, fun waits => apart (List.mem_append_right _ waits)⟩
    have held := holds.handles.held
    rw [List.nil_append] at held
    exact (held.trans (pinned.map pool.handle)).trans (List.Perm.of_eq (anchored ready))

def initial (reserve : List Int) : Pool where
  handle := fun _ => 0
  generation := fun _ => 0
  objects := 0
  all := []
  free := []
  quarantine := []
  pinned := []
  allN := 0
  freeN := 0
  quarantineN := 0
  clients := 0
  opened := reserve
  taken := reserve
  closed := []
  owner := fun _ => none
  nextOwner := 0
  stampOf := fun _ => (0, 0)
  reserve := reserve

theorem initial_settled {reserve : List Int} (nodup : reserve.Nodup)
    (nonneg : ∀ fd ∈ reserve, 0 ≤ fd) : Settled (initial reserve) where
  places :=
    { all_lt := by simp [initial]
      all_nodup := List.nodup_nil
      placed_nodup := List.nodup_nil
      placed_all := by simp [placed, initial] }
  handles :=
    { idle := by simp [initial]
      opened_nodup := nodup
      opened_nonneg := nonneg
      held := by simp [initial, inUse]
      history := List.Perm.refl _ }
  counts :=
    { all_count := rfl
      free_count := rfl
      quarantine_count := rfl
      client_count := rfl }
  stamps :=
    { owner_used := by simp [initial]
      used_owner := by simp [initial, inUse]
      owner_lt := by simp [initial]
      stamp_lt := by simp [initial]
      current := by simp [initial]
      past := by simp [initial] }

theorem settled_steps (settled : Settled pool) (run : PoolSteps pool after) : Settled after := by
  induction run with
  | refl => exact settled
  | tail _ last ih => exact settled_step ih last

end Runs

end QuarantinePool
