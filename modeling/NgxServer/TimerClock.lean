import NgxServer.Frames
import NgxServer.Lib.Multimap
import NgxServer.Lib.Sweep

/-!
# What the timer queue keeps

`m_timerQueuemap` is a multimap of live records. `m_cur_size_` and
`m_timer_value_` are copies of its size and of its smallest key that every
operation brings up to date by hand. `Filed` is what holds at any moment under
the timer mutex, `Clocked` what holds when the mutex is free.
-/

namespace NgxServer.TimerClock

open NgxServer.Comm NgxServer.State NgxServer.TimerQueue NgxServer.Logic NgxServer.Frames
open NgxServer.System (sampleConfig)

set_option autoImplicit false

/-- The records that the process still has: those in the map, and those that
the monitor has taken out. -/
def held (hand : List Nat) (server : Server) : List Nat :=
  server.timerQueuemap.map Prod.snd ++ hand

/-- The map is ordered and counted. Its records and those in `hand` are all the
live ones, and no record is in two places. -/
structure Filed (hand : List Nat) (server : Server) : Prop where
  ordered : Multimap.Ordered server.timerQueuemap
  size : server.curSize = server.timerQueuemap.length
  wellFormed : BlockHeap.WellFormed server.theap
  once : (held hand server).Nodup
  live : ∀ address, (server.theap.block address).isSome ↔ address ∈ held hand server

def HeadCurrent (server : Server) : Prop :=
  ∀ entry rest, server.timerQueuemap = entry :: rest → server.timerValue = entry.1

structure Clocked (server : Server) : Prop where
  filed : Filed server.lsIdleList server
  head : HeadCurrent server

theorem multimap_insert_eq (key : Int) (record : Nat) (entries : List (Int × Nat)) :
    multimapInsert key record entries = Multimap.enter key record entries := by
  induction entries with
  | nil => rfl
  | cons entry rest ih => rw [multimapInsert, Multimap.enter_cons, ih]

theorem earliest_of_cons {server : Server} {entry : Int × Nat} {rest : List (Int × Nat)}
    (entries : server.timerQueuemap = entry :: rest) : getEarliestTime server = entry.1 := by
  rw [getEarliestTime, entries]

section Filed

variable {server : Server} {hand : List Nat}

theorem filed_of_same {after : Server} (filed : Filed hand server)
    (entries : after.timerQueuemap = server.timerQueuemap) (size : after.curSize = server.curSize)
    (theap : after.theap = server.theap) : Filed hand after := by
  have same : held hand after = held hand server := by rw [held, held, entries]
  refine ⟨?_, ?_, ?_, ?_, ?_⟩
  · rw [entries]
    exact filed.ordered
  · rw [size, entries]
    exact filed.size
  · rw [theap]
    exact filed.wellFormed
  · rw [same]
    exact filed.once
  · rw [theap, same]
    exact filed.live

theorem filed_of_perm {after : Server} {later : List Nat} (filed : Filed hand server)
    (ordered : Multimap.Ordered after.timerQueuemap)
    (size : after.curSize = after.timerQueuemap.length) (theap : after.theap = server.theap)
    (perm : (held later after).Perm (held hand server)) : Filed later after := by
  refine ⟨ordered, size, theap ▸ filed.wellFormed, perm.nodup_iff.mpr filed.once, ?_⟩
  intro address
  rw [theap, perm.mem_iff]
  exact filed.live address

theorem next_not_held (filed : Filed hand server) : server.theap.next ∉ held hand server := by
  intro member
  have live := (filed.live server.theap.next).mpr member
  rw [BlockHeap.next_not_live filed.wellFormed] at live
  cases live

theorem held_not_null (filed : Filed hand server) {address : Nat}
    (member : address ∈ held hand server) : address ≠ BlockHeap.null := by
  rintro rfl
  have live := (filed.live _).mpr member
  rw [BlockHeap.null_not_live filed.wellFormed] at live
  cases live

theorem filed_of_free {after : Server} {later : List Nat} {address : Nat}
    (filed : Filed hand server) (ordered : Multimap.Ordered after.timerQueuemap)
    (size : after.curSize = after.timerQueuemap.length)
    (theap : after.theap = BlockHeap.free server.theap address)
    (perm : (held hand server).Perm (address :: held later after)) : Filed later after := by
  have distinct := perm.nodup_iff.mp filed.once
  obtain ⟨gone, once⟩ := List.nodup_cons.mp distinct
  have member : address ∈ held hand server := perm.mem_iff.mpr List.mem_cons_self
  have notNull := held_not_null filed member
  refine ⟨ordered, size, ?_, once, ?_⟩
  · rw [theap]
    exact BlockHeap.free_well_formed filed.wellFormed fun _ => (filed.live address).mpr member
  · intro other
    rw [theap, BlockHeap.free_block]
    by_cases same : other = address
    · simp [same, notNull, gone]
    · rw [if_neg (fun both => same both.2), filed.live other, perm.mem_iff, List.mem_cons]
      simp [same]

def refresh (server : Server) : Server :=
  if server.curSize > 0 then { server with timerValue := getEarliestTime server } else server

theorem refresh_clock (server : Server) :
    (refresh server).timerQueuemap = server.timerQueuemap ∧
      (refresh server).theap = server.theap ∧ (refresh server).curSize = server.curSize ∧
      (refresh server).lsIdleList = server.lsIdleList := by
  unfold refresh
  split <;> exact ⟨rfl, rfl, rfl, rfl⟩

theorem filed_refresh (filed : Filed hand server) : Filed hand (refresh server) :=
  filed_of_same filed (refresh_clock server).1 (refresh_clock server).2.2.1
    (refresh_clock server).2.1

theorem head_refresh (filed : Filed hand server) : HeadCurrent (refresh server) := by
  intro entry rest entries
  unfold refresh at entries ⊢
  split at entries
  case isTrue some =>
    rw [if_pos some]
    exact earliest_of_cons entries
  case isFalse empty =>
    have size := filed.size
    rw [entries, List.length_cons] at size
    omega

theorem insert_timer_held (server : Server) (hand : List Nat) (key : Int) (record : MsgHeader) :
    (held hand (insertTimer server key record)).Perm (server.theap.next :: held hand server) := by
  have entered := Multimap.enter_perm key server.theap.next server.timerQueuemap
  rw [held, insertTimer, multimap_insert_eq]
  exact (entered.map Prod.snd).append_right hand

theorem filed_insert (filed : Filed hand server) (key : Int) (record : MsgHeader) :
    Filed hand (insertTimer server key record) := by
  have perm := insert_timer_held server hand key record
  refine ⟨?_, ?_, BlockHeap.alloc_well_formed filed.wellFormed record, ?_, ?_⟩
  · rw [insertTimer, multimap_insert_eq]
    exact Multimap.enter_ordered filed.ordered _ _
  · rw [insertTimer, multimap_insert_eq, Multimap.enter_length, filed.size]
  · exact perm.nodup_iff.mpr (List.nodup_cons.mpr ⟨next_not_held filed, filed.once⟩)
  · intro address
    rw [perm.mem_iff, List.mem_cons, ← filed.live address, insertTimer, BlockHeap.alloc_block]
    split_ifs with new
    · simp [new]
    · simp [new]

theorem dec_size_pos {size : Nat} (some : 0 < size) : decSize size = size - 1 :=
  if_neg (by omega)

theorem filed_pop (filed : Filed hand server) {entry : Int × Nat} {rest : List (Int × Nat)}
    (entries : server.timerQueuemap = entry :: rest) :
    Filed (hand ++ [entry.2])
      { server with timerQueuemap := rest, curSize := decSize server.curSize } := by
  have ordered := filed.ordered
  have size := filed.size
  rw [entries] at ordered size
  refine filed_of_perm filed (List.pairwise_cons.mp ordered).2 ?_ rfl ?_
  · rw [dec_size_pos (by rw [size, List.length_cons]; omega), size, List.length_cons]
    rfl
  · rw [held, held, entries, ← List.append_assoc]
    exact List.perm_append_singleton entry.2 _

def removeEntry (server : Server) (entry : Int × Nat) : Server :=
  { server with
    theap := BlockHeap.free server.theap entry.2
    timerQueuemap := server.timerQueuemap.erase entry
    curSize := decSize server.curSize }

theorem filed_remove (filed : Filed hand server) {entry : Int × Nat}
    (member : entry ∈ server.timerQueuemap) : Filed hand (removeEntry server entry) := by
  have size := filed.size
  have some := List.length_pos_of_mem member
  refine filed_of_free filed (List.Pairwise.sublist List.erase_sublist filed.ordered) ?_ rfl ?_
  · rw [removeEntry, dec_size_pos (by omega), size, List.length_erase_of_mem member]
  · exact ((List.perm_cons_erase member).map Prod.snd).append_right hand

theorem filed_check {tmpmsg : Nat} (filed : Filed (tmpmsg :: hand) server) :
    Filed hand (freeRecord server tmpmsg) :=
  filed_of_free filed filed.ordered filed.size rfl List.perm_middle

theorem lbl_mtqm_eq_sweep (c : ConnId) (rounds : Nat) (server : Server) :
    lblMTQM c rounds server =
      Sweep.sweep Server.timerQueuemap (fun state => recordOf state c) removeEntry rounds
        server := by
  induction rounds generalizing server with
  | zero => rfl
  | succ rounds ih =>
      unfold lblMTQM Sweep.sweep
      cases server.timerQueuemap.find? (recordOf server c) with
      | none => rfl
      | some entry => exact ih (removeEntry server entry)

/-- Freeing a record does not change what the other entries point to. -/
theorem removal_rules (c : ConnId) (hand : List Nat) :
    Sweep.Rules Server.timerQueuemap (fun state => recordOf state c) removeEntry
      (Filed hand) where
  shortens := fun _ _ _ _ _ => rfl
  keeps := fun _ _ filed member _ => filed_remove filed member
  stable := by
    intro state entry filed member _ other present
    have perm : (held hand state).Perm (entry.2 :: held hand (removeEntry state entry)) :=
      ((List.perm_cons_erase member).map Prod.snd).append_right hand
    have gone := (List.nodup_cons.mp (perm.nodup_iff.mp filed.once)).1
    have different : other.2 ≠ entry.2 := by
      intro same
      exact gone (List.mem_append_left hand (same ▸ List.mem_map_of_mem present))
    have kept : (removeEntry state entry).theap.block other.2 = state.theap.block other.2 :=
      (BlockHeap.free_block _ _ _).trans (if_neg fun both => different both.2)
    rw [recordOf, recordOf, kept]

theorem lbl_mtqm_filed (filed : Filed hand server) (c : ConnId) {rounds : Nat}
    (enough : server.timerQueuemap.length ≤ rounds) :
    Filed hand (lblMTQM c rounds server) ∧
      (lblMTQM c rounds server).timerQueuemap =
        server.timerQueuemap.filter (fun entry => !recordOf server c entry) ∧
      (lblMTQM c rounds server).timerQueuemap.find?
        (recordOf (lblMTQM c rounds server) c) = none := by
  rw [lbl_mtqm_eq_sweep]
  exact Sweep.sweep_items (removal_rules c hand) rounds server filed enough

theorem delete_eq_refresh (server : Server) (c : ConnId) :
    deleteFromTimerQueue server c = refresh (lblMTQM c server.timerQueuemap.length server) := rfl

theorem delete_entries (filed : Filed hand server) (c : ConnId) :
    (deleteFromTimerQueue server c).timerQueuemap =
      server.timerQueuemap.filter (fun entry => !recordOf server c entry) := by
  rw [delete_eq_refresh, (refresh_clock _).1]
  exact (lbl_mtqm_filed filed c le_rfl).2.1

theorem filed_delete (filed : Filed hand server) (c : ConnId) :
    Filed hand (deleteFromTimerQueue server c) ∧
      HeadCurrent (deleteFromTimerQueue server c) := by
  have deleted := (lbl_mtqm_filed filed c le_rfl).1
  rw [delete_eq_refresh]
  exact ⟨filed_refresh deleted, head_refresh deleted⟩

theorem delete_block (server : Server) (c : ConnId) {address : Nat} {record : MsgHeader}
    (live : (deleteFromTimerQueue server c).theap.block address = some record) :
    server.theap.block address = some record := by
  have kept : ∀ rounds before, (lblMTQM c rounds before).theap.block address = some record →
      before.theap.block address = some record := by
    intro rounds
    induction rounds with
    | zero => exact fun before found => found
    | succ rounds ih =>
        intro before found
        unfold lblMTQM at found
        split at found
        · exact found
        · exact BlockHeap.block_of_free (ih _ found)
  rw [delete_eq_refresh, (refresh_clock _).2.1] at live
  exact kept _ server live

theorem delete_accounted (accounted : BlockHeap.Accounted server.theap) (c : ConnId) :
    BlockHeap.Accounted (deleteFromTimerQueue server c).theap := by
  have loop : ∀ rounds before, BlockHeap.Accounted before.theap →
      BlockHeap.Accounted (lblMTQM c rounds before).theap := by
    intro rounds
    induction rounds with
    | zero => exact fun before holds => holds
    | succ rounds ih =>
        intro before holds
        unfold lblMTQM
        split
        · exact holds
        · exact ih _ (BlockHeap.free_accounted holds _)
  rw [delete_eq_refresh, (refresh_clock _).2.1]
  exact loop _ server accounted

theorem clocked_delete (clocked : Clocked server) (c : ConnId) :
    Clocked (deleteFromTimerQueue server c) := by
  obtain ⟨filed, head⟩ := filed_delete clocked.filed c
  have hand : (deleteFromTimerQueue server c).lsIdleList = server.lsIdleList := by
    have same := congrArg Server.lsIdleList (forget_timers_delete server c)
    exact same
  exact ⟨hand ▸ filed, head⟩

/-- What `GetOverTimeTimer` leaves when it takes out the first entry: without
`m_ifTimeOutKick` a copy of its record is entered again. -/
def overTimeTaken (cfg : Config) (server : Server) (curTime : Int) (rest : List (Int × Nat))
    (record : MsgHeader) : Server :=
  let removed := { server with timerQueuemap := rest, curSize := decSize server.curSize }
  refresh
    (if cfg.ifTimeOutKick ≠ 1 then insertTimer removed (curTime + cfg.iWaitTime) record
    else removed)

theorem over_time_cases (cfg : Config) (filed : Filed hand server) (curTime : Int) :
    Multimap.due curTime server.timerQueuemap = [] ∧
        getOverTimeTimer cfg server curTime = (none, server) ∨
      ∃ entry rest record, server.timerQueuemap = entry :: rest ∧ entry.1 ≤ curTime ∧
        server.theap.block entry.2 = some record ∧
        getOverTimeTimer cfg server curTime =
          (some entry.2, overTimeTaken cfg server curTime rest record) := by
  cases entries : server.timerQueuemap with
  | nil =>
      refine Or.inl ⟨rfl, ?_⟩
      rw [getOverTimeTimer, if_pos (Or.inr entries)]
  | cons entry rest =>
      have size := filed.size
      rw [entries, List.length_cons] at size
      have filled : ¬ (server.curSize = 0 ∨ server.timerQueuemap = []) := by
        rw [entries, size]
        simp
      have earliest := earliest_of_cons entries
      by_cases passed : entry.1 ≤ curTime
      · have member : entry.2 ∈ held hand server := by
          rw [held, entries]
          simp
        obtain ⟨record, live⟩ := Option.isSome_iff_exists.mp ((filed.live entry.2).mpr member)
        have removed : removeFirstTimer server = (some entry.2,
            { server with timerQueuemap := rest, curSize := decSize server.curSize }) := by
          rw [removeFirstTimer, if_neg (by omega), entries]
        refine Or.inr ⟨entry, rest, record, rfl, passed, live, ?_⟩
        rw [getOverTimeTimer, if_neg filled, if_pos (earliest ▸ passed), removed]
        simp only [live]
        rfl
      · refine Or.inl ⟨(Multimap.due_beyond (not_le.mp passed) rest).1, ?_⟩
        rw [getOverTimeTimer, if_neg filled, if_neg (earliest ▸ passed)]

theorem filed_over_time (cfg : Config) (filed : Filed hand server) (curTime : Int)
    {entry : Int × Nat} {rest : List (Int × Nat)} (record : MsgHeader)
    (entries : server.timerQueuemap = entry :: rest) :
    Filed (hand ++ [entry.2]) (overTimeTaken cfg server curTime rest record) ∧
      HeadCurrent (overTimeTaken cfg server curTime rest record) := by
  have popped := filed_pop filed entries
  have renewed : Filed (hand ++ [entry.2])
      (if cfg.ifTimeOutKick ≠ 1 then
        insertTimer { server with timerQueuemap := rest, curSize := decSize server.curSize }
          (curTime + cfg.iWaitTime) record
      else { server with timerQueuemap := rest, curSize := decSize server.curSize }) := by
    split
    · exact filed_insert popped _ _
    · exact popped
  exact ⟨filed_refresh renewed, head_refresh renewed⟩

theorem clocked_over_time (cfg : Config) (clocked : Clocked server) (curTime : Int) :
    Clocked { (getOverTimeTimer cfg server curTime).2 with
      lsIdleList := server.lsIdleList ++ (getOverTimeTimer cfg server curTime).1.toList } := by
  rcases over_time_cases cfg clocked.filed curTime with
    ⟨-, none⟩ | ⟨entry, rest, record, entries, -, -, taken⟩
  · rw [none]
    simpa using clocked
  · rw [taken]
    obtain ⟨filed, head⟩ := filed_over_time cfg clocked.filed curTime record entries
    exact ⟨filed_of_same filed rfl rfl rfl, head⟩

theorem clocked_add (cfg : Config) (clocked : Clocked server) (c : ConnId) (now : Int) :
    Clocked (addToTimerQueue cfg server c now) := by
  have inserted := filed_insert clocked.filed (now + cfg.iWaitTime)
    { pConn := c, iCurrsequence := (server.conns c).iCurrsequence, occ := server.ghost.occ c }
  refine ⟨filed_of_same inserted rfl rfl rfl, ?_⟩
  intro entry rest entries
  exact earliest_of_cons entries

theorem filed_clear (entries : List (Int × Nat)) (server : Server)
    (filed : Filed hand { server with timerQueuemap := entries }) :
    Filed hand
      { entries.foldl (fun rest entry =>
          { rest with
            theap := BlockHeap.free rest.theap entry.2
            curSize := decSize rest.curSize }) server with
        timerQueuemap := [] } := by
  induction entries generalizing server with
  | nil => exact filed
  | cons entry rest ih =>
      have size : server.curSize = rest.length + 1 := filed.size
      refine ih _ (filed_of_free filed (List.pairwise_cons.mp filed.ordered).2 ?_ rfl ?_)
      · dsimp only
        rw [dec_size_pos (by omega), size]
        rfl
      · exact List.Perm.refl _

theorem clocked_clear (clocked : Clocked server) : Clocked (clearAllFromTimerQueue server) := by
  have cleared := filed_clear server.timerQueuemap server clocked.filed
  have hand : (clearAllFromTimerQueue server).lsIdleList = server.lsIdleList := by
    have kept : ∀ (entries : List (Int × Nat)) (before : Server),
        (entries.foldl (fun rest entry =>
          { rest with
            theap := BlockHeap.free rest.theap entry.2
            curSize := decSize rest.curSize }) before).lsIdleList = before.lsIdleList := by
      intro entries
      induction entries with
      | nil => exact fun _ => rfl
      | cons entry rest ih => exact fun before => ih _
    exact kept server.timerQueuemap server
  refine ⟨hand ▸ cleared, ?_⟩
  intro entry rest entries
  cases entries

theorem clocked_check {tmpmsg : Nat} {rest : List Nat} (clocked : Clocked server)
    (front : server.lsIdleList = tmpmsg :: rest) :
    Clocked (freeRecord { server with lsIdleList := rest } tmpmsg) := by
  have filed := clocked.filed
  rw [front] at filed
  exact ⟨filed_check (filed_of_same filed rfl rfl rfl), clocked.head⟩

end Filed

inductive TimerOp
  | add (cfg : Config) (c : ConnId) (now : Int)
  | overTime (cfg : Config) (curTime : Int)
  | delete (c : ConnId)
  | clearAll
  /-- the monitor frees the first record it has taken out -/
  | check

def timerStep (server : Server) : TimerOp → Option Server
  | .add cfg c now => some (addToTimerQueue cfg server c now)
  | .overTime cfg curTime =>
      let (result, rest) := getOverTimeTimer cfg server curTime
      some { rest with lsIdleList := server.lsIdleList ++ result.toList }
  | .delete c => some (deleteFromTimerQueue server c)
  | .clearAll => some (clearAllFromTimerQueue server)
  | .check =>
      match server.lsIdleList with
      | [] => none
      | tmpmsg :: rest => some (freeRecord { server with lsIdleList := rest } tmpmsg)

def Untimed (server : Server) : Prop :=
  server.timerQueuemap = [] ∧ server.curSize = 0 ∧ server.lsIdleList = [] ∧
    server.theap = BlockHeap.empty

def TimerReachable : Server → Prop :=
  TransitionSystem.Reachable Untimed timerStep fun _ _ => True

theorem clocked_untimed {server : Server} (untimed : Untimed server) : Clocked server := by
  obtain ⟨entries, size, hand, theap⟩ := untimed
  refine ⟨⟨?_, ?_, ?_, ?_, ?_⟩, ?_⟩
  · rw [entries]
    exact List.Pairwise.nil
  · rw [entries, size]
    rfl
  · rw [theap]
    exact BlockHeap.empty_well_formed
  · rw [held, entries, hand]
    exact List.nodup_nil
  · intro address
    rw [held, entries, hand, theap]
    simp [BlockHeap.empty]
  · intro entry rest present
    rw [entries] at present
    cases present

theorem clocked_timer_step {server after : Server} {op : TimerOp} (clocked : Clocked server)
    (taken : timerStep server op = some after) : Clocked after := by
  cases op with
  | add cfg c now =>
      cases taken
      exact clocked_add cfg clocked c now
  | overTime cfg curTime =>
      cases taken
      exact clocked_over_time cfg clocked curTime
  | delete c =>
      cases taken
      exact clocked_delete clocked c
  | clearAll =>
      cases taken
      exact clocked_clear clocked
  | check =>
      simp only [timerStep] at taken
      split at taken
      case h_1 => cases taken
      case h_2 tmpmsg rest front =>
        cases taken
        exact clocked_check clocked front

theorem timer_reachable_clocked {server : Server} (reached : TimerReachable server) :
    Clocked server :=
  TransitionSystem.invariant_of_step Clocked (fun _ => clocked_untimed)
    (fun _ _ _ clocked _ taken => clocked_timer_step clocked taken) reached

/-- The states in which an operation calls `GetEarliestTime`. What the call
returns is then assigned to `m_timer_value_`, which leaves the map as it is. -/
def earliestCalls (server : Server) : TimerOp → List Server
  | .add cfg c now => [addToTimerQueue cfg server c now]
  | .overTime cfg curTime =>
      (if server.curSize = 0 ∨ server.timerQueuemap = [] then [] else [server]) ++
        match getOverTimeTimer cfg server curTime with
        | (none, _) => []
        | (some _, after) => if after.curSize > 0 then [after] else []
  | .delete c =>
      if (deleteFromTimerQueue server c).curSize > 0 then [deleteFromTimerQueue server c] else []
  | .clearAll => []
  | .check => []

theorem counted_not_empty {server : Server}
    (size : server.curSize = server.timerQueuemap.length) (some : server.curSize > 0) :
    server.timerQueuemap ≠ [] := by
  intro empty
  rw [empty, List.length_nil] at size
  omega

theorem earliest_calls_not_empty {server asked : Server} {op : TimerOp} (clocked : Clocked server)
    (called : asked ∈ earliestCalls server op) : asked.timerQueuemap ≠ [] := by
  cases op with
  | add cfg c now =>
      rw [List.mem_singleton.mp called, addToTimerQueue, insertTimer, multimap_insert_eq]
      exact Multimap.enter_ne_nil _ _ _
  | overTime cfg curTime =>
      rcases List.mem_append.mp called with early | late
      · split at early
        case isTrue => cases early
        case isFalse filled =>
          rw [List.mem_singleton.mp early]
          exact fun empty => filled (Or.inr empty)
      · have filed := (clocked_over_time cfg clocked curTime).filed
        split at late
        case h_1 => cases late
        case h_2 record after taken =>
          split at late
          case isTrue some =>
            rw [List.mem_singleton.mp late]
            rw [taken] at filed
            exact counted_not_empty filed.size some
          case isFalse => cases late
  | delete c =>
      simp only [earliestCalls] at called
      split at called
      case isTrue some =>
        rw [List.mem_singleton.mp called]
        exact counted_not_empty (clocked_delete clocked c).filed.size some
      case isFalse => cases called
  | clearAll => cases called
  | check => cases called

/-- What the shadow members and `DeleteFromTimerQueue` guarantee. -/
structure TimerQueueOk (server : Server) : Prop where
  size_exact : server.curSize = server.timerQueuemap.length
  /-- `m_timer_value_` is the smallest key -/
  head_least : server.timerQueuemap ≠ [] →
    IsLeast { key | ∃ entry ∈ server.timerQueuemap, entry.1 = key } server.timerValue
  /-- the test of the monitor lets the pass run if an entry is over time -/
  pass_runs : ∀ curTime, (∃ entry ∈ server.timerQueuemap, entry.1 < curTime) →
    server.curSize > 0 ∧ server.timerValue < curTime
  earliest_filled : ∀ op, ∀ asked ∈ earliestCalls server op, asked.timerQueuemap ≠ []
  /-- every entry has a live record -/
  recorded : ∀ entry ∈ server.timerQueuemap, ∃ record,
    server.theap.block entry.2 = some record ∧
      ∀ c, recordOf server c entry = true ↔ record.pConn = c
  /-- the loop of `DeleteFromTimerQueue` ends by itself: it finds nothing more -/
  delete_ends : ∀ c, ∀ rounds ≥ server.timerQueuemap.length,
    lblMTQM c rounds server = lblMTQM c server.timerQueuemap.length server ∧
      (lblMTQM c rounds server).timerQueuemap.find?
        (recordOf (lblMTQM c rounds server) c) = none
  delete_exact : ∀ c, (deleteFromTimerQueue server c).timerQueuemap =
    server.timerQueuemap.filter fun entry => !recordOf server c entry

theorem clocked_head_least {server : Server} (clocked : Clocked server)
    (filled : server.timerQueuemap ≠ []) :
    IsLeast { key | ∃ entry ∈ server.timerQueuemap, entry.1 = key } server.timerValue := by
  obtain ⟨entry, rest, entries⟩ := List.exists_cons_of_ne_nil filled
  have ordered := clocked.filed.ordered
  have head := clocked.head entry rest entries
  rw [entries] at ordered ⊢
  refine ⟨⟨entry, List.mem_cons_self, head.symm⟩, ?_⟩
  rintro key ⟨other, member, rfl⟩
  rw [head]
  rcases List.mem_cons.mp member with rfl | later
  · exact le_rfl
  · exact (List.pairwise_cons.mp ordered).1 other later

theorem clocked_timer_queue_ok {server : Server} (clocked : Clocked server) :
    TimerQueueOk server where
  size_exact := clocked.filed.size
  head_least := clocked_head_least clocked
  pass_runs := by
    rintro curTime ⟨entry, member, passed⟩
    have filled := List.ne_nil_of_mem member
    have least := (clocked_head_least clocked filled).2 ⟨entry, member, rfl⟩
    refine ⟨?_, lt_of_le_of_lt least passed⟩
    rw [clocked.filed.size]
    exact List.length_pos_of_mem member
  earliest_filled := fun _ _ called => earliest_calls_not_empty clocked called
  recorded := by
    intro entry member
    have isHeld : entry.2 ∈ held server.lsIdleList server :=
      List.mem_append_left _ (List.mem_map_of_mem member)
    obtain ⟨record, live⟩ :=
      Option.isSome_iff_exists.mp ((clocked.filed.live entry.2).mpr isHeld)
    refine ⟨record, live, fun c => ?_⟩
    rw [recordOf, live]
    exact beq_iff_eq
  delete_ends := by
    intro c rounds enough
    have rules := removal_rules c server.lsIdleList
    refine ⟨?_, (lbl_mtqm_filed clocked.filed c enough).2.2⟩
    rw [lbl_mtqm_eq_sweep, lbl_mtqm_eq_sweep,
      Sweep.sweep_eq_foldl rules rounds server clocked.filed enough,
      Sweep.sweep_eq_foldl rules _ server clocked.filed le_rfl]
  delete_exact := delete_entries clocked.filed

/-- In every sequence of the operations, in either kick mode, the shadow members
agree with the map. -/
theorem timer_queue_represented (server : Server) (reached : TimerReachable server) :
    TimerQueueOk server :=
  clocked_timer_queue_ok (timer_reachable_clocked reached)

/-- Two clients enter, one is over time and enters again, the other one leaves. -/
theorem timer_queue_represented_sample :
    ∃ server, (server.timerQueuemap, server.curSize, server.timerValue) =
      (([(70, 3)], 1, 70) : List (Int × Nat) × Nat × Int) ∧ TimerQueueOk server := by
  let ops : List TimerOp := [.add sampleConfig 1 10, .add sampleConfig 2 20,
    .overTime sampleConfig 50, .delete 2, .check]
  have seen : (TransitionSystem.exec timerStep (fun _ _ => true) (Server.construct [3]) ops).map
      (fun server => (server.timerQueuemap, server.curSize, server.timerValue)) =
        some ([(70, 3)], 1, 70) := by
    decide
  obtain ⟨server, executed, same⟩ := Option.map_eq_some_iff.mp seen
  have reached : TimerReachable server :=
    ⟨Server.construct [3], ⟨rfl, rfl, rfl, rfl⟩,
      TransitionSystem.steps_of_exec (fun _ _ _ => trivial) executed⟩
  exact ⟨server, same, timer_queue_represented server reached⟩

end NgxServer.TimerClock
