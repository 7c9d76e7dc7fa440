import Mathlib.Data.List.Forall2
import NgxServer.TimerClock

/-!
# One round of the monitor

The monitor calls `GetOverTimeTimer` until it returns `NULL`. Without
`m_ifTimeOutKick` every call enters what it has taken out again, but behind the
current time, so the loop ends after one call for each entry that was over
time when it began.
-/

namespace NgxServer.TimerDrain

open NgxServer.Comm NgxServer.State NgxServer.TimerQueue NgxServer.Frames NgxServer.TimerClock
open NgxServer.Socket (readConf)
open Multimap (due later)

set_option autoImplicit false

/-- The `while` loop of the monitor: the records that the calls return, and
what the last call leaves. -/
inductive PopLoop (cfg : Config) (curTime : Int) : Server → List Nat → Server → Prop
  | stops (server after : Server)
      (ended : getOverTimeTimer cfg server curTime = (none, after)) :
      PopLoop cfg curTime server [] after
  | takes (server rest after : Server) (record : Nat) (records : List Nat)
      (found : getOverTimeTimer cfg server curTime = (some record, rest))
      (more : PopLoop cfg curTime rest records after) :
      PopLoop cfg curTime server (record :: records) after

def Renewed (key : Int) (before after : Server) (entry fresh : Int × Nat) : Prop :=
  fresh.1 = key ∧ before.theap.block fresh.2 = none ∧
    after.theap.block fresh.2 = before.theap.block entry.2

section Taken

variable {server : Server} {cfg : Config} (curTime : Int) (rest : List (Int × Nat))
  (record : MsgHeader)

theorem over_time_taken_kick (kick : cfg.ifTimeOutKick = 1) :
    (overTimeTaken cfg server curTime rest record).timerQueuemap = rest ∧
      (overTimeTaken cfg server curTime rest record).theap = server.theap := by
  unfold overTimeTaken
  dsimp only
  rw [if_neg (not_not.mpr kick), (refresh_clock _).1, (refresh_clock _).2.1]
  exact ⟨rfl, rfl⟩

theorem over_time_taken_renew (renew : cfg.ifTimeOutKick ≠ 1) :
    (overTimeTaken cfg server curTime rest record).timerQueuemap =
        Multimap.enter (curTime + cfg.iWaitTime) server.theap.next rest ∧
      (overTimeTaken cfg server curTime rest record).theap =
        BlockHeap.alloc server.theap record := by
  unfold overTimeTaken
  dsimp only
  rw [if_pos renew, (refresh_clock _).1, (refresh_clock _).2.1]
  exact ⟨multimap_insert_eq _ _ _, rfl⟩

/-- What is due afterwards is what was due behind the first entry. -/
theorem over_time_taken_due (wait : 0 < cfg.iWaitTime) :
    due curTime (overTimeTaken cfg server curTime rest record).timerQueuemap =
      due curTime rest := by
  by_cases kick : cfg.ifTimeOutKick = 1
  · rw [(over_time_taken_kick curTime rest record kick).1]
  · rw [(over_time_taken_renew curTime rest record kick).1]
    exact (Multimap.enter_beyond (by omega) _ _).1

theorem over_time_taken_block (wellFormed : BlockHeap.WellFormed server.theap) {address : Nat}
    {content : MsgHeader} (live : server.theap.block address = some content) :
    (overTimeTaken cfg server curTime rest record).theap.block address = some content := by
  by_cases kick : cfg.ifTimeOutKick = 1
  · rw [(over_time_taken_kick curTime rest record kick).2, live]
  · have older := (wellFormed.bounded address content live).2
    rw [(over_time_taken_renew curTime rest record kick).2, BlockHeap.alloc_block,
      if_neg (by omega), live]

theorem over_time_taken_hand :
    (overTimeTaken cfg server curTime rest record).lsIdleList = server.lsIdleList := by
  unfold overTimeTaken
  dsimp only
  rw [(refresh_clock _).2.2.2]
  split <;> rfl

end Taken

theorem pop_loop_ends {cfg : Config} (wait : 0 < cfg.iWaitTime) (curTime : Int)
    {server : Server} {hand : List Nat} (filed : Filed hand server) :
    ∃ records after, PopLoop cfg curTime server records after := by
  generalize waiting : due curTime server.timerQueuemap = entries
  induction entries generalizing server hand with
  | nil =>
      rcases over_time_cases cfg filed curTime with
        ⟨-, ended⟩ | ⟨entry, rest, record, first, passed, -, -⟩
      · exact ⟨[], server, PopLoop.stops server server ended⟩
      · rw [first, Multimap.due_cons passed] at waiting
        cases waiting
  | cons entry others ih =>
      rcases over_time_cases cfg filed curTime with
        ⟨none, -⟩ | ⟨front, rest, record, first, passed, -, taken⟩
      · rw [none] at waiting
        cases waiting
      · have left : due curTime (overTimeTaken cfg server curTime rest record).timerQueuemap =
            others := by
          rw [first, Multimap.due_cons passed] at waiting
          rw [over_time_taken_due curTime rest record wait]
          exact (List.cons.inj waiting).2
        have next := (filed_over_time cfg filed curTime record first).1
        obtain ⟨records, after, more⟩ := ih next left
        exact ⟨front.2 :: records, after, PopLoop.takes server _ after front.2 records taken more⟩

structure Drained (cfg : Config) (curTime : Int) (before : Server) (records : List Nat)
    (after : Server) : Prop where
  taken : records = (due curTime before.timerQueuemap).map Prod.snd
  kick : cfg.ifTimeOutKick = 1 → after.timerQueuemap = later curTime before.timerQueuemap
  renew : cfg.ifTimeOutKick ≠ 1 → ∃ fresh,
    List.Forall₂ (Renewed (curTime + cfg.iWaitTime) before after)
      (due curTime before.timerQueuemap) fresh ∧
    after.timerQueuemap.Perm (later curTime before.timerQueuemap ++ fresh)
  blocks : ∀ address content, before.theap.block address = some content →
    after.theap.block address = some content
  hand : after.lsIdleList = before.lsIdleList
  none_due : due curTime after.timerQueuemap = []

theorem drained_nothing (cfg : Config) {curTime : Int} {server : Server}
    (none : due curTime server.timerQueuemap = []) : Drained cfg curTime server [] server := by
  have all : later curTime server.timerQueuemap = server.timerQueuemap := by
    have parts := Multimap.due_append_later curTime server.timerQueuemap
    rwa [none, List.nil_append] at parts
  refine ⟨by rw [none]; rfl, fun _ => all.symm, fun _ => ⟨[], ?_, ?_⟩, fun _ _ live => live, rfl,
    none⟩
  · rw [none]
    exact List.Forall₂.nil
  · rw [all, List.append_nil]

/-- A call that takes out an entry, before the rest of the loop. -/
theorem drained_cons {cfg : Config} (wait : 0 < cfg.iWaitTime) {curTime : Int}
    {server after : Server} {hand records : List Nat} (filed : Filed hand server)
    {entry : Int × Nat} {rest : List (Int × Nat)} {record : MsgHeader}
    (first : server.timerQueuemap = entry :: rest) (passed : entry.1 ≤ curTime)
    (live : server.theap.block entry.2 = some record)
    (more : Drained cfg curTime (overTimeTaken cfg server curTime rest record) records after) :
    Drained cfg curTime server (entry.2 :: records) after := by
  have blocks : ∀ address content, server.theap.block address = some content →
      after.theap.block address = some content := fun address content present =>
    more.blocks address content
      (over_time_taken_block curTime rest record filed.wellFormed present)
  have left : due curTime (overTimeTaken cfg server curTime rest record).timerQueuemap =
      due curTime rest := over_time_taken_due curTime rest record wait
  refine ⟨?_, fun kick => ?_, fun renew => ?_, blocks, ?_, more.none_due⟩
  · rw [first, Multimap.due_cons passed, List.map_cons, more.taken, left]
  · rw [more.kick kick, (over_time_taken_kick curTime rest record kick).1, first,
      Multimap.later_cons passed]
  · obtain ⟨fresh, renewed, perm⟩ := more.renew renew
    have renewal : (overTimeTaken cfg server curTime rest record).timerQueuemap =
          Multimap.enter (curTime + cfg.iWaitTime) server.theap.next rest ∧
        (overTimeTaken cfg server curTime rest record).theap =
          BlockHeap.alloc server.theap record := over_time_taken_renew curTime rest record renew
    obtain ⟨entries, theap⟩ := renewal
    have beyond : curTime < curTime + cfg.iWaitTime := by omega
    refine ⟨(curTime + cfg.iWaitTime, server.theap.next) :: fresh, ?_, ?_⟩
    · rw [first, Multimap.due_cons passed]
      refine List.Forall₂.cons ⟨rfl, BlockHeap.next_not_live filed.wellFormed, ?_⟩ ?_
      · rw [live]
        apply more.blocks _ _
        rw [theap, BlockHeap.alloc_block_self]
      · have recorded : ∀ other ∈ due curTime rest, (server.theap.block other.2).isSome := by
          intro other member
          have inside : other ∈ server.timerQueuemap := by
            rw [first]
            exact List.mem_cons_of_mem entry (List.takeWhile_sublist _ |>.subset member)
          exact (filed.live other.2).mpr (List.mem_append_left _ (List.mem_map_of_mem inside))
        rw [left] at renewed
        refine List.Forall₂.imp ?_ ((List.forall₂_and_left _ _).mpr ⟨recorded, renewed⟩)
        rintro other new ⟨present, key, unused, copied⟩
        obtain ⟨content, isLive⟩ := Option.isSome_iff_exists.mp present
        refine ⟨key, ?_, ?_⟩
        · by_contra used
          obtain ⟨old, stays⟩ := Option.ne_none_iff_exists'.mp used
          rw [over_time_taken_block curTime rest record filed.wellFormed stays] at unused
          cases unused
        · rw [copied, over_time_taken_block curTime rest record filed.wellFormed isLive, isLive]
    · rw [first, Multimap.later_cons passed]
      rw [entries, (Multimap.enter_beyond beyond _ _).2] at perm
      apply perm.trans
      apply ((Multimap.enter_perm _ _ _).append_right fresh).trans
      exact List.perm_middle.symm
  · rw [more.hand, over_time_taken_hand]

theorem pop_loop_drained {cfg : Config} (wait : 0 < cfg.iWaitTime) {curTime : Int}
    {server after : Server} {records : List Nat} (loop : PopLoop cfg curTime server records after)
    {hand : List Nat} (filed : Filed hand server) :
    Drained cfg curTime server records after ∧ Filed (hand ++ records) after ∧
      (HeadCurrent server → HeadCurrent after) := by
  induction loop generalizing hand with
  | stops server after ended =>
      rcases over_time_cases cfg filed curTime with
        ⟨none, same⟩ | ⟨entry, rest, record, -, -, -, taken⟩
      · rw [same] at ended
        cases ended
        rw [List.append_nil]
        exact ⟨drained_nothing cfg none, filed, id⟩
      · rw [taken] at ended
        cases ended
  | takes server next after front records found more ih =>
      rcases over_time_cases cfg filed curTime with
        ⟨-, same⟩ | ⟨entry, rest, record, first, passed, live, taken⟩
      · rw [same] at found
        cases found
      · rw [taken] at found
        cases found
        obtain ⟨filedNext, headNext⟩ := filed_over_time cfg filed curTime record first
        obtain ⟨drained, filedAfter, head⟩ := ih filedNext
        rw [List.append_assoc] at filedAfter
        exact ⟨drained_cons wait filed first passed live drained, filedAfter,
          fun _ => head headNext⟩

theorem over_time_taken_apart (cfg : Config) (server : Server) (curTime : Int)
    (rest : List (Int × Nat)) (record : MsgHeader) (list : List Nat) :
    overTimeTaken cfg { server with lsIdleList := list } curTime rest record =
      { overTimeTaken cfg server curTime rest record with lsIdleList := list } := by
  unfold overTimeTaken refresh insertTimer
  dsimp only
  split_ifs <;> rfl

/-- The bound on the rounds of `drainOverTime` does not cut the loop short. -/
theorem drain_of_pop_loop {cfg : Config} {curTime : Int} {server after : Server}
    {records : List Nat} (loop : PopLoop cfg curTime server records after)
    {hand : List Nat} (filed : Filed hand server) {rounds : Nat}
    (enough : records.length ≤ rounds) (list : List Nat) :
    drainOverTime cfg curTime rounds { server with lsIdleList := list } =
      { after with lsIdleList := list ++ records } := by
  induction loop generalizing hand rounds list with
  | stops server after ended =>
      have here : Filed hand { server with lsIdleList := list } := filed_of_same filed rfl rfl rfl
      rw [List.append_nil]
      rcases over_time_cases cfg filed curTime with
        ⟨none, same⟩ | ⟨entry, rest, record, -, -, -, taken⟩
      · rw [same] at ended
        cases ended
        cases rounds with
        | zero => rfl
        | succ rounds =>
            rcases over_time_cases cfg here curTime with
              ⟨-, stops⟩ | ⟨entry, rest, record, first, passed, -, -⟩
            · rw [drainOverTime, stops]
            · have other : server.timerQueuemap = entry :: rest := first
              rw [other, Multimap.due_cons passed] at none
              cases none
      · rw [taken] at ended
        cases ended
  | takes server next after front records found more ih =>
      have here : Filed hand { server with lsIdleList := list } := filed_of_same filed rfl rfl rfl
      rcases over_time_cases cfg filed curTime with
        ⟨-, same⟩ | ⟨entry, rest, record, first, passed, live, taken⟩
      · rw [same] at found
        cases found
      · rw [taken] at found
        cases found
        obtain ⟨left, rfl⟩ : ∃ left, rounds = left + 1 :=
          ⟨rounds - 1, by rw [List.length_cons] at enough; omega⟩
        rw [List.length_cons] at enough
        rcases over_time_cases cfg here curTime with
          ⟨none, -⟩ | ⟨other, others, content, front, -, present, goes⟩
        · have empty : due curTime server.timerQueuemap = [] := none
          rw [first, Multimap.due_cons passed] at empty
          cases empty
        · have same : entry :: rest = other :: others := first.symm.trans front
          obtain ⟨rfl, rfl⟩ := List.cons.inj same
          have equal : some record = some content := live.symm.trans present
          cases equal
          have filedNext := (filed_over_time cfg filed curTime record first).1
          rw [drainOverTime, goes]
          dsimp only
          rw [over_time_taken_apart, ih filedNext (by omega) (list ++ [entry.2]),
            List.append_assoc]
          rfl

theorem pop_loop_monitor {cfg : Config} (wait : 0 < cfg.iWaitTime) {curTime : Int}
    {server after : Server} {records : List Nat} (loop : PopLoop cfg curTime server records after)
    {hand : List Nat} (filed : Filed hand server) :
    drainOverTime cfg curTime server.timerQueuemap.length server =
      { after with lsIdleList := server.lsIdleList ++ records } := by
  have drained := (pop_loop_drained wait loop filed).1
  refine drain_of_pop_loop loop filed ?_ server.lsIdleList
  rw [drained.taken, List.length_map]
  exact (List.takeWhile_sublist _).length_le

/-- What one round of the monitor does to the map of `before`. -/
structure Expired (cfg : Config) (curTime : Int) (before : Server) (records : List Nat)
    (after : Server) : Prop where
  /-- the records over time, in the order of their keys, each once -/
  exact : records =
    (before.timerQueuemap.filter fun entry => decide (entry.1 ≤ curTime)).map Prod.snd
  in_order : (before.timerQueuemap.filter fun entry => decide (entry.1 ≤ curTime)).Pairwise
    fun entry other => entry.1 ≤ other.1
  once : records.Nodup
  none_left : ∀ entry ∈ after.timerQueuemap, curTime < entry.1
  /-- without `m_ifTimeOutKick` every entry over time has been replaced -/
  renewed : cfg.ifTimeOutKick ≠ 1 →
    after.timerQueuemap.length = before.timerQueuemap.length ∧
      ∃ fresh, List.Forall₂ (Renewed (curTime + cfg.iWaitTime) before after)
        (before.timerQueuemap.filter fun entry => decide (entry.1 ≤ curTime)) fresh ∧
      after.timerQueuemap.Perm
        ((before.timerQueuemap.filter fun entry => decide (curTime < entry.1)) ++ fresh)
  /-- with it they are gone -/
  kicked : cfg.ifTimeOutKick = 1 → after.timerQueuemap =
    before.timerQueuemap.filter fun entry => decide (curTime < entry.1)

theorem expired_of_drained {cfg : Config} {curTime : Int} {before after : Server}
    {hand records : List Nat} (ordered : Multimap.Ordered before.timerQueuemap)
    (drained : Drained cfg curTime before records after) (filed : Filed (hand ++ records) after) :
    Expired cfg curTime before records after := by
  obtain ⟨dueFilter, laterFilter⟩ := Multimap.due_later_filter ordered curTime
  have total := congrArg List.length (Multimap.due_append_later curTime before.timerQueuemap)
  rw [List.length_append] at total
  refine ⟨?_, Multimap.filter_ordered ordered _, ?_, ?_, fun renew => ?_,
    fun kick => ?_⟩
  · rw [drained.taken, dueFilter]
  · have once := filed.once
    rw [held] at once
    exact (List.nodup_append.mp (List.nodup_append.mp once).2.1).2.1
  · intro entry member
    have parts := Multimap.due_append_later curTime after.timerQueuemap
    rw [drained.none_due, List.nil_append] at parts
    rw [← parts] at member
    exact Multimap.later_beyond filed.ordered member
  · obtain ⟨fresh, pairs, perm⟩ := drained.renew renew
    have same := pairs.length_eq
    rw [dueFilter] at pairs
    refine ⟨?_, fresh, pairs, by rw [← laterFilter]; exact perm⟩
    rw [perm.length_eq, List.length_append, ← same]
    omega
  · rw [drained.kick kick, laterFilter]

/-- Repeating `GetOverTimeTimer` until it returns `NULL` terminates, on every
timer map, and takes out exactly the entries over time. It is what
`ServerTimerQueueMonitorThread` does under the timer mutex. -/
theorem monitor_pop_loop (cfg : Config) (wait : 5 ≤ cfg.iWaitTime) (server : Server)
    (hand : List Nat) (filed : Filed hand server) (curTime : Int) :
    ∃ records after, PopLoop cfg curTime server records after ∧
      Expired cfg curTime server records after ∧ Filed (hand ++ records) after ∧
      drainOverTime cfg curTime server.timerQueuemap.length server =
        { after with lsIdleList := server.lsIdleList ++ records } := by
  have positive : 0 < cfg.iWaitTime := by omega
  obtain ⟨records, after, loop⟩ := pop_loop_ends positive curTime filed
  obtain ⟨drained, filedAfter, -⟩ := pop_loop_drained positive loop filed
  exact ⟨records, after, loop, expired_of_drained filed.ordered drained filedAfter, filedAfter,
    pop_loop_monitor positive loop filed⟩

/-- `Sock_MaxWaitTime = 2` is read as 5, and two of three clients are over time. -/
theorem monitor_pop_loop_sample :
    ∃ server, (server.timerQueuemap, server.lsIdleList) =
        (([(9, 3), (15, 1), (15, 2)], []) : List (Int × Nat) × List Nat) ∧
      ∃ records after, Expired (readConf (fun _ _ => 2) 20) 10 server records after ∧
        (after.timerQueuemap, records) =
          (([(15, 1), (15, 2), (15, 4)], [3]) : List (Int × Nat) × List Nat) := by
  let cfg := readConf (fun _ _ => 2) 20
  let ops : List TimerOp := [.add cfg 1 10, .add cfg 2 10, .add cfg 3 4]
  have seen : (TransitionSystem.exec timerStep (fun _ _ => true) (Server.construct [3]) ops).map
      (fun server => ((server.timerQueuemap, server.lsIdleList),
        (drainOverTime cfg 10 server.timerQueuemap.length server).timerQueuemap,
        (drainOverTime cfg 10 server.timerQueuemap.length server).lsIdleList)) =
        some (([(9, 3), (15, 1), (15, 2)], []), [(15, 1), (15, 2), (15, 4)], [3]) := by
    decide
  obtain ⟨server, executed, same⟩ := Option.map_eq_some_iff.mp seen
  have reached : TimerReachable server :=
    ⟨Server.construct [3], ⟨rfl, rfl, rfl, rfl⟩,
      TransitionSystem.steps_of_exec (fun _ _ _ => trivial) executed⟩
  obtain ⟨records, after, -, expired, -, drain⟩ := monitor_pop_loop cfg (by decide) server
    server.lsIdleList (timer_reachable_clocked reached).filed 10
  simp only [Prod.mk.injEq] at same
  obtain ⟨⟨entries, empty⟩, later, taken⟩ := same
  have map : after.timerQueuemap = [(15, 1), (15, 2), (15, 4)] := by rw [← later, drain]
  have list : records = [3] := by rw [← taken, drain, empty, List.nil_append]
  exact ⟨server, by rw [entries, empty], records, after, expired, by rw [map, list]⟩

end NgxServer.TimerDrain
