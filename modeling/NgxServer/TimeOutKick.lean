import NgxServer.TimerCoverage

/-!
# The time a client is given

With `m_ifTimeOutKick` a client is closed when `m_iWaitTime` seconds are over,
whatever it sends. Its only record waits in the timer queue under the second at
which that is the case, until the monitor takes it out; between the taking out
and the check all other threads go on.
-/

namespace NgxServer.TimeOutKick

open NgxServer.Comm NgxServer.State NgxServer.TimerQueue NgxServer.Socket NgxServer.Accept
open NgxServer.Logic NgxServer.System
open NgxServer.Frames NgxServer.PoolRefinement NgxServer.Occupancy NgxServer.Session
open NgxServer.TimerClock NgxServer.TimerDrain NgxServer.Clients NgxServer.TimerCoverage
open Multimap (due later)

set_option autoImplicit false

/-- When each occupancy began. An occupancy that has not begun yet has the time of
the last action. -/
def letIn (server : Server) (act : Act) (born : OccId → Int) : OccId → Int :=
  match actTime act with
  | none => born
  | some now => Function.update born server.ghost.nextOcc now

def lookedAt : Act → Int → Int
  | .monitorPop curTime, _ => curTime
  | _, looked => looked

/-- The process at a time. -/
structure Visits where
  server : Server
  clock : Int
  born : OccId → Int
  looked : Int

def visitStep (cfg : Config) (visits : Visits) (act : Act) : Option Visits :=
  (timedStep cfg (visits.server, visits.clock) act).map fun next =>
    { server := next.1
      clock := next.2
      born := letIn visits.server act visits.born
      looked := lookedAt act visits.looked }

def Starts (visits : Visits) : Prop :=
  Fresh visits.server ∧ visits.looked ≤ visits.clock

def VisitsReachable (cfg : Config) : Visits → Prop :=
  TransitionSystem.Reachable Starts (visitStep cfg) fun visits act =>
    Disciplined visits.server act

structure Booked (cfg : Config) (server : Server) (born : OccId → Int) (looked : Int) : Prop where
  keys : ∀ entry ∈ server.timerQueuemap, ∀ c o, tagOf server entry.2 = some o →
    server.ghost.occ c = some o → entry.1 = born o + cfg.iWaitTime
  /-- what the monitor has taken out was over time -/
  taken : ∀ address ∈ server.lsIdleList, ∀ c o, tagOf server address = some o →
    server.ghost.occ c = some o → born o + cfg.iWaitTime ≤ looked
  /-- it left nothing that was over time -/
  waiting : ∀ entry ∈ server.timerQueuemap, looked ≤ entry.1

section Steps

variable {cfg : Config} {server after : Server} {born : OccId → Int} {looked : Int}

theorem booked_fewer (booked : Booked cfg server born looked)
    (entries : ∀ entry ∈ after.timerQueuemap, entry ∈ server.timerQueuemap)
    (hand : ∀ address ∈ after.lsIdleList, address ∈ server.lsIdleList)
    (tags : ∀ address ∈ held after.lsIdleList after, tagOf after address = tagOf server address)
    (clients : ∀ c o, after.ghost.occ c = some o → server.ghost.occ c = some o) :
    Booked cfg after born looked := by
  constructor
  case keys =>
    intro entry member c o tagged serves
    have inside : entry.2 ∈ held after.lsIdleList after :=
      List.mem_append_left _ (List.mem_map_of_mem member)
    rw [tags entry.2 inside] at tagged
    exact booked.keys entry (entries entry member) c o tagged (clients c o serves)
  case taken =>
    intro address member c o tagged serves
    rw [tags address (List.mem_append_right _ member)] at tagged
    exact booked.taken address (hand address member) c o tagged (clients c o serves)
  case waiting =>
    intro entry member
    exact booked.waiting entry (entries entry member)

theorem booked_of_clock (booked : Booked cfg server born looked)
    (same : clock after = clock server) (owner : after.ghost.occ = server.ghost.occ) :
    Booked cfg after born looked := by
  have entries : after.timerQueuemap = server.timerQueuemap := congrArg Clock.timerQueuemap same
  have hand : after.lsIdleList = server.lsIdleList := congrArg Clock.lsIdleList same
  have theap : after.theap = server.theap := congrArg Clock.theap same
  apply booked_fewer booked
  case entries =>
    rw [entries]
    exact fun _ member => member
  case hand =>
    rw [hand]
    exact fun _ member => member
  case tags =>
    intro address _
    rw [tagOf, tagOf, theap]
  case clients =>
    rw [owner]
    exact fun _ _ serves => serves

theorem left_clients {gone : ConnId} (closed : Left server after gone) (c : ConnId) (o : OccId)
    (serves : after.ghost.occ c = some o) : c ≠ gone ∧ server.ghost.occ c = some o := by
  rw [closed.owner] at serves
  by_cases same : c = gone
  · rw [same, Function.update_self] at serves
    cases serves
  · rw [Function.update_of_ne same] at serves
    exact ⟨same, serves⟩

theorem left_entries {gone : ConnId} (closed : Left server after gone) :
    ∀ entry ∈ after.timerQueuemap, entry ∈ server.timerQueuemap := by
  intro entry member
  rw [closed.entries] at member
  exact (List.mem_filter.mp member).1

theorem booked_left {gone : ConnId} (filed : Filed server.lsIdleList server)
    (booked : Booked cfg server born looked) (closed : Left server after gone) :
    Booked cfg after born looked := by
  have filedAfter : Filed after.lsIdleList after := by
    rw [closed.hand]
    exact closed.filed _ filed
  apply booked_fewer booked (left_entries closed)
  case hand =>
    rw [closed.hand]
    exact fun _ member => member
  case tags => exact fun _ member => tag_kept filedAfter closed.blocks member
  case clients => exact fun c o serves => (left_clients closed c o serves).2

theorem booked_entered {now : Int} {new : ConnId} (attributed : Attributed server)
    (filed : Filed server.lsIdleList server) (booked : Booked cfg server born looked)
    (wait : 0 ≤ cfg.iWaitTime) (forward : looked ≤ now)
    (begins : born server.ghost.nextOcc = now) (accepted : Entered cfg now server after new) :
    Booked cfg after born looked := by
  obtain ⟨record, theap, -, occ⟩ := accepted.theap
  have fresh : tagOf after server.theap.next = some server.ghost.nextOcc := by
    rw [tagOf, theap, BlockHeap.alloc_block_self]
    exact occ
  have older : ∀ address ∈ held server.lsIdleList server,
      tagOf after address = tagOf server address := by
    intro address member
    have different : address ≠ server.theap.next := by
      intro same
      rw [same] at member
      exact next_not_held filed member
    rw [tagOf, tagOf, theap, BlockHeap.alloc_block, if_neg different]
  -- a record of an earlier client does not name the new one
  have stays : ∀ address ∈ held server.lsIdleList server, ∀ c o,
      tagOf after address = some o → after.ghost.occ c = some o →
        tagOf server address = some o ∧ server.ghost.occ c = some o := by
    intro address member c o tagged serves
    rw [older address member] at tagged
    have started := tag_started attributed tagged
    rw [accepted.owner] at serves
    by_cases same : c = new
    · rw [same, Function.update_self] at serves
      cases serves
      exact absurd started (Nat.lt_irrefl _)
    · rw [Function.update_of_ne same] at serves
      exact ⟨tagged, serves⟩
  constructor
  case keys =>
    intro entry member c o tagged serves
    rw [accepted.entries] at member
    rcases Multimap.mem_enter.mp member with same | before
    · subst same
      rw [fresh] at tagged
      cases tagged
      rw [begins]
    · have inside : entry.2 ∈ held server.lsIdleList server :=
        List.mem_append_left _ (List.mem_map_of_mem before)
      obtain ⟨tag, serving⟩ := stays entry.2 inside c o tagged serves
      exact booked.keys entry before c o tag serving
  case taken =>
    intro address member c o tagged serves
    rw [accepted.hand] at member
    obtain ⟨tag, serving⟩ := stays address (List.mem_append_right _ member) c o tagged serves
    exact booked.taken address member c o tag serving
  case waiting =>
    intro entry member
    rw [accepted.entries] at member
    rcases Multimap.mem_enter.mp member with same | before
    · subst same
      dsimp only
      omega
    · exact booked.waiting entry before

/-- The books only know the times of clients that are there. -/
theorem booked_born {other : OccId → Int} (booked : Booked cfg server born looked)
    (agree : ∀ c o, server.ghost.occ c = some o → other o = born o) :
    Booked cfg server other looked := by
  constructor
  case keys =>
    intro entry member c o tagged serves
    rw [agree c o serves]
    exact booked.keys entry member c o tagged serves
  case taken =>
    intro address member c o tagged serves
    rw [agree c o serves]
    exact booked.taken address member c o tagged serves
  case waiting => exact booked.waiting

theorem let_in_served (attributed : Attributed server) (act : Act) (c : ConnId) (o : OccId)
    (serves : server.ghost.occ c = some o) : letIn server act born o = born o := by
  have started := (settled_stamps attributed.settled).owner_lt c o serves
  unfold letIn
  cases actTime act with
  | none => rfl
  | some now => exact Function.update_of_ne (Nat.ne_of_lt started) _ _

theorem let_in_next {act : Act} {now : Int} (reads : actTime act = some now) :
    letIn server act born server.ghost.nextOcc = now := by
  rw [letIn, reads]
  exact Function.update_self _ _ _

theorem booked_client_step {act : Act} (kept : Kept cfg server)
    (booked : Booked cfg server born looked) (wait : 0 ≤ cfg.iWaitTime)
    (forward : ∀ now, actTime act = some now → looked ≤ now)
    (moved : ClientStep cfg server after (actTime act)) :
    Booked cfg after (letIn server act born) looked := by
  have filed := kept.covered.filed
  have noted := booked_born booked (let_in_served kept.attributed act)
  generalize reads : actTime act = time at moved
  cases moved with
  | same _ quiet => exact booked_of_clock noted quiet.clock quiet.owner
  | noted now c pinged => exact booked_of_clock noted pinged.clock pinged.owner
  | left now middle c marked closed =>
      have early : clock middle = clock server ∧ middle.ghost.occ = server.ghost.occ := by
        rcases marked with quiet | ⟨d, pinged⟩
        · exact ⟨quiet.clock, quiet.owner⟩
        · exact ⟨pinged.clock, pinged.owner⟩
      have hand : middle.lsIdleList = server.lsIdleList := congrArg Clock.lsIdleList early.1
      have filedMiddle : Filed middle.lsIdleList middle := by
        rw [hand]
        exact filed_of_clock early.1 filed
      exact booked_left filedMiddle (booked_of_clock noted early.1 early.2) closed
  | entered now c accepted =>
      exact booked_entered kept.attributed filed noted wait (forward now reads)
        (let_in_next reads) accepted

/-- The monitor takes out what is over time, and leaves the rest. -/
theorem booked_pop (mode : cfg.ifTimeOutKick = 1) (wait : 5 ≤ cfg.iWaitTime)
    (kept : Kept cfg server) (booked : Booked cfg server born looked)
    (drained : server.lsIdleList = []) (curTime : Int) :
    Booked cfg (serverTimerQueuePop cfg server curTime) born curTime := by
  have filed := kept.covered.filed
  have positive : 0 < cfg.iWaitTime := by omega
  by_cases runs : server.curSize > 0 ∧ server.timerValue < curTime
  · obtain ⟨records, after, loop⟩ := pop_loop_ends positive curTime filed
    obtain ⟨popped, filedAfter, -⟩ := pop_loop_drained positive loop filed
    have expired := expired_of_drained filed.ordered popped filedAfter
    have drain := pop_loop_monitor positive loop filed
    rw [drained, List.nil_append] at drain
    have pop : serverTimerQueuePop cfg server curTime =
        { after with lsIdleList := records, monitorTime := curTime } := by
      rw [serverTimerQueuePop, if_pos runs, drain]
    have owner := congrArg (fun server : Server => server.ghost.occ)
      (forget_monitor_pop cfg server curTime)
    rw [pop] at owner ⊢
    have owners : after.ghost.occ = server.ghost.occ := owner
    have tags : ∀ entry ∈ server.timerQueuemap, tagOf after entry.2 = tagOf server entry.2 := by
      intro entry member
      obtain ⟨record, live⟩ := Option.isSome_iff_exists.mp ((filed.live entry.2).mpr
        (List.mem_append_left _ (List.mem_map_of_mem member)))
      rw [tagOf, tagOf, live, popped.blocks entry.2 record live]
    constructor
    case keys =>
      intro entry member c o tagged serves
      have remains : entry ∈ after.timerQueuemap := member
      rw [expired.kicked mode] at remains
      have inside := (List.mem_filter.mp remains).1
      have tagAfter : tagOf after entry.2 = some o := tagged
      rw [tags entry inside] at tagAfter
      exact booked.keys entry inside c o tagAfter (owners ▸ serves)
    case taken =>
      intro address member c o tagged serves
      have listed : address ∈ records := member
      rw [expired.exact] at listed
      obtain ⟨entry, overdue, rfl⟩ := List.mem_map.mp listed
      obtain ⟨inside, late⟩ := List.mem_filter.mp overdue
      have tagAfter : tagOf after entry.2 = some o := tagged
      rw [tags entry inside] at tagAfter
      rw [← booked.keys entry inside c o tagAfter (owners ▸ serves)]
      exact of_decide_eq_true late
    case waiting =>
      intro entry member
      exact le_of_lt (expired.none_left entry member)
  · have skipped : serverTimerQueuePop cfg server curTime = server := by
      rw [serverTimerQueuePop, if_neg runs]
    rw [skipped]
    constructor
    case keys => exact booked.keys
    case taken =>
      intro address member
      rw [drained] at member
      cases member
    case waiting =>
      intro entry member
      -- the test that skips the round looks at the least key
      have least := (clocked_head_least ⟨filed, kept.head⟩
        (List.ne_nil_of_mem member)).2 ⟨entry, member, rfl⟩
      have size := filed.size
      have filled := List.length_pos_of_mem member
      have early : ¬ server.timerValue < curTime := fun late => runs ⟨by omega, late⟩
      omega

/-- What the check of a record does to the clients: it closes the one that the
record was entered for, if that one is still there. -/
structure Checked (record : MsgHeader) (rest : List Nat) (before after : Server) : Prop where
  list : after.lsIdleList = rest
  entries : ∀ entry ∈ after.timerQueuemap, entry ∈ before.timerQueuemap
  blocks : ∀ address content, after.theap.block address = some content →
    before.theap.block address = some content
  clients : ∀ c o, after.ghost.occ c = some o ↔
    before.ghost.occ c = some o ∧ record.occ ≠ some o

theorem checked_of_check (enabled : cfg.ifkickTimeCount = 1) (mode : cfg.ifTimeOutKick = 1)
    (attributed : Attributed server) {tmpmsg : Nat} {rest : List Nat}
    (filed : Filed (tmpmsg :: rest) server) {record : MsgHeader}
    (live : server.theap.block tmpmsg = some record) (curTime now : Int) :
    Checked record rest server
      (procPingTimeOutChecking cfg { server with lsIdleList := rest } tmpmsg curTime now) := by
  have recorded := attributed_recorded attributed
  have current := stamped_current (settled_stamps attributed.settled)
    (attributed.records record ⟨tmpmsg, live⟩)
  have quiet : Filed (tmpmsg :: rest) { server with lsIdleList := rest } :=
    filed_of_same filed rfl rfl rfl
  have found : ({ server with lsIdleList := rest } : Server).theap.block tmpmsg = some record :=
    live
  rw [ping_check_found found]
  rcases kick_cases enabled quiet record curTime now with
    ⟨same, stays⟩ | ⟨isCurrent, -, closed⟩
  · -- the connection of the record serves another client by now, or none
    have gone : record.iCurrsequence ≠ (server.conns record.pConn).iCurrsequence := by
      intro isCurrent
      have notOverdue := stays isCurrent
      rw [pingOverdue, mode] at notOverdue
      simp at notOverdue
    rw [same]
    constructor
    case list => rfl
    case entries => exact fun _ member => member
    case blocks => exact fun _ _ => BlockHeap.block_of_free
    case clients =>
      intro c o
      constructor
      · intro serves
        have owns : server.ghost.occ c = some o := serves
        refine ⟨owns, fun occ => ?_⟩
        apply gone
        apply current.mpr
        have names := recorded tmpmsg record c o live occ owns
        rw [names, occ]
        exact owns
      · exact And.left
  · have owner : server.ghost.occ record.pConn = record.occ := current.mp isCurrent
    constructor
    case list => exact closed.hand
    case entries =>
      intro entry member
      exact left_entries closed entry member
    case blocks =>
      intro address content stays
      exact closed.blocks address content (BlockHeap.block_of_free stays)
    case clients =>
      intro c o
      constructor
      · intro serves
        obtain ⟨other, owns⟩ := left_clients closed c o serves
        exact ⟨owns, fun occ => other (recorded tmpmsg record c o live occ owns).symm⟩
      · intro both
        obtain ⟨owns, differs⟩ := both
        have other : c ≠ record.pConn := by
          intro same
          rw [← owner, ← same] at differs
          exact differs owns
        have kept : (kickOverdue cfg { server with lsIdleList := rest } record curTime
            now).ghost.occ c = server.ghost.occ c := by
          rw [closed.owner]
          exact Function.update_of_ne other _ _
        exact kept.trans owns

theorem booked_check {record : MsgHeader} {tmpmsg : Nat} {rest : List Nat}
    (booked : Booked cfg server born looked) (front : server.lsIdleList = tmpmsg :: rest)
    (filed : Filed after.lsIdleList after) (checked : Checked record rest server after) :
    Booked cfg after born looked := by
  apply booked_fewer booked checked.entries
  case hand =>
    rw [checked.list, front]
    exact fun _ member => List.mem_cons_of_mem _ member
  case tags => exact fun _ member => tag_kept filed checked.blocks member
  case clients => exact fun c o serves => ((checked.clients c o).mp serves).1

end Steps

structure Timed (cfg : Config) (visits : Visits) : Prop where
  kept : Kept cfg visits.server
  booked : Booked cfg visits.server visits.born visits.looked
  past : visits.looked ≤ visits.clock

section Runs

variable {cfg : Config} {visits next : Visits}

theorem timed_starts (starts : Starts visits) : Timed cfg visits := by
  obtain ⟨fresh, past⟩ := starts
  have kept : Kept cfg visits.server := kept_fresh fresh
  obtain ⟨listenFds, -, -, same⟩ := fresh
  constructor
  case kept => exact kept
  case booked =>
    rw [same]
    constructor
    case keys =>
      intro entry member
      cases member
    case taken =>
      intro address member
      cases member
    case waiting =>
      intro entry member
      cases member
  case past => exact past

theorem timed_visit_step (enabled : cfg.ifkickTimeCount = 1) (mode : cfg.ifTimeOutKick = 1)
    (wait : 5 ≤ cfg.iWaitTime) {act : Act} (timed : Timed cfg visits)
    (disciplined : Disciplined visits.server act)
    (taken : visitStep cfg visits act = some next) : Timed cfg next := by
  obtain ⟨kept, booked, past⟩ := timed
  obtain ⟨⟨after, clock⟩, moves, same⟩ := Option.map_eq_some_iff.mp taken
  subst same
  obtain ⟨stepped, forward, reads⟩ := timed_step_cases moves
  have keptAfter : Kept cfg after := kept_step enabled kept disciplined stepped
  have outside : (∀ curTime, act ≠ .monitorPop curTime) → (∀ now, act ≠ .monitorCheck now) →
      Booked cfg after (letIn visits.server act visits.born) visits.looked := by
    intro noPop noCheck
    have moved := step_clients enabled kept.covered.filed kept.attributed disciplined stepped
      noPop noCheck
    apply booked_client_step kept booked (by omega) ?_ moved
    intro now time
    rw [← reads now time]
    omega
  by_cases monitor : (∀ curTime, act ≠ .monitorPop curTime) ∧ ∀ now, act ≠ .monitorCheck now
  · have looks : lookedAt act visits.looked = visits.looked := by
      unfold lookedAt
      split
      case h_1 curTime => exact absurd rfl (monitor.1 curTime)
      case h_2 => rfl
    rw [looks]
    exact ⟨keptAfter, outside monitor.1 monitor.2, past.trans forward⟩
  · have known := booked_born booked (let_in_served kept.attributed act)
    cases stepped_of_step stepped with
    | monitorPop curTime drained =>
        have popped := booked_pop mode wait kept known drained curTime
        exact ⟨keptAfter, popped, le_of_eq (reads curTime rfl).symm⟩
    | monitorCheck now tmpmsg rest front =>
        have filed := kept.covered.filed
        rw [front] at filed
        have member : tmpmsg ∈ held (tmpmsg :: rest) visits.server :=
          List.mem_append_right _ List.mem_cons_self
        obtain ⟨record, live⟩ := Option.isSome_iff_exists.mp ((filed.live tmpmsg).mpr member)
        have checked := checked_of_check enabled mode kept.attributed filed live
          visits.server.monitorTime now
        exact ⟨keptAfter, booked_check known front keptAfter.covered.filed checked,
          past.trans forward⟩
    | _ => exact absurd ⟨by simp, by simp⟩ monitor

theorem reachable_timed (enabled : cfg.ifkickTimeCount = 1) (mode : cfg.ifTimeOutKick = 1)
    (wait : 5 ≤ cfg.iWaitTime) (reached : VisitsReachable cfg visits) : Timed cfg visits :=
  TransitionSystem.invariant_of_step (Timed cfg) (fun _ starts => timed_starts starts)
    (fun _ _ _ timed disciplined taken =>
      timed_visit_step enabled mode wait timed disciplined taken) reached

/-- A client whose time was over when the monitor looked is about to be checked. -/
theorem late_in_hand (mode : cfg.ifTimeOutKick = 1) (timed : Timed cfg visits) {c : ConnId}
    {o : OccId} (serves : visits.server.ghost.occ c = some o)
    (late : visits.born o + cfg.iWaitTime < visits.looked) :
    ∃ address ∈ visits.server.lsIdleList, tagOf visits.server address = some o := by
  have complete := timed.kept.covered.complete c o serves
  rw [bookTags, if_pos mode] at complete
  rcases List.mem_append.mp complete with inMap | inHand
  · obtain ⟨entry, member, tagged⟩ := List.mem_map.mp inMap
    have key := timed.booked.keys entry member c o tagged serves
    have waits := timed.booked.waiting entry member
    omega
  · exact List.mem_map.mp inHand

end Runs

/-- With `m_ifTimeOutKick` a client is closed by the clock alone, in every order in which the
threads take their steps. Whoever was late when the monitor looked last is in its list; a check
closes the client that its record was entered for and no other; and that client was given its
whole time. -/
theorem time_out_kick_exact (cfg : Config) (enabled : cfg.ifkickTimeCount = 1)
    (mode : cfg.ifTimeOutKick = 1) (wait : 5 ≤ cfg.iWaitTime) (visits : Visits)
    (reached : VisitsReachable cfg visits) :
    (∀ c o, visits.server.ghost.occ c = some o →
      visits.born o + cfg.iWaitTime < visits.looked →
        ∃ address ∈ visits.server.lsIdleList, tagOf visits.server address = some o) ∧
    ∀ now next, visitStep cfg visits (.monitorCheck now) = some next →
      ∃ address rest, visits.server.lsIdleList = address :: rest ∧
        next.server.lsIdleList = rest ∧
        ∀ c o, visits.server.ghost.occ c = some o →
          (next.server.ghost.occ c ≠ some o ↔ tagOf visits.server address = some o) ∧
          (next.server.ghost.occ c ≠ some o → visits.born o + cfg.iWaitTime ≤ visits.looked) := by
  have timed := reachable_timed enabled mode wait reached
  refine ⟨fun c o serves late => late_in_hand mode timed serves late, fun now next taken => ?_⟩
  obtain ⟨⟨after, clock⟩, moves, same⟩ := Option.map_eq_some_iff.mp taken
  subst same
  obtain ⟨stepped, -, -⟩ := timed_step_cases moves
  cases stepped_of_step stepped with
  | monitorCheck _ tmpmsg rest front =>
      have filed := timed.kept.covered.filed
      rw [front] at filed
      have member : tmpmsg ∈ held (tmpmsg :: rest) visits.server :=
        List.mem_append_right _ List.mem_cons_self
      obtain ⟨record, live⟩ := Option.isSome_iff_exists.mp ((filed.live tmpmsg).mpr member)
      have checked := checked_of_check enabled mode timed.kept.attributed filed live
        visits.server.monitorTime now
      have tag : tagOf visits.server tmpmsg = record.occ := by
        rw [tagOf, live]
        rfl
      refine ⟨tmpmsg, rest, front, checked.list, fun c o serves => ?_⟩
      have closes : (procPingTimeOutChecking cfg { visits.server with lsIdleList := rest } tmpmsg
          visits.server.monitorTime now).ghost.occ c ≠ some o ↔
            tagOf visits.server tmpmsg = some o := by
        rw [Ne, checked.clients c o, tag]
        constructor
        · intro closed
          by_contra other
          exact closed ⟨serves, other⟩
        · intro own both
          exact both.2 own
      refine ⟨closes, fun closed => ?_⟩
      apply timed.booked.taken tmpmsg ?_ c o (closes.mp closed) serves
      rw [front]
      exact List.mem_cons_self

/-- A client let in at 1001 pings at 1018, and is closed at 1022 all the same. -/
theorem time_out_kick_exact_sample :
    ∃ visits next : Visits, visits.server.ghost.occ 1 = some 0 ∧
      (visits.server.conns 1).lastPingTime = 1018 ∧
      visitStep { sampleConfig with ifTimeOutKick := 1 } visits (.monitorCheck 1023) = some next ∧
      next.server.ghost.occ 1 ≠ some 0 := by
  let kickConfig : Config := { sampleConfig with ifTimeOutKick := 1 }
  let start : Visits :=
    { server := Server.construct [3], clock := 0, born := fun _ => 0, looked := 0 }
  let acts : List Act := [.epollInit (fun _ => true) 1000, .accept 0 [.ok 5] true true 1001,
    .event 1 epollIn (.data (encodeHeader 8 0 0)) .eagain true (fun _ => 0) 0 1017, .take 0,
    .process 0 (fun _ => 7) 1018, .monitorPop 1022]
  have seen : ((TransitionSystem.exec (visitStep kickConfig)
      (fun visits act => decide (Disciplined visits.server act)) start acts).bind fun visits =>
        (visitStep kickConfig visits (.monitorCheck 1023)).map fun _ =>
          (visits.server.ghost.occ 1, (visits.server.conns 1).lastPingTime,
            visits.server.lsIdleList, tagOf visits.server 1)) =
        some (some 0, 1018, [1], some 0) := by
    decide
  obtain ⟨visits, executed, last⟩ := Option.bind_eq_some_iff.mp seen
  obtain ⟨next, taken, same⟩ := Option.map_eq_some_iff.mp last
  simp only [Prod.mk.injEq] at same
  obtain ⟨serves, pinged, hand, tag⟩ := same
  have reached : VisitsReachable kickConfig visits :=
    ⟨start, ⟨⟨[3], by simp, by simp, rfl⟩, le_rfl⟩,
      TransitionSystem.steps_of_exec (fun _ _ => of_decide_eq_true) executed⟩
  obtain ⟨-, checks⟩ := time_out_kick_exact kickConfig rfl rfl (by decide) visits reached
  obtain ⟨address, rest, front, -, closes⟩ := checks 1023 next taken
  have first : address = 1 := by
    rw [hand] at front
    exact (List.cons.inj front).1.symm
  subst first
  exact ⟨visits, next, serves, pinged, taken, (closes 1 0 serves).1.mpr tag⟩

end NgxServer.TimeOutKick
