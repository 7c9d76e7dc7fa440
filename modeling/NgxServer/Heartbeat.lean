import NgxServer.TimerCoverage

/-!
# When the monitor closes a client

The monitor looks at a client each time its entry is over time, and enters it
again `m_iWaitTime` seconds later. A client that has been silent for more than
three waits and ten seconds is closed at such a look, so the key of an entry is
never more than one wait further on.
-/

namespace NgxServer.Heartbeat

open NgxServer.Comm NgxServer.State NgxServer.TimerQueue NgxServer.Socket NgxServer.Logic
open NgxServer.System NgxServer.Frames NgxServer.PoolRefinement NgxServer.Occupancy
open NgxServer.Session NgxServer.TimerClock NgxServer.TimerDrain NgxServer.Clients
open NgxServer.TimerCoverage
open Multimap (due later)
open QuarantinePool (Settled)

set_option autoImplicit false

def checkAll (cfg : Config) (curTime : Int) : List Nat → Server → Server
  | [], server => server
  | tmpmsg :: rest, server =>
      checkAll cfg curTime rest
        (procPingTimeOutChecking cfg { server with lsIdleList := rest } tmpmsg curTime curTime)

/-- One wake-up of `ServerTimerQueueMonitorThread`. -/
def monitorPass (cfg : Config) (server : Server) (curTime : Int) : Server :=
  let popped := serverTimerQueuePop cfg server curTime
  checkAll cfg curTime popped.lsIdleList popped

theorem kick_monitor_frame (cfg : Config) (server : Server) (record : MsgHeader)
    (curTime now : Int) :
    (kickOverdue cfg server record curTime now).monitorTime = server.monitorTime ∧
      (kickOverdue cfg server record curTime now).lsIdleList = server.lsIdleList := by
  unfold kickOverdue
  split_ifs
  · have same := forget_close_zd cfg (logKick server record) record.pConn now
    have time := congrArg Server.monitorTime same
    have list := congrArg Server.lsIdleList same
    exact ⟨time, list⟩
  · exact ⟨rfl, rfl⟩
  · exact ⟨rfl, rfl⟩

theorem ping_check_frame (cfg : Config) (server : Server) (tmpmsg : Nat) (curTime now : Int) :
    (procPingTimeOutChecking cfg server tmpmsg curTime now).monitorTime = server.monitorTime ∧
      (procPingTimeOutChecking cfg server tmpmsg curTime now).lsIdleList =
        server.lsIdleList := by
  unfold procPingTimeOutChecking
  split
  · exact ⟨rfl, rfl⟩
  case h_2 record found => exact kick_monitor_frame cfg server record curTime now

theorem check_all_steps (cfg : Config) (curTime : Int) (list : List Nat) (server : Server)
    (time : server.monitorTime = curTime) (front : server.lsIdleList = list) :
    TransitionSystem.Steps (step cfg) Disciplined server (checkAll cfg curTime list server) := by
  induction list generalizing server with
  | nil => exact Relation.ReflTransGen.refl
  | cons tmpmsg rest ih =>
      obtain ⟨sameTime, left⟩ := ping_check_frame cfg { server with lsIdleList := rest } tmpmsg
        curTime curTime
      refine Relation.ReflTransGen.head ⟨.monitorCheck curTime, trivial, ?_⟩
        (ih _ (sameTime.trans time) left)
      rw [step, front, ← time]

theorem monitor_pass_steps (cfg : Config) (server : Server) (curTime : Int)
    (drained : server.lsIdleList = []) :
    TransitionSystem.Steps (step cfg) Disciplined server (monitorPass cfg server curTime) := by
  have popped : step cfg server (.monitorPop curTime) =
      some (serverTimerQueuePop cfg server curTime) := by
    rw [step, if_pos drained]
  apply Relation.ReflTransGen.head ⟨.monitorPop curTime, trivial, popped⟩
  by_cases runs : server.curSize > 0 ∧ server.timerValue < curTime
  · have time : (serverTimerQueuePop cfg server curTime).monitorTime = curTime := by
      rw [serverTimerQueuePop, if_pos runs]
    exact check_all_steps cfg curTime _ _ time rfl
  · have skipped : serverTimerQueuePop cfg server curTime = server := by
      rw [serverTimerQueuePop, if_neg runs]
    rw [monitorPass, skipped, drained]
    exact Relation.ReflTransGen.refl

def pingedBy (server : Server) (jobbuf : Nat) : Option ConnId :=
  match server.rheap.block jobbuf with
  | none => none
  | some msg =>
      match threadRecvProcFunc (server.conns msg.hdr.pConn).iCurrsequence msg with
      | .error _ => none
      | .ok call =>
          if call.handler = .handlePing ∧ call.iBodyLength = 0 then some msg.hdr.pConn else none

def pinger (server : Server) : Act → Option ConnId
  | .process worker _ _ =>
      match server.workers worker with
      | .taken jobbuf => pingedBy server jobbuf
      | _ => none
  | _ => none

def note (who : Option OccId) (now : Int) (heard : OccId → Int) : OccId → Int :=
  match who with
  | none => heard
  | some o => Function.update heard o now

/-- The time of the last accept or heartbeat of each occupancy, after an action. -/
def hear (server : Server) (act : Act) (heard : OccId → Int) : OccId → Int :=
  match act with
  | .accept _ _ _ _ now => note (some server.ghost.nextOcc) now heard
  | .process _ _ now => note ((pinger server act).bind server.ghost.occ) now heard
  | _ => heard

def Heard (server : Server) (heard : OccId → Int) : Prop :=
  ∀ c o, server.ghost.occ c = some o → (server.conns c).lastPingTime = heard o

section Pings

variable {cfg : Config} {now : Int} {server after : Server}

def TimesKept (before after : Server) : Prop :=
  (∀ d, (after.conns d).lastPingTime = (before.conns d).lastPingTime) ∧
    ∀ c o, after.ghost.occ c = some o → before.ghost.occ c = some o

theorem times_kept_trans {first second third : Server} (early : TimesKept first second)
    (late : TimesKept second third) : TimesKept first third :=
  ⟨fun d => (late.1 d).trans (early.1 d), fun c o serves => early.2 c o (late.2 c o serves)⟩

theorem times_kept_of_session (same : session after = session server) :
    TimesKept server after := by
  have owner : after.ghost.occ = server.ghost.occ :=
    congrArg (fun view : View => view.pool.owner) same
  exact ⟨fun d => congrFun (congrArg View.lastPingTime same) d, fun c o serves => owner ▸ serves⟩

theorem times_kept_zd (cfg : Config) (server : Server) (c : ConnId) (now : Int) :
    TimesKept server (zdClosesocketProc cfg server c now) := by
  refine ⟨zd_last_ping_time cfg server c now, fun d o serves => ?_⟩
  rw [zd_occ] at serves
  by_cases same : d = c
  · rw [same, Function.update_self] at serves
    cases serves
  · rwa [Function.update_of_ne same] at serves

theorem times_kept_ends (ends : Ends cfg now server after) : TimesKept server after := by
  rcases ends with same | ⟨c, middle, -, same, closed⟩
  · exact times_kept_of_session same
  · exact times_kept_trans (times_kept_of_session same)
      (times_kept_trans (times_kept_zd cfg middle c now) (times_kept_of_session closed))

theorem times_kept_queue_reply (cfg : Config) (server : Server) (msg : MsgBuf) (now : Int) :
    TimesKept server (queueReply cfg server msg now) := by
  obtain ⟨sent, same, ends⟩ := queue_reply_frame cfg server msg now
  have early := times_kept_of_session (session_of_send same)
  rcases ends with kept | ⟨-, closed⟩
  · rw [kept]
    exact early
  · rw [closed]
    exact times_kept_trans early (times_kept_zd cfg sent _ now)

theorem run_handler_pings (cfg : Config) (server : Server) (call : Invocation)
    (junk : Nat → Byte) (now : Int) :
    ∃ noted : Server, TimesKept noted (runHandler cfg server call junk now) ∧
      noted.ghost.occ = server.ghost.occ ∧
      ∀ d, (noted.conns d).lastPingTime =
        if (call.handler = .handlePing ∧ call.iBodyLength = 0) ∧ call.pMsgHeader.pConn = d then now
        else (server.conns d).lastPingTime := by
  by_cases ping : call.handler = .handlePing
  · by_cases empty : call.iBodyLength = 0
    · have replies : reply call junk =
          some (sendNoBodyPkgToClient call.pMsgHeader cmdPing) := by
        rw [reply, ping]
        dsimp only
        rw [handlePing, if_neg (not_not.mpr empty)]
      refine ⟨server.modConn call.pMsgHeader.pConn fun p => { p with lastPingTime := now }, ?_,
        rfl, fun d => ?_⟩
      · unfold runHandler
        rw [replies]
        dsimp only
        rw [ping]
        exact times_kept_queue_reply cfg _ _ now
      · rw [mod_conn_conns]
        by_cases same : d = call.pMsgHeader.pConn
        · rw [if_pos same, if_pos ⟨⟨ping, empty⟩, same.symm⟩]
        · rw [if_neg same, if_neg fun both => same both.2.symm]
    · have silent : reply call junk = none := by
        rw [reply, ping]
        dsimp only
        rw [handlePing, if_pos empty]
      refine ⟨server, ?_, rfl, fun d => (if_neg fun both => empty both.1.2).symm⟩
      unfold runHandler
      rw [silent]
      exact ⟨fun _ => rfl, fun _ _ => id⟩
  · refine ⟨server, ?_, rfl, fun d => (if_neg fun both => ping both.1.1).symm⟩
    unfold runHandler
    split
    · exact ⟨fun _ => rfl, fun _ _ => id⟩
    · dsimp only
      split
      case h_1 handler => exact absurd handler ping
      case h_2 => exact times_kept_queue_reply cfg server _ now

theorem process_message_pings (cfg : Config) (server : Server) (jobbuf : Nat)
    (junk : Nat → Byte) (now : Int) :
    ∃ noted : Server, TimesKept noted (processMessage cfg server jobbuf junk now) ∧
      noted.ghost.occ = server.ghost.occ ∧
      ∀ d, (noted.conns d).lastPingTime =
        if pingedBy server jobbuf = some d then now else (server.conns d).lastPingTime := by
  have quiet : pingedBy server jobbuf = none →
      ∀ d, (server.conns d).lastPingTime =
        if pingedBy server jobbuf = some d then now else (server.conns d).lastPingTime := by
    intro none d
    rw [none, if_neg (by simp)]
  unfold processMessage
  split
  case h_1 gone =>
    exact ⟨server, ⟨fun _ => rfl, fun _ _ => id⟩, rfl, quiet (by rw [pingedBy, gone])⟩
  case h_2 msg live =>
    split
    case h_1 why dropped =>
      exact ⟨server, ⟨fun _ => rfl, fun _ _ => id⟩, rfl,
        quiet (by rw [pingedBy, live]; dsimp only; rw [dropped])⟩
    case h_2 call accepted =>
      have header := (thread_recv_proc_func_ok.mp accepted).2.2.1
      have pinged : pingedBy server jobbuf =
          if call.handler = .handlePing ∧ call.iBodyLength = 0 then some msg.hdr.pConn
          else none := by
        rw [pingedBy, live]
        dsimp only
        rw [accepted]
      obtain ⟨noted, kept, owner, times⟩ := run_handler_pings cfg
        { server with
          ghost.dispatches := server.ghost.dispatches ++
            [(msg.hdr, server.ghost.occ msg.hdr.pConn)] } call junk now
      refine ⟨noted, kept, owner, fun d => (times d).trans ?_⟩
      rw [pinged, header]
      by_cases ping : call.handler = .handlePing ∧ call.iBodyLength = 0
      · rw [if_pos ping]
        by_cases same : msg.hdr.pConn = d
        · rw [if_pos ⟨ping, same⟩, if_pos (congrArg some same)]
        · rw [if_neg fun both => same both.2, if_neg fun equal => same (Option.some.inj equal)]
      · rw [if_neg ping, if_neg fun both => ping both.1, if_neg (by simp)]

theorem heard_times_kept {heard : OccId → Int} (holds : Heard server heard)
    (kept : TimesKept server after) : Heard after heard := by
  intro c o serves
  rw [kept.1 c]
  exact holds c o (kept.2 c o serves)

theorem heard_same_clients {heard : OccId → Int} (holds : Heard server heard)
    (kept : SameClients server after) : Heard after heard := by
  intro c o serves
  have before : server.ghost.occ c = some o := kept.owner ▸ serves
  rw [kept.pings c (by simp [before])]
  exact holds c o before

theorem heard_accepts {heard : OccId → Int} (holds : Heard server heard)
    (started : ∀ c o, server.ghost.occ c = some o → o < server.ghost.nextOcc)
    (accepts : Accepts cfg now server after) :
    Heard after (note (some server.ghost.nextOcc) now heard) := by
  have older : ∀ c o, server.ghost.occ c = some o →
      note (some server.ghost.nextOcc) now heard o = heard o := by
    intro c o serves
    exact Function.update_of_ne (Nat.ne_of_lt (started c o serves)) now heard
  intro c o serves
  rcases accepts with kept | ⟨newc, accepted⟩
  · rw [heard_same_clients holds kept c o serves]
    exact (older c o (kept.owner ▸ serves)).symm
  · by_cases new : c = newc
    · subst new
      rw [accepted.owner, Function.update_self] at serves
      cases serves
      rw [accepted.pinged]
      exact (Function.update_self server.ghost.nextOcc now heard).symm
    · rw [accepted.owner, Function.update_of_ne new] at serves
      rw [older c o serves, accepted.pings c (by simp [serves])]
      exact holds c o serves

/-- A heartbeat is noted for the occupancy that its connection serves. -/
theorem heard_process {heard : OccId → Int} (holds : Heard server heard)
    (settled : Settled (poolView server)) (jobbuf : Nat) (junk : Nat → Byte) :
    Heard (processMessage cfg server jobbuf junk now)
      (note ((pingedBy server jobbuf).bind server.ghost.occ) now heard) := by
  obtain ⟨noted, kept, owner, times⟩ := process_message_pings cfg server jobbuf junk now
  intro c o serves
  have before : server.ghost.occ c = some o := by
    rw [← owner]
    exact kept.2 c o serves
  apply ((kept.1 c).trans (times c)).trans
  cases pings : pingedBy server jobbuf with
  | none =>
      rw [if_neg (by simp)]
      exact holds c o before
  | some d =>
      rw [Option.bind_some]
      by_cases own : d = c
      · subst own
        rw [if_pos rfl, before]
        exact (Function.update_self o now heard).symm
      · rw [if_neg fun equal => own (Option.some.inj equal), holds c o before]
        cases other : server.ghost.occ d with
        | none => rfl
        | some p =>
            have different : o ≠ p := by
              rintro rfl
              have stamps := settled_stamps settled
              have stamp := (stamps.current d o other).symm.trans (stamps.current c o before)
              exact own (congrArg Prod.fst stamp)
            exact (Function.update_of_ne different now heard).symm

/-- Outside the monitor the times are those of the last accept or heartbeat. -/
theorem step_heard (enabled : cfg.ifkickTimeCount = 1) {act : Act} {heard : OccId → Int}
    (attributed : Attributed server) (disciplined : Disciplined server act)
    (taken : step cfg server act = some after) (holds : Heard server heard)
    (noPop : ∀ curTime, act ≠ .monitorPop curTime) (noCheck : ∀ now, act ≠ .monitorCheck now) :
    Heard after (hear server act heard) := by
  have stamps := settled_stamps attributed.settled
  have later := attributed_step attributed disciplined taken
  cases stepped_of_step taken with
  | epollInit ctl now _ empty done =>
      exact heard_same_clients holds (epoll_init_clients attributed empty done)
  | accept oldc outcomes nonblockOk ctlOk now listening possible =>
      exact heard_accepts holds stamps.owner_lt
        (event_accept_clients enabled nonblockOk ctlOk now outcomes server attributed.settled)
  | event c revents recv send ctlOk junk nowMs now =>
      have ends : Ends cfg now server _ :=
        ends_event c disciplined revents recv send ctlOk junk nowMs
      exact heard_times_kept holds (times_kept_ends ends)
  | msgSend msg now => exact heard_times_kept holds (times_kept_queue_reply cfg server msg now)
  | semWait interrupted => exact holds
  | beginPass => exact holds
  | element outcome ctlOk pos pMsgBuf =>
      exact heard_times_kept holds (times_kept_of_session
        (session_of_send (forget_send_send_element server pos pMsgBuf outcome ctlOk)))
  | endPass => exact holds
  | take worker jobbuf rest => exact holds
  | process worker jobbuf junk now workerHolds =>
      have hears : hear server (.process worker junk now) heard =
          note ((pingedBy server jobbuf).bind server.ghost.occ) now heard := by
        rw [hear, pinger, workerHolds]
      rw [hears]
      exact heard_process holds attributed.settled jobbuf junk
  | release worker jobbuf => exact holds
  | monitorPop curTime => exact absurd rfl (noPop curTime)
  | monitorCheck now => exact absurd rfl (noCheck now)
  | recycle currtime => exact heard_same_clients holds (recycle_clients currtime attributed later)
  | close c now => exact heard_times_kept holds (times_kept_zd cfg server c now)

end Pings

/-- An entry is at most one wait behind the time at which its client is closed. -/
def KeysNear (cfg : Config) (server : Server) : Prop :=
  ∀ entry ∈ server.timerQueuemap, ∀ c o, tagOf server entry.2 = some o →
    server.ghost.occ c = some o →
    entry.1 ≤ (server.conns c).lastPingTime + 4 * cfg.iWaitTime + 10

structure Checking (cfg : Config) (curTime : Int) (start server : Server) : Prop where
  kept : Kept cfg server
  time : server.monitorTime = curTime
  pings : ∀ d, (server.conns d).lastPingTime = (start.conns d).lastPingTime
  beyond : ∀ entry ∈ server.timerQueuemap, curTime < entry.1
  /-- a client whose key may be too far has still to be checked -/
  keys : ∀ entry ∈ server.timerQueuemap, ∀ c o, tagOf server entry.2 = some o →
    server.ghost.occ c = some o →
    entry.1 ≤ (server.conns c).lastPingTime + 4 * cfg.iWaitTime + 10 ∨
      entry.1 ≤ curTime + cfg.iWaitTime ∧
        ∃ address ∈ server.lsIdleList, tagOf server address = some o
  ended : ∀ c o, server.ghost.occ c = some o → start.ghost.occ c = some o
  spared : ∀ c o, start.ghost.occ c = some o →
    curTime - (start.conns c).lastPingTime ≤ cfg.iWaitTime * 3 + 10 →
    server.ghost.occ c = some o

section Pass

variable {cfg : Config} {curTime : Int} {start server : Server}

theorem silent_overdue (mode : cfg.ifTimeOutKick ≠ 1) (p : NgxConnection) :
    pingOverdue cfg p curTime = true ↔ curTime - p.lastPingTime > cfg.iWaitTime * 3 + 10 := by
  rw [pingOverdue, decide_eq_false mode, Bool.false_or, decide_eq_true_iff]

structure Looked (cfg : Config) (curTime : Int) (record : MsgHeader) (rest : List Nat)
    (before after : Server) : Prop where
  list : after.lsIdleList = rest
  time : after.monitorTime = before.monitorTime
  entries : ∀ entry ∈ after.timerQueuemap, entry ∈ before.timerQueuemap
  pings : ∀ d, (after.conns d).lastPingTime = (before.conns d).lastPingTime
  blocks : ∀ address content, after.theap.block address = some content →
    before.theap.block address = some content
  ended : ∀ c o, after.ghost.occ c = some o → before.ghost.occ c = some o
  /-- the client of the record was heard, or is closed -/
  heard : ∀ c o, after.ghost.occ c = some o → record.occ = some o →
    curTime - (before.conns c).lastPingTime ≤ cfg.iWaitTime * 3 + 10
  spared : ∀ c o, before.ghost.occ c = some o →
    curTime - (before.conns c).lastPingTime ≤ cfg.iWaitTime * 3 + 10 →
    after.ghost.occ c = some o

theorem looked_check (enabled : cfg.ifkickTimeCount = 1) (mode : cfg.ifTimeOutKick ≠ 1)
    (attributed : Attributed server) {tmpmsg : Nat} {rest : List Nat}
    (filed : Filed (tmpmsg :: rest) server) {record : MsgHeader}
    (live : server.theap.block tmpmsg = some record) :
    Looked cfg curTime record rest server
      (procPingTimeOutChecking cfg { server with lsIdleList := rest } tmpmsg curTime curTime) := by
  have recorded := attributed_recorded attributed
  have quiet : Filed (tmpmsg :: rest) { server with lsIdleList := rest } :=
    filed_of_same filed rfl rfl rfl
  have found : ({ server with lsIdleList := rest } : Server).theap.block tmpmsg = some record :=
    live
  have current := stamped_current (settled_stamps attributed.settled)
    (attributed.records record ⟨tmpmsg, live⟩)
  rw [ping_check_found found]
  rcases kick_cases enabled quiet record curTime curTime with
    ⟨same, stays⟩ | ⟨isCurrent, overdue, closed⟩
  · rw [same]
    refine ⟨rfl, rfl, fun _ => id, fun _ => rfl, fun _ _ => BlockHeap.block_of_free,
      fun _ _ => id, fun c o serves occ => ?_, fun _ _ serves _ => serves⟩
    have owns : server.ghost.occ c = some o := serves
    have names := recorded tmpmsg record c o live occ owns
    have notOverdue := stays (current.mpr (by rw [names, occ]; exact owns))
    rw [← Bool.not_eq_true, silent_overdue mode, names] at notOverdue
    exact not_lt.mp notOverdue
  · have late := (silent_overdue mode _).mp overdue
    have survives : ∀ c o, (kickOverdue cfg { server with lsIdleList := rest } record curTime
        curTime).ghost.occ c = some o → c ≠ record.pConn ∧ server.ghost.occ c = some o := by
      intro c o serves
      rw [closed.owner] at serves
      by_cases same : c = record.pConn
      · rw [same, Function.update_self] at serves
        cases serves
      · rw [Function.update_of_ne same] at serves
        exact ⟨same, serves⟩
    have time : (kickOverdue cfg { server with lsIdleList := rest } record curTime
        curTime).monitorTime = server.monitorTime :=
      (kick_monitor_frame cfg _ record curTime curTime).1
    refine ⟨closed.hand, time, fun entry member => ?_, closed.pings,
      fun address content stays => closed.blocks address content (BlockHeap.block_of_free stays),
      fun c o serves => (survives c o serves).2, fun c o serves occ => ?_,
      fun c o serves early => ?_⟩
    · have entries : (kickOverdue cfg { server with lsIdleList := rest } record curTime
          curTime).timerQueuemap = _ := closed.entries
      have kept : entry ∈ (kickOverdue cfg { server with lsIdleList := rest } record curTime
          curTime).timerQueuemap := member
      rw [entries] at kept
      exact (List.mem_filter.mp kept).1
    · obtain ⟨other, owns⟩ := survives c o serves
      exact absurd (recorded tmpmsg record c o live occ owns).symm other
    · have other : c ≠ record.pConn := by
        rintro rfl
        exact absurd early (not_le.mpr late)
      have kept : (kickOverdue cfg { server with lsIdleList := rest } record curTime
          curTime).ghost.occ c = server.ghost.occ c := by
        rw [closed.owner]
        exact Function.update_of_ne other _ _
      exact kept.trans serves

theorem checking_step (enabled : cfg.ifkickTimeCount = 1) (mode : cfg.ifTimeOutKick ≠ 1)
    (checking : Checking cfg curTime start server) {tmpmsg : Nat} {rest : List Nat}
    (front : server.lsIdleList = tmpmsg :: rest) :
    Checking cfg curTime start
        (procPingTimeOutChecking cfg { server with lsIdleList := rest } tmpmsg curTime curTime) ∧
      (procPingTimeOutChecking cfg { server with lsIdleList := rest } tmpmsg curTime
        curTime).lsIdleList = rest := by
  have kept := checking.kept
  have filed := kept.covered.filed
  rw [front] at filed
  have disciplined : Disciplined server (.monitorCheck curTime) := trivial
  have stepped : step cfg server (.monitorCheck curTime) =
      some (procPingTimeOutChecking cfg { server with lsIdleList := rest } tmpmsg curTime
        curTime) := by
    rw [step, front, ← checking.time]
  have attributed := attributed_step kept.attributed disciplined stepped
  have later := kept_check enabled kept front curTime curTime attributed
  have member : tmpmsg ∈ held (tmpmsg :: rest) server :=
    List.mem_append_right _ List.mem_cons_self
  obtain ⟨record, live⟩ := Option.isSome_iff_exists.mp ((filed.live tmpmsg).mpr member)
  have looked : Looked cfg curTime record rest server _ :=
    looked_check enabled mode kept.attributed filed live
  generalize procPingTimeOutChecking cfg { server with lsIdleList := rest } tmpmsg curTime
    curTime = after at later looked ⊢
  have tags : ∀ address ∈ held rest after, tagOf after address = tagOf server address :=
    fun address inside => tag_kept (looked.list ▸ later.covered.filed) looked.blocks inside
  refine ⟨⟨later, looked.time.trans checking.time, fun d => ?_, fun entry inside => ?_,
    fun entry inside c o tagged serves => ?_, fun c o serves => ?_, fun c o serves early => ?_⟩,
    looked.list⟩
  · rw [looked.pings, checking.pings]
  · exact checking.beyond entry (looked.entries entry inside)
  · have before : tagOf server entry.2 = some o := by
      rw [← tags entry.2 (List.mem_append_left rest (List.mem_map_of_mem inside))]
      exact tagged
    rw [looked.pings, looked.list]
    rcases checking.keys entry (looked.entries entry inside) c o before
        (looked.ended c o serves) with near | ⟨soon, address, waits, tag⟩
    · exact Or.inl near
    · rw [front] at waits
      rcases List.mem_cons.mp waits with rfl | still
      · have occ : record.occ = some o := by
          rw [tagOf, live] at tag
          exact tag
        have heard := looked.heard c o serves occ
        apply Or.inl
        omega
      · refine Or.inr ⟨soon, address, still, ?_⟩
        rw [tags address (List.mem_append_right _ still), tag]
  · exact checking.ended c o (looked.ended c o serves)
  · apply looked.spared c o (checking.spared c o serves early)
    rw [checking.pings]
    exact early

theorem checking_all (enabled : cfg.ifkickTimeCount = 1) (mode : cfg.ifTimeOutKick ≠ 1)
    (list : List Nat) (server : Server) (checking : Checking cfg curTime start server)
    (front : server.lsIdleList = list) :
    Checking cfg curTime start (checkAll cfg curTime list server) ∧
      (checkAll cfg curTime list server).lsIdleList = [] := by
  induction list generalizing server with
  | nil => exact ⟨checking, front⟩
  | cons tmpmsg rest ih =>
      obtain ⟨next, left⟩ := checking_step enabled mode checking front
      exact ih _ next left

theorem forall_mem_right {Left Right : Type} {related : Left → Right → Prop}
    {lefts : List Left} {rights : List Right} (all : List.Forall₂ related lefts rights)
    {right : Right} (member : right ∈ rights) : ∃ left ∈ lefts, related left right := by
  induction all with
  | nil => cases member
  | cons here _ ih =>
      rcases List.mem_cons.mp member with rfl | inside
      · exact ⟨_, List.mem_cons_self, here⟩
      · obtain ⟨left, found, holds⟩ := ih inside
        exact ⟨left, List.mem_cons_of_mem _ found, holds⟩

theorem checking_popped (enabled : cfg.ifkickTimeCount = 1) (mode : cfg.ifTimeOutKick ≠ 1)
    (wait : 0 < cfg.iWaitTime) (kept : Kept cfg server) (near : KeysNear cfg server)
    (drained : server.lsIdleList = [])
    (runs : server.curSize > 0 ∧ server.timerValue < curTime) :
    Checking cfg curTime server (serverTimerQueuePop cfg server curTime) := by
  have disciplined : Disciplined server (.monitorPop curTime) := trivial
  have stepped : step cfg server (.monitorPop curTime) =
      some (serverTimerQueuePop cfg server curTime) := by
    rw [step, if_pos drained]
  have later := kept_step enabled kept disciplined stepped
  have same := forget_monitor_pop cfg server curTime
  have conns := congrArg Server.conns same
  have owner := congrArg (fun server : Server => server.ghost.occ) same
  have filed := kept.covered.filed
  obtain ⟨records, after, loop⟩ := pop_loop_ends wait curTime filed
  obtain ⟨popped, filedAfter, -⟩ := pop_loop_drained wait loop filed
  have drain := pop_loop_monitor wait loop filed
  rw [drained, List.nil_append] at drain
  have pop : serverTimerQueuePop cfg server curTime =
      { after with lsIdleList := records, monitorTime := curTime } := by
    rw [serverTimerQueuePop, if_pos runs, drain]
  rw [pop] at later conns owner ⊢
  have times : after.conns = server.conns := conns
  have owners : after.ghost.occ = server.ghost.occ := owner
  have tags : ∀ entry ∈ server.timerQueuemap, tagOf after entry.2 = tagOf server entry.2 := by
    intro entry member
    obtain ⟨record, live⟩ := Option.isSome_iff_exists.mp ((filed.live entry.2).mpr
      (List.mem_append_left _ (List.mem_map_of_mem member)))
    rw [tagOf, tagOf, live, popped.blocks entry.2 record live]
  have parts := Multimap.due_append_later curTime server.timerQueuemap
  refine ⟨later, rfl, fun d => by rw [← times], fun entry member => ?_,
    fun entry member c o tagged serves => ?_, fun c o serves => owners ▸ serves,
    fun c o serves _ => owners ▸ serves⟩
  · exact (expired_of_drained filed.ordered popped filedAfter).none_left entry member
  · have owns : server.ghost.occ c = some o := owners ▸ serves
    have tagAfter : tagOf after entry.2 = some o := tagged
    obtain ⟨fresh, renewed, perm⟩ := popped.renew mode
    rcases List.mem_append.mp (perm.mem_iff.mp member) with stays | new
    · have inside : entry ∈ server.timerQueuemap := parts ▸ List.mem_append_right _ stays
      rw [tags entry inside] at tagAfter
      apply Or.inl
      have bound := near entry inside c o tagAfter owns
      rw [← times] at bound
      exact bound
    · obtain ⟨old, dueNow, key, -, copied⟩ := forall_mem_right renewed new
      have inside : old ∈ server.timerQueuemap := parts ▸ List.mem_append_left _ dueNow
      refine Or.inr ⟨le_of_eq key, old.2, ?_, ?_⟩
      · exact popped.taken ▸ List.mem_map_of_mem dueNow
      · have same : tagOf server old.2 = some o := by
          rw [tagOf, ← copied]
          exact tagAfter
        exact (tags old inside).trans same

theorem client_entry (mode : cfg.ifTimeOutKick ≠ 1) (kept : Kept cfg server) {c : ConnId}
    {o : OccId} (serves : server.ghost.occ c = some o) :
    ∃ entry ∈ server.timerQueuemap, tagOf server entry.2 = some o := by
  have complete := kept.covered.complete c o serves
  rw [bookTags, if_neg mode] at complete
  exact List.mem_map.mp complete

/-- A pass leaves only clients that were heard recently, and spares all of them. -/
theorem monitor_pass_exact (enabled : cfg.ifkickTimeCount = 1) (mode : cfg.ifTimeOutKick ≠ 1)
    (wait : 5 ≤ cfg.iWaitTime) (kept : Kept cfg server) (near : KeysNear cfg server)
    (drained : server.lsIdleList = []) (curTime : Int) :
    (Kept cfg (monitorPass cfg server curTime) ∧ KeysNear cfg (monitorPass cfg server curTime) ∧
      (monitorPass cfg server curTime).lsIdleList = [] ∧
      TimesKept server (monitorPass cfg server curTime)) ∧
    (∀ c o, server.ghost.occ c = some o →
      curTime - (server.conns c).lastPingTime ≤ cfg.iWaitTime * 3 + 10 →
      (monitorPass cfg server curTime).ghost.occ c = some o) ∧
    ∀ c o, (monitorPass cfg server curTime).ghost.occ c = some o →
      curTime ≤ (server.conns c).lastPingTime + 4 * cfg.iWaitTime + 10 := by
  by_cases runs : server.curSize > 0 ∧ server.timerValue < curTime
  · have checking := checking_popped enabled mode (by omega) kept near drained runs
    obtain ⟨checked, done⟩ : Checking cfg curTime server (monitorPass cfg server curTime) ∧
        (monitorPass cfg server curTime).lsIdleList = [] :=
      checking_all enabled mode _ _ checking rfl
    have keys : ∀ entry ∈ (monitorPass cfg server curTime).timerQueuemap, ∀ c o,
        tagOf (monitorPass cfg server curTime) entry.2 = some o →
        (monitorPass cfg server curTime).ghost.occ c = some o →
        entry.1 ≤ ((monitorPass cfg server curTime).conns c).lastPingTime +
          4 * cfg.iWaitTime + 10 := by
      intro entry member c o tagged serves
      rcases checked.keys entry member c o tagged serves with bound | ⟨-, address, waits, -⟩
      · exact bound
      · rw [done] at waits
        cases waits
    refine ⟨⟨checked.kept, keys, done, checked.pings, checked.ended⟩, checked.spared,
      fun c o serves => ?_⟩
    obtain ⟨entry, member, tagged⟩ := client_entry mode checked.kept serves
    have bound := keys entry member c o tagged serves
    have beyond := checked.beyond entry member
    rw [checked.pings] at bound
    omega
  · have skipped : monitorPass cfg server curTime = server := by
      have popped : serverTimerQueuePop cfg server curTime = server := by
        rw [serverTimerQueuePop, if_neg runs]
      rw [monitorPass, popped, drained]
      rfl
    rw [skipped]
    refine ⟨⟨kept, near, drained, fun _ => rfl, fun _ _ => id⟩, fun _ _ serves _ => serves,
      fun c o serves => ?_⟩
    obtain ⟨entry, member, tagged⟩ := client_entry mode kept serves
    have bound := near entry member c o tagged serves
    -- the test that skips the pass looks at the least key
    have least := (clocked_head_least ⟨kept.covered.filed, kept.head⟩
      (List.ne_nil_of_mem member)).2 ⟨entry, member, rfl⟩
    have size := kept.covered.filed.size
    have some := List.length_pos_of_mem member
    have value : ¬ server.timerValue < curTime := fun due => runs ⟨by omega, due⟩
    omega

end Pass

inductive Beat
  | act (act : Act)
  | pass (curTime : Int)

/-- The process at a time, and the time of the last accept or heartbeat of each
occupancy. -/
structure Watch where
  server : Server
  clock : Int
  heard : OccId → Int

def isMonitor : Act → Bool
  | .monitorPop _ | .monitorCheck _ => true
  | _ => false

def beatStep (cfg : Config) (watch : Watch) : Beat → Option Watch
  | .act act =>
      if isMonitor act then none
      else (timedStep cfg (watch.server, watch.clock) act).map fun next =>
        { server := next.1, clock := next.2, heard := hear watch.server act watch.heard }
  | .pass curTime =>
      if watch.clock ≤ curTime then
        some { watch with server := monitorPass cfg watch.server curTime, clock := curTime }
      else none

def Permitted (watch : Watch) : Beat → Prop
  | .act act => Disciplined watch.server act
  | .pass _ => True

structure Beating (cfg : Config) (watch : Watch) : Prop where
  kept : Kept cfg watch.server
  near : KeysNear cfg watch.server
  drained : watch.server.lsIdleList = []
  heard : Heard watch.server watch.heard
  past : ∀ c, watch.server.ghost.occ c ≠ none →
    (watch.server.conns c).lastPingTime ≤ watch.clock

section Runs

variable {cfg : Config} {server after : Server} {clock later : Int}

theorem tags_of_clock (same : Clients.clock after = Clients.clock server) :
    tagOf after = tagOf server ∧ after.timerQueuemap = server.timerQueuemap := by
  have theap : after.theap = server.theap := congrArg Clock.theap same
  refine ⟨funext fun address => ?_, congrArg Clock.timerQueuemap same⟩
  rw [tagOf, tagOf, theap]

theorem near_same (near : KeysNear cfg server) (kept : SameClients server after) :
    KeysNear cfg after := by
  obtain ⟨tags, entries⟩ := tags_of_clock kept.clock
  intro entry member c o tagged serves
  have before : server.ghost.occ c = some o := kept.owner ▸ serves
  rw [kept.pings c (by simp [before])]
  exact near entry (entries ▸ member) c o (tags ▸ tagged) before

theorem near_noted {now : Int} {d : ConnId} (near : KeysNear cfg server)
    (past : ∀ c, server.ghost.occ c ≠ none → (server.conns c).lastPingTime ≤ now)
    (pinged : Noted now server after d) : KeysNear cfg after := by
  obtain ⟨tags, entries⟩ := tags_of_clock pinged.clock
  intro entry member c o tagged serves
  have before : server.ghost.occ c = some o := pinged.owner ▸ serves
  have bound := near entry (entries ▸ member) c o (tags ▸ tagged) before
  have older := past c (by simp [before])
  rw [pinged.pings]
  split <;> omega

theorem near_left {d : ConnId} {hand : List Nat} (filed : Filed hand server)
    (near : KeysNear cfg server) (closed : Left server after d) : KeysNear cfg after := by
  have filedAfter := closed.filed hand filed
  intro entry member c o tagged serves
  have tags := tag_kept filedAfter closed.blocks
    (List.mem_append_left hand (List.mem_map_of_mem member))
  have different : c ≠ d := by
    rintro rfl
    rw [closed.owner, Function.update_self] at serves
    cases serves
  rw [closed.owner, Function.update_of_ne different] at serves
  rw [closed.pings]
  refine near entry ?_ c o (tags ▸ tagged) serves
  have inside := member
  rw [closed.entries] at inside
  exact (List.mem_filter.mp inside).1

theorem near_entered {now : Int} {d : ConnId} {hand : List Nat} (wait : 0 ≤ cfg.iWaitTime)
    (attributed : Attributed server) (filed : Filed hand server) (near : KeysNear cfg server)
    (accepted : Entered cfg now server after d) : KeysNear cfg after := by
  obtain ⟨record, theap, -, occ⟩ := accepted.theap
  intro entry member c o tagged serves
  rw [accepted.entries] at member
  rcases Multimap.mem_enter.mp member with rfl | older
  · have tag : tagOf after server.theap.next = record.occ := by
      rw [tagOf, theap, BlockHeap.alloc_block_self]
      rfl
    rw [tag, occ] at tagged
    cases tagged
    have own : c = d := by
      by_contra different
      rw [accepted.owner, Function.update_of_ne different] at serves
      exact Nat.lt_irrefl _ ((settled_stamps attributed.settled).owner_lt c _ serves)
    rw [own, accepted.pinged]
    dsimp only
    omega
  · have inside := List.mem_append_left hand (List.mem_map_of_mem (f := Prod.snd) older)
    have different : entry.2 ≠ server.theap.next := by
      intro same
      exact next_not_held filed (same ▸ inside)
    have tag : tagOf after entry.2 = tagOf server entry.2 := by
      rw [tagOf, tagOf, theap, BlockHeap.alloc_block, if_neg different]
    rw [tag] at tagged
    by_cases own : c = d
    · rw [own, accepted.owner, Function.update_self] at serves
      cases serves
      exact absurd (tag_started attributed tagged) (Nat.lt_irrefl _)
    · rw [accepted.owner, Function.update_of_ne own] at serves
      rw [accepted.pings c (by simp [serves])]
      exact near entry older c o tagged serves

theorem near_client_step {time : Option Int} (wait : 0 ≤ cfg.iWaitTime) (kept : Kept cfg server)
    (near : KeysNear cfg server)
    (past : ∀ c, server.ghost.occ c ≠ none → (server.conns c).lastPingTime ≤ clock)
    (forward : clock ≤ later) (timed : ∀ now, time = some now → later = now)
    (moved : ClientStep cfg server after time) : KeysNear cfg after := by
  have recent : ∀ c, server.ghost.occ c ≠ none → (server.conns c).lastPingTime ≤ later :=
    fun c serves => (past c serves).trans forward
  cases moved with
  | same _ quiet => exact near_same near quiet
  | noted now d pinged =>
      rw [timed now rfl] at recent
      exact near_noted near recent pinged
  | left now middle d marked closed =>
      rw [timed now rfl] at recent
      rcases marked with quiet | ⟨e, pinged⟩
      · exact near_left (filed_of_clock quiet.clock kept.covered.filed) (near_same near quiet) closed
      · exact near_left (filed_of_clock pinged.clock kept.covered.filed)
          (near_noted near recent pinged) closed
  | entered now d accepted =>
      exact near_entered wait kept.attributed kept.covered.filed near accepted

theorem past_client_step {time : Option Int}
    (past : ∀ c, server.ghost.occ c ≠ none → (server.conns c).lastPingTime ≤ clock)
    (forward : clock ≤ later) (timed : ∀ now, time = some now → later = now)
    (moved : ClientStep cfg server after time) :
    ∀ c, after.ghost.occ c ≠ none → (after.conns c).lastPingTime ≤ later := by
  have recent : ∀ c, server.ghost.occ c ≠ none → (server.conns c).lastPingTime ≤ later :=
    fun c serves => (past c serves).trans forward
  have quiet : ∀ next : Server, SameClients server next →
      ∀ c, next.ghost.occ c ≠ none → (next.conns c).lastPingTime ≤ later := by
    intro next kept c serves
    rw [kept.owner] at serves
    rw [kept.pings c serves]
    exact recent c serves
  have noted : ∀ (next : Server) (d : ConnId) (now : Int), later = now → Noted now server next d →
      ∀ c, next.ghost.occ c ≠ none → (next.conns c).lastPingTime ≤ later := by
    intro next d now same pinged c serves
    rw [pinged.owner] at serves
    have older := recent c serves
    rw [pinged.pings]
    split <;> omega
  cases moved with
  | same _ kept => exact quiet after kept
  | noted now d pinged => exact noted after d now (timed now rfl) pinged
  | left now middle d marked closed =>
      intro c serves
      have before : middle.ghost.occ c ≠ none := by
        intro none
        rw [closed.owner] at serves
        by_cases same : c = d
        · rw [same, Function.update_self] at serves
          exact serves rfl
        · rw [Function.update_of_ne same] at serves
          exact serves none
      rw [closed.pings]
      rcases marked with kept | ⟨e, pinged⟩
      · exact quiet middle kept c before
      · exact noted middle e now (timed now rfl) pinged c before
  | entered now d accepted =>
      intro c serves
      by_cases same : c = d
      · rw [same, accepted.pinged, timed now rfl]
      · rw [accepted.owner, Function.update_of_ne same] at serves
        rw [accepted.pings c serves]
        exact recent c serves

theorem beating_step (enabled : cfg.ifkickTimeCount = 1) (mode : cfg.ifTimeOutKick ≠ 1)
    (wait : 5 ≤ cfg.iWaitTime) {watch next : Watch} {beat : Beat} (beating : Beating cfg watch)
    (permitted : Permitted watch beat) (taken : beatStep cfg watch beat = some next) :
    Beating cfg next := by
  cases beat with
  | act act =>
      obtain ⟨outside, moves⟩ := Option.ite_none_left_eq_some.mp taken
      obtain ⟨⟨after, later⟩, timed, same⟩ := Option.map_eq_some_iff.mp moves
      cases same
      obtain ⟨stepped, forward, reads⟩ := timed_step_cases timed
      have noPop : ∀ curTime, act ≠ .monitorPop curTime := by
        rintro curTime rfl
        exact outside rfl
      have noCheck : ∀ now, act ≠ .monitorCheck now := by
        rintro now rfl
        exact outside rfl
      have moved := step_clients enabled beating.kept.covered.filed beating.kept.attributed
        permitted stepped noPop noCheck
      refine ⟨kept_step enabled beating.kept permitted stepped, ?_, ?_, ?_, ?_⟩
      · exact near_client_step (by omega) beating.kept beating.near beating.past forward reads
          moved
      · exact (client_step_rest moved).1.trans beating.drained
      · exact step_heard enabled beating.kept.attributed permitted stepped beating.heard noPop
          noCheck
      · exact past_client_step beating.past forward reads moved
  | pass curTime =>
      obtain ⟨forward, same⟩ := Option.ite_none_right_eq_some.mp taken
      cases same
      obtain ⟨⟨kept, near, drained, times, ended⟩, -, -⟩ := monitor_pass_exact enabled mode wait
        beating.kept beating.near beating.drained curTime
      refine ⟨kept, near, drained, fun c o serves => ?_, fun c serves => ?_⟩
      · exact (times c).trans (beating.heard c o (ended c o serves))
      · obtain ⟨o, owns⟩ := Option.ne_none_iff_exists'.mp serves
        have before := beating.past c (by simp [ended c o owns])
        exact (le_of_eq (times c)).trans (before.trans forward)

theorem fresh_beating {heard : OccId → Int} (fresh : Fresh server) :
    Beating cfg { server := server, clock := clock, heard := heard } := by
  have kept : Kept cfg server := kept_fresh fresh
  obtain ⟨listenFds, -, -, rfl⟩ := fresh
  refine ⟨kept, ?_, rfl, ?_, fun c serves => absurd rfl serves⟩
  · intro entry member
    cases member
  · intro c o serves
    cases serves

end Runs

def BeatReachable (cfg : Config) : Watch → Prop :=
  TransitionSystem.Reachable (fun watch => Fresh watch.server) (beatStep cfg) Permitted

/-- The monitor closes exactly for silence: a pass spares every client that was
heard within three waits and ten seconds, and closes every one that was not
heard for one wait more. -/
theorem heartbeat_exact (cfg : Config) (enabled : cfg.ifkickTimeCount = 1)
    (mode : cfg.ifTimeOutKick ≠ 1) (wait : 5 ≤ cfg.iWaitTime) (watch next : Watch)
    (reached : BeatReachable cfg watch) (curTime : Int)
    (passed : beatStep cfg watch (.pass curTime) = some next) :
    (∀ c o, watch.server.ghost.occ c = some o →
      curTime - watch.heard o ≤ 3 * cfg.iWaitTime + 10 → next.server.ghost.occ c = some o) ∧
    ∀ c o, curTime > watch.heard o + 4 * cfg.iWaitTime + 10 →
      next.server.ghost.occ c ≠ some o := by
  have beating : Beating cfg watch := TransitionSystem.invariant_of_step (Beating cfg)
    (fun _ fresh => fresh_beating fresh)
    (fun _ _ _ holds permitted taken => beating_step enabled mode wait holds permitted taken)
    reached
  obtain ⟨-, same⟩ := Option.ite_none_right_eq_some.mp passed
  cases same
  obtain ⟨⟨-, -, -, -, ended⟩, spared, silent⟩ := monitor_pass_exact enabled mode wait
    beating.kept beating.near beating.drained curTime
  refine ⟨fun c o serves recent => ?_, fun c o late serves => ?_⟩
  · apply spared c o serves
    rw [beating.heard c o serves]
    omega
  · have bound := silent c o serves
    rw [beating.heard c o (ended c o serves)] at bound
    omega

instance (watch : Watch) : (beat : Beat) → Decidable (Permitted watch beat)
  | .act act => inferInstanceAs (Decidable (Disciplined watch.server act))
  | .pass _ => isTrue trivial

/-- A client that was accepted at 1001 and stays silent is closed at 1092. -/
theorem heartbeat_exact_sample :
    ∃ watch next, (watch.server.ghost.occ 1, watch.heard 0) = (some 0, 1001) ∧
      beatStep sampleConfig watch (.pass 1092) = some next ∧
      next.server.ghost.occ 1 ≠ some 0 := by
  let start : Watch := { server := Server.construct [3], clock := 0, heard := fun _ => 0 }
  let beats : List Beat := [.act (.epollInit (fun _ => true) 1000),
    .act (.accept 0 [.ok 5] true true 1001), .pass 1030]
  have seen : ((TransitionSystem.exec (beatStep sampleConfig)
      (fun watch beat => decide (Permitted watch beat)) start beats).bind fun watch =>
        (beatStep sampleConfig watch (.pass 1092)).map fun _ =>
          (watch.server.ghost.occ 1, watch.heard 0)) = some (some 0, 1001) := by
    decide
  obtain ⟨watch, executed, last⟩ := Option.bind_eq_some_iff.mp seen
  obtain ⟨next, passed, same⟩ := Option.map_eq_some_iff.mp last
  have reached : BeatReachable sampleConfig watch :=
    ⟨start, ⟨[3], by simp, by simp, rfl⟩,
      TransitionSystem.steps_of_exec (fun _ _ => of_decide_eq_true) executed⟩
  have heard : watch.heard 0 = 1001 := congrArg Prod.snd same
  refine ⟨watch, next, same, passed, ?_⟩
  refine (heartbeat_exact sampleConfig rfl (by decide) (by decide) watch next reached 1092
    passed).2 1 0 ?_
  rw [heard]
  decide

end NgxServer.Heartbeat
