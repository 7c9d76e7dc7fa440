import Mathlib.Data.Fintype.Order
import NgxServer.Progress
import NgxServer.Vacancy

/-!
# A process that its clients leave

Whatever a run has led to, nothing keeps the worker process from giving back
all that it has: its clients leave, the workers finish their messages, the send
thread drops the packets of clients that are gone, the monitor gives back the
records it has taken, and the recycler frees the connections. The send thread
may need a signal to look at its queue once more, because a packet that waits
behind another one of its client is not posted again when the client leaves.
-/

namespace NgxServer.Drain

open NgxServer.Comm NgxServer.State NgxServer.ConnPool NgxServer.TimerQueue NgxServer.Socket
open NgxServer.Request NgxServer.Logic NgxServer.System NgxServer.Frames
open NgxServer.PoolRefinement NgxServer.Occupancy NgxServer.SendMachine NgxServer.SendFraming
open NgxServer.Progress NgxServer.Vacancy
open QuarantinePool (Settled InService)
open TransitionSystem (Steps)

set_option autoImplicit false

/-- What happens in a process when clients only leave. -/
def Leaving (server : Server) : Act → Prop
  | .event c revents recv _ _ _ _ _ =>
      InService (poolView server) c ∧ hasFlag revents epollOut = false ∧ recv = .closed
  | .epollInit _ _ | .accept _ _ _ _ _ | .msgSend _ _ | .close _ _ => False
  | _ => True

def Reached (cfg : Config) (server : Server) : Prop :=
  Reachable cfg (fun server act => AnyEvent server act ∧ WritableOk cfg server act) server

def Gone (server : Server) : Prop := ∀ c, server.ghost.occ c = none

def clientLeaves (c : ConnId) : Act :=
  .event c (epollIn ||| epollRdhup) .closed .eagain true (fun _ => 0) 0 0

def clients (server : Server) : Nat :=
  (server.connectionList.map fun c => if server.ghost.occ c = none then 0 else 1).sum

section Clients

variable {cfg : Config} {server after : Server} {act : Act}

theorem reached_disciplined (reached : Reached cfg server) : Reachable cfg Disciplined server :=
  TransitionSystem.reachable_mono (fun _ _ both => both.1.1) reached

theorem reached_attributed (reached : Reached cfg server) : Attributed server :=
  reachable_attributed (fun _ _ => id) (reached_disciplined reached)

theorem reachable_attended (reached : Reachable cfg Disciplined server) : Attended server := by
  apply TransitionSystem.invariant_of_reachable _ ?_ ?_ reached
  · intro start fresh
    obtain ⟨listenFds, -, -, rfl⟩ := fresh
    exact fun c live => absurd rfl live
  · intro before act after soFar attended disciplined taken
    obtain ⟨⟨attributed, sound⟩, receiving⟩ := ByteStream.reachable_receiving soFar
    exact attended_step attributed sound receiving disciplined attended taken

theorem leaving_permitted (cfg : Config) (leaving : Leaving server act) :
    AnyEvent server act ∧ WritableOk cfg server act := by
  cases act with
  | event c revents recv send ctlOk junk nowMs now =>
      obtain ⟨serves, silent, -⟩ := leaving
      refine ⟨⟨serves, trivial⟩, fun writable => ?_⟩
      rw [silent] at writable
      cases writable
  | epollInit | accept | msgSend | close => exact leaving.elim
  | _ => exact ⟨⟨trivial, trivial⟩, trivial⟩

theorem leaving_step (reached : Reached cfg server) (leaving : Leaving server act)
    (taken : step cfg server act = some after) : Reached cfg after :=
  TransitionSystem.reachable_steps reached
    (TransitionSystem.steps_single (leaving_permitted cfg leaving) taken)

theorem leaving_run (reached : Reached cfg server) (run : Steps (step cfg) Leaving server after) :
    Reached cfg after :=
  TransitionSystem.reachable_steps reached
    (TransitionSystem.steps_mono (fun _ _ => leaving_permitted cfg) run)

/-- The end of a client's stream closes its connection. -/
theorem client_leaves_step (attended : Attended server) (cfg : Config) {c : ConnId}
    (live : server.ghost.occ c ≠ none) :
    step cfg server (clientLeaves c) = some (zdClosesocketProc cfg server c 0) := by
  have reads : hasFlag (epollIn ||| epollRdhup) epollIn = true := by decide
  have silent : hasFlag (epollIn ||| epollRdhup) epollOut = false := by decide
  have possible : eventPossible server c (epollIn ||| epollRdhup) = true := by
    unfold eventPossible
    split
    · rfl
    · rw [silent]
      rfl
  have read : readSide cfg server c (epollIn ||| epollRdhup) .closed (fun _ => 0) 0 0 =
      zdClosesocketProc cfg server c 0 := by
    rw [readSide, if_pos reads, ngxReadRequestHandler, recvproc]
    split_ifs <;> rfl
  rw [clientLeaves, step, if_pos ⟨attended c live, possible, rfl, rfl⟩, read, writeSide, silent]
  rfl

theorem clients_zd (settled : Settled (poolView server)) {c : ConnId}
    (live : server.ghost.occ c ≠ none) (cfg : Config) (now : Int) :
    clients (zdClosesocketProc cfg server c now) < clients server := by
  have list := congrArg Server.connectionList (forget_close_zd cfg server c now)
  have same : (zdClosesocketProc cfg server c now).connectionList = server.connectionList := list
  have listed : c ∈ server.connectionList := (owner_in_service settled live).1
  have distinct := (PoolPartition.settled_partitioned settled).listed_once
  have changed : (fun d => if (zdClosesocketProc cfg server c now).ghost.occ d = none
      then 0 else 1) =
      Function.update (fun d => if server.ghost.occ d = none then 0 else 1) c 0 := by
    funext d
    rw [zd_occ, Function.update_apply, Function.update_apply]
    by_cases gone : d = c
    · rw [if_pos gone, if_pos gone, if_pos rfl]
    · rw [if_neg gone, if_neg gone]
  have fewer := sum_update distinct listed
    (fun d => if server.ghost.occ d = none then 0 else 1) 0
  rw [← changed, if_neg live] at fewer
  unfold clients
  rw [same]
  omega

theorem all_leave (reached : Reached cfg server) :
    ∃ middle, Steps (step cfg) Leaving server middle ∧ Gone middle := by
  apply TransitionSystem.exists_steps_to clients (Reached cfg) ?_ reached
  intro state soFar stays
  obtain ⟨c, live⟩ := not_forall.mp stays
  have attributed := reached_attributed soFar
  have attended := reachable_attended (reached_disciplined soFar)
  have taken := client_leaves_step attended cfg live
  have serves := owner_in_service attributed.settled live
  have leaving : Leaving state (clientLeaves c) := ⟨serves, by decide, rfl⟩
  exact ⟨clientLeaves c, _, leaving, taken, leaving_step soFar leaving taken,
    clients_zd attributed.settled live cfg 0⟩

end Clients

def tasks : Worker → Nat
  | .idle => 0
  | .taken _ => 2
  | .processed _ => 1

def passLeft : SendPc → Nat
  | .semWait => 3
  | .woken => 2
  | .pass 0 => 1
  | .pass (_ + 1) => 4

/-- What is left to do for the first `staff` workers, the send thread and the monitor. -/
def workLeft (staff : Nat) (server : Server) : Nat :=
  3 * server.msgRecvQueue.length +
    ((List.range staff).map fun worker => tasks (server.workers worker)).sum +
    (2 * server.msgSendQueue.length + passLeft server.sendPc) + server.lsIdleList.length

def Staffed (staff : Nat) (server : Server) : Prop :=
  ∀ worker, staff ≤ worker → server.workers worker = .idle

/-- One step that gets something done. -/
def Closer (cfg : Config) (staff : Nat) (server : Server) : Prop :=
  ∃ act next, Leaving server act ∧ step cfg server act = some next ∧ Gone next ∧
    Staffed staff next ∧ workLeft staff next < workLeft staff server

structure Quiet (server : Server) : Prop where
  received : server.msgRecvQueue = []
  idle : ∀ worker, server.workers worker = .idle
  sent : server.msgSendQueue = []
  checked : server.lsIdleList = []

section Work

variable {cfg : Config} {server : Server} {staff : Nat}

theorem reachable_staffed (reached : Reachable cfg Disciplined server) :
    ∃ staff, 0 < staff ∧ Staffed staff server := by
  apply TransitionSystem.invariant_of_reachable
    (fun state => ∃ staff, 0 < staff ∧ Staffed staff state) ?_ ?_ reached
  · intro start fresh
    obtain ⟨listenFds, -, -, rfl⟩ := fresh
    exact ⟨1, Nat.one_pos, fun _ _ => rfl⟩
  · rintro before act after soFar ⟨staff, some, staffed⟩ disciplined taken
    obtain ⟨⟨attributed, -⟩, receiving⟩ := ByteStream.reachable_receiving soFar
    have others : ∀ worker, staff ≤ worker → act ≠ .take worker → after.workers worker = .idle :=
      fun worker beyond other =>
        idle_step attributed receiving disciplined (staffed worker beyond) other taken
    by_cases takes : ∃ worker, act = .take worker
    · obtain ⟨busy, rfl⟩ := takes
      refine ⟨max staff (busy + 1), by omega, fun worker beyond => others worker (by omega) ?_⟩
      rintro ⟨⟩
      omega
    · exact ⟨staff, some, fun worker beyond => others worker beyond fun same => takes ⟨_, same⟩⟩

theorem staffed_update (staffed : Staffed staff server) {worker : Nat} (inside : worker < staff)
    (state : Worker) : ∀ other, staff ≤ other →
      Function.update server.workers worker state other = .idle := by
  intro other beyond
  rw [Function.update_of_ne (by omega)]
  exact staffed other beyond

theorem tasks_update (server : Server) {worker : Nat} (inside : worker < staff)
    (state : Worker) :
    ((List.range staff).map fun other =>
        tasks (Function.update server.workers worker state other)).sum +
        tasks (server.workers worker) =
      ((List.range staff).map fun other => tasks (server.workers other)).sum + tasks state := by
  have changed : (fun other => tasks (Function.update server.workers worker state other)) =
      Function.update (fun other => tasks (server.workers other)) worker (tasks state) := by
    funext other
    rw [Function.update_apply, Function.update_apply, apply_ite tasks]
  rw [changed]
  exact sum_update List.nodup_range (List.mem_range.mpr inside)
    (fun other => tasks (server.workers other)) (tasks state)

theorem gone_stale (attributed : Attributed server) (gone : Gone server) {hdr : MsgHeader}
    (stamped : Stamped (poolView server) hdr) :
    (server.conns hdr.pConn).iCurrsequence ≠ hdr.iCurrsequence := by
  intro current
  obtain ⟨owner, owned⟩ := current_owner attributed.settled stamped current
  rw [gone] at owner
  exact owned owner.symm

/-- A message of a client that is gone is dropped. -/
theorem nothing_to_answer (attributed : Attributed server) (gone : Gone server) (cfg : Config)
    (jobbuf : Nat) (junk : Nat → Byte) (now : Int) :
    processReplies server jobbuf junk = false ∧
      processMessage cfg server jobbuf junk now = server := by
  unfold processReplies processMessage
  cases content : server.rheap.block jobbuf with
  | none => exact ⟨rfl, rfl⟩
  | some msg =>
      dsimp only
      cases called : threadRecvProcFunc (server.conns msg.hdr.pConn).iCurrsequence msg with
      | error why => exact ⟨rfl, rfl⟩
      | ok call =>
          have found := (thread_recv_proc_func_ok.mp called).2.1
          have current := (find_handler_ok.mp found).1
          have stamped := attributed.requests msg.hdr ⟨jobbuf, msg, content, rfl⟩
          exact absurd current (gone_stale attributed gone stamped)

theorem worker_closer (attributed : Attributed server) (gone : Gone server)
    (staffed : Staffed staff server) {worker : Nat} (busy : server.workers worker ≠ .idle) :
    Closer cfg staff server := by
  have inside : worker < staff := by
    by_contra beyond
    exact busy (staffed worker (not_lt.mp beyond))
  cases holds : server.workers worker with
  | idle => exact absurd holds busy
  | taken jobbuf =>
      obtain ⟨silent, same⟩ :=
        nothing_to_answer attributed gone cfg jobbuf (fun _ => 0) 0
      have taken : step cfg server (.process worker (fun _ => 0) 0) =
          some { server with
            workers := Function.update server.workers worker (.processed jobbuf) } := by
        have unlocked : ¬ (inPass server = true ∧
            processReplies server jobbuf (fun _ => 0) = true) := by
          rw [silent]
          exact fun both => Bool.false_ne_true both.2
        simp only [step, holds, if_neg unlocked, same]
      have fewer := tasks_update server inside (.processed jobbuf)
      rw [holds] at fewer
      refine ⟨.process worker (fun _ => 0) 0, _, trivial, taken, gone,
        staffed_update staffed inside _, ?_⟩
      simp only [workLeft, tasks] at fewer ⊢
      omega
  | processed jobbuf =>
      have taken : step cfg server (.release worker) =
          some { server with
            workers := Function.update server.workers worker .idle
            rheap := BlockHeap.free server.rheap jobbuf } := by
        simp only [step, holds]
      have fewer := tasks_update server inside .idle
      rw [holds] at fewer
      refine ⟨.release worker, _, trivial, taken, gone, staffed_update staffed inside _, ?_⟩
      simp only [workLeft, tasks] at fewer ⊢
      omega

theorem message_closer (gone : Gone server) (staffed : Staffed staff server) (some : 0 < staff)
    (idle : ∀ worker, server.workers worker = .idle) (waiting : server.msgRecvQueue ≠ []) :
    Closer cfg staff server := by
  obtain ⟨jobbuf, rest, front⟩ := List.exists_cons_of_ne_nil waiting
  have taken : step cfg server (.take 0) =
      Option.some { server with
        workers := Function.update server.workers 0 (.taken jobbuf)
        msgRecvQueue := rest
        iRecvMsgQueueCount := server.iRecvMsgQueueCount - 1 } := by
    simp only [step, idle 0, front]
  have more := tasks_update server some (.taken jobbuf)
  rw [idle 0] at more
  refine ⟨.take 0, _, trivial, taken, gone, staffed_update staffed some _, ?_⟩
  simp only [workLeft, tasks, front, List.length_cons] at more ⊢
  omega

/-- A packet for a client that is gone is dropped. -/
theorem send_element_gone (attributed : Attributed server) (gone : Gone server) {pMsgBuf : Nat}
    {msg : MsgBuf} (content : server.sheap.block pMsgBuf = some msg) (pos : Nat)
    (outcome : SendOutcome) (ctlOk : Bool) :
    sendElement server pos pMsgBuf outcome ctlOk =
      { eraseElement server pos with sheap := BlockHeap.free server.sheap pMsgBuf } := by
  have stamped := attributed.replies msg.hdr ⟨pMsgBuf, msg, content, rfl⟩
  unfold sendElement
  rw [content]
  exact if_pos (gone_stale attributed gone stamped)

theorem packet_closer (attributed : Attributed server) (sound : SendSound (sendState server))
    (gone : Gone server) (staffed : Staffed staff server) (waiting : server.msgSendQueue ≠ []) :
    Closer cfg staff server := by
  cases pc : server.sendPc with
  | semWait =>
      have taken : step cfg server (.semWait true) = some (sendThreadWake server true) := by
        simp only [step, pc, true_or, and_self, if_true]
      refine ⟨.semWait true, _, trivial, taken, gone, staffed, ?_⟩
      simp only [workLeft, sendThreadWake, pc, passLeft]
      omega
  | woken =>
      have taken : step cfg server .beginPass = some (sendThreadBegin server) := if_pos pc
      have counted : server.iSendMsgQueueCount = server.msgSendQueue.length := sound.counted
      have length := List.length_pos_iff.mpr waiting
      have positive : server.iSendMsgQueueCount > 0 := by omega
      refine ⟨.beginPass, _, trivial, taken, gone, staffed, ?_⟩
      simp only [workLeft, sendThreadBegin, if_pos positive, pc, passLeft]
      omega
  | pass pos =>
      cases current : server.msgSendQueue[pos]? with
      | none =>
          have none : elementAt server = none := by
            rw [elementAt, pc]
            exact Option.map_eq_none_iff.mpr current
          have passing : inPass server = true := by rw [inPass, pc]
          have taken : step cfg server .endPass = some { server with sendPc := .semWait } :=
            if_pos ⟨passing, none⟩
          have length := List.length_pos_iff.mpr waiting
          have beyond := List.getElem?_eq_none_iff.mp current
          obtain ⟨before, rfl⟩ := Nat.exists_eq_add_of_lt (Nat.lt_of_lt_of_le length beyond)
          refine ⟨.endPass, _, trivial, taken, gone, staffed, ?_⟩
          simp only [workLeft, pc, passLeft]
          omega
      | some pMsgBuf =>
          obtain ⟨msg, content⟩ := Option.isSome_iff_exists.mp
            (sound.exclusive.live (.slot pos) pMsgBuf current)
          have here : elementAt server = some (pos, pMsgBuf) := by
            rw [elementAt, pc]
            exact Option.map_eq_some_iff.mpr ⟨pMsgBuf, current, rfl⟩
          have taken : step cfg server (.element .eagain true) =
              some { eraseElement server pos with
                sheap := BlockHeap.free server.sheap pMsgBuf } := by
            simp only [step, here]
            rw [← send_element_gone attributed gone content pos .eagain true]
            rfl
          have inside := (List.getElem?_eq_some_iff.mp current).1
          refine ⟨.element .eagain true, _, trivial, taken, gone, staffed, ?_⟩
          simp only [workLeft, eraseElement, List.length_eraseIdx_of_lt inside]
          omega

/-- A timer record of a client that is gone is freed, and nobody is kicked. -/
theorem ping_check_gone (attributed : Attributed server) (gone : Gone server) (cfg : Config)
    (tmpmsg : Nat) (curTime now : Int) :
    ∃ theap, procPingTimeOutChecking cfg server tmpmsg curTime now =
      { server with theap := theap } := by
  unfold procPingTimeOutChecking
  split
  · exact ⟨server.theap, rfl⟩
  case h_2 record content =>
    have stamped := attributed.records record ⟨tmpmsg, content⟩
    rw [kickOverdue, if_neg (gone_stale attributed gone stamped).symm]
    exact ⟨_, rfl⟩

theorem record_closer (attributed : Attributed server) (gone : Gone server)
    (staffed : Staffed staff server) (waiting : server.lsIdleList ≠ []) :
    Closer cfg staff server := by
  obtain ⟨tmpmsg, rest, front⟩ := List.exists_cons_of_ne_nil waiting
  have popped : Attributed { server with lsIdleList := rest } :=
    ⟨attributed.settled, attributed.requests, attributed.replies, attributed.records,
      attributed.dispatched, attributed.kicked⟩
  obtain ⟨theap, same⟩ := ping_check_gone popped gone cfg tmpmsg server.monitorTime 0
  have taken : step cfg server (.monitorCheck 0) =
      some { server with lsIdleList := rest, theap := theap } := by
    simp only [step, front, same]
  refine ⟨.monitorCheck 0, _, trivial, taken, gone, staffed, ?_⟩
  simp only [workLeft, front, List.length_cons]
  omega

theorem all_quiet (reached : Reached cfg server) (gone : Gone server) :
    ∃ middle, Steps (step cfg) Leaving server middle ∧ Gone middle ∧ Quiet middle := by
  obtain ⟨staff, some, staffed⟩ := reachable_staffed (reached_disciplined reached)
  have progress : ∀ state, (Reached cfg state ∧ Gone state ∧ Staffed staff state) →
      ¬ (Gone state ∧ Quiet state) → ∃ act next, Leaving state act ∧ step cfg state act =
        Option.some next ∧ (Reached cfg next ∧ Gone next ∧ Staffed staff next) ∧
          workLeft staff next < workLeft staff state := by
    rintro state ⟨soFar, nobody, held⟩ busy
    obtain ⟨attributed, sound, -⟩ := SendAccounting.reachable_kept soFar
    have closer : Closer cfg staff state := by
      by_cases idle : ∀ worker, state.workers worker = .idle
      · by_cases received : state.msgRecvQueue = []
        · by_cases sent : state.msgSendQueue = []
          · by_cases checked : state.lsIdleList = []
            · exact absurd ⟨nobody, received, idle, sent, checked⟩ busy
            · exact record_closer attributed nobody held checked
          · exact packet_closer attributed sound nobody held sent
        · exact message_closer nobody held some idle received
      · obtain ⟨worker, works⟩ := not_forall.mp idle
        exact worker_closer attributed nobody held works
    obtain ⟨act, next, leaving, taken, stillGone, stillHeld, less⟩ := closer
    exact ⟨act, next, leaving, taken, ⟨leaving_step soFar leaving taken, stillGone, stillHeld⟩,
      less⟩
  exact TransitionSystem.exists_steps_to (workLeft staff)
    (fun state => Reached cfg state ∧ Gone state ∧ Staffed staff state) progress
    ⟨reached, gone, staffed⟩

theorem gone_recycled (gone : Gone server) (cfg : Config) (currtime : Int) :
    Gone (serverRecyConnectionPass cfg server currtime 0) := by
  apply recy_pass_keeps ?_ currtime 0 gone
  intro state c held d
  have owner : (releaseConnection state c).ghost.occ =
      Function.update state.ghost.occ c none := rfl
  rw [owner, Function.update_apply, held, ite_self]

theorem quiet_recycled (quiet : Quiet server) (cfg : Config) (currtime : Int) :
    Quiet (serverRecyConnectionPass cfg server currtime 0) := by
  apply recy_pass_keeps ?_ currtime 0 quiet
  exact fun state c held => ⟨held.received, held.idle, held.sent, held.checked⟩

/-- A pass that is late enough releases everybody who waits. -/
theorem late_pass (settled : Settled (poolView server)) (cfg : Config) :
    ∃ currtime, (serverRecyConnectionPass cfg server currtime 0).recyconnectionList = [] := by
  obtain ⟨currtime, latest⟩ := (server.recyconnectionList.map fun c =>
    (server.conns c).inRecyTime + cfg.recyConnectionWaitTime).toFinset.exists_le
  have due : ∀ c ∈ server.recyconnectionList, Recycler.Over cfg server currtime 0 c :=
    fun c waits => Or.inr (latest _ (List.mem_toFinset.mpr (List.mem_map_of_mem waits)))
  have count := (PoolPartition.settled_partitioned settled).recy_count
  refine ⟨currtime, ?_⟩
  unfold serverRecyConnectionPass
  split
  · rw [(Recycler.pass_exact cfg server currtime 0).2.left]
    apply List.filter_eq_nil_iff.mpr
    intro c waits
    rw [decide_eq_true (due c waits)]
    exact Bool.false_ne_true
  · apply List.eq_nil_of_length_eq_zero
    omega

theorem all_recycled (reached : Reached cfg server) (gone : Gone server) (quiet : Quiet server) :
    ∃ last, Steps (step cfg) Leaving server last ∧ Vacant last := by
  obtain ⟨currtime, released⟩ := late_pass (reached_attributed reached).settled cfg
  have taken : step cfg server (.recycle currtime) =
      some (serverRecyConnectionPass cfg server currtime 0) := rfl
  have leaving : Leaving server (.recycle currtime) := trivial
  have nobody := gone_recycled gone cfg currtime
  obtain ⟨received, idle, sent, checked⟩ := quiet_recycled quiet cfg currtime
  have settled := (reached_attributed (leaving_step reached leaving taken)).settled
  have parts := PoolPartition.settled_partitioned settled
  have clients : PoolPartition.inUseClients (serverRecyConnectionPass cfg server currtime 0) =
      [] := by
    apply List.eq_nil_iff_forall_not_mem.mpr
    intro c client
    obtain ⟨used, unpinned⟩ := List.mem_filter.mp client
    exact (settled_stamps settled).used_owner c used (of_decide_eq_true unpinned)
      List.not_mem_nil (nobody c)
  refine ⟨_, TransitionSystem.steps_single leaving taken, ?_⟩
  constructor
  case online => rw [parts.online_count, clients]; rfl
  case recycled => rw [parts.recy_count, released]; rfl
  case received => exact received
  case idle => exact idle
  case sent => exact sent
  case checked => exact checked

end Work

/-- From every state the process can get rid of all that it has when its clients leave:
nothing that was allocated, opened or queued is stuck for ever. -/
theorem can_drain (cfg : Config) (server : Server)
    (reached : Reachable cfg (fun server act => AnyEvent server act ∧ WritableOk cfg server act)
      server) :
    ∃ last, Steps (step cfg) Leaving server last ∧ Vacant last ∧ Cleared last := by
  obtain ⟨left, leave, gone⟩ := all_leave reached
  have leftReached := leaving_run reached leave
  obtain ⟨worked, work, nobody, quiet⟩ := all_quiet leftReached gone
  have workedReached := leaving_run leftReached work
  obtain ⟨last, recycle, vacant⟩ := all_recycled workedReached nobody quiet
  refine ⟨last, TransitionSystem.steps_trans leave (TransitionSystem.steps_trans work recycle),
    vacant, ?_⟩
  exact cleared_of_vacant (leaving_run workedReached recycle) vacant

/-- A client has a packet under way, a reply half sent and one that waits behind it. -/
def busyVisit : List Act :=
  [.epollInit (fun _ => true) 1000, .accept 0 [.ok 5] true true 1001,
    .event 1 epollIn (.data (encodeHeader 8 0 0)) .eagain true (fun _ => 7) 0 1002, .take 0,
    .process 0 (fun _ => 7) 1002, .semWait false, .beginPass, .element (.sent 3) true,
    .endPass, .event 1 epollIn (.data (encodeHeader 8 0 0)) .eagain true (fun _ => 7) 500 1003,
    .take 1, .process 1 (fun _ => 7) 1003, .semWait false, .beginPass, .element .eagain true,
    .event 1 epollIn (.data [0, 20, 0, 5, 0, 0, 0, 0]) .eagain true (fun _ => 7) 1000 1004]

theorem can_drain_sample :
    ∃ server last : Server, server.workers 0 = .processed 1 ∧ server.workers 1 = .processed 2 ∧
      (server.conns 1).send.isendlen = 5 ∧ server.msgSendQueue = [2] ∧
      Steps (step sampleConfig) Leaving server last ∧ Vacant last ∧ Cleared last := by
  have seen : (run sampleConfig
      (fun server act => AnyEvent server act ∧ WritableOk sampleConfig server act)
      busyVisit).map (fun server => ((server.workers 0, server.workers 1),
        (server.conns 1).send.isendlen, server.msgSendQueue)) =
      some ((.processed 1, .processed 2), 5, [2]) := by
    decide
  obtain ⟨server, reached, same⟩ := reachable_of_seen seen
  simp only [Prod.mk.injEq] at same
  obtain ⟨⟨first, second⟩, pending, waiting⟩ := same
  obtain ⟨last, run, vacant, cleared⟩ := can_drain sampleConfig server reached
  exact ⟨server, last, first, second, pending, waiting, run, vacant, cleared⟩

end NgxServer.Drain
