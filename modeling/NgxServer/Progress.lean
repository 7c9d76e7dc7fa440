import Mathlib.Algebra.BigOperators.Group.List.Lemmas
import Mathlib.Data.Prod.Lex
import NgxServer.Lib.Halting
import NgxServer.Clients
import NgxServer.Service

/-!
# The process gets its work done

When no more comes from outside and the network takes what it is given, each
step of a worker, of the send thread or of the event loop brings the process
nearer to the end of its work, whatever the order of the steps. When none of
them can make a step, nothing is left to do for any client.
-/

namespace NgxServer.Progress

open NgxServer.Comm NgxServer.State NgxServer.ConnPool NgxServer.Socket NgxServer.Request
open NgxServer.Accept NgxServer.Logic NgxServer.System NgxServer.Frames NgxServer.PoolRefinement
open NgxServer.Occupancy NgxServer.SendMachine NgxServer.SendRefinement NgxServer.SendFraming
open NgxServer.Traffic NgxServer.Service
open NgxServer.Delivery (Packet packetBytes packets packets_congr packets_erase Smooth watchesOut)
open BlockHeap (Heap null)
open QuarantinePool (InService)

set_option autoImplicit false

def pendingBytes (part : SendPart) : Nat := if part.psendMemPointer = null then 0 else part.isendlen

def waitingBytes (state : SendState) : Nat :=
  ((packets state.sheap state.queue).map fun packet => (packetBytes packet).length).sum

def unsent (all : List ConnId) (state : SendState) : Nat :=
  waitingBytes state + (all.map fun c => pendingBytes (state.send c)).sum

def passSteps (state : SendState) : Nat :=
  match state.pc with
  | .semWait => 0
  | .woken => state.queue.length + 2
  | .pass pos => state.queue.length - pos + 1

inductive Drains (state : SendState) : SendState → Prop
  | wake (waits : state.pc = .semWait) (posted : state.sem > 0) : Drains state (state.wake false)
  | beginPass (woken : state.pc = .woken) : Drains state state.beginPass
  | endPass (pos : Nat) (iterator : state.pc = .pass pos) (finished : state.queue[pos]? = none) :
      Drains state { state with pc := .semWait }
  | skip (pos buf : Nat) (msg : MsgBuf) (here : Current state pos buf msg) :
      Drains state { state with pc := .pass (pos + 1) }
  | dropStale (pos buf : Nat) (msg : MsgBuf) (here : Current state pos buf msg) :
      Drains state (state.dropStale pos buf)
  | start (pos buf : Nat) (msg : MsgBuf) (progress : Progress) (armed : Bool)
      (here : Current state pos buf msg) (live : state.occ msg.hdr.pConn ≠ none)
      (free : (state.send msg.hdr.pConn).iThrowsendCount ≤ 0)
      (fits : progress.Fits (pkgLen msg.pkg)) (takes : 0 < progress.sendsize) :
      Drains state (state.start pos buf msg progress armed)
  | write (c : ConnId) (progress : Progress) (armed : Bool) (live : state.occ c ≠ none)
      (pending : (state.send c).psendMemPointer ≠ null)
      (fits : progress.Fits (state.send c).isendlen) (takes : 0 < progress.sendsize) :
      Drains state (state.write c progress armed)

section Sums

theorem sum_update {all : List ConnId} (distinct : all.Nodup) {c : ConnId} (listed : c ∈ all)
    (size : ConnId → Nat) (value : Nat) :
    (all.map (Function.update size c value)).sum + size c = (all.map size).sum + value := by
  induction all with
  | nil => cases listed
  | cons first rest ih =>
      obtain ⟨apart, others⟩ := List.nodup_cons.mp distinct
      rw [List.map_cons, List.map_cons, List.sum_cons, List.sum_cons]
      by_cases same : first = c
      · subst same
        have kept : rest.map (Function.update size first value) = rest.map size := by
          apply List.map_congr_left
          intro other member
          apply Function.update_of_ne
          rintro rfl
          exact apart member
        rw [Function.update_self, kept]
        omega
      · have later := ih others ((List.mem_cons.mp listed).resolve_left (Ne.symm same))
        rw [Function.update_of_ne same]
        omega

variable {state after : SendState} {all : List ConnId}

theorem pending_update (distinct : all.Nodup) {c : ConnId} (listed : c ∈ all) {part : SendPart}
    (send : after.send = Function.update state.send c part) :
    (all.map fun d => pendingBytes (after.send d)).sum + pendingBytes (state.send c) =
      (all.map fun d => pendingBytes (state.send d)).sum + pendingBytes part := by
  have changed : (fun d => pendingBytes (after.send d)) =
      Function.update (fun d => pendingBytes (state.send d)) c (pendingBytes part) := by
    funext d
    rw [send]
    by_cases same : d = c
    · rw [same, Function.update_self, Function.update_self]
    · rw [Function.update_of_ne same, Function.update_of_ne same]
  rw [changed]
  exact sum_update distinct listed (fun d => pendingBytes (state.send d)) (pendingBytes part)

theorem waiting_erased {pos buf : Nat} {msg : MsgBuf} (sound : SendSound state)
    (here : Current state pos buf msg) (queue : after.queue = state.queue.eraseIdx pos)
    (kept : ∀ other, other ≠ buf → after.sheap.block other = state.sheap.block other) :
    waitingBytes state = msg.pkg.length + waitingBytes after := by
  have same : packets after.sheap after.queue =
      packets state.sheap (state.queue.eraseIdx pos) := by
    rw [queue]
    exact packets_congr fun other member =>
      kept other (Delivery.slot_distinct sound here.current member)
  have erased := ((packets_erase here.current here.content).map
    fun packet => (packetBytes packet).length).sum_eq
  rw [List.map_cons, List.sum_cons, ← same] at erased
  exact erased

theorem waiting_same (queue : after.queue = state.queue)
    (kept : ∀ buf ∈ state.queue, after.sheap.block buf = state.sheap.block buf) :
    waitingBytes after = waitingBytes state := by
  rw [waitingBytes, queue, packets_congr kept]
  rfl

end Sums

/-- Less is unsent, or as much and the semaphore is lower, or that too and the
pass is nearer to its end. -/
def Nearer (all : List ConnId) (after state : SendState) : Prop :=
  unsent all after < unsent all state ∨
    unsent all after = unsent all state ∧
      (after.sem < state.sem ∨ after.sem = state.sem ∧ passSteps after < passSteps state)

section Moves

variable {state after : SendState} {all : List ConnId}

theorem started_less {buf : Nat} {msg : MsgBuf} {progress : Progress} (part : SendPart)
    (fits : progress.Fits (pkgLen msg.pkg)) (takes : 0 < progress.sendsize)
    (some : 0 < pkgLen msg.pkg) :
    pendingBytes (startedPart part buf msg progress) < pkgLen msg.pkg := by
  cases progress with
  | part count =>
      obtain ⟨least, below⟩ := fits
      have most : pendingBytes (startedPart part buf msg (.part count)) ≤
          pkgLen msg.pkg - count := by
        unfold pendingBytes
        split
        · exact Nat.zero_le _
        · exact Nat.le_refl _
      omega
  | blocked => exact absurd takes (by decide)
  | done sendsize => exact some

theorem written_less {part : SendPart} {progress : Progress}
    (pending : part.psendMemPointer ≠ null) (fits : progress.Fits part.isendlen)
    (takes : 0 < progress.sendsize) :
    pendingBytes (writtenPart part progress) < pendingBytes part := by
  have before : pendingBytes part = part.isendlen := if_neg pending
  rw [before]
  cases progress with
  | part count =>
      obtain ⟨least, below⟩ := fits
      have now : pendingBytes (writtenPart part (.part count)) = part.isendlen - count :=
        if_neg pending
      rw [now]
      omega
  | blocked => exact absurd takes (by decide)
  | done sendsize =>
      have now : pendingBytes (writtenPart part (.done sendsize)) = 0 := if_pos rfl
      simp only [Progress.sendsize] at takes
      rw [now]
      rcases fits with whole | failed <;> omega

/-- Each of these moves gets the send thread nearer to the end of its work. -/
theorem drains_nearer (sound : SendSound state) (framed : Framed state) (distinct : all.Nodup)
    (listed : ∀ c, state.occ c ≠ none → c ∈ all) (drains : Drains state after) :
    Nearer all after state := by
  cases drains with
  | wake waits posted =>
      refine Or.inr ⟨rfl, Or.inl ?_⟩
      simp only [SendState.wake, Bool.false_eq_true, if_false]
      omega
  | beginPass woken =>
      refine Or.inr ⟨rfl, Or.inr ⟨rfl, ?_⟩⟩
      have before : passSteps state = state.queue.length + 2 := by rw [passSteps, woken]
      rw [before]
      by_cases some : state.queueCount > 0
      · simp only [passSteps, SendState.beginPass, if_pos some]
        omega
      · simp only [passSteps, SendState.beginPass, if_neg some]
        omega
  | endPass pos iterator finished =>
      refine Or.inr ⟨rfl, Or.inr ⟨rfl, ?_⟩⟩
      have before : passSteps state = state.queue.length - pos + 1 := by rw [passSteps, iterator]
      rw [before]
      exact Nat.succ_pos _
  | skip pos buf msg here =>
      refine Or.inr ⟨rfl, Or.inr ⟨rfl, ?_⟩⟩
      have before : passSteps state = state.queue.length - pos + 1 := by
        rw [passSteps, here.iterator]
      have inside : pos < state.queue.length := (List.getElem?_eq_some_iff.mp here.current).1
      rw [before]
      simp only [passSteps]
      omega
  | dropStale pos buf msg here =>
      left
      have less : waitingBytes state =
          msg.pkg.length + waitingBytes (state.dropStale pos buf) :=
        waiting_erased sound here rfl fun other apart =>
          (BlockHeap.free_block _ _ _).trans (if_neg fun both => apart both.2)
      have size := (sound.sized buf msg here.content).2
      simp only [lenPkgHeader] at size
      have same : (all.map fun c => pendingBytes ((state.dropStale pos buf).send c)) =
          all.map fun c => pendingBytes (state.send c) := rfl
      simp only [unsent, same]
      omega
  | start pos buf msg progress armed here live free fits takes =>
      left
      obtain ⟨real, covers⟩ := sound.sized buf msg here.content
      simp only [lenPkgHeader] at covers
      have idle : (state.send msg.hdr.pConn).psendMemPointer = null := by
        rcases framed.steady msg.hdr.pConn live with ⟨-, idle⟩ | ⟨one, -⟩
        · exact idle
        · omega
      have none : pendingBytes (state.send msg.hdr.pConn) = 0 := if_pos idle
      have less : waitingBytes state =
          msg.pkg.length + waitingBytes (state.start pos buf msg progress armed) := by
        apply waiting_erased sound here (start_rest state pos buf msg progress armed).2.2.1
        intro other apart
        rw [start_sheap]
        exact free_ended_block _ _ apart
      have sums := pending_update distinct (listed msg.hdr.pConn live)
        (start_send state pos buf msg progress armed)
      have fewer : pendingBytes (startedPart (state.send msg.hdr.pConn) buf msg progress) <
          pkgLen msg.pkg := started_less _ fits takes (by omega)
      simp only [unsent]
      omega
  | write c progress armed live pending fits takes =>
      left
      have same : waitingBytes (state.write c progress armed) = waitingBytes state := by
        apply waiting_same (write_rest state c progress armed).2.2.1
        intro buf waits
        rw [write_sheap]
        exact free_ended_block _ _ (Delivery.slot_not_pending sound waits c)
      have sums := pending_update distinct (listed c live) (write_send state c progress armed)
      have fewer := written_less pending fits takes
      simp only [unsent]
      omega

end Moves

def desk (server : Server) : (ConnId → ReadHandler) × OccId :=
  (fun c => (server.conns c).rhandler, server.ghost.nextOcc)

def Attended (server : Server) : Prop :=
  ∀ c, server.ghost.occ c ≠ none → (server.conns c).rhandler = .ngxReadRequestHandler

section Desk

variable {cfg : Config} {server after : Server} {act : Act}

theorem desk_mod_conn (server : Server) (c : ConnId) (change : NgxConnection → NgxConnection)
    (kept : (change (server.conns c)).rhandler = (server.conns c).rhandler) :
    desk (server.modConn c change) = desk server :=
  Prod.ext (funext fun d => mod_conn_keeps NgxConnection.rhandler server c d change kept) rfl

theorem desk_of_send (same : forgetSend after = forgetSend server) : desk after = desk server := by
  have forgotten := congrArg desk same
  exact forgotten

theorem desk_of_recv (same : forgetRecv after = forgetRecv server) : desk after = desk server := by
  have forgotten := congrArg desk same
  exact forgotten

theorem desk_zd (cfg : Config) (server : Server) (c : ConnId) (now : Int) :
    desk (zdClosesocketProc cfg server c now) = desk server := by
  have forgotten := congrArg desk (forget_close_zd cfg server c now)
  exact forgotten

theorem desk_free_connection (server : Server) (c : ConnId) :
    desk (ngxFreeConnection server c) = desk server :=
  desk_mod_conn server c (fun q =>
    { q with
      iCurrsequence := q.iCurrsequence + 1
      recv.precvMemPointer := null
      send := { q.send with psendMemPointer := null, iThrowsendCount := 0 } }) rfl

theorem desk_event (cfg : Config) (server : Server) (c : ConnId) (revents : BitVec 32)
    (recv : RecvOutcome) (send : SendOutcome) (ctlOk : Bool) (junk : Nat → Byte) (nowMs : Nat)
    (now : Int) :
    desk (writeSide (readSide cfg server c revents recv junk nowMs now) c revents send ctlOk) =
      desk server := by
  have read : desk (readSide cfg server c revents recv junk nowMs now) = desk server := by
    unfold readSide
    split
    · obtain ⟨received, same, ends⟩ :=
        ngx_read_request_handler_frame cfg server c recv junk nowMs now
      rcases ends with open_ | closed
      · rw [open_, desk_of_recv same]
      · rw [closed, desk_zd, desk_of_recv same]
    · rfl
  exact (desk_of_send (forget_send_write_side _ c revents send ctlOk)).trans read

theorem desk_queue_reply (cfg : Config) (server : Server) (msg : MsgBuf) (now : Int) :
    desk (queueReply cfg server msg now) = desk server := by
  obtain ⟨sent, same, ends⟩ := queue_reply_frame cfg server msg now
  rcases ends with queued | ⟨-, closed⟩
  · rw [queued, desk_of_send same]
  · rw [closed, desk_zd, desk_of_send same]

theorem desk_process_message (cfg : Config) (server : Server) (jobbuf : Nat) (junk : Nat → Byte)
    (now : Int) : desk (processMessage cfg server jobbuf junk now) = desk server := by
  unfold processMessage
  split
  · rfl
  · split
    · rfl
    · unfold runHandler
      split
      · rfl
      · dsimp only
        rw [desk_queue_reply]
        split
        · exact desk_mod_conn _ _ _ rfl
        · rfl

theorem desk_ping_check (cfg : Config) (server : Server) (tmpmsg : Nat) (curTime now : Int) :
    desk (procPingTimeOutChecking cfg server tmpmsg curTime now) = desk server := by
  unfold procPingTimeOutChecking
  split
  · rfl
  case h_2 record found =>
    have kicked : desk (kickOverdue cfg server record curTime now) = desk server := by
      unfold kickOverdue
      split_ifs
      · exact desk_zd cfg (logKick server record) record.pConn now
      · rfl
      · rfl
    exact kicked

theorem desk_recy_pass (cfg : Config) (server : Server) (currtime gStopEvent : Int) :
    desk (serverRecyConnectionPass cfg server currtime gStopEvent) = desk server := by
  have looped : ∀ rounds state, desk (lblRRTD cfg currtime gStopEvent rounds state) =
      desk state := by
    intro rounds
    induction rounds with
    | zero => exact fun _ => rfl
    | succ rounds ih =>
        intro state
        unfold lblRRTD
        split
        · rfl
        case h_2 c found =>
          rw [ih]
          exact desk_free_connection _ c
  unfold serverRecyConnectionPass
  split
  · exact looped _ server
  · rfl

def LetsNobodyIn : Act → Prop
  | .epollInit _ _ | .accept _ _ _ _ _ => False
  | _ => True

theorem desk_step (nobody : LetsNobodyIn act) (taken : step cfg server act = some after) :
    desk after = desk server := by
  cases stepped_of_step taken with
  | epollInit | accept => exact nobody.elim
  | event c revents recv send ctlOk junk nowMs now =>
      exact desk_event cfg server c revents recv send ctlOk junk nowMs now
  | msgSend msg now => exact desk_queue_reply cfg server msg now
  | element outcome ctlOk pos pMsgBuf =>
      exact desk_of_send (forget_send_send_element server pos pMsgBuf outcome ctlOk)
  | process worker jobbuf junk now =>
      exact desk_process_message cfg server jobbuf junk now
  | monitorPop curTime =>
      have forgotten := congrArg desk (forget_monitor_pop cfg server curTime)
      exact forgotten
  | monitorCheck now tmpmsg rest =>
      exact desk_ping_check cfg { server with lsIdleList := rest } tmpmsg server.monitorTime now
  | recycle currtime => exact desk_recy_pass cfg server currtime 0
  | close c now => exact desk_zd cfg server c now
  | _ => rfl

theorem register_attended {newc : ConnId} (attended : ∀ c, c ≠ newc →
      server.ghost.occ c ≠ none → (server.conns c).rhandler = .ngxReadRequestHandler)
    (cfg : Config) (s : Int) (nonblockOk ctlOk : Bool) (now : Int) :
    Attended (registerConnection cfg server newc s nonblockOk ctlOk now) := by
  have closed : ∀ state : Server, (∀ c, c ≠ newc → (state.conns c).rhandler =
      (server.conns c).rhandler) → state.ghost.occ = server.ghost.occ →
      Attended (ngxCloseConnection state newc) := by
    intro state same occ c live
    have ended : (ngxCloseConnection state newc).ghost.occ =
        Function.update state.ghost.occ newc none := Clients.close_connection_occ state newc
    rw [ended] at live
    obtain ⟨other, before⟩ := live_elsewhere live
    have kept : ((ngxCloseConnection state newc).conns c).rhandler = (state.conns c).rhandler := by
      have shut := congrArg (fun server => (server.conns c).rhandler)
        (forget_close_close_if_open (ngxFreeConnection state newc) newc)
      exact Eq.trans shut (congrFun (congrArg Prod.fst (desk_free_connection state newc)) c)
    rw [kept, same c other]
    exact attended c other (occ ▸ before)
  have handled : ∀ c, ((server.modConn newc
      fun p => { p with rhandler := .ngxReadRequestHandler }).conns c).rhandler =
        if c = newc then .ngxReadRequestHandler else (server.conns c).rhandler := by
    intro c
    rw [mod_conn_conns]
    split <;> rfl
  have operated := forget_send_epoll_oper
    (server.modConn newc fun p => { p with rhandler := .ngxReadRequestHandler }) s .add
    (epollIn ||| epollRdhup) 0 newc ctlOk
  have readers := fun c => congrArg (fun server => (server.conns c).rhandler) operated
  have owners := congrArg (fun server => server.ghost.occ) operated
  unfold registerConnection
  split
  · exact closed server (fun _ _ => rfl) rfl
  · dsimp only
    split
    · apply closed
      · intro c other
        exact (readers c).trans ((handled c).trans (if_neg other))
      · exact owners
    · have registered : ∀ c, server.ghost.occ c ≠ none →
          ((ngxEpollOperEvent (server.modConn newc
            fun p => { p with rhandler := .ngxReadRequestHandler }) s .add
            (epollIn ||| epollRdhup) 0 newc ctlOk).1.conns c).rhandler =
              .ngxReadRequestHandler := by
        intro c live
        refine (readers c).trans ((handled c).trans ?_)
        by_cases same : c = newc
        · exact if_pos same
        · rw [if_neg same]
          exact attended c same live
      split
      · intro c live
        exact registered c (owners ▸ live)
      · intro c live
        exact registered c (owners ▸ live)

theorem accept_socket_attended (attended : Attended server) (cfg : Config) (s : Int)
    (nonblockOk ctlOk : Bool) (now : Int) :
    Attended (acceptSocket cfg server s nonblockOk ctlOk now) := by
  unfold acceptSocket
  split_ifs
  · exact attended
  · exact attended
  · obtain ⟨base, _, _, _, _, _, -, same⟩ := ngx_get_connection_frame server s now
    have ghost := Clients.get_connection_occ server s now
    have elsewhere : ∀ c, c ≠ (ngxGetConnection server s now).1 →
        (ngxGetConnection server s now).2.conns c = server.conns c := by
      intro c other
      rw [same]
      exact Function.update_of_ne other _ _
    dsimp only
    apply register_attended
    intro c other live
    have owner : (openOccupancy (ngxGetConnection server s now).2
        (ngxGetConnection server s now).1).ghost.occ c = server.ghost.occ c := by
      refine (Function.update_of_ne other _ _).trans ?_
      rw [ghost]
    have kept : (openOccupancy (ngxGetConnection server s now).2
        (ngxGetConnection server s now).1).conns c = server.conns c := elsewhere c other
    rw [kept]
    exact attended c (owner ▸ live)

theorem event_accept_attended (cfg : Config) (nonblockOk ctlOk : Bool) (now : Int)
    (outcomes : List AcceptOutcome) (server : Server) (attended : Attended server) :
    Attended (ngxEventAccept cfg server nonblockOk ctlOk now outcomes) := by
  induction outcomes generalizing server with
  | nil => exact attended
  | cons outcome rest ih =>
      unfold ngxEventAccept
      cases outcome with
      | ok s =>
          have opened : Attended (openSocket server s) := attended
          exact accept_socket_attended opened cfg s _ _ _
      | err code =>
          dsimp only
          split_ifs
          · exact attended
          · exact ih { server with useAccept4 := false } attended
          · exact attended

theorem attended_step (attributed : Attributed server) (sound : RecvOwnership.Sound server)
    (receiving : ByteStream.Receiving server) (disciplined : Disciplined server act)
    (attended : Attended server) (taken : step cfg server act = some after) :
    Attended after := by
  by_cases nobody : LetsNobodyIn act
  case pos =>
    have same := desk_step nobody taken
    intro c live
    obtain ⟨o, serves⟩ := Option.ne_none_iff_exists'.mp live
    have later := attributed_step attributed disciplined taken
    have started := (settled_stamps later.settled).owner_lt c o serves
    have next : after.ghost.nextOcc = server.ghost.nextOcc := congrArg Prod.snd same
    have handler : (after.conns c).rhandler = (server.conns c).rhandler :=
      congrFun (congrArg Prod.fst same) c
    rcases occupancy_origin attributed sound receiving disciplined taken serves with before | new
    · rw [handler]
      exact attended c (by rw [before]; exact Option.some_ne_none o)
    · have bound : o < after.ghost.nextOcc := started
      rw [next] at bound
      exact absurd bound (Nat.not_lt.mpr new)
  case neg =>
    cases stepped_of_step taken with
    | epollInit ctl now _ empty done =>
        have same := Clients.epoll_init_clients attributed empty done
        intro c live
        rw [same.owner] at live
        exact absurd (ByteStream.empty_unserved attributed empty c) live
    | accept oldc outcomes nonblockOk ctlOk now =>
        exact event_accept_attended cfg nonblockOk ctlOk now outcomes server attended
    | _ => exact absurd trivial nobody

end Desk

def Takes : SendOutcome → Bool
  | .sent count => decide (1 ≤ count)
  | .eintr next => Takes next
  | _ => false

/-- The steps of workers, of the send thread and of the event loop's write
handler while the network takes what it is given. -/
def OwnWork (server : Server) : Act → Prop
  | .take _ | .process _ _ _ | .release _ | .semWait false | .beginPass | .endPass => True
  | .element outcome ctlOk => Takes outcome = true ∧ ctlOk = true
  | .event c revents _ send ctlOk _ _ _ =>
      InService (poolView server) c ∧ revents = epollOut ∧
        watchesOut (server.kmask c) = true ∧ Takes send = true ∧ ctlOk = true
  | _ => False

theorem takes_normal {outcome : SendOutcome} (takes : Takes outcome = true) :
    Delivery.Normal outcome = true := by
  induction outcome with
  | sent count => exact takes
  | eintr next ih => exact ih takes
  | zero | eagain | error => cases takes

theorem takes_result {outcome : SendOutcome} (takes : Takes outcome = true) :
    0 < outcome.result := by
  induction outcome with
  | sent count =>
      have some := of_decide_eq_true takes
      simp only [SendOutcome.result]
      omega
  | eintr next ih => exact ih takes
  | zero | eagain | error => cases takes

theorem progress_takes {isendlen : Nat} {sendsize : Int} (takes : 0 < sendsize) :
    0 < (progressOf isendlen sendsize).sendsize := by
  unfold progressOf
  split_ifs with part full
  · simp only [Progress.sendsize]
    omega
  · omega
  · exact takes

section OwnWork

variable {cfg : Config} {server after : Server} {history : History} {act : Act}

theorem own_work_smooth (own : OwnWork server act) : OwnCalls Smooth server act := by
  cases act with
  | take | process | release | beginPass | endPass =>
      exact ⟨⟨trivial, trivial⟩, trivial⟩
  | semWait interrupted => exact ⟨⟨trivial, trivial⟩, trivial⟩
  | element outcome ctlOk => exact ⟨⟨trivial, takes_normal own.1, own.2⟩, trivial⟩
  | event c revents recv send ctlOk junk nowMs now =>
      obtain ⟨serves, rfl, watches, takes, registered⟩ := own
      exact ⟨⟨serves, fun _ => ⟨by decide, watches, takes_normal takes, registered⟩⟩, trivial⟩
  | epollInit | accept | msgSend | monitorPop | monitorCheck | recycle | close => exact own.elim

/-- An event that reports only `EPOLLOUT` is for the write handler. -/
theorem write_event (cfg : Config) (server : Server) (c : ConnId) (recv : RecvOutcome)
    (send : SendOutcome) (ctlOk : Bool) (junk : Nat → Byte) (nowMs : Nat) (now : Int) :
    writeSide (readSide cfg server c epollOut recv junk nowMs now) c epollOut send ctlOk =
      ngxWriteRequestHandler server c send ctlOk := by
  have deaf : hasFlag epollOut epollIn = false := by decide
  have out : hasFlag epollOut epollOut = true := by decide
  have plain : hasFlag epollOut (epollErr ||| epollHup ||| epollRdhup) = false := by decide
  rw [readSide, if_neg (by rw [deaf]; exact Bool.false_ne_true), writeSide, if_pos out,
    if_neg (by rw [plain]; exact Bool.false_ne_true)]

theorem send_element_drains (attributed : Attributed server) {pos pMsgBuf : Nat}
    (sound : SendSound (sendState server)) {outcome : SendOutcome} (ctlOk : Bool)
    (iterator : server.sendPc = .pass pos) (current : server.msgSendQueue[pos]? = some pMsgBuf)
    (possible : outcome.possible
      (((server.sheap.block pMsgBuf).map fun msg => pkgLen msg.pkg).getD 0) = true)
    (takes : Takes outcome = true) :
    Drains (sendState server) (sendState (sendElement server pos pMsgBuf outcome ctlOk)) := by
  obtain ⟨msg, content⟩ := Option.isSome_iff_exists.mp
    (sound.exclusive.live (.slot pos) pMsgBuf current)
  have live : server.sheap.block pMsgBuf = some msg := content
  have here : Current (sendState server) pos pMsgBuf msg := ⟨iterator, current, content⟩
  rw [live] at possible
  unfold sendElement
  rw [live]
  dsimp only
  split_ifs with stale busy
  · exact Drains.dropStale pos pMsgBuf msg here
  · exact Drains.skip pos pMsgBuf msg here
  · have stamped := attributed.replies msg.hdr ⟨pMsgBuf, msg, live, rfl⟩
    obtain ⟨owns, started⟩ := current_owner attributed.settled stamped (not_not.mp stale)
    have serving : server.ghost.occ msg.hdr.pConn ≠ none := by
      rw [owns]
      exact started
    have result := (sendsize_on_live attributed.settled serving outcome ctlOk).1
    rw [send_element_now_send_state, result]
    exact Drains.start pos pMsgBuf msg _ _ here serving (not_lt.mp busy)
      (progress_of_fits (result_le outcome possible)) (progress_takes (takes_result takes))

/-- A step that is not a worker's gets the send thread on. -/
theorem own_work_drains (attributed : Attributed server) (sound : SendSound (sendState server))
    (armed : Delivery.Armed (sendState server)) (own : OwnWork server act)
    (idle : ¬ Messages.OfWorker act) (taken : step cfg server act = some after) :
    Drains (sendState server) (sendState after) ∧ forgetSend after = forgetSend server := by
  cases stepped_of_step taken with
  | semWait interrupted waits wakes =>
      cases interrupted with
      | true => exact own.elim
      | false =>
          have posted : server.semEventSendQueue > 0 := wakes.resolve_left nofun
          exact ⟨Drains.wake waits posted, rfl⟩
  | beginPass woken => exact ⟨Drains.beginPass woken, rfl⟩
  | endPass pos iterator finished => exact ⟨Drains.endPass pos iterator finished, rfl⟩
  | element outcome ctlOk pos pMsgBuf iterator current possible =>
      exact ⟨send_element_drains attributed sound ctlOk iterator current possible own.1,
        forget_send_send_element server pos pMsgBuf outcome ctlOk⟩
  | event c revents recv send ctlOk junk nowMs now handler reported recvPossible sendPossible =>
      obtain ⟨serves, rfl, watches, takes, registered⟩ := own
      obtain ⟨live, pending⟩ := (armed c).mp watches
      have result := (sendsize_on_live attributed.settled live send ctlOk).1
      rw [write_event]
      refine ⟨?_, forget_send_write_handler server c send ctlOk⟩
      rw [ngx_write_request_handler_send_state, result]
      exact Drains.write c _ _ live pending (progress_of_fits (result_le send sendPossible))
        (progress_takes (takes_result takes))
  | take | process | release => exact absurd trivial idle
  | epollInit | accept | msgSend | monitorPop | monitorCheck | recycle | close => exact own.elim

end OwnWork

structure Running (cfg : Config) (server : Server) (history : History) : Prop where
  known : Known cfg server history
  sound : SendSound (sendState server)
  delivering : Delivery.Delivering (sendState server)
  attended : Attended server

theorem logged_attended {cfg : Config} {server : Server} {history : History}
    (logged : Logged cfg Disciplined server history) : Attended server := by
  induction logged with
  | start server fresh =>
      obtain ⟨listenFds, -, -, rfl⟩ := fresh
      intro c live
      exact absurd rfl live
  | step act before disciplined taken ih =>
      have known := logged_known before
      exact attended_step known.attributed known.sound known.receiving disciplined ih taken

theorem logged_running {cfg : Config} {server : Server} {history : History}
    (logged : Logged cfg (OwnCalls Smooth) server history) : Running cfg server history := by
  have smooth : Logged cfg Smooth server history := logged_mono (fun _ _ => And.left) logged
  have disciplined : Logged cfg Disciplined server history :=
    logged_mono (fun _ _ => And.left) smooth
  obtain ⟨-, sound, delivering⟩ := reachable_send_state Delivery.fresh_delivering
    Delivery.delivering_move (fun _ _ smooth => smooth.1) (fun _ _ => Delivery.smooth_permits)
    (logged_reachable smooth)
  exact ⟨logged_known disciplined, sound, delivering, logged_attended disciplined⟩

/-- What the process has still to do: moves of messages, bytes, wake-ups, elements
of a pass. -/
def remaining (state : Server × History) : Nat ×ₗ Nat ×ₗ Nat ×ₗ Nat :=
  toLex (WorkQueue.undone (work state.1 state.2),
    toLex (unsent state.1.connectionList (sendState state.1),
      toLex (state.1.semEventSendQueue, passSteps (sendState state.1))))

def Works (cfg : Config) (before after : Server × History) : Prop :=
  ∃ act, OwnWork before.1 act ∧ step cfg before.1 act = some after.1 ∧
    after.2 = before.2.note before.1 act after.1

section Works

variable {cfg : Config} {server after : Server} {history : History} {act : Act}

/-- The send thread and the write handler leave the queue of work alone. -/
theorem undone_of_send (history : History) (same : forgetSend after = forgetSend server)
    (idle : ¬ Messages.OfWorker act) :
    WorkQueue.undone (work after (history.note server act after)) =
      WorkQueue.undone (work server history) := by
  have queue : after.msgRecvQueue = server.msgRecvQueue := by
    have forgotten := congrArg Server.msgRecvQueue same
    exact forgotten
  have offered : offers server after = [] := offers_none (congrArg List.length queue).le
  have takesNone : takes server act = [] := by
    cases act <;> first | rfl | exact absurd trivial idle
  have servesNone : serves server act = [] := by
    cases act <;> first | rfl | exact absurd trivial idle
  have freesNone : frees server act = [] := by
    cases act <;> first | rfl | exact absurd trivial idle
  simp only [WorkQueue.undone, work, History.note, offered, takesNone, servesNone, freesNone,
    List.append_nil]

/-- Each step brings the process nearer to the end of its work. -/
theorem own_work_remaining (running : Running cfg server history) (own : OwnWork server act)
    (taken : step cfg server act = some after) :
    remaining (after, history.note server act after) < remaining (server, history) := by
  have known := running.known
  by_cases working : Messages.OfWorker act
  · obtain ⟨move, none⟩ : WorkQueue.Move (work server history)
        (work after (history.note server act after)) ∧ offers server after = [] :=
      worker_move known.sound.owned working taken
    have same : (work after (history.note server act after)).offered =
        (work server history).offered := by
      simp only [work, History.note, none, List.append_nil]
    exact Prod.Lex.toLex_lt_toLex.mpr (Or.inl (WorkQueue.undone_move known.fair move same))
  · obtain ⟨drains, same⟩ := own_work_drains known.attributed running.sound
      running.delivering.armed own working taken
    have all : after.connectionList = server.connectionList := by
      have forgotten := congrArg Server.connectionList same
      exact forgotten
    have undone := undone_of_send history same working
    have settled := known.attributed.settled
    have listed : ∀ c, server.ghost.occ c ≠ none → c ∈ server.connectionList :=
      fun c live => (owner_in_service settled live).1
    have nearer := drains_nearer running.sound running.delivering.framed
      settled.places.all_nodup listed drains
    simp only [remaining, Prod.Lex.toLex_lt_toLex, undone, all, lt_irrefl, false_or, true_and]
    exact nearer

theorem works_fall (cfg : Config) : Halting.Falls (Works cfg)
    (fun state => Logged cfg (OwnCalls Smooth) state.1 state.2) remaining := by
  constructor
  case kept =>
    intro before after logged works
    obtain ⟨act, own, taken, noted⟩ := works
    rw [noted]
    exact Logged.step act logged (own_work_smooth own) taken
  case less =>
    intro before after logged works
    obtain ⟨act, own, taken, noted⟩ := works
    have nearer := own_work_remaining (logged_running logged) own taken
    rw [← noted] at nearer
    exact nearer

def Stuck (cfg : Config) (server : Server) : Prop :=
  ∀ act, OwnWork server act → step cfg server act = none

theorem stuck_of_works (ended : ∀ next, ¬ Works cfg (server, history) next) : Stuck cfg server := by
  intro act own
  by_contra possible
  obtain ⟨after, taken⟩ := Option.ne_none_iff_exists'.mp possible
  exact ended (after, history.note server act after) ⟨act, own, taken, rfl⟩

/-- The send thread stands at `sem_wait`, and the semaphore is zero. -/
theorem stuck_asleep (sound : SendSound (sendState server)) (stuck : Stuck cfg server) :
    server.sendPc = .semWait ∧ server.semEventSendQueue = 0 := by
  cases pc : server.sendPc with
  | semWait =>
      refine ⟨rfl, ?_⟩
      by_contra some
      have idle := stuck (.semWait false) trivial
      have wakes : server.sendPc = .semWait ∧ (false = true ∨ server.semEventSendQueue > 0) :=
        ⟨pc, Or.inr (Nat.pos_of_ne_zero some)⟩
      simp only [step, if_pos wakes] at idle
      cases idle
  | woken =>
      have idle := stuck .beginPass trivial
      simp only [step, if_pos pc] at idle
      cases idle
  | pass pos =>
      cases current : server.msgSendQueue[pos]? with
      | none =>
          have idle := stuck .endPass trivial
          have passing : inPass server = true := by rw [inPass, pc]
          have ended : elementAt server = none := by
            rw [elementAt, pc]
            dsimp only
            rw [current]
            rfl
          simp only [step, if_pos (And.intro passing ended)] at idle
          cases idle
      | some buf =>
          obtain ⟨msg, live⟩ := Option.isSome_iff_exists.mp
            (sound.exclusive.live (.slot pos) buf current)
          have content : server.sheap.block buf = some msg := live
          obtain ⟨real, covers⟩ := sound.sized buf msg live
          simp only [lenPkgHeader] at covers
          have takes : 1 ≤ pkgLen msg.pkg := by omega
          have idle := stuck (.element (.sent (pkgLen msg.pkg)) true) ⟨decide_eq_true takes, rfl⟩
          have here : elementAt server = some (pos, buf) := by
            rw [elementAt, pc]
            dsimp only
            rw [current]
            rfl
          have possible : SendOutcome.possible (pkgLen msg.pkg) (.sent (pkgLen msg.pkg)) = true :=
            decide_eq_true ⟨takes, Nat.le_refl _⟩
          simp only [step, here, content, Option.map_some, Option.getD_some,
            if_pos possible] at idle
          cases idle

theorem stuck_workers (stuck : Stuck cfg server) (asleep : server.sendPc = .semWait) :
    (∀ worker, server.workers worker = .idle) ∧ server.msgRecvQueue = [] := by
  have outside : inPass server = false := by rw [inPass, asleep]
  have idle : ∀ worker, server.workers worker = .idle := by
    intro worker
    cases state : server.workers worker with
    | idle => rfl
    | taken jobbuf =>
        have waits := stuck (.process worker (fun _ => 0) 0) trivial
        have unlocked : ¬(inPass server = true ∧ processReplies server jobbuf (fun _ => 0) = true) :=
          fun both => Bool.false_ne_true (outside.symm.trans both.1)
        simp only [step, state, if_neg unlocked] at waits
        cases waits
    | processed jobbuf =>
        have waits := stuck (.release worker) trivial
        simp only [step, state] at waits
        cases waits
  refine ⟨idle, ?_⟩
  cases queue : server.msgRecvQueue with
  | nil => rfl
  | cons jobbuf rest =>
      have waits := stuck (.take 0) trivial
      simp only [step, idle 0, queue] at waits
      cases waits

theorem stuck_idle (running : Running cfg server history) (stuck : Stuck cfg server) {c : ConnId}
    (live : server.ghost.occ c ≠ none) : (server.conns c).send.psendMemPointer = null := by
  by_contra pending
  have watches : watchesOut (server.kmask c) = true :=
    (running.delivering.armed c).mpr ⟨live, pending⟩
  obtain ⟨msg, -, -, -, -, takes, -⟩ := whole_part_iff.mp (running.sound.whole c pending)
  have idle := stuck (.event c epollOut .again (.sent (server.conns c).send.isendlen) true
    (fun _ => 0) 0 0)
    ⟨owner_in_service running.known.attributed.settled live, rfl, watches,
      decide_eq_true takes, rfl⟩
  have reported : eventPossible server c epollOut = true := by
    unfold eventPossible
    cases mask : server.kmask c with
    | none => rfl
    | some found =>
        rw [mask] at watches
        have out : hasFlag found epollOut = true := watches
        dsimp only
        rw [out, Bool.or_true]
  have sends : SendOutcome.possible (server.conns c).send.isendlen
      (.sent (server.conns c).send.isendlen) = true := decide_eq_true ⟨takes, Nat.le_refl _⟩
  have possible : (server.conns c).rhandler = .ngxReadRequestHandler ∧
      eventPossible server c epollOut = true ∧
      RecvOutcome.possible (server.conns c).fd (server.conns c).recv.irecvlen .again = true ∧
      SendOutcome.possible (server.conns c).send.isendlen
        (.sent (server.conns c).send.isendlen) = true :=
    ⟨running.attended c live, reported, rfl, sends⟩
  rw [step, if_pos possible] at idle
  cases idle

/-- A process that can make no step of its own has nothing left to do. -/
theorem stuck_at_rest (running : Running cfg server history) (stuck : Stuck cfg server)
    {c : ConnId} {o : OccId} (serves : server.ghost.occ c = some o) :
    AtRest server history c o := by
  obtain ⟨asleep, none⟩ := stuck_asleep running.sound stuck
  obtain ⟨idle, queue⟩ := stuck_workers stuck asleep
  have live : server.ghost.occ c ≠ Option.none := by
    rw [serves]
    exact Option.some_ne_none o
  have free := stuck_idle running stuck live
  have fair := running.known.fair
  constructor
  case processed =>
    intro packet offered _
    have order : history.offered = history.taken.map Prod.snd ++
        packets server.rheap server.msgRecvQueue := fair.order
    rw [order, queue] at offered
    have took : packet ∈ history.taken.map Prod.snd := by simpa [packets] using offered
    by_contra waits
    obtain ⟨worker, hand⟩ := (WorkQueue.fair_unprocessed fair).mp ⟨took, waits⟩
    have empty : (work server history).hand worker = Option.none := by
      simp only [work, idle worker, handOf]
    rw [empty] at hand
    cases hand
  case sent =>
    intro buf waits msg content stamped
    obtain ⟨index, here⟩ := List.mem_iff_getElem?.mp waits
    have once := Delivery.delivered_once running.sound running.delivering serves
    rcases once.attended index buf msg here content stamped free with posted | woken | ⟨pos, -, pass⟩
    · omega
    · rw [asleep] at woken
      cases woken
    · rw [asleep] at pass
      cases pass
  case idle => exact free

theorem own_work_stream (own : OwnWork server act) (o : OccId) :
    (history.note server act after).stream o = history.stream o := by
  have nothing : arrives server act o = [] := by
    cases act with
    | event c revents recv send ctlOk junk nowMs now =>
        obtain ⟨-, rfl, -⟩ := own
        have deaf : hasFlag epollOut epollIn = false := by decide
        have silent : ByteStream.received c (.event c epollOut recv send ctlOk junk nowMs now) =
            [] := by
          cases recv with
          | data bytes => exact if_neg fun both => by rw [deaf] at both; cases both.2
          | closed | again | error => rfl
        rw [arrives, silent]
        exact ite_self []
    | _ => rfl
  exact (congrArg (history.stream o ++ ·) nothing).trans (List.append_nil _)

theorem works_stream {last : Server × History}
    (works : Relation.ReflTransGen (Works cfg) (server, history) last) (o : OccId) :
    last.2.stream o = history.stream o := by
  induction works with
  | refl => rfl
  | tail _ more ih =>
      obtain ⟨act, own, taken, noted⟩ := more
      rw [noted, own_work_stream own, ih]

end Works

/-- When no more comes from outside and the network takes what it is given, the
process's own steps come to an end, in whatever order they are made. Where they
end nothing is left to do for any client. -/
theorem work_gets_done (cfg : Config) {server : Server} {history : History}
    (logged : Logged cfg (OwnCalls Smooth) server history) :
    (∀ states : Nat → Server × History, states 0 = (server, history) →
        ∃ count, ¬ Works cfg (states count) (states (count + 1))) ∧
      (∃ last, Relation.ReflTransGen (Works cfg) (server, history) last ∧
        ∀ next, ¬ Works cfg last next) ∧
      ∀ last, Relation.ReflTransGen (Works cfg) (server, history) last →
        (∀ next, ¬ Works cfg last next) → last.2.stream = history.stream ∧
          ∀ c o, last.1.ghost.occ c = some o → AtRest last.1 last.2 c o := by
  have falls := works_fall cfg
  refine ⟨?_, falls.exists_last logged, ?_⟩
  · intro states starts
    apply falls.ends
    rw [starts]
    exact logged
  · intro last works ended
    have running := logged_running (falls.steps_kept logged works)
    exact ⟨funext (works_stream works), fun c o serves =>
      stuck_at_rest running (stuck_of_works ended) serves⟩

/-- A process that has received a heartbeat, which is still in the queue. -/
theorem work_gets_done_sample :
    ∃ (server : Server) (history : History) (last : Server × History),
      server.msgRecvQueue = [1] ∧
        Relation.ReflTransGen (Works ByteStream.unflooded) (server, history) last ∧
        last.2.stream 0 = encodeHeader 8 0 0 ∧
        ∀ c o, last.1.ghost.occ c = some o → AtRest last.1 last.2 c o := by
  have seen : (logRun ByteStream.unflooded (OwnCalls Smooth) atStart (heartbeatRun.take 3)).map
      (fun state => (state.1.msgRecvQueue, state.2.stream 0)) =
        some ([1], encodeHeader 8 0 0) := by
    decide
  obtain ⟨server, history, logged, same⟩ := logged_of_seen seen
  simp only [Prod.mk.injEq] at same
  obtain ⟨-, ⟨last, works, ended⟩, finished⟩ := work_gets_done ByteStream.unflooded logged
  obtain ⟨stream, rest⟩ := finished last works ended
  exact ⟨server, history, last, same.1, works, by rw [stream, same.2], rest⟩

end NgxServer.Progress
