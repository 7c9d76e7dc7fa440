import NgxServer.Lib.Sweep
import NgxServer.Session

/-!
# The recycler

A pass of `ServerRecyConnectionThread` starts its search over after every
connection it releases. It releases exactly those that have waited long enough,
so a connection that is closed is not issued again before its wait is over.
-/

namespace NgxServer.Recycler

open NgxServer.Comm NgxServer.State NgxServer.ConnPool NgxServer.TimerQueue NgxServer.Socket
open NgxServer.Accept NgxServer.Logic NgxServer.System NgxServer.Frames NgxServer.PoolRefinement
open NgxServer.Occupancy NgxServer.Session
open BlockHeap (null)
open QuarantinePool (Pool InService)

set_option autoImplicit false

/-- The loop at `lblRRTD` as the source has it, without a bound. -/
abbrev RecyLoop (cfg : Config) (currtime gStopEvent : Int) : Server → Server → Prop :=
  Sweep.Loop Server.recyconnectionList
    (fun server => recyDue cfg server currtime gStopEvent) releaseConnection

theorem lbl_rrtd_eq_sweep (cfg : Config) (currtime gStopEvent : Int) (rounds : Nat)
    (server : Server) :
    lblRRTD cfg currtime gStopEvent rounds server =
      Sweep.sweep Server.recyconnectionList
        (fun state => recyDue cfg state currtime gStopEvent) releaseConnection rounds server := by
  induction rounds generalizing server with
  | zero => rfl
  | succ rounds ih =>
      unfold lblRRTD Sweep.sweep
      cases server.recyconnectionList.find? (recyDue cfg server currtime gStopEvent) with
      | none => rfl
      | some c => exact ih (releaseConnection server c)

theorem release_conns (server : Server) (c d : ConnId) :
    (releaseConnection server c).conns d =
      if d = c then
        { server.conns c with
          iCurrsequence := (server.conns c).iCurrsequence + 1
          recv.precvMemPointer := null
          send := { (server.conns c).send with psendMemPointer := null, iThrowsendCount := 0 } }
      else server.conns d := by
  simp only [releaseConnection, ngxFreeConnection, putOneToFree, mod_conn_conns]

theorem release_in_recy_time (server : Server) (c d : ConnId) :
    ((releaseConnection server c).conns d).inRecyTime = (server.conns d).inRecyTime := by
  rw [release_conns]
  split
  case isTrue same => rw [same]
  case isFalse => rfl

theorem release_due (cfg : Config) (server : Server) (currtime gStopEvent : Int) (c d : ConnId) :
    recyDue cfg (releaseConnection server c) currtime gStopEvent d =
      recyDue cfg server currtime gStopEvent d := by
  rw [recyDue, recyDue, release_in_recy_time]

/-- Releasing a connection does not change who else has waited long enough. -/
theorem release_rules (cfg : Config) (currtime gStopEvent : Int) :
    Sweep.Rules Server.recyconnectionList
      (fun server => recyDue cfg server currtime gStopEvent) releaseConnection fun _ => True where
  shortens := fun _ _ _ _ _ => rfl
  keeps := fun _ _ _ _ _ => trivial
  stable := fun server c _ _ _ d _ => release_due cfg server currtime gStopEvent c d

def pending (buffer : ConnId → Nat) (moved : List ConnId) : List Nat :=
  (moved.map buffer).filter fun address => decide (address ≠ null)

theorem free_frees {Block : Type} (heap : BlockHeap.Heap Block) (address : Nat) :
    (BlockHeap.free heap address).frees =
      (if address = null then [] else [address]) ++ heap.frees := by
  unfold BlockHeap.free
  split <;> rfl

theorem pending_cons (buffer : ConnId → Nat) (c : ConnId) (rest : List ConnId) :
    pending buffer (c :: rest) =
      (if buffer c = null then [] else [buffer c]) ++ pending buffer rest := by
  rw [pending, List.map_cons, List.filter_cons]
  by_cases none : buffer c = null
  · simp [none, pending]
  · simp [none, pending]

structure Released (before : Server) (moved : List ConnId) (after : Server) : Prop where
  freed : after.freeconnectionList = before.freeconnectionList ++ moved
  waiting : after.totolRecyconnectionN = before.totolRecyconnectionN - moved.length
  spare : after.freeConnectionN = before.freeConnectionN + moved.length
  /-- the pending buffers of each are freed, once -/
  recvBuffers : moved.Nodup → after.rheap.frees =
    (pending (fun c => (before.conns c).recv.precvMemPointer) moved).reverse ++ before.rheap.frees
  sendBuffers : moved.Nodup → after.sheap.frees =
    (pending (fun c => (before.conns c).send.psendMemPointer) moved).reverse ++ before.sheap.frees
  /-- the other connections, and what has been issued, stay as they are -/
  others : ∀ c, c ∉ moved → after.conns c = before.conns c ∧
    after.ghost.occ c = before.ghost.occ c
  issued : after.ghost.nextOcc = before.ghost.nextOcc ∧
    after.ghost.stampOf = before.ghost.stampOf

theorem released_foldl (moved : List ConnId) (server : Server) :
    Released server moved (moved.foldl releaseConnection server) := by
  induction moved generalizing server with
  | nil =>
      exact ⟨(List.append_nil _).symm, (Int.sub_zero _).symm, (Int.add_zero _).symm,
        fun _ => rfl, fun _ => rfl, fun _ _ => ⟨rfl, rfl⟩, rfl, rfl⟩
  | cons c rest ih =>
      obtain ⟨freed, waiting, spare, recvBuffers, sendBuffers, others, issued⟩ :=
        ih (releaseConnection server c)
      have freedOne : (releaseConnection server c).freeconnectionList =
          server.freeconnectionList ++ [c] := rfl
      have waitingOne : (releaseConnection server c).totolRecyconnectionN =
          server.totolRecyconnectionN - 1 := rfl
      have spareOne : (releaseConnection server c).freeConnectionN =
          server.freeConnectionN + 1 := rfl
      have apart : ∀ (Value : Type) (view : NgxConnection → Value), (c :: rest).Nodup →
          ∀ d ∈ rest, view ((releaseConnection server c).conns d) = view (server.conns d) := by
        intro Value view distinct d member
        rw [release_conns, if_neg]
        rintro rfl
        exact (List.nodup_cons.mp distinct).1 member
      rw [List.foldl_cons]
      refine ⟨?_, ?_, ?_, fun distinct => ?_, fun distinct => ?_, fun d absent => ?_, issued⟩
      · rw [freed, freedOne, List.append_assoc]
        rfl
      · rw [waiting, waitingOne, List.length_cons]
        omega
      · rw [spare, spareOne, List.length_cons]
        omega
      · have one : (releaseConnection server c).rheap =
            BlockHeap.free server.rheap (server.conns c).recv.precvMemPointer := rfl
        have others : pending (fun d => ((releaseConnection server c).conns d).recv.precvMemPointer)
            rest = pending (fun d => (server.conns d).recv.precvMemPointer) rest := by
          rw [pending, pending, List.map_congr_left (apart Nat (fun p => p.recv.precvMemPointer)
            distinct)]
        rw [recvBuffers (List.nodup_cons.mp distinct).2, others, one, free_frees, pending_cons,
          List.reverse_append]
        split <;> simp
      · have one : (releaseConnection server c).sheap =
            BlockHeap.free server.sheap (server.conns c).send.psendMemPointer := rfl
        have others : pending (fun d => ((releaseConnection server c).conns d).send.psendMemPointer)
            rest = pending (fun d => (server.conns d).send.psendMemPointer) rest := by
          rw [pending, pending, List.map_congr_left (apart Nat (fun p => p.send.psendMemPointer)
            distinct)]
        rw [sendBuffers (List.nodup_cons.mp distinct).2, others, one, free_frees, pending_cons,
          List.reverse_append]
        split <;> simp
      · obtain ⟨different, absentRest⟩ := not_or.mp (List.mem_cons.not.mp absent)
        obtain ⟨conns, occ⟩ := others d absentRest
        have owner : (releaseConnection server c).ghost.occ d = server.ghost.occ d :=
          Function.update_of_ne different _ _
        rw [conns, occ, release_conns, if_neg different, owner]
        exact ⟨rfl, rfl⟩

/-- Whether a pass releases a connection: its wait is over, or the process is
stopping. -/
def Over (cfg : Config) (server : Server) (currtime gStopEvent : Int) (c : ConnId) : Prop :=
  gStopEvent ≠ 0 ∨ (server.conns c).inRecyTime + cfg.recyConnectionWaitTime ≤ currtime

instance (cfg : Config) (server : Server) (currtime gStopEvent : Int) (c : ConnId) :
    Decidable (Over cfg server currtime gStopEvent c) :=
  inferInstanceAs (Decidable (_ ∨ _))

theorem recy_due_over (cfg : Config) (server : Server) (currtime gStopEvent : Int) (c : ConnId) :
    recyDue cfg server currtime gStopEvent c = decide (Over cfg server currtime gStopEvent c) := by
  rw [recyDue, ← Bool.decide_and, ← decide_not, decide_eq_decide, Over]
  omega

/-- What a pass does: those that are due go to the free list, in their order,
and the others stay in theirs. -/
structure PassExact (cfg : Config) (currtime gStopEvent : Int) (before after : Server) :
    Prop where
  released : Released before
    (before.recyconnectionList.filter fun c => decide (Over cfg before currtime gStopEvent c)) after
  left : after.recyconnectionList =
    before.recyconnectionList.filter fun c => !decide (Over cfg before currtime gStopEvent c)

theorem pass_exact (cfg : Config) (server : Server) (currtime gStopEvent : Int) :
    RecyLoop cfg currtime gStopEvent server
        (lblRRTD cfg currtime gStopEvent server.recyconnectionList.length server) ∧
      PassExact cfg currtime gStopEvent server
        (lblRRTD cfg currtime gStopEvent server.recyconnectionList.length server) := by
  have rules := release_rules cfg currtime gStopEvent
  have due : (fun c => recyDue cfg server currtime gStopEvent c) =
      fun c => decide (Over cfg server currtime gStopEvent c) :=
    funext (recy_due_over cfg server currtime gStopEvent)
  rw [lbl_rrtd_eq_sweep]
  refine ⟨Sweep.loop_sweep rules _ server trivial le_rfl, ?_, ?_⟩
  · rw [Sweep.sweep_eq_foldl rules _ server trivial le_rfl, ← due]
    exact released_foldl _ server
  · rw [(Sweep.sweep_items rules _ server trivial le_rfl).2.1]
    exact List.filter_congr fun c _ => by rw [recy_due_over]

theorem drop_throwsend_keeps (server : Server) (c d : ConnId) :
    ((dropThrowsend server c).conns d).inRecyTime = (server.conns d).inRecyTime ∧
      (dropThrowsend server c).recyconnectionList = server.recyconnectionList := by
  unfold dropThrowsend
  split
  · exact ⟨mod_conn_keeps NgxConnection.inRecyTime server c d _ rfl, rfl⟩
  · exact ⟨rfl, rfl⟩

theorem close_if_open_keeps (server : Server) (c d : ConnId) :
    ((closeIfOpen server c).conns d).inRecyTime = (server.conns d).inRecyTime ∧
      (closeIfOpen server c).recyconnectionList = server.recyconnectionList := by
  unfold closeIfOpen
  split
  · exact ⟨mod_conn_keeps NgxConnection.inRecyTime (server.closeFd (server.conns c).fd) c d
      (fun p => { p with fd := -1 }) rfl, rfl⟩
  · exact ⟨rfl, rfl⟩

theorem in_recy_queue_time (server : Server) (c : ConnId) (now : Int) (d : ConnId) :
    ((inRecyConnectQueue server c now).conns d).inRecyTime =
      if d = c ∧ c ∉ server.recyconnectionList then now else (server.conns d).inRecyTime := by
  have noted := mod_conn_conns server c d
    fun p => { p with inRecyTime := now, iCurrsequence := p.iCurrsequence + 1 }
  unfold inRecyConnectQueue
  split
  case isTrue waits => rw [if_neg (fun both => both.2 waits)]
  case isFalse absent =>
    dsimp only
    rw [noted]
    by_cases same : d = c
    · rw [if_pos same, if_pos ⟨same, absent⟩]
    · rw [if_neg same, if_neg (fun both => same both.1)]

theorem zd_in_recy_time (cfg : Config) (server : Server) (c : ConnId) (now : Int) (d : ConnId) :
    ((zdClosesocketProc cfg server c now).conns d).inRecyTime =
      if d = c ∧ c ∉ server.recyconnectionList then now else (server.conns d).inRecyTime := by
  have untimed : forgetTimers (if cfg.ifkickTimeCount = 1 then deleteFromTimerQueue server c
      else server) = forgetTimers server := by
    split
    · exact forget_timers_delete server c
    · rfl
  have conns := congrArg Server.conns untimed
  have list := congrArg Server.recyconnectionList untimed
  unfold zdClosesocketProc
  dsimp only
  generalize (if cfg.ifkickTimeCount = 1 then deleteFromTimerQueue server c else server) =
    quiet at conns list
  have start : (quiet.conns d).inRecyTime = (server.conns d).inRecyTime :=
    congrArg NgxConnection.inRecyTime (congrFun conns d)
  have startList : quiet.recyconnectionList = server.recyconnectionList := list
  obtain ⟨dropped, droppedList⟩ := drop_throwsend_keeps (endOccupancy (closeIfOpen quiet c) c) c d
  obtain ⟨shut, shutList⟩ := close_if_open_keeps quiet c d
  rw [in_recy_queue_time, droppedList.trans (shutList.trans startList),
    dropped.trans (shut.trans start)]

structure ClosedAt (before after : Server) (c : ConnId) (now : Int) : Prop where
  serves : InService (poolView before) c
  pool : poolView after = QuarantinePool.retire (poolView before) c
  times : ∀ d, (after.conns d).inRecyTime =
    if d = c ∧ c ∉ before.recyconnectionList then now else (before.conns d).inRecyTime

def PoolKept (before after : Server) : Prop :=
  poolView after = poolView before ∧
    ∀ d, (after.conns d).inRecyTime = (before.conns d).inRecyTime

theorem pool_kept_of_session {before after : Server} (same : session after = session before) :
    PoolKept before after :=
  ⟨congrArg View.pool same, fun d => congrFun (congrArg View.inRecyTime same) d⟩

theorem closed_at_of_kept {before middle after : Server} {c : ConnId} {now : Int}
    (kept : PoolKept before middle) (closed : ClosedAt middle after c now) :
    ClosedAt before after c now := by
  have list : middle.recyconnectionList = before.recyconnectionList :=
    congrArg Pool.quarantine kept.1
  refine ⟨kept.1 ▸ closed.serves, by rw [closed.pool, kept.1], fun d => ?_⟩
  rw [closed.times, list, kept.2]

theorem closed_at_zd (cfg : Config) {server : Server} {c : ConnId}
    (serves : InService (poolView server) c) (now : Int) :
    ClosedAt server (zdClosesocketProc cfg server c now) c now :=
  ⟨serves, zd_closesocket_proc_view cfg server c now, zd_in_recy_time cfg server c now⟩

theorem works_closes {cfg : Config} {now : Int} {before after : Server}
    (works : Works cfg now before after) :
    PoolKept before after ∨ ∃ c, ClosedAt before after c now := by
  obtain ⟨marked, marks, ends⟩ := works
  have early : PoolKept before marked := by
    rcases marks with same | ⟨c, -, pinged⟩
    · exact pool_kept_of_session same
    · have noted : PoolKept before (notePing before c now) :=
        ⟨pool_view_mod_conn before c _ rfl rfl,
          fun d => mod_conn_keeps NgxConnection.inRecyTime before c d _ rfl⟩
      obtain ⟨pool, times⟩ := pool_kept_of_session pinged
      exact ⟨pool.trans noted.1, fun d => (times d).trans (noted.2 d)⟩
  rcases ends with same | ⟨c, middle, serves, same, closed⟩
  · obtain ⟨pool, times⟩ := pool_kept_of_session same
    exact Or.inl ⟨pool.trans early.1, fun d => (times d).trans (early.2 d)⟩
  · have middleKept := pool_kept_of_session same
    obtain ⟨pool, times⟩ := pool_kept_of_session closed
    have shut := closed_at_zd cfg (middleKept.1.symm ▸ serves) now
    refine Or.inr ⟨c, closed_at_of_kept early (closed_at_of_kept middleKept ?_)⟩
    exact ⟨shut.serves, pool.trans shut.pool, fun d => (times d).trans (shut.times d)⟩

theorem ping_check_closes {cfg : Config} {server : Server} (attributed : Attributed server)
    {tmpmsg : Nat} (rest : List Nat) (curTime now : Int) :
    PoolKept server
        (procPingTimeOutChecking cfg { server with lsIdleList := rest } tmpmsg curTime now) ∨
      ∃ c, ClosedAt server
        (procPingTimeOutChecking cfg { server with lsIdleList := rest } tmpmsg curTime now) c
          now := by
  have popped : PoolKept server { server with lsIdleList := rest } := ⟨rfl, fun _ => rfl⟩
  unfold procPingTimeOutChecking
  split
  · exact Or.inl popped
  case h_2 record found =>
    unfold kickOverdue
    split_ifs with current overdue
    · have stamped := attributed.records record ⟨tmpmsg, found⟩
      obtain ⟨owner, occ⟩ := current_owner attributed.settled stamped current.symm
      have serves : InService (poolView server) record.pConn :=
        owner_in_service attributed.settled (by rw [← owner] at occ; exact occ)
      have logged : InService (poolView (logKick { server with lsIdleList := rest } record))
          record.pConn := serves
      have shut := closed_at_zd cfg logged now
      exact Or.inr ⟨record.pConn, shut.serves, shut.pool, shut.times⟩
    · exact Or.inl popped
    · exact Or.inl popped

/-- The steps that neither issue nor release a connection close at most one. -/
theorem step_closes {cfg : Config} {server after : Server} {act : Act}
    (attributed : Attributed server) (disciplined : Disciplined server act)
    (taken : step cfg server act = some after)
    (other : ∀ ctl now, act ≠ .epollInit ctl now)
    (noAccept : ∀ oldc outcomes nonblockOk ctlOk now,
      act ≠ .accept oldc outcomes nonblockOk ctlOk now)
    (noRecycle : ∀ currtime, act ≠ .recycle currtime) :
    PoolKept server after ∨ ∃ c now, actTime act = some now ∧ ClosedAt server after c now := by
  by_cases moves : MovesBytes act
  · rcases step_works attributed disciplined moves taken with same | ⟨now, reads, works⟩
    · exact Or.inl (pool_kept_of_session same)
    · rcases works_closes works with kept | ⟨c, closed⟩
      · exact Or.inl kept
      · exact Or.inr ⟨c, now, reads, closed⟩
  · cases stepped_of_step taken with
    | epollInit ctl now => exact absurd rfl (other ctl now)
    | accept oldc outcomes nonblockOk ctlOk now =>
        exact absurd rfl (noAccept oldc outcomes nonblockOk ctlOk now)
    | recycle currtime => exact absurd rfl (noRecycle currtime)
    | monitorPop curTime =>
        have same := forget_monitor_pop cfg server curTime
        have conns := congrArg Server.conns same
        refine Or.inl ⟨pool_view_of_monitor same, fun d => ?_⟩
        exact congrArg NgxConnection.inRecyTime (congrFun conns d)
    | monitorCheck now tmpmsg rest =>
        rcases ping_check_closes attributed rest server.monitorTime now with kept | ⟨c, closed⟩
        · exact Or.inl kept
        · exact Or.inr ⟨c, now, rfl, closed⟩
    | _ => exact absurd trivial moves

theorem free_connection_time (server : Server) (c d : ConnId) :
    ((ngxFreeConnection server c).conns d).inRecyTime = (server.conns d).inRecyTime := by
  exact mod_conn_keeps NgxConnection.inRecyTime server c d (fun q =>
    { q with
      iCurrsequence := q.iCurrsequence + 1
      recv.precvMemPointer := null
      send := { q.send with psendMemPointer := null, iThrowsendCount := 0 } }) rfl

theorem register_connection_time (cfg : Config) (server : Server) (newc : ConnId) (s : Int)
    (nonblockOk ctlOk : Bool) (now : Int) (d : ConnId) :
    ((registerConnection cfg server newc s nonblockOk ctlOk now).conns d).inRecyTime =
      (server.conns d).inRecyTime := by
  have closed : ∀ middle : Server, ((ngxCloseConnection middle newc).conns d).inRecyTime =
      (middle.conns d).inRecyTime := fun middle =>
    (close_if_open_keeps (ngxFreeConnection middle newc) newc d).1.trans
      (free_connection_time middle newc d)
  have handled : ((server.modConn newc
      fun p => { p with rhandler := .ngxReadRequestHandler }).conns d).inRecyTime =
        (server.conns d).inRecyTime :=
    mod_conn_keeps NgxConnection.inRecyTime server newc d _ rfl
  have registered := congrFun (congrArg View.inRecyTime (session_of_send (forget_send_epoll_oper
    (server.modConn newc fun p => { p with rhandler := .ngxReadRequestHandler }) s .add
    (epollIn ||| epollRdhup) 0 newc ctlOk))) d
  unfold registerConnection
  split
  · exact closed server
  · dsimp only
    split
    · exact (closed _).trans (registered.trans handled)
    · split <;> exact registered.trans handled

/-- A connection object that exists and is not free is not issued. -/
theorem get_connection_time (server : Server) (isock now : Int) {d : ConnId}
    (old : d < server.connObjects) :
    ((ngxGetConnection server isock now).2.conns d).inRecyTime =
      (server.conns d).inRecyTime := by
  unfold ngxGetConnection
  split
  · exact mod_conn_keeps NgxConnection.inRecyTime server _ d
      (fun p => { getOneToUse now p with fd := isock }) rfl
  · have kept := mod_conn_conns server server.connObjects d
      fun _ => { getOneToUse now NgxConnection.construct with fd := isock }
    exact congrArg NgxConnection.inRecyTime (kept.trans (if_neg (Nat.ne_of_lt old)))

structure Waiting (first : OccId) (c : ConnId) (since : Int) (server : Server) : Prop where
  listed : c ∈ server.recyconnectionList
  time : (server.conns c).inRecyTime = since
  issued : QuarantinePool.IssuedOthers (poolView server) first c

section Steps

variable {cfg : Config} {first : OccId} {c : ConnId} {since : Int} {server after : Server}

theorem issued_other (notFree : c ∉ server.freeconnectionList) (old : c < server.connObjects)
    (s : Int) :
    (QuarantinePool.issue (QuarantinePool.openFd (poolView server) s) s).1 ≠ c := by
  have free : c ∉ (QuarantinePool.openFd (poolView server) s).free := notFree
  have objects : c < (QuarantinePool.openFd (poolView server) s).objects := old
  exact QuarantinePool.issue_other free objects s

theorem waiting_accept_socket (places : QuarantinePool.Placed (poolView server) [])
    (waiting : Waiting first c since server) (s : Int) (nonblockOk ctlOk : Bool) (now : Int) :
    Waiting first c since
      (acceptSocket cfg (openSocket server s) s nonblockOk ctlOk now) := by
  obtain ⟨listed, notFree⟩ := QuarantinePool.quarantine_not_free places waiting.listed
  have old : c < server.connObjects := places.all_lt c listed
  have other := issued_other notFree old s
  obtain ⟨nextOwner, stampOf, quarantine⟩ :=
    QuarantinePool.issue_stamps (QuarantinePool.openFd (poolView server) s) s
  have issuedOwn : QuarantinePool.IssuedOthers
      (QuarantinePool.own
        (QuarantinePool.issue (QuarantinePool.openFd (poolView server) s) s).2
        (QuarantinePool.issue (QuarantinePool.openFd (poolView server) s) s).1) first c :=
    QuarantinePool.issued_others_own
      (QuarantinePool.issued_others_of_eq waiting.issued nextOwner stampOf) other
  have time : ((acceptSocket cfg (openSocket server s) s nonblockOk ctlOk now).conns c).inRecyTime =
      since := by
    by_cases refused : Refused cfg (openSocket server s)
    · rw [accept_socket_refused refused]
      exact waiting.time
    · rw [accept_socket_issues refused, register_connection_time]
      exact (get_connection_time (openSocket server s) s now old).trans waiting.time
  have keeps : ∀ pool : Pool,
      poolView (acceptSocket cfg (openSocket server s) s nonblockOk ctlOk now) = pool →
      pool.quarantine = server.recyconnectionList →
      c ∈ (acceptSocket cfg (openSocket server s) s nonblockOk ctlOk now).recyconnectionList := by
    intro pool view list
    have same : (acceptSocket cfg (openSocket server s) s nonblockOk ctlOk now).recyconnectionList
        = server.recyconnectionList := (congrArg Pool.quarantine view).trans list
    exact same ▸ waiting.listed
  rcases accept_socket_cases cfg server s nonblockOk ctlOk now with
    ⟨-, refused⟩ | ⟨-, issued, rfl, lost | active⟩
  · refine ⟨?_, time, ?_⟩
    · exact keeps _ refused rfl
    · rw [refused]
      exact QuarantinePool.issued_others_of_eq waiting.issued rfl rfl
  · obtain ⟨next, stamps, list⟩ := QuarantinePool.shut_stamps (QuarantinePool.putBack
      (QuarantinePool.own
        (QuarantinePool.issue (QuarantinePool.openFd (poolView server) s) s).2
        (QuarantinePool.issue (QuarantinePool.openFd (poolView server) s) s).1)
      (QuarantinePool.issue (QuarantinePool.openFd (poolView server) s) s).1)
      (QuarantinePool.issue (QuarantinePool.openFd (poolView server) s) s).1
    refine ⟨?_, time, ?_⟩
    · exact keeps _ lost (list.trans quarantine)
    · rw [lost]
      exact QuarantinePool.issued_others_of_eq issuedOwn next stamps
  · refine ⟨?_, time, ?_⟩
    · exact keeps _ active quarantine
    · rw [active]
      exact QuarantinePool.issued_others_of_eq issuedOwn rfl rfl

theorem accept_socket_owner (notFree : c ∉ server.freeconnectionList)
    (old : c < server.connObjects) (s : Int) (nonblockOk ctlOk : Bool) (now : Int) :
    (acceptSocket cfg (openSocket server s) s nonblockOk ctlOk now).ghost.occ c =
      server.ghost.occ c := by
  have other := issued_other notFree old s
  have owner : (QuarantinePool.issue (QuarantinePool.openFd (poolView server) s) s).2.owner =
      server.ghost.occ := QuarantinePool.issue_owner (QuarantinePool.openFd (poolView server) s) s
  have owned : (QuarantinePool.own
      (QuarantinePool.issue (QuarantinePool.openFd (poolView server) s) s).2
      (QuarantinePool.issue (QuarantinePool.openFd (poolView server) s) s).1).owner c =
        server.ghost.occ c := by
    rw [QuarantinePool.own, owner]
    exact Function.update_of_ne other.symm _ _
  rcases accept_socket_cases cfg server s nonblockOk ctlOk now with
    ⟨-, refused⟩ | ⟨-, issued, rfl, lost | active⟩
  · exact congrFun (congrArg Pool.owner refused) c
  · apply (congrFun (congrArg Pool.owner lost) c).trans
    rw [QuarantinePool.discard, QuarantinePool.shut_owner]
    exact (Function.update_of_ne other.symm _ _).trans owned
  · exact (congrFun (congrArg Pool.owner active) c).trans owned

theorem event_accept_owner (notFree : c ∉ server.freeconnectionList)
    (old : c < server.connObjects) (nonblockOk ctlOk : Bool) (now : Int)
    (outcomes : List AcceptOutcome) :
    (ngxEventAccept cfg server nonblockOk ctlOk now outcomes).ghost.occ c =
      server.ghost.occ c := by
  induction outcomes generalizing server with
  | nil => rfl
  | cons outcome rest ih =>
      cases outcome with
      | ok s => exact accept_socket_owner notFree old s nonblockOk ctlOk now
      | err code =>
          unfold ngxEventAccept
          split_ifs
          · rfl
          · have flipped : (ngxEventAccept cfg { server with useAccept4 := false } nonblockOk ctlOk
                now rest).ghost.occ c = server.ghost.occ c := ih notFree old
            exact flipped
          · rfl

theorem waiting_event_accept (places : QuarantinePool.Placed (poolView server) [])
    (waiting : Waiting first c since server) (nonblockOk ctlOk : Bool) (now : Int)
    (outcomes : List AcceptOutcome) :
    Waiting first c since (ngxEventAccept cfg server nonblockOk ctlOk now outcomes) := by
  induction outcomes generalizing server with
  | nil => exact waiting
  | cons outcome rest ih =>
      cases outcome with
      | ok s => exact waiting_accept_socket places waiting s nonblockOk ctlOk now
      | err code =>
          have flipped : Waiting first c since { server with useAccept4 := false } :=
            ⟨waiting.listed, waiting.time, waiting.issued⟩
          unfold ngxEventAccept
          split_ifs
          · exact waiting
          · exact ih places flipped
          · exact waiting

theorem waiting_recycle (waiting : Waiting first c since server) (currtime : Int)
    (early : currtime < since + cfg.recyConnectionWaitTime) :
    Waiting first c since (serverRecyConnectionPass cfg server currtime 0) := by
  unfold serverRecyConnectionPass
  split
  · obtain ⟨-, released, left⟩ := pass_exact cfg server currtime 0
    have stays : ¬ Over cfg server currtime 0 c := by
      rw [Over, waiting.time]
      omega
    have absent : c ∉ server.recyconnectionList.filter
        fun d => decide (Over cfg server currtime 0 d) := by
      simp [stays]
    refine ⟨?_, ?_, QuarantinePool.issued_others_of_eq waiting.issued released.issued.1
      released.issued.2⟩
    · rw [left]
      exact List.mem_filter.mpr ⟨waiting.listed, by simp [stays]⟩
    · rw [(released.others c absent).1]
      exact waiting.time
  · exact waiting

theorem waiting_kept (kept : PoolKept server after) (waiting : Waiting first c since server) :
    Waiting first c since after := by
  have list : after.recyconnectionList = server.recyconnectionList :=
    congrArg Pool.quarantine kept.1
  refine ⟨list ▸ waiting.listed, (kept.2 c).trans waiting.time, ?_⟩
  rw [kept.1]
  exact waiting.issued

theorem waiting_closed {d : ConnId} {now : Int} (closed : ClosedAt server after d now)
    (waiting : Waiting first c since server) : Waiting first c since after := by
  have list : after.recyconnectionList =
      (QuarantinePool.retire (poolView server) d).quarantine :=
    congrArg Pool.quarantine closed.pool
  obtain ⟨nextOwner, stampOf⟩ := QuarantinePool.retire_stamps (poolView server) d
  refine ⟨?_, ?_, ?_⟩
  · rw [list]
    exact (QuarantinePool.mem_retire_quarantine _ d c).mpr (Or.inr waiting.listed)
  · rw [closed.times, if_neg]
    · exact waiting.time
    · rintro ⟨rfl, absent⟩
      exact absent waiting.listed
  · rw [closed.pool]
    exact QuarantinePool.issued_others_of_eq waiting.issued nextOwner stampOf

/-- Only closing ends an occupancy, and a closed connection waits from then on. -/
theorem waiting_starts {act : Act} {clock later : Int} (attributed : Attributed server)
    (disciplined : Disciplined server act)
    (taken : timedStep cfg (server, clock) act = some (after, later))
    (serves : server.ghost.occ c ≠ none) (ended : after.ghost.occ c = none) :
    Waiting after.ghost.nextOcc c later after := by
  obtain ⟨stepped, -, timed⟩ := timed_step_cases taken
  obtain ⟨o, owns⟩ := Option.ne_none_iff_exists'.mp serves
  have stamps := settled_stamps attributed.settled
  have used := (QuarantinePool.mem_in_use (poolView server) c).mp (stamps.owner_used c o owns).1
  have fresh : ∀ pool : Pool, QuarantinePool.IssuedOthers pool pool.nextOwner c :=
    fun pool o later started => absurd started (Nat.not_lt.mpr later)
  have goesOn : ∀ owner : ConnId → Option OccId, after.ghost.occ = owner →
      owner c = server.ghost.occ c → Waiting after.ghost.nextOcc c later after := by
    intro owner same kept
    rw [same, kept] at ended
    exact absurd ended serves
  cases act with
  | epollInit ctl now =>
      cases stepped_of_step stepped with
      | epollInit _ _ _ empty done =>
          have none : (poolView server).all = [] := empty
          rw [none] at used
          cases used.1
  | accept oldc outcomes nonblockOk ctlOk now =>
      cases stepped_of_step stepped
      exact goesOn _ rfl (event_accept_owner used.2.1
        (attributed.settled.places.all_lt c used.1) nonblockOk ctlOk now outcomes)
  | recycle currtime =>
      cases stepped_of_step stepped
      apply goesOn _ rfl
      unfold serverRecyConnectionPass
      split
      · have released := (pass_exact cfg server currtime 0).2.released
        exact (released.others c fun member => used.2.2 (List.mem_filter.mp member).1).2
      · rfl
  | _ =>
      rcases step_closes attributed disciplined stepped (by simp) (by simp) (by simp) with
        kept | ⟨d, now, reads, closed⟩
      · exact goesOn _ (congrArg Pool.owner kept.1) rfl
      · have owner : after.ghost.occ = Function.update server.ghost.occ d none :=
          (congrArg Pool.owner closed.pool).trans (QuarantinePool.retire_owner _ d)
        by_cases same : c = d
        · subst same
          have list : after.recyconnectionList =
              (QuarantinePool.retire (poolView server) c).quarantine :=
            congrArg Pool.quarantine closed.pool
          refine ⟨?_, ?_, fresh _⟩
          · rw [list]
            exact (QuarantinePool.mem_retire_quarantine _ c c).mpr (Or.inl rfl)
          · rw [closed.times, if_pos ⟨rfl, used.2.2⟩, timed now reads]
        · exact goesOn _ owner (Function.update_of_ne same _ _)

/-- A connection goes on waiting while its wait is not over. -/
theorem waiting_step {act : Act} {clock later : Int} (attributed : Attributed server)
    (waiting : Waiting first c since server) (disciplined : Disciplined server act)
    (taken : timedStep cfg (server, clock) act = some (after, later))
    (early : later < since + cfg.recyConnectionWaitTime) : Waiting first c since after := by
  obtain ⟨stepped, -, timed⟩ := timed_step_cases taken
  have listed := (QuarantinePool.quarantine_not_free attributed.settled.places waiting.listed).1
  cases act with
  | epollInit ctl now =>
      cases stepped_of_step stepped with
      | epollInit _ _ _ empty done =>
          have none : (poolView server).all = [] := empty
          rw [none] at listed
          cases listed
  | accept oldc outcomes nonblockOk ctlOk now =>
      cases stepped_of_step stepped
      exact waiting_event_accept attributed.settled.places waiting nonblockOk ctlOk now outcomes
  | recycle currtime =>
      cases stepped_of_step stepped
      apply waiting_recycle waiting currtime
      rw [← timed currtime rfl]
      exact early
  | _ =>
      rcases step_closes attributed disciplined stepped (by simp) (by simp) (by simp) with
        kept | ⟨d, now, -, closed⟩
      · exact waiting_kept kept waiting
      · exact waiting_closed closed waiting

end Steps

/-- While the clock has not reached the end of its wait, a closed connection
stays where it is. -/
theorem waiting_run {cfg : Config} {first : OccId} {c : ConnId} {since : Int}
    {start finish : Server × Int} (steps : TimedSteps cfg Disciplined start finish)
    (attributed : Attributed start.1) (waiting : Waiting first c since start.1)
    (early : finish.2 < since + cfg.recyConnectionWaitTime) :
    Waiting first c since finish.1 := by
  have kept := timed_invariant
    (fun server clock => Attributed server ∧
      (clock < since + cfg.recyConnectionWaitTime → Waiting first c since server))
    (fun server clock act after later holds disciplined taken => by
      obtain ⟨attributed, waits⟩ := holds
      obtain ⟨stepped, forward, -⟩ := timed_step_cases taken
      refine ⟨attributed_step attributed disciplined stepped, fun soon => ?_⟩
      exact waiting_step attributed (waits (lt_of_le_of_lt forward soon)) disciplined taken soon)
    steps ⟨attributed, fun _ => waiting⟩
  exact kept.2 early

end NgxServer.Recycler
