import NgxServer.Recycler
import NgxServer.TimerDrain

/-!
# What a step does to clients

With the kick clock on, a client gets a timer record when it is accepted and
loses it when it is closed. Outside the monitor every step leaves the clients
alone, notes the ping of one, lets one in, or closes one, and the timer queue
follows.
-/

namespace NgxServer.Clients

open NgxServer.Comm NgxServer.State NgxServer.ConnPool NgxServer.TimerQueue NgxServer.Socket
open NgxServer.Accept NgxServer.Logic NgxServer.System NgxServer.Frames NgxServer.PoolRefinement
open NgxServer.Occupancy NgxServer.Session NgxServer.TimerClock NgxServer.Recycler
open BlockHeap (null)
open QuarantinePool (Pool InService)

set_option autoImplicit false

structure Clock where
  timerQueuemap : List (Int × Nat)
  curSize : Nat
  timerValue : Int
  lsIdleList : List Nat
  theap : BlockHeap.Heap MsgHeader

def clock (server : Server) : Clock where
  timerQueuemap := server.timerQueuemap
  curSize := server.curSize
  timerValue := server.timerValue
  lsIdleList := server.lsIdleList
  theap := server.theap

/-- What the timers and the clients are read from. -/
structure SameClients (before after : Server) : Prop where
  clock : clock after = clock before
  owner : after.ghost.occ = before.ghost.occ
  pings : ∀ c, before.ghost.occ c ≠ none →
    (after.conns c).lastPingTime = (before.conns c).lastPingTime

structure Noted (now : Int) (before after : Server) (c : ConnId) : Prop where
  clock : clock after = clock before
  owner : after.ghost.occ = before.ghost.occ
  serves : before.ghost.occ c ≠ none
  pings : ∀ d, (after.conns d).lastPingTime =
    if d = c then now else (before.conns d).lastPingTime

structure Left (before after : Server) (c : ConnId) : Prop where
  filed : ∀ hand, Filed hand before → Filed hand after
  head : HeadCurrent after
  accounted : BlockHeap.Accounted before.theap → BlockHeap.Accounted after.theap
  entries : after.timerQueuemap =
    before.timerQueuemap.filter fun entry => !recordOf before c entry
  hand : after.lsIdleList = before.lsIdleList
  blocks : ∀ address record, after.theap.block address = some record →
    before.theap.block address = some record
  owner : after.ghost.occ = Function.update before.ghost.occ c none
  pings : ∀ d, (after.conns d).lastPingTime = (before.conns d).lastPingTime

structure Entered (cfg : Config) (now : Int) (before after : Server) (c : ConnId) : Prop where
  filed : ∀ hand, Filed hand before → Filed hand after
  head : HeadCurrent after
  entries : after.timerQueuemap =
    Multimap.enter (now + cfg.iWaitTime) before.theap.next before.timerQueuemap
  hand : after.lsIdleList = before.lsIdleList
  theap : ∃ record : MsgHeader, after.theap = BlockHeap.alloc before.theap record ∧
    record.pConn = c ∧ record.occ = some before.ghost.nextOcc
  unowned : before.ghost.occ c = none
  owner : after.ghost.occ = Function.update before.ghost.occ c (some before.ghost.nextOcc)
  pings : ∀ d, before.ghost.occ d ≠ none →
    (after.conns d).lastPingTime = (before.conns d).lastPingTime
  pinged : (after.conns c).lastPingTime = now

/-- What the steps outside the monitor do. -/
inductive ClientStep (cfg : Config) (before after : Server) : Option Int → Prop
  | same (time : Option Int) (kept : SameClients before after) : ClientStep cfg before after time
  | noted (now : Int) (c : ConnId) (pinged : Noted now before after c) :
      ClientStep cfg before after (some now)
  | left (now : Int) (middle : Server) (c : ConnId)
      (marked : SameClients before middle ∨ ∃ d, Noted now before middle d)
      (closed : Left middle after c) : ClientStep cfg before after (some now)
  | entered (now : Int) (c : ConnId) (accepted : Entered cfg now before after c) :
      ClientStep cfg before after (some now)

section Relations

variable {before middle after : Server}

theorem filed_of_clock {hand : List Nat} (same : clock after = clock before)
    (filed : Filed hand before) : Filed hand after :=
  filed_of_same filed (congrArg Clock.timerQueuemap same) (congrArg Clock.curSize same)
    (congrArg Clock.theap same)

theorem head_of_clock (same : clock after = clock before) (head : HeadCurrent before) :
    HeadCurrent after := by
  have entries : after.timerQueuemap = before.timerQueuemap := congrArg Clock.timerQueuemap same
  have value : after.timerValue = before.timerValue := congrArg Clock.timerValue same
  intro entry rest present
  rw [value]
  exact head entry rest (entries ▸ present)

theorem same_clients_refl (server : Server) : SameClients server server :=
  ⟨rfl, rfl, fun _ _ => rfl⟩

theorem same_clients_of_session (same : session after = session before) :
    SameClients before after where
  clock := congrArg (fun view : View => Clock.mk view.timerQueuemap view.curSize view.timerValue
    view.lsIdleList view.theap) same
  owner := congrArg (fun view : View => view.pool.owner) same
  pings := fun c _ => congrFun (congrArg View.lastPingTime same) c

theorem noted_of_session {now : Int} {c : ConnId} (serves : before.ghost.occ c ≠ none)
    (same : session after = session (notePing before c now)) : Noted now before after c := by
  have kept := same_clients_of_session same
  refine ⟨kept.clock, kept.owner, serves, fun d => ?_⟩
  have time : (after.conns d).lastPingTime = ((notePing before c now).conns d).lastPingTime :=
    congrFun (congrArg View.lastPingTime same) d
  rw [time, notePing, mod_conn_conns]
  split <;> rfl

theorem left_of_session {c : ConnId} (same : session after = session middle)
    (closed : Left before middle c) : Left before after c := by
  have kept := same_clients_of_session same
  have entries : after.timerQueuemap = middle.timerQueuemap :=
    congrArg Clock.timerQueuemap kept.clock
  have hand : after.lsIdleList = middle.lsIdleList := congrArg Clock.lsIdleList kept.clock
  have theap : after.theap = middle.theap := congrArg Clock.theap kept.clock
  refine ⟨fun list filed => filed_of_clock kept.clock (closed.filed list filed),
    head_of_clock kept.clock closed.head, fun accounted => theap ▸ closed.accounted accounted,
    entries.trans closed.entries, hand.trans closed.hand, fun address record live => ?_,
    kept.owner.trans closed.owner, fun d => ?_⟩
  · exact closed.blocks address record (theap ▸ live)
  · have time : (after.conns d).lastPingTime = (middle.conns d).lastPingTime :=
      congrFun (congrArg View.lastPingTime same) d
    rw [time, closed.pings]

end Relations

theorem zd_last_ping_time (cfg : Config) (server : Server) (c : ConnId) (now : Int) (d : ConnId) :
    ((zdClosesocketProc cfg server c now).conns d).lastPingTime =
      (server.conns d).lastPingTime := by
  have conns := congrArg Server.conns (forget_close_zd cfg server c now)
  have times := congrArg (fun conns : ConnId → NgxConnection => (conns d).lastPingTime) conns
  exact times

theorem close_if_open_clock (server : Server) (c : ConnId) :
    clock (closeIfOpen server c) = clock server := by
  unfold closeIfOpen
  split <;> rfl

theorem drop_throwsend_clock (server : Server) (c : ConnId) :
    clock (dropThrowsend server c) = clock server := by
  unfold dropThrowsend
  split <;> rfl

theorem in_recy_queue_clock (server : Server) (c : ConnId) (now : Int) :
    clock (inRecyConnectQueue server c now) = clock server := by
  unfold inRecyConnectQueue
  split <;> rfl

theorem zd_clock {cfg : Config} (enabled : cfg.ifkickTimeCount = 1) (server : Server)
    (c : ConnId) (now : Int) :
    clock (zdClosesocketProc cfg server c now) = clock (deleteFromTimerQueue server c) := by
  have ended : ∀ shut : Server, clock (endOccupancy shut c) = clock shut := fun _ => rfl
  unfold zdClosesocketProc
  rw [if_pos enabled, in_recy_queue_clock, drop_throwsend_clock, ended, close_if_open_clock]

theorem left_zd {cfg : Config} (enabled : cfg.ifkickTimeCount = 1) {server : Server}
    {held : List Nat} (filed : Filed held server) (c : ConnId) (now : Int) :
    Left server (zdClosesocketProc cfg server c now) c := by
  have same := zd_clock enabled server c now
  have entries : (zdClosesocketProc cfg server c now).timerQueuemap =
      (deleteFromTimerQueue server c).timerQueuemap := congrArg Clock.timerQueuemap same
  have hand : (zdClosesocketProc cfg server c now).lsIdleList =
      (deleteFromTimerQueue server c).lsIdleList := congrArg Clock.lsIdleList same
  have theap : (zdClosesocketProc cfg server c now).theap =
      (deleteFromTimerQueue server c).theap := congrArg Clock.theap same
  have deletedHand : (deleteFromTimerQueue server c).lsIdleList = server.lsIdleList := by
    have forgotten := congrArg Server.lsIdleList (forget_timers_delete server c)
    exact forgotten
  refine ⟨fun list before => filed_of_clock same (filed_delete before c).1,
    head_of_clock same (filed_delete filed c).2, fun accounted => ?_, ?_, hand.trans deletedHand,
    fun address record live => ?_, zd_occ cfg server c now, zd_last_ping_time cfg server c now⟩
  · rw [theap]
    exact delete_accounted accounted c
  · rw [entries, delete_entries filed c]
  · rw [theap] at live
    exact delete_block server c live

theorem works_clients {cfg : Config} (enabled : cfg.ifkickTimeCount = 1) {now : Int}
    {before after : Server} {hand : List Nat} (filed : Filed hand before)
    (works : Works cfg now before after) :
    ClientStep cfg before after (some now) := by
  obtain ⟨marked, marks, ends⟩ := works
  have early : ∀ later : Server, session later = session marked →
      SameClients before later ∨ ∃ d, Noted now before later d := by
    intro later same
    rcases marks with quiet | ⟨d, serves, pinged⟩
    · exact Or.inl (same_clients_of_session (same.trans quiet))
    · exact Or.inr ⟨d, noted_of_session serves (same.trans pinged)⟩
  rcases ends with same | ⟨c, middle, -, same, closed⟩
  · rcases early after same with kept | ⟨d, noted⟩
    · exact ClientStep.same (some now) kept
    · exact ClientStep.noted now d noted
  · have before_middle := early middle same
    have clock : clock middle = clock before := by
      rcases before_middle with kept | ⟨d, noted⟩
      · exact kept.clock
      · exact noted.clock
    exact ClientStep.left now middle c before_middle
      (left_of_session closed (left_zd enabled (filed_of_clock clock filed) c now))

theorem close_connection_clock (server : Server) (c : ConnId) :
    clock (ngxCloseConnection server c) = clock server :=
  close_if_open_clock (ngxFreeConnection server c) c

theorem close_connection_last_ping (server : Server) (c d : ConnId) :
    ((ngxCloseConnection server c).conns d).lastPingTime = (server.conns d).lastPingTime := by
  have freed : ((ngxFreeConnection server c).conns d).lastPingTime =
      (server.conns d).lastPingTime :=
    mod_conn_keeps NgxConnection.lastPingTime server c d (fun q =>
      { q with
        iCurrsequence := q.iCurrsequence + 1
        recv.precvMemPointer := null
        send := { q.send with psendMemPointer := null, iThrowsendCount := 0 } }) rfl
  refine Eq.trans ?_ freed
  unfold ngxCloseConnection closeIfOpen
  split
  · exact mod_conn_keeps NgxConnection.lastPingTime
      ((ngxFreeConnection server c).closeFd ((ngxFreeConnection server c).conns c).fd) c d
      (fun p => { p with fd := -1 }) rfl
  · rfl

theorem close_connection_occ (server : Server) (c : ConnId) :
    (ngxCloseConnection server c).ghost.occ = Function.update server.ghost.occ c none := by
  have view := congrArg Pool.owner (ngx_close_connection_view server c)
  exact view.trans (QuarantinePool.shut_owner _ c)

/-- `registerConnection` gives the object back, or enters its client into the timer
queue. -/
theorem register_connection_session {cfg : Config} (enabled : cfg.ifkickTimeCount = 1)
    (server : Server) (newc : ConnId) (s : Int) (nonblockOk ctlOk : Bool) (now : Int) :
    ∃ quiet, session quiet = session server ∧
      (registerConnection cfg server newc s nonblockOk ctlOk now = ngxCloseConnection quiet newc ∨
        registerConnection cfg server newc s nonblockOk ctlOk now =
          { addToTimerQueue cfg quiet newc now with
            onlineUserCount := (addToTimerQueue cfg quiet newc now).onlineUserCount + 1 }) := by
  have handled : session (server.modConn newc
      fun p => { p with rhandler := .ngxReadRequestHandler }) = session server := by
    have pool := pool_view_mod_conn server newc
      (fun p => { p with rhandler := .ngxReadRequestHandler }) rfl rfl
    refine View.ext pool rfl rfl rfl rfl rfl rfl (funext fun d => ?_) (funext fun d => ?_)
    · exact mod_conn_keeps NgxConnection.inRecyTime server newc d _ rfl
    · exact mod_conn_keeps NgxConnection.lastPingTime server newc d _ rfl
  have registered := (session_of_send (forget_send_epoll_oper
    (server.modConn newc fun p => { p with rhandler := .ngxReadRequestHandler }) s .add
    (epollIn ||| epollRdhup) 0 newc ctlOk)).trans handled
  unfold registerConnection
  split
  · exact ⟨server, rfl, Or.inl rfl⟩
  · dsimp only
    split
    · exact ⟨_, registered, Or.inl rfl⟩
    · exact ⟨_, registered, Or.inr rfl⟩

theorem get_connection_clock (server : Server) (isock now : Int) :
    clock (ngxGetConnection server isock now).2 = clock server := by
  unfold ngxGetConnection
  split <;> rfl

theorem get_connection_last_ping (server : Server) (isock now : Int) (d : ConnId) :
    ((ngxGetConnection server isock now).2.conns d).lastPingTime =
      if d = (ngxGetConnection server isock now).1 then now
      else (server.conns d).lastPingTime := by
  unfold ngxGetConnection
  split
  case h_1 c rest front =>
    have kept := mod_conn_conns server c d fun p => { getOneToUse now p with fd := isock }
    dsimp only
    rw [kept]
    split <;> rfl
  case h_2 exhausted =>
    have kept := mod_conn_conns server server.connObjects d
      fun _ => { getOneToUse now NgxConnection.construct with fd := isock }
    dsimp only
    rw [kept]
    split <;> rfl

theorem issue_object (server : Server) (s now : Int) :
    (ngxGetConnection (openSocket server s) s now).1 =
      (QuarantinePool.issue (poolView server) s).1 := by
  have object := (ngx_get_connection_view (openSocket server s) s now).1
  rw [object]
  unfold QuarantinePool.issue
  cases front : server.freeconnectionList with
  | nil =>
      have opened : (poolView (openSocket server s)).free = [] := front
      have before : (poolView server).free = [] := front
      rw [opened, before]
      rfl
  | cons c rest =>
      have opened : (poolView (openSocket server s)).free = c :: rest := front
      have before : (poolView server).free = c :: rest := front
      rw [opened, before]

theorem get_connection_occ (server : Server) (isock now : Int) :
    (ngxGetConnection server isock now).2.ghost = server.ghost := by
  unfold ngxGetConnection
  split <;> rfl

theorem entered_add {cfg : Config} {now : Int} {before quiet : Server} {c : ConnId}
    (same : clock quiet = clock before)
    (unowned : before.ghost.occ c = none)
    (owner : quiet.ghost.occ = Function.update before.ghost.occ c (some before.ghost.nextOcc))
    (pings : ∀ d, (quiet.conns d).lastPingTime =
      if d = c then now else (before.conns d).lastPingTime) :
    Entered cfg now before
      { addToTimerQueue cfg quiet c now with
        onlineUserCount := (addToTimerQueue cfg quiet c now).onlineUserCount + 1 } c := by
  have theap : quiet.theap = before.theap := congrArg Clock.theap same
  have entries : quiet.timerQueuemap = before.timerQueuemap := congrArg Clock.timerQueuemap same
  have hand : quiet.lsIdleList = before.lsIdleList := congrArg Clock.lsIdleList same
  refine ⟨fun list filed => ?_, fun entry rest present => earliest_of_cons present, ?_, hand,
    ⟨stampNow quiet c, ?_, rfl, ?_⟩, unowned, owner, fun d serves => ?_, ?_⟩
  · exact filed_of_same (filed_insert (filed_of_clock same filed) _ _) rfl rfl rfl
  · rw [← entries, ← theap, ← multimap_insert_eq]
    rfl
  · rw [← theap]
    rfl
  · have owns := congrFun owner c
    rwa [Function.update_self] at owns
  · have other : d ≠ c := by
      rintro rfl
      exact serves unowned
    exact (pings d).trans (if_neg other)
  · exact (pings c).trans (if_pos rfl)

def Accepts (cfg : Config) (now : Int) (before after : Server) : Prop :=
  SameClients before after ∨ ∃ c, Entered cfg now before after c

theorem accept_socket_clients {cfg : Config} (enabled : cfg.ifkickTimeCount = 1) {server : Server}
    {stray : List Int}
    (holds : QuarantinePool.Invariant (poolView server) [] stray) (s : Int)
    (nonblockOk ctlOk : Bool) (now : Int) :
    Accepts cfg now server (acceptSocket cfg (openSocket server s) s nonblockOk ctlOk now) := by
  by_cases refused : Refused cfg (openSocket server s)
  · rw [accept_socket_refused refused]
    exact Or.inl ⟨rfl, rfl, fun _ _ => rfl⟩
  · rw [accept_socket_issues refused]
    have object := issue_object server s now
    have lists := get_connection_clock (openSocket server s) s now
    have ghost := get_connection_occ (openSocket server s) s now
    have times := get_connection_last_ping (openSocket server s) s now
    generalize ngxGetConnection (openSocket server s) s now = issued at object lists ghost times ⊢
    obtain ⟨newc, taken⟩ := issued
    have unowned : server.ghost.occ newc = none := by
      have none : (QuarantinePool.issue (poolView server) s).2.owner
          (QuarantinePool.issue (poolView server) s).1 = none := QuarantinePool.issue_unowned holds
      rw [QuarantinePool.issue_owner, ← object] at none
      exact none
    have owner : (openOccupancy taken newc).ghost.occ =
        Function.update server.ghost.occ newc (some server.ghost.nextOcc) := by
      have occ := congrArg Ghost.occ ghost
      have next := congrArg Ghost.nextOcc ghost
      have owned : (openOccupancy taken newc).ghost.occ =
          Function.update taken.ghost.occ newc (some taken.ghost.nextOcc) := rfl
      rw [owned]
      exact congrArg₂ (fun occ next => Function.update occ newc (some next)) occ next
    obtain ⟨quiet, same, ends⟩ := register_connection_session enabled (openOccupancy taken newc)
      newc s nonblockOk ctlOk now
    have quietClock : clock quiet = clock server := (same_clients_of_session same).clock.trans lists
    have quietOwner := (same_clients_of_session same).owner.trans owner
    have quietTimes : ∀ d, (quiet.conns d).lastPingTime =
        if d = newc then now else (server.conns d).lastPingTime := fun d =>
      (congrFun (congrArg View.lastPingTime same) d).trans (times d)
    rcases ends with closed | added
    · have shut := close_connection_occ quiet newc
      refine Or.inl ⟨?_, ?_, fun d serves => ?_⟩
      · rw [closed, close_connection_clock, quietClock]
      · rw [closed, shut, quietOwner, Function.update_idem, ← unowned, Function.update_eq_self]
      · have other : d ≠ newc := by
          rintro rfl
          exact serves unowned
        rw [closed, close_connection_last_ping, quietTimes, if_neg other]
    · rw [added]
      exact Or.inr ⟨newc, entered_add quietClock unowned quietOwner quietTimes⟩

theorem event_accept_clients {cfg : Config} (enabled : cfg.ifkickTimeCount = 1)
    {stray : List Int} (nonblockOk ctlOk : Bool) (now : Int) (outcomes : List AcceptOutcome)
    (server : Server) (holds : QuarantinePool.Invariant (poolView server) [] stray) :
    Accepts cfg now server (ngxEventAccept cfg server nonblockOk ctlOk now outcomes) := by
  induction outcomes generalizing server with
  | nil => exact Or.inl (same_clients_refl server)
  | cons outcome rest ih =>
      cases outcome with
      | ok s => exact accept_socket_clients enabled holds s nonblockOk ctlOk now
      | err code =>
          unfold ngxEventAccept
          split_ifs
          · exact Or.inl (same_clients_refl server)
          · rcases ih { server with useAccept4 := false } holds with kept | ⟨c, accepted⟩
            · exact Or.inl ⟨kept.clock, kept.owner, kept.pings⟩
            · have filed : ∀ hand, Filed hand server → Filed hand _ := fun hand before =>
                accepted.filed hand (filed_of_same before rfl rfl rfl)
              exact Or.inr ⟨c, filed, accepted.head, accepted.entries, accepted.hand,
                accepted.theap, accepted.unowned, accepted.owner, accepted.pings,
                accepted.pinged⟩
          · exact Or.inl (same_clients_refl server)

theorem lbl_rrtd_clock (cfg : Config) (currtime gStopEvent : Int) (rounds : Nat)
    (server : Server) : clock (lblRRTD cfg currtime gStopEvent rounds server) = clock server := by
  induction rounds generalizing server with
  | zero => rfl
  | succ rounds ih =>
      unfold lblRRTD
      split
      · rfl
      case h_2 c found => exact ih (releaseConnection server c)

theorem recycle_clients {cfg : Config} {server : Server} (currtime : Int)
    (attributed : Attributed server)
    (later : Attributed (serverRecyConnectionPass cfg server currtime 0)) :
    SameClients server (serverRecyConnectionPass cfg server currtime 0) := by
  unfold serverRecyConnectionPass at later ⊢
  split at later
  case isFalse none =>
    rw [if_neg none]
    exact same_clients_refl server
  case isTrue some =>
    rw [if_pos some]
    have released := (pass_exact cfg server currtime 0).2.released
    have idle : ∀ c ∈ server.recyconnectionList.filter
        (fun c => decide (Over cfg server currtime 0 c)), server.ghost.occ c = none ∧
          (lblRRTD cfg currtime 0 server.recyconnectionList.length server).ghost.occ c = none := by
      intro c moved
      have waits : c ∈ (poolView server).quarantine := (List.mem_filter.mp moved).1
      have free : c ∈ (poolView (lblRRTD cfg currtime 0 server.recyconnectionList.length
          server)).free := by
        have freed : (poolView (lblRRTD cfg currtime 0 server.recyconnectionList.length
            server)).free = _ := released.freed
        rw [freed]
        exact List.mem_append_right _ moved
      refine ⟨QuarantinePool.unused_unowned (settled_stamps attributed.settled) ?_,
        QuarantinePool.unused_unowned (settled_stamps later.settled) ?_⟩
      · exact fun used => ((QuarantinePool.mem_in_use _ c).mp used).2.2 waits
      · exact fun used => ((QuarantinePool.mem_in_use _ c).mp used).2.1 free
    refine ⟨lbl_rrtd_clock cfg currtime 0 _ server, funext fun c => ?_, fun c serves => ?_⟩
    · by_cases moved : c ∈ server.recyconnectionList.filter
          fun c => decide (Over cfg server currtime 0 c)
      · rw [(idle c moved).1, (idle c moved).2]
      · exact (released.others c moved).2
    · rw [(released.others c fun moved => serves (idle c moved).1).1]

theorem listen_on_clock (ctl : Int → Bool) (now : Int) (server after : Server) (fd : Int)
    (done : listenOn ctl now server fd = some after) : clock after = clock server := by
  have issued := get_connection_clock server fd now
  unfold listenOn at done
  dsimp only at done
  split at done
  · cases done
  · cases done
    have registered := (same_clients_of_session (session_of_send (forget_send_epoll_oper
      (markListening (ngxGetConnection server fd now).2 (ngxGetConnection server fd now).1) fd .add
      (epollIn ||| epollRdhup) 0 (ngxGetConnection server fd now).1 (ctl fd)))).clock
    exact registered.trans issued

theorem epoll_init_clients {cfg : Config} {server after : Server} {ctl : Int → Bool} {now : Int}
    (attributed : Attributed server) (empty : server.connectionList = [])
    (done : ngxEpollInit cfg server ctl now = some after) : SameClients server after := by
  have filled : ∀ count server, clock (Nat.iterate (addFreeConnection now) count server) =
      clock server := by
    intro count
    induction count with
    | zero => exact fun _ => rfl
    | succ count ih => exact fun server => ih (addFreeConnection now server)
  have listens : ∀ (fds : List Int) (start finish : Server),
      fds.foldlM (listenOn ctl now) start = some finish → clock finish = clock start := by
    intro fds
    induction fds with
    | nil =>
        intro start finish same
        cases same
        rfl
    | cons fd rest ih =>
        intro start finish folded
        rw [List.foldlM_cons] at folded
        obtain ⟨middle, first, more⟩ := Option.bind_eq_some_iff.mp folded
        rw [ih middle finish more, listen_on_clock ctl now start middle fd first]
  have noOwner : ∀ c, server.ghost.occ c = none := by
    intro c
    apply QuarantinePool.unused_unowned (settled_stamps attributed.settled)
    intro used
    have listed : c ∈ server.connectionList := ((QuarantinePool.mem_in_use _ c).mp used).1
    rw [empty] at listed
    cases listed
  have view := congrArg Pool.owner (ngx_epoll_init_view cfg server after ctl now done)
  exact ⟨(listens _ _ after done).trans (filled cfg.workerConnections server),
    view.trans (QuarantinePool.set_up_owner _ _), fun c serves => absurd (noOwner c) serves⟩

theorem step_clients {cfg : Config} (enabled : cfg.ifkickTimeCount = 1) {server after : Server}
    {act : Act} {hand : List Nat} (filed : Filed hand server) (attributed : Attributed server)
    (disciplined : Disciplined server act) (taken : step cfg server act = some after)
    (noPop : ∀ curTime, act ≠ .monitorPop curTime) (noCheck : ∀ now, act ≠ .monitorCheck now) :
    ClientStep cfg server after (actTime act) := by
  have later := attributed_step attributed disciplined taken
  by_cases moves : MovesBytes act
  · rcases step_works attributed disciplined moves taken with same | ⟨now, reads, works⟩
    · exact ClientStep.same _ (same_clients_of_session same)
    · rw [reads]
      exact works_clients enabled filed works
  · cases stepped_of_step taken with
    | epollInit ctl now _ empty done =>
        exact ClientStep.same _ (epoll_init_clients attributed empty done)
    | accept oldc outcomes nonblockOk ctlOk now listening possible =>
        rcases event_accept_clients enabled nonblockOk ctlOk now outcomes server
            attributed.settled with kept | ⟨c, accepted⟩
        · exact ClientStep.same _ kept
        · exact ClientStep.entered now c accepted
    | recycle currtime => exact ClientStep.same _ (recycle_clients currtime attributed later)
    | monitorPop curTime => exact absurd rfl (noPop curTime)
    | monitorCheck now => exact absurd rfl (noCheck now)
    | _ => exact absurd trivial moves

end NgxServer.Clients
