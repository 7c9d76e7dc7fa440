import NgxServer.Reassembly

/-!
# The stream of one connection during a run

Between two `recv` calls of a connection the process does other things: it
serves other connections, its workers free buffers, its timers close clients.
`Quiet` says that none of this disturbs a connection that receives, so that
over any run the packages handed over for one occupancy are those that the
reference parser finds in the bytes of that occupancy.
-/

namespace NgxServer.ByteStream

open NgxServer.Comm NgxServer.State NgxServer.ConnPool NgxServer.TimerQueue NgxServer.Socket
open NgxServer.Request NgxServer.Accept NgxServer.Logic NgxServer.System NgxServer.Frames
open NgxServer.PoolRefinement NgxServer.Occupancy NgxServer.RecvOwnership NgxServer.Reassembly
open BlockHeap (null)
open StreamSplitter (cut)
open QuarantinePool (InService)

set_option autoImplicit false

structure Leaves (before after : Server) (c : ConnId) : Prop where
  recv : (after.conns c).recv = (before.conns c).recv
  buffer : ∀ msg, before.rheap.block (before.conns c).recv.precvMemPointer = some msg →
    after.rheap.block (before.conns c).recv.precvMemPointer = some msg

def HeadSize (server : Server) (c : ConnId) : Prop :=
  (server.conns c).recv.dataHeadInfo.length = dataBufsize

/-- Connections that serve an old occupancy are left alone, and those that
serve a new one are ready to receive. -/
structure Quiet (before after : Server) : Prop where
  grows : before.ghost.nextOcc ≤ after.ghost.nextOcc
  sizes : (∀ c, HeadSize before c) → ∀ c, HeadSize after c
  lives : ∀ c o, after.ghost.occ c = some o →
    before.ghost.occ c = some o ∧ Leaves before after c ∨
      before.ghost.nextOcc ≤ o ∧ HoldsHead (after.conns c).recv []

section Rules

variable {before after : Server} {c : ConnId}

theorem leaves_of_same (recv : (after.conns c).recv = (before.conns c).recv)
    (rheap : after.rheap = before.rheap) : Leaves before after c :=
  ⟨recv, fun _ live => rheap ▸ live⟩

theorem leaves_trans {first second third : Server} (early : Leaves first second c)
    (late : Leaves second third c) : Leaves first third c := by
  refine ⟨late.recv.trans early.recv, fun msg live => ?_⟩
  have kept := late.buffer msg
  rw [early.recv] at kept
  exact kept (early.buffer msg live)

theorem holding_of_leaves {rest : List Byte} (leaves : Leaves before after c)
    (stamp : stampNow after c = stampNow before c) (holding : Holding before c rest) :
    Holding after c rest := by
  have recv := leaves.recv
  rcases holding with head | body
  · exact Or.inl (recv ▸ head)
  · obtain ⟨pkg, live, size, known⟩ := body.buffer
    refine Or.inr ⟨?_, ?_, ?_, ?_, body.header, body.bound, pkg, ?_, size, known⟩
    · rw [recv]
      exact body.states
    · rw [recv]
      exact body.window
    · rw [recv]
      exact body.missing
    · rw [recv]
      exact body.waits
    · rw [recv, stamp]
      exact leaves.buffer _ live

theorem quiet_of_same (recvs : ∀ c, (after.conns c).recv = (before.conns c).recv)
    (rheap : after.rheap = before.rheap) (next : after.ghost.nextOcc = before.ghost.nextOcc)
    (occ : ∀ c, after.ghost.occ c ≠ none → after.ghost.occ c = before.ghost.occ c) :
    Quiet before after where
  grows := next.ge
  sizes := by
    intro sizes c
    rw [HeadSize, recvs c]
    exact sizes c
  lives := by
    intro c o serves
    have same := occ c (by simp [serves])
    exact Or.inl ⟨same ▸ serves, leaves_of_same (recvs c) rheap⟩

theorem quiet_trans {first second third : Server} (early : Quiet first second)
    (late : Quiet second third) : Quiet first third where
  grows := early.grows.trans late.grows
  sizes := fun sizes => late.sizes (early.sizes sizes)
  lives := by
    intro c o serves
    rcases late.lives c o serves with ⟨served, leaves⟩ | ⟨new, ready⟩
    · rcases early.lives c o served with ⟨old, left⟩ | ⟨new, ready⟩
      · exact Or.inl ⟨old, leaves_trans left leaves⟩
      · exact Or.inr ⟨new, leaves.recv ▸ ready⟩
    · exact Or.inr ⟨early.grows.trans new, ready⟩

/-- What a projection that keeps the receiving state and the occupancies does
not tell apart. -/
theorem quiet_of_views (recvs : recvState after = recvState before)
    (next : after.ghost.nextOcc = before.ghost.nextOcc)
    (occ : after.ghost.occ = before.ghost.occ) : Quiet before after :=
  quiet_of_same (fun c => congrFun (congrArg RecvState.recvs recvs) c)
    (congrArg RecvState.rheap recvs) next fun c _ => congrFun occ c

end Rules

section Process

variable {server after : Server}

theorem quiet_of_send (same : forgetSend after = forgetSend server) : Quiet server after := by
  have recvs := congrArg recvState same
  have next := congrArg (fun server => server.ghost.nextOcc) same
  have occ := congrArg (fun server => server.ghost.occ) same
  exact quiet_of_views recvs next occ

theorem quiet_of_monitor (same : forgetMonitor after = forgetMonitor server) :
    Quiet server after := by
  have recvs := congrArg recvState same
  have next := congrArg (fun server => server.ghost.nextOcc) same
  have occ := congrArg (fun server => server.ghost.occ) same
  exact quiet_of_views recvs next occ

theorem quiet_zd (cfg : Config) (server : Server) (c : ConnId) (now : Int) :
    Quiet server (zdClosesocketProc cfg server c now) := by
  have same := forget_close_zd cfg server c now
  have recvs := congrArg recvState same
  have next := congrArg (fun server => server.ghost.nextOcc) same
  refine quiet_of_same (fun d => congrFun (congrArg RecvState.recvs recvs) d)
    (congrArg RecvState.rheap recvs) next fun d live => ?_
  rw [zd_occ, Function.update_apply] at live ⊢
  split at live
  · exact absurd rfl live
  case isFalse other => rw [if_neg other]

theorem quiet_queue_reply (cfg : Config) (server : Server) (msg : MsgBuf) (now : Int) :
    Quiet server (queueReply cfg server msg now) := by
  obtain ⟨sent, same, ends⟩ := queue_reply_frame cfg server msg now
  rcases ends with queued | ⟨-, closed⟩
  · rw [queued]
    exact quiet_of_send same
  · rw [closed]
    exact quiet_trans (quiet_of_send same) (quiet_zd cfg sent _ now)

def Unused (server : Server) : Prop := ∀ c, Spare server c → server.ghost.occ c = none

theorem quiet_get_connection (unused : Unused server) (isock now : Int) :
    Quiet server (ngxGetConnection server isock now).2 := by
  have spare := get_connection_spare server isock now
  obtain ⟨base, _, _, _, _, _, origin, same⟩ := ngx_get_connection_frame server isock now
  rw [same]
  refine ⟨Nat.le_refl _, fun sizes c => ?_, fun c o serves => Or.inl ⟨serves, ?_⟩⟩
  · by_cases issued : c = (ngxGetConnection server isock now).1
    · have size : base.recv.dataHeadInfo.length = dataBufsize := by
        rcases origin with old | new
        · rw [old]
          exact sizes _
        · rw [new]
          exact List.length_replicate ..
      simp only [HeadSize, issued, Function.update_self]
      exact size
    · simp only [HeadSize, Function.update_of_ne issued]
      exact sizes c
  · have other : c ≠ (ngxGetConnection server isock now).1 := by
      intro issued
      have owner : server.ghost.occ c = some o := serves
      rw [issued, unused _ spare] at owner
      cases owner
    refine leaves_of_same ?_ rfl
    exact congrArg NgxConnection.recv (Function.update_of_ne other _ _)

theorem get_connection_ready (server : Server) (isock now : Int) :
    HoldsHead ((ngxGetConnection server isock now).2.conns
      (ngxGetConnection server isock now).1).recv [] := by
  obtain ⟨base, _, _, _, _, _, -, same⟩ := ngx_get_connection_frame server isock now
  rw [same]
  simp only [Function.update_self]
  exact ⟨Or.inl ⟨rfl, rfl⟩, rfl, rfl, Nat.zero_lt_succ _, rfl⟩

theorem quiet_open_occupancy {c : ConnId} (ready : HoldsHead (server.conns c).recv []) :
    Quiet server (openOccupancy server c) := by
  refine ⟨Nat.le_succ _, id, fun d o serves => ?_⟩
  have owner : Function.update server.ghost.occ c (some server.ghost.nextOcc) d = some o := serves
  rw [Function.update_apply] at owner
  split at owner
  case isTrue same =>
    cases owner
    exact Or.inr ⟨Nat.le_refl _, same ▸ ready⟩
  case isFalse other => exact Or.inl ⟨owner, leaves_of_same rfl rfl⟩

theorem quiet_mod_conn (server : Server) (c : ConnId) (change : NgxConnection → NgxConnection)
    (kept : (change (server.conns c)).recv = (server.conns c).recv) :
    Quiet server (server.modConn c change) :=
  quiet_of_same (fun d => mod_conn_keeps NgxConnection.recv server c d change kept) rfl rfl
    fun _ _ => rfl

theorem quiet_close_if_open (server : Server) (c : ConnId) :
    Quiet server (closeIfOpen server c) := by
  have same := forget_close_close_if_open server c
  have recvs := congrArg recvState same
  unfold closeIfOpen at recvs ⊢
  split
  case isTrue opened =>
    rw [if_pos opened] at recvs
    exact quiet_of_views recvs rfl rfl
  case isFalse closed => exact quiet_of_same (fun _ => rfl) rfl rfl fun _ _ => rfl

/-- A connection goes back to the free list; nobody else fills its buffer. -/
theorem quiet_free_connection (owned : Owned server) (c : ConnId) :
    Quiet server (ngxFreeConnection server c) := by
  have freed : (ngxFreeConnection server c).rheap =
      BlockHeap.free server.rheap (server.conns c).recv.precvMemPointer := rfl
  have recvs : ∀ d, ((ngxFreeConnection server c).conns d).recv =
      if d = c then { (server.conns c).recv with precvMemPointer := null }
      else (server.conns d).recv := by
    intro d
    unfold ngxFreeConnection putOneToFree
    dsimp only
    rw [mod_conn_conns]
    split <;> rfl
  refine ⟨Nat.le_refl _, fun sizes d => ?_, fun d o serves => ?_⟩
  · rw [HeadSize, recvs]
    split
    · exact sizes c
    · exact sizes d
  · have owner : Function.update server.ghost.occ c none d = some o := serves
    rw [Function.update_apply] at owner
    split at owner
    · cases owner
    case isFalse other =>
      refine Or.inl ⟨owner, by rw [recvs, if_neg other], fun msg live => ?_⟩
      rw [freed, BlockHeap.free_block, if_neg]
      · exact live
      · rintro ⟨notNull, same⟩
        have holder := owned.exclusive.unique (.conn d) (.conn c) _ ⟨same, notNull⟩ ⟨rfl, notNull⟩
        cases holder
        exact other rfl

theorem quiet_close_connection (owned : Owned server) (c : ConnId) :
    Quiet server (ngxCloseConnection server c) :=
  quiet_trans (quiet_free_connection owned c) (quiet_close_if_open _ c)

theorem quiet_register_connection (sound : Sound server) (cfg : Config) (newc : ConnId) (s : Int)
    (nonblockOk ctlOk : Bool) (now : Int) :
    Quiet server (registerConnection cfg server newc s nonblockOk ctlOk now) := by
  have handled : Quiet server
      (server.modConn newc fun p => { p with rhandler := .ngxReadRequestHandler }) :=
    quiet_mod_conn server newc _ rfl
  have operated := forget_send_epoll_oper
    (server.modConn newc fun p => { p with rhandler := .ngxReadRequestHandler }) s .add
    (epollIn ||| epollRdhup) 0 newc ctlOk
  have registered := quiet_trans handled (quiet_of_send operated)
  have kept := sound_of_send (sound_mod_conn sound newc
    (fun p => { p with rhandler := .ngxReadRequestHandler }) rfl) operated
  unfold registerConnection
  split
  · exact quiet_close_connection sound.owned newc
  · dsimp only
    split
    · exact quiet_trans registered (quiet_close_connection kept.owned newc)
    · apply quiet_trans registered
      split
      · exact quiet_of_views rfl rfl rfl
      · exact quiet_of_views rfl rfl rfl

theorem quiet_accept_socket (sound : Sound server) (unused : Unused server) (cfg : Config) (s : Int)
    (nonblockOk ctlOk : Bool) (now : Int) :
    Quiet server (acceptSocket cfg server s nonblockOk ctlOk now) := by
  have issued := quiet_get_connection unused s now
  have ready := get_connection_ready server s now
  have opened := quiet_trans issued (quiet_open_occupancy ready)
  have kept : Sound (openOccupancy (ngxGetConnection server s now).2
      (ngxGetConnection server s now).1) :=
    sound_open_occupancy (sound_get_connection sound s now) (Or.inl (get_connection_header
      server s now).1)
  unfold acceptSocket
  split_ifs
  · exact quiet_of_views rfl rfl rfl
  · exact quiet_of_views rfl rfl rfl
  · exact quiet_trans opened (quiet_register_connection kept cfg _ s nonblockOk ctlOk now)

theorem quiet_refl (server : Server) : Quiet server server := quiet_of_views rfl rfl rfl

theorem quiet_event_accept (cfg : Config) (nonblockOk ctlOk : Bool) (now : Int)
    (outcomes : List AcceptOutcome) (server : Server) (sound : Sound server)
    (unused : Unused server) :
    Quiet server (ngxEventAccept cfg server nonblockOk ctlOk now outcomes) := by
  induction outcomes generalizing server with
  | nil => exact quiet_refl server
  | cons outcome rest ih =>
      cases outcome with
      | err code =>
          have switched : Quiet server { server with useAccept4 := false } :=
            quiet_of_views rfl rfl rfl
          unfold ngxEventAccept
          split_ifs
          · exact quiet_refl server
          · exact quiet_trans switched (ih _ (sound_of_eq sound rfl rfl) unused)
          · exact quiet_refl server
      | ok s =>
          have opened : Quiet server (openSocket server s) := quiet_of_views rfl rfl rfl
          have kept : Sound (openSocket server s) := sound_of_eq sound rfl rfl
          exact quiet_trans opened (quiet_accept_socket kept unused cfg s nonblockOk ctlOk now)

theorem quiet_add_free_connection (unused : Unused server) (now : Int) :
    Quiet server (addFreeConnection now server) := by
  refine ⟨Nat.le_refl _, fun sizes c => ?_, fun c o serves => Or.inl ⟨serves, ?_⟩⟩
  · rw [HeadSize, addFreeConnection]
    dsimp only
    rw [mod_conn_conns]
    split
    · exact List.length_replicate ..
    · exact sizes c
  · have other : c ≠ server.connObjects := by
      intro new
      have owner : server.ghost.occ c = some o := serves
      rw [unused c (Or.inr new.ge)] at owner
      cases owner
    exact leaves_of_same (others_mod_conn server server.connObjects
      (fun _ => getOneToUse now NgxConnection.construct) c other) rfl

def Unserved (server : Server) : Prop := ∀ c, server.ghost.occ c = none

theorem unserved_unused (unserved : Unserved server) : Unused server := fun c _ => unserved c

theorem quiet_initconnection (unserved : Unserved server) (cfg : Config) (now : Int) :
    Quiet server (initconnection cfg now server) ∧
      Unserved (initconnection cfg now server) := by
  have filled : ∀ count state, Unserved state →
      Quiet state (Nat.iterate (addFreeConnection now) count state) ∧
        Unserved (Nat.iterate (addFreeConnection now) count state) := by
    intro count
    induction count with
    | zero => exact fun state holds => ⟨quiet_refl state, holds⟩
    | succ count ih =>
        intro state holds
        have added := quiet_add_free_connection (unserved_unused holds) now
        obtain ⟨quiet, kept⟩ := ih (addFreeConnection now state) holds
        exact ⟨quiet_trans added quiet, kept⟩
  obtain ⟨quiet, kept⟩ := filled cfg.workerConnections server unserved
  exact ⟨quiet_trans quiet (quiet_of_views rfl rfl rfl), kept⟩

theorem quiet_mark_listening (server : Server) (c : ConnId) :
    Quiet server (markListening server c) := by
  have listed : Quiet server { server with listenConns := server.listenConns ++ [c] } :=
    quiet_of_views rfl rfl rfl
  exact quiet_trans listed
    (quiet_mod_conn _ c (fun p => { p with rhandler := .ngxEventAccept }) rfl)

theorem quiet_listen_on (unserved : Unserved server) (ctl : Int → Bool) (now fd : Int)
    (done : listenOn ctl now server fd = some after) : Quiet server after ∧ Unserved after := by
  have issued := quiet_get_connection (unserved_unused unserved) fd now
  have same : (ngxGetConnection server fd now).2.ghost = server.ghost := by
    obtain ⟨base, _, _, _, _, _, -, frame⟩ := ngx_get_connection_frame server fd now
    rw [frame]
  have marked := quiet_mark_listening (ngxGetConnection server fd now).2
    (ngxGetConnection server fd now).1
  unfold listenOn at done
  dsimp only at done
  split at done
  · cases done
  · cases done
    have operated := forget_send_epoll_oper
      (markListening (ngxGetConnection server fd now).2 (ngxGetConnection server fd now).1) fd .add
      (epollIn ||| epollRdhup) 0 (ngxGetConnection server fd now).1 (ctl fd)
    refine ⟨quiet_trans issued (quiet_trans marked (quiet_of_send operated)), fun c => ?_⟩
    have occ := congrArg (fun server => server.ghost.occ) operated
    apply (congrFun occ c).trans
    have owner := unserved c
    rw [← same] at owner
    exact owner

theorem quiet_epoll_init (unserved : Unserved server) (cfg : Config) (ctl : Int → Bool) (now : Int)
    (done : ngxEpollInit cfg server ctl now = some after) : Quiet server after := by
  have reserved : ∀ fds state, Unserved state →
      List.foldlM (listenOn ctl now) state fds = some after → Quiet state after := by
    intro fds
    induction fds with
    | nil =>
        intro state _ same
        cases same
        exact quiet_refl _
    | cons fd rest ih =>
        intro state holds loops
        rw [List.foldlM_cons] at loops
        obtain ⟨next, listens, later⟩ := Option.bind_eq_some_iff.mp loops
        obtain ⟨quiet, kept⟩ := quiet_listen_on holds ctl now fd listens
        exact quiet_trans quiet (ih next kept later)
  obtain ⟨quiet, kept⟩ := quiet_initconnection unserved cfg now
  exact quiet_trans quiet (reserved server.listenFds _ kept done)

theorem quiet_recy_connection_pass (sound : Sound server) (cfg : Config)
    (currtime gStopEvent : Int) :
    Quiet server (serverRecyConnectionPass cfg server currtime gStopEvent) := by
  have released : ∀ state c, Sound state → Quiet state (releaseConnection state c) := by
    intro state c holds
    have erased : Quiet state
        { state with
          totolRecyconnectionN := state.totolRecyconnectionN - 1
          recyconnectionList := state.recyconnectionList.erase c } := quiet_of_views rfl rfl rfl
    have kept : Owned
        { state with
          totolRecyconnectionN := state.totolRecyconnectionN - 1
          recyconnectionList := state.recyconnectionList.erase c } :=
      owned_of_same holds.owned (fun _ => rfl) rfl rfl rfl rfl
    exact quiet_trans erased (quiet_free_connection kept c)
  have looped : ∀ rounds state, Sound state →
      Quiet state (lblRRTD cfg currtime gStopEvent rounds state) := by
    intro rounds
    induction rounds with
    | zero => exact fun state _ => quiet_refl state
    | succ rounds ih =>
        intro state holds
        unfold lblRRTD
        split
        · exact quiet_refl state
        case h_2 c found =>
          exact quiet_trans (released state c holds) (ih _ (sound_release_connection holds c))
  unfold serverRecyConnectionPass
  split
  · exact looped _ server sound
  · exact quiet_refl server

theorem quiet_process_message (cfg : Config) (server : Server) (jobbuf : Nat) (junk : Nat → Byte)
    (now : Int) : Quiet server (processMessage cfg server jobbuf junk now) := by
  rcases process_message_cases cfg server jobbuf junk now with
    same | ⟨msg, dispatched, live, current, logged, ends⟩
  · rw [same]
    exact quiet_refl server
  · have early : Quiet server dispatched := by
      rw [logged]
      exact quiet_of_views rfl rfl rfl
    rcases ends with silent | ⟨answer, noted, header, -, notes, replies⟩
    · rw [silent]
      exact early
    · rw [replies]
      refine quiet_trans early (quiet_trans ?_ (quiet_queue_reply cfg noted answer now))
      rcases notes with same | same
      · rw [same]
        exact quiet_refl dispatched
      · rw [same]
        exact quiet_mod_conn dispatched _ _ rfl

/-- A worker frees the message that it holds, and nobody is filling it. -/
theorem quiet_release (owned : Owned server) {worker jobbuf : Nat}
    (holds : server.workers worker = .processed jobbuf) :
    Quiet server
      { server with
        workers := Function.update server.workers worker .idle
        rheap := BlockHeap.free server.rheap jobbuf } := by
  refine ⟨Nat.le_refl _, id, fun c o serves => Or.inl ⟨serves, rfl, fun msg live => ?_⟩⟩
  have held : Holds server (.worker worker) jobbuf := Or.inr holds
  have apart : (server.conns c).recv.precvMemPointer ≠ jobbuf := by
    intro same
    have notNull := Ownership.held_ne_null owned.exclusive held
    have holder := owned.exclusive.unique (.conn c) (.worker worker) _ ⟨same, notNull⟩ held
    cases holder
  rw [BlockHeap.free_block, if_neg (by simp [apart])]
  exact live

theorem quiet_ping_check (cfg : Config) (server : Server) (tmpmsg : Nat) (curTime now : Int) :
    Quiet server (procPingTimeOutChecking cfg server tmpmsg curTime now) := by
  have freed : ∀ checked : Server, Quiet checked (freeRecord checked tmpmsg) :=
    fun _ => quiet_of_views rfl rfl rfl
  unfold procPingTimeOutChecking
  split
  · exact quiet_refl server
  case h_2 record found =>
    refine quiet_trans ?_ (freed _)
    unfold kickOverdue
    split_ifs
    · have logged : Quiet server (logKick server record) := quiet_of_views rfl rfl rfl
      exact quiet_trans logged (quiet_zd cfg (logKick server record) record.pConn now)
    · exact quiet_refl server
    · exact quiet_refl server

end Process

section Reading

variable {server : Server} {c : ConnId}

theorem plast_head_info (server : Server) (c d : ConnId) (isflood : Bool) :
    ((ngxWaitRequestHandlerProcPlast server c isflood).conns d).recv.dataHeadInfo =
      (server.conns d).recv.dataHeadInfo := by
  unfold ngxWaitRequestHandlerProcPlast
  dsimp only
  split
  · exact mod_conn_keeps (fun p => p.recv.dataHeadInfo) _ c d _ rfl
  · exact mod_conn_keeps (fun p => p.recv.dataHeadInfo) _ c d _ rfl

theorem alloc_buffer_head_info (server : Server) (c d : ConnId) (ePkgLen : Nat)
    (junk : Nat → Byte) :
    ((allocBuffer server c ePkgLen junk).conns d).recv.dataHeadInfo =
      (server.conns d).recv.dataHeadInfo := by
  rw [allocBuffer]
  exact mod_conn_keeps (fun p => p.recv.dataHeadInfo) _ c d _ rfl

theorem receive_states_head_info (cfg : Config) (server : Server) (c d : ConnId) (reco : Nat)
    (junk : Nat → Byte) (nowMs : Nat) :
    ((receiveStates cfg server c reco junk nowMs).1.conns d).recv.dataHeadInfo =
      (server.conns d).recv.dataHeadInfo := by
  have advanced : ∀ stat, ((server.modConn c (advanceRecv stat reco)).conns d).recv.dataHeadInfo =
      (server.conns d).recv.dataHeadInfo :=
    fun stat => mod_conn_keeps (fun p => p.recv.dataHeadInfo) server c d _ rfl
  have parsed :
      ((ngxWaitRequestHandlerProcP1 cfg server c junk nowMs).1.conns d).recv.dataHeadInfo =
        (server.conns d).recv.dataHeadInfo := by
    unfold ngxWaitRequestHandlerProcP1
    dsimp only
    split_ifs
    · exact mod_conn_keeps (fun p => p.recv.dataHeadInfo) server c d _ rfl
    · exact mod_conn_keeps (fun p => p.recv.dataHeadInfo) server c d _ rfl
    · rw [plast_head_info, flood_check_recv, alloc_buffer_head_info]
    · rw [mod_conn_keeps (fun p => p.recv.dataHeadInfo) _ c d _ rfl, alloc_buffer_head_info]
  have completed : ((bodyComplete cfg server c nowMs).1.conns d).recv.dataHeadInfo =
      (server.conns d).recv.dataHeadInfo := by
    rw [bodyComplete, plast_head_info, flood_check_recv]
  rcases receive_states_cases cfg server c reco junk nowMs with ⟨stat, same⟩ | ⟨-, same⟩ | ⟨-, same⟩
  · rw [same, advanced]
  · rw [same, parsed]
  · rw [same, completed]

theorem plast_block (isflood : Bool) {address : Nat}
    (apart : address ≠ (server.conns c).recv.precvMemPointer) :
    (ngxWaitRequestHandlerProcPlast server c isflood).rheap.block address =
      server.rheap.block address := by
  cases isflood with
  | false => rfl
  | true => exact (BlockHeap.free_block _ _ _).trans (if_neg fun both => apart both.2)

/-- A receive step overwrites nothing, and frees at most the buffer of its connection. -/
theorem receive_states_block (cfg : Config) (wellFormed : BlockHeap.WellFormed server.rheap)
    (reco : Nat) (junk : Nat → Byte) (nowMs : Nat) {address : Nat} {msg : MsgBuf}
    (live : server.rheap.block address = some msg)
    (apart : address ≠ (server.conns c).recv.precvMemPointer) :
    (receiveStates cfg server c reco junk nowMs).1.rheap.block address = some msg := by
  have older := (wellFormed.bounded address msg live).2
  have allocated : ∀ ePkgLen,
      (allocBuffer server c ePkgLen junk).rheap.block address = some msg := by
    intro ePkgLen
    exact (BlockHeap.alloc_block _ _ _).trans (by rw [if_neg (by omega), live])
  have pointer : ∀ ePkgLen, ((allocBuffer server c ePkgLen junk).conns c).recv.precvMemPointer =
      server.rheap.next := by
    intro ePkgLen
    rw [allocBuffer, mod_conn_conns_self]
  have parsed : (ngxWaitRequestHandlerProcP1 cfg server c junk nowMs).1.rheap.block address =
      some msg := by
    unfold ngxWaitRequestHandlerProcP1
    dsimp only
    split_ifs
    · exact live
    · exact live
    · rw [plast_block, (flood_check_queue ..).2, allocated]
      rw [flood_check_recv, pointer]
      exact Nat.ne_of_lt older
    · exact allocated _
  have completed : (bodyComplete cfg server c nowMs).1.rheap.block address = some msg := by
    rw [bodyComplete, plast_block, (flood_check_queue ..).2, live]
    rw [flood_check_recv]
    exact apart
  rcases receive_states_cases cfg server c reco junk nowMs with ⟨stat, same⟩ | ⟨-, same⟩ | ⟨-, same⟩
  · rw [same]
    exact live
  · rw [same, parsed]
  · rw [same, completed]

instance (recv : RecvPart) : Decidable (InHeader recv) :=
  inferInstanceAs (Decidable (recv.curStat = .hdInit ∨ recv.curStat = .hdRecving))

def packageBuffer (server : Server) (c : ConnId) : Nat :=
  if InHeader (server.conns c).recv then server.rheap.next
  else (server.conns c).recv.precvMemPointer

/-- A package that is taken for a flood is freed instead of being handed over. -/
theorem receive_states_flooded {cfg : Config} {reco : Nat} {junk : Nat → Byte} {nowMs : Nat}
    (positive : 0 < server.rheap.next)
    (pending : ¬ InHeader (server.conns c).recv → (server.conns c).recv.precvMemPointer ≠ null)
    (floods : (receiveStates cfg server c reco junk nowMs).2 = true) :
    (receiveStates cfg server c reco junk nowMs).1.msgRecvQueue = server.msgRecvQueue ∧
      (receiveStates cfg server c reco junk nowMs).1.rheap.block (packageBuffer server c) =
        none := by
  have freed : ∀ {tested : Server}, (tested.conns c).recv.precvMemPointer ≠ null →
      (ngxWaitRequestHandlerProcPlast tested c true).msgRecvQueue = tested.msgRecvQueue ∧
        (ngxWaitRequestHandlerProcPlast tested c true).rheap.block
          (tested.conns c).recv.precvMemPointer = none :=
    fun notNull => ⟨rfl, (BlockHeap.free_block _ _ _).trans (if_pos ⟨notNull, rfl⟩)⟩
  have parsed : (ngxWaitRequestHandlerProcP1 cfg server c junk nowMs).2 = true →
      (ngxWaitRequestHandlerProcP1 cfg server c junk nowMs).1.msgRecvQueue =
          server.msgRecvQueue ∧
        (ngxWaitRequestHandlerProcP1 cfg server c junk nowMs).1.rheap.block server.rheap.next =
          none := by
    unfold ngxWaitRequestHandlerProcP1
    dsimp only
    split_ifs
    · exact nofun
    · exact nofun
    · intro isflood
      rw [isflood]
      have pointer : ((floodCheck cfg (allocBuffer server c (pkgLen (server.conns
          c).recv.dataHeadInfo) junk) c nowMs).1.conns c).recv.precvMemPointer =
            server.rheap.next := by
        rw [flood_check_recv, allocBuffer, mod_conn_conns_self]
      obtain ⟨queue, gone⟩ := freed (by rw [pointer]; exact Nat.ne_of_gt positive)
      rw [pointer] at gone
      exact ⟨queue.trans (flood_check_queue ..).1, gone⟩
    · exact nofun
  have completed : ¬ InHeader (server.conns c).recv → (bodyComplete cfg server c nowMs).2 = true →
      (bodyComplete cfg server c nowMs).1.msgRecvQueue = server.msgRecvQueue ∧
        (bodyComplete cfg server c nowMs).1.rheap.block
          (server.conns c).recv.precvMemPointer = none := by
    unfold bodyComplete
    dsimp only
    intro body isflood
    rw [isflood]
    have pointer := congrArg RecvPart.precvMemPointer (flood_check_recv cfg server c c nowMs)
    obtain ⟨queue, gone⟩ := freed (by rw [pointer]; exact pending body)
    rw [pointer] at gone
    exact ⟨queue.trans (flood_check_queue ..).1, gone⟩
  rcases receive_states_cases cfg server c reco junk nowMs with
    ⟨stat, same⟩ | ⟨header, same⟩ | ⟨body, same⟩
  · rw [same] at floods
    cases floods
  · rw [same] at floods ⊢
    rw [packageBuffer, if_pos header]
    exact parsed floods
  · rw [same] at floods ⊢
    rw [packageBuffer, if_neg body]
    exact completed body floods

/-- Received bytes go to `dataHeadInfo` or to the buffer of their connection. -/
theorem store_bytes_block {rest bytes : List Byte} (holding : Holding server c rest)
    {address : Nat} (apart : address ≠ (server.conns c).recv.precvMemPointer) :
    (storeBytes server c bytes).rheap.block address = server.rheap.block address := by
  rcases holding with head | body
  · rw [storeBytes, head.window]
    rfl
  · rw [store_bytes_body body]
    exact (BlockHeap.modify_block _ _ _ _).trans (if_neg apart)

theorem store_bytes_pointer (server : Server) (c d : ConnId) (bytes : List Byte) :
    ((storeBytes server c bytes).conns d).recv.precvMemPointer =
      (server.conns d).recv.precvMemPointer := by
  unfold storeBytes
  split
  · exact mod_conn_keeps (fun p => p.recv.precvMemPointer) server c d _ rfl
  · rfl

theorem store_bytes_queue (server : Server) (c : ConnId) (bytes : List Byte) :
    (storeBytes server c bytes).msgRecvQueue = server.msgRecvQueue := by
  unfold storeBytes
  split <;> rfl

theorem package_buffer_store_bytes (server : Server) (c : ConnId) (bytes : List Byte) :
    packageBuffer (storeBytes server c bytes) c = packageBuffer server c := by
  have states : ((storeBytes server c bytes).conns c).recv.curStat =
      (server.conns c).recv.curStat := by
    unfold storeBytes
    split
    · exact mod_conn_keeps (fun p => p.recv.curStat) server c c _ rfl
    · rfl
  have next : (storeBytes server c bytes).rheap.next = server.rheap.next := by
    unfold storeBytes
    split
    · rfl
    · exact BlockHeap.modify_next ..
  have header : InHeader ((storeBytes server c bytes).conns c).recv ↔
      InHeader (server.conns c).recv := by
    rw [InHeader, InHeader, states]
  unfold packageBuffer
  rw [next, store_bytes_pointer]
  exact if_congr header rfl rfl

theorem zd_fd (cfg : Config) (server : Server) (c : ConnId) (now : Int) :
    ((zdClosesocketProc cfg server c now).conns c).fd = -1 := by
  have view := congrArg (fun pool : QuarantinePool.Pool => pool.handle c)
    (zd_closesocket_proc_view cfg server c now)
  exact view.trans (QuarantinePool.retire_handle _ c)

theorem store_bytes_head_info {rest bytes : List Byte} (holding : Holding server c rest)
    (fits : bytes.length ≤ (server.conns c).recv.irecvlen) (sizes : ∀ d, HeadSize server d)
    (d : ConnId) : HeadSize (storeBytes server c bytes) d := by
  have size := sizes c
  rcases holding with head | body
  · have missing := head.missing
    rw [storeBytes, head.window, HeadSize, mod_conn_conns]
    split
    · simp only [HeadSize, lenPkgHeader, dataBufsize] at size missing ⊢
      rw [overwrite_length (by omega), size]
    · exact sizes d
  · rw [store_bytes_body body]
    exact sizes d

end Reading

/-- Every live connection is in the middle of some package. -/
structure Receiving (server : Server) : Prop where
  sizes : ∀ c, HeadSize server c
  holds : ∀ c, server.ghost.occ c ≠ none → ∃ rest, Holding server c rest

/-- Connection `c` has received `bytes`, and nothing else has happened. -/
structure Fed (before after : Server) (c : ConnId) (bytes : List Byte) : Prop where
  occ : after.ghost.occ = before.ghost.occ
  sizes : ∀ d, HeadSize after d
  parsed : ∀ rest, Holding before c rest → Parsed before after c (rest ++ bytes)
  others : ∀ d, d ≠ c → Leaves before after d

theorem receive_states_spares {server : Server} {c : ConnId} {bytes : List Byte} (cfg : Config)
    (sound : Sound server) (receiving : Receiving server) (live : server.ghost.occ c ≠ none)
    (fits : bytes.length ≤ (server.conns c).recv.irecvlen) (junk : Nat → Byte) (nowMs : Nat) :
    (receiveStates cfg (storeBytes server c bytes) c bytes.length junk nowMs).1.ghost.occ =
        server.ghost.occ ∧
      (∀ d, HeadSize (receiveStates cfg (storeBytes server c bytes) c bytes.length junk nowMs).1
        d) ∧
      ∀ d, d ≠ c → Leaves server
        (receiveStates cfg (storeBytes server c bytes) c bytes.length junk nowMs).1 d := by
  obtain ⟨held, holding⟩ := receiving.holds c live
  have stored := received_store_bytes sound.owned (sound_conn_ok sound live) bytes
  have handled := received_states stored.owned stored.ok cfg bytes.length junk nowMs
  have same := (forget_recv_receive_states cfg (storeBytes server c bytes) c bytes.length junk
    nowMs).trans (forget_recv_store_bytes server c bytes)
  refine ⟨?_, fun d => ?_, fun d different => ⟨?_, fun msg present => ?_⟩⟩
  · have occ := congrArg (fun server => server.ghost.occ) same
    exact occ
  · rw [HeadSize, receive_states_head_info]
    exact store_bytes_head_info holding fits receiving.sizes d
  · exact (handled.others d different).trans (stored.others d different)
  · have notNull : (server.conns d).recv.precvMemPointer ≠ null := by
      intro isNull
      rw [isNull, BlockHeap.null_not_live sound.owned.exclusive.wellFormed] at present
      cases present
    have apart : (server.conns d).recv.precvMemPointer ≠
        (server.conns c).recv.precvMemPointer := by
      intro pointer
      have holder := sound.owned.exclusive.unique (.conn d) (.conn c) _ ⟨rfl, notNull⟩
        ⟨pointer.symm, notNull⟩
      cases holder
      exact different rfl
    refine receive_states_block cfg stored.owned.exclusive.wellFormed _ junk nowMs ?_ ?_
    · rw [store_bytes_block holding apart, present]
    · rw [store_bytes_pointer]
      exact apart

def isflood (cfg : Config) (server : Server) (c : ConnId) (bytes : List Byte) (junk : Nat → Byte)
    (nowMs : Nat) : Bool :=
  (receiveStates cfg (storeBytes server c bytes) c bytes.length junk nowMs).2

theorem fed_read_request_handler {cfg : Config} {server : Server} {c : ConnId} {bytes : List Byte}
    {junk : Nat → Byte} {nowMs : Nat} (sound : Sound server) (receiving : Receiving server)
    (live : server.ghost.occ c ≠ none) (opened : (server.conns c).fd ≠ -1)
    (fits : bytes.length ≤ (server.conns c).recv.irecvlen)
    (passes : isflood cfg server c bytes junk nowMs = false) (now : Int) :
    Fed server (ngxReadRequestHandler cfg server c (.data bytes) junk nowMs now) c bytes := by
  have tested :
      (receiveStates cfg (storeBytes server c bytes) c bytes.length junk nowMs).2 = false :=
    passes
  obtain ⟨occ, sizes, others⟩ :=
    receive_states_spares cfg sound receiving live fits junk nowMs
  rw [read_request_handler_data cfg bytes opened, if_neg (by rw [tested]; exact Bool.false_ne_true)]
  exact ⟨occ, sizes,
    fun rest holding => parsed_receive_states tested holding (receiving.sizes c) fits,
    others⟩

/-- Connection `c` has received the end of a package that is taken for a flood: the
package is freed and the connection closed. -/
structure Flooded (before after : Server) (c : ConnId) : Prop where
  occ : after.ghost.occ = Function.update before.ghost.occ c none
  fd : (after.conns c).fd = -1
  sizes : ∀ d, HeadSize after d
  queue : after.msgRecvQueue = before.msgRecvQueue
  freed : after.rheap.block (packageBuffer before c) = none
  others : ∀ d, d ≠ c → Leaves before after d

theorem flooded_read_request_handler {cfg : Config} {server : Server} {c : ConnId}
    {bytes : List Byte} {junk : Nat → Byte} {nowMs : Nat} (sound : Sound server)
    (receiving : Receiving server) (live : server.ghost.occ c ≠ none)
    (opened : (server.conns c).fd ≠ -1) (fits : bytes.length ≤ (server.conns c).recv.irecvlen)
    (floods : isflood cfg server c bytes junk nowMs = true) (now : Int) :
    Flooded server (ngxReadRequestHandler cfg server c (.data bytes) junk nowMs now) c := by
  have tested :
      (receiveStates cfg (storeBytes server c bytes) c bytes.length junk nowMs).2 = true :=
    floods
  obtain ⟨held, holding⟩ := receiving.holds c live
  obtain ⟨occ, sizes, others⟩ := receive_states_spares cfg sound receiving live fits junk nowMs
  have stored := received_store_bytes sound.owned (sound_conn_ok sound live) bytes
  obtain ⟨queue, freed⟩ := receive_states_flooded stored.owned.exclusive.wellFormed.positive
    (fun body isNull => body (stored.ok.mpr isNull)) tested
  rw [package_buffer_store_bytes] at freed
  rw [read_request_handler_data cfg bytes opened, if_pos tested]
  have same := forget_close_zd cfg
    (receiveStates cfg (storeBytes server c bytes) c bytes.length junk nowMs).1 c now
  have recvs := congrArg recvState same
  have recv : ∀ d, ((zdClosesocketProc cfg (receiveStates cfg (storeBytes server c bytes) c
      bytes.length junk nowMs).1 c now).conns d).recv = _ :=
    fun d => congrFun (congrArg RecvState.recvs recvs) d
  have rheap := congrArg RecvState.rheap recvs
  refine ⟨?_, zd_fd .., fun d => ?_, ?_, ?_, fun d different => ?_⟩
  · rw [zd_occ, occ]
  · rw [HeadSize, recv]
    exact sizes d
  · exact (congrArg RecvState.queue recvs).trans (queue.trans (store_bytes_queue ..))
  · exact (congrArg (fun heap => heap.block (packageBuffer server c)) rheap).trans freed
  · exact leaves_trans (others d different) (leaves_of_same (recv d) rheap)

theorem fed_of_send {before middle after : Server} {c : ConnId} {bytes : List Byte}
    (fed : Fed before middle c bytes) (same : forgetSend after = forgetSend middle) :
    Fed before after c bytes := by
  have pool := pool_view_of_send same
  have recvs := congrArg recvState same
  have recv : ∀ d, (after.conns d).recv = (middle.conns d).recv :=
    fun d => congrFun (congrArg RecvState.recvs recvs) d
  have rheap : after.rheap = middle.rheap := congrArg RecvState.rheap recvs
  have queue : after.msgRecvQueue = middle.msgRecvQueue := congrArg RecvState.queue recvs
  have occ : after.ghost.occ = middle.ghost.occ := congrArg QuarantinePool.Pool.owner pool
  refine ⟨occ.trans fed.occ, fun d => ?_, fun rest holding => ?_, fun d different => ?_⟩
  · rw [HeadSize, recv]
    exact fed.sizes d
  · obtain ⟨⟨bufs, appended, contents⟩, held⟩ := fed.parsed rest holding
    refine ⟨⟨bufs, by rw [queue, appended], by rw [rheap, contents]⟩, ?_⟩
    exact holding_of_leaves (leaves_of_same (recv c) rheap) (stamp_now_of_view pool c) held
  · exact leaves_trans (fed.others d different) (leaves_of_same (recv d) rheap)

theorem flooded_of_send {before middle after : Server} {c : ConnId}
    (flooded : Flooded before middle c) (same : forgetSend after = forgetSend middle) :
    Flooded before after c := by
  have recvs := congrArg recvState same
  have recv : ∀ d, (after.conns d).recv = (middle.conns d).recv :=
    fun d => congrFun (congrArg RecvState.recvs recvs) d
  have rheap : after.rheap = middle.rheap := congrArg RecvState.rheap recvs
  have queue : after.msgRecvQueue = middle.msgRecvQueue := congrArg RecvState.queue recvs
  have pool := pool_view_of_send same
  have occ : after.ghost.occ = middle.ghost.occ := congrArg QuarantinePool.Pool.owner pool
  have fd : (after.conns c).fd = (middle.conns c).fd :=
    congrFun (congrArg QuarantinePool.Pool.handle pool) c
  refine ⟨occ.trans flooded.occ, fd.trans flooded.fd, fun d => ?_, queue.trans flooded.queue,
    rheap ▸ flooded.freed, fun d different => ?_⟩
  · rw [HeadSize, recv]
    exact flooded.sizes d
  · exact leaves_trans (flooded.others d different) (leaves_of_same (recv d) rheap)

def received (c : ConnId) : Act → List (List Byte)
  | .event d revents (.data bytes) _ _ _ _ _ =>
      if d = c ∧ hasFlag revents epollIn = true then [bytes] else []
  | _ => []

/-- The buffers that the read handler of connection `c` hands to
`inMsgRecvQueueAndSignal` in a step, as they are then. -/
def handed (c : ConnId) (before : Server) (act : Act) (after : Server) : List (Option MsgBuf) :=
  match act with
  | .event d _ _ _ _ _ _ _ =>
      if d = c then (after.msgRecvQueue.drop before.msgRecvQueue.length).map after.rheap.block
      else []
  | _ => []

theorem settled_unused {server : Server} (attributed : Attributed server) : Unused server := by
  intro c spare
  by_contra serves
  exact in_service_busy attributed (owner_in_service attributed.settled serves) spare

theorem empty_unserved {server : Server} (attributed : Attributed server)
    (empty : server.connectionList = []) : Unserved server := by
  intro c
  by_contra serves
  have listed := (owner_in_service attributed.settled serves).1
  have none : (poolView server).all = [] := empty
  rw [none] at listed
  cases listed

theorem quiet_read_request_handler {server : Server} (cfg : Config) (c : ConnId)
    (outcome : RecvOutcome) (junk : Nat → Byte) (nowMs : Nat) (now : Int)
    (noData : ∀ bytes, outcome ≠ .data bytes) :
    Quiet server (ngxReadRequestHandler cfg server c outcome junk nowMs now) ∧
      (ngxReadRequestHandler cfg server c outcome junk nowMs now).msgRecvQueue =
        server.msgRecvQueue := by
  have closed : Quiet server (zdClosesocketProc cfg server c now) ∧
      (zdClosesocketProc cfg server c now).msgRecvQueue = server.msgRecvQueue := by
    have same := congrArg Server.msgRecvQueue (forget_close_zd cfg server c now)
    exact ⟨quiet_zd cfg server c now, same⟩
  unfold ngxReadRequestHandler recvproc
  split_ifs
  · exact closed
  · cases outcome with
    | data bytes => exact absurd rfl (noData bytes)
    | closed => exact closed
    | again => exact ⟨quiet_refl server, rfl⟩
    | error => exact closed

structure Silent (before : Server) (act : Act) (after : Server) : Prop where
  quiet : Quiet before after
  received : ∀ c, received c act = []
  handed : ∀ c, handed c before act after = []

structure Feeds (before : Server) (act : Act) (after : Server) (c : ConnId)
    (bytes : List Byte) : Prop where
  live : before.ghost.occ c ≠ none
  fed : Fed before after c bytes
  received : ∀ d, received d act = if c = d then [bytes] else []
  handed : ∀ d, handed d before act after =
    if c = d then (after.msgRecvQueue.drop before.msgRecvQueue.length).map after.rheap.block
    else []

structure Floods (before : Server) (act : Act) (after : Server) (c : ConnId)
    (bytes : List Byte) : Prop where
  live : before.ghost.occ c ≠ none
  flooded : Flooded before after c
  received : ∀ d, received d act = if c = d then [bytes] else []
  handed : ∀ d, handed d before act after = []

section Events

variable {cfg : Config} {server : Server} {c : ConnId} {revents : BitVec 32}

theorem event_silent {recv : RecvOutcome}
    (idle : ¬(hasFlag revents epollIn = true ∧ ∃ bytes, recv = .data bytes)) (send : SendOutcome)
    (ctlOk : Bool) (junk : Nat → Byte) (nowMs : Nat) (now : Int) :
    Silent server (.event c revents recv send ctlOk junk nowMs now)
      (writeSide (readSide cfg server c revents recv junk nowMs now) c revents send ctlOk) := by
  have written := forget_send_write_side (readSide cfg server c revents recv junk nowMs now) c
    revents send ctlOk
  have queue := congrArg RecvState.queue (congrArg recvState written)
  have quiet : Quiet server (readSide cfg server c revents recv junk nowMs now) ∧
      (readSide cfg server c revents recv junk nowMs now).msgRecvQueue = server.msgRecvQueue := by
    unfold readSide
    split
    case isTrue readable =>
      apply quiet_read_request_handler cfg c recv junk nowMs now
      intro bytes same
      exact idle ⟨readable, bytes, same⟩
    case isFalse => exact ⟨quiet_refl server, rfl⟩
  refine ⟨quiet_trans quiet.1 (quiet_of_send written), fun d => ?_, fun d => ?_⟩
  · cases recv with
    | data bytes =>
        apply if_neg
        rintro ⟨-, readable⟩
        exact idle ⟨readable, bytes, rfl⟩
    | closed => rfl
    | again => rfl
    | error => rfl
  · have same : (writeSide (readSide cfg server c revents recv junk nowMs now) c revents send
        ctlOk).msgRecvQueue = server.msgRecvQueue := queue.trans quiet.2
    simp only [handed, same, List.drop_length, List.map_nil, ite_self]

section Data

variable {bytes : List Byte} {junk : Nat → Byte} {nowMs : Nat} (sound : Sound server)
  (receiving : Receiving server) (live : server.ghost.occ c ≠ none)
  (opened : (server.conns c).fd ≠ -1) (fits : bytes.length ≤ (server.conns c).recv.irecvlen)
  (readable : hasFlag revents epollIn = true)

include sound receiving live opened fits readable

theorem event_feeds (passes : isflood cfg server c bytes junk nowMs = false) (send : SendOutcome)
    (ctlOk : Bool) (now : Int) :
    Feeds server (.event c revents (.data bytes) send ctlOk junk nowMs now)
      (writeSide (readSide cfg server c revents (.data bytes) junk nowMs now) c revents send ctlOk)
      c bytes := by
  have fed := fed_read_request_handler sound receiving live opened fits passes now
  have reading : readSide cfg server c revents (.data bytes) junk nowMs now =
      ngxReadRequestHandler cfg server c (.data bytes) junk nowMs now := if_pos readable
  rw [← reading] at fed
  refine ⟨live, fed_of_send fed (forget_send_write_side _ c revents send ctlOk), fun d => ?_,
    fun d => rfl⟩
  simp only [received, readable, and_true]

theorem event_floods (floods : isflood cfg server c bytes junk nowMs = true) (send : SendOutcome)
    (ctlOk : Bool) (now : Int) :
    Floods server (.event c revents (.data bytes) send ctlOk junk nowMs now)
      (writeSide (readSide cfg server c revents (.data bytes) junk nowMs now) c revents send ctlOk)
      c bytes := by
  have flooded := flooded_read_request_handler sound receiving live opened fits floods now
  have reading : readSide cfg server c revents (.data bytes) junk nowMs now =
      ngxReadRequestHandler cfg server c (.data bytes) junk nowMs now := if_pos readable
  rw [← reading] at flooded
  have closed := flooded_of_send flooded (forget_send_write_side _ c revents send ctlOk)
  refine ⟨live, closed, fun d => ?_, fun d => ?_⟩
  · simp only [received, readable, and_true]
  · simp only [handed, closed.queue, List.drop_length, List.map_nil, ite_self]

end Data

end Events

inductive Receives (cfg : Config) (before : Server) (act : Act) (after : Server) : Prop
  | silent (silent : Silent before act after) : Receives cfg before act after
  | feeds (c : ConnId) (bytes : List Byte) (feeds : Feeds before act after c bytes) :
      Receives cfg before act after
  | floods (c : ConnId) (bytes : List Byte) (enabled : cfg.floodAkEnable = 1)
      (floods : Floods before act after c bytes) : Receives cfg before act after

theorem event_receives {cfg : Config} {server : Server} {c : ConnId} {revents : BitVec 32}
    {recv : RecvOutcome} (attributed : Attributed server) (sound : Sound server)
    (receiving : Receiving server) (serves : InService (poolView server) c)
    (possible : recv.possible (server.conns c).fd (server.conns c).recv.irecvlen = true)
    (send : SendOutcome) (ctlOk : Bool) (junk : Nat → Byte) (nowMs : Nat) (now : Int) :
    Receives cfg server (.event c revents recv send ctlOk junk nowMs now)
      (writeSide (readSide cfg server c revents recv junk nowMs now) c revents send ctlOk) := by
  by_cases reads : hasFlag revents epollIn = true ∧ ∃ bytes, recv = .data bytes
  · obtain ⟨readable, bytes, rfl⟩ := reads
    simp only [RecvOutcome.possible, decide_eq_true_eq] at possible
    obtain ⟨opened, -, fits⟩ := possible
    have live := open_in_service attributed.settled serves opened
    cases verdict : isflood cfg server c bytes junk nowMs with
    | false =>
        exact Receives.feeds c bytes
          (event_feeds sound receiving live opened fits readable verdict send ctlOk now)
    | true =>
        have enabled : cfg.floodAkEnable = 1 := by
          by_contra disabled
          have passes : isflood cfg server c bytes junk nowMs = false :=
            receive_states_passes disabled bytes.length junk nowMs
          rw [passes] at verdict
          cases verdict
        exact Receives.floods c bytes enabled
          (event_floods sound receiving live opened fits readable verdict send ctlOk now)
  · exact Receives.silent (event_silent reads send ctlOk junk nowMs now)

theorem step_receives {cfg : Config} {server after : Server} {act : Act}
    (attributed : Attributed server) (sound : Sound server)
    (receiving : Receiving server) (disciplined : Disciplined server act)
    (taken : step cfg server act = some after) : Receives cfg server act after := by
  cases stepped_of_step taken with
  | epollInit ctl now _ empty done =>
      exact Receives.silent ⟨quiet_epoll_init (empty_unserved attributed empty) cfg ctl now done,
        fun _ => rfl, fun _ => rfl⟩
  | accept oldc outcomes nonblockOk ctlOk now =>
      exact Receives.silent ⟨quiet_event_accept cfg nonblockOk ctlOk now outcomes server sound
        (settled_unused attributed), fun _ => rfl, fun _ => rfl⟩
  | event c revents recv send ctlOk junk nowMs now handler reported possible =>
      exact event_receives attributed sound receiving disciplined possible send ctlOk junk nowMs now
  | msgSend msg now =>
      exact Receives.silent ⟨quiet_queue_reply cfg server msg now, fun _ => rfl, fun _ => rfl⟩
  | semWait interrupted =>
      exact Receives.silent ⟨quiet_of_views rfl rfl rfl, fun _ => rfl, fun _ => rfl⟩
  | beginPass => exact Receives.silent ⟨quiet_of_views rfl rfl rfl, fun _ => rfl, fun _ => rfl⟩
  | element outcome ctlOk pos pMsgBuf =>
      exact Receives.silent ⟨quiet_of_send
        (forget_send_send_element server pos pMsgBuf outcome ctlOk), fun _ => rfl, fun _ => rfl⟩
  | endPass => exact Receives.silent ⟨quiet_of_views rfl rfl rfl, fun _ => rfl, fun _ => rfl⟩
  | take worker jobbuf rest idle front =>
      exact Receives.silent ⟨quiet_of_same (fun _ => rfl) rfl rfl fun _ _ => rfl,
        fun _ => rfl, fun _ => rfl⟩
  | process worker jobbuf junk now holds =>
      have processed := quiet_process_message cfg server jobbuf junk now
      exact Receives.silent ⟨quiet_trans processed
        (quiet_of_same (fun _ => rfl) rfl rfl fun _ _ => rfl), fun _ => rfl, fun _ => rfl⟩
  | release worker jobbuf holds =>
      exact Receives.silent ⟨quiet_release sound.owned holds, fun _ => rfl, fun _ => rfl⟩
  | monitorPop curTime =>
      exact Receives.silent ⟨quiet_of_monitor (forget_monitor_pop cfg server curTime),
        fun _ => rfl, fun _ => rfl⟩
  | monitorCheck now tmpmsg rest =>
      have popped : Quiet server { server with lsIdleList := rest } := quiet_of_views rfl rfl rfl
      exact Receives.silent ⟨quiet_trans popped
        (quiet_ping_check cfg { server with lsIdleList := rest } tmpmsg server.monitorTime now),
        fun _ => rfl, fun _ => rfl⟩
  | recycle currtime =>
      exact Receives.silent ⟨quiet_recy_connection_pass sound cfg currtime 0,
        fun _ => rfl, fun _ => rfl⟩
  | close c now => exact Receives.silent ⟨quiet_zd cfg server c now, fun _ => rfl, fun _ => rfl⟩

theorem stamp_now_kept {before after : Server} {c : ConnId} {o : OccId}
    (early : Attributed before) (late : Attributed after) (effect : Effect before after)
    (served : before.ghost.occ c = some o) (serves : after.ghost.occ c = some o) :
    stampNow after c = stampNow before c := by
  have first := (settled_stamps early.settled).current c o served
  have second := (settled_stamps late.settled).current c o serves
  have started := (settled_stamps early.settled).owner_lt c o served
  rw [effect.keeps.2 o started, first] at second
  have seq : (after.conns c).iCurrsequence = (before.conns c).iCurrsequence :=
    (congrArg Prod.snd second).symm
  simp only [stampNow, seq, served, serves]

/-- What a step does to a connection that holds `rest`: it parses what arrives for it, or
takes that for the end of a flood. -/
theorem step_parses {cfg : Config} {server after : Server} {act : Act} {c : ConnId} {o : OccId}
    {rest : List Byte} (attributed : Attributed server)
    (sound : Sound server) (receiving : Receiving server) (disciplined : Disciplined server act)
    (taken : step cfg server act = some after) (serves : server.ghost.occ c = some o)
    (holding : Holding server c rest) :
    (handed c server act after = (emitted (rest ++ (received c act).flatten)).map
        (fun pkg => some { hdr := stampNow server c, pkg := pkg }) ∧
      (after.ghost.occ c = some o →
        Holding after c (cut packages (rest ++ (received c act).flatten)).2)) ∨
      cfg.floodAkEnable = 1 ∧ after.ghost.occ c = none ∧ handed c server act after = [] := by
  have later := attributed_step attributed disciplined taken
  have effect := effect_step attributed disciplined taken
  have whole := holding_incomplete holding
  have goesOn : Leaves server after c → after.ghost.occ c = some o → Holding after c rest :=
    fun leaves still =>
      holding_of_leaves leaves (stamp_now_kept attributed later effect serves still) holding
  cases step_receives attributed sound receiving disciplined taken with
  | silent silent =>
      rw [silent.received, silent.handed, List.flatten_nil, List.append_nil, emitted, whole]
      refine Or.inl ⟨rfl, fun still => ?_⟩
      rcases silent.quiet.lives c o still with ⟨-, leaves⟩ | ⟨new, -⟩
      · exact goesOn leaves still
      · have started := (settled_stamps attributed.settled).owner_lt c o serves
        exact absurd started (Nat.not_lt.mpr new)
  | feeds d bytes feeds =>
      rw [feeds.received, feeds.handed]
      apply Or.inl
      by_cases same : d = c
      · obtain ⟨⟨bufs, appended, contents⟩, held⟩ := feeds.fed.parsed rest (same ▸ holding)
        subst same
        have bytesOnly : [bytes].flatten = bytes := by simp
        rw [if_pos rfl, if_pos rfl, appended, List.drop_left, contents, bytesOnly]
        exact ⟨rfl, fun _ => held⟩
      · rw [if_neg same, if_neg same, List.flatten_nil, List.append_nil, emitted, whole]
        exact ⟨rfl, goesOn (feeds.fed.others c fun other => same other.symm)⟩
  | floods d bytes enabled floods =>
      by_cases same : d = c
      · subst same
        refine Or.inr ⟨enabled, ?_, floods.handed d⟩
        rw [floods.flooded.occ, Function.update_self]
      · rw [floods.received, floods.handed, if_neg same, List.flatten_nil, List.append_nil, emitted,
          whole]
        exact Or.inl ⟨rfl, goesOn (floods.flooded.others c fun other => same other.symm)⟩

theorem receiving_step {cfg : Config} {server after : Server} {act : Act}
    (attributed : Attributed server) (sound : Sound server)
    (receiving : Receiving server) (disciplined : Disciplined server act)
    (taken : step cfg server act = some after) : Receiving after := by
  have goesOn : ∀ c o, server.ghost.occ c = some o → after.ghost.occ c = some o →
      ∃ rest, Holding after c rest := by
    intro c o served serves
    obtain ⟨rest, holding⟩ := receiving.holds c (by simp [served])
    rcases step_parses attributed sound receiving disciplined taken served holding with
      ⟨-, parsed⟩ | ⟨-, ended, -⟩
    · exact ⟨_, parsed serves⟩
    · rw [ended] at serves
      cases serves
  cases step_receives attributed sound receiving disciplined taken with
  | silent silent =>
      refine ⟨silent.quiet.sizes receiving.sizes, fun c live => ?_⟩
      obtain ⟨o, serves⟩ := Option.ne_none_iff_exists'.mp live
      rcases silent.quiet.lives c o serves with ⟨served, -⟩ | ⟨-, ready⟩
      · exact goesOn c o served serves
      · exact ⟨[], Or.inl ready⟩
  | feeds d bytes feeds =>
      refine ⟨feeds.fed.sizes, fun c live => ?_⟩
      obtain ⟨o, serves⟩ := Option.ne_none_iff_exists'.mp live
      exact goesOn c o (by rw [← feeds.fed.occ]; exact serves) serves
  | floods d bytes enabled floods =>
      refine ⟨floods.flooded.sizes, fun c live => ?_⟩
      obtain ⟨o, serves⟩ := Option.ne_none_iff_exists'.mp live
      have owner := serves
      rw [floods.flooded.occ] at owner
      exact goesOn c o (serves_elsewhere owner).2 serves

theorem fresh_receiving {server : Server} (fresh : Fresh server) : Receiving server := by
  obtain ⟨listenFds, -, -, rfl⟩ := fresh
  exact ⟨fun _ => List.length_replicate .., fun _ live => absurd rfl live⟩

theorem reachable_receiving {cfg : Config} {server : Server}
    (reached : Reachable cfg Disciplined server) :
    (Attributed server ∧ Sound server) ∧ Receiving server := by
  refine TransitionSystem.invariant_of_step
    (fun server => (Attributed server ∧ Sound server) ∧ Receiving server) ?_ ?_ reached
  · exact fun _ fresh => ⟨⟨fresh_attributed fresh, fresh_sound fresh⟩, fresh_receiving fresh⟩
  · rintro before act after ⟨⟨attributed, sound⟩, receiving⟩ disciplined taken
    exact ⟨⟨attributed_step attributed disciplined taken,
      sound_step attributed sound disciplined taken⟩,
      receiving_step attributed sound receiving disciplined taken⟩

/-- A run during which connection `c` serves occupancy `o`, with the results of
its calls of `recv` and the buffers handed over for it. -/
inductive Serving (cfg : Config) (c : ConnId) (o : OccId) (start : Server) :
    Server → List (List Byte) → List (Option MsgBuf) → Prop
  | refl : Serving cfg c o start start [] []
  | tail {before after : Server} {act : Act} {chunks : List (List Byte)}
      {buffers : List (Option MsgBuf)} (run : Serving cfg c o start before chunks buffers)
      (serves : before.ghost.occ c = some o) (disciplined : Disciplined before act)
      (taken : step cfg before act = some after) :
      Serving cfg c o start after (chunks ++ received c act)
        (buffers ++ handed c before act after)

theorem serving_reachable {cfg : Config} {c : ConnId} {o : OccId} {start finish : Server}
    {chunks : List (List Byte)} {buffers : List (Option MsgBuf)}
    (reached : Reachable cfg Disciplined start)
    (run : Serving cfg c o start finish chunks buffers) : Reachable cfg Disciplined finish := by
  induction run with
  | refl => exact reached
  | tail _ _ disciplined taken ih =>
      exact TransitionSystem.reachable_steps ih
        (TransitionSystem.steps_single disciplined taken)

/-- Along such a run the chunks are fed to the reference parser. -/
theorem serving_feeds {cfg : Config} {c : ConnId} {o : OccId} {start finish : Server}
    {chunks : List (List Byte)} {buffers : List (Option MsgBuf)}
    (flood : cfg.floodAkEnable ≠ 1) (reached : Reachable cfg Disciplined start)
    (ready : Holding start c []) (run : Serving cfg c o start finish chunks buffers) :
    buffers = (emitted chunks.flatten).map
        (fun pkg => some { hdr := stampNow start c, pkg := pkg }) ∧
      (finish.ghost.occ c = some o → stampNow finish c = stampNow start c ∧
        Holding finish c (cut packages chunks.flatten).2) := by
  induction run with
  | refl =>
      rw [List.flatten_nil, emitted, holding_incomplete ready]
      exact ⟨rfl, fun _ => ⟨rfl, ready⟩⟩
  | @tail before after act chunks buffers run serves disciplined taken ih =>
      obtain ⟨handedOver, goesOn⟩ := ih
      obtain ⟨stamp, holding⟩ := goesOn serves
      obtain ⟨⟨attributed, sound⟩, receiving⟩ :=
        reachable_receiving (serving_reachable reached run)
      obtain ⟨now, still⟩ := (step_parses attributed sound receiving disciplined taken serves
        holding).resolve_right fun floods => flood floods.1
      have later := attributed_step attributed disciplined taken
      have effect := effect_step attributed disciplined taken
      have whole := StreamSplitter.cut_append packages chunks.flatten (received c act).flatten
      rw [List.flatten_append, whole, emitted_append]
      refine ⟨?_, fun served => ⟨?_, still served⟩⟩
      · rw [handedOver, now, stamp, List.map_append]
      · rw [stamp_now_kept attributed later effect serves served, stamp]

theorem issued_holding {cfg : Config} {before start : Server} {act : Act} {c : ConnId} {o : OccId}
    (reached : Reachable cfg Disciplined before)
    (disciplined : Disciplined before act) (issued : step cfg before act = some start)
    (new : before.ghost.occ c ≠ some o) (serves : start.ghost.occ c = some o) :
    Holding start c [] := by
  obtain ⟨⟨attributed, sound⟩, receiving⟩ := reachable_receiving reached
  cases step_receives attributed sound receiving disciplined issued with
  | silent silent =>
      rcases silent.quiet.lives c o serves with ⟨served, -⟩ | ⟨-, ready⟩
      · exact absurd served new
      · exact Or.inl ready
  | feeds d bytes feeds =>
      rw [feeds.fed.occ] at serves
      exact absurd serves new
  | floods d bytes enabled floods =>
      rw [floods.flooded.occ] at serves
      exact absurd (serves_elsewhere serves).2 new

/-- Whatever else the process does, and however the stream of one occupancy is
cut into the results of `recv`, without flood detection the buffers handed
over are the packages that the reference parser finds in the stream, each
stamped with the connection and its sequence number; the pieces it finds make
up the stream, and what is left over is what the connection holds. -/
theorem reassembly_is_reference (cfg : Config) (flood : cfg.floodAkEnable ≠ 1)
    {before start finish : Server} {act : Act} {c : ConnId} {o : OccId}
    {chunks : List (List Byte)} {buffers : List (Option MsgBuf)}
    (reached : Reachable cfg Disciplined before) (disciplined : Disciplined before act)
    (issued : step cfg before act = some start) (new : before.ghost.occ c ≠ some o)
    (serves : start.ghost.occ c = some o) (run : Serving cfg c o start finish chunks buffers) :
    buffers = (emitted chunks.flatten).map (fun pkg => some
        { hdr := { pConn := c, iCurrsequence := (start.conns c).iCurrsequence, occ := some o }
          pkg := pkg }) ∧
      (cut packages chunks.flatten).1.flatMap Piece.bytes ++ (cut packages chunks.flatten).2 =
        chunks.flatten ∧
      (finish.ghost.occ c = some o → Holding finish c (cut packages chunks.flatten).2) := by
  have ready := issued_holding reached disciplined issued new serves
  have started := TransitionSystem.reachable_steps reached
    (TransitionSystem.steps_single disciplined issued)
  obtain ⟨handedOver, goesOn⟩ := serving_feeds flood started ready run
  refine ⟨?_, StreamSplitter.cut_lossless packages chunks.flatten, fun still => (goesOn still).2⟩
  rw [handedOver]
  simp only [stampNow, serves]

theorem serving_cons {cfg : Config} {c : ConnId} {o : OccId} {start next finish : Server}
    {act : Act} {chunks : List (List Byte)} {buffers : List (Option MsgBuf)}
    (serves : start.ghost.occ c = some o) (disciplined : Disciplined start act)
    (taken : step cfg start act = some next)
    (run : Serving cfg c o next finish chunks buffers) :
    Serving cfg c o start finish (received c act ++ chunks)
      (handed c start act next ++ buffers) := by
  induction run with
  | refl =>
      have here : Serving cfg c o start start [] [] := Serving.refl
      have first := Serving.tail here serves disciplined taken
      simpa using first
  | tail _ served permitted later ih =>
      have longer := Serving.tail ih served permitted later
      simpa only [List.append_assoc] using longer

def record (cfg : Config) (c : ConnId) (o : OccId) :
    Server → List Act → Option (Server × List (List Byte) × List (Option MsgBuf))
  | server, [] => some (server, [], [])
  | server, act :: rest =>
      if server.ghost.occ c = some o ∧ Disciplined server act then
        match step cfg server act with
        | none => none
        | some next =>
            (record cfg c o next rest).map fun result =>
              (result.1, received c act ++ result.2.1, handed c server act next ++ result.2.2)
      else none

theorem serving_of_record {cfg : Config} {c : ConnId} {o : OccId} {acts : List Act}
    {start : Server} {result : Server × List (List Byte) × List (Option MsgBuf)}
    (recorded : record cfg c o start acts = some result) :
    Serving cfg c o start result.1 result.2.1 result.2.2 := by
  induction acts generalizing start result with
  | nil =>
      cases recorded
      exact Serving.refl
  | cons act rest ih =>
      unfold record at recorded
      split at recorded
      case isTrue permitted =>
        split at recorded
        case h_1 => cases recorded
        case h_2 next taken =>
          obtain ⟨later, remaining, same⟩ := Option.map_eq_some_iff.mp recorded
          cases same
          exact serving_cons permitted.1 permitted.2 taken (ih remaining)
      case isFalse => cases recorded

def unflooded : Config := { sampleConfig with floodAkEnable := 0 }

def recvBytes (bytes : List Byte) : Act :=
  .event 1 epollIn (.data bytes) .eagain true (fun _ => 7) 0 1002

def cutStream : List Act :=
  [recvBytes [0, 10, 0, 5], recvBytes [0, 0, 0, 0], recvBytes [1], .recycle 1003, recvBytes [2],
    recvBytes [0, 3, 0, 0, 0, 0, 0, 0], recvBytes [0, 8]]

def cutChunks : List (List Byte) :=
  [[0, 10, 0, 5], [0, 0, 0, 0], [1], [2], [0, 3, 0, 0, 0, 0, 0, 0], [0, 8]]

def cutBuffers : List (Option MsgBuf) :=
  [some { hdr := { pConn := 1, iCurrsequence := 1, occ := some 0 }
          pkg := [0, 10, 0, 5, 0, 0, 0, 0, 1, 2] }]

theorem reassembly_is_reference_sample :
    ∃ start finish, Serving unflooded 1 0 start finish cutChunks cutBuffers ∧
      Holding finish 1 (cut packages cutChunks.flatten).2 := by
  have seen : (run unflooded Disciplined [.epollInit (fun _ => true) 1000]).map (fun before =>
      (step unflooded before (.accept 0 [.ok 5] true true 1001)).bind fun start =>
        (record unflooded 1 0 start cutStream).map fun result =>
          decide (before.ghost.occ 1 = none ∧ start.ghost.occ 1 = some 0 ∧
            result.1.ghost.occ 1 = some 0 ∧ result.2 = (cutChunks, cutBuffers))) =
      some (some true) := by
    decide
  obtain ⟨before, reached, stepped⟩ := reachable_of_seen seen
  obtain ⟨start, issued, recorded⟩ := Option.bind_eq_some_iff.mp stepped
  obtain ⟨result, executed, shown⟩ := Option.map_eq_some_iff.mp recorded
  obtain ⟨new, serves, still, same⟩ := of_decide_eq_true shown
  have serving := serving_of_record executed
  rw [same] at serving
  have disciplined : Disciplined before (.accept 0 [.ok 5] true true 1001) := trivial
  obtain ⟨-, -, held⟩ := reassembly_is_reference unflooded (by decide) reached disciplined issued
    (by simp [new]) serves serving
  exact ⟨start, result.1, serving, held still⟩

end NgxServer.ByteStream
