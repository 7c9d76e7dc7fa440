import NgxServer.Occupancy

/-!
# The counters of a client

The counters that `TestFlood` and `msgSend` keep in a connection object belong
to its client: nothing but these functions and the send thread changes them
while the client is served, and the next client of the object starts from zero.
-/

namespace NgxServer.Security

open NgxServer.Comm NgxServer.State NgxServer.ConnPool NgxServer.TimerQueue NgxServer.Socket
open NgxServer.Request NgxServer.Accept NgxServer.Logic NgxServer.System NgxServer.Frames
open NgxServer.PoolRefinement NgxServer.Occupancy

set_option autoImplicit false

def zeroed : SecurityPart := { floodkickLastTime := 0, floodAttackCount := 0, iSendCount := 0 }

/-- A client that goes on keeps its counters, as far as they are looked at, and a
new one starts from zero. -/
structure Continues {View : Type} (view : SecurityPart → View) (before after : Server) : Prop where
  grows : before.ghost.nextOcc ≤ after.ghost.nextOcc
  lives : ∀ c o, after.ghost.occ c = some o →
    before.ghost.occ c = some o ∧
        view (after.conns c).security = view (before.conns c).security ∨
      before.ghost.nextOcc ≤ o ∧ view (after.conns c).security = view zeroed

section Rules

variable {View : Type} {view : SecurityPart → View} {before middle after server : Server}

theorem continues_of_same
    (kept : ∀ c, view (after.conns c).security = view (before.conns c).security)
    (next : after.ghost.nextOcc = before.ghost.nextOcc)
    (owners : ∀ c, after.ghost.occ c = before.ghost.occ c ∨ after.ghost.occ c = none) :
    Continues view before after := by
  refine ⟨next.ge, fun c o serves => Or.inl ⟨?_, kept c⟩⟩
  rcases owners c with same | ended
  · rw [← same, serves]
  · rw [ended] at serves
    cases serves

theorem continues_refl (server : Server) : Continues view server server :=
  continues_of_same (fun _ => rfl) rfl fun _ => Or.inl rfl

theorem continues_trans (early : Continues view before middle)
    (late : Continues view middle after) : Continues view before after := by
  refine ⟨early.grows.trans late.grows, fun c o serves => ?_⟩
  rcases late.lives c o serves with ⟨served, kept⟩ | ⟨fresh, zero⟩
  · rcases early.lives c o served with ⟨older, same⟩ | ⟨fresh, zero⟩
    · exact Or.inl ⟨older, kept.trans same⟩
    · exact Or.inr ⟨fresh, kept.trans zero⟩
  · exact Or.inr ⟨early.grows.trans fresh, zero⟩

theorem continues_mod_conn (server : Server) (c : ConnId) (change : NgxConnection → NgxConnection)
    (kept : view (change (server.conns c)).security = view (server.conns c).security) :
    Continues view server (server.modConn c change) :=
  continues_of_same (fun d => mod_conn_keeps (fun p => view p.security) server c d change kept) rfl
    fun _ => Or.inl rfl

theorem continues_zd (cfg : Config) (server : Server) (c : ConnId) (now : Int) :
    Continues view server (zdClosesocketProc cfg server c now) := by
  have same := forget_close_zd cfg server c now
  have next := congrArg (fun server => server.ghost.nextOcc) same
  refine continues_of_same (fun d => ?_) next fun d => ?_
  · have kept := congrArg (fun server => view (server.conns d).security) same
    exact kept
  · rw [zd_occ, Function.update_apply]
    split
    · exact Or.inr rfl
    · exact Or.inl rfl

end Rules

section Pool

variable {View : Type} {view : SecurityPart → View} {before after server : Server}

theorem continues_free_connection (server : Server) (c : ConnId) :
    Continues view server (ngxFreeConnection server c) := by
  refine continues_of_same (fun d => ?_) rfl fun d => ?_
  · exact mod_conn_keeps (fun p => view p.security) server c d (fun q =>
      { q with
        iCurrsequence := q.iCurrsequence + 1
        recv.precvMemPointer := BlockHeap.null
        send := { q.send with psendMemPointer := BlockHeap.null, iThrowsendCount := 0 } }) rfl
  · have owner : (ngxFreeConnection server c).ghost.occ =
        Function.update server.ghost.occ c none := rfl
    rw [owner, Function.update_apply]
    split
    · exact Or.inr rfl
    · exact Or.inl rfl

theorem continues_close_if_open (server : Server) (c : ConnId) :
    Continues view server (closeIfOpen server c) := by
  have same := forget_close_close_if_open server c
  have next := congrArg (fun server => server.ghost.nextOcc) same
  refine continues_of_same (fun d => ?_) next fun d => Or.inl ?_
  · have kept := congrArg (fun server => view (server.conns d).security) same
    exact kept
  · unfold closeIfOpen
    split <;> rfl

theorem continues_close_connection (server : Server) (c : ConnId) :
    Continues view server (ngxCloseConnection server c) :=
  continues_trans (continues_free_connection server c) (continues_close_if_open _ c)

theorem continues_epoll_oper (server : Server) (fd : Int) (eventtype : EpollCtl)
    (flag : BitVec 32) (bcaction : Nat) (c : ConnId) (ctlOk : Bool) :
    Continues view server (ngxEpollOperEvent server fd eventtype flag bcaction c ctlOk).1 := by
  obtain ⟨events, kmask, same⟩ :=
    ngx_epoll_oper_event_frame server fd eventtype flag bcaction c ctlOk
  rw [same]
  have masked : Continues view server { server with kmask := kmask } :=
    continues_of_same (fun _ => rfl) rfl fun _ => Or.inl rfl
  exact continues_trans masked
    (continues_mod_conn { server with kmask := kmask } c (fun p => { p with events := events }) rfl)

theorem continues_register_connection (cfg : Config) (server : Server) (newc : ConnId) (s : Int)
    (nonblockOk ctlOk : Bool) (now : Int) :
    Continues view server (registerConnection cfg server newc s nonblockOk ctlOk now) := by
  have handled : Continues view server
      (server.modConn newc fun p => { p with rhandler := .ngxReadRequestHandler }) :=
    continues_mod_conn server newc _ rfl
  have registered := continues_trans handled (continues_epoll_oper
    (server.modConn newc fun p => { p with rhandler := .ngxReadRequestHandler }) s .add
    (epollIn ||| epollRdhup) 0 newc ctlOk)
  unfold registerConnection
  split
  · exact continues_close_connection server newc
  · dsimp only
    split
    · exact continues_trans registered (continues_close_connection _ newc)
    · apply continues_trans registered
      split <;> exact continues_of_same (fun _ => rfl) rfl fun _ => Or.inl rfl

theorem continues_issue (server : Server) (isock now : Int) :
    Continues view server (openOccupancy (ngxGetConnection server isock now).2
      (ngxGetConnection server isock now).1) := by
  obtain ⟨base, _, _, _, _, _, -, same⟩ := ngx_get_connection_frame server isock now
  generalize (ngxGetConnection server isock now).1 = newc at same ⊢
  rw [same]
  refine ⟨Nat.le_succ _, fun c o serves => ?_⟩
  have owner : Function.update server.ghost.occ newc (some server.ghost.nextOcc) c = some o :=
    serves
  by_cases issued : c = newc
  · subst issued
    rw [Function.update_self] at owner
    refine Or.inr ⟨(Option.some.inj owner).le, ?_⟩
    dsimp only [openOccupancy]
    rw [Function.update_self]
    rfl
  · rw [Function.update_of_ne issued] at owner
    refine Or.inl ⟨owner, ?_⟩
    dsimp only [openOccupancy]
    rw [Function.update_of_ne issued]

theorem continues_accept_socket (cfg : Config) (server : Server) (s : Int) (nonblockOk ctlOk : Bool)
    (now : Int) : Continues view server (acceptSocket cfg server s nonblockOk ctlOk now) := by
  unfold acceptSocket
  split_ifs
  · exact continues_of_same (fun _ => rfl) rfl fun _ => Or.inl rfl
  · exact continues_of_same (fun _ => rfl) rfl fun _ => Or.inl rfl
  · exact continues_trans (continues_issue server s now)
      (continues_register_connection cfg _ _ s nonblockOk ctlOk now)

theorem continues_event_accept (cfg : Config) (nonblockOk ctlOk : Bool) (now : Int)
    (outcomes : List AcceptOutcome) (server : Server) :
    Continues view server (ngxEventAccept cfg server nonblockOk ctlOk now outcomes) := by
  induction outcomes generalizing server with
  | nil => exact continues_refl server
  | cons outcome rest ih =>
      cases outcome with
      | ok s =>
          have opened : Continues view server (openSocket server s) :=
            continues_of_same (fun _ => rfl) rfl fun _ => Or.inl rfl
          exact continues_trans opened (continues_accept_socket cfg _ s nonblockOk ctlOk now)
      | err code =>
          have switched : Continues view server { server with useAccept4 := false } :=
            continues_of_same (fun _ => rfl) rfl fun _ => Or.inl rfl
          unfold ngxEventAccept
          split_ifs
          · exact continues_refl server
          · exact continues_trans switched (ih _)
          · exact continues_refl server

theorem continues_epoll_init (attributed : Attributed server) {cfg : Config} {ctl : Int → Bool}
    {now : Int} (empty : server.connectionList = [])
    (done : ngxEpollInit cfg server ctl now = some after) : Continues view server after := by
  have pool := ngx_epoll_init_view cfg server after ctl now done
  have owner : after.ghost.occ = server.ghost.occ :=
    (congrArg QuarantinePool.Pool.owner pool).trans (QuarantinePool.set_up_owner _ _)
  have effect := effect_epoll_init cfg server after ctl now done
  refine ⟨effect.keeps.1, fun c o serves => ?_⟩
  rw [owner] at serves
  have live : (poolView server).owner c ≠ none := Option.ne_none_iff_exists'.mpr ⟨o, serves⟩
  have used := (owner_in_service attributed.settled live).1
  rw [show (poolView server).all = [] from empty] at used
  cases used

theorem continues_recy_connection_pass (cfg : Config) (server : Server)
    (currtime gStopEvent : Int) :
    Continues view server (serverRecyConnectionPass cfg server currtime gStopEvent) := by
  have looped : ∀ rounds (state : Server),
      Continues view state (lblRRTD cfg currtime gStopEvent rounds state) := by
    intro rounds
    induction rounds with
    | zero => exact continues_refl
    | succ rounds ih =>
        intro state
        unfold lblRRTD
        split
        · exact continues_refl state
        case h_2 c found =>
          have erased : Continues view state
              { state with
                totolRecyconnectionN := state.totolRecyconnectionN - 1
                recyconnectionList := state.recyconnectionList.erase c } :=
            continues_of_same (fun _ => rfl) rfl fun _ => Or.inl rfl
          exact continues_trans (continues_trans erased (continues_free_connection _ c)) (ih _)
  unfold serverRecyConnectionPass
  split
  · exact looped _ server
  · exact continues_refl server

theorem continues_ping_check (cfg : Config) (server : Server) (tmpmsg : Nat) (curTime now : Int) :
    Continues view server (procPingTimeOutChecking cfg server tmpmsg curTime now) := by
  have freed : ∀ checked : Server, Continues view checked (freeRecord checked tmpmsg) :=
    fun _ => continues_of_same (fun _ => rfl) rfl fun _ => Or.inl rfl
  unfold procPingTimeOutChecking
  split
  · exact continues_refl server
  case h_2 record found =>
    refine continues_trans ?_ (freed _)
    unfold kickOverdue
    split_ifs
    · have logged : Continues view server (logKick server record) :=
        continues_of_same (fun _ => rfl) rfl fun _ => Or.inl rfl
      exact continues_trans logged (continues_zd cfg (logKick server record) record.pConn now)
    · exact continues_refl server
    · exact continues_refl server

end Pool

end NgxServer.Security
