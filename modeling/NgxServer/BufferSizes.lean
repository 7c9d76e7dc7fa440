import NgxServer.Codec
import NgxServer.ByteStream

/-!
# The size of a receive buffer

`proc_p1` allocates as many bytes behind the message header as the package
header announces. Nothing changes that number afterwards, neither the header
in the buffer nor its length, whoever holds the buffer.
-/

namespace NgxServer.BufferSizes

open NgxServer.Comm NgxServer.State NgxServer.ConnPool NgxServer.TimerQueue NgxServer.Socket
open NgxServer.Request NgxServer.Accept NgxServer.Logic NgxServer.System NgxServer.Frames
open NgxServer.PoolRefinement NgxServer.Occupancy NgxServer.RecvOwnership NgxServer.Reassembly
open NgxServer.ByteStream NgxServer.Codec
open BlockHeap (Within within_refl within_trans within_free)
open QuarantinePool (InService)

set_option autoImplicit false

/-- A package as `proc_p1` accepts it: of the length that its header says, and
not too long. -/
structure Accepted (msg : MsgBuf) : Prop where
  sized : Sized msg
  bound : msg.pkg.length ≤ pkgMaxLength - 1000

def AllSized (server : Server) : Prop :=
  ∀ buf msg, server.rheap.block buf = some msg → Accepted msg

theorem all_sized_of_within {before after : Server} (sized : AllSized before)
    (within : Within after.rheap before.rheap) : AllSized after :=
  fun buf msg live => sized buf msg (within buf msg live)

section Within

variable (cfg : Config) (server : Server)

theorem zd_rheap (c : ConnId) (now : Int) :
    (zdClosesocketProc cfg server c now).rheap = server.rheap :=
  congrArg (fun server => server.rheap) (forget_close_zd cfg server c now)

theorem queue_reply_rheap (msg : MsgBuf) (now : Int) :
    (queueReply cfg server msg now).rheap = server.rheap := by
  rcases queue_reply_cases cfg server msg now with dropped | ⟨-, closed⟩ | queued
  · rw [dropped]
    rfl
  · rw [closed, zd_rheap]
    rfl
  · rw [queued]
    exact congrArg (fun server => server.rheap)
      (forget_send_push (allocReply server msg) server.sheap.next msg)

theorem process_message_rheap (jobbuf : Nat) (junk : Nat → Byte) (now : Int) :
    (processMessage cfg server jobbuf junk now).rheap = server.rheap := by
  rcases process_message_cases cfg server jobbuf junk now with
    same | ⟨msg, dispatched, -, -, logged, ends⟩
  · rw [same]
  · have early : dispatched.rheap = server.rheap := by rw [logged]
    rcases ends with silent | ⟨answer, noted, -, -, notes, replies⟩
    · rw [silent, early]
    · rw [replies, queue_reply_rheap]
      rcases notes with same | same
      · rw [same, early]
      · rw [same]
        exact early

theorem ping_check_rheap (tmpmsg : Nat) (curTime now : Int) :
    (procPingTimeOutChecking cfg server tmpmsg curTime now).rheap = server.rheap := by
  unfold procPingTimeOutChecking
  split
  · rfl
  case h_2 record found =>
    have kicked : (kickOverdue cfg server record curTime now).rheap = server.rheap := by
      unfold kickOverdue
      split_ifs
      · exact zd_rheap cfg (logKick server record) record.pConn now
      · rfl
      · rfl
    exact kicked

theorem get_connection_rheap (isock now : Int) :
    (ngxGetConnection server isock now).2.rheap = server.rheap := by
  unfold ngxGetConnection
  split <;> rfl

theorem epoll_oper_rheap (fd : Int) (eventtype : EpollCtl) (flag : BitVec 32) (bcaction : Nat)
    (c : ConnId) (ctlOk : Bool) :
    (ngxEpollOperEvent server fd eventtype flag bcaction c ctlOk).1.rheap = server.rheap :=
  congrArg (fun server => server.rheap)
    (forget_send_epoll_oper server fd eventtype flag bcaction c ctlOk)

theorem close_connection_within (c : ConnId) :
    Within (ngxCloseConnection server c).rheap server.rheap := by
  have freed : (ngxCloseConnection server c).rheap =
      BlockHeap.free server.rheap (server.conns c).recv.precvMemPointer := by
    unfold ngxCloseConnection closeIfOpen
    split <;> rfl
  rw [freed]
  exact within_free _ _

theorem register_connection_within (newc : ConnId) (s : Int) (nonblockOk ctlOk : Bool)
    (now : Int) :
    Within (registerConnection cfg server newc s nonblockOk ctlOk now).rheap server.rheap := by
  have registered : (ngxEpollOperEvent
      (server.modConn newc fun p => { p with rhandler := .ngxReadRequestHandler }) s .add
      (epollIn ||| epollRdhup) 0 newc ctlOk).1.rheap = server.rheap :=
    epoll_oper_rheap _ _ _ _ _ _ _
  unfold registerConnection
  split
  · exact close_connection_within server newc
  · dsimp only
    split
    · rw [← registered]
      exact close_connection_within _ newc
    · rw [← registered]
      split <;> exact within_refl _

theorem event_accept_within (nonblockOk ctlOk : Bool) (now : Int)
    (outcomes : List AcceptOutcome) :
    Within (ngxEventAccept cfg server nonblockOk ctlOk now outcomes).rheap server.rheap := by
  induction outcomes generalizing server with
  | nil => exact within_refl _
  | cons outcome rest ih =>
      cases outcome with
      | ok s =>
          have issued : (ngxGetConnection (openSocket server s) s now).2.rheap = server.rheap :=
            get_connection_rheap (openSocket server s) s now
          unfold ngxEventAccept acceptSocket
          split_ifs
          · exact within_refl _
          · exact within_refl _
          · rw [← issued]
            exact register_connection_within cfg _ _ s nonblockOk ctlOk now
      | err code =>
          unfold ngxEventAccept
          split_ifs
          · exact within_refl _
          · exact ih { server with useAccept4 := false }
          · exact within_refl _

theorem initconnection_rheap (now : Int) :
    (initconnection cfg now server).rheap = server.rheap := by
  have filled : ∀ count state,
      (Nat.iterate (addFreeConnection now) count state).rheap = state.rheap := by
    intro count
    induction count with
    | zero => exact fun _ => rfl
    | succ count ih => exact fun state => ih (addFreeConnection now state)
  exact filled cfg.workerConnections server

theorem epoll_init_rheap (ctl : Int → Bool) (now : Int) {after : Server}
    (done : ngxEpollInit cfg server ctl now = some after) : after.rheap = server.rheap := by
  have listened : ∀ state next fd, listenOn ctl now state fd = some next →
      next.rheap = state.rheap := by
    intro state next fd listens
    unfold listenOn at listens
    dsimp only at listens
    split at listens
    · cases listens
    · cases listens
      exact (epoll_oper_rheap _ _ _ _ _ _ _).trans (get_connection_rheap state fd now)
  have reserved : ∀ fds state, List.foldlM (listenOn ctl now) state fds = some after →
      after.rheap = state.rheap := by
    intro fds
    induction fds with
    | nil =>
        intro state same
        cases same
        rfl
    | cons fd rest ih =>
        intro state loops
        rw [List.foldlM_cons] at loops
        obtain ⟨next, listens, later⟩ := Option.bind_eq_some_iff.mp loops
        exact (ih next later).trans (listened state next fd listens)
  exact (reserved server.listenFds _ done).trans (initconnection_rheap cfg server now)

theorem recy_connection_pass_within (currtime gStopEvent : Int) :
    Within (serverRecyConnectionPass cfg server currtime gStopEvent).rheap server.rheap := by
  have looped : ∀ rounds state,
      Within (lblRRTD cfg currtime gStopEvent rounds state).rheap state.rheap := by
    intro rounds
    induction rounds with
    | zero => exact fun _ => within_refl _
    | succ rounds ih =>
        intro state
        unfold lblRRTD
        split
        · exact within_refl _
        case h_2 c found =>
          exact within_trans (ih (releaseConnection state c)) (within_free _ _)
  unfold serverRecyConnectionPass
  split
  · exact looped _ server
  · exact within_refl _

end Within

section Receives

variable {server : Server} {c : ConnId}

theorem all_sized_store_bytes {rest bytes : List Byte} (sized : AllSized server)
    (holding : Holding server c rest)
    (fits : bytes.length ≤ (server.conns c).recv.irecvlen) :
    AllSized (storeBytes server c bytes) := by
  rcases holding with head | body
  · rw [storeBytes, head.window]
    exact sized
  · obtain ⟨pkg, block, size, -⟩ := body.buffer
    have header := body.header
    have missing := body.missing
    intro buf msg live
    have stored : (storeBytes server c bytes).rheap.block buf =
        if buf = (server.conns c).recv.precvMemPointer then
          (server.rheap.block buf).map fun msg =>
            { msg with pkg := overwrite msg.pkg rest.length bytes }
        else server.rheap.block buf := by
      rw [store_bytes_body body]
      exact BlockHeap.modify_block _ _ _ _
    rw [stored] at live
    split at live
    case isTrue same =>
      rw [same, block, Option.map_some] at live
      cases live
      have before := sized _ _ block
      have inside : rest.length + bytes.length ≤ pkg.length := by omega
      refine ⟨overwrite_sized before.sized (by omega) inside, ?_⟩
      exact (overwrite_length inside).trans_le before.bound
    case isFalse => exact sized buf msg live

theorem all_sized_alloc_buffer (sized : AllSized server) (header : HeadSize server c)
    (low : lenPkgHeader ≤ pkgLen (server.conns c).recv.dataHeadInfo)
    (high : pkgLen (server.conns c).recv.dataHeadInfo ≤ pkgMaxLength - 1000)
    (junk : Nat → Byte) :
    AllSized (allocBuffer server c (pkgLen (server.conns c).recv.dataHeadInfo) junk) := by
  intro buf msg live
  have allocated := BlockHeap.alloc_block server.rheap
    (stampedBuffer server c (pkgLen (server.conns c).recv.dataHeadInfo) junk) buf
  have found := allocated.symm.trans live
  split at found
  · cases found
    have room : lenPkgHeader ≤ (server.conns c).recv.dataHeadInfo.length := by
      rw [header]
      decide
    exact ⟨stamped_buffer_sized junk room low,
      (stamped_buffer_length junk room low).trans_le high⟩
  · exact sized buf msg found

theorem plast_within (server : Server) (c : ConnId) (isflood : Bool) :
    Within (ngxWaitRequestHandlerProcPlast server c isflood).rheap server.rheap := by
  cases isflood with
  | false => exact within_refl _
  | true => exact within_free _ _

theorem all_sized_flood_plast (sized : AllSized server) (cfg : Config) (nowMs : Nat)
    (isflood : Bool) :
    AllSized (ngxWaitRequestHandlerProcPlast (floodCheck cfg server c nowMs).1 c isflood) := by
  have finished := plast_within (floodCheck cfg server c nowMs).1 c isflood
  rw [flood_check_rheap] at finished
  exact all_sized_of_within sized finished

theorem all_sized_receive_states (sized : AllSized server) (header : HeadSize server c)
    (cfg : Config) (reco : Nat) (junk : Nat → Byte) (nowMs : Nat) :
    AllSized (receiveStates cfg server c reco junk nowMs).1 := by
  have parsed : AllSized (ngxWaitRequestHandlerProcP1 cfg server c junk nowMs).1 := by
    unfold ngxWaitRequestHandlerProcP1
    dsimp only
    split_ifs with low high empty
    · exact sized
    · exact sized
    · exact all_sized_flood_plast (all_sized_alloc_buffer sized header (Nat.le_of_not_lt low)
        (Nat.le_of_not_lt high) junk) cfg nowMs _
    · exact all_sized_alloc_buffer sized header (Nat.le_of_not_lt low) (Nat.le_of_not_lt high) junk
  rcases receive_states_cases cfg server c reco junk nowMs with
    ⟨stat, same⟩ | ⟨-, same⟩ | ⟨-, same⟩
  · rw [same]
    exact sized
  · rw [same]
    exact parsed
  · rw [same]
    exact all_sized_flood_plast sized cfg nowMs _

theorem all_sized_read_request_handler (cfg : Config) {outcome : RecvOutcome}
    (sized : AllSized server) (receiving : Receiving server)
    (serves : (server.conns c).fd ≠ -1 → server.ghost.occ c ≠ none)
    (possible : outcome.possible (server.conns c).fd (server.conns c).recv.irecvlen = true)
    (junk : Nat → Byte) (nowMs : Nat) (now : Int) :
    AllSized (ngxReadRequestHandler cfg server c outcome junk nowMs now) := by
  have closed : ∀ state, AllSized state → AllSized (zdClosesocketProc cfg state c now) := by
    intro state before
    apply all_sized_of_within before
    rw [zd_rheap]
    exact within_refl _
  unfold ngxReadRequestHandler recvproc
  split_ifs with shut
  · exact closed server sized
  · cases outcome with
    | data bytes =>
        simp only [RecvOutcome.possible, decide_eq_true_eq] at possible
        obtain ⟨rest, holding⟩ := receiving.holds c (serves shut)
        have stored := all_sized_store_bytes sized holding possible.2.2
        have header := store_bytes_head_info holding possible.2.2 receiving.sizes c
        have received := all_sized_receive_states stored header cfg bytes.length junk nowMs
        dsimp only
        split
        · exact closed _ received
        · exact received
    | closed => exact closed server sized
    | again => exact sized
    | error => exact closed server sized

end Receives

theorem all_sized_step {cfg : Config} {server after : Server} {act : Act}
    (attributed : Attributed server) (receiving : Receiving server)
    (disciplined : Disciplined server act) (taken : step cfg server act = some after)
    (sized : AllSized server) : AllSized after := by
  have same : ∀ {state : Server}, state.rheap = server.rheap → AllSized state := by
    intro state kept
    apply all_sized_of_within sized
    rw [kept]
    exact within_refl _
  cases stepped_of_step taken with
  | epollInit ctl now _ empty done => exact same (epoll_init_rheap cfg server ctl now done)
  | accept oldc outcomes nonblockOk ctlOk now =>
      exact all_sized_of_within sized
        (event_accept_within cfg server nonblockOk ctlOk now outcomes)
  | event c revents recv send ctlOk junk nowMs now handler reported possible =>
      have read : AllSized (readSide cfg server c revents recv junk nowMs now) := by
        unfold readSide
        split
        · exact all_sized_read_request_handler cfg sized receiving
            (open_in_service attributed.settled disciplined) possible junk nowMs now
        · exact sized
      have written := congrArg (fun server => server.rheap) (forget_send_write_side
        (readSide cfg server c revents recv junk nowMs now) c revents send ctlOk)
      apply all_sized_of_within read
      exact fun buf msg live => (congrArg (fun heap => heap.block buf) written).symm.trans live
  | msgSend msg now => exact same (queue_reply_rheap cfg server msg now)
  | semWait interrupted => exact same rfl
  | beginPass => exact same rfl
  | element outcome ctlOk pos pMsgBuf =>
      exact same (congrArg (fun server => server.rheap)
        (forget_send_send_element server pos pMsgBuf outcome ctlOk))
  | endPass => exact same rfl
  | take worker jobbuf rest => exact same rfl
  | process worker jobbuf junk now =>
      exact same (process_message_rheap cfg server jobbuf junk now)
  | release worker jobbuf => exact all_sized_of_within sized (within_free _ _)
  | monitorPop curTime =>
      exact same (congrArg (fun server => server.rheap) (forget_monitor_pop cfg server curTime))
  | monitorCheck now tmpmsg rest =>
      exact same (ping_check_rheap cfg { server with lsIdleList := rest } tmpmsg
        server.monitorTime now)
  | recycle currtime =>
      exact all_sized_of_within sized (recy_connection_pass_within cfg server currtime 0)
  | close c now => exact same (zd_rheap cfg server c now)

theorem fresh_all_sized {server : Server} (fresh : Fresh server) : AllSized server := by
  obtain ⟨listenFds, -, -, rfl⟩ := fresh
  intro buf msg live
  cases live

/-- In every state that the server reaches, a receive buffer is as long as its package header
says. -/
theorem reachable_all_sized {cfg : Config} {server : Server}
    (reached : Reachable cfg Disciplined server) : AllSized server := by
  apply TransitionSystem.invariant_of_reachable AllSized (fun _ => fresh_all_sized) ?_ reached
  intro before act after earlier sized disciplined taken
  obtain ⟨⟨attributed, -⟩, receiving⟩ := reachable_receiving earlier
  exact all_sized_step attributed receiving disciplined taken sized

end NgxServer.BufferSizes
