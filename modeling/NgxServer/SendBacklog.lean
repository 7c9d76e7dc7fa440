import NgxServer.Lib.Backlog
import NgxServer.Security
import NgxServer.SendRefinement

/-!
# The counters of the send queue

`m_iSendMsgQueueCount`, the `iSendCount` of each connection and
`m_iDiscardSendPkgCount` are kept by hand, and an element leaves the queue in
two ways of which only one lowers `iSendCount`. In runs whose calls of
`msgSend` have headers that are current, each of them says what its name says:
an element that expires was counted for an occupancy that is over, and the
next one starts from zero with nothing in the queue.
-/

namespace NgxServer.SendBacklog

open NgxServer.Comm NgxServer.State NgxServer.ConnPool NgxServer.TimerQueue NgxServer.Socket
open NgxServer.Request NgxServer.Accept NgxServer.Logic NgxServer.System NgxServer.Frames
open NgxServer.PoolRefinement NgxServer.Occupancy NgxServer.Security NgxServer.SendMachine
open NgxServer.SendRefinement
open Backlog (Books Move Exact)
open BlockHeap (Heap null)
open QuarantinePool (Settled)

set_option autoImplicit false

/-- The queue, where the send thread is in it, and the counters. -/
@[ext]
structure Counters where
  queue : List Nat
  size : Int
  discarded : Int
  pc : SendPc
  queued : List (Nat × MsgBuf)
  waiting : ConnId → Int

def counters (server : Server) : Counters where
  queue := server.msgSendQueue
  size := server.iSendMsgQueueCount
  discarded := server.iDiscardSendPkgCount
  pc := server.sendPc
  queued := server.ghost.queued
  waiting := fun c => (server.conns c).security.iSendCount

theorem counters_mod_conn (server : Server) (c : ConnId) (change : NgxConnection → NgxConnection)
    (kept : (change (server.conns c)).security.iSendCount =
      (server.conns c).security.iSendCount) :
    counters (server.modConn c change) = counters server :=
  Counters.ext rfl rfl rfl rfl rfl (funext fun d =>
    mod_conn_keeps (fun p => p.security.iSendCount) server c d change kept)

theorem counters_of_recv {before after : Server} (same : forgetRecv after = forgetRecv before) :
    counters after = counters before := by
  have forgotten := congrArg counters same
  exact forgotten

theorem counters_zd (cfg : Config) (server : Server) (c : ConnId) (now : Int) :
    counters (zdClosesocketProc cfg server c now) = counters server := by
  have forgotten := congrArg counters (forget_close_zd cfg server c now)
  exact forgotten

theorem counters_read_side (cfg : Config) (server : Server) (c : ConnId) (revents : BitVec 32)
    (recv : RecvOutcome) (junk : Nat → Byte) (nowMs : Nat) (now : Int) :
    counters (readSide cfg server c revents recv junk nowMs now) = counters server := by
  unfold readSide
  split
  · obtain ⟨received, same, ends⟩ :=
      ngx_read_request_handler_frame cfg server c recv junk nowMs now
    rcases ends with read | closed
    · rw [read, counters_of_recv same]
    · rw [closed, counters_zd, counters_of_recv same]
  · rfl

theorem counters_epoll_oper (server : Server) (fd : Int) (eventtype : EpollCtl)
    (flag : BitVec 32) (bcaction : Nat) (c : ConnId) (ctlOk : Bool) :
    counters (ngxEpollOperEvent server fd eventtype flag bcaction c ctlOk).1 =
      counters server := by
  obtain ⟨events, kmask, same⟩ :=
    ngx_epoll_oper_event_frame server fd eventtype flag bcaction c ctlOk
  rw [same]
  exact counters_mod_conn _ c _ rfl

theorem counters_write_side (server : Server) (c : ConnId) (revents : BitVec 32)
    (send : SendOutcome) (ctlOk : Bool) :
    counters (writeSide server c revents send ctlOk) = counters server := by
  unfold writeSide
  split
  · split
    · exact counters_mod_conn server c _ rfl
    · unfold ngxWriteRequestHandler
      dsimp only
      split_ifs
      · exact counters_mod_conn _ c _ rfl
      · rfl
      · exact (counters_mod_conn _ c _ rfl).trans (counters_epoll_oper _ _ _ _ _ _ _)
      · exact counters_mod_conn _ c _ rfl
  · rfl

theorem counters_free_connection (server : Server) (c : ConnId) :
    counters (ngxFreeConnection server c) = counters server :=
  counters_mod_conn server c (fun q =>
    { q with
      iCurrsequence := q.iCurrsequence + 1
      recv.precvMemPointer := null
      send := { q.send with psendMemPointer := null, iThrowsendCount := 0 } }) rfl

theorem counters_close_connection (server : Server) (c : ConnId) :
    counters (ngxCloseConnection server c) = counters server := by
  refine Eq.trans ?_ (counters_free_connection server c)
  unfold ngxCloseConnection closeIfOpen
  split
  · exact counters_mod_conn
      ((ngxFreeConnection server c).closeFd ((ngxFreeConnection server c).conns c).fd) c
      (fun p => { p with fd := -1 }) rfl
  · rfl

theorem counters_register_connection (cfg : Config) (server : Server) (newc : ConnId) (s : Int)
    (nonblockOk ctlOk : Bool) (now : Int) :
    counters (registerConnection cfg server newc s nonblockOk ctlOk now) = counters server := by
  have registered := (counters_epoll_oper
    (server.modConn newc fun p => { p with rhandler := .ngxReadRequestHandler }) s .add
    (epollIn ||| epollRdhup) 0 newc ctlOk).trans (counters_mod_conn server newc _ rfl)
  unfold registerConnection
  split
  · exact counters_close_connection server newc
  · dsimp only
    split
    · exact (counters_close_connection _ newc).trans registered
    · split <;> exact registered

theorem counters_get_connection (server : Server) (isock now : Int) :
    counters (ngxGetConnection server isock now).2 =
      { counters server with
        waiting := Function.update (counters server).waiting
          (ngxGetConnection server isock now).1 0 } := by
  obtain ⟨base, _, _, _, _, _, -, same⟩ := ngx_get_connection_frame server isock now
  rw [same]
  refine Counters.ext rfl rfl rfl rfl rfl (funext fun d => ?_)
  dsimp only [counters]
  rw [Function.update_apply, Function.update_apply]
  split <;> rfl

structure Quiet (before after : Server) : Prop where
  kept : counters after = { counters before with waiting := (counters after).waiting }
  continues : Continues SecurityPart.iSendCount before after

section Quiet

variable {before middle after : Server}

theorem quiet_queue (quiet : Quiet before after) : after.msgSendQueue = before.msgSendQueue :=
  congrArg Counters.queue quiet.kept

theorem quiet_of_counters (same : counters after = counters before)
    (continues : Continues SecurityPart.iSendCount before after) : Quiet before after :=
  ⟨by rw [same], continues⟩

theorem quiet_of_same (same : counters after = counters before)
    (next : after.ghost.nextOcc = before.ghost.nextOcc)
    (owners : ∀ c, after.ghost.occ c = before.ghost.occ c ∨ after.ghost.occ c = none) :
    Quiet before after :=
  quiet_of_counters same
    (continues_of_same (fun c => congrFun (congrArg Counters.waiting same) c) next owners)

theorem quiet_refl (server : Server) : Quiet server server :=
  quiet_of_same rfl rfl fun _ => Or.inl rfl

theorem quiet_trans (early : Quiet before middle) (late : Quiet middle after) :
    Quiet before after := by
  refine ⟨?_, continues_trans early.continues late.continues⟩
  have kept := late.kept
  rw [early.kept] at kept
  exact kept

theorem quiet_zd (cfg : Config) (server : Server) (c : ConnId) (now : Int) :
    Quiet server (zdClosesocketProc cfg server c now) :=
  quiet_of_counters (counters_zd cfg server c now) (continues_zd cfg server c now)

theorem quiet_read_side (cfg : Config) (server : Server) (c : ConnId) (revents : BitVec 32)
    (recv : RecvOutcome) (junk : Nat → Byte) (nowMs : Nat) (now : Int) :
    Quiet server (readSide cfg server c revents recv junk nowMs now) := by
  unfold readSide
  split
  · obtain ⟨received, same, ends⟩ :=
      ngx_read_request_handler_frame cfg server c recv junk nowMs now
    have next := congrArg (fun server => server.ghost.nextOcc) same
    have occ := congrArg (fun server => server.ghost.occ) same
    have read : Quiet server received :=
      quiet_of_same (counters_of_recv same) next fun d => Or.inl (congrFun occ d)
    rcases ends with same | closed
    · rw [same]
      exact read
    · rw [closed]
      exact quiet_trans read (quiet_zd cfg received c now)
  · exact quiet_refl server

theorem quiet_event (cfg : Config) (server : Server) (c : ConnId) (revents : BitVec 32)
    (recv : RecvOutcome) (send : SendOutcome) (ctlOk : Bool) (junk : Nat → Byte) (nowMs : Nat)
    (now : Int) :
    Quiet server
      (writeSide (readSide cfg server c revents recv junk nowMs now) c revents send ctlOk) := by
  have written := forget_send_write_side (readSide cfg server c revents recv junk nowMs now) c
    revents send ctlOk
  have next := congrArg (fun server => server.ghost.nextOcc) written
  have occ := congrArg (fun server => server.ghost.occ) written
  exact quiet_trans (quiet_read_side cfg server c revents recv junk nowMs now)
    (quiet_of_same (counters_write_side _ c revents send ctlOk) next fun d =>
      Or.inl (congrFun occ d))

theorem quiet_accept_socket (cfg : Config) (server : Server) (s : Int) (nonblockOk ctlOk : Bool)
    (now : Int) : Quiet server (acceptSocket cfg server s nonblockOk ctlOk now) := by
  refine ⟨?_, continues_accept_socket cfg server s nonblockOk ctlOk now⟩
  by_cases refused : Refused cfg server
  · rw [accept_socket_refused refused]
    rfl
  · have issued := counters_get_connection server s now
    have opened : counters (openOccupancy (ngxGetConnection server s now).2
        (ngxGetConnection server s now).1) = counters (ngxGetConnection server s now).2 := rfl
    rw [accept_socket_issues refused, counters_register_connection, opened, issued]

theorem quiet_event_accept (cfg : Config) (nonblockOk ctlOk : Bool) (now : Int)
    (outcomes : List AcceptOutcome) (server : Server) :
    Quiet server (ngxEventAccept cfg server nonblockOk ctlOk now outcomes) := by
  induction outcomes generalizing server with
  | nil => exact quiet_refl server
  | cons outcome rest ih =>
      cases outcome with
      | ok s =>
          have opened : Quiet server (openSocket server s) :=
            quiet_of_same rfl rfl fun _ => Or.inl rfl
          exact quiet_trans opened (quiet_accept_socket cfg _ s nonblockOk ctlOk now)
      | err code =>
          have switched : Quiet server { server with useAccept4 := false } :=
            quiet_of_same rfl rfl fun _ => Or.inl rfl
          unfold ngxEventAccept
          split_ifs
          · exact quiet_refl server
          · exact quiet_trans switched (ih _)
          · exact quiet_refl server

theorem quiet_recy_connection_pass (cfg : Config) (server : Server) (currtime gStopEvent : Int) :
    Quiet server (serverRecyConnectionPass cfg server currtime gStopEvent) := by
  refine quiet_of_counters ?_ (continues_recy_connection_pass cfg server currtime gStopEvent)
  have looped : ∀ rounds (state : Server),
      counters (lblRRTD cfg currtime gStopEvent rounds state) = counters state := by
    intro rounds
    induction rounds with
    | zero => exact fun _ => rfl
    | succ rounds ih =>
        intro state
        unfold lblRRTD
        split
        · rfl
        case h_2 c found => exact (ih _).trans (counters_free_connection _ c)
  unfold serverRecyConnectionPass
  split
  · exact looped _ server
  · rfl

theorem quiet_ping_check (cfg : Config) (server : Server) (tmpmsg : Nat) (curTime now : Int) :
    Quiet server (procPingTimeOutChecking cfg server tmpmsg curTime now) := by
  refine quiet_of_counters ?_ (continues_ping_check cfg server tmpmsg curTime now)
  unfold procPingTimeOutChecking
  split
  · rfl
  case h_2 record found =>
    unfold kickOverdue
    split_ifs
    · exact counters_zd cfg (logKick server record) record.pConn now
    · rfl
    · rfl

theorem epoll_init_queue {cfg : Config} {server after : Server} {ctl : Int → Bool} {now : Int}
    (done : ngxEpollInit cfg server ctl now = some after) :
    ∃ waiting, counters after = { counters server with waiting := waiting } := by
  have filled : ∀ count (state : Server), ∃ waiting,
      counters (Nat.iterate (addFreeConnection now) count state) =
        { counters state with waiting := waiting } := by
    intro count
    induction count with
    | zero => exact fun state => ⟨_, rfl⟩
    | succ count ih =>
        intro state
        obtain ⟨waiting, same⟩ := ih (addFreeConnection now state)
        exact ⟨waiting, same⟩
  have listens : ∀ (fds : List Int) (start : Server),
      fds.foldlM (listenOn ctl now) start = some after →
      ∃ waiting, counters after = { counters start with waiting := waiting } := by
    intro fds
    induction fds with
    | nil =>
        intro start same
        cases same
        exact ⟨_, rfl⟩
    | cons fd rest ih =>
        intro start folded
        rw [List.foldlM_cons] at folded
        obtain ⟨middle, first, more⟩ := Option.bind_eq_some_iff.mp folded
        obtain ⟨waiting, same⟩ := ih middle more
        have issued := counters_get_connection start fd now
        unfold listenOn at first
        dsimp only at first
        generalize ngxGetConnection start fd now = issue at issued first
        have registered := (counters_epoll_oper (markListening issue.2 issue.1) fd .add
          (epollIn ||| epollRdhup) 0 issue.1 (ctl fd)).trans
            (counters_mod_conn { issue.2 with listenConns := issue.2.listenConns ++ [issue.1] }
              issue.1 (fun p => { p with rhandler := .ngxEventAccept }) rfl)
        split at first
        · cases first
        · cases first
          have kept := registered.trans issued
          refine ⟨waiting, ?_⟩
          rw [same, kept]
  obtain ⟨more, grown⟩ := filled cfg.workerConnections server
  obtain ⟨waiting, same⟩ := listens _ (initconnection cfg now server) done
  have reserved : counters (initconnection cfg now server) =
      { counters server with waiting := more } := grown
  exact ⟨waiting, by rw [same, reserved]⟩

end Quiet

def tagAt (heap : Heap MsgBuf) (buf : Nat) : Option OccId :=
  (heap.block buf).bind fun msg => msg.hdr.occ

def Keeps (before after : Heap MsgBuf) : Prop :=
  before.next ≤ after.next ∧
    ∀ buf < before.next, after.block buf = before.block buf ∨ after.block buf = none

theorem keeps_refl (heap : Heap MsgBuf) : Keeps heap heap :=
  ⟨le_rfl, fun _ _ => Or.inl rfl⟩

theorem keeps_trans {first second third : Heap MsgBuf} (early : Keeps first second)
    (late : Keeps second third) : Keeps first third := by
  refine ⟨early.1.trans late.1, fun buf old => ?_⟩
  rcases late.2 buf (Nat.lt_of_lt_of_le old early.1) with same | gone
  · rw [same]
    exact early.2 buf old
  · exact Or.inr gone

theorem keeps_free (heap : Heap MsgBuf) (address : Nat) :
    Keeps heap (BlockHeap.free heap address) := by
  refine ⟨(BlockHeap.free_next heap address).ge, fun buf _ => ?_⟩
  rw [BlockHeap.free_block]
  split
  · exact Or.inr rfl
  · exact Or.inl rfl

theorem keeps_alloc (heap : Heap MsgBuf) (msg : MsgBuf) :
    Keeps heap (BlockHeap.alloc heap msg) := by
  refine ⟨Nat.le_succ _, fun buf old => ?_⟩
  rw [BlockHeap.alloc_block, if_neg (Nat.ne_of_lt old)]
  exact Or.inl rfl

theorem keeps_free_ended (heap : Heap MsgBuf) (buf : Nat) (progress : Progress) :
    Keeps heap (freeEnded heap buf progress) := by
  cases progress with
  | part count => exact keeps_refl heap
  | blocked => exact keeps_refl heap
  | done sendsize => exact keeps_free heap buf

theorem move_keeps {rules : Rules} {state after : SendState} (move : SendMove rules state after) :
    Keeps state.sheap after.sheap := by
  cases move with
  | release c => exact keeps_free state.sheap _
  | discard msg => exact keeps_trans (keeps_alloc state.sheap msg) (keeps_free _ _)
  | push msg => exact keeps_alloc state.sheap msg
  | dropStale pos buf => exact keeps_free state.sheap buf
  | start pos buf msg progress armed =>
      rw [start_sheap]
      exact keeps_free_ended state.sheap buf progress
  | write c progress armed =>
      rw [write_sheap]
      exact keeps_free_ended state.sheap _ progress
  | _ => exact keeps_refl state.sheap

theorem moves_keep {rules : Rules} {state after : SendState}
    (moves : SendMoves rules state after) : Keeps state.sheap after.sheap := by
  induction moves with
  | refl => exact keeps_refl state.sheap
  | tail _ move ih => exact keeps_trans ih (move_keeps move)

theorem tag_kept {before after : SendState} (sound : SendSound before) (later : SendSound after)
    (keeps : Keeps before.sheap after.sheap) {buf : Nat} (waits : buf ∈ before.queue)
    (stays : buf ∈ after.queue) : tagAt after.sheap buf = tagAt before.sheap buf := by
  obtain ⟨index, here⟩ := List.mem_iff_getElem?.mp waits
  obtain ⟨msg, live⟩ := Option.isSome_iff_exists.mp
    (sound.exclusive.live (.slot index) buf here)
  obtain ⟨place, there⟩ := List.mem_iff_getElem?.mp stays
  obtain ⟨still, present⟩ := Option.isSome_iff_exists.mp
    (later.exclusive.live (.slot place) buf there)
  rcases keeps.2 buf (sound.exclusive.wellFormed.bounded buf msg live).2 with same | gone
  · rw [tagAt, tagAt, same]
  · rw [gone] at present
    cases present

/-- The server's counters as the books of a backlog, with the calls of `msgSend`
and the elements that the send thread removed. -/
def books (server : Server) (calls removed : Int) : Books ConnId (Option OccId) where
  queue := server.msgSendQueue.map (tagAt server.sheap)
  size := server.iSendMsgQueueCount
  waiting := fun c => (server.conns c).security.iSendCount
  owns := fun c tag => server.ghost.occ c = tag ∧ tag ≠ none
  calls := calls
  refused := server.iDiscardSendPkgCount
  removed := removed

/-- The moves of a backlog of at most 50001 entries, 401 for one connection. -/
abbrev BooksMove : Books ConnId (Option OccId) → Books ConnId (Option OccId) → Prop :=
  Move 50000 400

section Books

variable {server after : Server}

/-- The mark of a packet in the queue is that of an occupancy that has started. -/
theorem tag_started (replies : ∀ hdr, Carries server.sheap hdr → Stamped (poolView server) hdr)
    {o : OccId} (waits : some o ∈ server.msgSendQueue.map (tagAt server.sheap)) :
    o < server.ghost.nextOcc := by
  obtain ⟨buf, -, tag⟩ := List.mem_map.mp waits
  obtain ⟨msg, live, occ⟩ := Option.bind_eq_some_iff.mp tag
  obtain ⟨p, started, stamped, -⟩ := replies msg.hdr ⟨buf, msg, live, rfl⟩
  rw [occ] at stamped
  cases stamped
  exact started

theorem owner_unique (settled : Settled (poolView server)) {c d : ConnId} {o : OccId}
    (serves : server.ghost.occ c = some o) : server.ghost.occ d = some o ↔ d = c := by
  constructor
  · intro other
    have stamps := settled_stamps settled
    have same := (stamps.current d o other).symm.trans (stamps.current c o serves)
    exact (Prod.mk.inj same).1
  · rintro rfl
    exact serves

theorem owns_only (settled : Settled (poolView server)) {c : ConnId} {tag : Option OccId}
    (serves : server.ghost.occ c = tag) (live : tag ≠ none) (d : ConnId) (other : Option OccId)
    (owns : server.ghost.occ d = other ∧ other ≠ none) : d = c ↔ other = tag := by
  obtain ⟨o, rfl⟩ := Option.ne_none_iff_exists'.mp live
  constructor
  · rintro rfl
    exact owns.1.symm.trans serves
  · rintro rfl
    exact (owner_unique settled serves).mp owns.1

theorem quiet_move (replies : ∀ hdr, Carries server.sheap hdr → Stamped (poolView server) hdr)
    (quiet : Quiet server after)
    (tags : after.msgSendQueue.map (tagAt after.sheap) =
      server.msgSendQueue.map (tagAt server.sheap)) (calls removed : Int) :
    BooksMove (books server calls removed) (books after calls removed) := by
  have move : BooksMove (books server calls removed) _ :=
    Move.change (books after calls removed).owns (books after calls removed).waiting ?_
  · have same : books after calls removed =
        { books server calls removed with
          owns := (books after calls removed).owns
          waiting := (books after calls removed).waiting } :=
      Books.ext tags (congrArg Counters.size quiet.kept) rfl rfl rfl
        (congrArg Counters.discarded quiet.kept) rfl
    rw [same]
    exact move
  · rintro c tag ⟨serves, live⟩
    obtain ⟨o, rfl⟩ := Option.ne_none_iff_exists'.mp live
    rcases quiet.continues.lives c o serves with ⟨before, same⟩ | ⟨fresh, none⟩
    · exact Or.inl ⟨⟨before, live⟩, same⟩
    · exact Or.inr ⟨fun waits => absurd (tag_started replies waits) (Nat.not_lt.mpr fresh), none⟩

theorem queue_reply_branches (cfg : Config) (server : Server) (msg : MsgBuf) (now : Int) :
    server.iSendMsgQueueCount > 50000 ∧ queueReply cfg server msg now =
        discardSendPkg (allocReply server msg) server.sheap.next ∨
      server.iSendMsgQueueCount ≤ 50000 ∧
        400 < (server.conns msg.hdr.pConn).security.iSendCount ∧
        queueReply cfg server msg now = zdClosesocketProc cfg
          (discardSendPkg (allocReply server msg) server.sheap.next) msg.hdr.pConn now ∨
      server.iSendMsgQueueCount ≤ 50000 ∧
        (server.conns msg.hdr.pConn).security.iSendCount ≤ 400 ∧
        queueReply cfg server msg now =
          pushSendPkg (allocReply server msg) server.sheap.next msg := by
  have stored : (allocReply server msg).sheap.block server.sheap.next = some msg :=
    BlockHeap.alloc_block_self server.sheap msg
  have size : (allocReply server msg).iSendMsgQueueCount = server.iSendMsgQueueCount := rfl
  have conns : (allocReply server msg).conns = server.conns := rfl
  unfold queueReply msgSend
  rw [stored, size, conns]
  dsimp only
  split
  case isTrue full => exact Or.inl ⟨full, rfl⟩
  case isFalse room =>
    have capped := not_lt.mp room
    split
    case isTrue flooded => exact Or.inr (Or.inl ⟨capped, flooded, rfl⟩)
    case isFalse spare => exact Or.inr (Or.inr ⟨capped, not_lt.mp spare, rfl⟩)

theorem refuse_move (server : Server) (calls removed : Int) :
    BooksMove (books server calls removed)
      (books { server with iDiscardSendPkgCount := server.iDiscardSendPkgCount + 1 } (calls + 1)
        removed) :=
  Move.refuse

theorem push_send_count (server : Server) (pMsgBuf : Nat) (msg : MsgBuf) (c : ConnId) :
    ((pushSendPkg server pMsgBuf msg).conns c).security.iSendCount =
      Function.update (fun c => (server.conns c).security.iSendCount) msg.hdr.pConn
        ((server.conns msg.hdr.pConn).security.iSendCount + 1) c := by
  rw [Function.update_apply, pushSendPkg, mod_conn_conns]
  split <;> rfl

/-- `msgSend` puts a packet into the queue on behalf of its connection. -/
theorem push_books (settled : Settled (poolView server)) {msg : MsgBuf}
    (serves : server.ghost.occ msg.hdr.pConn = msg.hdr.occ) (live : msg.hdr.occ ≠ none)
    (room : server.iSendMsgQueueCount ≤ 50000)
    (spare : (server.conns msg.hdr.pConn).security.iSendCount ≤ 400)
    (kept : ∀ buf ∈ server.msgSendQueue,
      tagAt (BlockHeap.alloc server.sheap msg) buf = tagAt server.sheap buf)
    (calls removed : Int) :
    BooksMove (books server calls removed)
      (books (pushSendPkg (allocReply server msg) server.sheap.next msg) (calls + 1) removed) := by
  have move : BooksMove (books server calls removed) _ :=
    Move.push msg.hdr.pConn msg.hdr.occ ⟨serves, live⟩ (owns_only settled serves live) room spare
  have stored : tagAt (BlockHeap.alloc server.sheap msg) server.sheap.next = msg.hdr.occ := by
    rw [tagAt, BlockHeap.alloc_block_self]
    rfl
  have tags : (server.msgSendQueue ++ [server.sheap.next]).map
      (tagAt (BlockHeap.alloc server.sheap msg)) =
        server.msgSendQueue.map (tagAt server.sheap) ++ [msg.hdr.occ] := by
    rw [List.map_append, List.map_singleton, stored]
    exact congrArg (· ++ [msg.hdr.occ]) (List.map_congr_left kept)
  have same : books (pushSendPkg (allocReply server msg) server.sheap.next msg) (calls + 1)
      removed =
      { books server calls removed with
        queue := (books server calls removed).queue ++ [msg.hdr.occ]
        size := (books server calls removed).size + 1
        waiting := Function.update (books server calls removed).waiting msg.hdr.pConn
          ((books server calls removed).waiting msg.hdr.pConn + 1)
        calls := (books server calls removed).calls + 1 } := by
    have counted := funext (push_send_count (allocReply server msg) server.sheap.next msg)
    exact Books.ext tags rfl counted rfl rfl rfl rfl
  rw [same]
  exact move

/-- A call of `msgSend` is refused, perhaps with the connection closed, or puts one
packet into the queue. -/
theorem queue_reply_books (settled : Settled (poolView server))
    (replies : ∀ hdr, Carries server.sheap hdr → Stamped (poolView server) hdr)
    (sound : SendSound (sendState server)) (cfg : Config) (msg : MsgBuf) (now : Int)
    (later : SendSound (sendState (queueReply cfg server msg now)))
    (keeps : Keeps server.sheap (queueReply cfg server msg now).sheap)
    (serves : server.ghost.occ msg.hdr.pConn = msg.hdr.occ) (live : msg.hdr.occ ≠ none)
    (calls removed : Int) :
    Relation.ReflTransGen BooksMove (books server calls removed)
      (books (queueReply cfg server msg now) (calls + 1) removed) := by
  have kept : ∀ buf ∈ server.msgSendQueue, buf ∈ (queueReply cfg server msg now).msgSendQueue →
      tagAt (queueReply cfg server msg now).sheap buf = tagAt server.sheap buf :=
    fun buf waits stays => tag_kept sound later keeps waits stays
  have discarded : ∀ after : Server, Quiet (discardSendPkg (allocReply server msg)
      server.sheap.next) after →
      (∀ buf ∈ server.msgSendQueue, buf ∈ after.msgSendQueue →
        tagAt after.sheap buf = tagAt server.sheap buf) →
      Relation.ReflTransGen BooksMove (books server calls removed)
        (books after (calls + 1) removed) := by
    intro after quiet tags
    have queue := quiet_queue quiet
    have same : after.msgSendQueue = server.msgSendQueue := queue
    apply (Relation.ReflTransGen.single (refuse_move server calls removed)).tail
    refine quiet_move ?_ ?_ ?_ (calls + 1) removed
    · exact replies
    · exact ⟨quiet.kept, quiet.continues.grows, quiet.continues.lives⟩
    · rw [same]
      exact List.map_congr_left fun buf waits => tags buf waits (same ▸ waits)
  rcases queue_reply_branches cfg server msg now with
    ⟨-, dropped⟩ | ⟨-, -, closed⟩ | ⟨room, spare, queued⟩
  · rw [dropped] at kept ⊢
    exact discarded _ (quiet_refl _) kept
  · rw [closed] at kept ⊢
    exact discarded _ (quiet_zd cfg _ msg.hdr.pConn now) kept
  · rw [queued] at kept ⊢
    exact Relation.ReflTransGen.single (push_books settled serves live room spare
      (fun buf waits => kept buf waits (List.mem_append_left _ waits)) calls removed)

theorem counters_start_packet (server : Server) (pos pMsgBuf : Nat) (msg : MsgBuf) :
    counters (startPacket server pos pMsgBuf msg) =
      { queue := server.msgSendQueue.eraseIdx pos
        size := server.iSendMsgQueueCount - 1
        discarded := server.iDiscardSendPkgCount
        pc := server.sendPc
        queued := server.ghost.queued
        waiting := Function.update (fun c => (server.conns c).security.iSendCount) msg.hdr.pConn
          ((server.conns msg.hdr.pConn).security.iSendCount - 1) } := by
  refine Counters.ext rfl rfl rfl rfl rfl (funext fun c => ?_)
  have counted : ((startPacket server pos pMsgBuf msg).conns c).security.iSendCount =
      if c = msg.hdr.pConn then (server.conns msg.hdr.pConn).security.iSendCount - 1
      else (server.conns c).security.iSendCount := by
    rw [startPacket, mod_conn_conns]
    split <;> rfl
  dsimp only [counters]
  rw [counted, Function.update_apply]

theorem counters_drop_packet (server : Server) (c : ConnId) :
    counters (dropPacket server c) = counters server :=
  counters_mod_conn server c (fun p =>
    { p with send := { p.send with psendMemPointer := null, iThrowsendCount := 0 } }) rfl

theorem counters_await_writable (server : Server) (c : ConnId) (ctlOk : Bool) :
    counters (awaitWritable server c ctlOk) = counters server :=
  (counters_epoll_oper _ _ _ _ _ _ _).trans (counters_mod_conn server c _ rfl)

theorem counters_send_element_now (server : Server) (pos pMsgBuf : Nat) (msg : MsgBuf)
    (outcome : SendOutcome) (ctlOk : Bool) :
    counters (sendElementNow server pos pMsgBuf msg outcome ctlOk) =
      counters (startPacket server pos pMsgBuf msg) := by
  have tried : ∀ partlySent, counters (sendproc (startPacket server pos pMsgBuf msg)
      msg.hdr.pConn false partlySent outcome).1 = counters (startPacket server pos pMsgBuf msg) :=
    fun _ => rfl
  unfold sendElementNow
  dsimp only
  split_ifs
  · rw [counters_drop_packet, tried]
  · rw [counters_await_writable, counters_mod_conn _ _ _ rfl, tried]
  · rw [counters_drop_packet, tried]
  · rw [counters_await_writable, tried]
  · rw [counters_drop_packet, tried]

theorem tags_erased {pos : Nat} (erased : after.msgSendQueue = server.msgSendQueue.eraseIdx pos)
    (kept : ∀ buf ∈ server.msgSendQueue, buf ∈ after.msgSendQueue →
      tagAt after.sheap buf = tagAt server.sheap buf) :
    after.msgSendQueue.map (tagAt after.sheap) =
      (server.msgSendQueue.map (tagAt server.sheap)).eraseIdx pos := by
  rw [List.eraseIdx_map, ← erased]
  refine List.map_congr_left fun buf stays => kept buf ?_ stays
  rw [erased] at stays
  exact List.mem_of_mem_eraseIdx stays

/-- Nobody owns the packet of a header that is older than its connection. -/
theorem stale_unowned (settled : Settled (poolView server)) {hdr : MsgHeader}
    (stamped : Stamped (poolView server) hdr)
    (stale : (server.conns hdr.pConn).iCurrsequence ≠ hdr.iCurrsequence) (c : ConnId) :
    ¬ (server.ghost.occ c = hdr.occ ∧ hdr.occ ≠ none) := by
  rintro ⟨serves, started⟩
  obtain ⟨o, -, occ, stamp⟩ := stamped
  rw [occ] at serves
  have current := (settled_stamps settled).current c o serves
  have owner := Prod.mk.inj (stamp.symm.trans current)
  apply stale
  rw [owner.1]
  exact owner.2.symm

section Element

variable {pos pMsgBuf : Nat} {msg : MsgBuf}

theorem expire_books
    (tag : (server.msgSendQueue.map (tagAt server.sheap))[pos]? = some msg.hdr.occ)
    (gone : ∀ c, ¬ (server.ghost.occ c = msg.hdr.occ ∧ msg.hdr.occ ≠ none))
    (kept : ∀ buf ∈ server.msgSendQueue, buf ∈ server.msgSendQueue.eraseIdx pos →
      tagAt (BlockHeap.free server.sheap pMsgBuf) buf = tagAt server.sheap buf)
    (calls removed : Int) :
    BooksMove (books server calls removed)
      (books { eraseElement server pos with sheap := BlockHeap.free server.sheap pMsgBuf } calls
        (removed + 1)) := by
  have move : BooksMove (books server calls removed) _ := Move.expire msg.hdr.occ pos tag gone
  have tags : (server.msgSendQueue.eraseIdx pos).map
      (tagAt (BlockHeap.free server.sheap pMsgBuf)) =
        (server.msgSendQueue.map (tagAt server.sheap)).eraseIdx pos := by
    let dropped : Server :=
      { eraseElement server pos with sheap := BlockHeap.free server.sheap pMsgBuf }
    have erased : dropped.msgSendQueue = server.msgSendQueue.eraseIdx pos := rfl
    exact tags_erased erased kept
  have same : books { eraseElement server pos with
        sheap := BlockHeap.free server.sheap pMsgBuf } calls (removed + 1) =
      { books server calls removed with
        queue := (books server calls removed).queue.eraseIdx pos
        size := (books server calls removed).size - 1
        removed := (books server calls removed).removed + 1 } :=
    Books.ext tags rfl rfl rfl rfl rfl rfl
  rw [same]
  exact move

/-- The send thread takes a packet out on behalf of its connection. -/
theorem take_books (settled : Settled (poolView server))
    (tag : (server.msgSendQueue.map (tagAt server.sheap))[pos]? = some msg.hdr.occ)
    (serves : server.ghost.occ msg.hdr.pConn = msg.hdr.occ) (started : msg.hdr.occ ≠ none)
    (counted : counters after = counters (startPacket server pos pMsgBuf msg))
    (owners : after.ghost.occ = server.ghost.occ)
    (kept : ∀ buf ∈ server.msgSendQueue, buf ∈ after.msgSendQueue →
      tagAt after.sheap buf = tagAt server.sheap buf)
    (calls removed : Int) :
    BooksMove (books server calls removed) (books after calls (removed + 1)) := by
  have taken := counted.trans (counters_start_packet server pos pMsgBuf msg)
  have move : BooksMove (books server calls removed) _ :=
    Move.take msg.hdr.pConn msg.hdr.occ pos tag ⟨serves, started⟩
      (owns_only settled serves started)
  have tags := tags_erased (congrArg Counters.queue taken) kept
  have same : books after calls (removed + 1) =
      { books server calls removed with
        queue := (books server calls removed).queue.eraseIdx pos
        size := (books server calls removed).size - 1
        waiting := Function.update (books server calls removed).waiting msg.hdr.pConn
          ((books server calls removed).waiting msg.hdr.pConn - 1)
        removed := (books server calls removed).removed + 1 } := by
    refine Books.ext tags (congrArg Counters.size taken) (congrArg Counters.waiting taken) ?_ rfl
      (congrArg Counters.discarded taken) rfl
    dsimp only [books]
    rw [owners]
  rw [same]
  exact move

end Element

/-- The send thread steps over the element at its iterator, drops it because its
occupancy is over, or takes it out on behalf of its connection. -/
theorem send_element_books (attributed : Attributed server)
    (sound : SendSound (sendState server)) {pos pMsgBuf : Nat} (outcome : SendOutcome)
    (ctlOk : Bool) (here : server.msgSendQueue[pos]? = some pMsgBuf)
    (later : SendSound (sendState (sendElement server pos pMsgBuf outcome ctlOk)))
    (keeps : Keeps server.sheap (sendElement server pos pMsgBuf outcome ctlOk).sheap)
    (calls removed : Int) :
    (sendElement server pos pMsgBuf outcome ctlOk).msgSendQueue = server.msgSendQueue ∧
        BooksMove (books server calls removed)
          (books (sendElement server pos pMsgBuf outcome ctlOk) calls removed) ∨
      (sendElement server pos pMsgBuf outcome ctlOk).msgSendQueue =
          server.msgSendQueue.eraseIdx pos ∧
        BooksMove (books server calls removed)
          (books (sendElement server pos pMsgBuf outcome ctlOk) calls (removed + 1)) := by
  have kept : ∀ buf ∈ server.msgSendQueue,
      buf ∈ (sendElement server pos pMsgBuf outcome ctlOk).msgSendQueue →
      tagAt (sendElement server pos pMsgBuf outcome ctlOk).sheap buf = tagAt server.sheap buf :=
    fun buf waits stays => tag_kept sound later keeps waits stays
  obtain ⟨msg, content⟩ := Option.isSome_iff_exists.mp
    (sound.exclusive.live (.slot pos) pMsgBuf here)
  have live : server.sheap.block pMsgBuf = some msg := content
  have stamped := attributed.replies msg.hdr ⟨pMsgBuf, msg, live, rfl⟩
  have tag : (server.msgSendQueue.map (tagAt server.sheap))[pos]? = some msg.hdr.occ := by
    rw [List.getElem?_map, here, Option.map_some, tagAt, live]
    rfl
  have owners := congrArg (fun server => server.ghost.occ)
    (forget_send_send_element server pos pMsgBuf outcome ctlOk)
  unfold sendElement at kept owners ⊢
  rw [live] at kept owners ⊢
  dsimp only at kept owners ⊢
  split_ifs at kept owners ⊢ with stale busy
  · have gone := stale_unowned attributed.settled stamped stale
    exact Or.inr ⟨rfl, expire_books tag gone kept calls removed⟩
  · exact Or.inl ⟨rfl, quiet_move attributed.replies (quiet_refl server) rfl calls removed⟩
  · obtain ⟨serves, started⟩ := current_owner attributed.settled stamped (not_not.mp stale)
    have counted := counters_send_element_now server pos pMsgBuf msg outcome ctlOk
    have erased := congrArg Counters.queue
      (counted.trans (counters_start_packet server pos pMsgBuf msg))
    exact Or.inr ⟨erased,
      take_books attributed.settled tag serves started counted owners kept calls removed⟩

end Books

/-- What a worker's message does to the backlog: nothing, or one call of `msgSend`
for an occupancy that lasts. -/
theorem process_message_sends {server : Server} (attributed : Attributed server) (cfg : Config)
    (jobbuf : Nat) (junk : Nat → Byte) (now : Int) :
    processReplies server jobbuf junk = false ∧
        Quiet server (processMessage cfg server jobbuf junk now) ∨
      processReplies server jobbuf junk = true ∧ ∃ answer noted,
        sendState noted = sendState server ∧ counters noted = counters server ∧
        poolView noted = poolView server ∧ server.ghost.occ answer.hdr.pConn = answer.hdr.occ ∧
        answer.hdr.occ ≠ none ∧
        processMessage cfg server jobbuf junk now = queueReply cfg noted answer now := by
  unfold processReplies processMessage
  split
  · exact Or.inl ⟨rfl, quiet_of_same rfl rfl fun _ => Or.inl rfl⟩
  case h_2 msg live =>
    split
    · exact Or.inl ⟨rfl, quiet_of_same rfl rfl fun _ => Or.inl rfl⟩
    case h_2 call accepted =>
      obtain ⟨-, found, header, -⟩ := thread_recv_proc_func_ok.mp accepted
      have stamped := attributed.requests msg.hdr ⟨jobbuf, msg, live, rfl⟩
      obtain ⟨serves, started⟩ :=
        current_owner attributed.settled stamped (find_handler_ok.mp found).1
      unfold runHandler
      cases replies : reply call junk with
      | none => exact Or.inl ⟨rfl, quiet_of_same rfl rfl fun _ => Or.inl rfl⟩
      | some answer =>
          have answered : answer.hdr = msg.hdr := (reply_header replies).trans header
          refine Or.inr ⟨rfl, answer, _, ?_, ?_, ?_, answered ▸ serves, answered ▸ started, rfl⟩
          · split
            · exact send_state_mod_conn _ _ _ rfl rfl
            · rfl
          · split
            · exact counters_mod_conn _ _ _ rfl
            · rfl
          · split
            · exact pool_view_mod_conn _ _ _ rfl rfl
            · rfl

def msgSendCalls (server : Server) : Act → Nat
  | .msgSend _ _ => 1
  | .process worker junk _ =>
      match server.workers worker with
      | .taken jobbuf => if processReplies server jobbuf junk then 1 else 0
      | _ => 0
  | _ => 0

def removedBy (server after : Server) : Act → Nat
  | .element _ _ => server.msgSendQueue.length - after.msgSendQueue.length
  | _ => 0

/-- Disciplined steps in which `msgSend` is called with packets as the server builds
them and with headers that are current. A handler's call is one: its header has just
passed the check of `threadRecvProcFunc`. -/
def CallsCurrent (server : Server) (act : Act) : Prop :=
  Disciplined server act ∧
    match act with
    | .msgSend msg _ =>
        Sized msg ∧ (server.conns msg.hdr.pConn).iCurrsequence = msg.hdr.iCurrsequence
    | _ => True

instance (server : Server) : DecidablePred (CallsCurrent server) :=
  decidableWith server (fun _ _ => inferInstanceAs (Decidable (Sized _ ∧ _ = _)))
    (fun _ _ _ _ _ _ _ _ => isTrue trivial) (fun _ _ => isTrue trivial)
    fun act inner => by cases act <;> first | exact trivial | exact inner.elim

def anyRules : Rules where
  mayStart := fun _ _ => True
  mayWrite := fun _ _ _ _ => True
  mayUncount := fun _ _ => True

theorem any_permits {cfg : Config} {server : Server} {act : Act}
    (built : ∀ msg now, act = .msgSend msg now → Sized msg) :
    Permits anyRules cfg server act := by
  cases act with
  | event c revents recv send ctlOk junk nowMs now =>
      intro out
      split
      · trivial
      · exact fun _ => trivial
  | msgSend msg now => exact built msg now rfl
  | element outcome ctlOk => exact fun _ => trivial
  | _ => trivial

theorem current_built {server : Server} {act : Act} (current : CallsCurrent server act)
    (msg : MsgBuf) (now : Int) (call : act = .msgSend msg now) : Sized msg := by
  subst call
  exact current.2.1

section Steps

variable {cfg : Config} {server after : Server} {act : Act}

theorem sound_step (attributed : Attributed server) (sound : SendSound (sendState server))
    (current : CallsCurrent server act) (taken : step cfg server act = some after) :
    SendSound (sendState after) ∧ Keeps server.sheap after.sheap := by
  have moves : SendMoves anyRules (sendState server) (sendState after) :=
    send_moves_of_step attributed current.1 (any_permits (current_built current)) taken
  obtain ⟨later, -⟩ := moves_preserve (fun _ _ _ _ _ => trivial) sound trivial moves
  exact ⟨later, moves_keep moves⟩

def LeavesQueue : Act → Prop
  | .msgSend _ _ | .process _ _ _ | .semWait _ | .beginPass | .element _ _ | .endPass => False
  | _ => True

theorem quiet_step (attributed : Attributed server) (leaves : LeavesQueue act)
    (taken : step cfg server act = some after) : Quiet server after := by
  cases stepped_of_step taken with
  | epollInit ctl now _ empty done =>
      obtain ⟨waiting, same⟩ := epoll_init_queue done
      exact ⟨by rw [same], continues_epoll_init attributed empty done⟩
  | accept oldc outcomes nonblockOk ctlOk now =>
      exact quiet_event_accept cfg nonblockOk ctlOk now outcomes server
  | event c revents recv send ctlOk junk nowMs now =>
      exact quiet_event cfg server c revents recv send ctlOk junk nowMs now
  | msgSend | semWait | beginPass | element | endPass | process => exact leaves.elim
  | monitorPop curTime =>
      have same := forget_monitor_pop cfg server curTime
      have counted := congrArg counters same
      have next := congrArg (fun server => server.ghost.nextOcc) same
      have occ := congrArg (fun server => server.ghost.occ) same
      exact quiet_of_same counted next fun d => Or.inl (congrFun occ d)
  | monitorCheck now tmpmsg rest =>
      have popped : Quiet server { server with lsIdleList := rest } :=
        quiet_of_same rfl rfl fun _ => Or.inl rfl
      exact quiet_trans popped
        (quiet_ping_check cfg { server with lsIdleList := rest } tmpmsg server.monitorTime now)
  | recycle currtime => exact quiet_recy_connection_pass cfg server currtime 0
  | close c now => exact quiet_zd cfg server c now
  | _ => exact quiet_of_same rfl rfl fun _ => Or.inl rfl

/-- A step is a sequence of moves of the backlog, with its calls and removals
counted. -/
theorem step_books (attributed : Attributed server) (sound : SendSound (sendState server))
    (current : CallsCurrent server act) (taken : step cfg server act = some after)
    (calls removed : Int) :
    Relation.ReflTransGen BooksMove (books server calls removed)
      (books after (calls + msgSendCalls server act) (removed + removedBy server after act)) := by
  obtain ⟨later, keeps⟩ := sound_step attributed sound current taken
  have kept : ∀ buf ∈ server.msgSendQueue, buf ∈ after.msgSendQueue →
      tagAt after.sheap buf = tagAt server.sheap buf :=
    fun buf waits stays => tag_kept sound later keeps waits stays
  have quietly : Quiet server after → Relation.ReflTransGen BooksMove
      (books server calls removed) (books after (calls + 0) (removed + 0)) := by
    intro quiet
    rw [add_zero, add_zero]
    refine Relation.ReflTransGen.single (quiet_move attributed.replies quiet ?_ calls removed)
    rw [quiet_queue quiet]
    exact List.map_congr_left fun buf waits => kept buf waits ((quiet_queue quiet) ▸ waits)
  cases stepped_of_step taken with
  | msgSend msg now =>
      obtain ⟨⟨stamped, -⟩, -, newest⟩ := current
      obtain ⟨serves, started⟩ := current_owner attributed.settled stamped newest
      have called := queue_reply_books attributed.settled attributed.replies sound cfg msg now later
        keeps serves started calls removed
      exact (add_zero removed).symm ▸ called
  | process worker jobbuf junk now working =>
      rcases process_message_sends attributed cfg jobbuf junk now with
        ⟨silent, quiet⟩ | ⟨replies, answer, noted, send, counted, view, serves, started, same⟩
      · have none : msgSendCalls server (.process worker junk now) = 0 := by
          rw [msgSendCalls, working]
          dsimp only
          rw [silent]
          rfl
        rw [none]
        obtain ⟨kept, grows, lives⟩ := quiet
        exact quietly ⟨kept, grows, lives⟩
      · have one : msgSendCalls server (.process worker junk now) = 1 := by
          rw [msgSendCalls, working]
          dsimp only
          rw [replies]
          rfl
        have heap : noted.sheap = server.sheap := congrArg SendState.sheap send
        have occ : noted.ghost.occ = server.ghost.occ := congrArg SendState.occ send
        have begins : books noted calls removed = books server calls removed := by
          have queue : noted.msgSendQueue = server.msgSendQueue := congrArg Counters.queue counted
          refine Books.ext ?_ (congrArg Counters.size counted) (congrArg Counters.waiting counted)
            ?_ rfl (congrArg Counters.discarded counted) rfl
          · dsimp only [books]
            rw [heap, queue]
          · dsimp only [books]
            rw [occ]
        have called := queue_reply_books (view ▸ attributed.settled)
          (by rw [heap, view]; exact attributed.replies) (send ▸ sound) cfg answer now
          (same ▸ later) (by rw [heap, ← same]; exact keeps) (by rw [occ]; exact serves) started
          calls removed
        rw [begins, ← same] at called
        rw [one]
        exact (add_zero removed).symm ▸ called
  | element outcome ctlOk pos pMsgBuf iterator here =>
      have inside : pos < server.msgSendQueue.length := (List.getElem?_eq_some_iff.mp here).1
      rcases send_element_books attributed sound outcome ctlOk here later keeps calls removed with
        ⟨same, move⟩ | ⟨erased, move⟩
      · have none : removedBy server (sendElement server pos pMsgBuf outcome ctlOk)
            (.element outcome ctlOk) = 0 := by
          rw [removedBy, same, Nat.sub_self]
        rw [none]
        exact Relation.ReflTransGen.single ((add_zero calls).symm ▸ (add_zero removed).symm ▸ move)
      · have one : removedBy server (sendElement server pos pMsgBuf outcome ctlOk)
            (.element outcome ctlOk) = 1 := by
          rw [removedBy, erased, List.length_eraseIdx_of_lt inside]
          omega
        rw [one]
        exact Relation.ReflTransGen.single ((add_zero calls).symm ▸ move)
  | semWait | beginPass | endPass =>
      exact (add_zero calls).symm ▸ (add_zero removed).symm ▸ Relation.ReflTransGen.refl
  | _ =>
      refine quietly (quiet_step attributed ?_ taken)
      trivial

end Steps

/-- A state with how often `msgSend` was called and how many elements the send thread
took out of the queue. -/
structure Tally where
  server : Server
  calls : Nat
  removed : Nat

def tallyStep (cfg : Config) (tally : Tally) (act : Act) : Option Tally :=
  (step cfg tally.server act).map fun after =>
    { server := after
      calls := tally.calls + msgSendCalls tally.server act
      removed := tally.removed + removedBy tally.server after act }

def TallyStart (tally : Tally) : Prop :=
  Fresh tally.server ∧ tally.calls = 0 ∧ tally.removed = 0

def TallyReachable (cfg : Config) : Tally → Prop :=
  TransitionSystem.Reachable TallyStart (tallyStep cfg) fun tally act =>
    CallsCurrent tally.server act

def stampedFor (server : Server) (c : ConnId) (buf : Nat) : Bool :=
  match server.sheap.block buf with
  | none => false
  | some msg =>
      decide (msg.hdr.pConn = c ∧ msg.hdr.iCurrsequence = (server.conns c).iCurrsequence)

def waitingFor (server : Server) (c : ConnId) : Nat :=
  server.msgSendQueue.countP (stampedFor server c)

/-- The counters of the send queue are right, and within their limits. -/
structure BacklogOk (tally : Tally) : Prop where
  counted : tally.server.iSendMsgQueueCount = tally.server.msgSendQueue.length
  capped : tally.server.msgSendQueue.length ≤ 50001
  waiting : ∀ c, tally.server.ghost.occ c ≠ none →
    (tally.server.conns c).security.iSendCount = waitingFor tally.server c ∧
      (tally.server.conns c).security.iSendCount ≤ 401
  balance : (tally.calls : Int) = tally.server.iDiscardSendPkgCount +
    tally.server.msgSendQueue.length + tally.removed

theorem fresh_exact {server : Server} (fresh : Fresh server) :
    Exact 50000 400 (books server 0 0) := by
  obtain ⟨listenFds, -, -, rfl⟩ := fresh
  refine ⟨rfl, show (0 : Int) ≤ 50000 + 1 by decide, ?_, ?_, rfl⟩
  · rintro c tag ⟨serves, live⟩
    exact absurd serves.symm live
  · rintro c tag ⟨serves, live⟩
    exact absurd serves.symm live

theorem reachable_exact {cfg : Config} {tally : Tally} (reached : TallyReachable cfg tally) :
    Attributed tally.server ∧ SendSound (sendState tally.server) ∧
      Exact 50000 400 (books tally.server tally.calls tally.removed) := by
  refine TransitionSystem.invariant_of_step (fun tally : Tally => Attributed tally.server ∧
    SendSound (sendState tally.server) ∧
      Exact 50000 400 (books tally.server tally.calls tally.removed)) ?_ ?_ reached
  · rintro ⟨server, calls, removed⟩ ⟨fresh, none, nothing⟩
    cases none
    cases nothing
    exact ⟨fresh_attributed fresh, fresh_sound fresh, fresh_exact fresh⟩
  · rintro before act tallied ⟨attributed, sound, exact⟩ current taken
    obtain ⟨after, stepped, rfl⟩ := Option.map_eq_some_iff.mp taken
    have moves := step_books attributed sound current stepped before.calls before.removed
    have kept := Backlog.exact_moves (by decide) exact moves
    refine ⟨attributed_step attributed current.1 stepped,
      (sound_step attributed sound current stepped).1, ?_⟩
    push_cast
    exact kept

/-- A packet is for the occupancy that a connection serves if its header is current. -/
theorem waiting_for_count {server : Server} (attributed : Attributed server) {c : ConnId}
    {o : OccId} (serves : server.ghost.occ c = some o) :
    (server.msgSendQueue.map (tagAt server.sheap)).count (some o) = waitingFor server c := by
  rw [List.count, List.countP_map]
  apply List.countP_congr
  intro buf _
  rw [Function.comp_apply, tagAt, stampedFor, beq_iff_eq]
  cases live : server.sheap.block buf with
  | none => exact iff_of_false nofun Bool.false_ne_true
  | some msg =>
      have stamped := attributed.replies msg.hdr ⟨buf, msg, live, rfl⟩
      have current := stamped_current (settled_stamps attributed.settled) stamped
      dsimp only [Option.bind_some]
      rw [decide_eq_true_eq]
      constructor
      · intro occ
        obtain ⟨p, -, same, stamp⟩ := stamped
        rw [occ] at same
        cases same
        have now := (settled_stamps attributed.settled).current c o serves
        exact Prod.mk.inj (stamp.symm.trans now)
      · rintro ⟨rfl, newest⟩
        exact (current.mp newest).symm.trans serves

theorem backlog_ok {tally : Tally} (attributed : Attributed tally.server)
    (exact : Exact 50000 400 (books tally.server tally.calls tally.removed)) :
    BacklogOk tally := by
  have size : tally.server.iSendMsgQueueCount = tally.server.msgSendQueue.length :=
    exact.size.trans (by rw [books, List.length_map])
  have capped : tally.server.iSendMsgQueueCount ≤ 50000 + 1 := exact.capped
  refine ⟨size, by omega, fun c live => ?_, ?_⟩
  · obtain ⟨o, serves⟩ := Option.ne_none_iff_exists'.mp live
    have owns : (books tally.server tally.calls tally.removed).owns c (some o) :=
      ⟨serves, Option.some_ne_none o⟩
    refine ⟨?_, exact.shared c (some o) owns⟩
    rw [← waiting_for_count attributed serves]
    exact exact.waiting c (some o) owns
  · have balance := exact.balance
    simp only [books, List.length_map] at balance
    exact balance

/-- `msgSend` closes no connection but that of its packet, and only for its counter. -/
theorem reply_cuts_off {cfg : Config} {server : Server} {msg : MsgBuf} {now : Int} {c : ConnId}
    (live : server.ghost.occ c ≠ none)
    (ended : (queueReply cfg server msg now).ghost.occ c = none) :
    400 < (server.conns c).security.iSendCount := by
  rcases queue_reply_branches cfg server msg now with
    ⟨-, dropped⟩ | ⟨-, flooded, closed⟩ | ⟨-, -, queued⟩
  · rw [dropped] at ended
    exact absurd ended live
  · rw [closed, zd_occ, Function.update_apply] at ended
    split at ended
    case isTrue same =>
      rw [same]
      exact flooded
    case isFalse => exact absurd ended live
  · rw [queued] at ended
    exact absurd ended live

/-- The action calls `msgSend`, and the occupancy of a connection ends with it. -/
def CutsOff (server after : Server) (act : Act) (c : ConnId) : Prop :=
  0 < msgSendCalls server act ∧ server.ghost.occ c ≠ none ∧ after.ghost.occ c = none

theorem cuts_off_flooded {cfg : Config} {server after : Server} {act : Act} {c : ConnId}
    (attributed : Attributed server) (taken : step cfg server act = some after)
    (cut : CutsOff server after act c) : 400 < (server.conns c).security.iSendCount := by
  obtain ⟨calls, live, ended⟩ := cut
  cases stepped_of_step taken with
  | msgSend msg now => exact reply_cuts_off live ended
  | process worker jobbuf junk now working =>
      have processed : (processMessage cfg server jobbuf junk now).ghost.occ c = none := ended
      rw [msgSendCalls, working] at calls
      dsimp only at calls
      rcases process_message_sends attributed cfg jobbuf junk now with
        ⟨silent, -⟩ | ⟨-, answer, noted, send, counted, -, -, -, same⟩
      · rw [silent] at calls
        cases calls
      · rw [same] at processed
        have occ : noted.ghost.occ = server.ghost.occ := congrArg SendState.occ send
        have waiting : (noted.conns c).security.iSendCount =
            (server.conns c).security.iSendCount := congrFun (congrArg Counters.waiting counted) c
        rw [← waiting]
        exact reply_cuts_off (by rw [occ]; exact live) processed
  | _ => cases calls

/-- In every run whose calls of `msgSend` have current headers the counters of the
send queue are exact and bounded, and a client that a call cuts off has more than
400 replies in the queue. -/
theorem send_backlog_exact (cfg : Config) (tally : Tally) (reached : TallyReachable cfg tally) :
    BacklogOk tally ∧
      ∀ act after c, CallsCurrent tally.server act → step cfg tally.server act = some after →
        CutsOff tally.server after act c → 400 < waitingFor tally.server c := by
  obtain ⟨attributed, -, exact⟩ := reachable_exact reached
  have ok := backlog_ok attributed exact
  refine ⟨ok, fun act after c _ taken cut => ?_⟩
  have flooded := cuts_off_flooded attributed taken cut
  have waiting := (ok.waiting c cut.2.1).1
  omega

/-- Two replies wait for a client, and the first of them is sent. -/
theorem send_backlog_exact_sample :
    ∃ tally, BacklogOk tally ∧ tally.server.iSendMsgQueueCount = 1 ∧ tally.calls = 2 ∧
      tally.removed = 1 := by
  have seen : (TransitionSystem.exec (tallyStep sampleConfig)
      (fun tally act => decide (CallsCurrent tally.server act)) ⟨Server.construct [3], 0, 0⟩
      [.epollInit (fun _ => true) 1000, .accept 0 [.ok 5] true true 1001,
        .msgSend
          { hdr := { pConn := 1, iCurrsequence := 1, occ := some 0 }, pkg := encodeHeader 8 0 0 }
          1002,
        .msgSend
          { hdr := { pConn := 1, iCurrsequence := 1, occ := some 0 }, pkg := encodeHeader 8 0 0 }
          1003,
        .semWait false, .beginPass, .element (.sent 8) true]).map (fun tally =>
      (tally.server.iSendMsgQueueCount, tally.calls, tally.removed)) = some (1, 2, 1) := by
    decide
  obtain ⟨tally, executed, same⟩ := Option.map_eq_some_iff.mp seen
  simp only [Prod.mk.injEq] at same
  have reached : TallyReachable sampleConfig tally :=
    ⟨⟨Server.construct [3], 0, 0⟩, ⟨⟨[3], by simp, by simp, rfl⟩, rfl, rfl⟩,
      TransitionSystem.steps_of_exec (fun _ _ => of_decide_eq_true) executed⟩
  exact ⟨tally, (send_backlog_exact sampleConfig tally reached).1, same⟩

end NgxServer.SendBacklog
