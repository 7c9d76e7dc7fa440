import NgxServer.RecvOwnership
import NgxServer.SendFraming

/-!
# No packet is lost from memory

The send queue and the pending pointers of connections are the only places
that know a packet. A packet would be lost if a pending pointer were
overwritten or its connection issued again while it is pending. As long as the
framing of packets is intact neither happens, and the packets in memory are
those in the queue, of which there is a limited number, and at most one for
each connection object.
-/

namespace NgxServer.SendAccounting

open NgxServer.Comm NgxServer.State NgxServer.ConnPool NgxServer.Socket NgxServer.Request
open NgxServer.Accept NgxServer.Logic NgxServer.System NgxServer.Frames
open NgxServer.PoolRefinement NgxServer.Occupancy NgxServer.SendMachine
open NgxServer.SendRefinement NgxServer.SendFraming
open BlockHeap (Heap null)
open QuarantinePool (Settled InService)

set_option autoImplicit false

/-- Every packet is in the queue, pending or freed, the queue is not longer than
`msgSend` lets it become, and the connections of `spare` have no packet. -/
structure Lossless (spare : ConnId → Prop) (state : SendState) : Prop where
  complete : Ownership.Complete state.sheap (Holds state)
  accounted : BlockHeap.Accounted state.sheap
  short : state.queue.length ≤ 50001
  idle : ∀ c, spare c → (state.send c).psendMemPointer = null

section Machine

variable {spare fewer : ConnId → Prop} {state after : SendState}

theorem lossless_mono (lossless : Lossless spare state) (less : ∀ c, fewer c → spare c) :
    Lossless fewer state where
  complete := lossless.complete
  accounted := lossless.accounted
  short := lossless.short
  idle := fun c among => lossless.idle c (less c among)

theorem lossless_of_pointers (lossless : Lossless spare state) (sheap : after.sheap = state.sheap)
    (queue : after.queue = state.queue)
    (pointers : ∀ c, (after.send c).psendMemPointer = (state.send c).psendMemPointer) :
    Lossless spare after where
  complete := by
    rw [sheap]
    apply Ownership.complete_move lossless.complete
    intro holder buf held
    apply Exists.intro holder
    cases holder with
    | slot index =>
        change after.queue[index]? = some buf
        rw [queue]
        exact held
    | conn c =>
        change (after.send c).psendMemPointer = buf ∧ buf ≠ null
        rw [pointers]
        exact held
  accounted := by
    rw [sheap]
    exact lossless.accounted
  short := by
    rw [queue]
    exact lossless.short
  idle := by
    intro c among
    rw [pointers]
    exact lossless.idle c among

theorem lossless_set_send (lossless : Lossless spare state) (c : ConnId)
    (change : SendPart → SendPart)
    (pointer : (change (state.send c)).psendMemPointer = (state.send c).psendMemPointer) :
    Lossless spare (state.setSend c change) := by
  apply lossless_of_pointers lossless
  case sheap => rfl
  case queue => rfl
  case pointers =>
    intro d
    by_cases same : d = c
    · rw [same, set_send_self]
      exact pointer
    · rw [set_send_ne _ _ same]

theorem lossless_close (lossless : Lossless spare state) (c : ConnId) (opened : Bool) :
    Lossless spare (state.close c opened) := by
  apply lossless_set_send _ c _ rfl
  exact lossless_of_pointers lossless rfl rfl fun _ => rfl

theorem lossless_reset (lossless : Lossless spare state) (c : ConnId) (part : SendPart)
    (none : (state.send c).psendMemPointer = null) : Lossless spare (state.reset c part) := by
  apply lossless_of_pointers lossless
  case sheap => rfl
  case queue => rfl
  case pointers =>
    intro d
    by_cases same : d = c
    · subst same
      rw [none]
      simp [SendState.reset]
    · simp [SendState.reset, same]

theorem lossless_drop_pending (lossless : Lossless spare state) (c : ConnId)
    (iThrowsendCount : Int) :
    Lossless (fun d => spare d ∨ d = c) (state.dropPending c iThrowsendCount) := by
  have idle : ∀ d, spare d ∨ d = c →
      ((state.dropPending c iThrowsendCount).send d).psendMemPointer = null := by
    intro d among
    by_cases same : d = c
    · rw [same, SendState.dropPending, set_send_self]
    · rw [SendState.dropPending, set_send_ne _ _ same]
      exact lossless.idle d (among.resolve_right same)
  have kept : ∀ d, d ≠ c → ((state.dropPending c iThrowsendCount).send d).psendMemPointer =
      (state.send d).psendMemPointer := by
    intro d other
    rw [SendState.dropPending, set_send_ne _ _ other]
  refine ⟨?_, BlockHeap.free_accounted lossless.accounted _, lossless.short, idle⟩
  by_cases pending : (state.send c).psendMemPointer = null
  · have same : (state.dropPending c iThrowsendCount).sheap = state.sheap := by
      change BlockHeap.free state.sheap (state.send c).psendMemPointer = state.sheap
      rw [pending, BlockHeap.free_null]
    rw [same]
    apply Ownership.complete_move lossless.complete
    intro holder buf held
    apply Exists.intro holder
    cases holder with
    | slot index => exact held
    | conn d =>
        by_cases other : d = c
        · rw [other] at held
          exact absurd (held.1.symm.trans pending) held.2
        · exact ⟨(kept d other).trans held.1, held.2⟩
  · apply Ownership.complete_free lossless.complete pending
    intro holder buf held different
    cases holder with
    | slot index => exact held
    | conn d =>
        by_cases other : d = c
        · rw [other] at held
          exact absurd held.1.symm different
        · exact ⟨(kept d other).trans held.1, held.2⟩

theorem lossless_release (lossless : Lossless spare state) (c : ConnId) :
    Lossless (fun d => spare d ∨ d = c) (state.release c) := by
  apply lossless_drop_pending
  exact lossless_of_pointers lossless rfl rfl fun _ => rfl

theorem lossless_discard (lossless : Lossless spare state) (msg : MsgBuf)
    (positive : 0 < state.sheap.next) : Lossless spare (state.discard msg) where
  complete := by
    intro buf live
    have old : buf ≠ state.sheap.next := by
      rintro rfl
      have gone : (state.discard msg).sheap.block state.sheap.next = none :=
        (BlockHeap.free_block _ _ _).trans (if_pos ⟨Nat.ne_of_gt positive, rfl⟩)
      rw [gone] at live
      cases live
    rw [discard_block state msg old] at live
    exact lossless.complete buf live
  accounted := BlockHeap.free_accounted (BlockHeap.alloc_accounted lossless.accounted msg) _
  short := lossless.short
  idle := lossless.idle

theorem lossless_push (lossless : Lossless spare state) (msg : MsgBuf)
    (room : state.queue.length ≤ 50000) : Lossless spare (state.push msg) where
  complete := by
    apply Ownership.complete_alloc lossless.complete msg (.slot state.queue.length)
    · intro holder buf held
      cases holder with
      | slot index =>
          obtain ⟨inside, -⟩ := List.getElem?_eq_some_iff.mp held
          exact (List.getElem?_append_left inside).trans held
      | conn c => exact held
    · exact List.getElem?_concat_length
  accounted := BlockHeap.alloc_accounted lossless.accounted msg
  short := by
    have grown : (state.push msg).queue.length = state.queue.length + 1 := List.length_append
    omega
  idle := lossless.idle

/-- An element that is not the erased one stays in the queue. -/
theorem get_erase_idx (queue : List Nat) {pos index buf : Nat} (here : queue[index]? = some buf)
    (apart : index ≠ pos) : (queue.eraseIdx pos)[shiftSlot pos index]? = some buf := by
  unfold shiftSlot
  split_ifs with before
  · rwa [List.getElem?_eraseIdx_of_lt before]
  · have behind : pos ≤ index - 1 := by omega
    have same : index - 1 + 1 = index := by omega
    rwa [List.getElem?_eraseIdx_of_ge behind, same]

theorem erase_idx_short {queue : List Nat} (short : queue.length ≤ 50001) (pos : Nat) :
    (queue.eraseIdx pos).length ≤ 50001 :=
  (List.length_eraseIdx_le queue pos).trans short

theorem lossless_drop_stale (lossless : Lossless spare state) {pos buf : Nat}
    (current : state.queue[pos]? = some buf) (notNull : buf ≠ null) :
    Lossless spare (state.dropStale pos buf) where
  complete := by
    have freed : Ownership.Complete (BlockHeap.free state.sheap buf)
        fun holder other => Holds state holder other ∧ other ≠ buf :=
      Ownership.complete_free lossless.complete notNull fun _ _ held other => ⟨held, other⟩
    apply Ownership.complete_move freed
    rintro holder other ⟨held, different⟩
    cases holder with
    | slot index =>
        apply Exists.intro (PacketHolder.slot (shiftSlot pos index))
        apply get_erase_idx state.queue held
        rintro rfl
        exact different (Option.some.inj (held.symm.trans current))
    | conn c => exact ⟨.conn c, held⟩
  accounted := BlockHeap.free_accounted lossless.accounted buf
  short := erase_idx_short lossless.short pos
  idle := lossless.idle

/-- A packet is taken from the queue to a connection that has none. -/
theorem lossless_begin (lossless : Lossless spare state) {pos buf : Nat} (msg : MsgBuf)
    (current : state.queue[pos]? = some buf) (notNull : buf ≠ null)
    (free : (state.send msg.hdr.pConn).psendMemPointer = null) (busy : ¬ spare msg.hdr.pConn) :
    Lossless spare (state.begin pos buf msg) where
  complete := by
    apply Ownership.complete_move lossless.complete
    intro holder other held
    cases holder with
    | slot index =>
        by_cases here : index = pos
        · rw [here] at held
          rw [Option.some.inj (held.symm.trans current)]
          apply Exists.intro (PacketHolder.conn msg.hdr.pConn)
          constructor
          · rw [SendState.begin, set_send_self]
          · exact notNull
        · exact ⟨.slot (shiftSlot pos index), get_erase_idx state.queue held here⟩
    | conn c =>
        have apart : c ≠ msg.hdr.pConn := by
          rintro rfl
          exact held.2 (held.1.symm.trans free)
        apply Exists.intro (PacketHolder.conn c)
        constructor
        · rw [SendState.begin, set_send_ne _ _ apart]
          exact held.1
        · exact held.2
  accounted := lossless.accounted
  short := erase_idx_short lossless.short pos
  idle := by
    intro c among
    have apart : c ≠ msg.hdr.pConn := by
      rintro rfl
      exact busy among
    rw [SendState.begin, set_send_ne _ _ apart]
    exact lossless.idle c among

theorem lossless_await (lossless : Lossless spare state) (c : ConnId) (armed : Bool) :
    Lossless spare (state.await c armed) := by
  have counted := lossless_set_send lossless c
    (fun part => { part with iThrowsendCount := part.iThrowsendCount + 1 }) rfl
  exact lossless_of_pointers counted rfl rfl fun _ => rfl

theorem lossless_start (lossless : Lossless spare state) {pos buf : Nat} {msg : MsgBuf}
    (progress : Progress) (armed : Bool) (current : state.queue[pos]? = some buf)
    (notNull : buf ≠ null) (free : (state.send msg.hdr.pConn).psendMemPointer = null)
    (busy : ¬ spare msg.hdr.pConn) :
    Lossless spare (state.start pos buf msg progress armed) := by
  have begun := lossless_begin lossless msg current notNull free busy
  have tried : Lossless spare ((state.begin pos buf msg).logCall msg.hdr.pConn false
      (decide ((state.send msg.hdr.pConn).psendMemPointer ≠ null)) progress.sendsize) :=
    lossless_of_pointers begun rfl rfl fun _ => rfl
  cases progress with
  | part count =>
      have advanced := lossless_set_send tried msg.hdr.pConn (fun part =>
        { part with
          psendbuf := (part.psendbuf.1, part.psendbuf.2 + count)
          isendlen := part.isendlen - count }) rfl
      exact lossless_await advanced msg.hdr.pConn armed
  | blocked => exact lossless_await tried msg.hdr.pConn armed
  | done sendsize =>
      exact lossless_mono (lossless_drop_pending tried msg.hdr.pConn 0) fun _ => Or.inl

theorem lossless_write (lossless : Lossless spare state) (c : ConnId) (progress : Progress)
    (armed : Bool) : Lossless spare (state.write c progress armed) := by
  cases progress with
  | part count =>
      have tried : Lossless spare (state.logCall c true false count) :=
        lossless_of_pointers lossless rfl rfl fun _ => rfl
      exact lossless_set_send tried c (fun part =>
        { part with
          psendbuf := (part.psendbuf.1, part.psendbuf.2 + count)
          isendlen := part.isendlen - count }) rfl
  | blocked => exact lossless_of_pointers lossless rfl rfl fun _ => rfl
  | done sendsize =>
      unfold SendState.write
      dsimp only
      apply lossless_mono (lossless_drop_pending ?_ c _) fun _ => Or.inl
      split
      · exact lossless_of_pointers lossless rfl rfl fun _ => rfl
      · exact lossless_of_pointers lossless rfl rfl fun _ => rfl

end Machine

def Spare (server : Server) (c : ConnId) : Prop :=
  c ∈ server.freeconnectionList ∨ c ∉ server.connectionList

/-- What is kept of the process: nothing is lost, and an object that can be issued has no
packet. -/
structure Kept (server : Server) : Prop where
  lossless : Lossless (Spare server) (sendState server)
  below : ∀ c ∈ server.connectionList, c < server.connObjects

structure PoolLists where
  free : List ConnId
  all : List ConnId
  objects : Nat

def poolLists (server : Server) : PoolLists where
  free := server.freeconnectionList
  all := server.connectionList
  objects := server.connObjects

section Process

variable {server after : Server}

theorem kept_of_lossless {state : SendState} (kept : Kept server)
    (lossless : Lossless (Spare server) state) (same : sendState after = state)
    (lists : poolLists after = poolLists server) : Kept after := by
  have free : after.freeconnectionList = server.freeconnectionList :=
    congrArg PoolLists.free lists
  have all : after.connectionList = server.connectionList := congrArg PoolLists.all lists
  have objects : after.connObjects = server.connObjects := congrArg PoolLists.objects lists
  constructor
  case lossless =>
    rw [same]
    apply lossless_mono lossless
    intro c spare
    rwa [Spare, free, all] at spare
  case below =>
    rw [all, objects]
    exact kept.below

theorem kept_of_eq (kept : Kept server) (same : sendState after = sendState server)
    (lists : poolLists after = poolLists server) : Kept after :=
  kept_of_lossless kept kept.lossless same lists

theorem kept_zd (kept : Kept server) (cfg : Config) (c : ConnId) (now : Int) :
    Kept (zdClosesocketProc cfg server c now) := by
  have lists := congrArg poolLists (forget_close_zd cfg server c now)
  exact kept_of_lossless kept (lossless_close kept.lossless c _)
    (zd_closesocket_proc_send_state cfg server c now) lists

theorem kept_read_side (kept : Kept server) (cfg : Config) (c : ConnId) (revents : BitVec 32)
    (recv : RecvOutcome) (junk : Nat → Byte) (nowMs : Nat) (now : Int) :
    Kept (readSide cfg server c revents recv junk nowMs now) := by
  unfold readSide
  split
  · obtain ⟨received, same, ends⟩ :=
      ngx_read_request_handler_frame cfg server c recv junk nowMs now
    have lists := congrArg poolLists same
    have held : Kept received := kept_of_eq kept (send_state_of_recv same) lists
    rcases ends with read | closed
    · rw [read]
      exact held
    · rw [closed]
      exact kept_zd held cfg c now
  · exact kept

theorem kept_write_side (kept : Kept server) (c : ConnId) (revents : BitVec 32)
    (send : SendOutcome) (ctlOk : Bool) : Kept (writeSide server c revents send ctlOk) := by
  have lists := congrArg poolLists (forget_send_write_side server c revents send ctlOk)
  have moved : ∃ state, Lossless (Spare server) state ∧
      sendState (writeSide server c revents send ctlOk) = state := by
    unfold writeSide
    split_ifs
    · have uncounted := lossless_set_send kept.lossless c
        (fun part => { part with iThrowsendCount := part.iThrowsendCount - 1 }) rfl
      exact ⟨_, uncounted, send_state_set server c
        (fun p => { p with send.iThrowsendCount := p.send.iThrowsendCount - 1 }) _ rfl rfl⟩
    · exact ⟨_, lossless_write kept.lossless c _ _,
        ngx_write_request_handler_send_state server c send ctlOk⟩
    · exact ⟨_, kept.lossless, rfl⟩
  obtain ⟨state, lossless, same⟩ := moved
  exact kept_of_lossless kept lossless same lists

/-- `msgSend` frees the packet or queues it, if there is room for one. -/
theorem kept_queue_reply (kept : Kept server) (sound : SendSound (sendState server))
    (cfg : Config) (msg : MsgBuf) (now : Int) : Kept (queueReply cfg server msg now) := by
  have stored : (allocReply server msg).sheap.block server.sheap.next = some msg :=
    BlockHeap.alloc_block_self server.sheap msg
  have counted : server.iSendMsgQueueCount = server.msgSendQueue.length := sound.counted
  have freed := lossless_discard kept.lossless msg sound.exclusive.wellFormed.positive
  have discarded : Kept (discardSendPkg (allocReply server msg) server.sheap.next) :=
    kept_of_lossless kept freed (discard_send_pkg_send_state server msg) rfl
  unfold queueReply msgSend
  rw [stored]
  split
  · exact discarded
  case isFalse room =>
    have limited : server.msgSendQueue.length ≤ 50000 := by
      have fewer : ¬ server.iSendMsgQueueCount > 50000 := room
      omega
    dsimp only
    split
    · exact kept_zd discarded cfg msg.hdr.pConn now
    · exact kept_of_lossless kept (lossless_push kept.lossless msg limited)
        (push_send_pkg_send_state server msg) rfl

theorem kept_process (kept : Kept server) (sound : SendSound (sendState server)) (cfg : Config)
    (jobbuf : Nat) (junk : Nat → Byte) (now : Int) :
    Kept (processMessage cfg server jobbuf junk now) := by
  rcases process_message_cases cfg server jobbuf junk now with
    same | ⟨msg, dispatched, live, current, logged, ends⟩
  · rw [same]
    exact kept
  · have handled : sendState dispatched = sendState server ∧
        poolLists dispatched = poolLists server := by
      rw [logged]
      exact ⟨rfl, rfl⟩
    obtain ⟨state, lists⟩ := handled
    have before : Kept dispatched := kept_of_eq kept state lists
    rcases ends with silent | ⟨answer, noted, header, sized, notes, replies⟩
    · rw [silent]
      exact before
    · have written : Kept noted ∧ SendSound (sendState noted) := by
        rcases notes with same | same
        · rw [same, state]
          exact ⟨before, sound⟩
        · have untouched := send_state_mod_conn dispatched msg.hdr.pConn
            (fun p => { p with lastPingTime := now }) rfl rfl
          rw [same, untouched, state]
          exact ⟨kept_of_eq before untouched rfl, sound⟩
      rw [replies]
      exact kept_queue_reply written.1 written.2 cfg answer now

theorem kept_ping_check (kept : Kept server) (cfg : Config) (tmpmsg : Nat) (curTime now : Int) :
    Kept (procPingTimeOutChecking cfg server tmpmsg curTime now) := by
  have freed : ∀ checked, Kept checked → Kept (freeRecord checked tmpmsg) :=
    fun _ held => ⟨held.lossless, held.below⟩
  unfold procPingTimeOutChecking
  split
  · exact kept
  case h_2 record found =>
    apply freed
    unfold kickOverdue
    split_ifs
    · have logged : Kept (logKick server record) := ⟨kept.lossless, kept.below⟩
      exact kept_zd logged cfg record.pConn now
    · exact kept
    · exact kept

theorem kept_free_connection (kept : Kept server) (c : ConnId) :
    Kept (ngxFreeConnection server c) := by
  refine ⟨?_, kept.below⟩
  rw [ngx_free_connection_send_state]
  apply lossless_mono (lossless_release kept.lossless c)
  intro d spare
  rcases spare with listed | unlisted
  · have member : d ∈ server.freeconnectionList ++ [c] := listed
    rcases List.mem_append.mp member with older | new
    · exact Or.inl (Or.inl older)
    · exact Or.inr (List.mem_singleton.mp new)
  · exact Or.inl (Or.inr unlisted)

theorem kept_recy_pass (kept : Kept server) (cfg : Config) (currtime gStopEvent : Int) :
    Kept (serverRecyConnectionPass cfg server currtime gStopEvent) := by
  apply recy_pass_keeps ?_ currtime gStopEvent kept
  intro state c held
  have erased : Kept
      { state with
        totolRecyconnectionN := state.totolRecyconnectionN - 1
        recyconnectionList := state.recyconnectionList.erase c } :=
    ⟨held.lossless, held.below⟩
  exact kept_free_connection erased c

theorem new_spare (kept : Kept server) : Spare server server.connObjects := by
  apply Or.inr
  intro listed
  exact Nat.lt_irrefl _ (kept.below _ listed)

theorem below_append (kept : Kept server) :
    ∀ c ∈ server.connectionList ++ [server.connObjects], c < server.connObjects + 1 := by
  intro c listed
  rcases List.mem_append.mp listed with older | new
  · exact Nat.lt_succ_of_lt (kept.below c older)
  · rw [List.mem_singleton.mp new]
    exact Nat.lt_succ_self _

theorem kept_get_connection (kept : Kept server) (isock now : Int) :
    Kept (ngxGetConnection server isock now).2 := by
  obtain ⟨part, issued⟩ := ngx_get_connection_send_state server isock now
  have spare : Spare server (ngxGetConnection server isock now).1 := by
    unfold ngxGetConnection
    split
    case h_1 c rest front =>
      apply Or.inl
      rw [front]
      exact List.mem_cons_self
    case h_2 exhausted => exact new_spare kept
  have reset := lossless_reset kept.lossless _ part (kept.lossless.idle _ spare)
  rw [← issued] at reset
  unfold ngxGetConnection at reset ⊢
  split at reset
  case h_1 c rest front =>
    apply Kept.mk (lossless_mono reset ?_) kept.below
    intro d among
    exact among.imp_left fun listed => front ▸ List.mem_cons_of_mem c listed
  case h_2 exhausted =>
    apply Kept.mk (lossless_mono reset ?_) (below_append kept)
    intro d among
    exact among.imp_right fun unlisted older => unlisted (List.mem_append_left _ older)

theorem kept_own (kept : Kept server) (c : ConnId) : Kept (openOccupancy server c) := by
  have owned : Lossless (Spare server) ((sendState server).own c) :=
    lossless_of_pointers kept.lossless rfl rfl fun _ => rfl
  exact ⟨owned, kept.below⟩

theorem kept_close_connection (kept : Kept server) (c : ConnId) :
    Kept (ngxCloseConnection server c) := by
  have freed := kept_free_connection kept c
  have lists : poolLists (ngxCloseConnection server c) =
      poolLists (ngxFreeConnection server c) := by
    unfold ngxCloseConnection closeIfOpen
    split <;> rfl
  apply kept_of_lossless freed ?_ (close_if_open_send_state _ c) lists
  exact lossless_of_pointers freed.lossless rfl rfl fun _ => rfl

theorem kept_epoll_oper (kept : Kept server) (fd : Int) (eventtype : EpollCtl)
    (flag : BitVec 32) (bcaction : Nat) (c : ConnId) (ctlOk : Bool) (changes : eventtype ≠ .del) :
    Kept (ngxEpollOperEvent server fd eventtype flag bcaction c ctlOk).1 := by
  have lists := congrArg poolLists
    (forget_send_epoll_oper server fd eventtype flag bcaction c ctlOk)
  have masked : ∀ mask armed, Lossless (Spare server) ((sendState server).setMask c mask armed) :=
    fun _ _ => lossless_of_pointers kept.lossless rfl rfl fun _ => rfl
  exact kept_of_lossless kept (masked _ _)
    (epoll_oper_send_state server fd eventtype flag bcaction c ctlOk changes) lists

theorem kept_register (kept : Kept server) (cfg : Config) (newc : ConnId) (s : Int)
    (nonblockOk ctlOk : Bool) (now : Int) :
    Kept (registerConnection cfg server newc s nonblockOk ctlOk now) := by
  have handled :
      Kept (server.modConn newc fun p => { p with rhandler := .ngxReadRequestHandler }) :=
    kept_of_eq kept (send_state_mod_conn server newc _ rfl rfl) rfl
  have registered := kept_epoll_oper handled s .add (epollIn ||| epollRdhup) 0 newc ctlOk
    EpollCtl.noConfusion
  unfold registerConnection
  split
  · exact kept_close_connection kept newc
  · dsimp only
    split
    · exact kept_close_connection registered newc
    · split
      · exact ⟨registered.lossless, registered.below⟩
      · exact ⟨registered.lossless, registered.below⟩

theorem kept_event_accept (cfg : Config) (nonblockOk ctlOk : Bool) (now : Int)
    (outcomes : List AcceptOutcome) (kept : Kept server) :
    Kept (ngxEventAccept cfg server nonblockOk ctlOk now outcomes) := by
  apply event_accept_keeps ?_ ?_ outcomes kept
  · exact fun _ held => ⟨held.lossless, held.below⟩
  · intro state s held
    have opened : Kept (openSocket state s) := ⟨held.lossless, held.below⟩
    unfold acceptSocket
    split_ifs
    · exact ⟨held.lossless, held.below⟩
    · exact ⟨held.lossless, held.below⟩
    · have issued := kept_get_connection opened s now
      exact kept_register (kept_own issued _) cfg _ s nonblockOk ctlOk now

theorem kept_add_free (kept : Kept server) (now : Int) : Kept (addFreeConnection now server) := by
  have spare := new_spare kept
  apply Kept.mk ?_ (below_append kept)
  rw [add_free_connection_send_state]
  apply lossless_mono (lossless_reset kept.lossless _ _ (kept.lossless.idle _ spare))
  intro c among
  rcases among with listed | unlisted
  · have member : c ∈ server.freeconnectionList ++ [server.connObjects] := listed
    rcases List.mem_append.mp member with older | new
    · exact Or.inl older
    · rw [List.mem_singleton.mp new]
      exact spare
  · exact Or.inr fun older => unlisted (List.mem_append_left _ older)

theorem kept_listen_on (kept : Kept server) (ctl : Int → Bool) (now fd : Int)
    (listens : listenOn ctl now server fd = some after) : Kept after := by
  have issued := kept_get_connection kept fd now
  have marked : Kept (markListening (ngxGetConnection server fd now).2
      (ngxGetConnection server fd now).1) :=
    kept_of_eq issued (send_state_mod_conn
      { (ngxGetConnection server fd now).2 with
        listenConns := (ngxGetConnection server fd now).2.listenConns ++
          [(ngxGetConnection server fd now).1] }
      (ngxGetConnection server fd now).1 (fun p => { p with rhandler := .ngxEventAccept })
      rfl rfl) rfl
  unfold listenOn at listens
  dsimp only at listens
  split at listens
  · cases listens
  · cases listens
    exact kept_epoll_oper marked fd .add _ 0 _ (ctl fd) EpollCtl.noConfusion

theorem kept_epoll_init (kept : Kept server) (cfg : Config) (ctl : Int → Bool) (now : Int)
    (done : ngxEpollInit cfg server ctl now = some after) : Kept after := by
  apply epoll_init_keeps ?_ ?_ ?_ done kept
  · exact fun _ held => kept_add_free held now
  · exact fun _ _ held => ⟨held.lossless, held.below⟩
  · exact fun _ fd _ listens held => kept_listen_on held ctl now fd listens

/-- The send thread takes a packet only for an open connection that has none. -/
theorem kept_send_element (kept : Kept server) (attributed : Attributed server)
    (sound : SendSound (sendState server)) (framed : Framed (sendState server))
    {pos pMsgBuf : Nat} (outcome : SendOutcome) (ctlOk : Bool)
    (current : server.msgSendQueue[pos]? = some pMsgBuf) :
    Kept (sendElement server pos pMsgBuf outcome ctlOk) := by
  have lists := congrArg poolLists
    (forget_send_send_element server pos pMsgBuf outcome ctlOk)
  have held : Holds (sendState server) (.slot pos) pMsgBuf := current
  have notNull := Ownership.held_ne_null sound.exclusive held
  have moved : ∃ state, Lossless (Spare server) state ∧
      sendState (sendElement server pos pMsgBuf outcome ctlOk) = state := by
    unfold sendElement
    split
    · exact ⟨_, kept.lossless, rfl⟩
    case h_2 msg content =>
      dsimp only
      split_ifs with stale busy
      · exact ⟨_, lossless_drop_stale kept.lossless current notNull, rfl⟩
      · have skipped : Lossless (Spare server)
            (sendState { server with sendPc := .pass (pos + 1) }) :=
          lossless_of_pointers kept.lossless rfl rfl fun _ => rfl
        exact ⟨_, skipped, rfl⟩
      · have stamped := attributed.replies msg.hdr ⟨pMsgBuf, msg, content, rfl⟩
        obtain ⟨owns, live⟩ := current_owner attributed.settled stamped (not_not.mp stale)
        have serving : server.ghost.occ msg.hdr.pConn ≠ none := by
          rw [owns]
          exact live
        have none : ((sendState server).send msg.hdr.pConn).psendMemPointer = null := by
          rcases framed.steady msg.hdr.pConn serving with idle | pending
          · exact idle.2
          · have counted : (server.conns msg.hdr.pConn).send.iThrowsendCount = 1 := pending.1
            omega
        have inService := owner_in_service attributed.settled serving
        have busy : ¬ Spare server msg.hdr.pConn := by
          intro spare
          rcases spare with listed | unlisted
          · exact inService.2.1 listed
          · exact unlisted inService.1
        exact ⟨_, lossless_start kept.lossless _ _ current notNull none busy,
          send_element_now_send_state server pos pMsgBuf msg outcome ctlOk⟩
  obtain ⟨state, lossless, same⟩ := moved
  exact kept_of_lossless kept lossless same lists

theorem kept_step {cfg : Config} {act : Act} (kept : Kept server) (attributed : Attributed server)
    (sound : SendSound (sendState server)) (framed : Framed (sendState server))
    (taken : step cfg server act = some after) : Kept after := by
  cases stepped_of_step taken with
  | epollInit ctl now _ empty done => exact kept_epoll_init kept cfg ctl now done
  | accept oldc outcomes nonblockOk ctlOk now =>
      exact kept_event_accept cfg nonblockOk ctlOk now outcomes kept
  | event c revents recv send ctlOk junk nowMs now =>
      have read := kept_read_side kept cfg c revents recv junk nowMs now
      exact kept_write_side read c revents send ctlOk
  | msgSend msg now => exact kept_queue_reply kept sound cfg msg now
  | element outcome ctlOk pos pMsgBuf iterator current =>
      exact kept_send_element kept attributed sound framed outcome ctlOk current
  | process worker jobbuf junk now =>
      have processed := kept_process kept sound cfg jobbuf junk now
      exact ⟨processed.lossless, processed.below⟩
  | monitorPop curTime =>
      have same := forget_monitor_pop cfg server curTime
      have lists := congrArg poolLists same
      exact kept_of_eq kept (send_state_of_monitor same) lists
  | monitorCheck now tmpmsg rest =>
      have popped : Kept { server with lsIdleList := rest } := ⟨kept.lossless, kept.below⟩
      exact kept_ping_check popped cfg tmpmsg server.monitorTime now
  | recycle currtime => exact kept_recy_pass kept cfg currtime 0
  | close c now => exact kept_zd kept cfg c now
  | semWait | beginPass | endPass =>
      exact ⟨lossless_of_pointers kept.lossless rfl rfl fun _ => rfl, kept.below⟩
  | take | release => exact ⟨kept.lossless, kept.below⟩

theorem fresh_kept (fresh : Fresh server) : Kept server := by
  obtain ⟨listenFds, -, -, rfl⟩ := fresh
  constructor
  case lossless =>
    constructor
    case complete =>
      intro buf live
      cases live
    case accounted => exact BlockHeap.empty_accounted
    case short => exact Nat.zero_le _
    case idle => exact fun _ _ => rfl
  case below =>
    intro c listed
    cases listed

theorem reachable_kept {cfg : Config}
    (reached : Reachable cfg (fun server act => AnyEvent server act ∧ WritableOk cfg server act)
      server) :
    Attributed server ∧ SendSound (sendState server) ∧ Kept server := by
  obtain ⟨attributed, sound, -⟩ := reachable_framed reached
  apply And.intro attributed
  apply And.intro sound
  apply TransitionSystem.invariant_of_reachable Kept ?_ ?_ reached
  · exact fun _ => fresh_kept
  · intro before act after soFar kept _ taken
    obtain ⟨attributed, sound, framed⟩ := reachable_framed soFar
    exact kept_step kept attributed sound framed taken

end Process

def pendingOf (server : Server) (c : ConnId) : Nat := (server.conns c).send.psendMemPointer

/-- The addresses of the packets that wait in the queue or are pending. -/
def packets (server : Server) : List Nat :=
  server.msgSendQueue ++
    (server.connectionList.filter fun c => decide (pendingOf server c ≠ null)).map
      (pendingOf server)

section Packets

variable {server : Server}

theorem mem_packets (kept : Kept server) (buf : Nat) :
    buf ∈ packets server ↔ ∃ holder, Holds (sendState server) holder buf := by
  constructor
  · intro listed
    rcases List.mem_append.mp listed with waiting | pending
    · obtain ⟨index, here⟩ := List.mem_iff_getElem?.mp waiting
      exact ⟨.slot index, here⟩
    · obtain ⟨c, among, points⟩ := List.mem_map.mp pending
      have notNull := of_decide_eq_true (List.mem_filter.mp among).2
      exact ⟨.conn c, points, points ▸ notNull⟩
  · intro held
    obtain ⟨holder, held⟩ := held
    cases holder with
    | slot index => exact List.mem_append_left _ (List.mem_of_getElem? held)
    | conn c =>
        have listed : c ∈ server.connectionList := by
          by_contra unlisted
          exact held.2 (held.1.symm.trans (kept.lossless.idle c (Or.inr unlisted)))
        have points : pendingOf server c = buf := held.1
        apply List.mem_append_right
        apply List.mem_map.mpr
        apply Exists.intro c
        apply And.intro _ points
        apply List.mem_filter.mpr
        rw [points]
        exact ⟨listed, decide_eq_true held.2⟩

theorem packets_nodup (sound : SendSound (sendState server)) (once : server.connectionList.Nodup) :
    (packets server).Nodup := by
  have unique := sound.exclusive.unique
  have holds : ∀ c ∈ server.connectionList.filter fun c => decide (pendingOf server c ≠ null),
      Holds (sendState server) (.conn c) (pendingOf server c) :=
    fun c among => ⟨rfl, of_decide_eq_true (List.mem_filter.mp among).2⟩
  apply List.nodup_append'.mpr
  constructor
  · apply List.nodup_iff_getElem?_ne_getElem?.mpr
    intro i j before inside same
    have here : server.msgSendQueue[j]? = some server.msgSendQueue[j] :=
      List.getElem?_eq_some_iff.mpr ⟨inside, rfl⟩
    cases unique (.slot i) (.slot j) _ (same.trans here) here
    exact Nat.lt_irrefl _ before
  constructor
  · apply List.Nodup.map_on
    · intro c here d there same
      cases unique (.conn c) (.conn d) _ (holds c here) (same ▸ holds d there)
      rfl
    · exact once.filter _
  · intro buf waiting pending
    obtain ⟨index, here⟩ := List.mem_iff_getElem?.mp waiting
    obtain ⟨c, among, points⟩ := List.mem_map.mp pending
    have held := holds c among
    rw [points] at held
    cases unique (.slot index) (.conn c) buf here held

theorem live_iff_packet (kept : Kept server) (sound : SendSound (sendState server)) (buf : Nat) :
    (server.sheap.block buf).isSome ↔ buf ∈ packets server := by
  rw [mem_packets kept]
  constructor
  · exact kept.lossless.complete buf
  · intro held
    obtain ⟨holder, held⟩ := held
    exact sound.exclusive.live holder buf held

end Packets

/-- In every run in which no event breaks the framing of packets, the packets in memory are
exactly those in the send queue and the pending ones, each in one place only; any other
packet that was allocated has been freed, once. There are never more than 50001 of them
and one for each connection object. -/
theorem replies_accounted (cfg : Config) (server : Server)
    (reached : Reachable cfg (fun server act => AnyEvent server act ∧ WritableOk cfg server act)
      server) :
    (packets server).Nodup ∧
      (∀ buf, 0 < buf → buf < server.sheap.next →
        buf ∈ packets server ∧ (server.sheap.block buf).isSome ∧ server.sheap.frees.count buf = 0 ∨
          buf ∉ packets server ∧ server.sheap.block buf = none ∧
            server.sheap.frees.count buf = 1) ∧
      (packets server).length ≤ 50001 + server.connectionList.length := by
  obtain ⟨attributed, sound, kept⟩ := reachable_kept reached
  have heap : BlockHeap.WellFormed server.sheap := sound.exclusive.wellFormed
  have live := live_iff_packet kept sound
  constructor
  · exact packets_nodup sound attributed.settled.places.all_nodup
  constructor
  · intro buf some issued
    by_cases listed : buf ∈ packets server
    · have present := (live buf).mpr listed
      have kept : buf ∉ server.sheap.frees := by
        intro freed
        rw [(heap.dead buf freed).2] at present
        cases present
      exact Or.inl ⟨listed, present, List.count_eq_zero.mpr kept⟩
    · have gone : server.sheap.block buf = none := by
        rw [← Option.not_isSome_iff_eq_none, live buf]
        exact listed
      have freed := kept.lossless.accounted buf some issued gone
      exact Or.inr ⟨listed, gone, List.count_eq_one_of_mem heap.once freed⟩
  · have pending := List.length_filter_le
      (fun c => decide (pendingOf server c ≠ null)) server.connectionList
    have short : server.msgSendQueue.length ≤ 50001 := kept.lossless.short
    rw [packets, List.length_append, List.length_map]
    omega

def sampleReply : MsgBuf where
  hdr := { pConn := 1, iCurrsequence := 1, occ := some 0 }
  pkg := encodeHeader 8 0 0

/-- Of three packets one was sent, one is half sent and one waits. -/
theorem replies_accounted_sample :
    ∃ server : Server, packets server = [3, 2] ∧ (packets server).Nodup ∧
      server.sheap.frees.count 1 = 1 ∧ (packets server).length ≤ 50003 := by
  have seen : (run sampleConfig
      (fun server act => AnyEvent server act ∧ WritableOk sampleConfig server act)
      [.epollInit (fun _ => true) 1000, .accept 0 [.ok 5] true true 1001,
        .msgSend sampleReply 1002, .msgSend sampleReply 1002,
        .msgSend sampleReply 1002, .semWait false, .beginPass, .element (.sent 8) true,
        .element (.sent 3) true, .element .eagain true]).map
      (fun server => (packets server, server.sheap.next, server.connectionList.length)) =
        some ([3, 2], 4, 2) := by
    decide
  obtain ⟨server, reached, same⟩ := reachable_of_seen seen
  simp only [Prod.mk.injEq] at same
  obtain ⟨listed, next, objects⟩ := same
  obtain ⟨once, issued, bounded⟩ := replies_accounted sampleConfig server reached
  have freed : server.sheap.frees.count 1 = 1 := by
    rcases issued 1 (by decide) (by rw [next]; decide) with live | freed
    · rw [listed] at live
      exact absurd live.1 (by decide)
    · exact freed.2.2
  rw [objects] at bounded
  exact ⟨server, listed, once, freed, bounded⟩

end NgxServer.SendAccounting
