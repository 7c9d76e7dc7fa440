import NgxServer.PoolRefinement

/-!
# Headers belong to occupancies

An occupancy is the time between a successful accept and the closing of that
connection. Every message header and timer record that exists was stamped in
some occupancy, and its sequence number is the current one of its connection
exactly as long as that occupancy lasts. `Disciplined` is what the rest of the
process owes to the connection pool.
-/

namespace NgxServer.Occupancy

open NgxServer.Comm NgxServer.State NgxServer.ConnPool NgxServer.TimerQueue NgxServer.Socket
open NgxServer.Request NgxServer.Accept NgxServer.Logic NgxServer.System NgxServer.Frames
open NgxServer.PoolRefinement
open BlockHeap (Heap)
open QuarantinePool (Pool PoolStep PoolSteps Settled InService KeepsStamps)

set_option autoImplicit false

/-- A header was stamped when its occupancy was live. -/
def Stamped (pool : Pool) (hdr : MsgHeader) : Prop :=
  ∃ o < pool.nextOwner, hdr.occ = some o ∧ pool.stampOf o = (hdr.pConn, hdr.iCurrsequence)

theorem stamped_keeps {before after : Pool} {hdr : MsgHeader} (keeps : KeepsStamps before after)
    (stamped : Stamped before hdr) : Stamped after hdr := by
  obtain ⟨o, started, occ, stamp⟩ := stamped
  exact ⟨o, Nat.lt_of_lt_of_le started keeps.1, occ, (keeps.2 o started).trans stamp⟩

/-- A header is current exactly while the occupancy that stamped it lasts. -/
theorem stamped_current {pool : Pool} {limbo : List Nat} {hdr : MsgHeader}
    (stamps : QuarantinePool.Stamps pool limbo) (stamped : Stamped pool hdr) :
    hdr.iCurrsequence = pool.generation hdr.pConn ↔ pool.owner hdr.pConn = hdr.occ := by
  obtain ⟨o, started, occ, stamp⟩ := stamped
  have current := QuarantinePool.stamp_current_iff stamps started
  rwa [stamp, ← occ] at current

theorem settled_stamps {pool : Pool} (settled : Settled pool) :
    QuarantinePool.Stamps pool [] :=
  QuarantinePool.Invariant.stamps settled

def stampNow (server : Server) (c : ConnId) : MsgHeader where
  pConn := c
  iCurrsequence := (server.conns c).iCurrsequence
  occ := server.ghost.occ c

theorem stamp_now_of_view {before after : Server} (same : poolView after = poolView before)
    (c : ConnId) : stampNow after c = stampNow before c := by
  have stamped :=
    congrArg (fun pool : Pool => MsgHeader.mk c (pool.generation c) (pool.owner c)) same
  exact stamped

theorem stamp_now_stamped {server : Server} {c : ConnId} {o : OccId} {limbo : List Nat}
    (stamps : QuarantinePool.Stamps (poolView server) limbo)
    (serves : server.ghost.occ c = some o) : Stamped (poolView server) (stampNow server c) :=
  ⟨o, stamps.owner_lt c o serves, serves, stamps.current c o serves⟩

def Carries (heap : Heap MsgBuf) (hdr : MsgHeader) : Prop :=
  ∃ address msg, heap.block address = some msg ∧ msg.hdr = hdr

def CarriesRecord (heap : Heap MsgHeader) (hdr : MsgHeader) : Prop :=
  ∃ address, heap.block address = some hdr

theorem carries_free {heap : Heap MsgBuf} {address : Nat} {hdr : MsgHeader}
    (carried : Carries (BlockHeap.free heap address) hdr) : Carries heap hdr := by
  obtain ⟨other, msg, live, header⟩ := carried
  rw [BlockHeap.free_block] at live
  split at live
  · cases live
  · exact ⟨other, msg, live, header⟩

theorem carries_alloc {heap : Heap MsgBuf} {msg : MsgBuf} {hdr : MsgHeader}
    (carried : Carries (BlockHeap.alloc heap msg) hdr) : Carries heap hdr ∨ hdr = msg.hdr := by
  obtain ⟨other, found, live, header⟩ := carried
  rw [BlockHeap.alloc_block] at live
  split at live
  · cases live
    exact Or.inr header.symm
  · exact Or.inl ⟨other, found, live, header⟩

theorem carries_modify {heap : Heap MsgBuf} {address : Nat} {change : MsgBuf → MsgBuf}
    {hdr : MsgHeader} (kept : ∀ msg, (change msg).hdr = msg.hdr)
    (carried : Carries (BlockHeap.modify heap address change) hdr) : Carries heap hdr := by
  obtain ⟨other, found, live, header⟩ := carried
  rw [BlockHeap.modify_block] at live
  split at live
  · obtain ⟨msg, before, same⟩ := Option.map_eq_some_iff.mp live
    exact ⟨other, msg, before, by rw [← kept msg, same, header]⟩
  · exact ⟨other, found, live, header⟩

theorem carries_record_free {heap : Heap MsgHeader} {address : Nat} {hdr : MsgHeader}
    (carried : CarriesRecord (BlockHeap.free heap address) hdr) : CarriesRecord heap hdr := by
  obtain ⟨other, live⟩ := carried
  rw [BlockHeap.free_block] at live
  split at live
  · cases live
  · exact ⟨other, live⟩

theorem carries_record_alloc {heap : Heap MsgHeader} {record hdr : MsgHeader}
    (carried : CarriesRecord (BlockHeap.alloc heap record) hdr) :
    CarriesRecord heap hdr ∨ hdr = record := by
  obtain ⟨other, live⟩ := carried
  rw [BlockHeap.alloc_block] at live
  split at live
  · cases live
    exact Or.inr rfl
  · exact Or.inl ⟨other, live⟩

def Owned (entry : MsgHeader × Option OccId) : Prop :=
  entry.2 ≠ none ∧ entry.1.occ = entry.2

/-- Started occupancies keep their stamps, new headers are stamped, and new
log entries are owned. -/
structure Effect (before after : Server) : Prop where
  keeps : KeepsStamps (poolView before) (poolView after)
  requests : ∀ hdr, Carries after.rheap hdr →
    Carries before.rheap hdr ∨ Stamped (poolView after) hdr
  replies : ∀ hdr, Carries after.sheap hdr →
    Carries before.sheap hdr ∨ Stamped (poolView after) hdr
  records : ∀ hdr, CarriesRecord after.theap hdr →
    CarriesRecord before.theap hdr ∨ Stamped (poolView after) hdr
  dispatched : ∀ entry ∈ after.ghost.dispatches,
    entry ∈ before.ghost.dispatches ∨ Owned entry
  kicked : ∀ entry ∈ after.ghost.pingKicks, entry ∈ before.ghost.pingKicks ∨ Owned entry

theorem effect_refl (server : Server) : Effect server server where
  keeps := QuarantinePool.keeps_stamps_refl _
  requests := fun _ => Or.inl
  replies := fun _ => Or.inl
  records := fun _ => Or.inl
  dispatched := fun _ => Or.inl
  kicked := fun _ => Or.inl

theorem effect_trans {first second third : Server} (early : Effect first second)
    (late : Effect second third) : Effect first third where
  keeps := QuarantinePool.keeps_stamps_trans early.keeps late.keeps
  requests := by
    intro hdr carried
    rcases late.requests hdr carried with older | stamped
    · exact (early.requests hdr older).imp_right (stamped_keeps late.keeps)
    · exact Or.inr stamped
  replies := by
    intro hdr carried
    rcases late.replies hdr carried with older | stamped
    · exact (early.replies hdr older).imp_right (stamped_keeps late.keeps)
    · exact Or.inr stamped
  records := by
    intro hdr carried
    rcases late.records hdr carried with older | stamped
    · exact (early.records hdr older).imp_right (stamped_keeps late.keeps)
    · exact Or.inr stamped
  dispatched := by
    intro entry member
    rcases late.dispatched entry member with older | owned
    · exact early.dispatched entry older
    · exact Or.inr owned
  kicked := by
    intro entry member
    rcases late.kicked entry member with older | owned
    · exact early.kicked entry older
    · exact Or.inr owned

/-- Code that writes no header and no log, and stamps nothing. -/
theorem effect_of_shrink {before after : Server}
    (keeps : KeepsStamps (poolView before) (poolView after))
    (requests : ∀ hdr, Carries after.rheap hdr → Carries before.rheap hdr)
    (replies : ∀ hdr, Carries after.sheap hdr → Carries before.sheap hdr)
    (records : ∀ hdr, CarriesRecord after.theap hdr → CarriesRecord before.theap hdr)
    (dispatches : after.ghost.dispatches = before.ghost.dispatches)
    (pingKicks : after.ghost.pingKicks = before.ghost.pingKicks) : Effect before after where
  keeps := keeps
  requests := fun hdr carried => Or.inl (requests hdr carried)
  replies := fun hdr carried => Or.inl (replies hdr carried)
  records := fun hdr carried => Or.inl (records hdr carried)
  dispatched := fun _ member => Or.inl (dispatches ▸ member)
  kicked := fun _ member => Or.inl (pingKicks ▸ member)

structure HeaderState where
  nextOcc : OccId
  stampOf : OccId → ConnId × Nat
  rheap : Heap MsgBuf
  sheap : Heap MsgBuf
  theap : Heap MsgHeader
  dispatches : List (MsgHeader × Option OccId)
  pingKicks : List (MsgHeader × Option OccId)

def headerState (server : Server) : HeaderState where
  nextOcc := server.ghost.nextOcc
  stampOf := server.ghost.stampOf
  rheap := server.rheap
  sheap := server.sheap
  theap := server.theap
  dispatches := server.ghost.dispatches
  pingKicks := server.ghost.pingKicks

theorem effect_of_same {before after : Server} (same : headerState after = headerState before) :
    Effect before after := by
  have nextOcc : after.ghost.nextOcc = before.ghost.nextOcc := congrArg HeaderState.nextOcc same
  have stampOf : after.ghost.stampOf = before.ghost.stampOf := congrArg HeaderState.stampOf same
  have rheap : after.rheap = before.rheap := congrArg HeaderState.rheap same
  have sheap : after.sheap = before.sheap := congrArg HeaderState.sheap same
  have theap : after.theap = before.theap := congrArg HeaderState.theap same
  exact effect_of_shrink (QuarantinePool.keeps_stamps_of_eq nextOcc stampOf)
    (fun _ carried => rheap ▸ carried) (fun _ carried => sheap ▸ carried)
    (fun _ carried => theap ▸ carried) (congrArg HeaderState.dispatches same)
    (congrArg HeaderState.pingKicks same)

theorem carries_record_lbl_mtqm (c : ConnId) (rounds : Nat) (server : Server) (hdr : MsgHeader)
    (carried : CarriesRecord (lblMTQM c rounds server).theap hdr) :
    CarriesRecord server.theap hdr := by
  induction rounds generalizing server with
  | zero => exact carried
  | succ rounds ih =>
      unfold lblMTQM at carried
      split at carried
      · exact carried
      · exact carries_record_free (ih _ carried)

theorem carries_record_delete (server : Server) (c : ConnId) (hdr : MsgHeader)
    (carried : CarriesRecord (deleteFromTimerQueue server c).theap hdr) :
    CarriesRecord server.theap hdr := by
  unfold deleteFromTimerQueue at carried
  dsimp only at carried
  split at carried <;> exact carries_record_lbl_mtqm c _ server hdr carried

theorem zd_theap (cfg : Config) (server : Server) (c : ConnId) (now : Int) :
    (zdClosesocketProc cfg server c now).theap =
      (if cfg.ifkickTimeCount = 1 then deleteFromTimerQueue server c else server).theap := by
  unfold zdClosesocketProc inRecyConnectQueue dropThrowsend endOccupancy closeIfOpen
  dsimp only
  split_ifs <;> rfl

theorem effect_zd (cfg : Config) (server : Server) (c : ConnId) (now : Int) :
    Effect server (zdClosesocketProc cfg server c now) := by
  have same := forget_close_zd cfg server c now
  have rheap := congrArg Server.rheap same
  have sheap := congrArg Server.sheap same
  have nextOcc := congrArg (fun server => server.ghost.nextOcc) same
  have stampOf := congrArg (fun server => server.ghost.stampOf) same
  have dispatches := congrArg (fun server => server.ghost.dispatches) same
  have pingKicks := congrArg (fun server => server.ghost.pingKicks) same
  refine effect_of_shrink (QuarantinePool.keeps_stamps_of_eq nextOcc stampOf)
    (fun hdr carried => ?_) (fun hdr carried => ?_) ?_ dispatches pingKicks
  · exact (congrArg (Carries · hdr) rheap).mp carried
  · exact (congrArg (Carries · hdr) sheap).mp carried
  intro hdr carried
  rw [zd_theap] at carried
  split at carried
  · exact carries_record_delete server c hdr carried
  · exact carried

theorem effect_free_connection (server : Server) (c : ConnId) :
    Effect server (ngxFreeConnection server c) :=
  effect_of_shrink (QuarantinePool.keeps_stamps_refl _) (fun _ => carries_free)
    (fun _ => carries_free) (fun _ carried => carried) rfl rfl

theorem effect_close_if_open (server : Server) (c : ConnId) :
    Effect server (closeIfOpen server c) := by
  unfold closeIfOpen
  split <;> exact effect_of_same rfl

/-- A receive function gives no other header to a new buffer than the one that
its connection stamps. -/
def StampsNow (before after : Server) (c : ConnId) : Prop :=
  ∀ hdr, Carries after.rheap hdr → Carries before.rheap hdr ∨ hdr = stampNow before c

theorem store_bytes_headers (server : Server) (c : ConnId) (bytes : List Byte) (hdr : MsgHeader)
    (carried : Carries (storeBytes server c bytes).rheap hdr) : Carries server.rheap hdr := by
  unfold storeBytes at carried
  split at carried
  · exact carried
  · refine carries_modify ?_ carried
    exact fun _ => rfl

theorem flood_check_rheap (cfg : Config) (server : Server) (c : ConnId) (nowMs : Nat) :
    (floodCheck cfg server c nowMs).1.rheap = server.rheap := by
  unfold floodCheck
  split <;> rfl

theorem plast_headers (server : Server) (c : ConnId) (isflood : Bool) (hdr : MsgHeader)
    (carried : Carries (ngxWaitRequestHandlerProcPlast server c isflood).rheap hdr) :
    Carries server.rheap hdr := by
  unfold ngxWaitRequestHandlerProcPlast at carried
  dsimp only at carried
  split at carried
  · exact carried
  · exact carries_free carried

theorem proc_p1_headers (cfg : Config) (server : Server) (c : ConnId) (junk : Nat → Byte)
    (nowMs : Nat) :
    StampsNow server (ngxWaitRequestHandlerProcP1 cfg server c junk nowMs).1 c := by
  intro hdr carried
  have allocated : Carries (allocBuffer server c (pkgLen (server.conns c).recv.dataHeadInfo)
      junk).rheap hdr → Carries server.rheap hdr ∨ hdr = stampNow server c := by
    exact carries_alloc
  unfold ngxWaitRequestHandlerProcP1 at carried
  dsimp only at carried
  split_ifs at carried
  · exact Or.inl carried
  · exact Or.inl carried
  · have tested := plast_headers _ c _ hdr carried
    rw [flood_check_rheap] at tested
    exact allocated tested
  · exact allocated carried

theorem body_complete_headers (cfg : Config) (server : Server) (c : ConnId) (nowMs : Nat)
    (hdr : MsgHeader) (carried : Carries (bodyComplete cfg server c nowMs).1.rheap hdr) :
    Carries server.rheap hdr := by
  have tested := plast_headers (floodCheck cfg server c nowMs).1 c _ hdr carried
  rwa [flood_check_rheap] at tested

theorem receive_states_headers (cfg : Config) (server : Server) (c : ConnId) (reco : Nat)
    (junk : Nat → Byte) (nowMs : Nat) :
    StampsNow server (receiveStates cfg server c reco junk nowMs).1 c := by
  have completed := proc_p1_headers cfg server c junk nowMs
  intro hdr carried
  unfold receiveStates at carried
  dsimp only at carried
  split at carried <;> split at carried
  · exact completed hdr carried
  · exact Or.inl carried
  · exact completed hdr carried
  · exact Or.inl carried
  · exact Or.inl (body_complete_headers cfg server c nowMs hdr carried)
  · exact Or.inl carried
  · exact Or.inl (body_complete_headers cfg server c nowMs hdr carried)
  · exact Or.inl carried

theorem effect_of_recv {before after : Server} {c : ConnId}
    (same : forgetRecv after = forgetRecv before) (headers : StampsNow before after c)
    (stamped : Stamped (poolView before) (stampNow before c)) : Effect before after := by
  have view := pool_view_of_recv same
  have sheap := congrArg Server.sheap same
  have theap := congrArg Server.theap same
  have dispatches := congrArg (fun server => server.ghost.dispatches) same
  have pingKicks := congrArg (fun server => server.ghost.pingKicks) same
  refine ⟨?_, ?_, ?_, ?_, ?_, ?_⟩
  · rw [view]
    exact QuarantinePool.keeps_stamps_refl _
  · intro hdr carried
    rcases headers hdr carried with older | now
    · exact Or.inl older
    · rw [view, now]
      exact Or.inr stamped
  · exact fun hdr carried => Or.inl ((congrArg (Carries · hdr) sheap).mp carried)
  · exact fun hdr carried => Or.inl ((congrArg (CarriesRecord · hdr) theap).mp carried)
  · exact fun entry member => Or.inl ((congrArg (entry ∈ ·) dispatches).mp member)
  · exact fun entry member => Or.inl ((congrArg (entry ∈ ·) pingKicks).mp member)

/-- `ngx_read_request_handler` on a connection whose header would be stamped
if its descriptor is open. -/
theorem effect_read_request_handler (cfg : Config) (server : Server) (c : ConnId)
    (outcome : RecvOutcome) (junk : Nat → Byte) (nowMs : Nat) (now : Int)
    (stamped : (server.conns c).fd ≠ -1 → Stamped (poolView server) (stampNow server c)) :
    Effect server (ngxReadRequestHandler cfg server c outcome junk nowMs now) := by
  have closed := effect_zd cfg server c now
  unfold ngxReadRequestHandler recvproc
  split_ifs with shut
  · exact closed
  · cases outcome with
    | data bytes =>
        have stored := forget_recv_store_bytes server c bytes
        have received : Effect server
            (receiveStates cfg (storeBytes server c bytes) c bytes.length junk nowMs).1 := by
          refine effect_of_recv ((forget_recv_receive_states cfg _ c _ junk nowMs).trans stored)
            ?_ (stamped shut)
          intro hdr carried
          rcases receive_states_headers cfg _ c _ junk nowMs hdr carried with older | fresh
          · exact Or.inl (store_bytes_headers server c bytes hdr older)
          · exact Or.inr (fresh.trans (stamp_now_of_view (pool_view_of_recv stored) c))
        dsimp only
        split
        · exact effect_trans received (effect_zd cfg _ c now)
        · exact received
    | closed => exact closed
    | again => exact effect_refl server
    | error => exact closed

theorem effect_of_send {before after : Server} (same : forgetSend after = forgetSend before)
    (headers : ∀ hdr, Carries after.sheap hdr →
      Carries before.sheap hdr ∨ Stamped (poolView before) hdr) : Effect before after := by
  have view := pool_view_of_send same
  have rheap := congrArg Server.rheap same
  have theap := congrArg Server.theap same
  have dispatches := congrArg (fun server => server.ghost.dispatches) same
  have pingKicks := congrArg (fun server => server.ghost.pingKicks) same
  refine ⟨?_, ?_, ?_, ?_, ?_, ?_⟩
  · rw [view]
    exact QuarantinePool.keeps_stamps_refl _
  · exact fun hdr carried => Or.inl ((congrArg (Carries · hdr) rheap).mp carried)
  · rw [view]
    exact headers
  · exact fun hdr carried => Or.inl ((congrArg (CarriesRecord · hdr) theap).mp carried)
  · exact fun entry member => Or.inl ((congrArg (entry ∈ ·) dispatches).mp member)
  · exact fun entry member => Or.inl ((congrArg (entry ∈ ·) pingKicks).mp member)

theorem epoll_oper_sheap (server : Server) (fd : Int) (eventtype : EpollCtl) (flag : BitVec 32)
    (bcaction : Nat) (c : ConnId) (ctlOk : Bool) :
    (ngxEpollOperEvent server fd eventtype flag bcaction c ctlOk).1.sheap = server.sheap := by
  obtain ⟨events, kmask, same⟩ :=
    ngx_epoll_oper_event_frame server fd eventtype flag bcaction c ctlOk
  rw [same]
  rfl

theorem write_handler_headers (server : Server) (c : ConnId) (outcome : SendOutcome)
    (ctlOk : Bool) (hdr : MsgHeader)
    (carried : Carries (ngxWriteRequestHandler server c outcome ctlOk).sheap hdr) :
    Carries server.sheap hdr := by
  unfold ngxWriteRequestHandler at carried
  dsimp only at carried
  split_ifs at carried
  · exact carried
  · exact carried
  · have kept := carries_free carried
    rwa [epoll_oper_sheap] at kept
  · exact carries_free carried

theorem write_side_headers (server : Server) (c : ConnId) (revents : BitVec 32)
    (send : SendOutcome) (ctlOk : Bool) (hdr : MsgHeader)
    (carried : Carries (writeSide server c revents send ctlOk).sheap hdr) :
    Carries server.sheap hdr := by
  unfold writeSide at carried
  split_ifs at carried
  · exact carried
  · exact write_handler_headers server c send ctlOk hdr carried
  · exact carried

theorem await_writable_sheap (server : Server) (c : ConnId) (ctlOk : Bool) :
    (awaitWritable server c ctlOk).sheap = server.sheap :=
  epoll_oper_sheap _ _ _ _ _ _ _

theorem send_element_headers (server : Server) (pos pMsgBuf : Nat) (outcome : SendOutcome)
    (ctlOk : Bool) (hdr : MsgHeader)
    (carried : Carries (sendElement server pos pMsgBuf outcome ctlOk).sheap hdr) :
    Carries server.sheap hdr := by
  unfold sendElement at carried
  split at carried
  · exact carried
  · dsimp only at carried
    split_ifs at carried
    · exact carries_free carried
    · exact carried
    · unfold sendElementNow at carried
      dsimp only at carried
      split_ifs at carried
      · exact carries_free carried
      · rw [await_writable_sheap] at carried
        exact carried
      · exact carries_free carried
      · rw [await_writable_sheap] at carried
        exact carried
      · exact carries_free carried

theorem effect_write_side (server : Server) (c : ConnId) (revents : BitVec 32)
    (send : SendOutcome) (ctlOk : Bool) :
    Effect server (writeSide server c revents send ctlOk) :=
  effect_of_send (forget_send_write_side server c revents send ctlOk)
    fun hdr carried => Or.inl (write_side_headers server c revents send ctlOk hdr carried)

theorem effect_send_element (server : Server) (pos pMsgBuf : Nat) (outcome : SendOutcome)
    (ctlOk : Bool) : Effect server (sendElement server pos pMsgBuf outcome ctlOk) :=
  effect_of_send (forget_send_send_element server pos pMsgBuf outcome ctlOk)
    fun hdr carried => Or.inl (send_element_headers server pos pMsgBuf outcome ctlOk hdr carried)

theorem effect_queue_reply (cfg : Config) (server : Server) (msg : MsgBuf) (now : Int)
    (stamped : Stamped (poolView server) msg.hdr) :
    Effect server (queueReply cfg server msg now) := by
  have headers : ∀ hdr, Carries (allocReply server msg).sheap hdr →
      Carries server.sheap hdr ∨ Stamped (poolView server) hdr := by
    intro hdr carried
    rcases carries_alloc carried with older | same
    · exact Or.inl older
    · rw [same]
      exact Or.inr stamped
  have discarded : Effect server (discardSendPkg (allocReply server msg) server.sheap.next) :=
    effect_of_send rfl fun hdr carried => headers hdr (carries_free carried)
  rcases queue_reply_cases cfg server msg now with dropped | ⟨-, closed⟩ | queued
  · rw [dropped]
    exact discarded
  · rw [closed]
    exact effect_trans discarded (effect_zd cfg _ _ now)
  · rw [queued]
    exact effect_of_send (forget_send_push (allocReply server msg) _ msg) headers

theorem effect_get_connection (server : Server) (isock now : Int) :
    Effect server (ngxGetConnection server isock now).2 := by
  unfold ngxGetConnection
  split <;> exact effect_of_same rfl

theorem effect_open_occupancy (server : Server) (c : ConnId) :
    Effect server (openOccupancy server c) :=
  effect_of_shrink (QuarantinePool.own_keeps_stamps (poolView server) c) (fun _ carried => carried)
    (fun _ carried => carried) (fun _ carried => carried) rfl rfl

theorem effect_epoll_oper (server : Server) (fd : Int) (eventtype : EpollCtl) (flag : BitVec 32)
    (bcaction : Nat) (c : ConnId) (ctlOk : Bool) :
    Effect server (ngxEpollOperEvent server fd eventtype flag bcaction c ctlOk).1 := by
  obtain ⟨events, kmask, same⟩ :=
    ngx_epoll_oper_event_frame server fd eventtype flag bcaction c ctlOk
  rw [same]
  exact effect_of_same rfl

theorem effect_close_connection (server : Server) (c : ConnId) :
    Effect server (ngxCloseConnection server c) :=
  effect_trans (effect_free_connection server c) (effect_close_if_open _ c)

theorem effect_add_to_timer_queue (cfg : Config) (server : Server) (c : ConnId) (now : Int)
    (stamped : Stamped (poolView server) (stampNow server c)) :
    Effect server (addToTimerQueue cfg server c now) where
  keeps := QuarantinePool.keeps_stamps_refl _
  requests := fun _ => Or.inl
  replies := fun _ => Or.inl
  records := by
    intro hdr carried
    rcases carries_record_alloc carried with older | same
    · exact Or.inl older
    · rw [same]
      exact Or.inr stamped
  dispatched := fun _ => Or.inl
  kicked := fun _ => Or.inl

theorem effect_register_connection (cfg : Config) (server : Server) (newc : ConnId) (s : Int)
    (nonblockOk ctlOk : Bool) (now : Int)
    (stamped : Stamped (poolView server) (stampNow server newc)) :
    Effect server (registerConnection cfg server newc s nonblockOk ctlOk now) := by
  have handled : Effect server
      (server.modConn newc fun p => { p with rhandler := .ngxReadRequestHandler }) :=
    effect_of_same rfl
  have handledView := pool_view_mod_conn server newc
    (fun p => { p with rhandler := .ngxReadRequestHandler }) rfl rfl
  have registered := effect_trans handled (effect_epoll_oper
    (server.modConn newc fun p => { p with rhandler := .ngxReadRequestHandler }) s .add
    (epollIn ||| epollRdhup) 0 newc ctlOk)
  have registeredView := (pool_view_of_send (forget_send_epoll_oper
    (server.modConn newc fun p => { p with rhandler := .ngxReadRequestHandler }) s .add
    (epollIn ||| epollRdhup) 0 newc ctlOk)).trans handledView
  unfold registerConnection
  split
  · exact effect_close_connection server newc
  · dsimp only
    split
    · exact effect_trans registered (effect_close_connection _ newc)
    · apply effect_trans registered
      split
      · have timed := effect_add_to_timer_queue cfg _ newc now (by
          rw [registeredView, stamp_now_of_view registeredView]
          exact stamped)
        exact effect_trans timed (effect_of_same rfl)
      · exact effect_of_same rfl

theorem effect_accept_socket (cfg : Config) (server : Server) (s : Int) (nonblockOk ctlOk : Bool)
    (now : Int) : Effect server (acceptSocket cfg server s nonblockOk ctlOk now) := by
  unfold acceptSocket
  split_ifs
  · exact effect_of_same rfl
  · exact effect_of_same rfl
  · dsimp only
    apply effect_trans (effect_get_connection server s now)
    apply effect_trans (effect_open_occupancy _ (ngxGetConnection server s now).1)
    apply effect_register_connection cfg _ _ s nonblockOk ctlOk now
    refine ⟨(ngxGetConnection server s now).2.ghost.nextOcc, Nat.lt_succ_self _, ?_, ?_⟩
    · exact Function.update_self _ _ _
    · exact Function.update_self _ _ _

theorem effect_event_accept (cfg : Config) (nonblockOk ctlOk : Bool) (now : Int)
    (outcomes : List AcceptOutcome) (server : Server) :
    Effect server (ngxEventAccept cfg server nonblockOk ctlOk now outcomes) := by
  induction outcomes generalizing server with
  | nil => exact effect_refl server
  | cons outcome rest ih =>
      cases outcome with
      | ok s =>
          have opened : Effect server (openSocket server s) := effect_of_same rfl
          exact effect_trans opened (effect_accept_socket cfg _ s nonblockOk ctlOk now)
      | err code =>
          unfold ngxEventAccept
          split_ifs
          · exact effect_refl server
          · have toggled : Effect server { server with useAccept4 := false } := effect_of_same rfl
            exact effect_trans toggled (ih { server with useAccept4 := false })
          · exact effect_refl server

theorem effect_initconnection (cfg : Config) (now : Int) (server : Server) :
    Effect server (initconnection cfg now server) := by
  have filled : ∀ count server,
      Effect server (Nat.iterate (addFreeConnection now) count server) := by
    intro count
    induction count with
    | zero => exact effect_refl
    | succ count ih =>
        intro server
        have grown : Effect server (addFreeConnection now server) := effect_of_same rfl
        exact effect_trans grown (ih (addFreeConnection now server))
  exact effect_trans (filled cfg.workerConnections server) (effect_of_same rfl)

theorem effect_listen_on (ctl : Int → Bool) (now : Int) (server after : Server) (fd : Int)
    (done : listenOn ctl now server fd = some after) : Effect server after := by
  unfold listenOn at done
  dsimp only at done
  split at done
  · cases done
  · cases done
    apply effect_trans (effect_get_connection server fd now)
    refine effect_trans ?_ (effect_epoll_oper _ _ _ _ _ _ _)
    exact effect_of_same rfl

theorem effect_epoll_init (cfg : Config) (server after : Server) (ctl : Int → Bool) (now : Int)
    (done : ngxEpollInit cfg server ctl now = some after) : Effect server after := by
  have reserved : ∀ fds start, List.foldlM (listenOn ctl now) start fds = some after →
      Effect start after := by
    intro fds
    induction fds with
    | nil =>
        intro start same
        cases same
        exact effect_refl _
    | cons fd rest ih =>
        intro start loops
        rw [List.foldlM_cons] at loops
        obtain ⟨next, listens, later⟩ := Option.bind_eq_some_iff.mp loops
        exact effect_trans (effect_listen_on ctl now start next fd listens) (ih next later)
  exact effect_trans (effect_initconnection cfg now server) (reserved server.listenFds _ done)

theorem effect_recy_connection_pass (cfg : Config) (server : Server) (currtime gStopEvent : Int) :
    Effect server (serverRecyConnectionPass cfg server currtime gStopEvent) := by
  have looped : ∀ rounds server, Effect server (lblRRTD cfg currtime gStopEvent rounds server) := by
    intro rounds
    induction rounds with
    | zero => exact effect_refl
    | succ rounds ih =>
        intro server
        unfold lblRRTD
        split
        · exact effect_refl server
        case h_2 c found =>
          have erased : Effect server
              { server with
                totolRecyconnectionN := server.totolRecyconnectionN - 1
                recyconnectionList := server.recyconnectionList.erase c } := effect_of_same rfl
          have released := effect_trans erased (effect_free_connection _ c)
          exact effect_trans released (ih (releaseConnection server c))
  unfold serverRecyConnectionPass
  split
  · exact looped _ server
  · exact effect_refl server

theorem over_time_records (cfg : Config) (server : Server) (curTime : Int) (hdr : MsgHeader)
    (carried : CarriesRecord (getOverTimeTimer cfg server curTime).2.theap hdr) :
    CarriesRecord server.theap hdr := by
  have removed : (removeFirstTimer server).2.theap = server.theap := by
    unfold removeFirstTimer
    split
    · rfl
    · split <;> rfl
  unfold getOverTimeTimer at carried
  split_ifs at carried with empty due kick
  · exact carried
  · split at carried
    case h_1 rest same =>
      rw [same] at removed
      rwa [removed] at carried
    case h_2 ptmp rest same =>
      rw [same] at removed
      have kept : CarriesRecord rest.theap hdr := by
        dsimp only at carried
        split at carried
        case h_1 gone => split at carried <;> exact carried
        case h_2 record live =>
          have inserted : CarriesRecord (BlockHeap.alloc rest.theap record) hdr := by
            split at carried <;> exact carried
          rcases carries_record_alloc inserted with older | same
          · exact older
          · exact ⟨ptmp, same ▸ live⟩
      rwa [removed] at kept
  · split at carried
    case h_1 rest same =>
      rw [same] at removed
      rwa [removed] at carried
    case h_2 ptmp rest same =>
      rw [same] at removed
      have kept : CarriesRecord rest.theap hdr := by
        dsimp only at carried
        split at carried <;> exact carried
      rwa [removed] at kept
  · exact carried

theorem drain_records (cfg : Config) (curTime : Int) (rounds : Nat) (server : Server)
    (hdr : MsgHeader)
    (carried : CarriesRecord (drainOverTime cfg curTime rounds server).theap hdr) :
    CarriesRecord server.theap hdr := by
  induction rounds generalizing server with
  | zero => exact carried
  | succ rounds ih =>
      have taken := over_time_records cfg server curTime hdr
      unfold drainOverTime at carried
      split at carried
      case h_1 rest same =>
        rw [same] at taken
        exact taken carried
      case h_2 record rest same =>
        rw [same] at taken
        have older := ih { rest with lsIdleList := rest.lsIdleList ++ [record] } carried
        exact taken older

theorem effect_monitor_pop (cfg : Config) (server : Server) (curTime : Int) :
    Effect server (serverTimerQueuePop cfg server curTime) := by
  have same := forget_monitor_pop cfg server curTime
  have view := pool_view_of_monitor same
  have rheap := congrArg Server.rheap same
  have sheap := congrArg Server.sheap same
  have dispatches := congrArg (fun server => server.ghost.dispatches) same
  have pingKicks := congrArg (fun server => server.ghost.pingKicks) same
  refine effect_of_shrink ?_ (fun hdr carried => ?_) (fun hdr carried => ?_) ?_ dispatches
    pingKicks
  · rw [view]
    exact QuarantinePool.keeps_stamps_refl _
  · exact (congrArg (Carries · hdr) rheap).mp carried
  · exact (congrArg (Carries · hdr) sheap).mp carried
  · intro hdr carried
    unfold serverTimerQueuePop at carried
    split at carried
    · exact drain_records cfg curTime _ server hdr carried
    · exact carried

/-- The monitor closes a connection only on behalf of the occupancy whose
record it was given. -/
theorem effect_ping_check (cfg : Config) (server : Server) (tmpmsg : Nat) (curTime now : Int)
    (settled : Settled (poolView server))
    (records : ∀ hdr, CarriesRecord server.theap hdr → Stamped (poolView server) hdr) :
    Effect server (procPingTimeOutChecking cfg server tmpmsg curTime now) := by
  unfold procPingTimeOutChecking
  split
  · exact effect_refl server
  case h_2 record found =>
    have freed : ∀ checked : Server, Effect checked (freeRecord checked tmpmsg) := by
      intro checked
      exact effect_of_shrink (QuarantinePool.keeps_stamps_refl _) (fun _ carried => carried)
        (fun _ carried => carried) (fun _ => carries_record_free) rfl rfl
    refine effect_trans ?_ (freed _)
    unfold kickOverdue
    split_ifs with current overdue
    · refine effect_trans ?_ (effect_zd cfg _ record.pConn now)
      have stamped := records record ⟨tmpmsg, found⟩
      have live := (stamped_current (settled_stamps settled) stamped).mp current
      obtain ⟨o, -, occ, -⟩ := stamped
      refine ⟨QuarantinePool.keeps_stamps_refl _, fun _ => Or.inl, fun _ => Or.inl,
        fun _ => Or.inl, fun _ => Or.inl, ?_⟩
      intro entry member
      rcases List.mem_append.mp member with older | new
      · exact Or.inl older
      · rw [List.mem_singleton.mp new]
        have owner : server.ghost.occ record.pConn = record.occ := live
        exact Or.inr ⟨by simp [owner, occ], owner.symm⟩
    · exact effect_refl server
    · exact effect_refl server

/-- What `processMessage` does: nothing, a dispatch without a reply, or a dispatch
and a call of `msgSend` from the handler. -/
theorem process_message_cases (cfg : Config) (server : Server) (jobbuf : Nat)
    (junk : Nat → Byte) (now : Int) :
    processMessage cfg server jobbuf junk now = server ∨
      ∃ msg dispatched, server.rheap.block jobbuf = some msg ∧
        (server.conns msg.hdr.pConn).iCurrsequence = msg.hdr.iCurrsequence ∧
        dispatched = { server with
          ghost.dispatches := server.ghost.dispatches ++
            [(msg.hdr, server.ghost.occ msg.hdr.pConn)] } ∧
        (processMessage cfg server jobbuf junk now = dispatched ∨
          ∃ answer noted, answer.hdr = msg.hdr ∧ Sized answer ∧
            (noted = dispatched ∨
              noted = dispatched.modConn msg.hdr.pConn fun p => { p with lastPingTime := now }) ∧
            processMessage cfg server jobbuf junk now = queueReply cfg noted answer now) := by
  unfold processMessage
  split
  · exact Or.inl rfl
  case h_2 msg live =>
    split
    · exact Or.inl rfl
    case h_2 call accepted =>
      obtain ⟨-, found, header, -⟩ := thread_recv_proc_func_ok.mp accepted
      refine Or.inr ⟨msg, _, live, (find_handler_ok.mp found).1, rfl, ?_⟩
      unfold runHandler
      split
      · exact Or.inl rfl
      case h_2 answer replies =>
        refine Or.inr ⟨answer, _, (reply_header replies).trans header, reply_sized replies, ?_,
          rfl⟩
        split
        · rw [header]
          exact Or.inr rfl
        · exact Or.inl rfl

/-- Every header in the process belongs to an occupancy, and the pool is
sound. -/
structure Attributed (server : Server) : Prop where
  settled : Settled (poolView server)
  requests : ∀ hdr, Carries server.rheap hdr → Stamped (poolView server) hdr
  replies : ∀ hdr, Carries server.sheap hdr → Stamped (poolView server) hdr
  records : ∀ hdr, CarriesRecord server.theap hdr → Stamped (poolView server) hdr
  dispatched : ∀ entry ∈ server.ghost.dispatches, Owned entry
  kicked : ∀ entry ∈ server.ghost.pingKicks, Owned entry

/-- A request that passes the staleness check comes from the occupancy that its
connection serves. -/
theorem current_owner {server : Server} {hdr : MsgHeader} (settled : Settled (poolView server))
    (stamped : Stamped (poolView server) hdr)
    (current : (server.conns hdr.pConn).iCurrsequence = hdr.iCurrsequence) :
    server.ghost.occ hdr.pConn = hdr.occ ∧ hdr.occ ≠ none := by
  have owner := (stamped_current (settled_stamps settled) stamped).mp current.symm
  obtain ⟨o, -, occ, -⟩ := stamped
  exact ⟨owner, by simp [occ]⟩

theorem owner_in_service {pool : Pool} {c : Nat} (settled : Settled pool)
    (serves : pool.owner c ≠ none) : InService pool c := by
  obtain ⟨o, owns⟩ := Option.ne_none_iff_exists'.mp serves
  obtain ⟨used, unpinned⟩ := (settled_stamps settled).owner_used c o owns
  have member := (QuarantinePool.mem_in_use pool c).mp used
  exact ⟨member.1, member.2.1, unpinned⟩

theorem effect_process_message (cfg : Config) (server : Server) (jobbuf : Nat)
    (junk : Nat → Byte) (now : Int) (attributed : Attributed server) :
    Effect server (processMessage cfg server jobbuf junk now) := by
  rcases process_message_cases cfg server jobbuf junk now with
    same | ⟨msg, dispatched, live, current, logged, ends⟩
  · rw [same]
    exact effect_refl server
  · have stamped := attributed.requests msg.hdr ⟨jobbuf, msg, live, rfl⟩
    obtain ⟨owner, occ⟩ := current_owner attributed.settled stamped current
    have early : Effect server dispatched := by
      rw [logged]
      refine ⟨QuarantinePool.keeps_stamps_refl _, fun _ => Or.inl, fun _ => Or.inl,
        fun _ => Or.inl, ?_, fun _ => Or.inl⟩
      intro entry member
      rcases List.mem_append.mp member with older | new
      · exact Or.inl older
      · rw [List.mem_singleton.mp new]
        exact Or.inr ⟨by rw [owner]; exact occ, owner.symm⟩
    have view : poolView dispatched = poolView server := by rw [logged]; rfl
    rcases ends with silent | ⟨answer, noted, header, -, notes, replies⟩
    · rw [silent]
      exact early
    · rw [replies]
      have notedEffect : Effect dispatched noted := by
        rcases notes with same | same
        · rw [same]
          exact effect_refl dispatched
        · rw [same]
          exact effect_of_same rfl
      have notedView : poolView noted = poolView server := by
        rcases notes with same | same
        · rw [same, view]
        · rw [same, pool_view_mod_conn dispatched _ _ rfl rfl, view]
      refine effect_trans early (effect_trans notedEffect ?_)
      apply effect_queue_reply cfg noted answer now
      rw [header, notedView]
      exact stamped

/-- What the connection pool relies on. Events and calls of
`zdClosesocketProc` concern client connections that are in use or wait for
recycling: epoll reports nothing else, and nobody keeps a connection longer
than the recycle thread waits. A message passed to `msgSend` was stamped in
some occupancy, which may be over, and if `msgSend` closes its connection, that
connection is in service. -/
def Disciplined (server : Server) : Act → Prop
  | .event c _ _ _ _ _ _ _ => InService (poolView server) c
  | .close c _ => InService (poolView server) c
  | .msgSend msg _ =>
      Stamped (poolView server) msg.hdr ∧
        (400 < (server.conns msg.hdr.pConn).security.iSendCount →
          InService (poolView server) msg.hdr.pConn)
  | _ => True

instance (pool : Pool) (c : Nat) : Decidable (InService pool c) :=
  inferInstanceAs (Decidable (c ∈ pool.all ∧ c ∉ pool.free ∧ c ∉ pool.pinned))

instance (pool : Pool) (hdr : MsgHeader) : Decidable (Stamped pool hdr) :=
  inferInstanceAs (Decidable (∃ o < pool.nextOwner,
    hdr.occ = some o ∧ pool.stampOf o = (hdr.pConn, hdr.iCurrsequence)))

instance (server : Server) : (act : Act) → Decidable (Disciplined server act)
  | .event c _ _ _ _ _ _ _ => inferInstanceAs (Decidable (InService (poolView server) c))
  | .close c _ => inferInstanceAs (Decidable (InService (poolView server) c))
  | .msgSend msg _ =>
      inferInstanceAs (Decidable (Stamped (poolView server) msg.hdr ∧
        (400 < (server.conns msg.hdr.pConn).security.iSendCount →
          InService (poolView server) msg.hdr.pConn)))
  | .epollInit _ _ | .accept _ _ _ _ _ | .semWait _ | .beginPass | .element _ _ | .endPass
  | .take _ | .process _ _ _ | .release _ | .monitorPop _ | .monitorCheck _ | .recycle _ =>
      isTrue trivial

def Inner : Act → Prop
  | .msgSend _ _ | .event _ _ _ _ _ _ _ _ | .element _ _ => False
  | _ => True

def decidableWith (server : Server) {extra : Act → Prop}
    (msgSend : ∀ msg now, Decidable (extra (.msgSend msg now)))
    (event : ∀ c revents recv send ctlOk junk nowMs now,
      Decidable (extra (.event c revents recv send ctlOk junk nowMs now)))
    (element : ∀ outcome ctlOk, Decidable (extra (.element outcome ctlOk)))
    (others : ∀ act, Inner act → extra act) :
    (act : Act) → Decidable (Disciplined server act ∧ extra act)
  | .msgSend msg now => @instDecidableAnd _ _ _ (msgSend msg now)
  | .event c revents recv send ctlOk junk nowMs now =>
      @instDecidableAnd _ _ _ (event c revents recv send ctlOk junk nowMs now)
  | .element outcome ctlOk => @instDecidableAnd _ _ _ (element outcome ctlOk)
  | .close c now => @instDecidableAnd _ _ _ (isTrue (others (.close c now) trivial))
  | .epollInit ctl now => isTrue ⟨trivial, others (.epollInit ctl now) trivial⟩
  | .accept oldc outcomes nonblockOk ctlOk now =>
      isTrue ⟨trivial, others (.accept oldc outcomes nonblockOk ctlOk now) trivial⟩
  | .semWait interrupted => isTrue ⟨trivial, others (.semWait interrupted) trivial⟩
  | .beginPass => isTrue ⟨trivial, others .beginPass trivial⟩
  | .endPass => isTrue ⟨trivial, others .endPass trivial⟩
  | .take worker => isTrue ⟨trivial, others (.take worker) trivial⟩
  | .process worker junk now => isTrue ⟨trivial, others (.process worker junk now) trivial⟩
  | .release worker => isTrue ⟨trivial, others (.release worker) trivial⟩
  | .monitorPop curTime => isTrue ⟨trivial, others (.monitorPop curTime) trivial⟩
  | .monitorCheck curTime => isTrue ⟨trivial, others (.monitorCheck curTime) trivial⟩
  | .recycle currtime => isTrue ⟨trivial, others (.recycle currtime) trivial⟩

theorem steps_of_may_retire {before after : Server} {c : ConnId}
    (retires : MayRetire before after c) (serves : InService (poolView before) c) :
    PoolSteps (poolView before) (poolView after) := by
  rcases retires with same | retired
  · rw [same]
  · rw [retired]
    exact Relation.ReflTransGen.single (PoolStep.retire c serves)

theorem open_in_service {pool : Pool} {c : Nat} (settled : Settled pool)
    (serves : InService pool c) (opened : pool.handle c ≠ -1) : pool.owner c ≠ none := by
  obtain ⟨inAll, notFree, unpinned⟩ := serves
  have holds := QuarantinePool.settled_ready settled (List.ne_nil_of_mem inAll)
  have notQuarantined : c ∉ pool.quarantine := by
    intro waits
    exact opened (holds.handles.idle c (Or.inr waits))
  have used := (QuarantinePool.mem_in_use pool c).mpr ⟨inAll, notFree, notQuarantined⟩
  exact holds.stamps.used_owner c used unpinned (by simp)

/-- Seen in the pool, a disciplined step of the process is a sequence of steps
of the abstract pool. -/
theorem step_refines {cfg : Config} {server after : Server} {act : Act}
    (attributed : Attributed server) (disciplined : Disciplined server act)
    (taken : step cfg server act = some after) :
    PoolSteps (poolView server) (poolView after) := by
  have settled := attributed.settled
  cases stepped_of_step taken with
  | epollInit ctl now _ empty done =>
      rw [ngx_epoll_init_view cfg server after ctl now done]
      exact Relation.ReflTransGen.single (PoolStep.setUp _ empty)
  | accept oldc outcomes nonblockOk ctlOk now listening possible =>
      apply ngx_event_accept_view cfg nonblockOk ctlOk now outcomes server possible
      have pinned : oldc ∈ QuarantinePool.placed (poolView server) [] := by
        simp [QuarantinePool.placed, poolView, listening]
      exact List.ne_nil_of_mem (settled.places.placed_all oldc pinned)
  | event c revents recv send ctlOk junk nowMs now =>
      exact steps_of_may_retire (event_view cfg server c revents recv send ctlOk junk nowMs now)
        disciplined
  | msgSend msg now =>
      obtain ⟨sent, same, ends⟩ := queue_reply_frame cfg server msg now
      rcases ends with kept | ⟨flooded, closed⟩
      · rw [kept, pool_view_of_send same]
      · rw [closed, zd_closesocket_proc_view, pool_view_of_send same]
        exact Relation.ReflTransGen.single (PoolStep.retire _ (disciplined.2 flooded))
  | semWait interrupted => exact Relation.ReflTransGen.refl
  | beginPass => exact Relation.ReflTransGen.refl
  | element outcome ctlOk pos pMsgBuf =>
      rw [pool_view_of_send (forget_send_send_element server pos pMsgBuf outcome ctlOk)]
  | endPass => exact Relation.ReflTransGen.refl
  | take worker jobbuf rest => exact Relation.ReflTransGen.refl
  | process worker jobbuf junk now =>
      have processed : PoolSteps (poolView server)
          (poolView (processMessage cfg server jobbuf junk now)) := by
        rcases process_message_cases cfg server jobbuf junk now with
          same | ⟨msg, dispatched, live, current, logged, ends⟩
        · rw [same]
        · have stamped := attributed.requests msg.hdr ⟨jobbuf, msg, live, rfl⟩
          obtain ⟨owner, occ⟩ := current_owner settled stamped current
          have serves : InService (poolView server) msg.hdr.pConn :=
            owner_in_service settled (by rw [← owner] at occ; exact occ)
          have view : poolView dispatched = poolView server := by rw [logged]; rfl
          rcases ends with silent | ⟨answer, noted, header, -, notes, replies⟩
          · rw [silent, view]
          · have notedView : poolView noted = poolView server := by
              rcases notes with same | same
              · rw [same, view]
              · rw [same, pool_view_mod_conn dispatched _ _ rfl rfl, view]
            rw [replies, ← notedView]
            apply steps_of_may_retire (queue_reply_view cfg noted answer now)
            rw [header, notedView]
            exact serves
      exact processed
  | release worker jobbuf => exact Relation.ReflTransGen.refl
  | monitorPop curTime =>
      rw [pool_view_of_monitor (forget_monitor_pop cfg server curTime)]
  | monitorCheck now tmpmsg rest =>
      unfold procPingTimeOutChecking
      split
      · exact Relation.ReflTransGen.refl
      case h_2 record found =>
        have freed : ∀ checked : Server, poolView (freeRecord checked tmpmsg) = poolView checked :=
          fun _ => rfl
        rw [freed]
        unfold kickOverdue
        split_ifs with current overdue
        · have stamped := attributed.records record ⟨tmpmsg, found⟩
          obtain ⟨owner, occ⟩ := current_owner settled stamped current.symm
          have serves : InService (poolView server) record.pConn :=
            owner_in_service settled (by rw [← owner] at occ; exact occ)
          rw [zd_closesocket_proc_view]
          exact Relation.ReflTransGen.single (PoolStep.retire record.pConn serves)
        · exact Relation.ReflTransGen.refl
        · exact Relation.ReflTransGen.refl
  | recycle currtime => exact recy_connection_pass_view cfg server currtime 0
  | close c now =>
      rw [zd_closesocket_proc_view]
      exact Relation.ReflTransGen.single (PoolStep.retire c disciplined)

theorem effect_step {cfg : Config} {server after : Server} {act : Act}
    (attributed : Attributed server) (disciplined : Disciplined server act)
    (taken : step cfg server act = some after) : Effect server after := by
  cases stepped_of_step taken with
  | epollInit ctl now _ empty done => exact effect_epoll_init cfg server after ctl now done
  | accept oldc outcomes nonblockOk ctlOk now =>
      exact effect_event_accept cfg nonblockOk ctlOk now outcomes server
  | event c revents recv send ctlOk junk nowMs now =>
      refine effect_trans ?_ (effect_write_side _ c revents send ctlOk)
      unfold readSide
      split
      · apply effect_read_request_handler cfg server c recv junk nowMs now
        intro opened
        obtain ⟨o, serves⟩ := Option.ne_none_iff_exists'.mp
          (open_in_service attributed.settled disciplined opened)
        exact stamp_now_stamped (settled_stamps attributed.settled) serves
      · exact effect_refl server
  | msgSend msg now => exact effect_queue_reply cfg server msg now disciplined.1
  | semWait interrupted => exact effect_of_same rfl
  | beginPass => exact effect_of_same rfl
  | element outcome ctlOk pos pMsgBuf =>
      exact effect_send_element server pos pMsgBuf outcome ctlOk
  | endPass => exact effect_of_same rfl
  | take worker jobbuf rest => exact effect_of_same rfl
  | process worker jobbuf junk now =>
      exact effect_trans (effect_process_message cfg server jobbuf junk now attributed)
        (effect_of_same rfl)
  | release worker jobbuf =>
      exact effect_of_shrink (QuarantinePool.keeps_stamps_refl _) (fun _ => carries_free)
        (fun _ carried => carried) (fun _ carried => carried) rfl rfl
  | monitorPop curTime => exact effect_monitor_pop cfg server curTime
  | monitorCheck now tmpmsg rest =>
      have popped : Effect server { server with lsIdleList := rest } := effect_of_same rfl
      exact effect_trans popped (effect_ping_check cfg { server with lsIdleList := rest } tmpmsg
        server.monitorTime now attributed.settled attributed.records)
  | recycle currtime => exact effect_recy_connection_pass cfg server currtime 0
  | close c now => exact effect_zd cfg server c now

theorem attributed_step {cfg : Config} {server after : Server} {act : Act}
    (attributed : Attributed server) (disciplined : Disciplined server act)
    (taken : step cfg server act = some after) : Attributed after := by
  have effect := effect_step attributed disciplined taken
  refine ⟨QuarantinePool.settled_steps attributed.settled
    (step_refines attributed disciplined taken), ?_, ?_, ?_, ?_, ?_⟩
  · intro hdr carried
    rcases effect.requests hdr carried with older | stamped
    · exact stamped_keeps effect.keeps (attributed.requests hdr older)
    · exact stamped
  · intro hdr carried
    rcases effect.replies hdr carried with older | stamped
    · exact stamped_keeps effect.keeps (attributed.replies hdr older)
    · exact stamped
  · intro hdr carried
    rcases effect.records hdr carried with older | stamped
    · exact stamped_keeps effect.keeps (attributed.records hdr older)
    · exact stamped
  · intro entry member
    exact (effect.dispatched entry member).elim (attributed.dispatched entry) id
  · intro entry member
    exact (effect.kicked entry member).elim (attributed.kicked entry) id

theorem fresh_attributed {server : Server} (fresh : Fresh server) : Attributed server := by
  obtain ⟨listenFds, nodup, nonneg, rfl⟩ := fresh
  have view : poolView (Server.construct listenFds) = QuarantinePool.initial listenFds := by
    simp [poolView, Server.construct, QuarantinePool.initial, Ghost.start,
      NgxConnection.construct]
  refine ⟨?_, ?_, ?_, ?_, ?_, ?_⟩
  · rw [view]
    exact QuarantinePool.initial_settled nodup nonneg
  · rintro hdr ⟨address, msg, live, -⟩
    cases live
  · rintro hdr ⟨address, msg, live, -⟩
    cases live
  · rintro hdr ⟨address, live⟩
    cases live
  · intro entry member
    cases member
  · intro entry member
    cases member

theorem reachable_attributed {cfg : Config} {allowed : Server → Act → Prop} {server : Server}
    (disciplined : ∀ server act, allowed server act → Disciplined server act)
    (reached : Reachable cfg allowed server) : Attributed server :=
  TransitionSystem.invariant_of_step Attributed (fun _ => fresh_attributed)
    (fun _ _ _ attributed permitted taken =>
      attributed_step attributed (disciplined _ _ permitted) taken) reached

end NgxServer.Occupancy
